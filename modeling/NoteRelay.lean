import NoteRelay.Chat.Acceptance
import NoteRelay.Chat.Frame
import NoteRelay.Chat.Session
import NoteRelay.Chat.Trigger
import NoteRelay.ChatMessage
import NoteRelay.Credentials.Hmac
import NoteRelay.Credentials.Resolve
import NoteRelay.Failure
import NoteRelay.Http.Routing
import NoteRelay.Identity
import NoteRelay.Inboxes.Shared
import NoteRelay.Json.Decode
import NoteRelay.Json.Parser
import NoteRelay.Json.Printer
import NoteRelay.NoteEvent
import NoteRelay.Notify.Frame
import NoteRelay.Notify.Subscription
import NoteRelay.Proofs.Callers
import NoteRelay.Proofs.Cancellation
import NoteRelay.Proofs.Chat.Acceptance
import NoteRelay.Proofs.Chat.Account
import NoteRelay.Proofs.Chat.Course
import NoteRelay.Proofs.Chat.Delivery
import NoteRelay.Proofs.Chat.Input
import NoteRelay.Proofs.Chat.Intake
import NoteRelay.Proofs.Chat.Isolation
import NoteRelay.Proofs.Chat.Outcome
import NoteRelay.Proofs.Chat.Rounds
import NoteRelay.Proofs.Chat.Tempo
import NoteRelay.Proofs.Chat.Turn
import NoteRelay.Proofs.Chat.Unfailing
import NoteRelay.Proofs.Chronicle
import NoteRelay.Proofs.Clock
import NoteRelay.Proofs.Course
import NoteRelay.Proofs.Disclosure
import NoteRelay.Proofs.Formats
import NoteRelay.Proofs.Inboxes.Linearization
import NoteRelay.Proofs.Json.RoundTrip
import NoteRelay.Proofs.Lifetimes
import NoteRelay.Proofs.Masking
import NoteRelay.Proofs.Notify.Conservation
import NoteRelay.Proofs.Notify.Course
import NoteRelay.Proofs.Notify.Polling
import NoteRelay.Proofs.Notify.Turn
import NoteRelay.Proofs.Outbox
import NoteRelay.Proofs.Pacing
import NoteRelay.Proofs.Publishing
import NoteRelay.Proofs.Redis.Refinement
import NoteRelay.Proofs.Redis.Server
import NoteRelay.Proofs.Service
import NoteRelay.Proofs.Settings.Files
import NoteRelay.Proofs.Settings.Layers
import NoteRelay.Proofs.Settings.Precedence
import NoteRelay.Proofs.Settings.Reading
import NoteRelay.Proofs.Settings.Running
import NoteRelay.Proofs.Settings.Variables
import NoteRelay.Proofs.Socket.Reading
import NoteRelay.Proofs.Socket.Watching
import NoteRelay.Proofs.Socket.Writing
import NoteRelay.Proofs.Store
import NoteRelay.Proofs.Text.Bytes
import NoteRelay.Proofs.Text.Numeral
import NoteRelay.Proofs.Text.Timestamp
import NoteRelay.Proofs.Violations
import NoteRelay.Proofs.Wire
import NoteRelay.Publisher
import NoteRelay.Queues
import NoteRelay.Redis.Address
import NoteRelay.Redis.Reply
import NoteRelay.Redis.Server
import NoteRelay.Rehearsal.Bench
import NoteRelay.Rehearsal.Chats
import NoteRelay.Rehearsal.Direction
import NoteRelay.Rehearsal.Sockets
import NoteRelay.Rehearsal.Subscriptions
import NoteRelay.Relay
import NoteRelay.Rulebook
import NoteRelay.Settings.Basic
import NoteRelay.Settings.Environment
import NoteRelay.Settings.Extract
import NoteRelay.Settings.Load
import NoteRelay.Settings.Toml.Document
import NoteRelay.Settings.Toml.Scalar
import NoteRelay.Settings.Tree
import NoteRelay.Settings.Validate
import NoteRelay.Settings.Yaml.Cursor
import NoteRelay.Settings.Yaml.Document
import NoteRelay.Settings.Yaml.Scalar
import NoteRelay.Socket.Connection
import NoteRelay.Status
import NoteRelay.Table
import NoteRelay.Text.Bytes
import NoteRelay.Text.Form
import NoteRelay.Text.Numeral
import NoteRelay.Timestamp
import NoteRelay.Violations
import NoteRelay.Waiting
