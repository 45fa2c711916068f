import NoteRelay.Redis.Reply
import NoteRelay.Table
import NoteRelay.Queues
import NoteRelay.Json.Parser
import NoteRelay.Json.Printer

/-!
# A Redis server

The commands that a relay sends and what they do to a key space of hashes and lists. A hash or a
list that becomes empty is gone.

The outbox of a session is a hash, with a field for each correlation identity; the inbox of a user
is a list. Values are stored as JSON. Each call on the queues is one command, which the server
carries out as a whole.
-/

namespace NoteRelay.Redis

-- ---------------------------------------------------------------------------
-- Commands
-- ---------------------------------------------------------------------------

inductive Command where
  | ping
  | hset (key field value : String)
  | hvals (key : String)
  | hdel (key field : String)
  | del (key : String)
  | rpush (key value : String)
  | lpop (key : String)
  | llen (key : String)
  deriving DecidableEq, Repr

def Command.words : Command → List String
  | ping => ["PING"]
  | hset key field value => ["HSET", key, field, value]
  | hvals key => ["HVALS", key]
  | hdel key field => ["HDEL", key, field]
  | del key => ["DEL", key]
  | rpush key value => ["RPUSH", key, value]
  | lpop key => ["LPOP", key]
  | llen key => ["LLEN", key]

inductive Entry where
  | hash (fields : Table String ByteArray)
  | list (items : List ByteArray)

structure Server where
  keys : Table String Entry

namespace Server

def empty : Server :=
  ⟨.empty⟩

def wrongKind : Reply :=
  .error "WRONGTYPE Operation against a key holding the wrong kind of value"

/-- The hash under a key, empty where there is none. -/
def hash? (s : Server) (key : String) : Option (Table String ByteArray) :=
  match s.keys.get? key with
  | none => some .empty
  | some (.hash fields) => some fields
  | some (.list _) => none

def list? (s : Server) (key : String) : Option (List ByteArray) :=
  match s.keys.get? key with
  | none => some []
  | some (.list items) => some items
  | some (.hash _) => none

def withHash (s : Server) (key : String) (fields : Table String ByteArray) : Server :=
  if fields.isEmpty then ⟨s.keys.erase key⟩ else ⟨s.keys.insert key (.hash fields)⟩

def withList (s : Server) (key : String) (items : List ByteArray) : Server :=
  if items.isEmpty then ⟨s.keys.erase key⟩ else ⟨s.keys.insert key (.list items)⟩

/-- How many of the keys asked for were there: none or one. -/
def found {α : Type} : Option α → Reply
  | some _ => .integer 1
  | none => .integer 0

def run (s : Server) : Command → Reply × Server
  | .ping => (.simple "PONG", s)
  | .hset key field value =>
    match s.hash? key with
    | none => (wrongKind, s)
    | some fields =>
      (.integer (if (fields.get? field).isSome then 0 else 1),
        s.withHash key (fields.insert field value.toUTF8))
  | .hvals key =>
    match s.hash? key with
    | none => (wrongKind, s)
    | some fields => (.array (fields.values.map .bulk), s)
  | .hdel key field =>
    match s.hash? key with
    | none => (wrongKind, s)
    | some fields => (found (fields.get? field), s.withHash key (fields.erase field))
  | .del key => (found (s.keys.get? key), ⟨s.keys.erase key⟩)
  | .rpush key value =>
    match s.list? key with
    | none => (wrongKind, s)
    | some items =>
      (.integer (items.length + 1), s.withList key (items ++ [value.toUTF8]))
  | .lpop key =>
    match s.list? key with
    | none => (wrongKind, s)
    | some [] => (.nil, s)
    | some (item :: rest) => (.bulk item, s.withList key rest)
  | .llen key =>
    match s.list? key with
    | none => (wrongKind, s)
    | some items => (.integer items.length, s)

end Server

/-- A command and the reading of the reply to it. -/
structure Exchange (α : Type) where
  command : Command
  read : Reply → Except Fault α

namespace Exchange

/-- What the caller makes of a reply. -/
def conclude {α : Type} (x : Exchange α) (reply : Reply) : Except Fault α :=
  reply.sound.bind x.read

def run {α : Type} (x : Exchange α) (s : Server) : Except Fault α × Server :=
  let (reply, s) := s.run x.command
  (x.conclude reply, s)

end Exchange

-- ---------------------------------------------------------------------------
-- Queues
-- ---------------------------------------------------------------------------

/-- Where the keys of the two queues begin. -/
structure QueueKeys where
  outbox : String := "chat:outbox"
  inbox : String := "user"

namespace QueueKeys

def outboxKey (k : QueueKeys) (session : SessionId) : String :=
  k.outbox ++ ":" ++ session.text

def inboxKey (k : QueueKeys) (user : UserId) : String :=
  k.inbox ++ ":" ++ user.display ++ ":events"

def storedMessage? (text : String) : Option ChatMessage :=
  (Json.ofText? text).bind ChatMessage.ofJson?

def storedEvent? (text : String) : Option NoteEvent :=
  (Json.ofText? text).bind NoteEvent.ofJson?

def readDone (_ : Reply) : Except Fault QueueAnswer :=
  .ok .done

/-- Stored texts that spell no message are passed over. -/
def readMessages (reply : Reply) : Except Fault QueueAnswer := do
  let texts ← reply.asTexts
  return .messages (Outbox.inOrder (texts.filterMap storedMessage?))

def readEvent (reply : Reply) : Except Fault QueueAnswer := do
  match ← reply.asText? with
  | none => return .event none
  | some text =>
    match storedEvent? text with
    | some e => return .event (some e)
    | none => throw (.serialization "not an event")

def readNumber (reply : Reply) : Except Fault QueueAnswer :=
  reply.asCount.map .number

def exchange (k : QueueKeys) : QueueCall → Exchange QueueAnswer
  | .save session m =>
    ⟨.hset (k.outboxKey session) m.correlationId.text m.toJson.render, readDone⟩
  | .fetchAll session => ⟨.hvals (k.outboxKey session), readMessages⟩
  | .delete session m => ⟨.hdel (k.outboxKey session) m.correlationId.text, readDone⟩
  | .clear session => ⟨.del (k.outboxKey session), readDone⟩
  | .push e => ⟨.rpush (k.inboxKey e.recipient) e.toJson.render, readDone⟩
  | .pop user => ⟨.lpop (k.inboxKey user), readEvent⟩
  | .count user => ⟨.llen (k.inboxKey user), readNumber⟩

end QueueKeys

end NoteRelay.Redis
