import NoteRelay.Chat.Session
import NoteRelay.Notify.Subscription
import NoteRelay.Publisher
import NoteRelay.Settings.Basic

/-!
# The relay

Everything that runs side by side: any number of chat sessions and subscriptions over the same
queues, a publisher, and one clock. A `Relay.Move` is the smallest thing that can happen, and
`Relay.step` what becomes of the relay then; the moves may come in any order, so that a run of the
relay is any list of moves that `Relay.run` accepts.
-/

namespace NoteRelay

structure Relay where
  now : Nat
  queues : Queues
  publisher : Publisher
  /-- How many correlation identities are used up. -/
  mintedIds : Nat
  isShutDown : Bool
  chats : Table SessionId Chat.Session
  subscriptions : Table Nat Notify.Subscription

namespace Relay

structure Setup where
  chat : Chat.Policy
  notify : Notify.Policy
  supply : IdSupply

def Setup.ofSettings (s : Settings) (supply : IdSupply) : Setup where
  chat := {
    tick := s.chat.tick.toNat
    idle := s.chat.idleDeadline.toNat
    trigger := .ofSetting s.chat.simulatedFailure
    rulebook := .standard }
  notify := {
    poll := s.notifier.pollInterval.toNat
    tries := s.notifier.triesLimit.toNat
    rulebook := .standard }
  supply := supply

inductive Move where
  | pass (ms : Nat)
  | push (event : NoteEvent)
  /-- An event is published, unless the queue refuses it. -/
  | publish (change : NoteChange) (owner : UserId) (note : NoteId) (time : Timestamp)
    (fault : Option QueueFault)
  | converse (id : SessionId) (inboundCapacity outboundCapacity : Nat)
  | chatClient (id : SessionId) (move : Chat.Session.Move)
  /-- A loop of a chat session goes on. The queue call that it waits for may be interfered with. -/
  | chat (id : SessionId) (loop : Chat.Loop) (interference : Option Interference)
  /-- A subscription starts, under a number of its own. -/
  | subscribe (key : Nat) (user : UserId) (capacity : Nat)
  | subscriber (key : Nat) (move : Notify.Subscription.Move)
  | subscription (key : Nat) (interference : Option Interference)
  /-- The lifetime of the relay is cancelled, and with it that of every session. -/
  | shutDown

def started (u : Setup) : Relay where
  now := 0
  queues := .empty
  publisher := ⟨u.supply, 0⟩
  mintedIds := 0
  isShutDown := false
  chats := .empty
  subscriptions := .empty

/-- A session starts under a name that is not taken, unless its ticker or one of its channels
cannot be made. -/
def converse (w : Relay) (u : Setup) (id : SessionId) (inboundCapacity outboundCapacity : Nat) :
    Option Relay :=
  match w.chats.get? id, Ticker.canStart u.chat.tick, Channel.withCapacity? inboundCapacity,
      Channel.withCapacity? outboundCapacity with
  | none, true, some inbound, some outbound =>
    let session := Chat.Session.started u.chat inbound outbound w.isShutDown w.now
    some { w with chats := w.chats.insert id session }
  | _, _, _, _ => none

def withChat (w : Relay) (id : SessionId) (change : Chat.Session → Option Chat.Session) :
    Option Relay :=
  ((w.chats.get? id).bind change).map fun s => { w with chats := w.chats.insert id s }

def goChat (w : Relay) (u : Setup) (id : SessionId) (loop : Chat.Loop)
    (interference : Option Interference) : Option Relay :=
  match w.chats.get? id with
  | none => none
  | some s =>
    let (answer, queues) := w.queues.answerAny interference (s.awaits id loop)
    let mintedIds :=
      if loop = .intake ∧ s.takesFreshId then w.mintedIds + 1 else w.mintedIds
    (s.go u.chat u.supply w.mintedIds w.now answer loop).map fun s =>
      { w with queues, mintedIds, chats := w.chats.insert id s }

def subscribe (w : Relay) (u : Setup) (key : Nat) (user : UserId) (capacity : Nat) :
    Option Relay :=
  match w.subscriptions.get? key, Ticker.canStart u.notify.poll, Channel.withCapacity? capacity with
  | none, true, some outbound =>
    let subscription := Notify.Subscription.started user outbound w.isShutDown
    some { w with subscriptions := w.subscriptions.insert key subscription }
  | _, _, _ => none

def withSubscription (w : Relay) (key : Nat)
    (change : Notify.Subscription → Option Notify.Subscription) : Option Relay :=
  ((w.subscriptions.get? key).bind change).map fun s =>
    { w with subscriptions := w.subscriptions.insert key s }

def goSubscription (w : Relay) (u : Setup) (key : Nat) (interference : Option Interference) :
    Option Relay :=
  match w.subscriptions.get? key with
  | none => none
  | some s =>
    let (answer, queues) := w.queues.answerAny interference s.awaits
    (s.go u.notify w.now answer).map fun s =>
      { w with queues, subscriptions := w.subscriptions.insert key s }

/-- What becomes of the relay when something happens. What is not possible has no outcome. -/
def step (u : Setup) (w : Relay) : Move → Option Relay
  | .pass ms => some { w with now := w.now + ms }
  | .push e => some { w with queues := { w.queues with inboxes := w.queues.inboxes.push e } }
  | .publish change owner note time fault =>
    let (_, publisher, inboxes) :=
      w.publisher.publish w.queues.inboxes fault change owner note time
    some { w with publisher, queues := { w.queues with inboxes } }
  | .converse id inboundCapacity outboundCapacity =>
    w.converse u id inboundCapacity outboundCapacity
  | .chatClient id move => w.withChat id fun s => s.clientMove move
  | .chat id loop interference => w.goChat u id loop interference
  | .subscribe key user capacity => w.subscribe u key user capacity
  | .subscriber key move => w.withSubscription key fun s => s.clientMove move
  | .subscription key interference => w.goSubscription u key interference
  | .shutDown =>
    some { w with
      isShutDown := true
      chats := w.chats.mapValues fun s => { s with isCancelled := true }
      subscriptions := w.subscriptions.mapValues fun s => { s with isCancelled := true } }

def run (u : Setup) (w : Relay) : List Move → Option Relay
  | [] => some w
  | m :: rest => (w.step u m).bind fun w => w.run u rest

end Relay

end NoteRelay
