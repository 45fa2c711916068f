import NoteRelay.ChatMessage
import NoteRelay.Table
import NoteRelay.NoteEvent
import NoteRelay.Failure

/-!
# The queues

An outbox has the messages that wait to be answered, apart for each session and one for each
correlation identity: a message saved under an identity that is taken replaces the one before. A
session whose last message is gone is forgotten. An inbox has the events that wait for a user, first
in first out. It is opened by the first event for its user and stays open from then on.

A `QueueCall` is what a relay asks of its two queues, and `Queues` held in memory answer it.
-/

namespace NoteRelay

-- ---------------------------------------------------------------------------
-- Outboxes
-- ---------------------------------------------------------------------------

abbrev Outbox.Box := Table CorrelationId ChatMessage

structure Outbox where
  sessions : Table SessionId Outbox.Box

namespace Outbox

def empty : Outbox :=
  ⟨.empty⟩

def box (o : Outbox) (session : SessionId) : Box :=
  (o.sessions.get? session).getD .empty

def save (o : Outbox) (session : SessionId) (m : ChatMessage) : Outbox :=
  ⟨o.sessions.insert session ((o.box session).insert m.correlationId m)⟩

/-- Deleting what is not there changes nothing. -/
def delete (o : Outbox) (session : SessionId) (m : ChatMessage) : Outbox :=
  match o.sessions.get? session with
  | none => o
  | some box =>
    let rest := box.erase m.correlationId
    if rest.isEmpty then ⟨o.sessions.erase session⟩ else ⟨o.sessions.insert session rest⟩

def clear (o : Outbox) (session : SessionId) : Outbox :=
  ⟨o.sessions.erase session⟩

def inOrder (messages : List ChatMessage) : List ChatMessage :=
  messages.mergeSort fun a b => a.correlationId.text ≤ b.correlationId.text

def fetchAll (o : Outbox) (session : SessionId) : List ChatMessage :=
  inOrder (o.box session).values

end Outbox

-- ---------------------------------------------------------------------------
-- Inboxes
-- ---------------------------------------------------------------------------

structure Inboxes where
  users : Table UserId (List NoteEvent)

namespace Inboxes

def empty : Inboxes :=
  ⟨.empty⟩

/-- What waits for a user, the oldest event first. -/
def waiting (i : Inboxes) (user : UserId) : List NoteEvent :=
  (i.users.get? user).getD []

def opened (i : Inboxes) (user : UserId) : Inboxes :=
  match i.users.get? user with
  | some _ => i
  | none => ⟨i.users.insert user []⟩

/-- The inboxes with another content of one that is open. -/
def withContent (i : Inboxes) (user : UserId) (events : List NoteEvent) : Inboxes :=
  match i.users.get? user with
  | some _ => ⟨i.users.insert user events⟩
  | none => i

def push (i : Inboxes) (e : NoteEvent) : Inboxes :=
  (i.opened e.recipient).withContent e.recipient (i.waiting e.recipient ++ [e])

def pop (i : Inboxes) (user : UserId) : Option NoteEvent × Inboxes :=
  match i.waiting user with
  | [] => (none, i)
  | e :: rest => (some e, i.withContent user rest)

def count (i : Inboxes) (user : UserId) : Nat :=
  (i.waiting user).length

end Inboxes

-- ---------------------------------------------------------------------------
-- Calls
-- ---------------------------------------------------------------------------

inductive QueueCall where
  | save (session : SessionId) (message : ChatMessage)
  | fetchAll (session : SessionId)
  | delete (session : SessionId) (message : ChatMessage)
  | clear (session : SessionId)
  | push (event : NoteEvent)
  | pop (user : UserId)
  | count (user : UserId)
  deriving DecidableEq, Repr

inductive QueueAnswer where
  | done
  | messages (messages : List ChatMessage)
  | event (event : Option NoteEvent)
  | number (n : Nat)
  deriving DecidableEq, Repr

namespace QueueCall

inductive Kind where
  | save
  | fetchAll
  | delete
  | clear
  | push
  | pop
  | count
  deriving DecidableEq, Repr

def kind : QueueCall → Kind
  | save _ _ => .save
  | fetchAll _ => .fetchAll
  | delete _ _ => .delete
  | clear _ => .clear
  | push _ => .push
  | pop _ => .pop
  | count _ => .count

def owner : QueueCall → String
  | save session _ => session.text
  | fetchAll session => session.text
  | delete session _ => session.text
  | clear session => session.text
  | push event => event.recipient.display
  | pop user => user.display
  | count user => user.display

end QueueCall

namespace QueueAnswer

def found : QueueAnswer → List ChatMessage
  | messages ms => ms
  | _ => []

def popped : QueueAnswer → Option NoteEvent
  | event e => e
  | _ => none

def counted : QueueAnswer → Nat
  | number n => n
  | _ => 0

end QueueAnswer

/-- What is done to a call instead of letting the queue answer it as it would. -/
inductive Interference where
  /-- The call fails, and does not reach the queue. -/
  | failing (fault : QueueFault)
  /-- A count comes out as this number. -/
  | counting (n : Nat)
  /-- A snapshot comes in this order: the queue does not promise any. -/
  | arranging (messages : List ChatMessage)
  deriving DecidableEq, Repr

/-- A snapshot in another order, if that is an order of it. -/
def QueueAnswer.arranged (order snapshot : List ChatMessage) : List ChatMessage :=
  if order.isPerm snapshot then order else snapshot

/-- Queues in memory. No call on them fails of itself. -/
structure Queues where
  outbox : Outbox
  inboxes : Inboxes

namespace Queues

def empty : Queues :=
  ⟨.empty, .empty⟩

def run (q : Queues) : QueueCall → QueueAnswer × Queues
  | .save session m => (.done, { q with outbox := q.outbox.save session m })
  | .fetchAll session => (.messages (q.outbox.fetchAll session), q)
  | .delete session m => (.done, { q with outbox := q.outbox.delete session m })
  | .clear session => (.done, { q with outbox := q.outbox.clear session })
  | .push e => (.done, { q with inboxes := q.inboxes.push e })
  | .pop user =>
    let (e, inboxes) := q.inboxes.pop user
    (.event e, { q with inboxes })
  | .count user => (.number (q.inboxes.count user), q)

def answer (q : Queues) (interference : Option Interference) (call : QueueCall) :
    Except QueueFault QueueAnswer × Queues :=
  match interference, call with
  | some (.failing fault), _ => (.error fault, q)
  | some (.counting n), .count _ => (.ok (.number n), q)
  | some (.arranging order), .fetchAll session =>
    (.ok (.messages (QueueAnswer.arranged order (q.outbox.fetchAll session))), q)
  | _, call => (.ok (q.run call).1, (q.run call).2)

def answerAny (q : Queues) (interference : Option Interference) :
    Option QueueCall → Option (Except QueueFault QueueAnswer) × Queues
  | none => (none, q)
  | some call => (some (q.answer interference call).1, (q.answer interference call).2)

end Queues

end NoteRelay
