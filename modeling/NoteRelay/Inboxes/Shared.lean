import NoteRelay.Queues

/-!
# Shared inboxes

The inboxes as calls on several threads share them. Every box has a lock of its own, and a
directory under another lock says which box is whose. A call holds one lock at a time: what it does
under it is a `Section`, and between two sections of a call other calls may do theirs. So a box is
made in two steps. The first call for a user finds none in the directory; when it comes to make
one, another call may have done so.
-/

namespace NoteRelay

/-- How far somebody has come with a call: to what is to be done next, or to the answer. -/
inductive Progress (τ : Type) where
  | next (task : τ)
  | answered (answer : QueueAnswer)
  deriving DecidableEq, Repr

namespace Inboxes

inductive Call where
  | push (event : NoteEvent)
  | pop (user : UserId)
  | count (user : UserId)
  deriving DecidableEq, Repr

inductive Section where
  /-- Reads the directory, which others may read too. -/
  | find (call : Call)
  /-- Writes the directory, unless the recipient has a box by now. -/
  | make (event : NoteEvent)
  | append (place : Nat) (event : NoteEvent)
  | take (user : UserId) (place : Nat)
  | size (user : UserId) (place : Nat)
  deriving DecidableEq, Repr

namespace Call

def user : Call → UserId
  | push e => e.recipient
  | pop user => user
  | count user => user

def toQueueCall : Call → QueueCall
  | push e => .push e
  | pop user => .pop user
  | count user => .count user

def atBox (place : Nat) : Call → Section
  | push e => .append place e
  | pop user => .take user place
  | count user => .size user place

/-- Only a push needs a box. -/
def withoutBox : Call → Progress Section
  | push e => .next (.make e)
  | pop _ => .answered (.event none)
  | count _ => .answered (.number 0)

end Call

/-- The events of one user, in memory of their own. -/
structure Box where
  /-- The user for whom the box was made. No call looks at it. -/
  owner : UserId
  events : List NoteEvent
  deriving DecidableEq, Repr

/-- A box keeps the place that it got when it was made, and no box goes away: a call that knows the
place of a box can use it whatever becomes of the directory. -/
structure Shared where
  directory : Table UserId Nat
  boxes : List Box

namespace Shared

def empty : Shared :=
  ⟨.empty, []⟩

def events (s : Shared) (place : Nat) : List NoteEvent :=
  ((s.boxes[place]?).map Box.events).getD []

def withEvents (s : Shared) (place : Nat) (events : List NoteEvent) : Shared :=
  { s with boxes := s.boxes.modify place fun b => { b with events } }

def withBoxFor (s : Shared) (user : UserId) : Shared where
  directory := s.directory.insert user s.boxes.length
  boxes := s.boxes ++ [⟨user, []⟩]

def enter (s : Shared) : Section → Progress Section × Shared
  | .find call =>
    match s.directory.get? call.user with
    | some place => (.next (call.atBox place), s)
    | none => (call.withoutBox, s)
  | .make e =>
    match s.directory.get? e.recipient with
    | some place => (.next (.append place e), s)
    | none => (.next (.append s.boxes.length e), s.withBoxFor e.recipient)
  | .append place e => (.answered .done, s.withEvents place (s.events place ++ [e]))
  | .take _ place =>
    (.answered (.event (s.events place).head?), s.withEvents place (s.events place).tail)
  | .size _ place => (.answered (.number (s.events place).length), s)

end Shared

end Inboxes

end NoteRelay
