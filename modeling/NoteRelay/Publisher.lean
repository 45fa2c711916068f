import NoteRelay.Queues
import NoteRelay.Failure

/-!
# Publishing events

What happened to a note is told to its owner, as well as can be: an event that the queue refuses is
given up. Its identity is used up all the same.
-/

namespace NoteRelay

/-- A call of a publisher, and whether the queue refuses the event. -/
structure Publication where
  change : NoteChange
  owner : UserId
  note : NoteId
  /-- What the clock shows at the call. -/
  time : Timestamp
  fault : Option QueueFault := none

namespace Publication

def event (o : Publication) (id : EventId) : NoteEvent :=
  ⟨id, o.change, o.note, o.owner, o.time⟩

def outcome (o : Publication) (id : EventId) : Option NoteEvent :=
  if o.fault.isNone then some (o.event id) else none

end Publication

structure Publisher where
  supply : IdSupply
  /-- How many event identities are used up. -/
  minted : Nat := 0

namespace Publisher

def mint (p : Publisher) (change : NoteChange) (owner : UserId) (note : NoteId) (now : Timestamp) :
    NoteEvent × Publisher :=
  (⟨p.supply.event p.minted, change, note, owner, now⟩, { p with minted := p.minted + 1 })

def publish (p : Publisher) (inboxes : Inboxes) (fault : Option QueueFault) (change : NoteChange)
    (owner : UserId) (note : NoteId) (now : Timestamp) :
    Option NoteEvent × Publisher × Inboxes :=
  let (e, p) := p.mint change owner note now
  match fault with
  | none => (some e, p, inboxes.push e)
  | some _ => (none, p, inboxes)

def make (p : Publisher) (inboxes : Inboxes) (o : Publication) :
    Option NoteEvent × Publisher × Inboxes :=
  p.publish inboxes o.fault o.change o.owner o.note o.time

def makeAll (p : Publisher) (inboxes : Inboxes) :
    List Publication → List (Option NoteEvent) × Publisher × Inboxes
  | [] => ([], p, inboxes)
  | o :: rest =>
    let (answer, p, inboxes) := p.make inboxes o
    let (answers, p, inboxes) := p.makeAll inboxes rest
    (answer :: answers, p, inboxes)

/-- The identity that is minted after so many others. -/
def nextId (p : Publisher) (k : Nat) : EventId :=
  p.supply.event (p.minted + k)

def outcomes (p : Publisher) (orders : List Publication) : List (Option NoteEvent) :=
  orders.mapIdx fun k o => o.outcome (p.nextId k)

def used (p : Publisher) (k : Nat) : Publisher :=
  { p with minted := p.minted + k }

end Publisher

end NoteRelay
