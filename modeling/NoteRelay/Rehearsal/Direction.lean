import NoteRelay.Relay

/-!
# Directing a rehearsal

What every rehearsal of sessions needs. It runs by an agenda: the list of what may happen next, when
and by whom. What is due first happens first. Of what is due at the same moment, cancellations come
first; then whoever acted last goes on until there is nothing left to go on with; and otherwise the
order is that of the list.

A script says which calls of a queue come late, fail or answer something else; calls are counted
from one, apart for each kind of call and each session or recipient. A client reads one frame after
another, from a moment on and with a pause behind each, and it may leave after a number of them. A
direction is how the relay is set up, the script, and when a session is given up.
-/

namespace NoteRelay.Rehearsal

-- ---------------------------------------------------------------------------
-- Agendas
-- ---------------------------------------------------------------------------

inductive Role where
  | lifetime
  | sender
  /-- Does the work of a session; a session may have several workers. -/
  | worker (n : Nat)
  | reader
  | timekeeper
  deriving DecidableEq

structure Actor where
  session : Nat
  role : Role
  deriving DecidableEq

structure Happening (σ : Type) where
  due : Nat
  actor : Actor
  outcome : Unit → σ

variable {σ : Type}

def Happening.map {τ : Type} (h : Happening σ) (f : σ → τ) : Happening τ :=
  ⟨h.due, h.actor, fun u => f (h.outcome u)⟩

def Happening.rank (h : Happening σ) (latest : Option Actor) : Nat :=
  match h.actor.role with
  | .lifetime => 0
  | .timekeeper => 3
  | _ => if latest = some h.actor then 1 else 2

def Happening.overtakes (h earlier : Happening σ) (latest : Option Actor) : Bool :=
  h.due < earlier.due || (h.due == earlier.due && h.rank latest < earlier.rank latest)

def soonest? (latest : Option Actor) : List (Happening σ) → Option (Happening σ)
  | [] => none
  | h :: rest =>
    match soonest? latest rest with
    | some later => if later.overtakes h latest then some later else some h
    | none => some h

/-- Plays a scene until nothing is on its agenda, or for a number of happenings at most. -/
def play (agenda : σ → List (Happening σ)) : Nat → Option Actor → σ → σ
  | 0, _, scene => scene
  | n + 1, latest, scene =>
    match soonest? latest (agenda scene) with
    | some h => play agenda n (some h.actor) (h.outcome ())
    | none => scene

/-- More happenings than fit before a time limit, as long as each moment has few of them. -/
def happeningsUntil (limit : Nat) : Nat :=
  1000 * (limit + 1000)

-- ---------------------------------------------------------------------------
-- Scripted faults
-- ---------------------------------------------------------------------------

/-- What happens to some of the calls: they wait, and then they may fail or answer a count. -/
structure ScriptedFault where
  kind : QueueCall.Kind
  nth : Option Nat
  /-- Only the call of this number and all that come after it. -/
  since : Option Nat
  /-- Only the calls of this session or recipient. -/
  who : Option String
  delay : Nat
  fault : Option QueueFault
  count : Option Nat

def ScriptedFault.applies (f : ScriptedFault) (kind : QueueCall.Kind) (owner : String) (n : Nat) :
    Bool :=
  f.kind == kind && f.nth.all (· == n) && f.since.all (· ≤ n) && f.who.all (· == owner)

structure CallFate where
  delay : Nat := 0
  interference : Option Interference := none

/-- The fate of a call when all entries of a script work on it in their order. The first that
interferes settles it. -/
def fateAfter (fate : CallFate) : List ScriptedFault → CallFate
  | [] => fate
  | f :: rest =>
    let delay := fate.delay + f.delay
    match f.fault, f.count with
    | some fault, _ => ⟨delay, some (.failing fault)⟩
    | none, some n => ⟨delay, some (.counting n)⟩
    | none, none => fateAfter ⟨delay, none⟩ rest

structure FaultScript where
  entries : List ScriptedFault

abbrev CallTally := Table (QueueCall.Kind × String) Nat

namespace FaultScript

def fate (s : FaultScript) (kind : QueueCall.Kind) (owner : String) (n : Nat) : CallFate :=
  fateAfter {} (s.entries.filter fun f => f.applies kind owner n)

def next (s : FaultScript) (tally : CallTally) (call : QueueCall) : CallFate × CallTally :=
  let key := (call.kind, call.owner)
  let n := (tally.get? key).getD 0 + 1
  (s.fate call.kind call.owner n, tally.insert key n)

end FaultScript

def publish (script : FaultScript) (tally : CallTally) (p : Publisher) (queues : Queues)
    (change : NoteChange) (owner : UserId) (note : NoteId) (now : Timestamp) :
    Option NoteEvent × Publisher × Queues × CallTally :=
  let (e, _) := p.mint change owner note now
  let (fate, tally) := script.next tally (.push e)
  let fault := match fate.interference with
    | some (.failing fault) => some fault
    | _ => none
  let (published, p, inboxes) := p.publish queues.inboxes fault change owner note now
  (published, p, { queues with inboxes }, tally)

-- ---------------------------------------------------------------------------
-- Clients that read frames
-- ---------------------------------------------------------------------------

structure FrameReader (φ : Type) where
  nextAt : Nat
  pause : Nat
  /-- How many frames are read before the client leaves. -/
  remaining : Option Nat
  frames : List (Nat × φ) := []

namespace FrameReader

variable {φ : Type}

def isLeaving (r : FrameReader φ) (outbound : Channel φ) : Bool :=
  r.remaining == some 0 && !outbound.isAbandoned

def upcoming? (r : FrameReader φ) (outbound : Channel φ) (now : Nat) : Option (Nat × φ) :=
  if outbound.isAbandoned || r.remaining == some 0 then none
  else outbound.queued.head?.map fun frame => (max now r.nextAt, frame)

def taken (r : FrameReader φ) (t : Nat) (frame : φ) : FrameReader φ :=
  { r with
    nextAt := t + r.pause
    remaining := r.remaining.map (· - 1)
    frames := (t, frame) :: r.frames }

end FrameReader

-- ---------------------------------------------------------------------------
-- Directions
-- ---------------------------------------------------------------------------

structure Direction where
  setup : Relay.Setup
  faults : FaultScript
  limit : Nat

inductive Ending where
  | closed (t : Nat) (outcome : Except Status Unit)
  | givenUp (t : Nat)

structure PendingCall where
  finishAt : Nat
  interference : Option Interference

/-- A queue call begins: how it will go on, and the tally with it. -/
def Direction.begin (d : Direction) (tally : CallTally) (now : Nat) (call : QueueCall) :
    PendingCall × CallTally :=
  let (fate, tally) := d.faults.next tally call
  (⟨now + fate.delay, fate.interference⟩, tally)

def Direction.relayAfter? (d : Direction) (w : Relay) (t : Nat) (move : Relay.Move) :
    Option Relay :=
  w.run d.setup [.pass (t - w.now), move]

end NoteRelay.Rehearsal
