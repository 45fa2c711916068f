import NoteRelay.Chat.Acceptance
import NoteRelay.Chat.Trigger
import NoteRelay.Waiting
import NoteRelay.Queues

/-!
# Chat sessions

Two loops run side by side in a session. The intake reads requests and, for each, saves a message
in the outbox of the session or answers why not. The delivery works through snapshots of the
outbox: it sends one frame a tick and deletes what it has sent, and it is done when it finds the
outbox empty long enough after the last delivery. The first loop that fails, or the delivery when it
is done, decides how the session ends; the end of the input ends the intake alone. An ending session
clears its outbox and then is over.

A session is a machine that waits. `Session.awaits` is the queue call that a loop waits for, and
`Session.go` lets a loop go on from its wait, if there is what it waits for.
-/

namespace NoteRelay.Chat

/-- What the input of a session brings: requests, and failures to read one. -/
abbrev Item := Except Failure Request

-- ---------------------------------------------------------------------------
-- Intake
-- ---------------------------------------------------------------------------

inductive Intake where
  | reading
  | saving (message : ChatMessage)
  | refusing (status : Status)
  | ended
  deriving DecidableEq, Repr

namespace Intake

/-- What the intake does with an item, or with the end of the input. A request that is refused is
answered, and a failure to read is the end of the session. -/
def received (b : Rulebook) (fresh : CorrelationId) : Option Item → Except Failure Intake
  | none => .ok ended
  | some (.error f) => .error f
  | some (.ok r) =>
    match r.accept fresh with
    | .ok m => .ok (saving m)
    | .error f => if f.isRecoverable then .ok (refusing (b.statusOf f)) else .error f

def saved : Except QueueFault QueueAnswer → Except Failure Intake
  | .ok _ => .ok reading
  | .error fault => .error (.queue fault)

end Intake

-- ---------------------------------------------------------------------------
-- Delivery
-- ---------------------------------------------------------------------------

/-- Where the delivery is. From `pacing` to `settling` it is at one message of a snapshot, and the
others are still to come. -/
inductive Stage where
  | fetching
  /-- The outbox was empty: it is looked at again after a tick. -/
  | resting
  | pacing (message : ChatMessage) (others : List ChatMessage)
  | sending (message : ChatMessage) (others : List ChatMessage)
  | settling (message : ChatMessage) (others : List ChatMessage)
  | finished
  deriving DecidableEq, Repr

/-- On to the rest of a snapshot, and behind it to the next one. -/
def Stage.ofSnapshot : List ChatMessage → Stage
  | [] => fetching
  | m :: others => pacing m others

structure Delivery where
  stage : Stage
  ticker : Ticker
  /-- From here on an empty outbox is the end. -/
  deadline : Nat

namespace Delivery

def started (p : Policy) (now : Nat) : Delivery :=
  ⟨.fetching, .started p.tick now, now + p.idle⟩

def fetched (d : Delivery) (now : Nat) : Except QueueFault QueueAnswer → Except Failure Delivery
  | .error fault => .error (.queue fault)
  | .ok a =>
    match a.found with
    | [] => .ok { d with stage := if d.deadline ≤ now then .finished else .resting }
    | m :: others => .ok { d with stage := .pacing m others }

/-- A message that is sent is done with, whether or not it could be deleted. -/
def settled (d : Delivery) (idle now : Nat) (others : List ChatMessage) : Delivery :=
  { d with stage := .ofSnapshot others, deadline := now + idle }

end Delivery

-- ---------------------------------------------------------------------------
-- Sessions
-- ---------------------------------------------------------------------------

inductive Phase where
  | running (intake : Intake) (delivery : Delivery)
  /-- It is decided how the session ends, and the outbox is being cleared. -/
  | closing (result : Except Failure Unit)
  | closed (outcome : Except Status Unit)

namespace Phase

def ofIntake (d : Delivery) : Except Failure Intake → Phase
  | .ok i => running i d
  | .error f => closing (.error f)

def ofDelivery (i : Intake) : Except Failure Delivery → Phase
  | .ok d => if d.stage = .finished then closing (.ok ()) else running i d
  | .error f => closing (.error f)

end Phase

structure Session where
  inbound : Channel Item
  outbound : Channel Response
  isCancelled : Bool
  phase : Phase

inductive Loop where
  | intake
  | delivery
  | closing
  deriving DecidableEq, Repr

namespace Session

def started (p : Policy) (inbound : Channel Item) (outbound : Channel Response)
    (isCancelled : Bool) (now : Nat) : Session :=
  ⟨inbound, outbound, isCancelled, .running .reading (.started p now)⟩

/-- The queue call that a loop waits for. A cancelled session has abandoned the calls of its loops,
and only clears its outbox. -/
def awaits (id : SessionId) (loop : Loop) (s : Session) : Option QueueCall :=
  match loop, s.phase with
  | .intake, .running (.saving m) _ => if s.isCancelled then none else some (.save id m)
  | .delivery, .running _ d =>
    if s.isCancelled then none
    else
      match d.stage with
      | .fetching => some (.fetchAll id)
      | .settling m _ => some (.delete id m)
      | _ => none
  | .closing, .closing _ => some (.clear id)
  | _, _ => none

def tickDue? (loop : Loop) (s : Session) : Option Nat :=
  match loop, s.phase with
  | .delivery, .running _ d =>
    if s.isCancelled then none
    else
      match d.stage with
      | .resting => some d.ticker.due
      | .pacing _ _ => some d.ticker.due
      | _ => none
  | _, _ => none

def takesFreshId (s : Session) : Bool :=
  match s.phase, s.inbound.queued with
  | .running .reading _, .ok r :: _ => !s.isCancelled && r.takesFreshId
  | _, _ => false

/-- The intake goes on: what comes of it, and the channels as it leaves them. A fresh identity is
the next one of a supply of which some are used up. -/
def goIntake (s : Session) (b : Rulebook) (supply : IdSupply) (minted : Nat)
    (answer : Option (Except QueueFault QueueAnswer)) :
    Intake → Option (Except Failure Intake × Session)
  | .reading =>
    (guarded s.isCancelled s.inbound.next?).map fun r => match r with
      | .error f => (.error f, s)
      | .ok (item, inbound) =>
        (Intake.received b (supply.correlation minted) item, { s with inbound })
  | .saving _ => (guarded s.isCancelled answer).map fun r => (r.bind Intake.saved, s)
  | .refusing status =>
    (emit s.isCancelled s.outbound (.status status)).map fun r => match r with
      | .error f => (.error f, s)
      | .ok outbound => (.ok .reading, { s with outbound })
  | .ended => none

def goTick (s : Session) (now : Nat) (d : Delivery) (stage : Stage) :
    Option (Except Failure Delivery × Session) :=
  (guarded s.isCancelled (d.ticker.take? now)).map fun r =>
    (r.map fun ticker => { d with stage, ticker }, s)

def goDelivery (s : Session) (p : Policy) (now : Nat)
    (answer : Option (Except QueueFault QueueAnswer)) (d : Delivery) :
    Option (Except Failure Delivery × Session) :=
  match d.stage with
  | .fetching => (guarded s.isCancelled answer).map fun r => (r.bind (d.fetched now), s)
  | .resting => s.goTick now d .fetching
  | .pacing m others => s.goTick now d (.sending m others)
  | .sending m others =>
    (emit s.isCancelled s.outbound (p.render m)).map fun r => match r with
      | .error f => (.error f, s)
      | .ok outbound => (.ok { d with stage := .settling m others }, { s with outbound })
  | .settling _ others =>
    (guarded s.isCancelled answer).map fun r =>
      (r.map fun _ => d.settled p.idle now others, s)
  | .finished => none

/-- The session is over: it takes no more requests and sends no more frames. -/
def finished (s : Session) (outcome : Except Status Unit) : Session :=
  { s with
    phase := .closed outcome, inbound := s.inbound.abandoned, outbound := s.outbound.ended }

/-- Lets a loop go on, given the answer to the call that it waits for. There is no going on as long
as there is nothing to go on with. -/
def go (p : Policy) (supply : IdSupply) (minted now : Nat)
    (answer : Option (Except QueueFault QueueAnswer)) (loop : Loop) (s : Session) :
    Option Session :=
  match loop, s.phase with
  | .intake, .running i d =>
    (s.goIntake p.rulebook supply minted answer i).map fun (r, s) =>
      { s with phase := .ofIntake d r }
  | .delivery, .running i d =>
    (s.goDelivery p now answer d).map fun (r, s) => { s with phase := .ofDelivery i r }
  | .closing, .closing result =>
    answer.map fun _ => s.finished (result.mapError p.rulebook.statusOf)
  | _, _ => none

def outcome? (s : Session) : Option (Except Status Unit) :=
  match s.phase with
  | .closed outcome => some outcome
  | _ => none

def isOver (s : Session) : Bool :=
  s.outcome?.isSome

-- ---------------------------------------------------------------------------
-- The client's side
-- ---------------------------------------------------------------------------

inductive Move where
  | send (item : Item)
  | finish
  | read
  | leave
  | cancel

def clientMove (s : Session) : Move → Option Session
  | .send item =>
    match s.inbound.send? item with
    | some (.ok inbound) => some { s with inbound }
    | _ => none
  | .finish => some { s with inbound := s.inbound.ended }
  | .read =>
    match s.outbound.next? with
    | some (some _, outbound) => some { s with outbound }
    | _ => none
  | .leave => some { s with outbound := s.outbound.abandoned }
  | .cancel => some { s with isCancelled := true }

end Session

end NoteRelay.Chat
