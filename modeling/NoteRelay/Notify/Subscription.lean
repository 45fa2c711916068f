import NoteRelay.Rulebook
import NoteRelay.Waiting
import NoteRelay.Notify.Frame
import NoteRelay.Queues

/-!
# Subscriptions to note events

A subscription first tells how many events wait for its user. Then it polls the inbox, once a tick:
it sends the event that it finds, and ends when it has found none a number of times in a row.

Like a chat session, a subscription is a machine that waits: `awaits` is the queue call that it
waits for, and `go` lets it go on.
-/

namespace NoteRelay.Notify

structure Policy where
  poll : Nat
  /-- How many empty polls in a row end a subscription. -/
  tries : Nat
  rulebook : Rulebook

inductive Stage where
  | counting
  | announcing (unread : Nat)
  | pacing (ticker : Ticker) (emptyPolls : Nat)
  | popping (ticker : Ticker) (emptyPolls : Nat)
  | sending (ticker : Ticker) (event : NoteEvent)
  | finished

namespace Stage

/-- On to the next poll, if there is one. -/
def polling (p : Policy) (ticker : Ticker) (emptyPolls : Nat) : Stage :=
  if emptyPolls < p.tries then pacing ticker emptyPolls else finished

def popped (p : Policy) (ticker : Ticker) (emptyPolls : Nat) : Option NoteEvent → Stage
  | some e => sending ticker e
  | none => polling p ticker (emptyPolls + 1)

end Stage

inductive Phase where
  | running (stage : Stage)
  | closed (outcome : Except Status Unit)

structure Subscription where
  user : UserId
  outbound : Channel Frame
  isCancelled : Bool
  phase : Phase

namespace Subscription

def started (user : UserId) (outbound : Channel Frame) (isCancelled : Bool) : Subscription :=
  ⟨user, outbound, isCancelled, .running .counting⟩

/-- The queue call that the subscription waits for. A cancelled one has abandoned its call. -/
def awaits (s : Subscription) : Option QueueCall :=
  if s.isCancelled then none
  else
    match s.phase with
    | .running .counting => some (.count s.user)
    | .running (.popping _ _) => some (.pop s.user)
    | _ => none

def tickDue? (s : Subscription) : Option Nat :=
  if s.isCancelled then none
  else
    match s.phase with
    | .running (.pacing ticker _) => some ticker.due
    | _ => none

def goSend (s : Subscription) (frame : Frame) (stage : Stage) :
    Option (Except Failure Stage × Subscription) :=
  (emit s.isCancelled s.outbound frame).map fun r => match r with
    | .error f => (.error f, s)
    | .ok outbound => (.ok stage, { s with outbound })

/-- Goes on from a stage: what comes of it, and the channel as it is left. -/
def goStage (s : Subscription) (p : Policy) (now : Nat)
    (answer : Option (Except QueueFault QueueAnswer)) :
    Stage → Option (Except Failure Stage × Subscription)
  | .counting =>
    (guarded s.isCancelled answer).map fun r => (r.bind fun a =>
      (a.mapError Failure.queue).map fun a => .announcing a.counted, s)
  | .announcing unread =>
    s.goSend (.ofCount unread) (.polling p (.started p.poll now) 0)
  | .pacing ticker emptyPolls =>
    (guarded s.isCancelled (ticker.take? now)).map fun r =>
      (r.map fun ticker => .popping ticker emptyPolls, s)
  | .popping ticker emptyPolls =>
    (guarded s.isCancelled answer).map fun r => (r.bind fun a =>
      (a.mapError Failure.queue).map fun a => .popped p ticker emptyPolls a.popped, s)
  | .sending ticker event => s.goSend (.ofEvent event) (.polling p ticker 0)
  | .finished => none

/-- The subscription is over, and sends no more frames. -/
def finished (s : Subscription) (outcome : Except Status Unit) : Subscription :=
  { s with phase := .closed outcome, outbound := s.outbound.ended }

def arrived (s : Subscription) (p : Policy) : Except Failure Stage → Subscription
  | .ok .finished => s.finished (.ok ())
  | .ok stage => { s with phase := .running stage }
  | .error f => s.finished (.error (p.rulebook.statusOf f))

/-- Lets the subscription go on, given the answer to the call that it waits for. -/
def go (p : Policy) (now : Nat) (answer : Option (Except QueueFault QueueAnswer))
    (s : Subscription) : Option Subscription :=
  match s.phase with
  | .running stage => (s.goStage p now answer stage).map fun (r, s) => s.arrived p r
  | .closed _ => none

def outcome? (s : Subscription) : Option (Except Status Unit) :=
  match s.phase with
  | .closed outcome => some outcome
  | _ => none

def isOver (s : Subscription) : Bool :=
  s.outcome?.isSome

-- ---------------------------------------------------------------------------
-- The client's side
-- ---------------------------------------------------------------------------

inductive Move where
  | read
  | leave
  | cancel
  deriving DecidableEq

def clientMove (s : Subscription) : Move → Option Subscription
  | .read =>
    match s.outbound.next? with
    | some (some _, outbound) => some { s with outbound }
    | _ => none
  | .leave => some { s with outbound := s.outbound.abandoned }
  | .cancel => some { s with isCancelled := true }

end Subscription

end NoteRelay.Notify
