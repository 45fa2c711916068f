import NoteRelay.Failure

/-!
# What tasks wait for

A channel is a bounded queue between one side that sends and one that receives. Sending waits while
there is no room, receiving waits while there is nothing; either side may go.

A session lives until its lifetime is cancelled. It waits for everything through `guarded`, so that
a cancellation is seen at every wait and wins over whatever is ready at the same moment.

A ticker grants one tick in each period. The next tick is due one period after the last one was
due, so that small delays do not add up; a tick that is taken late starts a new period at the moment
it is taken, so that a long delay is not followed by a burst.
-/

namespace NoteRelay

-- ---------------------------------------------------------------------------
-- Channels
-- ---------------------------------------------------------------------------

structure Channel (α : Type) where
  capacity : Nat
  queued : List α := []
  /-- The sending side is gone: what is queued is the last that comes. -/
  isEnded : Bool := false
  isAbandoned : Bool := false
  deriving DecidableEq, Repr

namespace Channel

variable {α : Type}

/-- The most that a channel can hold: three bits of a 64-bit word are not for counting. -/
def largestCapacity : Nat :=
  UInt64.size / 8 - 1

/-- A new channel. There is none without room, nor beyond the largest capacity. -/
def withCapacity? (capacity : Nat) : Option (Channel α) :=
  if 0 < capacity ∧ capacity ≤ largestCapacity then some { capacity } else none

inductive Refusal where
  | abandoned
  deriving DecidableEq, Repr

def send? (c : Channel α) (a : α) : Option (Except Refusal (Channel α)) :=
  if c.isAbandoned then some (.error .abandoned)
  else if c.queued.length < c.capacity then some (.ok { c with queued := c.queued ++ [a] })
  else none

/-- Receives the oldest item or, behind the last one, the end; unless there is neither yet. -/
def next? (c : Channel α) : Option (Option α × Channel α) :=
  match c.queued with
  | a :: rest => some (some a, { c with queued := rest })
  | [] => if c.isEnded then some (none, c) else none

/-- The sending side goes. What is queued can still be received. -/
def ended (c : Channel α) : Channel α :=
  { c with isEnded := true }

/-- The receiving side goes, and what is queued with it. -/
def abandoned (c : Channel α) : Channel α :=
  { c with queued := [], isAbandoned := true }

theorem eq_of_send? {c c' : Channel α} {a : α} (h : c.send? a = some (.ok c')) :
    c' = { c with queued := c.queued ++ [a] } := by
  unfold send? at h
  split at h
  · cases h
  · split at h <;> cases h
    rfl

theorem eq_of_next? {c c' : Channel α} {item : Option α} (h : c.next? = some (item, c')) :
    c' = { c with queued := c'.queued } := by
  unfold next? at h
  split at h
  · cases h
    rfl
  · split at h <;> cases h
    rfl

theorem eq_of_end {c c' : Channel α} (h : c.next? = some (none, c')) : c' = c := by
  unfold next? at h
  split at h
  · cases h
  · split at h <;> cases h
    rfl

theorem queued_of_send? {c c' : Channel α} {a : α} (h : c.send? a = some (.ok c')) :
    c'.queued = c.queued ++ [a] := by
  rw [eq_of_send? h]

theorem queued_of_next? {c c' : Channel α} {a : α} (h : c.next? = some (some a, c')) :
    c.queued = a :: c'.queued := by
  unfold next? at h
  split at h
  · next hq =>
    simp only [Option.some.injEq, Prod.mk.injEq] at h
    rw [hq, ← h.1, ← h.2]
  · split at h <;> simp at h

end Channel

-- ---------------------------------------------------------------------------
-- Lifetimes
-- ---------------------------------------------------------------------------

def guarded {α : Type} (isCancelled : Bool) (ready : Option α) : Option (Except Failure α) :=
  if isCancelled then some (.error .cancelled) else ready.map .ok

def Failure.outboundClosed : Failure :=
  .transport "outbound stream closed"

def emit {φ : Type} (isCancelled : Bool) (outbound : Channel φ) (frame : φ) :
    Option (Except Failure (Channel φ)) :=
  match guarded isCancelled (outbound.send? frame) with
  | none => none
  | some (.error f) => some (.error f)
  | some (.ok (.error .abandoned)) => some (.error .outboundClosed)
  | some (.ok (.ok outbound)) => some (.ok outbound)

@[simp]
theorem guarded_cancelled {α : Type} (ready : Option α) :
    guarded true ready = some (.error .cancelled) :=
  rfl

@[simp]
theorem guarded_live {α : Type} (ready : Option α) : guarded false ready = ready.map .ok :=
  rfl

@[simp]
theorem emit_cancelled {φ : Type} (outbound : Channel φ) (frame : φ) :
    emit true outbound frame = some (.error .cancelled) :=
  rfl

-- ---------------------------------------------------------------------------
-- Tickers
-- ---------------------------------------------------------------------------

/-- Times and periods are in milliseconds. -/
structure Ticker where
  period : Nat
  due : Nat
  deriving DecidableEq, Repr

namespace Ticker

/-- How late a tick may be taken without starting a new period. -/
def tolerance : Nat :=
  5

def canStart (period : Nat) : Bool :=
  0 < period

/-- A ticker whose first tick is due one period from now. -/
def started (period now : Nat) : Ticker :=
  ⟨period, now + period⟩

def taken (t : Ticker) (now : Nat) : Ticker :=
  { t with due := (if t.due + tolerance < now then now else t.due) + t.period }

def take? (t : Ticker) (now : Nat) : Option Ticker :=
  if t.due ≤ now then some (t.taken now) else none

@[simp]
theorem period_taken (t : Ticker) (now : Nat) : (t.taken now).period = t.period :=
  rfl

end Ticker

end NoteRelay
