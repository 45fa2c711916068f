import NoteRelay.Waiting

/-!
# Waiting on a bench

One channel and one lifetime in virtual time, to try out waits one after another. Nothing but waiting
takes time, and the lifetime may be cancelled at a given moment.
-/

namespace NoteRelay.Rehearsal

structure Bench (α : Type) where
  now : Nat
  cancelAt : Option Nat
  isCancelled : Bool
  channel : Channel α

namespace Bench

variable {α : Type}

def atMoment (b : Bench α) (t : Nat) : Bench α :=
  { b with now := t, isCancelled := b.isCancelled || b.cancelAt.any (· ≤ t) }

def started (channel : Channel α) (cancelAt : Option Nat) : Bench α :=
  atMoment ⟨0, cancelAt, false, channel⟩ 0

/-- Waits until a moment, or until the lifetime is cancelled if that comes first. -/
def wait (b : Bench α) (limit : Nat) : Bench α :=
  if b.isCancelled then b else b.atMoment ((b.cancelAt.filter (· ≤ limit)).getD limit)

def sleep (b : Bench α) (ms : Nat) : Option (Except Failure Unit) × Bench α :=
  let woken := b.wait (b.now + ms)
  (guarded woken.isCancelled (some ()), woken)

/-- How long a sender waits for room before it gives up. -/
def patience : Nat :=
  60000

/-- Sends within the lifetime. There is no result when the sender gives up. -/
def send (b : Bench α) (a : α) : Option (Except Failure Unit) × Bench α :=
  let b := match emit b.isCancelled b.channel a with
    | some _ => b
    | none => b.wait (b.now + patience)
  match emit b.isCancelled b.channel a with
  | some (.ok channel) => (some (.ok ()), { b with channel })
  | some (.error f) => (some (.error f), b)
  | none => (none, b)

/-- What is there to receive: an item, nothing yet, or nobody to receive it. -/
def receive (b : Bench α) : Except Channel.Refusal (Option α) × Bench α :=
  if b.channel.isAbandoned then (.error .abandoned, b)
  else
    match b.channel.next? with
    | some (a, channel) => (.ok a, { b with channel })
    | none => (.ok none, b)

def dropReceiver (b : Bench α) : Bench α :=
  { b with channel := b.channel.abandoned }

def cancel (b : Bench α) : Bench α :=
  { b with isCancelled := true }

end Bench

end NoteRelay.Rehearsal
