import NoteRelay.Inboxes.Shared
import NoteRelay.Proofs.Course

/-!
# Calls that are under way at once

A `Service` keeps something and does calls on it, each as a chain of tasks. Any number of callers
use it side by side: a task is not interrupted, but between the tasks of one call there may come any
tasks of others, and other calls may start and end. `Service.machine` is that, and a course of it is
one way in which the tasks can come. Its records are what the callers see.

`Service.atomic` does a call in one task: under it, a call happens at one moment between its start
and its end.
-/

namespace NoteRelay

open Inboxes (Call)

def Progress.map {τ υ : Type} (f : τ → υ) : Progress τ → Progress υ
  | next task => .next (f task)
  | answered a => .answered a

/-- Something that is kept, and how a call on it is done. -/
structure Service (σ τ : Type) where
  start : σ
  first : Call → τ
  /-- Does a task of a call. The task is the last if it brings the answer. -/
  perform : σ → τ → Progress τ × σ

namespace Service

variable {σ τ : Type}

/-- The queues in memory, on which a call is one task. -/
def atomic : Service Queues Call where
  start := .empty
  first := id
  perform q call := (.answered (q.run call.toQueueCall).1, (q.run call.toQueueCall).2)

inductive Stage (τ : Type) where
  | pending (progress : Progress τ)
  | ended (answer : QueueAnswer)

def Stage.map {υ : Type} (f : τ → υ) : Stage τ → Stage υ
  | pending p => .pending (p.map f)
  | ended a => .ended a

/-- What is kept, and the calls that were ever made, each under a number of its own. -/
structure Traffic (σ τ : Type) where
  store : σ
  calls : Table Nat (Stage τ)

inductive Occasion where
  | start (id : Nat) (call : Call)
  | go (id : Nat)
  | finish (id : Nat)
  deriving DecidableEq, Repr

/-- What a caller sees of a call. -/
inductive Record where
  | started (id : Nat) (call : Call)
  | ended (id : Nat) (answer : QueueAnswer)
  deriving DecidableEq, Repr

inductive Deed (τ : Type) where
  | record (r : Record)
  | performed (id : Nat) (task : τ) (progress : Progress τ)

def initial (S : Service σ τ) : Traffic σ τ :=
  ⟨S.start, .empty⟩

def machine (S : Service σ τ) : Machine (Traffic σ τ) Occasion (Deed τ) where
  occur w
    | .start id call =>
      match w.calls.get? id with
      | none => some ([.record (.started id call)],
          { w with calls := w.calls.insert id (.pending (.next (S.first call))) })
      | some _ => none
    | .go id =>
      match w.calls.get? id with
      | some (.pending (.next task)) =>
        let (progress, store) := S.perform w.store task
        some ([.performed id task progress], ⟨store, w.calls.insert id (.pending progress)⟩)
      | _ => none
    | .finish id =>
      match w.calls.get? id with
      | some (.pending (.answered a)) =>
        some ([.record (.ended id a)], { w with calls := w.calls.insert id (.ended a) })
      | _ => none

-- ---------------------------------------------------------------------------
-- What can happen
-- ---------------------------------------------------------------------------

inductive Step (S : Service σ τ) (w : Traffic σ τ) :
    Occasion → List (Deed τ) → Traffic σ τ → Prop where
  | started {id : Nat} {call : Call} : w.calls.get? id = none →
      Step S w (.start id call) [.record (.started id call)]
        ⟨w.store, w.calls.insert id (.pending (.next (S.first call)))⟩
  | performed {id : Nat} {task : τ} : w.calls.get? id = some (.pending (.next task)) →
      Step S w (.go id) [.performed id task (S.perform w.store task).1]
        ⟨(S.perform w.store task).2, w.calls.insert id (.pending (S.perform w.store task).1)⟩
  | ended {id : Nat} {a : QueueAnswer} : w.calls.get? id = some (.pending (.answered a)) →
      Step S w (.finish id) [.record (.ended id a)] ⟨w.store, w.calls.insert id (.ended a)⟩

theorem occur_eq_some {S : Service σ τ} {w w' : Traffic σ τ} {o : Occasion} {ds : List (Deed τ)} :
    S.machine.occur w o = some (ds, w') ↔ S.Step w o ds w' := by
  constructor
  · intro h
    cases o with
    | start id call =>
      simp only [machine] at h
      split at h
      · rename_i hnone
        simp only [Option.some.injEq, Prod.mk.injEq] at h
        obtain ⟨rfl, rfl⟩ := h
        exact .started hnone
      · simp at h
    | go id =>
      simp only [machine] at h
      split at h
      · rename_i task hsome
        simp only [Option.some.injEq, Prod.mk.injEq] at h
        obtain ⟨rfl, rfl⟩ := h
        exact .performed hsome
      · simp at h
    | finish id =>
      simp only [machine] at h
      split at h
      · rename_i a hsome
        simp only [Option.some.injEq, Prod.mk.injEq] at h
        obtain ⟨rfl, rfl⟩ := h
        exact .ended hsome
      · simp at h
  · rintro (hnone | hsome | hsome)
    · simp [machine, hnone]
    · simp [machine, hsome]
    · simp [machine, hsome]

def records (ds : List (Deed τ)) : List Record :=
  ds.filterMap fun d => match d with
    | .record r => some r
    | .performed _ _ _ => none

@[simp] theorem records_append (a b : List (Deed τ)) : records (a ++ b) = records a ++ records b :=
  List.filterMap_append

def Record.id : Record → Nat
  | started id _ => id
  | ended id _ => id

end Service

end NoteRelay
