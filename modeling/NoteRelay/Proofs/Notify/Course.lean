import NoteRelay.Proofs.Notify.Turn
import NoteRelay.Proofs.Course

/-!
# The courses of a subscription

A subscription seen alone, as a machine: at every occasion its client does something, or its
lifetime is cancelled, or it may go on, at any time and with any answer to its call. Nothing is said
here of the queue that answers.
-/

namespace NoteRelay.Notify

inductive Occasion where
  | outside (move : Subscription.Move)
  /-- The subscription may go on, with the answer to its call if there is one. -/
  | turn (now : Nat) (answer : Option (Except QueueFault QueueAnswer))

namespace Subscription

def machine (p : Policy) : Machine Subscription Occasion Deed where
  occur s
    | .outside move => (s.clientMove move).map fun t => ([], t)
    | .turn now answer => (s.go p now answer).map fun t => (s.deedsWith answer t, t)

section
variable {p : Policy} {s t : Subscription} {o : Occasion} {new : List Deed} {now : Nat}
  {answer : Option (Except QueueFault QueueAnswer)}

theorem occur_outside {move : Move} :
    (machine p).occur s (.outside move) = some (new, t) ↔
      s.clientMove move = some t ∧ new = [] := by
  simp only [machine, Option.map_eq_some_iff, Prod.mk.injEq]
  constructor
  · rintro ⟨t, hm, rfl, rfl⟩
    exact ⟨hm, rfl⟩
  · rintro ⟨hm, rfl⟩
    exact ⟨t, hm, rfl, rfl⟩

theorem occur_turn :
    (machine p).occur s (.turn now answer) = some (new, t) ↔
      s.go p now answer = some t ∧ new = s.deedsWith answer t := by
  simp only [machine, Option.map_eq_some_iff, Prod.mk.injEq]
  constructor
  · rintro ⟨t, hgo, rfl, rfl⟩
    exact ⟨hgo, rfl⟩
  · rintro ⟨hgo, rfl⟩
    exact ⟨t, hgo, rfl, rfl⟩

/-- A step of a course leaves the phase and what has been done alone, or it is a turn. -/
theorem turn_of_occur (h : (machine p).occur s o = some (new, t)) :
    (∃ move, o = .outside move ∧ new = [] ∧ s.clientMove move = some t) ∨
      ∃ now answer, o = .turn now answer ∧ Turn p now s new t := by
  cases o with
  | outside move =>
    obtain ⟨hm, rfl⟩ := occur_outside.mp h
    exact .inl ⟨move, rfl, rfl, hm⟩
  | turn now answer =>
    obtain ⟨hgo, rfl⟩ := occur_turn.mp h
    exact .inr ⟨now, answer, rfl, turn_of_answer hgo⟩

theorem isCancelled_clientMove {move : Move} (h : s.clientMove move = some t) :
    t.isCancelled = true ↔ s.isCancelled = true ∨ move = .cancel := by
  cases move with
  | read =>
    simp only [clientMove] at h
    split at h <;> simp at h
    subst h
    simp
  | leave | cancel =>
    simp only [clientMove, Option.some.injEq] at h
    subst h
    simp

end

end Subscription

section
variable {p : Policy} {now : Nat} {s t : Subscription} {ds : List Deed}

/-- A subscription takes a turn while it runs: it goes on, or it sees the cancellation and nothing
else. -/
theorem Turn.taken (h : Turn p now s ds t) :
    (∃ stage, s.IsAt stage) ∨
      ((∃ stage, s.phase = .running stage) ∧ s.isCancelled = true ∧ ds = [] ∧
        t = s.finished (.error (p.rulebook.statusOf .cancelled))) := by
  cases h with
  | cancelled hs hc => exact .inr ⟨⟨_, hs⟩, hc, rfl, rfl⟩
  | counted hs | uncounted hs | unpopped hs => exact .inl ⟨_, hs⟩
  | announced hs _ | unheard hs _ | paced hs _ | popped hs _ | foundNone hs _ | delivered hs _ =>
    exact .inl ⟨_, hs⟩

theorem Turn.of_cancelled (h : Turn p now s ds t) (hc : s.isCancelled = true) :
    ds = [] ∧ t = s.finished (.error (p.rulebook.statusOf .cancelled)) := by
  obtain ⟨stage, -, hlive⟩ | ⟨-, -, hds, ht⟩ := h.taken
  · simp [hc] at hlive
  · exact ⟨hds, ht⟩

theorem Turn.not_closed (h : Turn p now s ds t) {outcome : Except Status Unit} :
    s.phase ≠ .closed outcome := by
  intro hs
  obtain ⟨stage, hat, -⟩ | ⟨⟨stage, hrunning⟩, -⟩ := h.taken
  · simp [hs] at hat
  · simp [hs] at hrunning

theorem Turn.outcome?_eq_none (h : Turn p now s ds t) : s.outcome? = none := by
  cases hphase : s.phase with
  | closed outcome => exact absurd hphase h.not_closed
  | running stage => simp [Subscription.outcome?, hphase]

theorem Turn.isCancelled_eq (h : Turn p now s ds t) : t.isCancelled = s.isCancelled := by
  have harrived (s : Subscription) (r : Except Failure Stage) :
      (s.arrived p r).isCancelled = s.isCancelled := by
    unfold Subscription.arrived
    split <;> rfl
  cases h with
  | announced | foundNone | delivered => exact harrived _ _
  | cancelled | counted | uncounted | unheard | paced | popped | unpopped => rfl

theorem Subscription.arrived_phase_ne_finished (s : Subscription) (r : Except Failure Stage) :
    (s.arrived p r).phase ≠ .running .finished := by
  unfold arrived
  split <;> simp_all [finished]

theorem Turn.phase_ne_finished (h : Turn p now s ds t) : t.phase ≠ .running .finished := by
  cases h with
  | cancelled | uncounted | unheard | unpopped => simp [Subscription.finished]
  | counted | paced | popped => simp
  | announced | foundNone | delivered => exact Subscription.arrived_phase_ne_finished _ _

theorem Subscription.phase_ne_finished {user : UserId} {outbound : Channel Frame}
    {isCancelled : Bool} {os : List Occasion} {new : List Deed}
    (h : (machine p).course (.started user outbound isCancelled) os = some (new, s)) :
    s.phase ≠ .running .finished := by
  refine Machine.course_induction (P := fun _ _ s => s.phase ≠ .running .finished) ?_ ?_ h
  · simp [started]
  · intro os ds v o new t _ hv hoccur
    obtain ⟨move, -, -, hm⟩ | ⟨_, _, -, hturn⟩ := turn_of_occur hoccur
    · rwa [(clientMove_cases hm).2]
    · exact hturn.phase_ne_finished

end

/-- For short courses: a subscription that has just started. -/
def Subscription.fresh : Subscription :=
  .started ⟨1⟩ { capacity := 4 } false

end NoteRelay.Notify
