import NoteRelay.Proofs.Store
import NoteRelay.Publisher

/-!
# What is published

Every call of a publisher is one push, and ends with an answer whatever becomes of the push: the
event, if it came into the inbox of its owner, and nothing otherwise. The identities are counted by
the calls and not by the events, so that a push that fails does not change what is published later
(`Publisher.published`).
-/

namespace NoteRelay

/-- An event stands at the end of the inbox of its recipient, and that is all that is new. -/
def Inboxes.Gained (before after : Inboxes) (e : NoteEvent) : Prop :=
  ∀ user, after.waiting user =
    if user = e.recipient then before.waiting user ++ [e] else before.waiting user

def Inboxes.Unchanged (before after : Inboxes) : Prop :=
  ∀ user, after.waiting user = before.waiting user

namespace Inboxes

variable {before after : Inboxes} {e f : NoteEvent}

theorem gained_push (i : Inboxes) (e : NoteEvent) : i.Gained (i.push e) e :=
  fun user => waiting_push i e user

theorem Gained.not_unchanged (h : before.Gained after e) : ¬ before.Unchanged after := by
  intro hsame
  have hnew := h e.recipient
  rw [hsame e.recipient] at hnew
  simp at hnew

theorem Gained.eq (he : before.Gained after e) (hf : before.Gained after f) : e = f := by
  have hnew := he e.recipient
  rw [hf e.recipient, if_pos rfl] at hnew
  by_cases hrecipient : e.recipient = f.recipient
  · rw [if_pos hrecipient] at hnew
    simpa using hnew.symm
  · rw [if_neg hrecipient] at hnew
    simp at hnew

end Inboxes

namespace Publisher

variable (p : Publisher) (inboxes : Inboxes) (o : Publication) (orders : List Publication)

-- ---------------------------------------------------------------------------
-- One call
-- ---------------------------------------------------------------------------

theorem make_eq :
    p.make inboxes o = (o.outcome (p.nextId 0), p.used 1,
      if o.fault.isNone then inboxes.push (o.event (p.nextId 0)) else inboxes) := by
  unfold make publish Publication.outcome
  cases o.fault <;> rfl

/-- The queue is asked once, whatever it answers. -/
theorem make_eq_answer (q : Queues) :
    (p.make q.inboxes o).2.2 =
        (q.answer (o.fault.map .failing) (.push (o.event (p.nextId 0)))).2.inboxes ∧
      ((p.make q.inboxes o).1.isSome ↔
        (q.answer (o.fault.map .failing) (.push (o.event (p.nextId 0)))).1 = .ok .done) := by
  rw [make_eq, Publication.outcome]
  cases o.fault <;> simp [Queues.answer, Queues.run]

theorem make_cases :
    (∃ e, (p.make inboxes o).1 = some e ∧ inboxes.Gained (p.make inboxes o).2.2 e) ∨
      ((p.make inboxes o).1 = none ∧ (p.make inboxes o).2.2 = inboxes) := by
  rw [make_eq, Publication.outcome]
  cases o.fault with
  | none => exact .inl ⟨_, rfl, inboxes.gained_push _⟩
  | some fault => exact .inr ⟨rfl, rfl⟩

theorem make_eq_some_iff (e : NoteEvent) :
    (p.make inboxes o).1 = some e ↔ inboxes.Gained (p.make inboxes o).2.2 e := by
  obtain ⟨f, hanswer, hgained⟩ | ⟨hanswer, hsame⟩ := p.make_cases inboxes o
  · rw [hanswer, Option.some.injEq]
    constructor
    · rintro rfl
      exact hgained
    · exact hgained.eq
  · rw [hanswer, hsame]
    refine iff_of_false (by simp) ?_
    intro h
    exact h.not_unchanged fun _ => rfl

theorem make_eq_none_iff :
    (p.make inboxes o).1 = none ↔ inboxes.Unchanged (p.make inboxes o).2.2 := by
  obtain ⟨e, hanswer, hgained⟩ | ⟨hanswer, hsame⟩ := p.make_cases inboxes o
  · exact iff_of_false (by simp [hanswer]) hgained.not_unchanged
  · rw [hanswer, hsame]
    exact iff_of_true rfl fun _ => rfl

-- ---------------------------------------------------------------------------
-- Calls one after the other
-- ---------------------------------------------------------------------------

theorem outcomes_cons :
    p.outcomes (o :: orders) = o.outcome (p.nextId 0) :: (p.used 1).outcomes orders := by
  simp [outcomes, List.mapIdx_cons, nextId, used, Nat.add_assoc, Nat.add_comm 1]

/-- By induction on the calls: the first one uses up one identity, whether its push fails or not. -/
theorem makeAll_answers :
    (p.makeAll inboxes orders).1 = p.outcomes orders ∧
      (p.makeAll inboxes orders).2.1 = p.used orders.length := by
  induction orders generalizing p inboxes with
  | nil => exact ⟨rfl, rfl⟩
  | cons o rest ih =>
    have hanswer : (p.make inboxes o).1 = o.outcome (p.nextId 0) := by rw [make_eq]
    have hnext : (p.make inboxes o).2.1 = p.used 1 := by rw [make_eq]
    obtain ⟨hanswers, hused⟩ := ih (p.used 1) (p.make inboxes o).2.2
    simp only [makeAll, outcomes_cons, hanswer, hnext, hanswers, hused, true_and]
    simp [used, Nat.add_assoc, Nat.add_comm 1]

theorem waiting_makeAll (user : UserId) :
    (p.makeAll inboxes orders).2.2.waiting user = inboxes.waiting user ++
      ((p.makeAll inboxes orders).1.filterMap id).filter (·.recipient = user) := by
  induction orders generalizing p inboxes with
  | nil => simp [makeAll]
  | cons o rest ih =>
    simp only [makeAll, ih]
    obtain ⟨e, hanswer, hgained⟩ | ⟨hanswer, hsame⟩ := p.make_cases inboxes o
    · rw [hanswer, hgained user]
      by_cases huser : user = e.recipient
      · simp [huser]
      · simp [huser, Ne.symm huser]
    · simp [hanswer, hsame]

theorem ids_sublist :
    (((p.outcomes orders).filterMap id).map NoteEvent.id).Sublist
      ((List.range orders.length).map p.nextId) := by
  induction orders generalizing p with
  | nil => simp [outcomes]
  | cons o rest ih =>
    have hlater : (List.range rest.length).map (p.used 1).nextId =
        (List.range rest.length).map fun k => p.nextId (k + 1) := by
      simp [nextId, used, Nat.add_assoc, Nat.add_comm 1]
    have hrest := hlater ▸ ih (p.used 1)
    rw [outcomes_cons, List.length_cons, List.range_succ_eq_map, List.map_cons, List.map_map]
    cases hanswer : o.outcome (p.nextId 0) with
    | none => exact hrest.cons _
    | some e =>
      have hid : e.id = p.nextId 0 := by
        simp only [Publication.outcome] at hanswer
        split at hanswer
        · cases hanswer
          rfl
        · cases hanswer
      simp only [List.filterMap_cons_some (f := id) (b := e) rfl, List.map_cons, hid]
      exact hrest.cons_cons _

/-- A call never fails. It asks the queue once, whatever the answer, and returns an event exactly if
that has come to the end of the inbox of its owner and nothing else is new; it returns none exactly
if no inbox has changed. Of calls one after the other, each answers from the identity that is minted
for it, and the inboxes have gained what was answered, in that order. -/
theorem published :
    (∀ (p : Publisher) (q : Queues) (o : Publication),
      (p.make q.inboxes o).1 = o.outcome (p.nextId 0) ∧
      (∀ e, (p.make q.inboxes o).1 = some e ↔ q.inboxes.Gained (p.make q.inboxes o).2.2 e) ∧
      ((p.make q.inboxes o).1 = none ↔ q.inboxes.Unchanged (p.make q.inboxes o).2.2) ∧
      (p.make q.inboxes o).2.2 =
        (q.answer (o.fault.map .failing) (.push (o.event (p.nextId 0)))).2.inboxes ∧
      ((p.make q.inboxes o).1.isSome ↔
        (q.answer (o.fault.map .failing) (.push (o.event (p.nextId 0)))).1 = .ok .done)) ∧
    ∀ (p : Publisher) (inboxes : Inboxes) (orders : List Publication),
      (p.makeAll inboxes orders).1 = p.outcomes orders ∧
      (p.makeAll inboxes orders).2.1 = p.used orders.length ∧
      (∀ user, (p.makeAll inboxes orders).2.2.waiting user = inboxes.waiting user ++
        ((p.makeAll inboxes orders).1.filterMap id).filter (·.recipient = user)) ∧
      (((List.range orders.length).map p.nextId).Nodup →
        (((p.makeAll inboxes orders).1.filterMap id).map NoteEvent.id).Nodup) := by
  constructor
  · intro p q o
    obtain ⟨hasked, hanswered⟩ := p.make_eq_answer o q
    exact ⟨by rw [make_eq], p.make_eq_some_iff _ o, p.make_eq_none_iff _ o, hasked, hanswered⟩
  · intro p inboxes orders
    obtain ⟨hanswers, hused⟩ := p.makeAll_answers inboxes orders
    refine ⟨hanswers, hused, p.waiting_makeAll inboxes orders, ?_⟩
    intro hdistinct
    rw [hanswers]
    exact (p.ids_sublist orders).nodup hdistinct

def noon : Timestamp :=
  ⟨⟨2026, 1, 1, by decide⟩, ⟨12, 0, 0, 0, by decide⟩⟩

/-- Two owners; the second of three pushes is refused. -/
def refusedOnce : List Publication :=
  [{ change := .created, owner := ⟨1⟩, note := ⟨10⟩, time := noon },
    { change := .created, owner := ⟨1⟩, note := ⟨11⟩, time := noon,
      fault := some (.unavailable "timeout") },
    { change := .deleted, owner := ⟨2⟩, note := ⟨10⟩, time := noon }]

theorem published_refusedOnce :
    ((List.range 3).map (Publisher.mk .counting 4).nextId).Nodup ∧
      ((Publisher.mk .counting 4).makeAll .empty refusedOnce).1 =
        [some ⟨⟨.ofNat 5⟩, .created, ⟨10⟩, ⟨1⟩, noon⟩, none,
          some ⟨⟨.ofNat 7⟩, .deleted, ⟨10⟩, ⟨2⟩, noon⟩] ∧
      (((Publisher.mk .counting 4).makeAll .empty refusedOnce).1.filterMap id |>.map
        NoteEvent.id).Nodup := by
  obtain ⟨hanswers, -, -, hids⟩ := published.2 (.mk .counting 4) .empty refusedOnce
  have hdistinct : ((List.range 3).map (Publisher.mk .counting 4).nextId).Nodup := by
    decide +kernel
  exact ⟨hdistinct, hanswers, hids hdistinct⟩

end Publisher

end NoteRelay
