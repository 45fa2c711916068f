import NoteRelay.Proofs.Inboxes.Conservation

/-!
# Shared inboxes act as queues that are called one call at a time

Callers of shared inboxes see what callers of a queue might see that does a call in one task,
at one moment between its start and its end: the moment of the last section of the call
(`exists_atomic`). No call waits for another, and one that is not disturbed does what it does on
queues that nobody shares (`answered_alone`). `Shared.linearizable` has this with what becomes of
the events.
-/

namespace NoteRelay.Inboxes

open Service (Deed Occasion Record Stage Traffic records)

-- ---------------------------------------------------------------------------
-- The same calls on queues that nobody shares
-- ---------------------------------------------------------------------------

/-- For every user the same waits. Every call has come as far in `v` as in `w`, but that in `v` one
does not see how many of its sections it has behind it. -/
structure Mirrors (w : Traffic Shared Section) (v : Traffic Queues Call) : Prop where
  waiting : ∀ user, v.store.inboxes.waiting user = w.store.waiting user
  calls : ∀ id, v.calls.get? id = (w.calls.get? id).map (Stage.map Section.call)

section
variable {ds new : List (Deed Section)} {w w' : Traffic Shared Section} {v : Traffic Queues Call}
  {o : Occasion} {id : Nat}

theorem mirrors_initial : Mirrors Shared.service.initial Service.atomic.initial where
  waiting _ := rfl
  calls _ := rfl

theorem Mirrors.get?_insert (h : Mirrors w v) (id : Nat) (stage : Stage Section) (other : Nat) :
    (v.calls.insert id (stage.map Section.call)).get? other =
      ((w.calls.insert id stage).get? other).map (Stage.map Section.call) := by
  by_cases ho : other = id <;> simp [Table.get?_insert, ho, h.calls]

theorem Mirrors.step (h : Mirrors w v) (hkept : Kept ds w)
    (hstep : Shared.service.Step w o new w') :
    (Mirrors w' v ∧ records new = []) ∨
      ∃ new' v', Service.atomic.Step v o new' v' ∧ records new' = records new ∧ Mirrors w' v' := by
  cases hstep with
  | @started id call hid =>
    have hv : v.calls.get? id = none := by simp [h.calls, hid]
    exact .inr ⟨_, _, .started hv, rfl, h.waiting,
      h.get?_insert id (.pending (.next (.find call)))⟩
  | @performed id part hid =>
    have hpart := hkept.inPlace hid
    have hv : v.calls.get? id = some (.pending (.next part.call)) := by
      simp [h.calls, hid, Stage.map, Progress.map]
    have hentered := entered w.store part
    have hperform : Shared.service.perform w.store part = w.store.enter part := rfl
    rw [hperform]
    generalize w.store.enter part = r at hentered
    obtain ⟨p, s'⟩ := r
    cases p with
    | next rest =>
      obtain ⟨hcall, -, hsame⟩ := hentered.keeps
      refine .inl ⟨⟨fun user => (h.waiting user).trans (hsame user).symm, fun other => ?_⟩, rfl⟩
      by_cases ho : other = id
      · subst ho
        simp [Table.get?_insert, hv, Stage.map, Progress.map, hcall]
      · simp [Table.get?_insert, ho, h.calls]
    | answered a =>
      obtain ⟨hanswer, hsame⟩ := hentered.answers hkept.sound hpart h.waiting
      refine .inr ⟨_, _, .performed hv, rfl, hsame, ?_⟩
      simp only [Service.atomic, hanswer]
      exact h.get?_insert id (.pending (.answered a))
  | @ended id a hid =>
    have hv : v.calls.get? id = some (.pending (.answered a)) := by
      simp [h.calls, hid, Stage.map, Progress.map]
    exact .inr ⟨_, _, .ended hv, rfl, h.waiting, h.get?_insert id (.ended a)⟩

theorem exists_atomic {occasions : List Occasion}
    (h : Shared.service.machine.course Shared.service.initial occasions = some (ds, w)) :
    ∃ moments ds' v, moments.Sublist occasions ∧
      Service.atomic.machine.course Service.atomic.initial moments = some (ds', v) ∧
      records ds' = records ds ∧ Mirrors w v := by
  -- Along the course: the queues do a call when its last section is done, and are told of its start
  -- and its end when the boxes are.
  refine Machine.course_induction (P := fun occasions (ds : List (Deed Section)) w =>
    ∃ moments ds' v, moments.Sublist occasions ∧
      Service.atomic.machine.course Service.atomic.initial moments = some (ds', v) ∧
      records ds' = records ds ∧ Mirrors w v) ⟨[], [], _, .slnil, rfl, rfl, mirrors_initial⟩ ?_ h
  rintro occasions ds w o new w' hcourse ⟨moments, ds', v, hsub, hatomic, hrecords, hmirrors⟩ hoccur
  have hstep := Service.occur_eq_some.mp hoccur
  obtain ⟨hnext, hnone⟩ | ⟨new', v', hstep', hnew, hnext⟩ := hmirrors.step (kept hcourse) hstep
  · refine ⟨moments, ds', v, hsub.trans (List.sublist_append_left _ _), hatomic, ?_, hnext⟩
    rw [Service.records_append, hnone, hrecords, List.append_nil]
  · refine ⟨moments ++ [o], ds' ++ new', v', hsub.append_right [o], ?_, ?_, hnext⟩
    · exact Machine.course_append_single.mpr
        ⟨ds', v, new', hatomic, Service.occur_eq_some.mpr hstep', rfl⟩
    · rw [Service.records_append, Service.records_append, hrecords, hnew]

end

-- ---------------------------------------------------------------------------
-- No call waits for another
-- ---------------------------------------------------------------------------

def Section.left : Section → Nat
  | find _ => 3
  | make _ => 2
  | append _ _ => 1
  | take _ _ => 1
  | size _ _ => 1

theorem Entered.left_lt {s s' : Shared} {part rest : Section}
    (h : Entered s part (.next rest) s') : rest.left < part.left := by
  cases h with
  | @found call => cases call <;> simp [Call.atBox, Section.left]
  | missed | madeBefore | made => simp [Section.left]

theorem Section.left_le (part : Section) : part.left ≤ 3 := by
  cases part <;> simp [left]

theorem Section.left_pos (part : Section) : 1 ≤ part.left := by
  cases part <;> simp [left]

/-- A call that others leave alone is answered as it would be by queues in which the same waits, and
leaves behind what they would. -/
theorem answered_alone {w : Traffic Shared Section} {id : Nat} {part : Section} {q : Queues}
    (hs : w.store.Sound) (hpart : w.store.InPlace part)
    (hq : ∀ user, q.inboxes.waiting user = w.store.waiting user)
    (hid : w.calls.get? id = some (.pending (.next part))) :
    ∃ n ≤ part.left, ∃ ds w', records ds = [] ∧
      Shared.service.machine.course w (List.replicate n (.go id)) = some (ds, w') ∧
      w'.calls.get? id = some (.pending (.answered (q.run part.call.toQueueCall).1)) ∧
      ∀ user, (q.run part.call.toQueueCall).2.inboxes.waiting user = w'.store.waiting user := by
  -- Each section that is not the last leaves the call with fewer before it.
  induction hleft : part.left using Nat.strongRecOn generalizing w part with
  | ind left ih =>
    subst hleft
    have hgo := Service.occur_eq_some.mpr (Service.Step.performed (S := Shared.service) hid)
    have hentered : Entered w.store part (Shared.service.perform w.store part).1
        (Shared.service.perform w.store part).2 := entered w.store part
    generalize Shared.service.perform w.store part = r at hgo hentered
    obtain ⟨p, s'⟩ := r
    cases p with
    | answered a =>
      obtain ⟨hanswer, hsame⟩ := hentered.answers hs hpart hq
      refine ⟨1, part.left_pos, _, _, rfl, Machine.course_single.mpr hgo, ?_, hsame⟩
      simp [Table.get?_insert, hanswer]
    | next rest =>
      obtain ⟨hcall, hrest, hsame⟩ := hentered.keeps
      obtain ⟨n, hn, ds, w', hrecords, hcourse, hanswered⟩ := ih rest.left hentered.left_lt
        (w := ⟨s', w.calls.insert id (.pending (.next rest))⟩) (hentered.sound hs) hrest
        (fun user => (hq user).trans (hsame user).symm) (by simp [Table.get?_insert]) rfl
      have hlt := hentered.left_lt
      rw [hcall] at hanswered
      exact ⟨n + 1, by omega, .performed id part (.next rest) :: ds, w', hrecords,
        Machine.course_cons.mpr ⟨_, _, ds, hgo, hcourse, rfl⟩, hanswered⟩

/-- A call that is under way can be brought to its end, whatever other calls have come to. -/
theorem ends_alone {ds : List (Deed Section)} {w : Traffic Shared Section}
    {v : Traffic Queues Call} {id : Nat} {p : Progress Section} (hkept : Kept ds w)
    (hmirrors : Mirrors w v) (hid : w.calls.get? id = some (.pending p)) :
    ∃ n ≤ 3, ∃ rest w' a, records rest = [.ended id a] ∧
      Shared.service.machine.course w (List.replicate n (.go id) ++ [.finish id]) =
        some (rest, w') := by
  obtain ⟨n, hn, rest, u, a, hrecords, hcourse, ha⟩ : ∃ n ≤ 3, ∃ rest u a, records rest = [] ∧
      Shared.service.machine.course w (List.replicate n (.go id)) = some (rest, u) ∧
      u.calls.get? id = some (.pending (.answered a)) := by
    cases p with
    | answered a => exact ⟨0, Nat.zero_le _, [], w, a, rfl, rfl, hid⟩
    | next part =>
      obtain ⟨n, hn, rest, u, hrecords, hcourse, ha, -⟩ :=
        answered_alone hkept.sound (hkept.inPlace hid) hmirrors.waiting hid
      exact ⟨n, Nat.le_trans hn part.left_le, rest, u, _, hrecords, hcourse, ha⟩
  have hfinish := Service.occur_eq_some.mpr (Service.Step.ended (S := Shared.service) ha)
  refine ⟨n, hn, _, _, a, ?_,
    Machine.course_append_single.mpr ⟨rest, u, _, hcourse, hfinish, rfl⟩⟩
  rw [Service.records_append, hrecords]
  rfl

-- ---------------------------------------------------------------------------
-- The law of shared inboxes
-- ---------------------------------------------------------------------------

namespace Shared

/-- However the sections of any number of calls come between each other, no event is lost or
doubled, and none overtakes another in its box. A call that has not ended can end, by three sections
of its own at most. And queues that do each call in one task, at a moment between its start and its
end, can have the same calls start and end in the same order with the same answers, and the same
waits in the end. The moment of a call is that of one of its sections. -/
theorem linearizable {occasions : List Occasion} {ds : List (Deed Section)}
    {w : Traffic Shared Section}
    (h : service.machine.course service.initial occasions = some (ds, w)) :
    w.store.Lossless ds ∧
    (∀ id call, .started id call ∈ records ds → (∃ a, .ended id a ∈ records ds) ∨
      ∃ n ≤ 3, ∃ rest w' a, records rest = [.ended id a] ∧
        service.machine.course w (List.replicate n (.go id) ++ [.finish id]) = some (rest, w')) ∧
    ∃ moments ds' v, moments.Sublist occasions ∧
      Service.atomic.machine.course Service.atomic.initial moments = some (ds', v) ∧
      records ds' = records ds ∧
      ∀ user, v.store.inboxes.waiting user = w.store.waiting user := by
  have hkept := kept h
  obtain ⟨moments, ds', v, hsub, hatomic, hrecords, hmirrors⟩ := exists_atomic h
  refine ⟨hkept.lossless, ?_, moments, ds', v, hsub, hatomic, hrecords, hmirrors.waiting⟩
  intro id call hstarted
  obtain ⟨a, hended⟩ | ⟨p, hid⟩ := (hkept.account id).of_started (mem_recordsOf.mpr hstarted)
  · exact .inl ⟨a, mem_recordsOf.mp hended⟩
  · exact .inr (ends_alone hkept hmirrors hid)

def note (id : Nat) (change : NoteChange) : NoteEvent where
  id := ⟨.ofNat id⟩
  change := change
  noteId := ⟨7⟩
  recipient := ⟨1⟩
  time := ⟨⟨2026, 3, 2, by decide⟩, ⟨9, 30, 0, 0, by decide⟩⟩

/-- Two pushes for one user both find no box. When one has made the box and put nothing there yet, a
pop finds it, and the other push puts its event there first. -/
def racing : List Occasion :=
  [.start 0 (.push (note 1 .created)), .start 1 (.push (note 2 .deleted)), .go 0, .go 1,
    .start 2 (.pop ⟨1⟩), .go 0, .go 2, .go 1, .go 1, .start 3 (.count ⟨1⟩), .go 3, .go 2, .finish 2,
    .go 0, .finish 1, .go 3, .finish 3]

def seenRacing : List Handling × List Handling × List Record :=
  ([⟨1, 0, note 2 .deleted⟩, ⟨0, 0, note 1 .created⟩], [⟨2, 0, note 2 .deleted⟩],
    [.started 0 (.push (note 1 .created)), .started 1 (.push (note 2 .deleted)),
      .started 2 (.pop ⟨1⟩), .started 3 (.count ⟨1⟩), .ended 2 (.event (some (note 2 .deleted))),
      .ended 1 .done, .ended 3 (.number 1)])

theorem linearizable_racing :
    ∃ ds w, service.machine.course service.initial racing = some (ds, w) ∧
      (puts ds, takes ds, records ds) = seenRacing ∧ w.store.Lossless ds ∧
      (∃ n ≤ 3, ∃ rest w' a, records rest = [.ended 0 a] ∧
        service.machine.course w (List.replicate n (.go 0) ++ [.finish 0]) = some (rest, w')) ∧
      ∃ moments ds' v, moments.Sublist racing ∧
        Service.atomic.machine.course Service.atomic.initial moments = some (ds', v) ∧
        records ds' = records ds ∧
        ∀ user, v.store.inboxes.waiting user = w.store.waiting user := by
  have hseen : (service.machine.course service.initial racing).map
      (fun r => (puts r.1, takes r.1, records r.1)) = some seenRacing := by
    decide +kernel
  obtain ⟨⟨ds, w⟩, hrun, hseen⟩ := Option.map_eq_some_iff.mp hseen
  have hrecords : records ds = seenRacing.2.2 := congrArg (fun seen => seen.2.2) hseen
  obtain ⟨hlossless, hend, hatomic⟩ := linearizable hrun
  refine ⟨ds, w, hrun, hseen, hlossless, ?_, hatomic⟩
  -- The push that made the box has not ended.
  obtain ⟨a, hended⟩ | hend := hend 0 (.push (note 1 .created)) (by simp [hrecords, seenRacing])
  · simp [hrecords, seenRacing] at hended
  · exact hend

end Shared

end NoteRelay.Inboxes
