import NoteRelay.Proofs.Chronicle

/-!
# What the calls do to the stores

The outbox of a session and the inbox of a user, seen through `Outbox.stored?`, `Outbox.box` and
`Inboxes.waiting`: every call changes the one that it is about as its answer says, and no other. A
call that is made to fail changes nothing.
-/

namespace NoteRelay

namespace Table

variable {κ α : Type} [DecidableEq κ]

theorem mem_entries_iff {t : Table κ α} {k : κ} {a : α} :
    (k, a) ∈ t.entries ↔ t.get? k = some a := by
  obtain ⟨entries, distinct⟩ := t
  show (k, a) ∈ entries ↔ entries.lookup k = some a
  induction entries with
  | nil => simp
  | cons e rest ih =>
    obtain ⟨k', b⟩ := e
    have hd := List.nodup_cons.mp distinct
    rw [lookup_cons, List.mem_cons, ih hd.2]
    by_cases hk : k = k'
    · subst hk
      have hno : rest.lookup k ≠ some a := fun h =>
        hd.1 (List.mem_map.mpr ⟨(k, a), (ih hd.2).mpr h, rfl⟩)
      simp [hno, eq_comm]
    · simp [hk]

theorem mem_values_iff {t : Table κ α} {a : α} : a ∈ t.values ↔ ∃ k, t.get? k = some a := by
  simp [values, ← mem_entries_iff]

omit [DecidableEq κ] in
theorem eq_empty_of_values {t : Table κ α} (h : t.values = []) : t = .empty := by
  obtain ⟨entries, distinct⟩ := t
  have : entries = [] := by simpa [values] using h
  subst this
  rfl

end Table

-- ---------------------------------------------------------------------------
-- The outbox of a session
-- ---------------------------------------------------------------------------

namespace Outbox

/-- Every message of a box is kept under its own identity. -/
def Box.Keyed (b : Box) : Prop :=
  ∀ k m, b.get? k = some m → m.correlationId = k

theorem Box.Keyed.nodup_ids {b : Box} (h : b.Keyed) :
    (b.values.map ChatMessage.correlationId).Nodup := by
  have : b.values.map ChatMessage.correlationId = b.entries.map Prod.fst := by
    rw [Table.values, List.map_map]
    refine List.map_congr_left fun e he => ?_
    exact h e.1 e.2 (Table.mem_entries_iff.mp he)
  rw [this]
  exact b.distinct

/-- What an outbox holds under a session. A session with no entry is one with an empty box. -/
def stored? (o : Outbox) (id : SessionId) : Option Box :=
  o.sessions.get? id

theorem box_eq (o : Outbox) (id : SessionId) : o.box id = (o.stored? id).getD .empty := rfl

@[simp] theorem stored?_save (o : Outbox) (id other : SessionId) (m : ChatMessage) :
    (o.save id m).stored? other =
      if other = id then some (((o.stored? id).getD .empty).insert m.correlationId m)
      else o.stored? other := by
  simp [stored?, save, box, Table.get?_insert]

@[simp] theorem stored?_clear (o : Outbox) (id other : SessionId) :
    (o.clear id).stored? other = if other = id then none else o.stored? other := by
  simp [stored?, clear, Table.get?_erase]

@[simp] theorem stored?_delete (o : Outbox) (id other : SessionId) (m : ChatMessage) :
    (o.delete id m).stored? other =
      if other = id then
        ((o.stored? id).map (·.erase m.correlationId)).filter fun rest => !rest.isEmpty
      else o.stored? other := by
  unfold delete stored?
  split
  · rename_i hnone
    by_cases h : other = id
    · subst h; simp [hnone]
    · simp [h]
  · rename_i b hsome
    dsimp only
    by_cases hempty : (b.erase m.correlationId).isEmpty
    · by_cases h : other = id <;> simp [Option.filter, hempty, Table.get?_erase, h, hsome]
    · by_cases h : other = id <;> simp [Option.filter, hempty, Table.get?_insert, h, hsome]

@[simp] theorem box_save (o : Outbox) (id other : SessionId) (m : ChatMessage) :
    (o.save id m).box other =
      if other = id then (o.box id).insert m.correlationId m else o.box other := by
  by_cases h : other = id <;> simp [box_eq, h]

@[simp] theorem box_clear (o : Outbox) (id other : SessionId) :
    (o.clear id).box other = if other = id then .empty else o.box other := by
  by_cases h : other = id <;> simp [box_eq, h]

/-- A session whose last message goes is forgotten, which its box does not show. -/
@[simp] theorem box_delete (o : Outbox) (id other : SessionId) (m : ChatMessage) :
    (o.delete id m).box other =
      if other = id then (o.box id).erase m.correlationId else o.box other := by
  by_cases h : other = id
  · subst h
    simp only [box_eq, stored?_delete, if_true]
    cases o.stored? other with
    | none => rfl
    | some b =>
      by_cases hempty : (b.erase m.correlationId).isEmpty
      · have hnil : b.erase m.correlationId = .empty := by
          refine Table.eq_empty_of_values ?_
          simpa [Table.values, Table.isEmpty] using hempty
        simp [Option.filter, hnil, Table.isEmpty, Table.empty]
      · simp [Option.filter, hempty]
  · simp [box_eq, h]

theorem fetchAll_perm (o : Outbox) (id : SessionId) : (o.fetchAll id).Perm (o.box id).values :=
  List.mergeSort_perm _ _

end Outbox

-- ---------------------------------------------------------------------------
-- The inbox of a user
-- ---------------------------------------------------------------------------

namespace Inboxes

theorem waiting_opened (i : Inboxes) (user other : UserId) :
    (i.opened user).waiting other = i.waiting other := by
  unfold opened
  split
  · rfl
  · rename_i hnone
    by_cases h : other = user
    · subst h
      simp [waiting, Table.get?_insert, hnone]
    · simp [waiting, Table.get?_insert, h]

theorem waiting_withContent {i : Inboxes} {user : UserId} {before : List NoteEvent}
    (h : i.users.get? user = some before) (other : UserId) (events : List NoteEvent) :
    (i.withContent user events).waiting other =
      if other = user then events else i.waiting other := by
  by_cases hu : other = user <;> simp [withContent, waiting, h, Table.get?_insert, hu]

theorem get?_of_waiting {i : Inboxes} {user : UserId} (h : i.waiting user ≠ []) :
    i.users.get? user = some (i.waiting user) := by
  unfold waiting at h ⊢
  cases hu : i.users.get? user with
  | none => simp [hu] at h
  | some events => rfl

@[simp] theorem waiting_push (i : Inboxes) (e : NoteEvent) (user : UserId) :
    (i.push e).waiting user =
      if user = e.recipient then i.waiting user ++ [e] else i.waiting user := by
  have hopen : ∃ before, (i.opened e.recipient).users.get? e.recipient = some before := by
    unfold opened
    split
    · rename_i before hsome
      exact ⟨before, hsome⟩
    · exact ⟨[], by simp [Table.get?_insert]⟩
  obtain ⟨before, hbefore⟩ := hopen
  rw [push, waiting_withContent hbefore, waiting_opened]
  by_cases h : user = e.recipient <;> simp [h]

@[simp] theorem pop_fst (i : Inboxes) (user : UserId) :
    (i.pop user).1 = (i.waiting user).head? := by
  unfold pop
  split
  · rename_i h; rw [h]; rfl
  · rename_i h; rw [h]; rfl

@[simp] theorem waiting_pop (i : Inboxes) (user other : UserId) :
    (i.pop user).2.waiting other =
      if other = user then (i.waiting user).tail else i.waiting other := by
  unfold pop
  split
  · rename_i hnil
    by_cases h : other = user
    · subst h; simp [hnil]
    · simp [h]
  · rename_i e rest hcons
    rw [waiting_withContent (get?_of_waiting (by simp [hcons])), hcons]
    rfl

end Inboxes

-- ---------------------------------------------------------------------------
-- Calls and their answers
-- ---------------------------------------------------------------------------

theorem QueueAnswer.arranged_perm (order snapshot : List ChatMessage) :
    (arranged order snapshot).Perm snapshot := by
  unfold arranged
  split
  · rename_i h; exact List.isPerm_iff.mp h
  · exact List.Perm.refl _

def QueueCall.session? : QueueCall → Option SessionId
  | save id _ => some id
  | fetchAll id => some id
  | delete id _ => some id
  | clear id => some id
  | _ => none

def QueueCall.taken (user : UserId) : QueueCall → Except QueueFault QueueAnswer → List NoteEvent
  | pop owner, .ok a => if owner = user then a.popped.toList else []
  | _, _ => []

/-- The box of a session when a call of it has been answered. -/
def Outbox.Box.after (b : Box) : QueueCall → Except QueueFault QueueAnswer → Box
  | .save _ m, .ok _ => b.insert m.correlationId m
  | .delete _ m, .ok _ => b.erase m.correlationId
  | .clear _, .ok _ => .empty
  | _, _ => b

namespace Queues

variable (q : Queues) (interference : Option Interference)

@[simp] theorem answerAny_some (call : QueueCall) :
    q.answerAny interference (some call) =
      (some (q.answer interference call).1, (q.answer interference call).2) := rfl

@[simp] theorem answerAny_none : q.answerAny interference none = (none, q) := rfl

/-- A call is answered with a fault and has done nothing, or its answer is the queue's, but for the
number of a count and the order of a snapshot. -/
theorem answer_cases (call : QueueCall) :
    (∃ fault, q.answer interference call = (.error fault, q)) ∨
      (∃ a, q.answer interference call = (.ok a, (q.run call).2)) := by
  unfold answer
  split
  · exact .inl ⟨_, rfl⟩
  · exact .inr ⟨_, rfl⟩
  · exact .inr ⟨_, rfl⟩
  · exact .inr ⟨_, rfl⟩

/-- A call changes the box of its session as the answer says. -/
theorem box_answer {call : QueueCall} {id : SessionId} (h : call.session? = some id) :
    (q.answer interference call).2.outbox.box id =
      (q.outbox.box id).after call (q.answer interference call).1 := by
  obtain ⟨fault, ha⟩ | ⟨a, ha⟩ := q.answer_cases interference call
  · rw [ha]
    cases call <;> rfl
  · rw [ha]
    cases call <;> simp only [QueueCall.session?, reduceCtorEq, Option.some.injEq] at h <;>
      subst h <;> simp [run, Outbox.Box.after]

theorem stored?_answer_of_ne {call : QueueCall} {id : SessionId} (h : call.session? ≠ some id) :
    (q.answer interference call).2.outbox.stored? id = q.outbox.stored? id := by
  obtain ⟨fault, ha⟩ | ⟨a, ha⟩ := q.answer_cases interference call
  · rw [ha]
  · rw [ha]
    cases call <;> simp only [QueueCall.session?, ne_eq, Option.some.injEq] at h <;>
      simp [run, Ne.symm h]

theorem answer_congr {q q' : Queues} {call : QueueCall} {id : SessionId}
    (hcall : call.session? = some id) (h : q.outbox.stored? id = q'.outbox.stored? id) :
    (q.answer interference call).1 = (q'.answer interference call).1 ∧
      (q.answer interference call).2.outbox.stored? id =
        (q'.answer interference call).2.outbox.stored? id := by
  have hfetch : q.outbox.fetchAll id = q'.outbox.fetchAll id := by
    simp only [Outbox.fetchAll, Outbox.box_eq, h]
  have hrun : (q.run call).1 = (q'.run call).1 ∧
      (q.run call).2.outbox.stored? id = (q'.run call).2.outbox.stored? id := by
    cases call <;> simp only [QueueCall.session?, reduceCtorEq, Option.some.injEq] at hcall <;>
      subst hcall <;> simp [run, h, hfetch]
  unfold answer
  split
  · exact ⟨rfl, h⟩
  · simp [QueueCall.session?] at hcall
  · simp only [QueueCall.session?, Option.some.injEq] at hcall
    subst hcall
    simp [hfetch, h]
  · exact ⟨congrArg Except.ok hrun.1, hrun.2⟩

/-- A snapshot has what is in the box, in some order. -/
theorem found_perm {id : SessionId} {a : QueueAnswer}
    (h : (q.answer interference (.fetchAll id)).1 = .ok a) :
    a.found.Perm (q.outbox.box id).values := by
  unfold answer at h
  split at h
  · simp at h
  · rename_i hc; simp at hc
  · rename_i order id' hc
    simp only [QueueCall.fetchAll.injEq] at hc
    simp only [Except.ok.injEq] at h
    subst hc h
    exact (QueueAnswer.arranged_perm _ _).trans (q.outbox.fetchAll_perm id)
  · simp only [run, Except.ok.injEq] at h
    subst h
    exact q.outbox.fetchAll_perm id

theorem inboxes_answer {call : QueueCall} {id : SessionId} (h : call.session? = some id) :
    (q.answer interference call).2.inboxes = q.inboxes := by
  obtain ⟨fault, ha⟩ | ⟨a, ha⟩ := q.answer_cases interference call
  · rw [ha]
  · rw [ha]
    cases call <;> simp only [QueueCall.session?, reduceCtorEq] at h <;> rfl

/-- A pop takes the oldest event of its user. No other call takes anything, and only a push adds. -/
theorem waiting_answer {call : QueueCall} (h : ∀ e, call ≠ .push e) (user : UserId) :
    q.inboxes.waiting user =
      call.taken user (q.answer interference call).1 ++
        (q.answer interference call).2.inboxes.waiting user := by
  unfold answer
  split
  · simp [QueueCall.taken]
  · simp [QueueCall.taken]
  · simp [QueueCall.taken]
  · cases call with
    | push e => exact absurd rfl (h e)
    | pop owner =>
      by_cases ho : owner = user
      · subst ho
        cases hw : q.inboxes.waiting owner <;>
          simp [QueueCall.taken, run, QueueAnswer.popped, hw]
      · simp [QueueCall.taken, run, ho, Ne.symm ho]
    | _ => simp [QueueCall.taken, run]

/-- A count that nobody has set is the number of the events that wait. -/
theorem counted_answer {owner : UserId} {a : QueueAnswer}
    (hset : ∀ n, interference ≠ some (.counting n))
    (h : (q.answer interference (.count owner)).1 = .ok a) :
    a.counted = (q.inboxes.waiting owner).length := by
  unfold answer at h
  split at h
  · simp at h
  · exact absurd rfl (hset _)
  · rename_i hc; simp at hc
  · simp only [run, Except.ok.injEq] at h
    subst h
    rfl

end Queues

end NoteRelay
