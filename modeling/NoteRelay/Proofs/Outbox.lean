import Mathlib.Data.List.Nodup
import NoteRelay.Proofs.Store

/-!
# What an outbox holds

Whatever calls have been made, an outbox holds of each session the messages that were saved last
under their identities and neither deleted nor cleared since, and of no session an empty box
(`Outbox.held`). Nothing is remembered but that: the second of two equal deletes or clears does
nothing, and calls of different sessions can change places.
-/

namespace NoteRelay

namespace Table

variable {κ α : Type} [DecidableEq κ]

theorem mem_keys_iff {t : Table κ α} {k : κ} : k ∈ t.keys ↔ ∃ a, t.get? k = some a := by
  simp [keys, ← mem_entries_iff]

theorem entriesBut_erase (t : Table κ α) (k : κ) : (t.erase k).entriesBut k = t.entriesBut k := by
  show (t.entriesBut k).filter _ = t.entriesBut k
  simp [entriesBut]

theorem entriesBut_insert (t : Table κ α) (k : κ) (a : α) :
    (t.insert k a).entriesBut k = t.entriesBut k := by
  show (t.entriesBut k ++ [(k, a)]).filter _ = t.entriesBut k
  simp [entriesBut]

@[simp] theorem erase_erase (t : Table κ α) (k : κ) : (t.erase k).erase k = t.erase k := by
  rw [erase]
  simp only [entriesBut_erase]
  rfl

@[simp] theorem insert_insert (t : Table κ α) (k : κ) (a b : α) :
    (t.insert k a).insert k b = t.insert k b := by
  rw [insert]
  simp only [entriesBut_insert]
  rfl

omit [DecidableEq κ] in
theorem isEmpty_iff {t : Table κ α} : t.isEmpty = true ↔ ∀ k, k ∉ t.keys := by
  simp [isEmpty, keys, List.eq_nil_iff_forall_not_mem]

omit [DecidableEq κ] in
theorem exists_mem_values {t : Table κ α} (h : t.isEmpty = false) : ∃ a, a ∈ t.values := by
  obtain ⟨e, he⟩ := List.exists_mem_of_ne_nil t.entries (by simpa [isEmpty] using h)
  exact ⟨e.2, List.mem_map_of_mem he⟩

end Table

def Queues.after (q : Queues) (calls : List QueueCall) : Queues :=
  calls.foldl (fun q call => (q.run call).2) q

/-- A call that says what a session holds under an identity from then on. -/
def QueueCall.Settles (session : SessionId) (id : CorrelationId) : QueueCall → Prop
  | save s m => s = session ∧ m.correlationId = id
  | delete s m => s = session ∧ m.correlationId = id
  | clear s => s = session
  | _ => False

instance (session : SessionId) (id : CorrelationId) (call : QueueCall) :
    Decidable (call.Settles session id) :=
  match call with
  | .save _ _ | .delete _ _ => inferInstanceAs (Decidable (_ ∧ _))
  | .clear _ => inferInstanceAs (Decidable (_ = _))
  | .fetchAll _ | .push _ | .pop _ | .count _ => inferInstanceAs (Decidable False)

/-- A message was saved, and no call since then has settled anything else under its identity. -/
def LastSaved (calls : List QueueCall) (session : SessionId) (m : ChatMessage) : Prop :=
  ∃ before later, calls = before ++ .save session m :: later ∧
    ∀ call ∈ later, ¬ call.Settles session m.correlationId

namespace Outbox

variable {calls : List QueueCall} {call : QueueCall} {session : SessionId} {m : ChatMessage}
  {q : Queues}

theorem not_lastSaved_nil : ¬ LastSaved [] session m := by
  rintro ⟨before, later, h, -⟩
  simp at h

theorem lastSaved_append_single :
    LastSaved (calls ++ [call]) session m ↔
      call = .save session m ∨
        (LastSaved calls session m ∧ ¬ call.Settles session m.correlationId) := by
  constructor
  · rintro ⟨before, later, h, hlater⟩
    obtain ⟨-, hcall, -⟩ | ⟨rest, rfl, rfl⟩ := append_single_eq_append_cons h
    · exact .inl hcall.symm
    · refine .inr ⟨⟨before, rest, rfl, ?_⟩, hlater call (by simp)⟩
      intro c hc
      exact hlater c (by simp [hc])
  · rintro (rfl | ⟨⟨before, later, rfl, hlater⟩, hcall⟩)
    · exact ⟨calls, [], rfl, by simp⟩
    · refine ⟨before, later ++ [call], by simp, ?_⟩
      intro c hc
      obtain hc | hc := List.mem_append.mp hc
      · exact hlater c hc
      · obtain rfl := List.mem_singleton.mp hc
        exact hcall

theorem after_append_single : q.after (calls ++ [call]) = ((q.after calls).run call).2 := by
  simp [Queues.after]

-- ---------------------------------------------------------------------------
-- What is held under an identity
-- ---------------------------------------------------------------------------

theorem get?_box_run (id : CorrelationId) :
    ((q.run call).2.outbox.box session).get? id = some m ↔
      (call = .save session m ∧ m.correlationId = id) ∨
        ((q.outbox.box session).get? id = some m ∧ ¬ call.Settles session id) := by
  cases call with
  | save s n =>
    by_cases hs : s = session
    · subst hs
      by_cases hid : id = n.correlationId
      · subst hid
        simp only [Queues.run, box_save, if_true, Table.get?_insert, Option.some.injEq,
          QueueCall.save.injEq, true_and, QueueCall.Settles, and_self, not_true_eq_false, and_false,
          or_false]
        constructor
        · rintro rfl
          exact ⟨rfl, rfl⟩
        · rintro ⟨rfl, -⟩
          rfl
      · have hne : ¬ (n = m ∧ m.correlationId = id) := by
          rintro ⟨rfl, rfl⟩
          exact hid rfl
        simp [Queues.run, Table.get?_insert, hid, QueueCall.Settles, Ne.symm hid, hne]
    · simp [Queues.run, QueueCall.Settles, hs, Ne.symm hs]
  | delete s n =>
    by_cases hs : s = session
    · subst hs
      by_cases hid : n.correlationId = id
      · simp [Queues.run, Table.get?_erase, QueueCall.Settles, hid]
      · simp [Queues.run, Table.get?_erase, QueueCall.Settles, hid, Ne.symm hid]
    · simp [Queues.run, QueueCall.Settles, hs, Ne.symm hs]
  | clear s =>
    by_cases hs : s = session
    · simp [Queues.run, QueueCall.Settles, hs]
    · simp [Queues.run, QueueCall.Settles, hs, Ne.symm hs]
  | fetchAll | push | pop | count => simp [Queues.run, QueueCall.Settles]

/-- By induction on the calls from their end: the last one settles what is held, or leaves it. -/
theorem get?_box_after (id : CorrelationId) :
    ((Queues.empty.after calls).outbox.box session).get? id = some m ↔
      m.correlationId = id ∧ LastSaved calls session m := by
  induction calls using List.reverseRecOn with
  | nil =>
    have hnone : ((Queues.empty.after []).outbox.box session).get? id = none := rfl
    simp [hnone, not_lastSaved_nil]
  | append_singleton calls call ih =>
    rw [after_append_single, get?_box_run, ih, lastSaved_append_single]
    constructor
    · rintro (⟨hcall, hid⟩ | ⟨⟨hid, hsaved⟩, hleft⟩)
      · exact ⟨hid, .inl hcall⟩
      · exact ⟨hid, .inr ⟨hsaved, hid ▸ hleft⟩⟩
    · rintro ⟨hid, hcall | ⟨hsaved, hleft⟩⟩
      · exact .inl ⟨hcall, hid⟩
      · exact .inr ⟨⟨hid, hsaved⟩, hid ▸ hleft⟩

theorem keyed_after : ((Queues.empty.after calls).outbox.box session).Keyed := by
  intro id m h
  exact ((get?_box_after id).mp h).1

theorem mem_values_after :
    m ∈ ((Queues.empty.after calls).outbox.box session).values ↔ LastSaved calls session m := by
  simp [Table.mem_values_iff, get?_box_after]

-- ---------------------------------------------------------------------------
-- Which sessions are kept
-- ---------------------------------------------------------------------------

/-- No session is kept with nothing in its box. -/
def NoneBare (o : Outbox) : Prop :=
  ∀ session b, o.stored? session = some b → b.isEmpty = false

theorem NoneBare.run (h : NoneBare q.outbox) (call : QueueCall) :
    NoneBare (q.run call).2.outbox := by
  intro session b hb
  cases call with
  | save s n =>
    by_cases hs : session = s
    · simp only [Queues.run, stored?_save, hs, if_true, Option.some.injEq] at hb
      subst hb
      simp [Table.isEmpty, Table.insert]
    · exact h session b (by simpa [Queues.run, hs] using hb)
  | delete s n =>
    by_cases hs : session = s
    · simp only [Queues.run, stored?_delete, hs, if_true, Option.filter_eq_some_iff] at hb
      simpa using hb.2
    · exact h session b (by simpa [Queues.run, hs] using hb)
  | clear s =>
    by_cases hs : session = s
    · simp [Queues.run, hs] at hb
    · exact h session b (by simpa [Queues.run, hs] using hb)
  | fetchAll | push | pop | count => exact h session b hb

theorem noneBare_after : NoneBare (Queues.empty.after calls).outbox := by
  induction calls using List.reverseRecOn with
  | nil =>
    intro session b hb
    cases hb
  | append_singleton calls call ih =>
    rw [after_append_single]
    exact ih.run call

theorem mem_keys_after :
    session ∈ (Queues.empty.after calls).outbox.sessions.keys ↔ ∃ m, LastSaved calls session m := by
  rw [Table.mem_keys_iff]
  constructor
  · rintro ⟨b, hb⟩
    have hbox : (Queues.empty.after calls).outbox.box session = b := by simp [box, hb]
    obtain ⟨m, hm⟩ := Table.exists_mem_values (noneBare_after session b hb)
    exact ⟨m, mem_values_after.mp (hbox ▸ hm)⟩
  · rintro ⟨m, hm⟩
    cases hb : (Queues.empty.after calls).outbox.sessions.get? session with
    | some b => exact ⟨b, rfl⟩
    | none =>
      have hbox : (Queues.empty.after calls).outbox.box session = .empty := by simp [box, hb]
      have := mem_values_after.mpr hm
      simp [hbox, Table.values, Table.empty] at this

-- ---------------------------------------------------------------------------
-- Calls again, and calls in another order
-- ---------------------------------------------------------------------------

theorem delete_delete (o : Outbox) {n : ChatMessage} (h : n.correlationId = m.correlationId) :
    (o.delete session m).delete session n = o.delete session m := by
  cases hb : o.sessions.get? session with
  | none => simp [delete, hb]
  | some b =>
    by_cases hbare : (b.erase m.correlationId).isEmpty
    · simp [delete, hb, hbare, Table.get?_erase]
    · simp [delete, hb, hbare, Table.get?_insert, h]

theorem clear_clear (o : Outbox) : (o.clear session).clear session = o.clear session := by
  simp [clear]

theorem stored?_run_of_ne (h : call.session? ≠ some session) :
    (q.run call).2.outbox.stored? session = q.outbox.stored? session :=
  q.stored?_answer_of_ne none h

/-- Of two calls of different sessions, neither sees or changes what the other is about. -/
theorem run_run_of_ne {c d : QueueCall} {other : SessionId} (hc : c.session? = some session)
    (hd : d.session? = some other) (h : session ≠ other) :
    ((q.run d).2.run c).1 = (q.run c).1 ∧
      ∀ s, ((q.run d).2.run c).2.outbox.stored? s = ((q.run c).2.run d).2.outbox.stored? s := by
  have hleft (q : Queues) : (q.run d).2.outbox.stored? session = q.outbox.stored? session :=
    stored?_run_of_ne (by simp [hd, Ne.symm h])
  have hleft' (q : Queues) : (q.run c).2.outbox.stored? other = q.outbox.stored? other :=
    stored?_run_of_ne (by simp [hc, h])
  have hsame := Queues.answer_congr none hc (hleft q)
  have hsame' := Queues.answer_congr none hd (hleft' q)
  refine ⟨Except.ok.inj hsame.1, ?_⟩
  intro s
  by_cases hs : s = session
  · subst hs
    rw [hleft]
    exact hsame.2
  · by_cases ho : s = other
    · subst ho
      rw [hleft']
      exact hsame'.2.symm
    · have hc' : c.session? ≠ some s := by simp [hc, Ne.symm hs]
      have hd' : d.session? ≠ some s := by simp [hd, Ne.symm ho]
      rw [stored?_run_of_ne hc', stored?_run_of_ne hd', stored?_run_of_ne hd',
        stored?_run_of_ne hc']

/-- After any calls, a snapshot of a session has the messages saved last, one for each identity, in
whatever order it comes. Every message is kept under its own identity, the sessions kept are those
that hold one, and deleting and clearing again does nothing. Calls of different sessions get the
same answers in either order, and the same is held after both. -/
theorem held (calls : List QueueCall) :
    (∀ session (order : Option (List ChatMessage)), ∃ ms,
      ((Queues.empty.after calls).answer (order.map .arranging) (.fetchAll session)).1 =
        .ok (.messages ms) ∧
      (ms.map ChatMessage.correlationId).Nodup ∧ ∀ m, m ∈ ms ↔ LastSaved calls session m) ∧
    (∀ session b, (Queues.empty.after calls).outbox.stored? session = some b →
      b.Keyed ∧ b.isEmpty = false) ∧
    (∀ session, session ∈ (Queues.empty.after calls).outbox.sessions.keys ↔
      ∃ m, LastSaved calls session m) ∧
    ((Queues.empty.after calls).outbox.sessions.isEmpty = true ↔
      ∀ session m, ¬ LastSaved calls session m) ∧
    (∀ (q : Queues) session,
      (∀ m n, n.correlationId = m.correlationId →
        (q.run (.delete session m)).2.run (.delete session n) = q.run (.delete session m)) ∧
      (q.run (.clear session)).2.run (.clear session) = q.run (.clear session)) ∧
    ∀ (q : Queues) c d s t, c.session? = some s → d.session? = some t → s ≠ t →
      ((q.run d).2.run c).1 = (q.run c).1 ∧
      ∀ u, ((q.run d).2.run c).2.outbox.stored? u = ((q.run c).2.run d).2.outbox.stored? u := by
  refine ⟨?_, ?_, fun session => mem_keys_after, ?_, ?_, ?_⟩
  · intro session order
    obtain ⟨ms, hms⟩ : ∃ ms, ((Queues.empty.after calls).answer (order.map .arranging)
        (.fetchAll session)).1 = .ok (.messages ms) := by
      cases order <;> exact ⟨_, rfl⟩
    have hperm : ms.Perm ((Queues.empty.after calls).outbox.box session).values :=
      Queues.found_perm _ _ hms
    refine ⟨ms, hms, (hperm.map _).nodup_iff.mpr keyed_after.nodup_ids, ?_⟩
    intro m
    exact hperm.mem_iff.trans mem_values_after
  · intro session b hb
    have hbox : (Queues.empty.after calls).outbox.box session = b := by simp [box_eq, hb]
    exact ⟨hbox ▸ keyed_after, noneBare_after session b hb⟩
  · rw [Table.isEmpty_iff]
    simp only [mem_keys_after, not_exists]
  · intro q session
    constructor
    · intro m n h
      simp [Queues.run, delete_delete _ h]
    · simp [Queues.run, clear_clear]
  · intro q c d s t hc hd h
    exact run_run_of_ne hc hd h

/-- One identity is saved under twice and by two sessions, another one is deleted. -/
def rewritten : List QueueCall :=
  [.save ⟨"desk"⟩ ⟨⟨"a"⟩, "one"⟩, .save ⟨"hall"⟩ ⟨⟨"a"⟩, "other"⟩, .save ⟨"desk"⟩ ⟨⟨"b"⟩, "gone"⟩,
    .fetchAll ⟨"desk"⟩, .save ⟨"desk"⟩ ⟨⟨"a"⟩, "two"⟩, .delete ⟨"desk"⟩ ⟨⟨"b"⟩, "any"⟩]

theorem held_rewritten :
    (∃ ms, ((Queues.empty.after rewritten).answer none (.fetchAll ⟨"desk"⟩)).1 =
        .ok (.messages ms) ∧ ⟨⟨"a"⟩, "two"⟩ ∈ ms ∧ ⟨⟨"a"⟩, "one"⟩ ∉ ms) ∧
    ⟨"desk"⟩ ∈ (Queues.empty.after rewritten).outbox.sessions.keys ∧
    (((Queues.empty.after rewritten).run (.delete ⟨"desk"⟩ ⟨⟨"a"⟩, "any"⟩)).2.run
        (.delete ⟨"desk"⟩ ⟨⟨"a"⟩, "two"⟩)) =
      (Queues.empty.after rewritten).run (.delete ⟨"desk"⟩ ⟨⟨"a"⟩, "any"⟩) ∧
    (((Queues.empty.after rewritten).run (.clear ⟨"hall"⟩)).2.run (.fetchAll ⟨"desk"⟩)).1 =
      ((Queues.empty.after rewritten).run (.fetchAll ⟨"desk"⟩)).1 := by
  obtain ⟨hfetch, -, hkeys, -, hagain, hturned⟩ := held rewritten
  have hsaved : LastSaved rewritten ⟨"desk"⟩ ⟨⟨"a"⟩, "two"⟩ :=
    ⟨rewritten.take 4, rewritten.drop 5, rfl, by decide⟩
  obtain ⟨ms, hms, hnodup, hmem⟩ := hfetch ⟨"desk"⟩ none
  have htwo := (hmem _).mpr hsaved
  refine ⟨⟨ms, hms, htwo, ?_⟩, (hkeys _).mpr ⟨_, hsaved⟩, (hagain _ _).1 _ _ rfl,
    (hturned _ _ _ _ _ rfl rfl (by decide)).1⟩
  intro hone
  have hsame := List.inj_on_of_nodup_map hnodup hone htwo rfl
  simp at hsame

end Outbox

end NoteRelay
