import NoteRelay.Proofs.Chat.Turn

/-!
# The ledger of a session

The past of a session, read as an account of its saves: which were answered, which could not be
deleted, and which came in under an identity that the delivery was busy with. Saves are told apart
by a number of their own, so that saving the same message twice makes two entries.

`Ledger.Sound` is what the account satisfies in every run, `Books` how it agrees with the stage of
the delivery and the box of the session as long as the loops run. Both hold whatever calls fail, and
in whatever order snapshots come.
-/

namespace NoteRelay.Chat

/-- One save: the message, and which save under its identity it was. -/
structure Entry where
  message : ChatMessage
  number : Nat
  deriving DecidableEq

abbrev Entry.key (e : Entry) : CorrelationId :=
  e.message.correlationId

def under (k : CorrelationId) (es : List Entry) : List Entry :=
  es.filter fun e => e.key = k

def latest (k : CorrelationId) (es : List Entry) : Option Entry :=
  (under k es).getLast?

def next (es : List Entry) (m : ChatMessage) : Entry :=
  ⟨m, (under m.correlationId es).length + 1⟩

structure Ledger where
  saved : List Entry := []
  /-- What the latest snapshot brought and the delivery is not done with. -/
  held : List Entry := []
  /-- What a frame was sent for, once for each frame. -/
  answered : List Entry := []
  /-- What could not be deleted, once for each attempt. -/
  failed : List Entry := []
  /-- What was saved under an identity that was held. -/
  late : List Entry := []

namespace Ledger

/-- The entry that a message of the snapshot stands for. -/
def entryFor (l : Ledger) (m : ChatMessage) : Option Entry :=
  l.held.find? fun e => e.key = m.correlationId

def after (l : Ledger) : Deed → Ledger
  | .called (.save _ m) (.ok _) =>
    { l with
      saved := l.saved ++ [next l.saved m]
      late := if m.correlationId ∈ l.held.map Entry.key then l.late ++ [next l.saved m]
        else l.late }
  | .called (.fetchAll _) (.ok a) =>
    { l with held := a.found.filterMap fun m => latest m.correlationId l.saved }
  | .called (.delete _ m) answer =>
    { l with
      held := l.held.filter fun e => e.key ≠ m.correlationId
      failed := match answer with
        | .ok _ => l.failed
        | .error _ => l.failed ++ (l.entryFor m).toList }
  | .sent .delivery (some m) _ => { l with answered := l.answered ++ (l.entryFor m).toList }
  | _ => l

end Ledger

def ledger (past : List Deed) : Ledger :=
  past.foldl Ledger.after {}

@[simp] theorem ledger_nil : ledger [] = {} := rfl

@[simp] theorem ledger_append_single (past : List Deed) (d : Deed) :
    ledger (past ++ [d]) = (ledger past).after d := by
  simp [ledger]

-- ---------------------------------------------------------------------------
-- Entries under one identity
-- ---------------------------------------------------------------------------

theorem under_append_single (k : CorrelationId) (es : List Entry) (e : Entry) :
    under k (es ++ [e]) = if e.key = k then under k es ++ [e] else under k es := by
  by_cases h : e.key = k <;> simp [under, List.filter_append, h]

theorem mem_under {k : CorrelationId} {es : List Entry} {e : Entry} :
    e ∈ under k es ↔ e ∈ es ∧ e.key = k := by
  simp [under]

theorem latest_append_single (k : CorrelationId) (es : List Entry) (e : Entry) :
    latest k (es ++ [e]) = if e.key = k then some e else latest k es := by
  unfold latest
  rw [under_append_single]
  split <;> simp

theorem latest_append_next (k : CorrelationId) (es : List Entry) (m : ChatMessage) :
    latest k (es ++ [next es m]) = if m.correlationId = k then some (next es m) else latest k es :=
  latest_append_single k es _

theorem mem_of_latest {k : CorrelationId} {es : List Entry} {e : Entry}
    (h : latest k es = some e) : e ∈ es ∧ e.key = k :=
  mem_under.mp (List.mem_of_getLast? h)

theorem latest_isSome {es : List Entry} {e : Entry} (h : e ∈ es) :
    ∃ e', latest e.key es = some e' := by
  have hne : under e.key es ≠ [] := List.ne_nil_of_mem (mem_under.mpr ⟨h, rfl⟩)
  exact ⟨_, List.getLast?_eq_some_getLast hne⟩

theorem exists_latest {k : CorrelationId} {es : List Entry} {m : ChatMessage}
    (h : ((es.map Entry.message).filter fun m => m.correlationId = k).getLast? = some m) :
    ∃ e, latest k es = some e ∧ e.message = m := by
  rw [List.filter_map, List.getLast?_map, Option.map_eq_some_iff] at h
  exact h

theorem messages_of_latest {es : List Entry} {ms : List ChatMessage}
    (h : ∀ m ∈ ms, ∃ e, latest m.correlationId es = some e ∧ e.message = m) :
    (ms.filterMap fun m => latest m.correlationId es).map Entry.message = ms := by
  induction ms with
  | nil => rfl
  | cons m ms ih =>
    obtain ⟨e, he, hem⟩ := h m (by simp)
    rw [List.filterMap_cons, he, List.map_cons, hem, ih fun m' hm' => h m' (by simp [hm'])]

-- ---------------------------------------------------------------------------
-- What the ledger satisfies by itself
-- ---------------------------------------------------------------------------

structure Ledger.Sound (l : Ledger) : Prop where
  nodup_saved : l.saved.Nodup
  numbered : ∀ e ∈ l.saved, e.number ≤ (under e.key l.saved).length
  saved_of_answered : ∀ e ∈ l.answered, e ∈ l.saved
  answered_of_failed : ∀ e ∈ l.failed, e ∈ l.answered
  saved_of_late : ∀ e ∈ l.late, e ∈ l.saved
  /-- Nothing comes late but behind another save of its identity. -/
  earlier_of_late : ∀ e ∈ l.late, ∃ h ∈ l.saved, h ≠ e ∧ h.key = e.key
  /-- What is answered again was not deleted. -/
  count_answered : ∀ e, l.answered.count e ≤ l.failed.count e + 1

theorem Ledger.Sound.next_not_mem {l : Ledger} (hl : l.Sound) (m : ChatMessage) :
    next l.saved m ∉ l.saved := by
  intro h
  exact Nat.not_succ_le_self _ (hl.numbered _ h)

/-- What the delivery is not done with. -/
def Stage.held : Stage → List ChatMessage
  | pacing m others => m :: others
  | sending m others => m :: others
  | settling m others => m :: others
  | _ => []

theorem Stage.held_ofSnapshot (others : List ChatMessage) : (ofSnapshot others).held = others := by
  cases others <;> rfl

/-- What the delivery has not sent yet, of what is held. -/
def Stage.due (held : List Entry) : Stage → List Entry
  | settling _ _ => held.tail
  | _ => held

theorem Stage.due_of_ne_settling {stage : Stage} (h : ∀ m others, stage ≠ .settling m others)
    (held : List Entry) : stage.due held = held := by
  cases stage with
  | settling m others => exact absurd rfl (h m others)
  | _ => rfl

theorem Stage.ofSnapshot_ne_settling (others : List ChatMessage) :
    ∀ m rest, ofSnapshot others ≠ .settling m rest := by
  cases others <;> simp [ofSnapshot]

/-- How the ledger agrees with a delivery and with the box of the session. -/
structure Books (l : Ledger) (stage : Stage) (b : Outbox.Box) : Prop where
  /-- The box has the latest save of an identity, if it has any. -/
  latest_of_box : ∀ k m, b.get? k = some m → ∃ e, latest k l.saved = some e ∧ e.message = m
  held_eq : l.held.map Entry.message = stage.held
  saved_of_held : ∀ e ∈ l.held, e ∈ l.saved
  nodup_held : (l.held.map Entry.key).Nodup
  /-- What is to be sent has been sent only as often as it could not be deleted. -/
  due_le : ∀ e ∈ stage.due l.held, l.answered.count e ≤ l.failed.count e
  box_le : ∀ e, b.get? e.key = some e.message → latest e.key l.saved = some e →
    e ∉ l.held → l.answered.count e ≤ l.failed.count e
  answered_of_settling : ∀ m others, stage = .settling m others →
    ∀ e ∈ l.held.head?, e ∈ l.answered

-- ---------------------------------------------------------------------------
-- A message is saved
-- ---------------------------------------------------------------------------

section
variable {l : Ledger} {stage : Stage} {b : Outbox.Box} {id : SessionId} {m : ChatMessage}
  {a : QueueAnswer}

theorem Ledger.Sound.save (hl : l.Sound) (held : ∀ e ∈ l.held, e ∈ l.saved) :
    (l.after (.called (.save id m) (.ok a))).Sound where
  nodup_saved := by
    refine List.nodup_append.mpr ⟨hl.nodup_saved, by simp, ?_⟩
    rintro e he _ hm rfl
    obtain rfl := List.mem_singleton.mp hm
    exact hl.next_not_mem m he
  numbered := by
    intro e he
    simp only [after, List.mem_append, List.mem_singleton] at he ⊢
    rw [under_append_single]
    obtain he | rfl := he
    · have := hl.numbered e he
      split
      · rw [List.length_append]; omega
      · exact this
    · simp [next]
  saved_of_answered := fun e he => List.mem_append_left _ (hl.saved_of_answered e he)
  answered_of_failed := hl.answered_of_failed
  saved_of_late := by
    intro e he
    simp only [after, List.mem_append, List.mem_singleton] at he ⊢
    split at he
    · obtain he | rfl := List.mem_append.mp he |>.imp_right List.mem_singleton.mp
      · exact .inl (hl.saved_of_late e he)
      · exact .inr rfl
    · exact .inl (hl.saved_of_late e he)
  earlier_of_late := by
    intro e he
    simp only [after, List.mem_append, List.mem_singleton] at he ⊢
    have hold : e ∈ l.late → ∃ h, (h ∈ l.saved ∨ h = next l.saved m) ∧ h ≠ e ∧ h.key = e.key := by
      intro he
      obtain ⟨h, hs, hne, hk⟩ := hl.earlier_of_late e he
      exact ⟨h, .inl hs, hne, hk⟩
    split at he
    · rename_i hm
      obtain he | rfl := List.mem_append.mp he |>.imp_right List.mem_singleton.mp
      · exact hold he
      · -- The held entry is the earlier one.
        obtain ⟨h, hh, hk⟩ := List.mem_map.mp hm
        refine ⟨h, .inl (held h hh), ?_, hk⟩
        rintro rfl
        exact hl.next_not_mem m (held _ hh)
    · exact hold he
  count_answered := hl.count_answered

theorem Books.save (hb : Books l stage b) (hl : l.Sound) :
    Books (l.after (.called (.save id m) (.ok a))) stage (b.insert m.correlationId m) where
  latest_of_box := by
    intro k m' hm
    rw [Table.get?_insert] at hm
    show ∃ e, latest k (l.saved ++ [next l.saved m]) = some e ∧ _
    rw [latest_append_next]
    by_cases hk : k = m.correlationId
    · subst hk
      simp only [if_true, Option.some.injEq] at hm
      subst hm
      exact ⟨_, if_pos rfl, rfl⟩
    · rw [if_neg hk] at hm
      rw [if_neg (Ne.symm hk)]
      exact hb.latest_of_box k m' hm
  held_eq := hb.held_eq
  saved_of_held := fun e he => List.mem_append_left _ (hb.saved_of_held e he)
  nodup_held := hb.nodup_held
  due_le := hb.due_le
  box_le := by
    intro e hm hlatest hheld
    rw [Table.get?_insert] at hm
    change latest e.key (l.saved ++ [next l.saved m]) = some e at hlatest
    rw [latest_append_next] at hlatest
    split at hlatest
    · -- Nothing was sent yet for the new entry.
      obtain rfl := Option.some.inj hlatest
      have : next l.saved m ∉ l.answered := fun h =>
        hl.next_not_mem m (hl.saved_of_answered _ h)
      show l.answered.count _ ≤ _
      rw [List.count_eq_zero_of_not_mem this]
      exact Nat.zero_le _
    · rename_i hk
      rw [if_neg (Ne.symm hk)] at hm
      exact hb.box_le e hm hlatest hheld
  answered_of_settling := hb.answered_of_settling

-- ---------------------------------------------------------------------------
-- A snapshot is taken
-- ---------------------------------------------------------------------------

theorem Ledger.Sound.fetch (hl : l.Sound) : (l.after (.called (.fetchAll id) (.ok a))).Sound :=
  ⟨hl.nodup_saved, hl.numbered, hl.saved_of_answered, hl.answered_of_failed, hl.saved_of_late,
    hl.earlier_of_late, hl.count_answered⟩

theorem Books.keyed (hb : Books l stage b) : b.Keyed := by
  intro k m hm
  obtain ⟨e, he, rfl⟩ := hb.latest_of_box k m hm
  exact (mem_of_latest he).2

theorem Books.latest_of_found (hb : Books l stage b) (hfound : a.found.Perm b.values)
    (hm : m ∈ a.found) :
    b.get? m.correlationId = some m ∧ ∃ e, latest m.correlationId l.saved = some e ∧ e.message = m := by
  obtain ⟨k, hk⟩ := Table.mem_values_iff.mp (hfound.mem_iff.mp hm)
  obtain rfl := hb.keyed k m hk
  exact ⟨hk, hb.latest_of_box _ m hk⟩

theorem Books.latest_of_held_after_fetch (hb : Books l stage b) (hfound : a.found.Perm b.values) :
    ∀ e ∈ (l.after (.called (.fetchAll id) (.ok a))).held,
      latest e.key l.saved = some e ∧ b.get? e.key = some e.message := by
  intro e he
  obtain ⟨m, hm, he⟩ := List.mem_filterMap.mp he
  obtain ⟨hget, e', he', rfl⟩ := hb.latest_of_found hfound hm
  obtain rfl := Option.some.inj (he'.symm.trans he)
  exact ⟨he, hget⟩

/-- Fetching happens when the delivery is done with the snapshot before. -/
theorem Books.fetch (hb : Books l .fetching b) (hfound : a.found.Perm b.values) {onward : Stage}
    (hheld : onward.held = a.found) (hidle : ∀ m others, onward ≠ .settling m others) :
    Books (l.after (.called (.fetchAll id) (.ok a))) onward b := by
  have hnone : l.held = [] := List.map_eq_nil_iff.mp hb.held_eq
  have hentries : (a.found.filterMap fun m => latest m.correlationId l.saved).map Entry.message =
      a.found := messages_of_latest fun m hm => (hb.latest_of_found hfound hm).2
  have hmem : ∀ e ∈ (l.after (.called (.fetchAll id) (.ok a))).held,
      latest e.key l.saved = some e ∧ b.get? e.key = some e.message :=
    hb.latest_of_held_after_fetch hfound
  exact {
    latest_of_box := hb.latest_of_box
    held_eq := hentries.trans hheld.symm
    saved_of_held := fun e he => (mem_of_latest (hmem e he).1).1
    nodup_held := by
      have : (l.after (.called (.fetchAll id) (.ok a))).held.map Entry.key =
          a.found.map ChatMessage.correlationId := by
        rw [← hentries, List.map_map]
        rfl
      rw [this]
      exact (hfound.map _).nodup_iff.mpr hb.keyed.nodup_ids
    due_le := by
      intro e he
      rw [Stage.due_of_ne_settling hidle] at he
      exact hb.box_le e (hmem e he).2 (hmem e he).1 (by simp [hnone])
    box_le := by
      intro e hget hlatest _
      exact hb.box_le e hget hlatest (by simp [hnone])
    answered_of_settling := fun m others h => absurd h (hidle m others) }

theorem Books.restage (hb : Books l stage b) {onward : Stage} (hheld : onward.held = stage.held)
    (hdue : onward.due l.held = stage.due l.held)
    (hidle : ∀ m others, onward ≠ .settling m others) : Books l onward b where
  latest_of_box := hb.latest_of_box
  held_eq := hb.held_eq.trans hheld.symm
  saved_of_held := hb.saved_of_held
  nodup_held := hb.nodup_held
  due_le := hdue ▸ hb.due_le
  box_le := hb.box_le
  answered_of_settling := fun m others h => absurd h (hidle m others)

-- ---------------------------------------------------------------------------
-- A frame is sent
-- ---------------------------------------------------------------------------

/-- The message at the head of the snapshot stands for the entry at the head of what is held. -/
theorem Books.head (hb : Books l stage b) {others : List ChatMessage}
    (hstage : stage.held = m :: others) :
    ∃ e rest, l.held = e :: rest ∧ e.message = m ∧ rest.map Entry.message = others ∧
      l.entryFor m = some e := by
  obtain ⟨e, rest, hheld, rfl, hrest⟩ := List.map_eq_cons_iff.mp (hb.held_eq.trans hstage)
  exact ⟨e, rest, hheld, rfl, hrest, by simp [Ledger.entryFor, hheld]⟩

/-- The rest of what is held is under other identities than the head. -/
theorem Books.key_ne_head (hb : Books l stage b) {e f : Entry} {rest : List Entry}
    (hheld : l.held = e :: rest) (hf : f ∈ rest) : f.key ≠ e.key := by
  have hn := hb.nodup_held
  rw [hheld, List.map_cons, List.nodup_cons] at hn
  intro hk
  exact hn.1 (hk ▸ List.mem_map_of_mem hf)

theorem Books.ne_head (hb : Books l stage b) {e f : Entry} {rest : List Entry}
    (hheld : l.held = e :: rest) (hf : f ∈ rest) : f ≠ e := by
  rintro rfl
  exact hb.key_ne_head hheld hf rfl

section
variable {others : List ChatMessage} {frame : Response}

theorem after_sent {e : Entry} (he : l.entryFor m = some e) :
    l.after (.sent .delivery (some m) frame) = { l with answered := l.answered ++ [e] } := by
  simp [Ledger.after, he]

theorem Ledger.Sound.send (hl : l.Sound) (hb : Books l (.sending m others) b) :
    (l.after (.sent .delivery (some m) frame)).Sound := by
  obtain ⟨e, rest, hheld, -, -, he⟩ := hb.head rfl
  rw [after_sent he]
  have hmem : e ∈ l.held := by simp [hheld]
  exact {
    nodup_saved := hl.nodup_saved
    numbered := hl.numbered
    saved_of_answered := by
      intro f hf
      obtain hf | rfl := List.mem_append.mp hf |>.imp_right List.mem_singleton.mp
      · exact hl.saved_of_answered f hf
      · exact hb.saved_of_held f hmem
    answered_of_failed := fun f hf => List.mem_append_left _ (hl.answered_of_failed f hf)
    saved_of_late := hl.saved_of_late
    earlier_of_late := hl.earlier_of_late
    count_answered := by
      intro f
      rw [List.count_append, List.count_singleton]
      by_cases hf : e = f
      · subst hf
        simpa using hb.due_le e hmem
      · simpa [hf] using hl.count_answered f }

theorem Books.send (hb : Books l (.sending m others) b) :
    Books (l.after (.sent .delivery (some m) frame)) (.settling m others) b := by
  obtain ⟨e, rest, hheld, -, -, he⟩ := hb.head rfl
  rw [after_sent he]
  have hmem : e ∈ l.held := by simp [hheld]
  have hcount : ∀ f, f ≠ e → (l.answered ++ [e]).count f = l.answered.count f := by
    intro f hf
    simp [List.count_append, Ne.symm hf]
  exact {
    latest_of_box := hb.latest_of_box
    held_eq := hb.held_eq
    saved_of_held := hb.saved_of_held
    nodup_held := hb.nodup_held
    due_le := by
      intro f hf
      replace hf : f ∈ rest := by simpa [Stage.due, hheld] using hf
      rw [hcount f (hb.ne_head hheld hf)]
      exact hb.due_le f (by simp [Stage.due, hheld, hf])
    box_le := by
      intro f hget hlatest hf
      rw [hcount f fun h => hf (h ▸ hmem)]
      exact hb.box_le f hget hlatest hf
    answered_of_settling := by
      rintro _ _ ⟨⟩ f hf
      obtain rfl : e = f := by simpa [hheld] using hf
      simp }

-- ---------------------------------------------------------------------------
-- A message is deleted, or not
-- ---------------------------------------------------------------------------

theorem Ledger.Sound.settle {answer : Except QueueFault QueueAnswer} (hl : l.Sound)
    (hb : Books l (.settling m others) b) : (l.after (.called (.delete id m) answer)).Sound := by
  obtain ⟨e, rest, hheld, hm, -, he⟩ := hb.head rfl
  have hanswered : e ∈ l.answered := hb.answered_of_settling m others rfl e (by simp [hheld])
  cases answer with
  | ok a =>
    exact ⟨hl.nodup_saved, hl.numbered, hl.saved_of_answered, hl.answered_of_failed,
      hl.saved_of_late, hl.earlier_of_late, hl.count_answered⟩
  | error fault =>
    exact {
      nodup_saved := hl.nodup_saved
      numbered := hl.numbered
      saved_of_answered := hl.saved_of_answered
      answered_of_failed := by
        intro f hf
        simp only [Ledger.after, he, Option.toList_some, List.mem_append, List.mem_singleton] at hf
        obtain hf | rfl := hf
        · exact hl.answered_of_failed f hf
        · exact hanswered
      saved_of_late := hl.saved_of_late
      earlier_of_late := hl.earlier_of_late
      count_answered := by
        intro f
        have := hl.count_answered f
        simp only [Ledger.after, List.count_append]
        omega }

/-- The delivery is done with the head of what is held, and with no other. -/
theorem Books.held_after_delete {answer : Except QueueFault QueueAnswer} (hb : Books l stage b)
    {e : Entry} {rest : List Entry} (hheld : l.held = e :: rest) (hm : e.message = m) :
    (l.after (.called (.delete id m) answer)).held = rest := by
  subst hm
  show l.held.filter _ = rest
  rw [hheld, List.filter_cons_of_neg (by simp), List.filter_eq_self.mpr]
  intro f hf
  simpa using hb.key_ne_head hheld hf

theorem count_failed_le_after {answer : Except QueueFault QueueAnswer} (e : Entry) :
    l.failed.count e ≤ (l.after (.called (.delete id m) answer)).failed.count e := by
  cases answer with
  | ok a => exact Nat.le_refl _
  | error fault => simp [Ledger.after, List.count_append]

theorem get?_of_after_delete {answer : Except QueueFault QueueAnswer} {k : CorrelationId}
    {m' : ChatMessage} (h : (b.after (.delete id m) answer).get? k = some m') :
    b.get? k = some m' := by
  cases answer with
  | ok a =>
    simp only [Outbox.Box.after, Table.get?_erase] at h
    split at h
    · simp at h
    · exact h
  | error fault => exact h

theorem Books.settle {answer : Except QueueFault QueueAnswer} (hl : l.Sound)
    (hb : Books l (.settling m others) b) {onward : Stage} (hto : onward.held = others)
    (hidle : ∀ m others, onward ≠ .settling m others) :
    Books (l.after (.called (.delete id m) answer)) onward (b.after (.delete id m) answer) := by
  obtain ⟨e, rest, hheld, hm, hrest, he⟩ := hb.head rfl
  have hheld' : (l.after (.called (.delete id m) answer)).held = rest :=
    hb.held_after_delete hheld hm
  have hmem : e ∈ l.held := by simp [hheld]
  have hsub : ∀ f ∈ rest, f ∈ l.held := fun f hf => by simp [hheld, hf]
  exact {
    latest_of_box := fun k m' hk => hb.latest_of_box k m' (get?_of_after_delete hk)
    held_eq := by rw [hheld', hrest, hto]
    saved_of_held := fun f hf => hb.saved_of_held f (hsub f (hheld' ▸ hf))
    nodup_held := by
      have := hb.nodup_held
      rw [hheld, List.map_cons, List.nodup_cons] at this
      rw [hheld']
      exact this.2
    due_le := by
      intro f hf
      rw [Stage.due_of_ne_settling hidle, hheld'] at hf
      exact Nat.le_trans (hb.due_le f (by simp [Stage.due, hheld, hf])) (count_failed_le_after f)
    box_le := by
      intro f hget hlatest hf
      rw [hheld'] at hf
      by_cases hfe : f = e
      · -- What is still in the box behind its deletion could not be deleted.
        subst hfe
        cases answer with
        | ok a => simp [Outbox.Box.after, Table.get?_erase, ← hm] at hget
        | error fault =>
          have := hl.count_answered f
          simp only [Ledger.after, he, Option.toList_some, List.count_append,
            List.count_singleton_self]
          exact this
      · have hold : f ∉ l.held := by simpa [hheld, hfe] using hf
        exact Nat.le_trans (hb.box_le f (get?_of_after_delete hget) hlatest hold)
          (count_failed_le_after f)
    answered_of_settling := fun m others h => absurd h (hidle m others) }

end

end

end NoteRelay.Chat
