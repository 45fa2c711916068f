import NoteRelay.Proofs.Chat.Delivery

/-!
# Rounds of the delivery

The delivery works in rounds: it takes a snapshot and sends all of it before it takes the next one.
While no call fails and no identity is used twice, a snapshot brings exactly what has been saved and
not been sent (`InRounds`), so a save waits for the rest of one round and is sent in the next.

* `saved_in_turn`: what was saved before a snapshot goes out before what was saved behind it, in
  whatever order snapshots come, and this bounds the frames that a save waits for.

Nothing is said of the order within a round.
-/

namespace NoteRelay.Chat

def Deed.isSnapshot : Deed → Bool
  | .called (.fetchAll _) (.ok _) => true
  | _ => false

/-- What is left to send when a deed is done. -/
def Deed.leave (left : List ChatMessage) : Deed → List ChatMessage
  | .called (.fetchAll _) (.ok a) => a.found
  | .sent .delivery (some m) _ => left.erase m
  | _ => left

/-- What the latest snapshot has brought and no frame was sent for. -/
def unsent (past : List Deed) : List ChatMessage :=
  past.foldl Deed.leave []

def abouts (past : List Deed) : List (Option ChatMessage) :=
  (deliveries past).map Prod.fst

/-- A snapshot is taken when the one before has been sent, and brings what was saved and not sent. A
frame is for the first message that is left. -/
structure InRounds (past : List Deed) (d : Deed) : Prop where
  snapshot : ∀ id a, d = .called (.fetchAll id) (.ok a) →
    unsent past = [] ∧ ∀ m, m ∈ a.found ↔ m ∈ saves past ∧ some m ∉ abouts past
  frame : ∀ about frame, d = .sent .delivery about frame →
    ∃ m rest, about = some m ∧ unsent past = m :: rest

@[simp] theorem unsent_append_single (past : List Deed) (d : Deed) :
    unsent (past ++ [d]) = d.leave (unsent past) := by
  simp [unsent]

@[simp] theorem abouts_append (past new : List Deed) :
    abouts (past ++ new) = abouts past ++ abouts new := by
  rw [abouts, deliveries_append, List.map_append]
  rfl

theorem saves_append (past new : List Deed) : saves (past ++ new) = saves past ++ saves new :=
  List.filterMap_append

-- ---------------------------------------------------------------------------
-- Snapshots under identities that are used once
-- ---------------------------------------------------------------------------

section
variable {p : Policy} {id : SessionId} {now : Nat} {loop : Loop} {past new : List Deed}
  {s t : Session} {b : Outbox.Box} {m : ChatMessage}

theorem Account.mem_abouts (h : Account p past s b) :
    some m ∈ abouts past ↔ ∃ e ∈ (ledger past).answered, e.message = m := by
  rw [abouts, h.deliveries_eq, List.map_map]
  simp

theorem Account.mem_found_iff (h : Account p past s b) (hr : Reckoning past s b)
    (hq : Unfailing past) (hids : ((saves past).map ChatMessage.correlationId).Nodup)
    {i : Intake} {d : Delivery} (hs : s.Runs i d) (hstage : d.stage = .fetching)
    {a : QueueAnswer} (hfound : a.found.Perm b.values) :
    m ∈ a.found ↔ m ∈ saves past ∧ some m ∉ abouts past := by
  have hb := h.booksAt hs hstage
  have hkeys := key_inj_of_nodup hids
  rw [saves_eq, h.mem_abouts]
  constructor
  · intro hm
    obtain ⟨hget, e, he, rfl⟩ := hb.latest_of_found hfound hm
    have hsaved := (mem_of_latest he).1
    refine ⟨List.mem_map_of_mem hsaved, ?_⟩
    rintro ⟨f, hf, hfe⟩
    -- What is in the box has been sent only as often as its deletion failed.
    obtain rfl := hkeys f (h.sound.saved_of_answered f hf) e hsaved
      (congrArg ChatMessage.correlationId hfe)
    have hcount := hb.box_le f hget he (by simp [List.map_eq_nil_iff.mp hb.held_eq])
    rw [failed_of_unfailing hq, List.count_nil, Nat.le_zero, List.count_eq_zero] at hcount
    exact hcount hf
  · rintro ⟨hm, hno⟩
    obtain ⟨e, he, rfl⟩ := List.mem_map.mp hm
    obtain ⟨hlatest, hlate⟩ := h.sound.latest_of_nodup hids he
    obtain hans | hget := (hr.faithful i d hs.1).answered_or_waiting _ e hlatest hlate
    · exact absurd ⟨e, hans, rfl⟩ hno
    · exact hfound.mem_iff.mpr (Table.mem_values_iff.mpr ⟨_, hget⟩)

-- ---------------------------------------------------------------------------
-- Along a run
-- ---------------------------------------------------------------------------

/-- How far a session is in its round, and that it has come there by rounds. -/
structure Rounds (past : List Deed) (s : Session) : Prop where
  unsent_eq : ∀ i d, s.phase = .running i d → unsent past = d.stage.unsent
  lawful : Unfailing past → ((saves past).map ChatMessage.correlationId).Nodup →
    Lawful InRounds past

theorem Rounds.start (p : Policy) (inbound : Channel Item) (outbound : Channel Response)
    (isCancelled : Bool) (now : Nat) :
    Rounds [] (.started p inbound outbound isCancelled now) where
  unsent_eq := by
    rintro i d ⟨⟩
    rfl
  lawful := fun _ _ => lawful_nil

theorem Rounds.outside (h : Rounds past s) (hphase : t.phase = s.phase) : Rounds past t :=
  ⟨hphase ▸ h.unsent_eq, h.lawful⟩

theorem Turn.of_snapshot (h : Turn p id now loop s new t) {id' : SessionId} {a : QueueAnswer}
    (ha : .called (.fetchAll id') (.ok a) ∈ new) :
    id' = id ∧ ∃ i d, s.Runs i d ∧ d.stage = .fetching := by
  cases h with
  | fetched hs hstage | foundNothing hs hstage | finished hs hstage =>
    simp only [List.mem_singleton, Deed.called.injEq, QueueCall.fetchAll.injEq] at ha
    exact ⟨ha.1, _, _, hs, hstage⟩
  | _ => simp at ha

theorem Rounds.unsent_at (h : Rounds past s) {i : Intake} {d : Delivery} {stage : Stage}
    (hs : s.Runs i d) (hstage : d.stage = stage) : unsent past = stage.unsent :=
  hstage ▸ h.unsent_eq i d hs.1

theorem Rounds.unsent_eq_turn (h : Rounds past s) (hturn : Turn p id now loop s new t)
    {i : Intake} {d : Delivery} (ht : t.phase = .running i d) :
    unsent (past ++ new) = d.stage.unsent := by
  cases hturn with
  | read hs | saved hs | refused hs =>
    cases ht
    simpa [Deed.leave] using h.unsent_eq _ _ hs.1
  | fetched hs hstage hf | foundNothing hs hstage hf =>
    cases ht
    rw [unsent_append_single]
    exact hf
  | rested hs hstage | paced hs hstage =>
    cases ht
    rw [List.append_nil]
    exact (h.unsent_at hs hstage).trans rfl
  | delivered hs hstage =>
    cases ht
    rw [unsent_append_single, h.unsent_at hs hstage]
    exact List.erase_cons_head _ _
  | settled hs hstage =>
    cases ht
    rw [unsent_append_single]
    exact (h.unsent_at hs hstage).trans (Stage.unsent_ofSnapshot _).symm
  | cancelled | broken | unsaved | unheard | finished | unfetched | cleared =>
    simp [Session.finished] at ht

theorem Rounds.turn (h : Rounds past s) (haccount : Account p past s b)
    (hreckoning : Unfailing past → Reckoning past s b) (hturn : Turn p id now loop s new t)
    (hfound : ∀ a, .called (.fetchAll id) (.ok a) ∈ new → a.found.Perm b.values) :
    Rounds (past ++ new) t where
  unsent_eq := fun _ _ ht => h.unsent_eq_turn hturn ht
  lawful := by
    intro hq hids
    rw [saves_append, List.map_append] at hids
    replace hids := hids.of_append_left
    obtain rfl | ⟨d, rfl, hno⟩ | ⟨i, d, m, others, hs, hstage, rfl⟩ := hturn.news
    · simpa using h.lawful hq.left hids
    · refine lawful_append_single.mpr ⟨h.lawful hq.left hids, ?_,
        fun about frame hd => absurd hd (hno about frame)⟩
      rintro id' a rfl
      obtain ⟨rfl, i, d, hs, hstage⟩ := hturn.of_snapshot (List.mem_singleton.mpr rfl)
      refine ⟨h.unsent_at hs hstage, fun m => ?_⟩
      exact haccount.mem_found_iff (hreckoning hq.left) hq.left hids hs hstage
        (hfound a (List.mem_singleton.mpr rfl))
    · refine lawful_append_single.mpr ⟨h.lawful hq.left hids, by simp, ?_⟩
      rintro _ _ ⟨⟩
      exact ⟨m, others, rfl, h.unsent_at hs hstage⟩

end

-- ---------------------------------------------------------------------------
-- From round to round
-- ---------------------------------------------------------------------------

section
variable {past before after new : List Deed} {d : Deed} {m : ChatMessage} {id : SessionId}
  {x : QueueAnswer} {frame : Response}

theorem exists_of_isSnapshot (h : d.isSnapshot = true) :
    ∃ id a, d = .called (.fetchAll id) (.ok a) := by
  unfold Deed.isSnapshot at h
  split at h
  · exact ⟨_, _, rfl⟩
  · simp at h

theorem Deed.cases_leave (d : Deed) :
    (∃ id a, d = .called (.fetchAll id) (.ok a)) ∨
      (∃ about frame, d = .sent .delivery about frame) ∨
      abouts [d] = [] ∧ ∀ left, d.leave left = left := by
  cases d with
  | called call answer => cases call <;> cases answer <;> simp [leave, abouts, deliveries]
  | sent loop about frame => cases loop <;> simp [leave, abouts, deliveries]

/-- Up to the next snapshot, what a deed has left is sent in its order. -/
theorem leave_eq_append (hlaw : Lawful InRounds (past ++ d :: new))
    (hnew : ∀ e ∈ new, e.isSnapshot = false) :
    (d.leave (unsent past)).map some = abouts new ++ (unsent (past ++ d :: new)).map some := by
  induction new using List.reverseRecOn with
  | nil => simp [abouts, deliveries]
  | append_singleton new e ih =>
    rw [← List.cons_append, ← List.append_assoc] at hlaw ⊢
    obtain ⟨hold, he⟩ := lawful_append_single.mp hlaw
    rw [ih hold fun e he => hnew e (List.mem_append_left _ he), unsent_append_single, abouts_append]
    obtain ⟨id, a, rfl⟩ | ⟨about, frame, rfl⟩ | ⟨habout, hleave⟩ := e.cases_leave
    · simpa [Deed.isSnapshot] using hnew (.called (.fetchAll id) (.ok a)) (by simp)
    · obtain ⟨m, rest, rfl, hunsent⟩ := he.frame about frame rfl
      simp [hunsent, Deed.leave, abouts, deliveries]
    · rw [hleave, habout, List.append_nil]

theorem length_leave (hlaw : Lawful InRounds (past ++ d :: new))
    (hnew : ∀ e ∈ new, e.isSnapshot = false) :
    (d.leave (unsent past)).length =
      (deliveries new).length + (unsent (past ++ d :: new)).length := by
  simpa [abouts] using congrArg List.length (leave_eq_append hlaw hnew)

theorem InRounds.unsent_subset (hd : InRounds past d) (hsnapshot : d.isSnapshot = false) :
    unsent (past ++ [d]) ⊆ unsent past := by
  rw [unsent_append_single]
  obtain ⟨id, a, rfl⟩ | ⟨about, frame, rfl⟩ | ⟨-, hleave⟩ := d.cases_leave
  · simp [Deed.isSnapshot] at hsnapshot
  · obtain ⟨m, rest, rfl, -⟩ := hd.frame about frame rfl
    exact List.erase_subset
  · rw [hleave]
    exact List.Subset.refl _

theorem saved_of_unsent (hlaw : Lawful InRounds past) (hm : m ∈ unsent past) :
    m ∈ saves past := by
  induction past using List.reverseRecOn with
  | nil => simp [unsent] at hm
  | append_singleton past d ih =>
    obtain ⟨hold, hd⟩ := lawful_append_single.mp hlaw
    rw [saves_append]
    refine List.mem_append_left _ ?_
    cases hsnapshot : d.isSnapshot with
    | false => exact ih hold (hd.unsent_subset hsnapshot hm)
    | true =>
      obtain ⟨id, a, rfl⟩ := exists_of_isSnapshot hsnapshot
      rw [unsent_append_single] at hm
      exact (((hd.snapshot id a rfl).2 m).mp hm).1

theorem InRounds.taken (hd : InRounds past (.called (.fetchAll id) (.ok x))) (hm : m ∈ saves past) :
    some m ∈ abouts past ∨ m ∈ x.found :=
  or_iff_not_imp_left.mpr fun hno => ((hd.snapshot id x rfl).2 m).mpr ⟨hm, hno⟩

/-- A snapshot that has brought a message is not done with before the message is sent. -/
theorem InRounds.kept (hd : InRounds past d) (hm : m ∈ saves past)
    (h : some m ∈ abouts past ∨ m ∈ unsent past) :
    some m ∈ abouts (past ++ [d]) ∨ m ∈ unsent (past ++ [d]) := by
  rw [abouts_append, unsent_append_single, List.mem_append]
  obtain ⟨id, a, rfl⟩ | ⟨about, frame, rfl⟩ | ⟨-, hleave⟩ := d.cases_leave
  · exact (hd.taken hm).imp_left .inl
  · obtain ⟨m', rest, rfl, hunsent⟩ := hd.frame about frame rfl
    obtain h | h := h
    · exact .inl (.inl h)
    · rw [hunsent, List.mem_cons] at h
      obtain rfl | h := h
      · exact .inl (.inr (by simp [abouts, deliveries]))
      · exact .inr (by simpa [Deed.leave, hunsent] using h)
  · rw [hleave]
    exact h.imp_left .inl

theorem sent_or_unsent (hm : m ∈ saves before)
    (hlaw : Lawful InRounds (before ++ .called (.fetchAll id) (.ok x) :: after)) :
    some m ∈ abouts (before ++ .called (.fetchAll id) (.ok x) :: after) ∨
      m ∈ unsent (before ++ .called (.fetchAll id) (.ok x) :: after) := by
  induction after using List.reverseRecOn with
  | nil =>
    obtain ⟨-, hd⟩ := lawful_append_single.mp hlaw
    rw [abouts_append, unsent_append_single, List.mem_append]
    exact (hd.taken hm).imp_left .inl
  | append_singleton after d ih =>
    rw [← List.cons_append, ← List.append_assoc] at hlaw ⊢
    obtain ⟨hold, hd⟩ := lawful_append_single.mp hlaw
    refine hd.kept ?_ (ih hold)
    rw [saves_append]
    exact List.mem_append_left _ hm

/-- A message comes with the first snapshot behind its save, and with no other. -/
theorem InRounds.first (hd : InRounds (past ++ new) (.called (.fetchAll id) (.ok x)))
    (hlaw : Lawful InRounds (past ++ new)) (hsaved : m ∈ saves past) (hm : m ∈ x.found) :
    ∀ e ∈ new, e.isSnapshot = false := by
  intro e he
  by_contra hsnapshot
  obtain ⟨id', a, rfl⟩ := exists_of_isSnapshot (Bool.of_not_eq_false hsnapshot)
  obtain ⟨b, c, rfl⟩ := List.append_of_mem he
  obtain ⟨hunsent, hfound⟩ := hd.snapshot id x rfl
  rw [← List.append_assoc] at hlaw hunsent hfound
  have hb : m ∈ saves (past ++ b) := by
    rw [saves_append]
    exact List.mem_append_left _ hsaved
  obtain hsent | hleft := sent_or_unsent hb hlaw
  · exact ((hfound m).mp hm).2 hsent
  · rw [hunsent] at hleft
    cases hleft

/-- What waits to be sent was saved in the round before. -/
theorem exists_round
    (hlaw : Lawful InRounds (before ++ .called (.save id m) (.ok x) :: after))
    (hno : m ∉ saves before)
    (hm : m ∈ unsent (before ++ .called (.save id m) (.ok x) :: after)) :
    ∃ first id' y second, after = first ++ .called (.fetchAll id') (.ok y) :: second ∧
      (∀ d ∈ first, d.isSnapshot = false) ∧ (∀ d ∈ second, d.isSnapshot = false) ∧
      unsent (before ++ .called (.save id m) (.ok x) :: first) = [] := by
  induction after using List.reverseRecOn with
  | nil =>
    obtain ⟨hold, -⟩ := lawful_append_single.mp hlaw
    rw [unsent_append_single] at hm
    exact absurd (saved_of_unsent hold hm) hno
  | append_singleton after d ih =>
    rw [← List.cons_append, ← List.append_assoc] at hlaw hm
    obtain ⟨hold, hd⟩ := lawful_append_single.mp hlaw
    cases hsnapshot : d.isSnapshot with
    | false =>
      obtain ⟨first, id', y, second, rfl, hfirst, hsecond, hunsent⟩ :=
        ih hold (hd.unsent_subset hsnapshot hm)
      refine ⟨first, id', y, second ++ [d], by simp, hfirst, ?_, hunsent⟩
      simpa [or_imp, forall_and, hsnapshot] using hsecond
    | true =>
      obtain ⟨id', y, rfl⟩ := exists_of_isSnapshot hsnapshot
      rw [unsent_append_single] at hm
      refine ⟨after, id', y, [], rfl, ?_, by simp, (hd.snapshot id' y rfl).1⟩
      rw [List.append_cons] at hd hold
      refine hd.first hold ?_ hm
      simp [saves]

theorem unsent_of_sent
    (hlaw : Lawful InRounds (before ++ .sent .delivery (some m) frame :: after)) :
    m ∈ unsent before := by
  obtain ⟨m', rest, hm, hunsent⟩ := (hlaw before _ after rfl).frame _ frame rfl
  obtain rfl := Option.some.inj hm
  simp [hunsent]

theorem not_saved_before (hids : ((saves past).map ChatMessage.correlationId).Nodup)
    (hsave : past = before ++ .called (.save id m) (.ok x) :: after) : m ∉ saves before := by
  intro hm
  subst hsave
  rw [saves_append, List.map_append, List.nodup_append] at hids
  exact hids.2.2 _ (List.mem_map_of_mem hm) _ (by simp [saves]) rfl

theorem exists_behind_save (hids : ((saves past).map ChatMessage.correlationId).Nodup)
    (hlaw : Lawful InRounds past) (hsave : past = before ++ .called (.save id m) (.ok x) :: after)
    {earlier later : List Deed}
    (hsent : past = earlier ++ .sent .delivery (some m) frame :: later) :
    ∃ between, earlier = before ++ .called (.save id m) (.ok x) :: between := by
  have hm : m ∈ saves earlier := by
    subst hsent
    exact saved_of_unsent hlaw.left (unsent_of_sent hlaw)
  obtain ⟨c, rfl, -⟩ | ⟨c, rfl, hc⟩ := List.append_eq_append_iff.mp (hsent.symm.trans hsave)
  · refine absurd ?_ (not_saved_before hids hsave)
    rw [saves_append]
    exact List.mem_append_left _ hm
  · cases c with
    | nil => simp at hc
    | cons d between =>
      obtain rfl : .called (.save id m) (.ok x) = d := (List.cons.inj hc).1
      exact ⟨between, rfl⟩

/-- What was saved before a snapshot is sent before what was saved behind it. -/
theorem sent_before (hids : ((saves past).map ChatMessage.correlationId).Nodup)
    (hlaw : Lawful InRounds past) {a c d e f : List Deed} {m' : ChatMessage} {id' : SessionId}
    {x' : QueueAnswer} (hm : m ∈ saves a)
    (hsave : past = (a ++ .called (.fetchAll id) (.ok x) :: c) ++
      .called (.save id' m') (.ok x') :: d)
    (hsent : past = e ++ .sent .delivery (some m') frame :: f) : some m ∈ abouts e := by
  obtain ⟨between, rfl⟩ := exists_behind_save hids hlaw hsave hsent
  rw [hsent] at hlaw
  obtain ⟨first, id'', y, second, rfl, -, -, hunsent⟩ :=
    exists_round hlaw.left (not_saved_before hids hsave) (unsent_of_sent hlaw)
  -- The round that the later message waits out has had the earlier one.
  have hearlier := hlaw.left
  rw [← List.cons_append, ← List.append_assoc] at hearlier ⊢
  rw [abouts_append]
  refine List.mem_append_left _ ?_
  replace hearlier := hearlier.left
  rw [List.append_assoc, List.cons_append] at hearlier hunsent ⊢
  obtain h | h := sent_or_unsent hm hearlier
  · exact h
  · rw [hunsent] at h
    cases h

/-- A save waits for what was left to send, and then for what comes with it. -/
theorem length_deliveries_lt
    (hlaw : Lawful InRounds (before ++ .called (.save id m) (.ok x) ::
      (new ++ .sent .delivery (some m) frame :: after)))
    (hno : m ∉ saves before) :
    ∃ first id' y second, new = first ++ .called (.fetchAll id') (.ok y) :: second ∧
      (∀ d ∈ first, d.isSnapshot = false) ∧
      (deliveries new).length < (unsent before).length + y.found.length := by
  rw [← List.cons_append, ← List.append_assoc] at hlaw
  have hm := unsent_of_sent hlaw
  obtain ⟨first, id', y, second, rfl, hfirst, hsecond, hunsent⟩ := exists_round hlaw.left hno hm
  refine ⟨first, id', y, second, rfl, hfirst, ?_⟩
  have hrest := hlaw.left
  rw [← List.cons_append, ← List.append_assoc] at hrest hm
  have hone := length_leave hrest.left hfirst
  have htwo := length_leave hrest hsecond
  rw [hunsent] at hone
  simp only [Deed.leave, List.length_nil, Nat.add_zero] at hone htwo
  have hpos := List.length_pos_of_mem hm
  rw [deliveries_append, List.length_append, ← hone, htwo]
  exact Nat.add_lt_add_left (Nat.lt_add_of_pos_right hpos) _

end

end NoteRelay.Chat

namespace NoteRelay.Relay

open Chat

section
variable {u : Setup} {moves : List Move} {w : Relay} {id : SessionId} {s : Session}

theorem rounds (hrun : (started u).run u moves = some w) (hs : w.chats.get? id = some s) :
    Rounds (chatPast u moves id) s := by
  refine (chat_induction (Q := fun past s b => Account u.chat past s b ∧
    (Unfailing past → Reckoning past s b) ∧ Rounds past s) ?_ ?_ ?_ hrun hs).2.2
  · intro inbound outbound isCancelled now
    exact ⟨.start _ _ _ _ _, fun _ => .start u.chat _ _ _ now, .start u.chat _ _ _ now⟩
  · rintro past s t b ⟨haccount, hreckoning, h⟩ hchange
    exact ⟨haccount.outside hchange.phase, fun hq => (hreckoning hq).outside hchange.phase,
      h.outside hchange.phase⟩
  · rintro past s t b now loop new ⟨haccount, hreckoning, h⟩ hturn hfound
    exact ⟨haccount.turn hturn hfound,
      fun hq => (hreckoning hq.left).turn haccount hturn hfound hq,
      h.turn haccount hreckoning hturn hfound⟩

/-- Nothing is passed over for long. While no call fails and no identity is used twice, what was
saved before a snapshot is sent before anything that was saved behind it, in whatever order
snapshots come. So the frames between a save and its own frame are fewer than what was left to send
at the save and what the next snapshot brings together, whatever the intake saves meanwhile. -/
theorem saved_in_turn (hrun : (started u).run u moves = some w) (hs : w.chats.get? id = some s)
    (hq : Unfailing (chatPast u moves id))
    (hids : ((saves (chatPast u moves id)).map ChatMessage.correlationId).Nodup) :
    (∀ a m₁ x₁ b y c m₂ x₂ d e frame f,
      chatPast u moves id = a ++ .called (.save id m₁) (.ok x₁) ::
        (b ++ .called (.fetchAll id) (.ok y) :: (c ++ .called (.save id m₂) (.ok x₂) :: d)) →
      chatPast u moves id = e ++ .sent .delivery (some m₂) frame :: f →
      ∃ frame₁, (some m₁, frame₁) ∈ deliveries e) ∧
    ∀ before m x between frame after,
      chatPast u moves id = before ++ .called (.save id m) (.ok x) ::
        (between ++ .sent .delivery (some m) frame :: after) →
      ∃ first id' y second, between = first ++ .called (.fetchAll id') (.ok y) :: second ∧
        (∀ d ∈ first, d.isSnapshot = false) ∧
        (deliveries between).length + 1 ≤ (unsent before).length + y.found.length := by
  have hlaw := (rounds hrun hs).lawful hq hids
  constructor
  · intro a m₁ x₁ b y c m₂ x₂ d e frame f hsaves hsent
    have hsave : chatPast u moves id = (a ++ .called (.save id m₁) (.ok x₁) :: b ++
        .called (.fetchAll id) (.ok y) :: c) ++ .called (.save id m₂) (.ok x₂) :: d := by
      simp [hsaves]
    have hearlier := sent_before hids hlaw (m := m₁) (by simp [saves]) hsave hsent
    obtain ⟨⟨about, frame₁⟩, hmem, rfl⟩ := List.mem_map.mp hearlier
    exact ⟨frame₁, hmem⟩
  · intro before m x between frame after hsplit
    exact length_deliveries_lt (hsplit ▸ hlaw) (not_saved_before hids hsplit)

theorem saved_in_turn_twoKeys :
    ∃ before x between frame after,
      chatPast brisk twoKeys desk = before ++ .called (.save desk ⟨⟨"b"⟩, "two"⟩) (.ok x) ::
        (between ++ .sent .delivery (some ⟨⟨"b"⟩, "two"⟩) frame :: after) ∧
      (∃ frame₁, (some ⟨⟨"a"⟩, "one"⟩, frame₁) ∈
        deliveries (before ++ .called (.save desk ⟨⟨"b"⟩, "two"⟩) (.ok x) :: between)) ∧
      ∃ first id y second, between = first ++ .called (.fetchAll id) (.ok y) :: second ∧
        (deliveries between).length + 1 ≤ (unsent before).length + y.found.length := by
  have hend : chatOutcome? brisk twoKeys desk = some (.ok ()) := by decide +kernel
  have hq : Unfailing (chatPast brisk twoKeys desk) := by decide +kernel
  have hids : ((saves (chatPast brisk twoKeys desk)).map ChatMessage.correlationId).Nodup := by
    decide +kernel
  obtain ⟨w, s, hrun, hs, -⟩ := exists_of_chatOutcome? hend
  obtain ⟨hturn, hbound⟩ := saved_in_turn hrun hs hq hids
  have hpast : chatPast brisk twoKeys desk =
      [.called (.save desk ⟨⟨"a"⟩, "one"⟩) (.ok .done),
        .called (.fetchAll desk) (.ok (.messages [⟨⟨"a"⟩, "one"⟩]))] ++
      .called (.save desk ⟨⟨"b"⟩, "two"⟩) (.ok .done) ::
        ([.sent .delivery (some ⟨⟨"a"⟩, "one"⟩) (.message ⟨"a", "processed: one"⟩),
          .called (.delete desk ⟨⟨"a"⟩, "one"⟩) (.ok .done),
          .called (.fetchAll desk) (.ok (.messages [⟨⟨"b"⟩, "two"⟩]))] ++
        .sent .delivery (some ⟨⟨"b"⟩, "two"⟩) (.message ⟨"b", "processed: two"⟩) ::
          [.called (.delete desk ⟨⟨"b"⟩, "two"⟩) (.ok .done),
            .called (.fetchAll desk) (.ok (.messages [])), .called (.clear desk) (.ok .done)]) := by
    with_unfolding_all rfl
  refine ⟨_, _, _, _, _, hpast, ?_, ?_⟩
  · exact hturn [] _ _ [] _ [] _ _ _ _ _ _ hpast hpast
  · obtain ⟨first, id, y, second, hbetween, -, hle⟩ := hbound _ _ _ _ _ _ hpast
    exact ⟨first, id, y, second, hbetween, hle⟩

end

end NoteRelay.Relay
