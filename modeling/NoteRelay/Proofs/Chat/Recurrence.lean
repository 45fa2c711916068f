import Mathlib.Data.List.Nodup
import NoteRelay.Proofs.Chat.Account

/-!
# What could not be deleted

A message whose deletion fails stays in the outbox, and a later snapshot may bring it again.
`Recurrence` says when that makes the delivery answer a save once more: exactly if a frame is sent
for what could not be deleted (`SendsNoneAgain`), and in a session that ends well exactly if a
snapshot brings such a message (`FindsNoneAgain`).
-/

namespace NoteRelay.Chat

/-- No frame is sent for what could not be deleted. -/
def SendsNoneAgain (past : List Deed) (d : Deed) : Prop :=
  ∀ m frame, d = .sent .delivery (some m) frame →
    ∀ e ∈ (ledger past).entryFor m, e ∉ (ledger past).failed

/-- No snapshot brings what could not be deleted. -/
def FindsNoneAgain (past : List Deed) (d : Deed) : Prop :=
  ∀ id a, d = .called (.fetchAll id) (.ok a) →
    ∀ m ∈ a.found, ∀ e ∈ latest m.correlationId (ledger past).saved, e ∉ (ledger past).failed

section
variable {p : Policy} {id : SessionId} {now : Nat} {loop : Loop} {past new : List Deed}
  {s t : Session} {b : Outbox.Box} {d : Deed}

theorem answered_after (l : Ledger) (h : ∀ about frame, d ≠ .sent .delivery about frame) :
    (l.after d).answered = l.answered := by
  cases d with
  | called call answer => cases call <;> cases answer <;> rfl
  | sent loop about frame =>
    cases loop with
    | delivery => exact absurd rfl (h about frame)
    | _ => rfl

theorem Books.not_answered_iff {l : Ledger} {stage : Stage} {e : Entry} (hb : Books l stage b)
    (hl : l.Sound) (hdue : e ∈ stage.due l.held) : e ∉ l.answered ↔ e ∉ l.failed := by
  constructor
  · exact fun h hfailed => h (hl.answered_of_failed e hfailed)
  · intro h
    have := hb.due_le e hdue
    rw [List.count_eq_zero_of_not_mem h] at this
    exact List.count_eq_zero.mp (Nat.le_zero.mp this)

/-- How often entries are answered, told by what could not be deleted. -/
structure Recurrence (past : List Deed) (s : Session) : Prop where
  nodup_iff : (ledger past).answered.Nodup ↔ Lawful SendsNoneAgain past
  finds_iff : ∀ i d, s.phase = .running i d → (Lawful FindsNoneAgain past ↔
    Lawful SendsNoneAgain past ∧ ∀ e ∈ d.stage.due (ledger past).held, e ∉ (ledger past).failed)
  finds_iff_of_done : s.IsDone → (Lawful FindsNoneAgain past ↔ Lawful SendsNoneAgain past)

theorem sendsNoneAgain_iff {m : ChatMessage} {frame : Response} {e : Entry}
    (he : (ledger past).entryFor m = some e) :
    SendsNoneAgain past (.sent .delivery (some m) frame) ↔ e ∉ (ledger past).failed := by
  constructor
  · exact fun h => h m frame rfl e he
  · rintro h _ _ ⟨⟩ f hf
    obtain rfl := Option.some.inj (he.symm.trans hf)
    exact h

theorem Recurrence.nodup_iff_turn (h : Recurrence past s) (haccount : Account p past s b)
    (hturn : Turn p id now loop s new t) :
    (ledger (past ++ new)).answered.Nodup ↔ Lawful SendsNoneAgain (past ++ new) := by
  obtain rfl | ⟨d, rfl, hno⟩ | ⟨i, d, m, others, hs, hstage, rfl⟩ := hturn.news
  · simpa using h.nodup_iff
  · have hlaw : SendsNoneAgain past d := fun m frame hd => absurd hd (hno _ frame)
    rw [lawful_append_single, ledger_append_single, answered_after _ hno, h.nodup_iff]
    exact ⟨fun hold => ⟨hold, hlaw⟩, And.left⟩
  · have hb := haccount.booksAt hs hstage
    obtain ⟨e, rest, hheld, -, -, he⟩ := hb.head rfl
    have hdue : e ∈ (Stage.sending m others).due (ledger past).held := by simp [Stage.due, hheld]
    rw [lawful_append_single, sendsNoneAgain_iff he, ← hb.not_answered_iff haccount.sound hdue,
      ← h.nodup_iff, ledger_append_single, after_sent he, List.nodup_append]
    simp only [List.nodup_singleton, List.mem_singleton, ne_eq, forall_eq, true_and]
    exact and_congr_right fun _ =>
      ⟨fun hne hmem => hne e hmem rfl, fun hno f hf hfe => hno (hfe ▸ hf)⟩

/-- A deed that is neither a frame of the delivery nor a snapshot is under no law here. -/
theorem laws_append_single (past : List Deed) (d : Deed)
    (hsent : ∀ about frame, d ≠ .sent .delivery about frame)
    (hfound : ∀ id a, d ≠ .called (.fetchAll id) (.ok a)) :
    (Lawful FindsNoneAgain (past ++ [d]) ↔ Lawful FindsNoneAgain past) ∧
      (Lawful SendsNoneAgain (past ++ [d]) ↔ Lawful SendsNoneAgain past) := by
  rw [lawful_append_single, lawful_append_single]
  exact ⟨and_iff_left fun id a hd => absurd hd (hfound id a),
    and_iff_left fun m frame hd => absurd hd (hsent _ frame)⟩

theorem Recurrence.of_running (hnodup : (ledger past).answered.Nodup ↔ Lawful SendsNoneAgain past)
    {i : Intake} {d : Delivery} (ht : t.phase = .running i d)
    (h : Lawful FindsNoneAgain past ↔ Lawful SendsNoneAgain past ∧
      ∀ e ∈ d.stage.due (ledger past).held, e ∉ (ledger past).failed) : Recurrence past t where
  nodup_iff := hnodup
  finds_iff := by
    rintro i' d' ht'
    obtain ⟨rfl, rfl⟩ := Phase.running.inj (ht.symm.trans ht')
    exact h
  finds_iff_of_done := by simp [Session.IsDone, ht]

theorem Recurrence.of_failure (hnodup : (ledger past).answered.Nodup ↔ Lawful SendsNoneAgain past)
    {f : Failure} (ht : t.phase = .closing (.error f)) : Recurrence past t where
  nodup_iff := hnodup
  finds_iff := by simp [ht]
  finds_iff_of_done := by simp [Session.IsDone, ht]

theorem findsNoneAgain_iff {a : QueueAnswer} : FindsNoneAgain past (.called (.fetchAll id) (.ok a)) ↔
    ∀ e ∈ ((ledger past).after (.called (.fetchAll id) (.ok a))).held, e ∉ (ledger past).failed := by
  constructor
  · intro h e he
    obtain ⟨m, hm, he⟩ := List.mem_filterMap.mp he
    exact h id a rfl m hm e he
  · rintro h _ _ ⟨⟩ m hm e he
    exact h e (List.mem_filterMap.mpr ⟨m, hm, he⟩)

theorem mem_failed_after_delete {l : Ledger} {m : ChatMessage} {e f : Entry}
    {answer : Except QueueFault QueueAnswer} (he : l.entryFor m = some e) (hf : f ≠ e) :
    f ∈ (l.after (.called (.delete id m) answer)).failed ↔ f ∈ l.failed := by
  cases answer with
  | ok a => exact Iff.rfl
  | error fault => simp [Ledger.after, he, hf]

theorem Recurrence.finds_iff_at (h : Recurrence past s) {i : Intake} {d : Delivery} {stage : Stage}
    (hs : s.Runs i d) (hstage : d.stage = stage) : Lawful FindsNoneAgain past ↔
      Lawful SendsNoneAgain past ∧ ∀ e ∈ stage.due (ledger past).held, e ∉ (ledger past).failed :=
  hstage ▸ h.finds_iff i d hs.1

theorem Recurrence.finds_iff_of_other (h : Recurrence past s) {i : Intake} {d : Delivery}
    (hs : s.Runs i d) {x : Deed} (hsent : ∀ about frame, x ≠ .sent .delivery about frame)
    (hfound : ∀ id a, x ≠ .called (.fetchAll id) (.ok a))
    (hheld : ((ledger past).after x).held = (ledger past).held)
    (hfailed : ((ledger past).after x).failed = (ledger past).failed) :
    Lawful FindsNoneAgain (past ++ [x]) ↔ Lawful SendsNoneAgain (past ++ [x]) ∧
      ∀ e ∈ d.stage.due ((ledger past).after x).held, e ∉ ((ledger past).after x).failed := by
  obtain ⟨hfinds, hsends⟩ := laws_append_single past x hsent hfound
  rw [hfinds, hsends, hheld, hfailed]
  exact h.finds_iff i d hs.1

/-- A snapshot is what decides whether something is sent again. -/
theorem Recurrence.finds_iff_fetch (h : Recurrence past s) (haccount : Account p past s b)
    {i : Intake} {d : Delivery} (hs : s.Runs i d) (hstage : d.stage = .fetching)
    (a : QueueAnswer) :
    Lawful FindsNoneAgain (past ++ [.called (.fetchAll id) (.ok a)]) ↔
      Lawful SendsNoneAgain (past ++ [.called (.fetchAll id) (.ok a)]) ∧
        ∀ e ∈ ((ledger past).after (.called (.fetchAll id) (.ok a))).held,
          e ∉ (ledger past).failed := by
  have hnone : (ledger past).held = [] :=
    List.map_eq_nil_iff.mp (haccount.booksAt hs hstage).held_eq
  have hsend : SendsNoneAgain past (.called (.fetchAll id) (.ok a)) := by simp [SendsNoneAgain]
  rw [lawful_append_single, lawful_append_single, findsNoneAgain_iff, h.finds_iff_at hs hstage,
    hnone]
  simp [Stage.due, hsend]

/-- The head of what was due is now under the law of what is sent. -/
theorem Recurrence.finds_iff_send (h : Recurrence past s) (haccount : Account p past s b)
    {i : Intake} {d : Delivery} {m : ChatMessage} {others : List ChatMessage} (hs : s.Runs i d)
    (hstage : d.stage = .sending m others) (frame : Response) :
    Lawful FindsNoneAgain (past ++ [.sent .delivery (some m) frame]) ↔
      Lawful SendsNoneAgain (past ++ [.sent .delivery (some m) frame]) ∧
        ∀ e ∈ (Stage.settling m others).due (ledger past).held, e ∉ (ledger past).failed := by
  obtain ⟨e, rest, hheld, -, -, he⟩ := (haccount.booksAt hs hstage).head rfl
  have hf : FindsNoneAgain past (.sent .delivery (some m) frame) := by simp [FindsNoneAgain]
  rw [lawful_append_single, lawful_append_single, h.finds_iff_at hs hstage, sendsNoneAgain_iff he]
  simp only [Stage.due, hheld, List.forall_mem_cons, List.tail_cons]
  constructor
  · rintro ⟨⟨hsends, hhead, hrest⟩, -⟩
    exact ⟨⟨hsends, hhead⟩, hrest⟩
  · rintro ⟨⟨hsends, hhead⟩, hrest⟩
    exact ⟨⟨hsends, hhead, hrest⟩, hf⟩

theorem Recurrence.finds_iff_settle (h : Recurrence past s) (haccount : Account p past s b)
    {i : Intake} {d : Delivery} {m : ChatMessage} {others : List ChatMessage} (hs : s.Runs i d)
    (hstage : d.stage = .settling m others) (answer : Except QueueFault QueueAnswer) :
    Lawful FindsNoneAgain (past ++ [.called (.delete id m) answer]) ↔
      Lawful SendsNoneAgain (past ++ [.called (.delete id m) answer]) ∧
        ∀ e ∈ ((ledger past).after (.called (.delete id m) answer)).held,
          e ∉ ((ledger past).after (.called (.delete id m) answer)).failed := by
  have hb := haccount.booksAt hs hstage
  obtain ⟨e, rest, hheld, hm, -, he⟩ := hb.head rfl
  obtain ⟨hfinds, hsends⟩ := laws_append_single past (.called (.delete id m) answer)
    (by simp) (by simp)
  rw [hfinds, hsends, h.finds_iff_at hs hstage, hb.held_after_delete hheld hm]
  simp only [Stage.due, hheld, List.tail_cons]
  -- The head alone can have failed, and it is not among the rest.
  refine and_congr_right fun _ => forall₂_congr fun f hrest => not_congr ?_
  exact (mem_failed_after_delete he (hb.ne_head hheld hrest)).symm

theorem Recurrence.turn (h : Recurrence past s) (haccount : Account p past s b)
    (hturn : Turn p id now loop s new t) : Recurrence (past ++ new) t := by
  have hnodup := h.nodup_iff_turn haccount hturn
  cases hturn with
  | cancelled => exact .of_failure hnodup rfl
  | read hs =>
    refine .of_running hnodup rfl ?_
    simpa using h.finds_iff _ _ hs.1
  | broken => exact .of_failure hnodup rfl
  | saved hs =>
    refine .of_running hnodup rfl ?_
    rw [ledger_append_single]
    exact h.finds_iff_of_other hs (by simp) (by simp) rfl rfl
  | unsaved => exact .of_failure hnodup rfl
  | refused hs =>
    refine .of_running hnodup rfl ?_
    rw [ledger_append_single]
    exact h.finds_iff_of_other hs (by simp) (by simp) rfl rfl
  | unheard => exact .of_failure hnodup rfl
  | fetched hs hstage =>
    refine .of_running hnodup rfl ?_
    rw [ledger_append_single]
    exact h.finds_iff_fetch haccount hs hstage _
  | foundNothing hs hstage =>
    refine .of_running hnodup rfl ?_
    rw [ledger_append_single]
    exact h.finds_iff_fetch haccount hs hstage _
  | @finished _ _ _ a hs hstage hf =>
    refine ⟨hnodup, by simp, fun _ => (h.finds_iff_fetch haccount hs hstage a).trans ?_⟩
    exact and_iff_left (by simp [Ledger.after, hf])
  | unfetched => exact .of_failure hnodup rfl
  | rested hs hstage =>
    refine .of_running hnodup rfl ?_
    simpa [Stage.due] using h.finds_iff_at hs hstage
  | paced hs hstage =>
    refine .of_running hnodup rfl ?_
    simpa [Stage.due] using h.finds_iff_at hs hstage
  | delivered hs hstage =>
    refine .of_running hnodup rfl ?_
    obtain ⟨e, -, -, -, -, he⟩ := (haccount.booksAt hs hstage).head rfl
    rw [ledger_append_single, after_sent he]
    exact h.finds_iff_send haccount hs hstage _
  | @settled _ _ _ m others answer hs hstage =>
    refine .of_running hnodup rfl ?_
    rw [ledger_append_single]
    show _ ↔ _ ∧ ∀ f ∈ (Stage.ofSnapshot others).due _, _
    rw [Stage.due_of_ne_settling (Stage.ofSnapshot_ne_settling others)]
    exact h.finds_iff_settle haccount hs hstage answer
  | @cleared _ result answer hs =>
    refine ⟨hnodup, by simp [Session.finished], fun hdone => ?_⟩
    obtain ⟨hfinds, hsends⟩ := laws_append_single past (.called (.clear id) answer)
      (by simp) (by simp)
    rw [hfinds, hsends]
    exact h.finds_iff_of_done (Session.isDone_of_finished hs hdone)

theorem Recurrence.start (p : Policy) (inbound : Channel Item) (outbound : Channel Response)
    (isCancelled : Bool) (now : Nat) :
    Recurrence [] (.started p inbound outbound isCancelled now) where
  nodup_iff := ⟨fun _ => lawful_nil, fun _ => List.nodup_nil⟩
  finds_iff := by
    rintro _ _ ⟨⟩
    exact ⟨fun _ => ⟨lawful_nil, by simp [Delivery.started, Stage.due]⟩, fun _ => lawful_nil⟩
  finds_iff_of_done := fun _ => ⟨fun _ => lawful_nil, fun _ => lawful_nil⟩

theorem Recurrence.outside (h : Recurrence past s) (hphase : t.phase = s.phase) :
    Recurrence past t :=
  ⟨h.nodup_iff, hphase ▸ h.finds_iff, by unfold Session.IsDone; exact hphase ▸ h.finds_iff_of_done⟩

end

end NoteRelay.Chat

namespace NoteRelay.Relay

open Chat

theorem recurrence {u : Setup} {moves : List Move} {w : Relay} {id : SessionId} {s : Session}
    (hrun : (started u).run u moves = some w) (hs : w.chats.get? id = some s) :
    Recurrence (chatPast u moves id) s := by
  refine (chat_induction (Q := fun past s b => Account u.chat past s b ∧ Recurrence past s)
    ?_ ?_ ?_ hrun hs).2
  · exact fun _ _ _ _ => ⟨.start _ _ _ _ _, .start u.chat _ _ _ _⟩
  · rintro past s t b ⟨haccount, h⟩ hchange
    exact ⟨haccount.outside hchange.phase, h.outside hchange.phase⟩
  · rintro past s t b now loop new ⟨haccount, h⟩ hturn hfound
    exact ⟨haccount.turn hturn hfound, h.turn haccount hturn⟩

end NoteRelay.Relay
