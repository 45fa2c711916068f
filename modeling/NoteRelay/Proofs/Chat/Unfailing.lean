import NoteRelay.Proofs.Chat.Account

/-!
# Sessions whose calls do not fail

`Faithful`: as long as no call of a session fails, a save that did not come late is answered or in
the box, and one that came late is never answered: it leaves the box with the deletion of the entry
that was held. So when the session is done, the latest save of an identity has been answered exactly
if it did not come late (`Reckoning.answered_latest_iff`).
-/

namespace NoteRelay.Chat

def Deed.isFailedCall : Deed → Bool
  | .called _ (.error _) => true
  | _ => false

/-- No queue call of the session failed. -/
def Unfailing (past : List Deed) : Prop :=
  ∀ d ∈ past, d.isFailedCall = false

instance (past : List Deed) : Decidable (Unfailing past) :=
  inferInstanceAs (Decidable (∀ d ∈ past, d.isFailedCall = false))

theorem Unfailing.left {past new : List Deed} (h : Unfailing (past ++ new)) : Unfailing past :=
  fun d hd => h d (List.mem_append_left _ hd)

theorem Unfailing.not_failed {past : List Deed} {call : QueueCall} {fault : QueueFault}
    (h : Unfailing (past ++ [.called call (.error fault)])) : False :=
  Bool.noConfusion (h _ (List.mem_append_right _ (List.mem_singleton.mpr rfl)))

theorem failed_of_unfailing {past : List Deed} (h : Unfailing past) : (ledger past).failed = [] := by
  induction past using List.reverseRecOn with
  | nil => rfl
  | append_singleton past d ih =>
    have := ih h.left
    rw [ledger_append_single]
    cases d with
    | called call answer =>
      cases answer with
      | ok a => cases call <;> exact this
      | error fault => exact h.not_failed.elim
    | sent loop about frame => cases loop <;> cases about <;> exact this

structure Faithful (l : Ledger) (b : Outbox.Box) : Prop where
  late_not_answered : ∀ e ∈ l.late, e ∉ l.answered
  late_not_held : ∀ e ∈ l.late, e ∉ l.held
  /-- What came late is in the box only as long as its identity is held. -/
  held_of_late : ∀ e ∈ l.late, b.get? e.key = some e.message → latest e.key l.saved = some e →
    e.key ∈ l.held.map Entry.key
  answered_or_waiting : ∀ k e, latest k l.saved = some e → e ∉ l.late →
    e ∈ l.answered ∨ b.get? k = some e.message
  /-- What was saved under an identity since it is held came late. -/
  late_of_held : ∀ h ∈ l.held, ∀ e, latest h.key l.saved = some e → e = h ∨ e ∈ l.late

section
variable {l : Ledger} {stage : Stage} {b : Outbox.Box} {id : SessionId} {m : ChatMessage}
  {a : QueueAnswer} {others : List ChatMessage} {frame : Response}

theorem Faithful.save (hf : Faithful l b) (hl : l.Sound) (hb : Books l stage b) :
    Faithful (l.after (.called (.save id m) (.ok a))) (b.insert m.correlationId m) := by
  have hnew : next l.saved m ∉ l.saved := hl.next_not_mem m
  have hlate : ∀ e, e ∈ (l.after (.called (.save id m) (.ok a))).late ↔
      e ∈ l.late ∨ (e = next l.saved m ∧ m.correlationId ∈ l.held.map Entry.key) := by
    intro e
    by_cases hk : m.correlationId ∈ l.held.map Entry.key <;> simp [Ledger.after, hk]
  have hlatest : ∀ k, latest k (l.after (.called (.save id m) (.ok a))).saved =
      if m.correlationId = k then some (next l.saved m) else latest k l.saved :=
    fun k => latest_append_next k l.saved m
  exact {
    late_not_answered := by
      intro e he
      obtain he | ⟨rfl, -⟩ := (hlate e).mp he
      · exact hf.late_not_answered e he
      · exact fun h => hnew (hl.saved_of_answered _ h)
    late_not_held := by
      intro e he
      obtain he | ⟨rfl, -⟩ := (hlate e).mp he
      · exact hf.late_not_held e he
      · exact fun h => hnew (hb.saved_of_held _ h)
    held_of_late := by
      intro e he hget hlast
      rw [hlatest] at hlast
      split at hlast
      · obtain rfl := Option.some.inj hlast
        obtain he | ⟨-, hk⟩ := (hlate _).mp he
        · exact absurd (hl.saved_of_late _ he) hnew
        · exact hk
      · rename_i hk
        rw [Table.get?_insert, if_neg (Ne.symm hk)] at hget
        obtain he | ⟨rfl, -⟩ := (hlate e).mp he
        · exact hf.held_of_late e he hget hlast
        · exact absurd rfl hk
    answered_or_waiting := by
      intro k e hlast hno
      rw [hlatest] at hlast
      rw [Table.get?_insert]
      split at hlast
      · rename_i hk
        obtain rfl := Option.some.inj hlast
        exact .inr (if_pos hk.symm)
      · rename_i hk
        rw [if_neg (Ne.symm hk)]
        exact hf.answered_or_waiting k e hlast fun h => hno ((hlate e).mpr (.inl h))
    late_of_held := by
      intro h hh e hlast
      rw [hlatest] at hlast
      split at hlast
      · rename_i hk
        obtain rfl := Option.some.inj hlast
        exact .inr ((hlate _).mpr (.inr ⟨rfl, hk ▸ List.mem_map_of_mem hh⟩))
      · exact (hf.late_of_held h hh e hlast).imp_right fun he => (hlate e).mpr (.inl he) }

/-- What comes with a snapshot is the latest of its identity, and did not come late. -/
theorem Faithful.fetch (hf : Faithful l b) (hb : Books l .fetching b)
    (hfound : a.found.Perm b.values) : Faithful (l.after (.called (.fetchAll id) (.ok a))) b := by
  have hnone : l.held = [] := List.map_eq_nil_iff.mp hb.held_eq
  exact {
    late_not_answered := hf.late_not_answered
    late_not_held := by
      intro e he hheld
      obtain ⟨hlast, hget⟩ := hb.latest_of_held_after_fetch hfound e hheld
      have := hf.held_of_late e he hget hlast
      simp [hnone] at this
    held_of_late := by
      intro e he hget hlast
      have := hf.held_of_late e he hget hlast
      simp [hnone] at this
    answered_or_waiting := hf.answered_or_waiting
    late_of_held := by
      intro h hh e hlast
      obtain ⟨hlast', -⟩ := hb.latest_of_held_after_fetch hfound h hh
      exact .inl (Option.some.inj (hlast.symm.trans hlast')) }

theorem Faithful.send (hf : Faithful l b) (hb : Books l (.sending m others) b) :
    Faithful (l.after (.sent .delivery (some m) frame)) b := by
  obtain ⟨e, rest, hheld, -, -, he⟩ := hb.head rfl
  rw [after_sent he]
  exact {
    late_not_answered := by
      intro f hlate hans
      obtain hans | rfl := List.mem_append.mp hans |>.imp_right List.mem_singleton.mp
      · exact hf.late_not_answered f hlate hans
      · exact hf.late_not_held f hlate (by simp [hheld])
    late_not_held := hf.late_not_held
    held_of_late := hf.held_of_late
    answered_or_waiting := by
      intro k f hlast hno
      exact (hf.answered_or_waiting k f hlast hno).imp_left (List.mem_append_left _)
    late_of_held := hf.late_of_held }

/-- With the entry that was held, the box loses whatever has come late under its identity. -/
theorem Faithful.settle (hf : Faithful l b) (hb : Books l (.settling m others) b) :
    Faithful (l.after (.called (.delete id m) (.ok a))) (b.erase m.correlationId) := by
  obtain ⟨e, rest, hheld, rfl, -, -⟩ := hb.head rfl
  have hheld' : (l.after (.called (.delete id e.message) (.ok a))).held = rest :=
    hb.held_after_delete hheld rfl
  have hsub : ∀ f ∈ rest, f ∈ l.held := fun f hf => by simp [hheld, hf]
  exact {
    late_not_answered := hf.late_not_answered
    late_not_held := fun f hlate hh => hf.late_not_held f hlate (hsub f (hheld' ▸ hh))
    held_of_late := by
      intro f hlate hget hlast
      rw [Table.get?_erase] at hget
      split at hget
      · simp at hget
      · rename_i hk
        have := hf.held_of_late f hlate hget hlast
        rw [hheld']
        rw [hheld, List.map_cons, List.mem_cons] at this
        exact this.resolve_left hk
    answered_or_waiting := by
      intro k f hlast hno
      rw [Table.get?_erase]
      split
      · rename_i hk
        subst hk
        left
        obtain rfl | hlate := hf.late_of_held e (by simp [hheld]) f hlast
        · exact hb.answered_of_settling _ _ rfl f (by simp [hheld])
        · exact absurd hlate hno
      · exact hf.answered_or_waiting k f hlast hno
    late_of_held := fun h hh => hf.late_of_held h (hsub h (hheld' ▸ hh)) }

theorem Faithful.answered_latest_iff (hf : Faithful l .empty) {k : CorrelationId} {e : Entry}
    (hlast : latest k l.saved = some e) : e ∈ l.answered ↔ e ∉ l.late := by
  constructor
  · exact fun hans hlate => hf.late_not_answered e hlate hans
  · intro hno
    exact (hf.answered_or_waiting k e hlast hno).resolve_right (by simp)

end

-- ---------------------------------------------------------------------------
-- Along a run
-- ---------------------------------------------------------------------------

/-- What a past without failed calls says of the session that has it, and of its box. -/
structure Reckoning (past : List Deed) (s : Session) (b : Outbox.Box) : Prop where
  faithful : ∀ i d, s.phase = .running i d → Faithful (ledger past) b
  answered_latest_iff : s.IsDone → ∀ k e, latest k (ledger past).saved = some e →
    (e ∈ (ledger past).answered ↔ e ∉ (ledger past).late)

theorem Reckoning.start (p : Policy) (inbound : Channel Item) (outbound : Channel Response)
    (isCancelled : Bool) (now : Nat) :
    Reckoning [] (.started p inbound outbound isCancelled now) .empty where
  faithful := by
    rintro i d -
    constructor <;> simp [latest, under]
  answered_latest_iff := by simp [Session.IsDone, Session.started]

theorem Reckoning.outside {past : List Deed} {s t : Session} {b : Outbox.Box}
    (h : Reckoning past s b) (hphase : t.phase = s.phase) : Reckoning past t b :=
  ⟨hphase ▸ h.faithful, by unfold Session.IsDone; exact hphase ▸ h.answered_latest_iff⟩

theorem Reckoning.of_running {past : List Deed} {t : Session} {b : Outbox.Box} {i : Intake}
    {d : Delivery} (ht : t.phase = .running i d) (h : Faithful (ledger past) b) :
    Reckoning past t b where
  faithful := fun _ _ _ => h
  answered_latest_iff := by simp [Session.IsDone, ht]

theorem Reckoning.of_failure {past : List Deed} {t : Session} {b : Outbox.Box} {f : Failure}
    (ht : t.phase = .closing (.error f)) : Reckoning past t b where
  faithful := by simp [ht]
  answered_latest_iff := by simp [Session.IsDone, ht]

theorem Reckoning.turn {p : Policy} {id : SessionId} {now : Nat} {loop : Loop}
    {past new : List Deed} {s t : Session} {b : Outbox.Box} (h : Reckoning past s b)
    (haccount : Account p past s b) (hturn : Turn p id now loop s new t)
    (hfound : ∀ a, .called (.fetchAll id) (.ok a) ∈ new → a.found.Perm b.values)
    (hq : Unfailing (past ++ new)) : Reckoning (past ++ new) t (new.foldl Deed.box b) := by
  cases hturn with
  | cancelled => exact .of_failure rfl
  | read hs =>
    refine .of_running rfl ?_
    simpa using h.faithful _ _ hs.1
  | broken => exact .of_failure rfl
  | saved hs =>
    refine .of_running rfl ?_
    rw [ledger_append_single]
    exact (h.faithful _ _ hs.1).save haccount.sound (haccount.books _ _ hs.1)
  | unsaved => exact .of_failure rfl
  | refused hs =>
    refine .of_running rfl ?_
    rw [ledger_append_single]
    exact h.faithful _ _ hs.1
  | unheard => exact .of_failure rfl
  | fetched hs hstage =>
    refine .of_running rfl ?_
    rw [ledger_append_single]
    exact (h.faithful _ _ hs.1).fetch (haccount.booksAt hs hstage) (hfound _ (by simp))
  | foundNothing hs hstage =>
    refine .of_running rfl ?_
    rw [ledger_append_single]
    exact (h.faithful _ _ hs.1).fetch (haccount.booksAt hs hstage) (hfound _ (by simp))
  | finished hs hstage hf =>
    refine ⟨by simp, fun _ k e hlast => ?_⟩
    have hvalues := hfound _ (List.mem_singleton.mpr rfl)
    rw [hf] at hvalues
    have hbox : b = .empty := Table.eq_empty_of_values (List.nil_perm.mp hvalues)
    rw [ledger_append_single] at hlast ⊢
    exact (hbox ▸ h.faithful _ _ hs.1).answered_latest_iff hlast
  | unfetched => exact .of_failure rfl
  | rested hs =>
    refine .of_running rfl ?_
    simpa using h.faithful _ _ hs.1
  | paced hs =>
    refine .of_running rfl ?_
    simpa using h.faithful _ _ hs.1
  | delivered hs hstage =>
    refine .of_running rfl ?_
    rw [ledger_append_single]
    exact (h.faithful _ _ hs.1).send (haccount.booksAt hs hstage)
  | @settled _ _ _ _ _ answer hs hstage =>
    refine .of_running rfl ?_
    rw [ledger_append_single]
    cases answer with
    | ok a => exact (h.faithful _ _ hs.1).settle (haccount.booksAt hs hstage)
    | error fault => exact hq.not_failed.elim
  | cleared hs =>
    refine ⟨by simp [Session.finished], fun hdone k e hlast => ?_⟩
    have := h.answered_latest_iff (Session.isDone_of_finished hs hdone) k e
    rw [ledger_append_single] at hlast ⊢
    exact this hlast

end NoteRelay.Chat

namespace NoteRelay.Relay

theorem reckoning {u : Setup} {moves : List Move} {w : Relay} {id : SessionId} {s : Chat.Session}
    (hrun : (started u).run u moves = some w) (hs : w.chats.get? id = some s)
    (hq : Chat.Unfailing (chatPast u moves id)) :
    Chat.Reckoning (chatPast u moves id) s (w.queues.outbox.box id) := by
  refine (chat_induction (Q := fun past s b => Chat.Account u.chat past s b ∧
    (Chat.Unfailing past → Chat.Reckoning past s b)) ?_ ?_ ?_ hrun hs).2 hq
  · intro inbound outbound isCancelled now
    exact ⟨.start _ _ _ _ _, fun _ => .start u.chat _ _ _ now⟩
  · rintro past s t b ⟨haccount, h⟩ hchange
    exact ⟨haccount.outside hchange.phase, fun hq => (h hq).outside hchange.phase⟩
  · rintro past s t b now loop new ⟨haccount, h⟩ hturn hfound
    exact ⟨haccount.turn hturn hfound, fun hq => (h hq.left).turn haccount hturn hfound hq⟩

end NoteRelay.Relay
