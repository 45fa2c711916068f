import Mathlib.Data.List.Perm.Subperm
import NoteRelay.Proofs.Chat.Recurrence
import NoteRelay.Proofs.Chat.Unfailing

/-!
# What the delivery delivers

Every frame of the delivery answers a message that its session saved before, and the frames are told
apart by the saves that they answer.

* While no call fails, no save is answered twice, and a session that ends well has answered all its
  saves, if no identity was used twice (`deliveries_of_unfailing`).
* Of the saves under one identity the latest is answered, unless it came while the delivery was busy
  with an earlier one: then it is never answered (`latest_delivered_iff`).
* A save is answered once more for each deletion that failed, as long as the outbox still has it
  (`answered_once_iff`).
-/

namespace NoteRelay.Chat

/-- A frame of the delivery is about a message that was saved, and is how that is answered. -/
def AnswersSave (p : Policy) (past : List Deed) (d : Deed) : Prop :=
  ∀ about frame, d = .sent .delivery about frame →
    ∃ m ∈ saves past, about = some m ∧ frame = p.render m

section
variable {p : Policy} {id : SessionId} {now : Nat} {loop : Loop} {past new : List Deed}
  {s t : Session} {b : Outbox.Box} {d : Deed}

theorem Account.answersSave_turn (h : Account p past s b)
    (hold : Lawful (AnswersSave p) past) (hturn : Turn p id now loop s new t) :
    Lawful (AnswersSave p) (past ++ new) := by
  obtain rfl | ⟨d, rfl, hno⟩ | ⟨i, d, m, others, hs, hstage, rfl⟩ := hturn.news
  · simpa using hold
  · exact lawful_append_single.mpr ⟨hold, fun about frame hd => absurd hd (hno about frame)⟩
  · refine lawful_append_single.mpr ⟨hold, ?_⟩
    rintro _ _ ⟨⟩
    have hb := h.booksAt hs hstage
    obtain ⟨e, rest, hheld, rfl, -, -⟩ := hb.head rfl
    refine ⟨e.message, ?_, rfl, rfl⟩
    rw [saves_eq]
    exact List.mem_map_of_mem (hb.saved_of_held e (by simp [hheld]))

theorem Account.nodup_answered (h : Account p past s b) (hq : Unfailing past) :
    (ledger past).answered.Nodup := by
  refine List.nodup_iff_count_le_one.mpr fun e => ?_
  have := h.sound.count_answered e
  rwa [failed_of_unfailing hq, List.count_nil] at this

theorem Account.answered_subperm (h : Account p past s b) (hq : Unfailing past) :
    (ledger past).answered.Subperm (ledger past).saved :=
  (h.nodup_answered hq).subperm h.sound.saved_of_answered

theorem Account.countP_deliveries_le (h : Account p past s b) (hq : Unfailing past)
    (k : CorrelationId) :
    (deliveries past).countP (fun d => d.1.any fun m => m.correlationId = k) ≤
      (saves past).countP fun m => m.correlationId = k := by
  rw [h.deliveries_eq, saves_eq, List.countP_map, List.countP_map]
  exact List.Subperm.countP_le _ (h.answered_subperm hq)

theorem key_inj_of_nodup (hids : ((saves past).map ChatMessage.correlationId).Nodup) :
    ∀ e ∈ (ledger past).saved, ∀ f ∈ (ledger past).saved, e.key = f.key → e = f := by
  rw [saves_eq, List.map_map] at hids
  exact fun e he f hf => List.inj_on_of_nodup_map hids he hf

theorem Ledger.Sound.latest_of_nodup (hl : (ledger past).Sound)
    (hids : ((saves past).map ChatMessage.correlationId).Nodup) {e : Entry}
    (he : e ∈ (ledger past).saved) :
    latest e.key (ledger past).saved = some e ∧ e ∉ (ledger past).late := by
  have hkeys := key_inj_of_nodup hids
  constructor
  · obtain ⟨f, hf⟩ := latest_isSome he
    obtain ⟨hmem, hk⟩ := mem_of_latest hf
    rwa [hkeys f hmem e he hk] at hf
  · intro hlate
    obtain ⟨g, hg, hne, hgk⟩ := hl.earlier_of_late e hlate
    exact hne (hkeys g hg e he hgk)

theorem Account.answered_perm (h : Account p past s b) (hr : Reckoning past s b)
    (hq : Unfailing past) (hdone : s.IsDone)
    (hids : ((saves past).map ChatMessage.correlationId).Nodup) :
    (ledger past).answered.Perm (ledger past).saved := by
  refine (List.perm_ext_iff_of_nodup (h.nodup_answered hq) h.sound.nodup_saved).mpr fun e => ?_
  constructor
  · exact h.sound.saved_of_answered e
  · intro he
    obtain ⟨hlatest, hlate⟩ := h.sound.latest_of_nodup hids he
    exact (hr.answered_latest_iff hdone _ e hlatest).mpr hlate

theorem Account.deliveries_perm (h : Account p past s b) (hr : Reckoning past s b)
    (hq : Unfailing past) (hdone : s.IsDone)
    (hids : ((saves past).map ChatMessage.correlationId).Nodup) :
    ((deliveries past).map Prod.snd).Perm ((saves past).map p.render) := by
  rw [h.deliveries_eq, saves_eq, List.map_map, List.map_map]
  exact (h.answered_perm hr hq hdone hids).map _

end

end NoteRelay.Chat

namespace NoteRelay.Relay

open Chat

section
variable {u : Setup} {moves : List Move} {w : Relay} {id : SessionId} {s : Session}

theorem answersSave (hrun : (started u).run u moves = some w) (hs : w.chats.get? id = some s) :
    Lawful (AnswersSave u.chat) (chatPast u moves id) := by
  refine (chat_induction (Q := fun past s b => Account u.chat past s b ∧
    Lawful (AnswersSave u.chat) past) ?_ ?_ ?_ hrun hs).2
  · exact fun _ _ _ _ => ⟨.start _ _ _ _ _, lawful_nil⟩
  · rintro past s t b ⟨haccount, h⟩ hchange
    exact ⟨haccount.outside hchange.phase, h⟩
  · rintro past s t b now loop new ⟨haccount, h⟩ hturn hfound
    exact ⟨haccount.turn hturn hfound, haccount.answersSave_turn h hturn⟩

def chatOutcome? (u : Setup) (moves : List Move) (id : SessionId) :
    Option (Except Status Unit) :=
  ((started u).run u moves).bind fun w => (w.chats.get? id).bind Session.outcome?

theorem exists_of_chatOutcome? (h : chatOutcome? u moves id = some (.ok ())) :
    ∃ w s, (started u).run u moves = some w ∧ w.chats.get? id = some s ∧ s.IsDone := by
  simp only [chatOutcome?, Option.bind_eq_some_iff] at h
  obtain ⟨w, hrun, s, hs, hend⟩ := h
  refine ⟨w, s, hrun, hs, .inr ?_⟩
  unfold Session.outcome? at hend
  split at hend
  · rename_i outcome hphase
    exact hphase.trans (congrArg _ (Option.some.inj hend))
  · simp at hend

-- ---------------------------------------------------------------------------
-- Some short runs
-- ---------------------------------------------------------------------------

def desk : SessionId :=
  ⟨"desk"⟩

def asks (key text : String) : List Move :=
  [.chatClient desk (.send (.ok ⟨⟨key, text⟩⟩)), .chat desk .intake none, .chat desk .intake none]

def fetches : List Move :=
  [.chat desk .delivery none]

/-- The tick is taken, the frame is sent, and the message is deleted unless that fails. -/
def delivers (deletion : Option Interference) : List Move :=
  [.pass 1, .chat desk .delivery none, .chat desk .delivery none, .chat desk .delivery deletion]

def closes : List Move :=
  [.pass 1, .chat desk .delivery none, .chat desk .closing none]

def twoKeys : List Move :=
  .converse desk 4 4 :: asks "a" "one" ++ fetches ++ asks "b" "two" ++ delivers none ++
    fetches ++ delivers none ++ closes

/-- The text "error" asks for a business failure. -/
def touchy : Setup :=
  { brisk with chat := { brisk.chat with trigger := .standard } }

def oneFailing : List Move :=
  .converse desk 4 4 :: asks "a" "error" ++ fetches ++ asks "b" "two" ++ delivers none ++
    fetches ++ delivers none ++ closes

def reused : List Move :=
  .converse desk 4 4 :: asks "a" "one" ++ fetches ++ delivers none ++ asks "a" "two" ++
    fetches ++ delivers none ++ closes

def overtaken : List Move :=
  .converse desk 4 4 :: asks "a" "one" ++ fetches ++ asks "a" "two" ++ delivers none ++ closes

def undeleted : List Move :=
  .converse desk 4 4 :: asks "a" "one" ++ fetches ++
    delivers (some (.failing (.unavailable "timeout"))) ++ fetches ++ delivers none ++ closes

/-- What could not be deleted is replaced. -/
def replaced : List Move :=
  .converse desk 4 4 :: asks "a" "one" ++ fetches ++
    delivers (some (.failing (.unavailable "timeout"))) ++ asks "a" "two" ++ fetches ++
    delivers none ++ closes

-- ---------------------------------------------------------------------------
-- The laws of delivery
-- ---------------------------------------------------------------------------

/-- Exactly-once delivery. While no call fails, an identity is answered at most as often as it was
saved, and every frame of the delivery is the answer to a message that was saved before it. When the
session is done and no identity was saved twice, the frames are the answers to all saves, and the
box that is cleared is empty. -/
theorem deliveries_of_unfailing (hrun : (started u).run u moves = some w)
    (hs : w.chats.get? id = some s) (hq : Unfailing (chatPast u moves id)) :
    (∀ k, (deliveries (chatPast u moves id)).countP
        (fun d => d.1.any fun m => m.correlationId = k) ≤
      (saves (chatPast u moves id)).countP fun m => m.correlationId = k) ∧
    (∀ before about frame after,
      chatPast u moves id = before ++ .sent .delivery about frame :: after →
      ∃ m ∈ saves before, about = some m ∧
        frame = if u.chat.trigger.fires m.text then
            .status (u.chat.rulebook.statusOf (.business m.text Trigger.reason))
          else .message ⟨m.correlationId.text, "processed: " ++ m.text⟩) ∧
    (s.IsDone → ((saves (chatPast u moves id)).map ChatMessage.correlationId).Nodup →
      ((deliveries (chatPast u moves id)).map Prod.snd).Perm
        ((saves (chatPast u moves id)).map u.chat.render)) ∧
    (s.phase = .closing (.ok ()) → w.queues.outbox.box id = .empty) := by
  have haccount := account hrun hs
  have hreckoning := reckoning hrun hs hq
  refine ⟨haccount.countP_deliveries_le hq, ?_, haccount.deliveries_perm hreckoning hq,
    haccount.empty_of_done⟩
  intro before about frame after hsplit
  exact answersSave hrun hs before _ after hsplit about frame rfl

theorem deliveries_of_unfailing_twoKeys :
    chatOutcome? touchy oneFailing desk = some (.ok ()) ∧
      Unfailing (chatPast touchy oneFailing desk) ∧
      ((saves (chatPast touchy oneFailing desk)).map ChatMessage.correlationId).Nodup ∧
      deliveries (chatPast touchy oneFailing desk) =
        [(some ⟨⟨"a"⟩, "error"⟩, .status ⟨.unknown, "error", [⟨.business, Trigger.reason⟩]⟩),
          (some ⟨⟨"b"⟩, "two"⟩, .message ⟨"b", "processed: two"⟩)] ∧
      ((deliveries (chatPast touchy oneFailing desk)).map Prod.snd).Perm
        ((saves (chatPast touchy oneFailing desk)).map touchy.chat.render) := by
  have hend : chatOutcome? touchy oneFailing desk = some (.ok ()) := by decide +kernel
  have hq : Unfailing (chatPast touchy oneFailing desk) := by decide +kernel
  have hids : ((saves (chatPast touchy oneFailing desk)).map ChatMessage.correlationId).Nodup := by
    decide +kernel
  obtain ⟨w, s, hrun, hs, hdone⟩ := exists_of_chatOutcome? hend
  exact ⟨hend, hq, hids, by decide +kernel, (deliveries_of_unfailing hrun hs hq).2.2.1 hdone hids⟩

/-- Of the saves under an identity, the latest is answered exactly if it did not come late. A client
sees no difference where an earlier save of the same message is answered in its place. -/
theorem latest_delivered_iff (hrun : (started u).run u moves = some w)
    (hs : w.chats.get? id = some s) (hq : Unfailing (chatPast u moves id)) (hdone : s.IsDone)
    {k : CorrelationId} {m : ChatMessage}
    (hm : ((saves (chatPast u moves id)).filter fun m => m.correlationId = k).getLast? = some m) :
    ∃ e, latest k (ledger (chatPast u moves id)).saved = some e ∧ e.message = m ∧
      (e ∈ (ledger (chatPast u moves id)).answered ↔
        e ∉ (ledger (chatPast u moves id)).late) ∧
      ((∃ frame, (some m, frame) ∈ deliveries (chatPast u moves id)) ↔
        e ∉ (ledger (chatPast u moves id)).late ∨
          ∃ f ∈ (ledger (chatPast u moves id)).answered, f ≠ e ∧ f.message = m) := by
  have haccount := account hrun hs
  rw [saves_eq] at hm
  obtain ⟨e, he, rfl⟩ := exists_latest hm
  have hanswered := (reckoning hrun hs hq).answered_latest_iff hdone k e he
  refine ⟨e, he, rfl, hanswered, ?_⟩
  rw [haccount.deliveries_eq, ← hanswered]
  constructor
  · rintro ⟨frame, hframe⟩
    obtain ⟨f, hf, hfm⟩ := List.mem_map.mp hframe
    by_cases hfe : f = e
    · exact .inl (hfe ▸ hf)
    · exact .inr ⟨f, hf, hfe, by simpa using congrArg Prod.fst hfm⟩
  · rintro (he | ⟨f, hf, -, hfm⟩)
    · exact ⟨_, List.mem_map.mpr ⟨e, he, rfl⟩⟩
    · exact ⟨_, List.mem_map.mpr ⟨f, hf, by rw [hfm]⟩⟩

theorem latest_delivered_iff_reused :
    ∃ frame, (some ⟨⟨"a"⟩, "two"⟩, frame) ∈ deliveries (chatPast brisk reused desk) := by
  have hend : chatOutcome? brisk reused desk = some (.ok ()) := by decide +kernel
  obtain ⟨w, s, hrun, hs, hdone⟩ := exists_of_chatOutcome? hend
  obtain ⟨e, -, -, -, hiff⟩ := latest_delivered_iff (k := ⟨"a"⟩) (m := ⟨⟨"a"⟩, "two"⟩) hrun hs
    (by decide +kernel) hdone (by decide +kernel)
  have hlate : (ledger (chatPast brisk reused desk)).late = [] := by decide +kernel
  exact hiff.mpr (.inl (by simp [hlate]))

/-- The newer message goes with the deletion of the older one. -/
theorem latest_lost :
    chatOutcome? brisk overtaken desk = some (.ok ()) ∧
      Unfailing (chatPast brisk overtaken desk) ∧
      ((saves (chatPast brisk overtaken desk)).filter fun m =>
        m.correlationId = ⟨"a"⟩).getLast? = some ⟨⟨"a"⟩, "two"⟩ ∧
      ∀ d ∈ deliveries (chatPast brisk overtaken desk), d.1 ≠ some ⟨⟨"a"⟩, "two"⟩ := by
  decide +kernel

/-- How often a save is answered. Every frame of the delivery answers a save, and there is at most
one more of them than attempts to delete it that failed. No save is answered twice exactly if no
frame is sent for what could not be deleted; when the session is done, that is exactly if no
snapshot has brought what could not be deleted. -/
theorem answered_once_iff (hrun : (started u).run u moves = some w)
    (hs : w.chats.get? id = some s) :
    (deliveries (chatPast u moves id) = (ledger (chatPast u moves id)).answered.map fun e =>
      (some e.message, u.chat.render e.message)) ∧
    (saves (chatPast u moves id) = (ledger (chatPast u moves id)).saved.map Entry.message ∧
      (ledger (chatPast u moves id)).saved.Nodup ∧
      ∀ e ∈ (ledger (chatPast u moves id)).answered, e ∈ (ledger (chatPast u moves id)).saved) ∧
    (∀ e, (ledger (chatPast u moves id)).answered.count e ≤
      (ledger (chatPast u moves id)).failed.count e + 1) ∧
    ((ledger (chatPast u moves id)).answered.Nodup ↔
      Lawful SendsNoneAgain (chatPast u moves id)) ∧
    (s.IsDone → ((ledger (chatPast u moves id)).answered.Nodup ↔
      Lawful FindsNoneAgain (chatPast u moves id))) := by
  have haccount := account hrun hs
  have hrecurrence := recurrence hrun hs
  refine ⟨haccount.deliveries_eq,
    ⟨saves_eq _, haccount.sound.nodup_saved, haccount.sound.saved_of_answered⟩,
    haccount.sound.count_answered, hrecurrence.nodup_iff, ?_⟩
  exact fun hdone => hrecurrence.nodup_iff.trans (hrecurrence.finds_iff_of_done hdone).symm

/-- A deletion fails, but the message is replaced before the next snapshot. -/
theorem answered_once_iff_replaced :
    (ledger (chatPast brisk replaced desk)).failed ≠ [] ∧
      Lawful FindsNoneAgain (chatPast brisk replaced desk) := by
  have hend : chatOutcome? brisk replaced desk = some (.ok ()) := by decide +kernel
  obtain ⟨w, s, hrun, hs, hdone⟩ := exists_of_chatOutcome? hend
  exact ⟨by decide +kernel,
    ((answered_once_iff hrun hs).2.2.2.2 hdone).mp (by decide +kernel)⟩

/-- One save and two frames for it: the first deletion failed. -/
theorem answered_twice :
    chatOutcome? brisk undeleted desk = some (.ok ()) ∧
      saves (chatPast brisk undeleted desk) = [⟨⟨"a"⟩, "one"⟩] ∧
      deliveries (chatPast brisk undeleted desk) =
        [(some ⟨⟨"a"⟩, "one"⟩, .message ⟨"a", "processed: one"⟩),
          (some ⟨⟨"a"⟩, "one"⟩, .message ⟨"a", "processed: one"⟩)] := by
  decide +kernel

end

end NoteRelay.Relay
