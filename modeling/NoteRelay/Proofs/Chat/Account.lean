import Mathlib.Data.List.Induction
import NoteRelay.Proofs.Chat.Ledger

/-!
# The account of a run

`Account` is what the past of a session says of the session and of its box: the ledger of the past is
sound and agrees with where the delivery is, every frame of the delivery answers an entry, and the
box of a session that is done is empty. It holds of every session of every run.
-/

namespace NoteRelay.Chat

def saves (past : List Deed) : List ChatMessage :=
  past.filterMap fun d => match d with
    | .called (.save _ m) (.ok _) => some m
    | _ => none

/-- The frames that the delivery has sent, each with the message that it was about. -/
def deliveries (past : List Deed) : List (Option ChatMessage × Response) :=
  past.filterMap fun d => match d with
    | .sent .delivery about frame => some (about, frame)
    | _ => none

theorem saves_eq (past : List Deed) : saves past = (ledger past).saved.map Entry.message := by
  induction past using List.reverseRecOn with
  | nil => rfl
  | append_singleton past d ih =>
    have hone : saves (past ++ [d]) = saves past ++ saves [d] := List.filterMap_append
    rw [hone, ih, ledger_append_single]
    cases d with
    | called call answer => cases call <;> cases answer <;> simp [saves, Ledger.after, next]
    | sent loop about frame => cases loop <;> cases about <;> simp [saves, Ledger.after]

theorem deliveries_append (past new : List Deed) :
    deliveries (past ++ new) = deliveries past ++ deliveries new :=
  List.filterMap_append

/-- What a past says of the session that has it, and of its box. -/
structure Account (p : Policy) (past : List Deed) (s : Session) (b : Outbox.Box) : Prop where
  sound : (ledger past).Sound
  books : ∀ i d, s.phase = .running i d → Books (ledger past) d.stage b
  deliveries_eq : deliveries past =
    (ledger past).answered.map fun e => (some e.message, p.render e.message)
  empty_of_done : s.phase = .closing (.ok ()) → b = .empty

section
variable {p : Policy} {id : SessionId} {now : Nat} {loop : Loop} {past new : List Deed}
  {s t : Session} {b b' : Outbox.Box}

theorem Account.start (p : Policy) (inbound : Channel Item) (outbound : Channel Response)
    (isCancelled : Bool) (now : Nat) :
    Account p [] (.started p inbound outbound isCancelled now) .empty where
  sound := by constructor <;> simp
  books := by
    rintro i d ⟨⟩
    constructor <;> simp [Delivery.started, Stage.held, Stage.due]
  deliveries_eq := rfl
  empty_of_done := by simp [Session.started]

theorem Account.booksAt (h : Account p past s b) {i : Intake} {d : Delivery} {stage : Stage}
    (hs : s.Runs i d) (hstage : d.stage = stage) : Books (ledger past) stage b :=
  hstage ▸ h.books i d hs.1

theorem Account.quiet (h : Account p past s b) (hledger : ledger (past ++ new) = ledger past)
    (hdeliveries : deliveries new = [])
    (books : ∀ i d, t.phase = .running i d → Books (ledger past) d.stage b')
    (empty_of_done : t.phase = .closing (.ok ()) → b' = .empty) :
    Account p (past ++ new) t b' where
  sound := hledger ▸ h.sound
  books := hledger ▸ books
  deliveries_eq := by rw [deliveries_append, hdeliveries, hledger, List.append_nil, h.deliveries_eq]
  empty_of_done := empty_of_done

theorem Account.called (h : Account p past s b) {call : QueueCall}
    {answer : Except QueueFault QueueAnswer}
    (sound : ((ledger past).after (.called call answer)).Sound)
    (books : ∀ i d, t.phase = .running i d →
      Books ((ledger past).after (.called call answer)) d.stage b')
    (empty_of_done : t.phase = .closing (.ok ()) → b' = .empty) :
    Account p (past ++ [.called call answer]) t b' where
  sound := by rwa [ledger_append_single]
  books := by rwa [ledger_append_single]
  deliveries_eq := by
    have hanswered : ((ledger past).after (.called call answer)).answered =
        (ledger past).answered := by
      cases call <;> cases answer <;> rfl
    rw [deliveries_append, h.deliveries_eq, ledger_append_single, hanswered]
    exact List.append_nil _
  empty_of_done := empty_of_done

theorem Account.sent (h : Account p past s b) {m : ChatMessage} {others : List ChatMessage}
    (hb : Books (ledger past) (.sending m others) b)
    (books : ∀ i d, t.phase = .running i d →
      Books ((ledger past).after (.sent .delivery (some m) (p.render m))) d.stage b)
    (hrunning : t.phase ≠ .closing (.ok ())) :
    Account p (past ++ [.sent .delivery (some m) (p.render m)]) t b where
  sound := by
    rw [ledger_append_single]
    exact h.sound.send hb
  books := by rwa [ledger_append_single]
  deliveries_eq := by
    obtain ⟨e, _, -, rfl, -, he⟩ := hb.head rfl
    rw [deliveries_append, h.deliveries_eq, ledger_append_single, after_sent he]
    simp [deliveries]
  empty_of_done := fun hdone => absurd hdone hrunning

theorem Account.turn (h : Account p past s b) (hturn : Turn p id now loop s new t)
    (hfound : ∀ a, .called (.fetchAll id) (.ok a) ∈ new → a.found.Perm b.values) :
    Account p (past ++ new) t (new.foldl Deed.box b) := by
  cases hturn with
  | cancelled => exact h.quiet (by simp) rfl (by simp) (by simp)
  | read hs =>
    refine h.quiet (by simp) rfl ?_ (by simp)
    rintro _ _ ⟨⟩
    exact h.books _ _ hs.1
  | broken => exact h.quiet (by simp) rfl (by simp) (by simp)
  | saved hs =>
    have hb := h.books _ _ hs.1
    refine h.called (h.sound.save hb.saved_of_held) ?_ (by simp)
    rintro _ _ ⟨⟩
    exact hb.save h.sound
  | unsaved => exact h.quiet (by simp [Ledger.after]) rfl (by simp) (by simp)
  | refused hs =>
    refine h.quiet (by simp [Ledger.after]) rfl ?_ (by simp)
    rintro _ _ ⟨⟩
    exact h.books _ _ hs.1
  | unheard => exact h.quiet (by simp) rfl (by simp) (by simp)
  | fetched hs hstage hf =>
    refine h.called h.sound.fetch ?_ (by simp)
    rintro _ _ ⟨⟩
    exact (h.booksAt hs hstage).fetch (hfound _ (by simp)) hf.symm (by simp)
  | foundNothing hs hstage hf =>
    refine h.called h.sound.fetch ?_ (by simp)
    rintro _ _ ⟨⟩
    exact (h.booksAt hs hstage).fetch (hfound _ (by simp)) hf.symm (by simp)
  | finished hs hstage hf =>
    refine h.called h.sound.fetch (by simp) fun _ => ?_
    have hvalues := hfound _ (List.mem_singleton.mpr rfl)
    rw [hf] at hvalues
    exact Table.eq_empty_of_values (List.nil_perm.mp hvalues)
  | unfetched => exact h.quiet (by simp [Ledger.after]) rfl (by simp) (by simp)
  | rested hs hstage =>
    refine h.quiet (by simp) rfl ?_ (by simp)
    rintro _ _ ⟨⟩
    exact (h.booksAt hs hstage).restage rfl rfl (by simp)
  | paced hs hstage =>
    refine h.quiet (by simp) rfl ?_ (by simp)
    rintro _ _ ⟨⟩
    exact (h.booksAt hs hstage).restage rfl rfl (by simp)
  | delivered hs hstage =>
    have hb := h.booksAt hs hstage
    refine h.sent hb ?_ (by simp)
    rintro _ _ ⟨⟩
    exact hb.send
  | settled hs hstage =>
    have hb := h.booksAt hs hstage
    refine h.called (h.sound.settle hb) ?_ (by simp)
    rintro _ _ ⟨⟩
    exact hb.settle h.sound (Stage.held_ofSnapshot _) (Stage.ofSnapshot_ne_settling _)
  | cleared =>
    refine h.quiet ?_ rfl (by simp [Session.finished]) (by simp [Session.finished])
    rw [ledger_append_single, Ledger.after]
    all_goals simp

theorem Account.outside (h : Account p past s b) (hphase : t.phase = s.phase) :
    Account p past t b :=
  ⟨h.sound, hphase ▸ h.books, h.deliveries_eq, hphase ▸ h.empty_of_done⟩

end

end NoteRelay.Chat

namespace NoteRelay.Relay

theorem account {u : Setup} {moves : List Move} {w : Relay} {id : SessionId} {s : Chat.Session}
    (hrun : (started u).run u moves = some w) (hs : w.chats.get? id = some s) :
    Chat.Account u.chat (chatPast u moves id) s (w.queues.outbox.box id) := by
  refine chat_induction (Q := fun past s b => Chat.Account u.chat past s b) ?_ ?_ ?_ hrun hs
  · exact fun inbound outbound isCancelled now => .start u.chat inbound outbound isCancelled now
  · exact fun _ _ _ _ h hchange => h.outside hchange.phase
  · exact fun _ _ _ _ _ _ _ h hturn hfound => h.turn hturn hfound

end NoteRelay.Relay
