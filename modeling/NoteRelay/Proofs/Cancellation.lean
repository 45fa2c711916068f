import NoteRelay.Proofs.Chat.Course
import NoteRelay.Proofs.Notify.Course

/-!
# Cancellation

A session that is cancelled while its loops run does nothing any more but clear its outbox, and ends
as cancelled; a subscription does nothing at all (`nothing_after_cancellation`). Every wait sees the
cancellation before anything else that it could see, so it does not matter what is ready.
-/

namespace NoteRelay.Chat

/-- What a session does once it is cancelled at `s`, while its loops run, and where it gets. -/
inductive Session.CutShort (p : Policy) (id : SessionId) (s : Session) :
    List Act → Session → Prop where
  | unseen {t : Session} : t.phase = s.phase → t.isCancelled = true → CutShort p id s [] t
  | seen {acts : List Act} {t : Session} :
      Ending p id (.error .cancelled) acts t → CutShort p id s acts t

section
variable {p : Policy} {supply : IdSupply} {id : SessionId} {s t t' : Session} {i : Intake}
  {d : Delivery} {os : List Occasion} {o : Occasion} {acts new : List Act}

theorem Session.CutShort.outside {move : Session.Move} (h : CutShort p id s acts t)
    (hm : t.clientMove move = some t') : CutShort p id s acts t' := by
  cases h with
  | unseen hphase hc =>
    exact .unseen ((phase_clientMove hm).trans hphase) ((isCancelled_clientMove hm).mpr (.inl hc))
  | seen hending => exact .seen (hending.outside hm)

theorem Session.CutShort.turn {now : Nat} {loop : Loop}
    {answer : Option (Except QueueFault QueueAnswer)} (h : CutShort p id s acts t)
    (hs : s.phase = .running i d)
    (hturn : Turn p id now loop t (t.deedsWith id loop answer t') t') :
    CutShort p id s (acts ++ t.acts id loop answer t') t' := by
  cases h with
  | unseen hphase hc =>
    obtain ⟨hds, rfl⟩ := hturn.of_cancelled (hphase.trans hs) hc
    rw [acts_of_decided hds]
    exact .seen (.clearing rfl)
  | seen hending => exact .seen (hending.turn hturn).2

theorem Session.cutShort (hs : s.phase = .running i d) (hc : s.isCancelled = true)
    (h : (machine p supply id).course s os = some (acts, t)) : CutShort p id s acts t := by
  refine Machine.course_induction (P := fun _ acts t => CutShort p id s acts t)
    (.unseen rfl hc) ?_ h
  intro os acts v o new t _ hv hoccur
  obtain ⟨move, -, rfl, hm⟩ | ⟨loop, _, _, answer, -, rfl, hturn⟩ := turn_of_occur hoccur
  · rw [List.append_nil]
    exact hv.outside hm
  · exact hv.turn hs hturn

theorem Session.go_of_cancelled {minted now : Nat}
    (answer : Option (Except QueueFault QueueAnswer)) (hs : s.phase = .running i d)
    (hstage : d.stage ≠ .finished) (hc : s.isCancelled = true) :
    s.go p supply minted now answer .delivery =
      some { s with phase := .closing (.error .cancelled) } := by
  obtain ⟨inbound, outbound, isCancelled, phase⟩ := s
  obtain ⟨stage, ticker, deadline⟩ := d
  subst hs hc
  cases stage with
  | finished => exact absurd rfl hstage
  | _ => rfl

theorem Session.CutShort.awaits_eq_none (h : CutShort p id s acts t) {loop : Loop}
    (hloop : loop ≠ .closing) : t.awaits id loop = none ∧ t.tickDue? loop = none := by
  have hcut : t.isCancelled = true ∨ ∀ i d, t.phase ≠ .running i d := by
    cases h with
    | unseen _ hc => exact .inl hc
    | seen hending =>
      cases hending with
      | clearing hphase | cleared hphase => exact .inr (by simp [hphase])
  obtain ⟨inbound, outbound, isCancelled, phase⟩ := t
  cases phase with
  | running i d =>
    obtain rfl : isCancelled = true := hcut.resolve_right fun hne => hne i d rfl
    cases loop with
    | closing => exact absurd rfl hloop
    | intake => cases i <;> exact ⟨rfl, rfl⟩
    | delivery => exact ⟨rfl, rfl⟩
  | closing | closed => cases loop <;> first | exact absurd rfl hloop | exact ⟨rfl, rfl⟩

end

end NoteRelay.Chat

namespace NoteRelay.Notify

section
variable {p : Policy} {s t : Subscription} {stage : Stage} {os : List Occasion} {done : List Deed}

theorem Subscription.cutShort (hc : s.isCancelled = true)
    (h : (machine p).course s os = some (done, t)) :
    done = [] ∧ (t.phase = s.phase ∧ t.isCancelled = true ∨
      t.phase = .closed (.error (p.rulebook.statusOf .cancelled))) := by
  refine Machine.course_induction (P := fun _ done t => done = [] ∧
    (t.phase = s.phase ∧ t.isCancelled = true ∨
      t.phase = .closed (.error (p.rulebook.statusOf .cancelled)))) ⟨rfl, .inl ⟨rfl, hc⟩⟩ ?_ h
  rintro os done v o new t - ⟨rfl, hv⟩ hoccur
  obtain ⟨move, -, rfl, hm⟩ | ⟨_, _, -, hturn⟩ := turn_of_occur hoccur
  · refine ⟨rfl, ?_⟩
    rw [(clientMove_cases hm).2, isCancelled_clientMove hm]
    exact hv.imp_left fun ⟨hphase, hlive⟩ => ⟨hphase, .inl hlive⟩
  · obtain ⟨-, hlive⟩ | hclosed := hv
    · obtain ⟨rfl, rfl⟩ := hturn.of_cancelled hlive
      exact ⟨rfl, .inr rfl⟩
    · exact absurd hclosed hturn.not_closed

theorem Subscription.go_of_cancelled {now : Nat}
    (answer : Option (Except QueueFault QueueAnswer)) (hs : s.phase = .running stage)
    (hstage : s.phase ≠ .running .finished) (hc : s.isCancelled = true) :
    s.go p now answer = some (s.finished (.error (p.rulebook.statusOf .cancelled))) := by
  obtain ⟨user, outbound, isCancelled, phase⟩ := s
  subst hs hc
  cases stage with
  | finished => exact absurd rfl hstage
  | _ => rfl

theorem Subscription.awaits_eq_none
    (h : s.isCancelled = true ∨ ∃ outcome, s.phase = .closed outcome) :
    s.awaits = none ∧ s.tickDue? = none := by
  obtain hc | ⟨outcome, hs⟩ := h
  · simp [awaits, tickDue?, hc]
  · simp [awaits, tickDue?, hs]

end

end NoteRelay.Notify

namespace NoteRelay

open Chat (Session)
open Notify (Subscription)

/-- Cancellation is not swallowed, and nothing happens behind it. From the moment at which the
lifetime of a session is cancelled while its loops run, it takes no item of its input, sends no
frame, waits for no call and no tick of its loops and calls nothing but the one clearing of its
outbox. Whatever is ready, its next turn is the one that sees the cancellation, and it ends as
cancelled. The same holds of a subscription, which has nothing to clear. -/
theorem nothing_after_cancellation :
    (∀ (p : Chat.Policy) (supply : IdSupply) (id : SessionId) (inbound : Channel Chat.Item)
      (outbound : Channel Chat.Response) (isCancelled : Bool) (start : Nat)
      (before after : List Chat.Occasion) (past acts : List Chat.Act) (s t : Session)
      (i : Chat.Intake) (d : Chat.Delivery),
      (Session.machine p supply id).course (.started p inbound outbound isCancelled start) before =
        some (past, s) →
      s.phase = .running i d → s.isCancelled = true →
      (Session.machine p supply id).course s after = some (acts, t) →
      (∀ loop, loop ≠ .closing → t.awaits id loop = none ∧ t.tickDue? loop = none) ∧
      ((acts = [] ∧ t.phase = s.phase ∧ ∀ minted now answer,
          t.go p supply minted now answer .delivery =
            some { t with phase := .closing (.error .cancelled) }) ∨
        (acts = [] ∧ t.phase = .closing (.error .cancelled) ∧ ∀ minted now answer,
          t.go p supply minted now (some answer) .closing =
            some (t.finished (.error (p.rulebook.statusOf .cancelled)))) ∨
        ((∃ answer, acts = [.did (.called (.clear id) answer)]) ∧
          t.outcome? = some (.error (p.rulebook.statusOf .cancelled))))) ∧
    (∀ (p : Notify.Policy) (user : UserId) (outbound : Channel Notify.Frame) (isCancelled : Bool)
      (before after : List Notify.Occasion) (past done : List Notify.Deed) (s t : Subscription)
      (stage : Notify.Stage),
      (Subscription.machine p).course (.started user outbound isCancelled) before =
        some (past, s) →
      s.phase = .running stage → s.isCancelled = true →
      (Subscription.machine p).course s after = some (done, t) →
      done = [] ∧ t.awaits = none ∧ t.tickDue? = none ∧
      ((t.phase = s.phase ∧ ∀ now answer,
          t.go p now answer = some (t.finished (.error (p.rulebook.statusOf .cancelled)))) ∨
        t.outcome? = some (.error (p.rulebook.statusOf .cancelled)))) := by
  constructor
  · intro p supply id inbound outbound isCancelled start before after past acts s t i d hbefore hs
      hc hafter
    have hcut := Session.cutShort hs hc hafter
    refine ⟨fun loop hloop => hcut.awaits_eq_none hloop, ?_⟩
    cases hcut with
    | unseen hphase hlive =>
      have hstage := Session.stage_ne_finished hbefore i d hs
      exact .inl ⟨rfl, hphase, fun minted now answer =>
        Session.go_of_cancelled answer (hphase.trans hs) hstage hlive⟩
    | seen hending =>
      cases hending with
      | clearing hphase =>
        refine .inr (.inl ⟨rfl, hphase, fun minted now answer => ?_⟩)
        simp [Session.go, hphase, Except.mapError]
      | cleared hphase =>
        exact .inr (.inr ⟨⟨_, rfl⟩, by simp [Session.outcome?, hphase, Except.mapError]⟩)
  · intro p user outbound isCancelled before after past done s t stage hbefore hs hc hafter
    obtain ⟨rfl, hcut⟩ := Subscription.cutShort hc hafter
    obtain ⟨hawaits, htick⟩ :=
      Subscription.awaits_eq_none (hcut.imp And.right fun hclosed => ⟨_, hclosed⟩)
    refine ⟨rfl, hawaits, htick, hcut.imp ?_ ?_⟩
    · rintro ⟨hphase, hlive⟩
      have hstage := hphase ▸ Subscription.phase_ne_finished hbefore
      exact ⟨hphase, fun now answer =>
        Subscription.go_of_cancelled answer (hphase.trans hs) hstage hlive⟩
    · intro hclosed
      simp [Subscription.outcome?, hclosed]

/-- A request is there to be read, the snapshot has come and the tick is due when the session is
cancelled; a count has come when the subscription is. -/
theorem nothing_after_cancellation_ready :
    (∃ s t, Session.deskMachine.course .fresh
        [.outside (.send (.ok ⟨⟨"a", "one"⟩⟩)), .outside .cancel] = some ([], s) ∧
      Session.deskMachine.course s
        [.turn .delivery 0 9 (some (.ok (.messages [⟨⟨"b"⟩, "two"⟩])))] = some ([], t) ∧
      ∀ loop, loop ≠ .closing → t.awaits ⟨"desk"⟩ loop = none ∧ t.tickDue? loop = none) ∧
    ∃ s t, (Subscription.machine Relay.brisk.notify).course .fresh [.outside .cancel] =
        some ([], s) ∧
      (Subscription.machine Relay.brisk.notify).course s [.turn 9 (some (.ok (.number 3)))] =
        some ([], t) ∧ t.awaits = none := by
  refine ⟨⟨_, _, rfl, rfl, ?_⟩, _, _, rfl, rfl, ?_⟩
  · exact (nothing_after_cancellation.1 Relay.brisk.chat .counting ⟨"desk"⟩ { capacity := 4 }
      { capacity := 4 } false 0 [.outside (.send (.ok ⟨⟨"a", "one"⟩⟩)), .outside .cancel]
      [.turn .delivery 0 9 (some (.ok (.messages [⟨⟨"b"⟩, "two"⟩])))] [] [] _ _ _ _
      rfl rfl rfl rfl).1
  · exact (nothing_after_cancellation.2 Relay.brisk.notify ⟨1⟩ { capacity := 4 } false
      [.outside .cancel] [.turn 9 (some (.ok (.number 3)))] [] [] _ _ _ rfl rfl rfl rfl).2.1

end NoteRelay
