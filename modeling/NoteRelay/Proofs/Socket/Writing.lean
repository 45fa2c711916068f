import NoteRelay.Json.Printer
import NoteRelay.Proofs.Chat.Course
import NoteRelay.Proofs.Notify.Course
import NoteRelay.Socket.Connection

/-!
# What a client reads on its socket

A session, the channel that it sends to and the writer of its connection, over every schedule and
with writes that fail anywhere. `Outlet` is what the writer works from, for both kinds of session,
and `Outlet.Step` is all that can happen to it. `Outlet.Kept` says how far the writer is in the
whole that it has to write: the frames of the session and then, when that is over, how it ended.
-/

namespace NoteRelay

theorem Channel.isEnded_of_send? {α : Type} {c c' : Channel α} {a : α}
    (h : c.send? a = some (.ok c')) : c'.isEnded = c.isEnded := by
  rw [eq_of_send? h]

namespace Socket

/-- What a socket carries to the client. -/
inductive WireMessage where
  | text (text : String)
  | close (code : Nat)
  deriving DecidableEq

def Outgoing.wire {φ : Type} (toJson : φ → Json) : Outgoing φ → WireMessage
  | .frame f => .text (toJson f).render
  | .terminal status => .text (terminalToJson status).render
  | .close code => .close code

/-- What a client reads behind the frames of a session, once that is over. -/
def conclusion : Option (Except Status Unit) → List WireMessage
  | none => []
  | some (.ok ()) => [.close 1000]
  | some (.error status) =>
    [.text (Json.object [("error", status.toJson)]).render, .close 1011]

/-- What is to be written of a session that has sent these frames. -/
def whole {φ : Type} (sent : List φ) (outcome : Option (Except Status Unit)) :
    List (Outgoing φ) :=
  sent.map .frame ++ outcome.elim [] ending

theorem map_wire_whole {φ : Type} (toJson : φ → Json) (sent : List φ)
    (outcome : Option (Except Status Unit)) :
    (whole sent outcome).map (Outgoing.wire toJson) =
      sent.map (fun frame => .text (toJson frame).render) ++ conclusion outcome := by
  have hending : (outcome.elim [] ending).map (Outgoing.wire toJson) = conclusion outcome := by
    cases outcome with
    | none => rfl
    | some result => cases result <;> rfl
  simp [whole, hending, Outgoing.wire, Function.comp_def]

-- ---------------------------------------------------------------------------
-- The writer and what it works from
-- ---------------------------------------------------------------------------

section
variable {φ : Type} {writer writer' : Writer φ} {outbound outbound' : Channel φ}
  {outcome : Option (Except Status Unit)} {m : Outgoing φ}

theorem Writer.outbound_of_next?
    (h : writer.next? outbound outcome = some (m, writer', outbound')) :
    outbound' = outbound ∨ ∃ frame, outbound.next? = some (some frame, outbound') := by
  cases writer with
  | streaming =>
    simp only [next?] at h
    split at h
    · rename_i hnext
      cases h
      exact .inr ⟨_, hnext⟩
    · rename_i hnext
      split at h <;> cases h
      exact .inl (Channel.eq_of_end hnext)
    · cases h
  | finishing rest =>
    cases rest <;> cases h
    exact .inl rfl
  | broken => cases h

theorem Writer.abandoned_of_next?
    (h : writer.next? outbound outcome = some (m, writer', outbound')) :
    outbound'.abandoned = outbound.abandoned := by
  obtain rfl | ⟨frame, hframe⟩ := Writer.outbound_of_next? h
  · rfl
  · rw [Channel.eq_of_next? hframe]
    rfl

end

structure Outlet (φ : Type) where
  writer : Writer φ
  written : List (Outgoing φ)
  outbound : Channel φ
  outcome : Option (Except Status Unit)

namespace Outlet

variable {φ : Type}

def next? (o : Outlet φ) : Option (Outgoing φ × Writer φ × Channel φ) :=
  o.writer.next? o.outbound o.outcome

/-- What a session that is not over does to its channel in going on. -/
inductive Goes (outbound : Channel φ) :
    List φ → Channel φ → Option (Except Status Unit) → Prop where
  | quiet : Goes outbound [] outbound none
  | sent {frame : φ} {outbound' : Channel φ} :
      outbound.send? frame = some (.ok outbound') → Goes outbound [frame] outbound' none
  | ended {frames : List φ} {outbound' : Channel φ} {result : Except Status Unit} :
      Goes outbound frames outbound' none → Goes outbound frames outbound'.ended (some result)

/-- What can happen, whether it is a write that fails, and what is sent. -/
inductive Step : Outlet φ → Bool → List φ → Outlet φ → Prop where
  | aside {o : Outlet φ} : Step o false [] o
  | went {writer : Writer φ} {written : List (Outgoing φ)} {outbound outbound' : Channel φ}
      {frames : List φ} {outcome : Option (Except Status Unit)} :
      Goes outbound frames outbound' outcome →
      Step ⟨writer, written, outbound, none⟩ false frames ⟨writer, written, outbound', outcome⟩
  | wrote {o : Outlet φ} {m : Outgoing φ} {writer : Writer φ} {outbound : Channel φ} :
      o.next? = some (m, writer, outbound) →
      Step o false [] ⟨writer, o.written ++ [m], outbound, o.outcome⟩
  | failed {o : Outlet φ} {m : Outgoing φ} {writer : Writer φ} {outbound : Channel φ} :
      o.next? = some (m, writer, outbound) →
      Step o true [] ⟨.broken, o.written, outbound.abandoned, o.outcome⟩

/-- How far the writer is in the whole that it has to write. -/
inductive Kept : List φ → Outlet φ → Prop where
  /-- The frames that are not written wait in the channel. -/
  | streaming {frames : List φ} {outbound : Channel φ} {outcome : Option (Except Status Unit)} :
      outbound.isEnded = outcome.isSome →
      Kept (frames ++ outbound.queued) ⟨.streaming, frames.map .frame, outbound, outcome⟩
  | finishing {sent : List φ} {written rest : List (Outgoing φ)} {outbound : Channel φ}
      {result : Except Status Unit} :
      written ++ rest = whole sent (some result) →
      Kept sent ⟨.finishing rest, written, outbound, some result⟩
  | broken {sent : List φ} {written : List (Outgoing φ)} {outbound : Channel φ}
      {outcome : Option (Except Status Unit)} :
      written <+: whole sent outcome → Kept sent ⟨.broken, written, outbound, outcome⟩

theorem written_isPrefix {sent : List φ} {o : Outlet φ} (h : Kept sent o) :
    o.written <+: whole sent o.outcome := by
  cases h with
  | streaming => exact ⟨_, by simp [whole]; rfl⟩
  | finishing heq => exact ⟨_, heq⟩
  | broken hpart => exact hpart

theorem next?_ending {outbound : Channel φ} (result : Except Status Unit)
    (hqueued : outbound.queued = []) (hended : outbound.isEnded = true) :
    ∃ m rest, (ending result : List (Outgoing φ)) = m :: rest ∧
      Writer.streaming.next? outbound (some result) = some (m, .finishing rest, outbound) := by
  have hnext : outbound.next? = some (none, outbound) := by
    simp [Channel.next?, hqueued, hended]
  cases result with
  | ok u => exact ⟨_, _, rfl, by simp [Writer.next?, hnext, ending]⟩
  | error status => exact ⟨_, _, rfl, by simp [Writer.next?, hnext, ending]⟩

/-- A writer that has not failed stands still exactly where everything is written. -/
theorem next?_eq_none_iff {sent : List φ} {o : Outlet φ} (h : Kept sent o)
    (hw : o.writer ≠ .broken) : o.next? = none ↔ o.written = whole sent o.outcome := by
  cases h with
  | @streaming frames outbound outcome hended =>
    cases hqueued : outbound.queued with
    | cons frame rest =>
      simp [next?, Writer.next?, Channel.next?, hqueued, whole]
    | nil =>
      cases outcome with
      | none =>
        have hlive : outbound.isEnded = false := by simpa using hended
        simp [next?, Writer.next?, Channel.next?, hqueued, hlive, whole]
      | some result =>
        obtain ⟨m, rest, heq, hnext⟩ := next?_ending result hqueued hended
        simp [next?, hnext, whole, heq]
  | @finishing _ written rest outbound result heq =>
    cases rest with
    | nil => simpa [next?, Writer.next?] using heq
    | cons m rest =>
      simp [next?, Writer.next?, ← heq]
  | broken => exact absurd rfl hw

theorem Kept.goes {sent frames : List φ} {writer : Writer φ} {written : List (Outgoing φ)}
    {outbound outbound' : Channel φ} {outcome : Option (Except Status Unit)}
    (h : Kept sent ⟨writer, written, outbound, none⟩)
    (hgoes : Goes outbound frames outbound' outcome) :
    Kept (sent ++ frames) ⟨writer, written, outbound', outcome⟩ := by
  induction hgoes with
  | quiet => simpa using h
  | @sent frame outbound' hsend =>
    cases h with
    | streaming hended =>
      rw [List.append_assoc, ← Channel.queued_of_send? hsend]
      exact .streaming (by rw [Channel.isEnded_of_send? hsend, hended])
    | broken hpart => exact .broken (by simpa [whole] using hpart.trans (by simp [whole]))
  | ended hgoes ih =>
    generalize sent ++ _ = all at ih ⊢
    cases ih with
    | streaming => exact @Kept.streaming _ _ (Channel.ended _) _ rfl
    | broken hpart => exact .broken (by simpa [whole] using hpart.trans (by simp [whole]))

theorem Kept.wrote {sent : List φ} {o : Outlet φ} {m : Outgoing φ} {writer : Writer φ}
    {outbound : Channel φ} (h : Kept sent o) (hnext : o.next? = some (m, writer, outbound)) :
    Kept sent ⟨writer, o.written ++ [m], outbound, o.outcome⟩ ∧ writer ≠ .broken := by
  cases h with
  | @streaming frames c outcome hended =>
    cases hqueued : c.queued with
    | cons frame rest =>
      obtain ⟨rfl, rfl, rfl⟩ : .frame frame = m ∧ .streaming = writer ∧
          { c with queued := rest } = outbound := by
        simpa [next?, Writer.next?, Channel.next?, hqueued] using hnext
      have hkept := @Kept.streaming _ (frames ++ [frame]) { c with queued := rest } _ hended
      exact ⟨by simpa using hkept, by simp⟩
    | nil =>
      cases outcome with
      | none =>
        have hlive : c.isEnded = false := by simpa using hended
        simp [next?, Writer.next?, Channel.next?, hqueued, hlive] at hnext
      | some result =>
        obtain ⟨m', rest, heq, hnext'⟩ := next?_ending result hqueued hended
        obtain ⟨rfl, rfl, rfl⟩ : m' = m ∧ .finishing rest = writer ∧ c = outbound := by
          simpa [next?, hnext'] using hnext
        exact ⟨.finishing (by simp [whole, heq]), by simp⟩
  | @finishing _ written rest c result heq =>
    cases rest with
    | nil => simp [next?, Writer.next?] at hnext
    | cons m' rest =>
      obtain ⟨rfl, rfl, rfl⟩ : m' = m ∧ .finishing rest = writer ∧ c = outbound := by
        simpa [next?, Writer.next?] using hnext
      exact ⟨.finishing (by simpa using heq), by simp⟩
  | broken => simp [next?, Writer.next?] at hnext

theorem Step.kept {sent frames : List φ} {o o' : Outlet φ} {isFailing : Bool}
    (h : Step o isFailing frames o') (hkept : Kept sent o) : Kept (sent ++ frames) o' := by
  cases h with
  | aside => simpa using hkept
  | went hgoes => exact hkept.goes hgoes
  | wrote hnext => simpa using (hkept.wrote hnext).1
  | failed hnext => simpa using Kept.broken (written_isPrefix hkept)

/-- A writer has failed by the step that fails, or before. -/
theorem Step.broken_iff {sent frames : List φ} {o o' : Outlet φ} {isFailing : Bool}
    (h : Step o isFailing frames o') (hkept : Kept sent o) :
    o'.writer = .broken ↔ o.writer = .broken ∨ isFailing = true := by
  cases h with
  | aside | went => simp
  | failed => simp
  | wrote hnext =>
    have hw : o.writer ≠ .broken := by
      intro hw
      simp [next?, hw, Writer.next?] at hnext
    simp [hw, (hkept.wrote hnext).2]

theorem Step.of_failed {frames : List φ} {o o' : Outlet φ} (h : Step o true frames o') :
    o'.writer = .broken ∧ o'.written = o.written := by
  cases h
  exact ⟨rfl, rfl⟩

theorem Step.of_broken {frames : List φ} {o o' : Outlet φ} {isFailing : Bool}
    (h : Step o isFailing frames o') (hw : o.writer = .broken) :
    o'.writer = .broken ∧ o'.written = o.written := by
  cases h with
  | aside | went => exact ⟨hw, rfl⟩
  | failed => exact ⟨rfl, rfl⟩
  | wrote hnext => simp [next?, hw, Writer.next?] at hnext

-- ---------------------------------------------------------------------------
-- Along a course
-- ---------------------------------------------------------------------------

section
variable {σ ε δ : Type} {M : Machine σ ε δ} {outlet : σ → Outlet φ} {frame? : δ → Option φ}
  {isFailing : ε → Bool} {start s : σ} {os : List ε} {deeds : List δ}

/-- What a client sees of a session that has sent these frames, whether or not a write has
failed. -/
structure Shown (toJson : φ → Json) (sent : List φ) (hasFailed : Bool) (o : Outlet φ) : Prop where
  written_isPrefix : o.written.map (Outgoing.wire toJson) <+:
    sent.map (fun frame => .text (toJson frame).render) ++ conclusion o.outcome
  /-- As long as no write has failed, more is written until everything is. -/
  complete : hasFailed = false → (o.next? = none ↔ o.written.map (Outgoing.wire toJson) =
    sent.map (fun frame => .text (toJson frame).render) ++ conclusion o.outcome)
  /-- What is behind the frames is behind all of them. -/
  in_order : ∃ frames rest, o.written = frames.map .frame ++ rest ∧ frames <+: sent ∧
    rest <+: o.outcome.elim [] ending ∧ (rest ≠ [] → frames = sent)
  stopped : hasFailed = true → o.next? = none

theorem Kept.shown {sent : List φ} {o : Outlet φ} {hasFailed : Bool} (toJson : φ → Json)
    (h : Kept sent o) (hw : o.writer = .broken ↔ hasFailed = true) :
    Shown toJson sent hasFailed o where
  written_isPrefix := by
    rw [← map_wire_whole]
    exact (written_isPrefix h).map _
  complete hnone := by
    rw [next?_eq_none_iff h (by simp [hw, hnone]), ← map_wire_whole]
    refine ⟨fun heq => by rw [heq], fun heq => ?_⟩
    exact (written_isPrefix h).eq_of_length (by simpa using congrArg List.length heq)
  in_order := by
    obtain ⟨unwritten, heq⟩ := written_isPrefix h
    obtain ⟨others, hframes, -⟩ | ⟨rest, hwritten, hending⟩ := List.append_eq_append_iff.mp heq
    · obtain ⟨frames, frames', rfl, hmap, -⟩ := List.map_eq_append_iff.mp hframes
      exact ⟨frames, [], by simp [hmap], by simp, by simp, by simp⟩
    · exact ⟨sent, rest, hwritten, by simp, ⟨_, hending.symm⟩, fun _ => rfl⟩
  stopped hfailed := by simp [next?, hw.mpr hfailed, Writer.next?]

variable (hstep : ∀ s o new t, M.occur s o = some (new, t) →
  Step (outlet s) (isFailing o) (new.filterMap frame?) (outlet t))
include hstep

theorem shown_of_course {capacity : Nat} (toJson : φ → Json)
    (hstart : outlet start = ⟨.streaming, [], { capacity }, none⟩)
    (h : M.course start os = some (deeds, s)) :
    Shown toJson (deeds.filterMap frame?) (os.any isFailing) (outlet s) := by
  have hkept : Kept (deeds.filterMap frame?) (outlet s) ∧
      ((outlet s).writer = .broken ↔ os.any isFailing = true) := by
    refine Machine.course_induction (P := fun os deeds s =>
      Kept (deeds.filterMap frame?) (outlet s) ∧
        ((outlet s).writer = .broken ↔ os.any isFailing = true)) ?_ ?_ h
    · rw [hstart]
      have hkept : Kept [] ⟨.streaming, [], { capacity }, none⟩ :=
        @Kept.streaming φ [] { capacity } none rfl
      exact ⟨hkept, by simp⟩
    · rintro os deeds v o new t - ⟨hkept, hbroken⟩ ho
      rw [List.filterMap_append]
      refine ⟨(hstep _ _ _ _ ho).kept hkept, ?_⟩
      rw [(hstep _ _ _ _ ho).broken_iff hkept, hbroken]
      simp
  exact hkept.1.shown toJson hkept.2

/-- Behind a write that fails, nothing is written. -/
theorem written_of_failed {before after : List ε} {o : ε} (ho : isFailing o = true)
    (h : M.course start (before ++ o :: after) = some (deeds, s)) :
    ∃ past v, M.course start before = some (past, v) ∧
      (outlet s).written = (outlet v).written := by
  obtain ⟨past, v, _, hbefore, hrest, -⟩ := Machine.course_append.mp h
  obtain ⟨new, v', rest, hoccur, hafter, -⟩ := Machine.course_cons.mp hrest
  refine ⟨past, v, hbefore, ?_⟩
  obtain ⟨hbroken, hwritten⟩ := (ho ▸ hstep _ _ _ _ hoccur : Step _ true _ _).of_failed
  rw [← hwritten]
  refine (Machine.course_induction (P := fun _ _ s => (outlet s).writer = .broken ∧
    (outlet s).written = (outlet v').written) ⟨hbroken, rfl⟩ ?_ hafter).2
  rintro _ _ u o new t - ⟨hu, hwritten⟩ hoccur
  obtain ⟨ht, hsame⟩ := (hstep _ _ _ _ hoccur).of_broken hu
  exact ⟨ht, hsame.trans hwritten⟩

end

end Outlet

def Move.isFailing : Move → Bool
  | .write isFailing => isFailing
  | _ => false

-- ---------------------------------------------------------------------------
-- Chat sessions
-- ---------------------------------------------------------------------------

namespace ChatConnection

inductive Occasion where
  | socket (move : Move)
  | cancel
  /-- A loop of the session may go on, with the answer to its call if there is one. -/
  | turn (loop : Chat.Loop) (minted now : Nat) (answer : Option (Except QueueFault QueueAnswer))

def Occasion.isFailing : Occasion → Bool
  | .socket move => move.isFailing
  | _ => false

def machine (p : Chat.Policy) (supply : IdSupply) :
    Machine (ChatConnection × Chat.Session) Occasion Chat.Deed where
  occur w
    | .socket move => (w.1.go? w.2 move).map fun w' => ([], w')
    | .cancel => some ([], (w.1, { w.2 with isCancelled := true }))
    | .turn loop minted now answer =>
      (w.2.go p supply minted now answer loop).map fun t =>
        (w.2.deedsWith w.1.id loop answer t, (w.1, t))

def outlet (w : ChatConnection × Chat.Session) : Outlet Chat.Response :=
  ⟨w.1.writer, w.1.written, w.2.outbound, w.2.outcome?⟩

def frame? : Chat.Deed → Option Chat.Response
  | .sent _ _ frame => some frame
  | .called _ _ => none

theorem goes_of_turn {p : Chat.Policy} {id : SessionId} {now : Nat} {loop : Chat.Loop}
    {s t : Chat.Session} {deeds : List Chat.Deed} (h : Chat.Turn p id now loop s deeds t) :
    Outlet.Goes s.outbound (deeds.filterMap frame?) t.outbound t.outcome? := by
  cases h with
  | refused _ hsend => exact .sent hsend
  | delivered _ _ hsend => exact .sent hsend
  | cleared => exact .ended .quiet
  | _ => exact .quiet

theorem step_of_go {c c' : ChatConnection} {s t : Chat.Session} {move : Move}
    (h : c.go? s move = some (c', t)) :
    Outlet.Step (outlet (c, s)) move.isFailing [] (outlet (c', t)) := by
  have haside : ∀ (s : Chat.Session) reader, outlet (c.withReader s reader) = outlet (c, s) := by
    intro s reader
    cases reader <;> rfl
  cases move with
  | receive m =>
    simp only [go?, receive?] at h
    split at h
    · split at h
      · simp at h
      · rw [← Option.some.inj h, haside]
        exact .aside
    · simp at h
  | forward =>
    simp only [go?, forward?] at h
    split at h
    · split at h
      · simp at h
      · split at h
        · simp at h
        · rw [← Option.some.inj h, haside]
          exact .aside
        · rw [← Option.some.inj h, haside]
          exact .aside
    · simp at h
  | write isFailing =>
    simp only [go?, write?, Option.map_eq_some_iff, Prod.exists] at h
    obtain ⟨m, writer, outbound, hnext, heq⟩ := h
    cases isFailing with
    | true =>
      obtain ⟨rfl, rfl⟩ := Prod.mk.inj heq
      exact .failed (o := outlet (c, s)) hnext
    | false =>
      obtain ⟨rfl, rfl⟩ := Prod.mk.inj heq
      exact .wrote (o := outlet (c, s)) hnext

theorem step_of_occur {p : Chat.Policy} {supply : IdSupply} (w : ChatConnection × Chat.Session)
    (o : Occasion) (new : List Chat.Deed) (w' : ChatConnection × Chat.Session)
    (h : (machine p supply).occur w o = some (new, w')) :
    Outlet.Step (outlet w) o.isFailing (new.filterMap frame?) (outlet w') := by
  cases o with
  | socket move =>
    simp only [machine, Option.map_eq_some_iff, Prod.mk.injEq] at h
    obtain ⟨w', hgo, rfl, rfl⟩ := h
    exact step_of_go hgo
  | cancel =>
    simp only [machine, Option.some.injEq, Prod.mk.injEq] at h
    obtain ⟨rfl, rfl⟩ := h
    exact .aside
  | turn loop minted now answer =>
    simp only [machine, Option.map_eq_some_iff, Prod.mk.injEq] at h
    obtain ⟨t, hgo, rfl, rfl⟩ := h
    have hturn : Chat.Turn p w.1.id now loop w.2 (w.2.deedsWith w.1.id loop answer t) t :=
      Chat.turn_of_answer hgo
    unfold outlet
    rw [hturn.outcome?_eq_none]
    exact .went (goes_of_turn hturn)

end ChatConnection

-- ---------------------------------------------------------------------------
-- Subscriptions
-- ---------------------------------------------------------------------------

namespace NotesConnection

inductive Occasion where
  | socket (move : Move)
  | cancel
  | turn (now : Nat) (answer : Option (Except QueueFault QueueAnswer))

def Occasion.isFailing : Occasion → Bool
  | .socket move => move.isFailing
  | _ => false

def machine (p : Notify.Policy) :
    Machine (NotesConnection × Notify.Subscription) Occasion Notify.Deed where
  occur w
    | .socket move => (w.1.go? w.2 move).map fun w' => ([], w')
    | .cancel => some ([], (w.1, { w.2 with isCancelled := true }))
    | .turn now answer =>
      (w.2.go p now answer).map fun t => (w.2.deedsWith answer t, (w.1, t))

def outlet (w : NotesConnection × Notify.Subscription) : Outlet Notify.Frame :=
  ⟨w.1.writer, w.1.written, w.2.outbound, w.2.outcome?⟩

def frame? : Notify.Deed → Option Notify.Frame
  | .sent frame => some frame
  | .called _ _ => none

theorem goes_arrived {p : Notify.Policy} {s : Notify.Subscription} {frames : List Notify.Frame}
    {outbound : Channel Notify.Frame} {stage : Notify.Stage}
    (h : Outlet.Goes s.outbound frames outbound none) :
    Outlet.Goes s.outbound frames ({ s with outbound }.arrived p (.ok stage)).outbound
      ({ s with outbound }.arrived p (.ok stage)).outcome? := by
  cases stage with
  | finished => exact .ended h
  | _ => exact h

theorem goes_of_turn {p : Notify.Policy} {now : Nat} {s t : Notify.Subscription}
    {deeds : List Notify.Deed} (h : Notify.Turn p now s deeds t) :
    Outlet.Goes s.outbound (deeds.filterMap frame?) t.outbound t.outcome? := by
  cases h with
  | cancelled | uncounted | unheard | unpopped => exact .ended .quiet
  | counted | paced | popped => exact .quiet
  | announced _ hsend | delivered _ hsend => exact goes_arrived (.sent hsend)
  | foundNone => exact goes_arrived .quiet

theorem step_of_go {c c' : NotesConnection} {s t : Notify.Subscription} {move : Move}
    (h : c.go? s move = some (c', t)) :
    Outlet.Step (outlet (c, s)) move.isFailing [] (outlet (c', t)) := by
  cases move with
  | receive m =>
    simp only [go?, receive?] at h
    split at h
    · simp at h
    · split at h
      · obtain ⟨rfl, rfl⟩ := Prod.mk.inj (Option.some.inj h)
        exact .aside
      · obtain ⟨rfl, rfl⟩ := Prod.mk.inj (Option.some.inj h)
        exact .aside
  | forward => simp [go?] at h
  | write isFailing =>
    simp only [go?, write?, Option.map_eq_some_iff, Prod.exists] at h
    obtain ⟨m, writer, outbound, hnext, heq⟩ := h
    cases isFailing with
    | true =>
      obtain ⟨rfl, rfl⟩ := Prod.mk.inj heq
      exact .failed (o := outlet (c, s)) hnext
    | false =>
      obtain ⟨rfl, rfl⟩ := Prod.mk.inj heq
      exact .wrote (o := outlet (c, s)) hnext

theorem step_of_occur {p : Notify.Policy} (w : NotesConnection × Notify.Subscription)
    (o : Occasion) (new : List Notify.Deed) (w' : NotesConnection × Notify.Subscription)
    (h : (machine p).occur w o = some (new, w')) :
    Outlet.Step (outlet w) o.isFailing (new.filterMap frame?) (outlet w') := by
  cases o with
  | socket move =>
    simp only [machine, Option.map_eq_some_iff, Prod.mk.injEq] at h
    obtain ⟨w', hgo, rfl, rfl⟩ := h
    exact step_of_go hgo
  | cancel =>
    simp only [machine, Option.some.injEq, Prod.mk.injEq] at h
    obtain ⟨rfl, rfl⟩ := h
    exact .aside
  | turn now answer =>
    simp only [machine, Option.map_eq_some_iff, Prod.mk.injEq] at h
    obtain ⟨t, hgo, rfl, rfl⟩ := h
    have hturn := Notify.turn_of_answer hgo
    unfold outlet
    rw [hturn.outcome?_eq_none]
    exact .went (goes_of_turn hturn)

end NotesConnection

/-- What the client of a session reads, at any point of any course of the session and its
connection: a first part of the texts of the frames that the session has sent, in their order, and
then of the status of a failed session and of the closing message. It is all of it when nothing more
can be written, unless a write has failed; behind a write that fails, nothing is written. -/
theorem client_reads :
    (∀ p supply id complaint inbound capacity isCancelled begun os deeds c s,
      (ChatConnection.machine p supply).course
        ({ id, complaint }, .started p inbound { capacity } isCancelled begun) os =
          some (deeds, (c, s)) →
      Outlet.Shown Chat.Response.toJson (deeds.filterMap ChatConnection.frame?)
        (os.any ChatConnection.Occasion.isFailing) (ChatConnection.outlet (c, s)) ∧
      ∀ before o after, os = before ++ o :: after → o.isFailing = true →
        ∃ past c' s', (ChatConnection.machine p supply).course
          ({ id, complaint }, .started p inbound { capacity } isCancelled begun) before =
            some (past, (c', s')) ∧ c.written = c'.written) ∧
    (∀ p key user capacity isCancelled os deeds c s,
      (NotesConnection.machine p).course
        ({ key }, .started user { capacity } isCancelled) os = some (deeds, (c, s)) →
      Outlet.Shown Notify.Frame.toJson (deeds.filterMap NotesConnection.frame?)
        (os.any NotesConnection.Occasion.isFailing) (NotesConnection.outlet (c, s)) ∧
      ∀ before o after, os = before ++ o :: after → o.isFailing = true →
        ∃ past c' s', (NotesConnection.machine p).course
          ({ key }, .started user { capacity } isCancelled) before = some (past, (c', s')) ∧
            c.written = c'.written) := by
  constructor
  · intro p supply id complaint inbound capacity isCancelled begun os deeds c s h
    refine ⟨Outlet.shown_of_course ChatConnection.step_of_occur _ rfl h, ?_⟩
    rintro before o after rfl ho
    obtain ⟨past, ⟨c', s'⟩, hbefore, hwritten⟩ :=
      Outlet.written_of_failed ChatConnection.step_of_occur ho h
    exact ⟨past, c', s', hbefore, hwritten⟩
  · intro p key user capacity isCancelled os deeds c s h
    refine ⟨Outlet.shown_of_course NotesConnection.step_of_occur _ rfl h, ?_⟩
    rintro before o after rfl ho
    obtain ⟨past, ⟨c', s'⟩, hbefore, hwritten⟩ :=
      Outlet.written_of_failed NotesConnection.step_of_occur ho h
    exact ⟨past, c', s', hbefore, hwritten⟩

/-- A request is refused, the session is cancelled, and the closing message cannot be written. -/
def refusedThenCancelled : List ChatConnection.Occasion :=
  [.turn .intake 0 0 none, .turn .intake 0 0 none, .cancel, .turn .intake 0 0 none,
    .turn .closing 0 0 (some (.ok .done)), .socket (.write false), .socket (.write false),
    .socket (.write true)]

/-- The events that wait are counted, and then the subscription is cancelled. -/
def countedThenCancelled : List NotesConnection.Occasion :=
  [.turn 0 (some (.ok (.number 2))), .turn 0 none, .socket (.write false), .cancel, .turn 0 none,
    .socket (.write false), .socket (.write false)]

def cancelledText : String :=
  "\x7b\"error\":\x7b\"code\":1,\"message\":\"request cancelled\",\"details\":[" ++
    "\x7b\"code\":\"INTERNAL\",\"reason\":\"request cancelled\"\x7d]\x7d\x7d"

def refusedText : String :=
  "\x7b\"status\":\x7b\"code\":3,\"message\":\"text: empty text\",\"details\":[" ++
    "\x7b\"code\":\"INVALID_TEXT\",\"reason\":\"empty text\"\x7d]\x7d\x7d"

theorem client_reads_cancelled :
    (∃ deeds c s status, (ChatConnection.machine Relay.brisk.chat .counting).course
        ({ id := ⟨"desk"⟩ }, .started Relay.brisk.chat
          { capacity := 4, queued := [.ok ⟨⟨"", "   "⟩⟩] } { capacity := 4 } false 0)
        refusedThenCancelled = some (deeds, (c, s)) ∧
      c.written = [.frame (.status status),
        .terminal (Relay.brisk.chat.rulebook.statusOf .cancelled)] ∧
      c.written.map (Outgoing.wire Chat.Response.toJson) =
        [.text refusedText, .text cancelledText] ∧
      Outlet.Shown Chat.Response.toJson (deeds.filterMap ChatConnection.frame?) true
        (ChatConnection.outlet (c, s))) ∧
    ∃ deeds c s, (NotesConnection.machine Relay.brisk.notify).course
        ({ key := 1 }, .started ⟨1⟩ { capacity := 4 } false) countedThenCancelled =
          some (deeds, (c, s)) ∧
      c.written = [.frame (.ofCount 2),
        .terminal (Relay.brisk.notify.rulebook.statusOf .cancelled), .close 1011] ∧
      c.written.map (Outgoing.wire Notify.Frame.toJson) =
        [.text "\x7b\"unread\":\x7b\"events\":2\x7d\x7d", .text cancelledText, .close 1011] ∧
      Outlet.Shown Notify.Frame.toJson (deeds.filterMap NotesConnection.frame?) false
        (NotesConnection.outlet (c, s)) := by
  constructor
  · have h : (ChatConnection.machine Relay.brisk.chat .counting).course
        ({ id := ⟨"desk"⟩ }, .started Relay.brisk.chat
          { capacity := 4, queued := [.ok ⟨⟨"", "   "⟩⟩] } { capacity := 4 } false 0)
        refusedThenCancelled = some (_, (_, _)) := rfl
    exact ⟨_, _, _, _, h, rfl, by decide +kernel, (client_reads.1 _ _ _ _ _ _ _ _ _ _ _ _ h).1⟩
  · have h : (NotesConnection.machine Relay.brisk.notify).course
        ({ key := 1 }, .started ⟨1⟩ { capacity := 4 } false) countedThenCancelled =
          some (_, (_, _)) := rfl
    exact ⟨_, _, _, h, rfl, by decide +kernel, (client_reads.2 _ _ _ _ _ _ _ _ _ h).1⟩

end Socket

end NoteRelay
