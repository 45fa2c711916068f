import NoteRelay.Proofs.Cancellation
import NoteRelay.Proofs.Chat.Isolation

/-!
# The lifetime of the relay and those under it

Every session and every subscription has a lifetime of its own under that of the relay. A
cancellation flows down and nowhere else: a session is cancelled by its own cancellation and by that
of the relay (`isChatCancelled_run`, `isSubscriptionCancelled_run`), and nothing but what happens to
it tells where it gets (`chat_of_alone`, `subscription_of_happenings`). The cancellation of the
relay ends everything that runs (`chat_ends`, `subscription_ends`).

What happens to a session along a run is listed from before it starts, so that sessions which start
later are meant as well.
-/

namespace NoteRelay

-- ---------------------------------------------------------------------------
-- From before the start
-- ---------------------------------------------------------------------------

inductive Happening (σ ε : Type) where
  | starts (s : σ)
  | meets (o : ε)

namespace Machine

variable {σ ε δ : Type}

/-- A machine that is not there until it starts. -/
def fromStart (M : Machine σ ε δ) : Machine (Option σ) (Happening σ ε) δ where
  occur
    | none, .starts s => some ([], some s)
    | some s, .meets o => (M.occur s o).map fun r => (r.1, some r.2)
    | _, _ => none

variable {M : Machine σ ε δ} {s t : σ} {os : List (Happening σ ε)} {ds : List δ} {o : Option σ}

theorem course_of_there (h : M.fromStart.course (some s) os = some (ds, o)) :
    ∃ t os', o = some t ∧ M.course s os' = some (ds, t) := by
  refine Machine.course_induction
    (P := fun _ ds o => ∃ t os', o = some t ∧ M.course s os' = some (ds, t)) ⟨s, [], rfl, rfl⟩ ?_ h
  rintro os ds _ b new o - ⟨t, os', rfl, hcourse⟩ hoccur
  cases b with
  | starts => simp [fromStart] at hoccur
  | meets b =>
    simp only [fromStart, Option.map_eq_some_iff, Prod.mk.injEq, Prod.exists] at hoccur
    obtain ⟨_, t', hoccur, rfl, rfl⟩ := hoccur
    exact ⟨t', os' ++ [b], rfl, course_append_single.mpr ⟨ds, t, _, hcourse, hoccur, rfl⟩⟩

theorem isSome_of_course {o' : Option σ} (h : M.fromStart.course o os = some (ds, o'))
    (ho : o.isSome = true) : o'.isSome = true := by
  obtain ⟨s, rfl⟩ := Option.isSome_iff_exists.mp ho
  obtain ⟨t, -, rfl, -⟩ := course_of_there h
  rfl

theorem course_fromStart (h : M.fromStart.course o os = some (ds, some t)) :
    ∃ s os', M.course s os' = some (ds, t) ∧ (o = some s ∨ o = none ∧ .starts s ∈ os) := by
  cases o with
  | some s =>
    obtain ⟨_, os', ⟨⟩, hcourse⟩ := course_of_there h
    exact ⟨s, os', hcourse, .inl rfl⟩
  | none =>
    cases os with
    | nil => simp [course] at h
    | cons b os =>
      obtain ⟨new, v, rest, hoccur, hcourse, rfl⟩ := course_cons.mp h
      cases b with
      | meets => simp [fromStart] at hoccur
      | starts s =>
        simp only [fromStart, Option.some.injEq, Prod.mk.injEq] at hoccur
        obtain ⟨rfl, rfl⟩ := hoccur
        obtain ⟨_, os', ⟨⟩, hcourse⟩ := course_of_there hcourse
        exact ⟨s, os', hcourse, .inr ⟨rfl, List.mem_cons_self⟩⟩

end Machine

-- ---------------------------------------------------------------------------
-- Sessions that are about to end
-- ---------------------------------------------------------------------------

namespace Chat.Session

/-- The session is over with an outcome, or a loop of it can go on as soon as its call is answered,
if it waits for one; and whatever the answer and the time are, this leads there. -/
inductive Ends (p : Policy) (supply : IdSupply) (id : SessionId) (outcome : Except Status Unit) :
    Session → Prop where
  | over {s : Session} : s.outcome? = some outcome → Ends p supply id outcome s
  | next {s : Session} (loop : Loop) :
      (∀ minted now answer, ((s.awaits id loop).isSome = true → answer.isSome = true) →
        (s.go p supply minted now answer loop).isSome = true) →
      (∀ minted now answer t, s.go p supply minted now answer loop = some t →
        Ends p supply id outcome t) →
      Ends p supply id outcome s

/-- How a session ends that is cancelled: as cancelled, unless its end is decided. -/
def endIfCancelled (p : Policy) (s : Session) : Except Status Unit :=
  match s.phase with
  | .running _ _ => .error (p.rulebook.statusOf .cancelled)
  | .closing result => result.mapError p.rulebook.statusOf
  | .closed outcome => outcome

section
variable {p : Policy} {supply : IdSupply} {id : SessionId} {s t : Session} {os : List Occasion}
  {past acts : List Act}

theorem ends_of_closing {result : Except Failure Unit} (hs : s.phase = .closing result) :
    s.Ends p supply id (result.mapError p.rulebook.statusOf) := by
  have hgo (minted now : Nat) (answer : Option (Except QueueFault QueueAnswer)) :
      s.go p supply minted now answer .closing =
        answer.map fun _ => s.finished (result.mapError p.rulebook.statusOf) := by
    simp [go, hs]
  refine .next .closing (fun minted now answer hanswer => ?_) fun minted now answer t ht => ?_
  · rw [hgo, Option.isSome_map]
    exact hanswer (by simp [awaits, hs])
  · rw [hgo, Option.map_eq_some_iff] at ht
    obtain ⟨_, -, rfl⟩ := ht
    exact .over rfl

theorem Ending.ends {result : Except Failure Unit} (h : Ending p id result acts t) :
    t.Ends p supply id (result.mapError p.rulebook.statusOf) := by
  cases h with
  | clearing hphase => exact ends_of_closing hphase
  | cleared hphase => exact .over (by simp [outcome?, hphase])

theorem CutShort.ends {i : Intake} {d : Delivery} (h : CutShort p id s acts t)
    (hs : s.phase = .running i d) (hstage : d.stage ≠ .finished) :
    t.Ends p supply id (.error (p.rulebook.statusOf .cancelled)) := by
  cases h with
  | seen hending => exact hending.ends
  | unseen hphase hc =>
    have hgo minted now answer :
        t.go p supply minted now answer .delivery =
          some { t with phase := .closing (.error .cancelled) } :=
      go_of_cancelled answer (hphase.trans hs) hstage hc
    refine .next .delivery (fun minted now answer _ => by rw [hgo]; rfl) ?_
    intro minted now answer t' ht'
    obtain rfl := Option.some.inj ((hgo minted now answer).symm.trans ht')
    exact @ends_of_closing p supply id _ (.error .cancelled) rfl

theorem outcome?_of_course {outcome : Except Status Unit} (hs : s.outcome? = some outcome)
    (h : (machine p supply id).course s os = some (acts, t)) : t.outcome? = some outcome := by
  refine Machine.course_induction (P := fun _ _ t => t.outcome? = some outcome) hs ?_ h
  intro os acts v o new t _ hv hoccur
  obtain ⟨move, -, -, hm⟩ | ⟨loop, _, _, answer, -, -, hturn⟩ := turn_of_occur hoccur
  · rwa [outcome?, phase_clientMove hm]
  · simp [hturn.outcome?_eq_none] at hv

/-- A session that is cancelled gets to its end on every course, and to no other one. -/
theorem ends_of_course {inbound : Channel Item} {outbound : Channel Response} {isCancelled : Bool}
    {start : Nat} {before : List Occasion}
    (hbefore : (machine p supply id).course (.started p inbound outbound isCancelled start) before =
      some (past, s))
    (hc : s.isCancelled = true) (h : (machine p supply id).course s os = some (acts, t)) :
    t.Ends p supply id (s.endIfCancelled p) := by
  unfold endIfCancelled
  cases hs : s.phase with
  | running i d => exact (cutShort hs hc h).ends hs (stage_ne_finished hbefore i d hs)
  | closing result => exact (ending hs h).1.ends
  | closed outcome => exact .over (outcome?_of_course (by simp [outcome?, hs]) h)

end

end Chat.Session

namespace Notify.Subscription

/-- The subscription is over with an outcome, or whatever comes, its next turn ends it so. -/
def Ends (p : Policy) (outcome : Except Status Unit) (s : Subscription) : Prop :=
  s.outcome? = some outcome ∨
    s.awaits = none ∧ ∀ now answer, ∃ t, s.go p now answer = some t ∧ t.outcome? = some outcome

def endIfCancelled (p : Policy) (s : Subscription) : Except Status Unit :=
  s.outcome?.getD (.error (p.rulebook.statusOf .cancelled))

section
variable {p : Policy} {s t : Subscription} {os : List Occasion} {past done : List Deed}

theorem endIfCancelled_of_live (h : s.outcome? = none) :
    s.endIfCancelled p = .error (p.rulebook.statusOf .cancelled) := by
  rw [endIfCancelled, h]
  rfl

theorem outcome?_of_course {outcome : Except Status Unit} (hs : s.outcome? = some outcome)
    (h : (machine p).course s os = some (done, t)) : t.outcome? = some outcome := by
  refine Machine.course_induction (P := fun _ _ t => t.outcome? = some outcome) hs ?_ h
  intro os done v o new t _ hv hoccur
  obtain ⟨move, -, -, hm⟩ | ⟨_, _, -, hturn⟩ := turn_of_occur hoccur
  · rwa [outcome?, (clientMove_cases hm).2]
  · simp [hturn.outcome?_eq_none] at hv

theorem ends_of_course {user : UserId} {outbound : Channel Frame} {isCancelled : Bool}
    {before : List Occasion}
    (hbefore : (machine p).course (.started user outbound isCancelled) before = some (past, s))
    (hc : s.isCancelled = true) (h : (machine p).course s os = some (done, t)) :
    t.Ends p (s.endIfCancelled p) := by
  cases hs : s.outcome? with
  | some outcome =>
    rw [endIfCancelled, hs]
    exact .inl (outcome?_of_course hs h)
  | none =>
    rw [endIfCancelled_of_live hs]
    obtain ⟨-, ⟨hphase, hlive⟩ | hclosed⟩ := cutShort hc h
    · have hne := phase_ne_finished hbefore
      cases hrunning : s.phase with
      | closed outcome => simp [outcome?, hrunning] at hs
      | running stage =>
        refine .inr ⟨(awaits_eq_none (.inl hlive)).1, fun now answer => ?_⟩
        exact ⟨_, go_of_cancelled answer (hphase.trans hrunning) (hphase ▸ hne) hlive, rfl⟩
    · exact .inl (by simp [outcome?, hclosed])

end

end Notify.Subscription

namespace Relay

open Chat (Session)
open Notify (Subscription)

/-- What there is on the moves of a run, one after the other. -/
def collect {α : Type} (on : Relay → Move → List α) (u : Setup) (w : Relay) : List Move → List α
  | [] => []
  | m :: rest =>
    match w.step u m with
    | none => []
    | some w' => on w m ++ w'.collect on u rest

section
variable {u : Setup} {w w' v v' : Relay} {m : Move} {moves moves' : List Move}

theorem course_of_run {σ ε δ : Type} {M : Machine σ ε δ} {part : Relay → σ}
    {on : Relay → Move → List ε}
    (hstep : ∀ w m w', w.step u m = some w' → ∃ ds, M.course (part w) (on w m) = some (ds, part w'))
    (hrun : w.run u moves = some v) :
    ∃ ds, M.course (part w) (w.collect on u moves) = some (ds, part v) := by
  induction moves generalizing w with
  | nil =>
    obtain rfl := Option.some.inj hrun
    exact ⟨[], rfl⟩
  | cons m rest ih =>
    simp only [run, Option.bind_eq_some_iff] at hrun
    obtain ⟨w₁, hm, hrest⟩ := hrun
    obtain ⟨new, hnew⟩ := hstep w m w₁ hm
    obtain ⟨ds, hds⟩ := ih hrest
    refine ⟨new ++ ds, ?_⟩
    simp only [collect, hm]
    exact Machine.course_append.mpr ⟨new, part w₁, ds, hnew, hds, rfl⟩

/-- What only some moves bring about, and none ends, holds after a run with one of them. -/
theorem holds_run {P : Relay → Prop} {brings : Move → Prop}
    (hstep : ∀ w m w', w.step u m = some w' → (P w' ↔ P w ∨ brings m))
    (hrun : w.run u moves = some v) : P v ↔ P w ∨ ∃ m ∈ moves, brings m := by
  induction moves generalizing w with
  | nil =>
    obtain rfl := Option.some.inj hrun
    simp
  | cons m rest ih =>
    simp only [run, Option.bind_eq_some_iff] at hrun
    obtain ⟨w', hm, hrest⟩ := hrun
    rw [ih hrest, hstep w m w' hm, or_assoc]
    simp

theorem isShutDown_step (h : w.step u m = some w') :
    w'.isShutDown = true ↔ w.isShutDown = true ∨ m = .shutDown := by
  cases m with
  | pass | push | publish | shutDown =>
    simp only [step, Option.some.injEq] at h
    subst h
    simp
  | converse =>
    simp only [step, converse] at h
    split at h <;> simp only [Option.some.injEq, reduceCtorEq] at h
    subst h
    simp
  | chatClient =>
    simp only [step, withChat, Option.map_eq_some_iff] at h
    obtain ⟨t, -, rfl⟩ := h
    simp
  | chat =>
    obtain ⟨s, t, -, -, rfl⟩ := goChat_eq_some.mp h
    simp
  | subscribe =>
    simp only [step, subscribe] at h
    split at h <;> simp only [Option.some.injEq, reduceCtorEq] at h
    subst h
    simp
  | subscriber =>
    simp only [step, withSubscription, Option.map_eq_some_iff] at h
    obtain ⟨t, -, rfl⟩ := h
    simp
  | subscription =>
    obtain ⟨s, t, -, -, rfl⟩ := goSubscription_eq_some.mp h
    simp

/-- What there is on a run is there on one of its moves, when the relay is shut down if it was at
the beginning. -/
theorem exists_of_mem_collect {α : Type} {on : Relay → Move → List α} {a : α}
    (h : a ∈ w.collect on u moves) :
    ∃ v m, a ∈ on v m ∧ (w.isShutDown = true → v.isShutDown = true) := by
  induction moves generalizing w with
  | nil => simp [collect] at h
  | cons m rest ih =>
    simp only [collect] at h
    split at h
    · simp at h
    · rename_i w' hstep
      obtain hnow | hlater := List.mem_append.mp h
      · exact ⟨w, m, hnow, fun hw => hw⟩
      · obtain ⟨v, m', ha, hv⟩ := ih hlater
        exact ⟨v, m', ha, fun hw => hv ((isShutDown_step hstep).mpr (.inl hw))⟩

end

-- ---------------------------------------------------------------------------
-- Chat sessions
-- ---------------------------------------------------------------------------

def chatHappenings (u : Setup) (id : SessionId) (w : Relay) :
    Move → List (Happening Session Chat.Occasion)
  | .converse id' inboundCapacity outboundCapacity =>
    if id' = id then
      [.starts (.started u.chat { capacity := inboundCapacity } { capacity := outboundCapacity }
        w.isShutDown w.now)]
    else []
  | .chatClient id' move => if id' = id then [.meets (.outside move)] else []
  | .chat id' loop interference =>
    if id' = id then
      (w.chats.get? id).toList.map fun s =>
        .meets (.turn loop w.mintedIds w.now
          (w.queues.answerAny interference (s.awaits id loop)).1)
    else []
  | .shutDown => (w.chats.get? id).toList.map fun _ => .meets (.outside .cancel)
  | _ => []

def isChatCancelled (w : Relay) (id : SessionId) : Bool :=
  match w.chats.get? id with
  | some s => s.isCancelled
  | none => w.isShutDown

section
variable {u : Setup} {w w' v v' : Relay} {m : Move} {moves moves' : List Move} {id : SessionId}

theorem withCapacity?_eq_some {α : Type} {capacity : Nat} {c : Channel α}
    (h : Channel.withCapacity? capacity = some c) : c = { capacity } := by
  unfold Channel.withCapacity? at h
  split at h <;> cases h
  rfl

theorem chatHappenings_of_unconcerned (hm : m.concerns id = false) :
    w.chatHappenings u id m = [] := by
  cases m with
  | pass | shutDown => simp [Move.concerns] at hm
  | converse id' | chatClient id' | chat id' =>
    have hid : id' ≠ id := by simpa [Move.concerns] using hm
    simp [chatHappenings, hid]
  | push | publish | subscribe | subscriber | subscription => rfl

theorem chat_course_step (h : w.step u m = some w') :
    ∃ acts, (Session.machine u.chat u.supply id).fromStart.course (w.chats.get? id)
      (w.chatHappenings u id m) = some (acts, w'.chats.get? id) := by
  cases hm : m.concerns id with
  | false => exact ⟨[], by rw [chatHappenings_of_unconcerned hm, (unconcerned hm h).session]; rfl⟩
  | true =>
    cases m with
    | push | publish | subscribe | subscriber | subscription => simp [Move.concerns] at hm
    | pass ms =>
      obtain rfl := Option.some.inj h
      exact ⟨[], rfl⟩
    | shutDown =>
      obtain rfl := Option.some.inj h
      refine ⟨[], ?_⟩
      simp only [Table.get?_mapValues, chatHappenings]
      cases w.chats.get? id <;> rfl
    | converse id' inboundCapacity outboundCapacity =>
      obtain rfl : id' = id := by simpa [Move.concerns] using hm
      simp only [step, converse] at h
      split at h <;> simp only [Option.some.injEq, reduceCtorEq] at h
      rename_i inbound outbound hnone _ hin hout
      subst h
      obtain rfl := withCapacity?_eq_some hin
      obtain rfl := withCapacity?_eq_some hout
      exact ⟨[], by simp [chatHappenings, hnone, Table.get?_insert, Machine.course,
        Machine.fromStart]⟩
    | chatClient id' move =>
      obtain rfl : id' = id := by simpa [Move.concerns] using hm
      simp only [step, withChat, Option.map_eq_some_iff, Option.bind_eq_some_iff] at h
      obtain ⟨t, ⟨s, hs, hmove⟩, rfl⟩ := h
      exact ⟨[], by simp [chatHappenings, hs, hmove, Table.get?_insert, Machine.course,
        Machine.fromStart, Session.machine]⟩
    | chat id' loop interference =>
      obtain rfl : id' = id := by simpa [Move.concerns] using hm
      obtain ⟨s, t, hs, hgo, rfl⟩ := goChat_eq_some.mp h
      refine ⟨s.acts id' loop (w.queues.answerAny interference (s.awaits id' loop)).1 t, ?_⟩
      simp [chatHappenings, hs, hgo, Table.get?_insert, Machine.course, Machine.fromStart,
        Session.machine]

theorem chat_course (id : SessionId) (hrun : w.run u moves = some v) :
    ∃ acts, (Session.machine u.chat u.supply id).fromStart.course (w.chats.get? id)
      (w.collect (chatHappenings u id) u moves) = some (acts, v.chats.get? id) :=
  course_of_run (fun _ _ _ => chat_course_step) hrun

theorem alone_append : alone id (moves ++ moves') = alone id moves ++ alone id moves' :=
  List.filter_append ..

theorem handed_append (hrun : w.run u moves = some v) :
    w.handed u id (moves ++ moves') = w.handed u id moves ++ v.handed u id moves' := by
  induction moves generalizing w with
  | nil =>
    obtain rfl := Option.some.inj hrun
    rfl
  | cons m rest ih =>
    simp only [run, Option.bind_eq_some_iff] at hrun
    obtain ⟨w', hm, hrest⟩ := hrun
    simp [handed, hm, ih hrest]

/-- Nothing but what happens to a session, and the identities that it is handed, tells where it
gets. The queues may have been used by anybody else. -/
theorem chat_of_alone (hrun : (started u).run u moves = some v)
    (hrun' : (started u).run u moves' = some v') (hmoves : alone id moves = alone id moves')
    (hids : (started u).handed u id moves = (started u).handed u id moves') :
    v.chats.get? id = v'.chats.get? id := by
  -- Both runs are mirrored by that of the session alone.
  obtain ⟨x, hx, hmirrors, -⟩ :=
    Mirrors.run ((started u).handed u id moves) (Mirrors.started u u id) hrun rfl
  obtain ⟨x', hx', hmirrors', -⟩ :=
    Mirrors.run ((started u).handed u id moves) (Mirrors.started u u id) hrun' hids
  rw [hmoves, hx'] at hx
  obtain rfl := Option.some.inj hx
  exact hmirrors.session.symm.trans hmirrors'.session

theorem started_of_chatHappenings {s : Session}
    (h : .starts s ∈ w.collect (chatHappenings u id) u moves) :
    ∃ inbound outbound isCancelled now,
      s = .started u.chat inbound outbound isCancelled now ∧
        (w.isShutDown = true → isCancelled = true) := by
  obtain ⟨v, m, hs, hv⟩ := exists_of_mem_collect h
  cases m with
  | converse id' inboundCapacity outboundCapacity =>
    simp only [chatHappenings, List.mem_ite_nil_right, List.mem_singleton] at hs
    obtain ⟨-, ⟨⟩⟩ := hs
    exact ⟨_, _, _, _, rfl, hv⟩
  | chat | shutDown | chatClient => simp [chatHappenings] at hs
  | pass | push | publish | subscribe | subscriber | subscription => simp [chatHappenings] at hs

theorem isChatCancelled_step (h : w.step u m = some w') :
    w'.isChatCancelled id = true ↔
      w.isChatCancelled id = true ∨ m = .chatClient id .cancel ∨ m = .shutDown := by
  cases hm : m.concerns id with
  | false =>
    have hun := unconcerned hm h
    have hne : m ≠ .chatClient id .cancel ∧ m ≠ .shutDown := by
      constructor <;> rintro rfl <;> simp [Move.concerns] at hm
    simp [isChatCancelled, hun.session, hun.isShutDown, hne]
  | true =>
    cases m with
    | push | publish | subscribe | subscriber | subscription => simp [Move.concerns] at hm
    | pass ms =>
      obtain rfl := Option.some.inj h
      simp [isChatCancelled]
    | shutDown =>
      obtain rfl := Option.some.inj h
      simp only [isChatCancelled, Table.get?_mapValues]
      cases w.chats.get? id <;> simp
    | converse id' inboundCapacity outboundCapacity =>
      obtain rfl : id' = id := by simpa [Move.concerns] using hm
      simp only [step, converse] at h
      split at h <;> simp only [Option.some.injEq, reduceCtorEq] at h
      rename_i hnone _ _ _
      subst h
      simp [isChatCancelled, hnone, Table.get?_insert, Session.started]
    | chatClient id' move =>
      obtain rfl : id' = id := by simpa [Move.concerns] using hm
      simp only [step, withChat, Option.map_eq_some_iff, Option.bind_eq_some_iff] at h
      obtain ⟨t, ⟨s, hs, hmove⟩, rfl⟩ := h
      simp [isChatCancelled, hs, Table.get?_insert, Session.isCancelled_clientMove hmove]
    | chat id' loop interference =>
      obtain rfl : id' = id := by simpa [Move.concerns] using hm
      obtain ⟨s, t, hs, hgo, rfl⟩ := goChat_eq_some.mp h
      have hturn : Chat.Turn u.chat id' w.now loop s _ t := Chat.turn_of_answer hgo
      simp [isChatCancelled, hs, Table.get?_insert, hturn.isCancelled_eq]

theorem isChatCancelled_run (id : SessionId) (hrun : w.run u moves = some v) :
    v.isChatCancelled id = true ↔
      w.isChatCancelled id = true ∨ .chatClient id .cancel ∈ moves ∨ .shutDown ∈ moves := by
  rw [holds_run (fun _ _ _ => isChatCancelled_step) hrun]
  simp [and_or_left, exists_or]

theorem isSome_chat (hrun : w.run u moves = some v) (h : (w.chats.get? id).isSome = true) :
    (v.chats.get? id).isSome = true := by
  obtain ⟨acts, hcourse⟩ := chat_course id hrun
  exact Machine.isSome_of_course hcourse h

/-- How a session ends when the relay is shut down, though it may not have started yet. -/
def chatEnd (u : Setup) (id : SessionId) (w : Relay) : Except Status Unit :=
  (w.chats.get? id).elim (.error (u.chat.rulebook.statusOf .cancelled)) (·.endIfCancelled u.chat)

theorem chat_ends {before after : List Move} {t : Session}
    (hbefore : (started u).run u before = some w) (hafter : w.run u (.shutDown :: after) = some v)
    (ht : v.chats.get? id = some t) : t.Ends u.chat u.supply id (w.chatEnd u id) := by
  simp only [run, step, Option.bind_some] at hafter
  -- It was there when the relay was shut down, or it has started behind that.
  obtain ⟨acts, hcourse⟩ := chat_course id hafter
  rw [ht] at hcourse
  obtain ⟨s, os, hcourse, hs | ⟨hs, hstarts⟩⟩ := Machine.course_fromStart hcourse
  · simp only [Table.get?_mapValues, Option.map_eq_some_iff] at hs
    obtain ⟨s, hs, rfl⟩ := hs
    obtain ⟨_, _, _, _, os', past, hpast, -⟩ := exists_course hbefore hs
    have hcancel : (Session.machine u.chat u.supply id).course _ (os' ++ [.outside .cancel]) =
        some (past ++ [], { s with isCancelled := true }) :=
      Machine.course_append_single.mpr ⟨past, s, [], hpast, rfl, rfl⟩
    have hends := Session.ends_of_course hcancel rfl hcourse
    rw [chatEnd, hs]
    exact hends
  · simp only [Table.get?_mapValues, Option.map_eq_none_iff] at hs
    obtain ⟨_, _, _, _, rfl, hcancelled⟩ := started_of_chatHappenings hstarts
    rw [chatEnd, hs]
    exact Session.ends_of_course (Machine.course_nil.mpr ⟨rfl, rfl⟩) (hcancelled rfl) hcourse

end

-- ---------------------------------------------------------------------------
-- Subscriptions
-- ---------------------------------------------------------------------------

def subscriptionHappenings (key : Nat) (w : Relay) :
    Move → List (Happening Subscription Notify.Occasion)
  | .subscribe key' user capacity =>
    if key' = key then [.starts (.started user { capacity } w.isShutDown)] else []
  | .subscriber key' move => if key' = key then [.meets (.outside move)] else []
  | .subscription key' interference =>
    if key' = key then
      (w.subscriptions.get? key).toList.map fun s =>
        .meets (.turn w.now (w.queues.answerAny interference s.awaits).1)
    else []
  | .shutDown => (w.subscriptions.get? key).toList.map fun _ => .meets (.outside .cancel)
  | _ => []

def isSubscriptionCancelled (w : Relay) (key : Nat) : Bool :=
  match w.subscriptions.get? key with
  | some s => s.isCancelled
  | none => w.isShutDown

/-- Whether a move happens to the subscription: it is one of its own, or the lifetime of the relay
is cancelled. -/
def Move.regards (key : Nat) : Move → Bool
  | .shutDown => true
  | .subscribe key' _ _ | .subscriber key' _ | .subscription key' _ => key' = key
  | _ => false

section
variable {u : Setup} {w w' v v' : Relay} {m : Move} {moves moves' : List Move} {key : Nat}

theorem unregarded (hm : m.regards key = false) (h : w.step u m = some w') :
    w'.subscriptions.get? key = w.subscriptions.get? key := by
  cases m with
  | shutDown => simp [Move.regards] at hm
  | pass | push | publish =>
    obtain rfl := Option.some.inj h
    rfl
  | converse =>
    simp only [step, converse] at h
    split at h <;> simp only [Option.some.injEq, reduceCtorEq] at h
    subst h
    rfl
  | chatClient =>
    simp only [step, withChat, Option.map_eq_some_iff] at h
    obtain ⟨t, -, rfl⟩ := h
    rfl
  | chat =>
    obtain ⟨s, t, -, -, rfl⟩ := goChat_eq_some.mp h
    rfl
  | subscribe key' =>
    have hkey : key' ≠ key := by simpa [Move.regards] using hm
    simp only [step, subscribe] at h
    split at h <;> simp only [Option.some.injEq, reduceCtorEq] at h
    subst h
    simp [Table.get?_insert, Ne.symm hkey]
  | subscriber key' =>
    have hkey : key' ≠ key := by simpa [Move.regards] using hm
    simp only [step, withSubscription, Option.map_eq_some_iff] at h
    obtain ⟨t, -, rfl⟩ := h
    simp [Table.get?_insert, Ne.symm hkey]
  | subscription key' =>
    have hkey : key' ≠ key := by simpa [Move.regards] using hm
    obtain ⟨s, t, -, -, rfl⟩ := goSubscription_eq_some.mp h
    simp [Table.get?_insert, Ne.symm hkey]

theorem subscriptionHappenings_of_unregarded (hm : m.regards key = false) :
    w.subscriptionHappenings key m = [] := by
  cases m with
  | shutDown => simp [Move.regards] at hm
  | subscribe key' | subscriber key' | subscription key' =>
    have hkey : key' ≠ key := by simpa [Move.regards] using hm
    simp [subscriptionHappenings, hkey]
  | pass | push | publish | converse | chatClient | chat => rfl

theorem subscription_course_step (h : w.step u m = some w') :
    ∃ done, (Subscription.machine u.notify).fromStart.course (w.subscriptions.get? key)
      (w.subscriptionHappenings key m) = some (done, w'.subscriptions.get? key) := by
  cases hm : m.regards key with
  | false => exact ⟨[], by rw [subscriptionHappenings_of_unregarded hm, unregarded hm h]; rfl⟩
  | true =>
    cases m with
    | pass | push | publish | converse | chatClient | chat => simp [Move.regards] at hm
    | shutDown =>
      obtain rfl := Option.some.inj h
      refine ⟨[], ?_⟩
      simp only [Table.get?_mapValues, subscriptionHappenings]
      cases w.subscriptions.get? key <;> rfl
    | subscribe key' user capacity =>
      obtain rfl : key' = key := by simpa [Move.regards] using hm
      simp only [step, subscribe] at h
      split at h <;> simp only [Option.some.injEq, reduceCtorEq] at h
      rename_i outbound hnone _ hout
      subst h
      obtain rfl := withCapacity?_eq_some hout
      exact ⟨[], by simp [subscriptionHappenings, hnone, Table.get?_insert, Machine.course,
        Machine.fromStart]⟩
    | subscriber key' move =>
      obtain rfl : key' = key := by simpa [Move.regards] using hm
      simp only [step, withSubscription, Option.map_eq_some_iff, Option.bind_eq_some_iff] at h
      obtain ⟨t, ⟨s, hs, hmove⟩, rfl⟩ := h
      exact ⟨[], by simp [subscriptionHappenings, hs, hmove, Table.get?_insert, Machine.course,
        Machine.fromStart, Subscription.machine]⟩
    | subscription key' interference =>
      obtain rfl : key' = key := by simpa [Move.regards] using hm
      obtain ⟨s, t, hs, hgo, rfl⟩ := goSubscription_eq_some.mp h
      refine ⟨s.deedsWith (w.queues.answerAny interference s.awaits).1 t, ?_⟩
      simp [subscriptionHappenings, hs, hgo, Table.get?_insert, Machine.course, Machine.fromStart,
        Subscription.machine]

theorem subscription_course (key : Nat) (hrun : w.run u moves = some v) :
    ∃ done, (Subscription.machine u.notify).fromStart.course (w.subscriptions.get? key)
      (w.collect (subscriptionHappenings key) u moves) = some (done, v.subscriptions.get? key) :=
  course_of_run (fun _ _ _ => subscription_course_step) hrun

theorem subscription_of_happenings
    (hsame : w.subscriptions.get? key = w'.subscriptions.get? key)
    (hrun : w.run u moves = some v) (hrun' : w'.run u moves' = some v')
    (h : w.collect (subscriptionHappenings key) u moves =
      w'.collect (subscriptionHappenings key) u moves') :
    v.subscriptions.get? key = v'.subscriptions.get? key := by
  obtain ⟨done, hcourse⟩ := subscription_course key hrun
  obtain ⟨done', hcourse'⟩ := subscription_course key hrun'
  rw [hsame, h, hcourse'] at hcourse
  simpa [eq_comm] using congrArg (Option.map Prod.snd) hcourse

theorem started_of_subscriptionHappenings {s : Subscription}
    (h : .starts s ∈ w.collect (subscriptionHappenings key) u moves) :
    ∃ user outbound isCancelled, s = .started user outbound isCancelled ∧
      (w.isShutDown = true → isCancelled = true) := by
  obtain ⟨v, m, hs, hv⟩ := exists_of_mem_collect h
  cases m with
  | subscribe key' user capacity =>
    simp only [subscriptionHappenings, List.mem_ite_nil_right, List.mem_singleton] at hs
    obtain ⟨-, ⟨⟩⟩ := hs
    exact ⟨_, _, _, rfl, hv⟩
  | subscription | shutDown | subscriber => simp [subscriptionHappenings] at hs
  | pass | push | publish | converse | chatClient | chat => simp [subscriptionHappenings] at hs

theorem isSubscriptionCancelled_step (h : w.step u m = some w') :
    w'.isSubscriptionCancelled key = true ↔
      w.isSubscriptionCancelled key = true ∨ m = .subscriber key .cancel ∨ m = .shutDown := by
  cases hm : m.regards key with
  | false =>
    have hne : m ≠ .subscriber key .cancel ∧ m ≠ .shutDown := by
      constructor <;> rintro rfl <;> simp [Move.regards] at hm
    have hshut : w'.isShutDown = w.isShutDown :=
      Bool.eq_iff_iff.mpr ((isShutDown_step h).trans (or_iff_left hne.2))
    simp [isSubscriptionCancelled, unregarded hm h, hshut, hne]
  | true =>
    cases m with
    | pass | push | publish | converse | chatClient | chat => simp [Move.regards] at hm
    | shutDown =>
      obtain rfl := Option.some.inj h
      simp only [isSubscriptionCancelled, Table.get?_mapValues]
      cases w.subscriptions.get? key <;> simp
    | subscribe key' user capacity =>
      obtain rfl : key' = key := by simpa [Move.regards] using hm
      simp only [step, subscribe] at h
      split at h <;> simp only [Option.some.injEq, reduceCtorEq] at h
      rename_i hnone _ _
      subst h
      simp [isSubscriptionCancelled, hnone, Table.get?_insert, Subscription.started]
    | subscriber key' move =>
      obtain rfl : key' = key := by simpa [Move.regards] using hm
      simp only [step, withSubscription, Option.map_eq_some_iff, Option.bind_eq_some_iff] at h
      obtain ⟨t, ⟨s, hs, hmove⟩, rfl⟩ := h
      simp [isSubscriptionCancelled, hs, Table.get?_insert,
        Subscription.isCancelled_clientMove hmove]
    | subscription key' interference =>
      obtain rfl : key' = key := by simpa [Move.regards] using hm
      obtain ⟨s, t, hs, hgo, rfl⟩ := goSubscription_eq_some.mp h
      have hturn : Notify.Turn u.notify w.now s _ t := Notify.turn_of_answer hgo
      simp [isSubscriptionCancelled, hs, Table.get?_insert, hturn.isCancelled_eq]

theorem isSubscriptionCancelled_run (key : Nat) (hrun : w.run u moves = some v) :
    v.isSubscriptionCancelled key = true ↔
      w.isSubscriptionCancelled key = true ∨ .subscriber key .cancel ∈ moves ∨
        .shutDown ∈ moves := by
  rw [holds_run (fun _ _ _ => isSubscriptionCancelled_step) hrun]
  simp [and_or_left, exists_or]

theorem isSome_subscription (hrun : w.run u moves = some v)
    (h : (w.subscriptions.get? key).isSome = true) :
    (v.subscriptions.get? key).isSome = true := by
  obtain ⟨done, hcourse⟩ := subscription_course key hrun
  exact Machine.isSome_of_course hcourse h

def subscriptionEnd (u : Setup) (key : Nat) (w : Relay) : Except Status Unit :=
  (w.subscriptions.get? key).elim (.error (u.notify.rulebook.statusOf .cancelled))
    (·.endIfCancelled u.notify)

theorem exists_subscription_course {s : Subscription} (hrun : (started u).run u moves = some w)
    (hs : w.subscriptions.get? key = some s) :
    ∃ user outbound isCancelled os done, (Subscription.machine u.notify).course
      (.started user outbound isCancelled) os = some (done, s) := by
  obtain ⟨done, hcourse⟩ := subscription_course key hrun
  rw [hs] at hcourse
  obtain ⟨s', os, hcourse, hs' | ⟨-, hstarts⟩⟩ := Machine.course_fromStart hcourse
  · simp [started] at hs'
  · obtain ⟨user, outbound, isCancelled, rfl, -⟩ := started_of_subscriptionHappenings hstarts
    exact ⟨user, outbound, isCancelled, os, done, hcourse⟩

theorem subscription_ends {before after : List Move} {t : Subscription}
    (hbefore : (started u).run u before = some w) (hafter : w.run u (.shutDown :: after) = some v)
    (ht : v.subscriptions.get? key = some t) : t.Ends u.notify (w.subscriptionEnd u key) := by
  simp only [run, step, Option.bind_some] at hafter
  obtain ⟨done, hcourse⟩ := subscription_course key hafter
  rw [ht] at hcourse
  obtain ⟨s, os, hcourse, hs | ⟨hs, hstarts⟩⟩ := Machine.course_fromStart hcourse
  · simp only [Table.get?_mapValues, Option.map_eq_some_iff] at hs
    obtain ⟨s, hs, rfl⟩ := hs
    obtain ⟨_, _, _, os', past, hpast⟩ := exists_subscription_course hbefore hs
    have hcancel : (Subscription.machine u.notify).course _ (os' ++ [.outside .cancel]) =
        some (past ++ [], { s with isCancelled := true }) :=
      Machine.course_append_single.mpr ⟨past, s, [], hpast, rfl, rfl⟩
    have hends := Subscription.ends_of_course hcancel rfl hcourse
    rw [subscriptionEnd, hs]
    exact hends
  · simp only [Table.get?_mapValues, Option.map_eq_none_iff] at hs
    obtain ⟨_, _, _, rfl, hcancelled⟩ := started_of_subscriptionHappenings hstarts
    rw [subscriptionEnd, hs]
    exact Subscription.ends_of_course (Machine.course_nil.mpr ⟨rfl, rfl⟩) (hcancelled rfl) hcourse

end

end Relay

end NoteRelay
