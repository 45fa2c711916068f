import NoteRelay.Proofs.Chat.Course

/-!
# How a chat session ends

A session ends well exactly if its delivery finds the outbox empty at or behind the deadline
(`Session.IsIdleAt`), and with a failure exactly if one of its loops comes to that failure
(`Session.Raises`); `decided_of_occur` shows that there is nothing else. The first of these that a
course meets with is the only one, and what follows it, the clearing of the outbox, does not change
it (`outcome_decided`).
-/

namespace NoteRelay

theorem Channel.send?_eq_abandoned {α : Type} {c : Channel α} {a : α} :
    c.send? a = some (.error .abandoned) ↔ c.isAbandoned = true := by
  unfold send?
  split
  · simp_all
  · split <;> simp_all

namespace Chat

-- ---------------------------------------------------------------------------
-- What is refused is told
-- ---------------------------------------------------------------------------

theorem Payload.isRecoverable_of_toMessage {payload : Payload} {fresh : CorrelationId}
    {r : Rejection} (h : payload.toMessage fresh = .error r) :
    (Failure.ofRejection r).isRecoverable = true := by
  have hparts : ∀ c, ChatMessage.ofParts c payload.text = .error r → r = .emptyText := by
    intro c hc
    unfold ChatMessage.ofParts at hc
    split at hc <;> cases hc
    rfl
  unfold toMessage CorrelationId.parse at h
  cases hid : payload.correlationId.isEmpty with
  | true =>
    simp only [hid, if_true] at h
    rw [hparts fresh h]
    rfl
  | false =>
    simp only [hid, Bool.false_eq_true, if_false] at h
    rw [hparts ⟨payload.correlationId⟩ h]
    rfl

theorem Request.isRecoverable_of_accept {r : Request} {fresh : CorrelationId} {f : Failure}
    (h : r.accept fresh = .error f) : f.isRecoverable = true := by
  unfold accept at h
  split at h
  · cases hm : r.message.toMessage fresh with
    | ok m => simp [hm, Except.mapError] at h
    | error rejection =>
      obtain rfl : Failure.ofRejection rejection = f := by simpa [hm, Except.mapError] using h
      exact Payload.isRecoverable_of_toMessage hm
  · obtain rfl : Violations.toFailure _ = f := by simpa using h
    rfl

theorem Intake.received_eq_error {b : Rulebook} {fresh : CorrelationId} {item : Option Item}
    {f : Failure} : received b fresh item = .error f ↔ item = some (.error f) := by
  cases item with
  | none => simp [received]
  | some item =>
    cases item with
    | error g => simp [received]
    | ok r =>
      cases ha : r.accept fresh with
      | ok m => simp [received, ha]
      | error g => simp [received, ha, Request.isRecoverable_of_accept ha]

namespace Session

-- ---------------------------------------------------------------------------
-- What decides how a session ends
-- ---------------------------------------------------------------------------

/-- The delivery finds the outbox empty, at its deadline or behind it. Where the intake is does not
matter. -/
def IsIdleAt (s : Session) (o : Occasion) : Prop :=
  ∃ i d minted now a, o = .turn .delivery minted now (some (.ok a)) ∧
    s.Runs i d ∧ d.stage = .fetching ∧ a.found = [] ∧ d.deadline ≤ now

/-- A loop comes to a failure that it cannot go on from. -/
inductive Raises (s : Session) : Occasion → Failure → Prop where
  | cancelled {loop : Loop} {minted now : Nat} {answer : Option (Except QueueFault QueueAnswer)}
      {i : Intake} {d : Delivery} :
      loop ≠ .closing → s.phase = .running i d → s.isCancelled = true →
      Raises s (.turn loop minted now answer) .cancelled
  | unreadable {minted now : Nat} {answer : Option (Except QueueFault QueueAnswer)}
      {d : Delivery} {f : Failure} {rest : List Item} :
      s.Runs .reading d → s.inbound.queued = .error f :: rest →
      Raises s (.turn .intake minted now answer) f
  | unsaved {minted now : Nat} {m : ChatMessage} {d : Delivery} {fault : QueueFault} :
      s.Runs (.saving m) d →
      Raises s (.turn .intake minted now (some (.error fault))) (.queue fault)
  | unfetched {minted now : Nat} {i : Intake} {d : Delivery} {fault : QueueFault} :
      s.Runs i d → d.stage = .fetching →
      Raises s (.turn .delivery minted now (some (.error fault))) (.queue fault)
  /-- Nobody is left to receive the answer to a request that is refused. -/
  | refusalUnheard {minted now : Nat} {answer : Option (Except QueueFault QueueAnswer)}
      {status : Status} {d : Delivery} :
      s.Runs (.refusing status) d → s.outbound.isAbandoned = true →
      Raises s (.turn .intake minted now answer) .outboundClosed
  /-- Nobody is left to receive the frame of a message. -/
  | frameUnheard {minted now : Nat} {answer : Option (Except QueueFault QueueAnswer)}
      {i : Intake} {d : Delivery} {m : ChatMessage} {others : List ChatMessage} :
      s.Runs i d → d.stage = .sending m others → s.outbound.isAbandoned = true →
      Raises s (.turn .delivery minted now answer) .outboundClosed

section
variable {p : Policy} {supply : IdSupply} {id : SessionId} {s t : Session} {o : Occasion}
  {i : Intake} {d : Delivery} {f : Failure} {new : List Act} {minted now : Nat}
  {answer : Option (Except QueueFault QueueAnswer)}

theorem IsIdleAt.running (h : s.IsIdleAt o) : ∃ i d, s.phase = .running i d := by
  obtain ⟨i, d, _, _, _, -, hs, -⟩ := h
  exact ⟨i, d, hs.1⟩

theorem Raises.running (h : s.Raises o f) : ∃ i d, s.phase = .running i d := by
  cases h with
  | cancelled _ hs _ => exact ⟨_, _, hs⟩
  | unreadable hs _ | unsaved hs | unfetched hs _ | refusalUnheard hs _ | frameUnheard hs _ _ =>
    exact ⟨_, _, hs.1⟩

theorem IsIdleAt.phase (h : s.IsIdleAt o) (ho : (machine p supply id).occur s o = some (new, t)) :
    t.phase = .closing (.ok ()) := by
  obtain ⟨i, d, minted, now, a, rfl, ⟨hs, hlive⟩, hstage, hnone, hdue⟩ := h
  obtain ⟨hgo, -⟩ := occur_turn.mp ho
  simp only [go, hs, goDelivery, hstage, hlive, guarded_live, Option.map_some, Except.bind,
    Delivery.fetched, hnone, hdue, if_true, Option.some.injEq] at hgo
  subst hgo
  simp [Phase.ofDelivery]

theorem Raises.phase (h : s.Raises o f) (ho : (machine p supply id).occur s o = some (new, t)) :
    t.phase = .closing (.error f) := by
  cases h with
  | cancelled _ hs hc =>
    obtain ⟨_, ho', -⟩ | ⟨_, _, _, _, -, -, hturn⟩ := turn_of_occur ho
    · cases ho'
    · rw [(hturn.of_cancelled hs hc).2]
  | unreadable hs hq =>
    obtain ⟨hgo, -⟩ := occur_turn.mp ho
    simp only [go, hs.1, goIntake, hs.2, guarded_live, Channel.next?, hq, Option.map_some,
      Intake.received, Option.some.injEq] at hgo
    rw [← hgo]
    rfl
  | unsaved hs =>
    obtain ⟨hgo, -⟩ := occur_turn.mp ho
    simp only [go, hs.1, goIntake, hs.2, guarded_live, Option.map_some, Except.bind, Intake.saved,
      Option.some.injEq] at hgo
    rw [← hgo]
    rfl
  | unfetched hs hstage =>
    obtain ⟨hgo, -⟩ := occur_turn.mp ho
    simp only [go, hs.1, goDelivery, hstage, hs.2, guarded_live, Option.map_some, Except.bind,
      Delivery.fetched, Option.some.injEq] at hgo
    rw [← hgo]
    rfl
  | refusalUnheard hs hgone =>
    obtain ⟨hgo, -⟩ := occur_turn.mp ho
    simp only [go, hs.1, goIntake, hs.2, emit, Channel.send?_eq_abandoned.mpr hgone, guarded_live,
      Option.map_some, Option.some.injEq] at hgo
    rw [← hgo]
    rfl
  | frameUnheard hs hstage hgone =>
    obtain ⟨hgo, -⟩ := occur_turn.mp ho
    simp only [go, hs.1, goDelivery, hstage, hs.2, emit, Channel.send?_eq_abandoned.mpr hgone,
      guarded_live, Option.map_some, Option.some.injEq] at hgo
    rw [← hgo]
    rfl

theorem go_of_end (hs : s.Runs .reading d) (hnone : s.inbound.queued = [])
    (hend : s.inbound.isEnded = true) :
    s.go p supply minted now answer .intake = some { s with phase := .running .ended d } := by
  simp [go, hs.1, hs.2, goIntake, Channel.next?, hnone, hend, Intake.received, Phase.ofIntake]

theorem decided_of_intake (hs : s.Runs i d)
    (h : s.go p supply minted now answer .intake = some t) :
    (∃ i' d', t.phase = .running i' d') ∨
      ∃ f, t.phase = .closing (.error f) ∧ s.Raises (.turn .intake minted now answer) f := by
  simp only [go, hs.1, Option.map_eq_some_iff, Prod.exists] at h
  obtain ⟨r, v, hgo, rfl⟩ := h
  cases r with
  | ok i' => exact .inl ⟨i', d, rfl⟩
  | error f =>
    refine .inr ⟨f, rfl, ?_⟩
    cases i with
    | reading =>
      simp only [goIntake, hs.2, guarded_live, Option.map_map, Option.map_eq_some_iff] at hgo
      obtain ⟨⟨item, inbound⟩, hnext, hr⟩ := hgo
      obtain ⟨hr, -⟩ := Prod.mk.inj hr
      obtain rfl := Intake.received_eq_error.mp hr
      exact .unreadable hs (Channel.queued_of_next? hnext)
    | saving m =>
      simp only [goIntake, hs.2, guarded_live, Option.map_map, Option.map_eq_some_iff] at hgo
      obtain ⟨a, rfl, hr⟩ := hgo
      obtain ⟨hr, -⟩ := Prod.mk.inj hr
      cases a with
      | ok a => simp [Except.bind, Intake.saved] at hr
      | error fault =>
        obtain rfl : Failure.queue fault = f := by simpa [Except.bind, Intake.saved] using hr
        exact .unsaved hs
    | refusing status =>
      simp only [goIntake, hs.2, Option.map_eq_some_iff] at hgo
      obtain ⟨r, hemit, hr⟩ := hgo
      obtain ⟨hsend, rfl⟩ | ⟨outbound, -, rfl⟩ := emit_cases hemit
      · obtain rfl : Failure.outboundClosed = f := by simpa using (Prod.mk.inj hr).1
        exact .refusalUnheard hs (Channel.send?_eq_abandoned.mp hsend)
      · simp at hr
    | ended => simp [goIntake] at hgo

theorem decided_of_delivery (hs : s.Runs i d)
    (h : s.go p supply minted now answer .delivery = some t) :
    (∃ i' d', t.phase = .running i' d') ∨
      (t.phase = .closing (.ok ()) ∧ s.IsIdleAt (.turn .delivery minted now answer)) ∨
      ∃ f, t.phase = .closing (.error f) ∧ s.Raises (.turn .delivery minted now answer) f := by
  simp only [go, hs.1, Option.map_eq_some_iff, Prod.exists] at h
  obtain ⟨r, v, hgo, rfl⟩ := h
  cases hstage : d.stage with
  | fetching =>
    simp only [goDelivery, hstage, hs.2, guarded_live, Option.map_map, Option.map_eq_some_iff]
      at hgo
    obtain ⟨a, rfl, hr⟩ := hgo
    obtain ⟨rfl, -⟩ := Prod.mk.inj hr
    cases a with
    | error fault => exact .inr (.inr ⟨_, rfl, .unfetched hs hstage⟩)
    | ok a =>
      simp only [Except.bind, Delivery.fetched]
      cases hfound : a.found with
      | cons m others => exact .inl ⟨i, _, rfl⟩
      | nil =>
        by_cases hdue : d.deadline ≤ now
        · refine .inr (.inl ⟨by simp [Phase.ofDelivery, hdue], ?_⟩)
          exact ⟨i, d, minted, now, a, rfl, hs, hstage, hfound, hdue⟩
        · exact .inl ⟨i, _, by simp [Phase.ofDelivery, hdue]; rfl⟩
  | resting =>
    simp only [goDelivery, hstage, goTick, hs.2, guarded_live, Option.map_map,
      Option.map_eq_some_iff] at hgo
    obtain ⟨ticker, -, hr⟩ := hgo
    obtain ⟨rfl, -⟩ := Prod.mk.inj hr
    exact .inl ⟨i, _, rfl⟩
  | pacing m others =>
    simp only [goDelivery, hstage, goTick, hs.2, guarded_live, Option.map_map,
      Option.map_eq_some_iff] at hgo
    obtain ⟨ticker, -, hr⟩ := hgo
    obtain ⟨rfl, -⟩ := Prod.mk.inj hr
    exact .inl ⟨i, _, rfl⟩
  | sending m others =>
    simp only [goDelivery, hstage, hs.2, Option.map_eq_some_iff] at hgo
    obtain ⟨sent, hemit, hr⟩ := hgo
    obtain ⟨hsend, rfl⟩ | ⟨outbound, -, rfl⟩ := emit_cases hemit
    · obtain ⟨rfl, -⟩ := Prod.mk.inj hr
      exact .inr (.inr ⟨_, rfl, .frameUnheard hs hstage (Channel.send?_eq_abandoned.mp hsend)⟩)
    · obtain ⟨rfl, -⟩ := Prod.mk.inj hr
      exact .inl ⟨i, _, rfl⟩
  | settling m others =>
    simp only [goDelivery, hstage, hs.2, guarded_live, Option.map_map, Option.map_eq_some_iff]
      at hgo
    obtain ⟨a, rfl, hr⟩ := hgo
    obtain ⟨rfl, -⟩ := Prod.mk.inj hr
    have hnext : (d.settled p.idle now others).stage ≠ .finished :=
      Stage.ofSnapshot_ne_finished others
    exact .inl ⟨i, _, by simp [Except.map, Phase.ofDelivery, hnext]; rfl⟩
  | finished => simp [goDelivery, hstage] at hgo

/-- As long as its loops run, a session goes on running on every occasion but those that decide how
it ends. -/
theorem decided_of_occur (hs : s.phase = .running i d)
    (ho : (machine p supply id).occur s o = some (new, t)) :
    (∃ i' d', t.phase = .running i' d') ∨
      (t.phase = .closing (.ok ()) ∧ s.IsIdleAt o) ∨
      ∃ f, t.phase = .closing (.error f) ∧ s.Raises o f := by
  obtain ⟨move, rfl, -, hm⟩ | ⟨loop, minted, now, answer, rfl, -, hturn⟩ := turn_of_occur ho
  · exact .inl ⟨i, d, (phase_clientMove hm).trans hs⟩
  obtain ⟨hgo, -⟩ := occur_turn.mp ho
  obtain ⟨hloop, i', d', hruns⟩ | ⟨hloop, -, hc, -, rfl⟩ | ⟨-, result, -, hclosing, -, -⟩ :=
    hturn.taken
  · cases loop with
    | intake => exact (decided_of_intake hruns hgo).imp_right .inr
    | delivery => exact decided_of_delivery hruns hgo
    | closing => exact absurd rfl hloop
  · exact .inr (.inr ⟨.cancelled, rfl, .cancelled hloop hs hc⟩)
  · simp [hs] at hclosing

-- ---------------------------------------------------------------------------
-- Along a course
-- ---------------------------------------------------------------------------

/-- How far it is decided how a session ends, by what its course has met with. -/
inductive Decided (p : Policy) (supply : IdSupply) (id : SessionId) (start : Session)
    (os : List Occasion) : List Act → Session → Prop where
  | pending {acts : List Act} {t : Session} {i : Intake} {d : Delivery} :
      t.phase = .running i d →
      ¬ (machine p supply id).Meets start os IsIdleAt →
      (∀ f, ¬ (machine p supply id).Meets start os (Raises · · f)) →
      (∀ a, .did (.called (.clear id) a) ∉ acts) → Decided p supply id start os acts t
  | ended {result : Except Failure Unit} {done acts : List Act} {t : Session} :
      Ending p id result acts t →
      (result = .ok () ↔ (machine p supply id).Meets start os IsIdleAt) →
      (∀ f, result = .error f ↔ (machine p supply id).Meets start os (Raises · · f)) →
      (∀ a, .did (.called (.clear id) a) ∉ done) → Decided p supply id start os (done ++ acts) t

theorem Decided.outside {start : Session} {os : List Occasion} {acts old : List Act} {move : Move}
    (h : Decided p supply id start os acts s)
    (hcourse : (machine p supply id).course start os = some (old, s))
    (hm : s.clientMove move = some t) :
    Decided p supply id start (os ++ [.outside move]) acts t := by
  have hidle : ¬ s.IsIdleAt (.outside move) := by
    rintro ⟨_, _, _, _, _, ho, -⟩
    cases ho
  have hraises : ∀ f, ¬ s.Raises (.outside move) f := by
    rintro f ⟨⟩
  cases h with
  | pending hphase hi hr hclear =>
    refine .pending ((phase_clientMove hm).trans hphase) ?_ ?_ hclear
    · simpa [Machine.meets_append_single hcourse, hidle] using hi
    · simpa [Machine.meets_append_single hcourse, hraises] using hr
  | ended hending hi hr hclear =>
    refine .ended (hending.outside hm) ?_ ?_ hclear
    · simpa [Machine.meets_append_single hcourse, hidle] using hi
    · simpa [Machine.meets_append_single hcourse, hraises] using hr

theorem Decided.turn {start : Session} {os : List Occasion} {acts old : List Act} {loop : Loop}
    (h : Decided p supply id start os acts s)
    (hcourse : (machine p supply id).course start os = some (old, s))
    (ho : (machine p supply id).occur s (.turn loop minted now answer) = some (new, t))
    (hturn : Turn p id now loop s (s.deedsWith id loop answer t) t)
    (hnew : new = s.acts id loop answer t) :
    Decided p supply id start (os ++ [.turn loop minted now answer]) (acts ++ new) t := by
  cases h with
  | pending hphase hi hr hclear =>
    have hclear' : ∀ a, .did (.called (.clear id) a) ∉ acts ++ new := by
      intro a hmem
      obtain hmem | hmem := List.mem_append.mp hmem
      · exact hclear a hmem
      · rw [hnew] at hmem
        have hloop : loop ≠ .closing := by
          rintro rfl
          obtain ⟨hne, -⟩ | ⟨hne, -⟩ | ⟨-, result, -, hs, -⟩ := hturn.taken
          · exact hne rfl
          · exact hne rfl
          · simp [hphase] at hs
        exact hturn.clear_notMem hloop a (mem_deedsWith_of_mem_acts hmem)
    -- Whatever the course now meets with, it meets with on this occasion.
    have hmeets {P : Session → Occasion → Prop} (hP : ¬ (machine p supply id).Meets start os P) :
        (machine p supply id).Meets start (os ++ [.turn loop minted now answer]) P ↔
          P s (.turn loop minted now answer) := by
      simp [Machine.meets_append_single hcourse, hP]
    obtain ⟨i', d', ht⟩ | ⟨ht, hidle⟩ | ⟨f, ht, hraises⟩ := decided_of_occur hphase ho
    · refine .pending ht ?_ ?_ hclear'
      · rw [hmeets hi]
        intro hidle
        simp [hidle.phase ho] at ht
      · intro f
        rw [hmeets (hr f)]
        intro hraises
        simp [hraises.phase ho] at ht
    · rw [← List.append_nil (acts ++ new)]
      refine .ended (.clearing ht) ?_ ?_ hclear'
      · simp [hmeets hi, hidle]
      · intro f
        rw [hmeets (hr f)]
        refine ⟨by simp, fun hraises => ?_⟩
        simp [hraises.phase ho] at ht
    · rw [← List.append_nil (acts ++ new)]
      refine .ended (.clearing ht) ?_ ?_ hclear'
      · rw [hmeets hi]
        refine ⟨by simp, fun hidle => ?_⟩
        simp [hidle.phase ho] at ht
      · intro g
        rw [hmeets (hr g)]
        refine ⟨by rintro ⟨⟩; exact hraises, fun hg => ?_⟩
        simpa [ht] using hg.phase ho
  | ended hending hi hr hclear =>
    -- What decides how a session ends can only be met with while its loops run.
    have hrunning : ¬ ∃ i d, s.phase = .running i d := by
      rintro ⟨i, d, hs⟩
      cases hending with
      | clearing hphase | cleared hphase => simp [hs] at hphase
    rw [List.append_assoc, hnew]
    refine .ended (hending.turn hturn).2 ?_ ?_ hclear
    · rw [Machine.meets_append_single hcourse, hi]
      exact ⟨.inl, fun h => h.resolve_right fun hidle => hrunning hidle.running⟩
    · intro f
      rw [Machine.meets_append_single hcourse, hr f]
      exact ⟨.inl, fun h => h.resolve_right fun hraises => hrunning hraises.running⟩

theorem decided {start : Session} {os : List Occasion} {acts : List Act}
    (hstart : start.phase = .running i d)
    (h : (machine p supply id).course start os = some (acts, t)) :
    Decided p supply id start os acts t := by
  have hnot : ∀ P, ¬ (machine p supply id).Meets start [] P := Machine.not_meets_nil
  refine Machine.course_induction (P := fun os acts t => Decided p supply id start os acts t)
    (.pending hstart (hnot _) (fun f => hnot _) (by simp)) ?_ h
  intro os acts v o new t hcourse hv ho
  obtain ⟨move, rfl, rfl, hm⟩ | ⟨loop, minted, now, answer, rfl, hnew, hturn⟩ := turn_of_occur ho
  · rw [List.append_nil]
    exact hv.outside hcourse hm
  · exact hv.turn hcourse ho hturn hnew

theorem cancelled_of_meets {inbound : Channel Item} {outbound : Channel Response}
    {isCancelled : Bool} {start : Nat} {os : List Occasion} {acts : List Act}
    (h : (machine p supply id).course (.started p inbound outbound isCancelled start) os =
      some (acts, t))
    (hmeets : (machine p supply id).Meets (.started p inbound outbound isCancelled start) os
      (Raises · · .cancelled)) :
    isCancelled = true ∨ .outside .cancel ∈ os ∨ .took (.error .cancelled) ∈ acts := by
  obtain ⟨before, o, after, old, v, new, v', rest, rfl, hraises, hbefore, ho, -, rfl⟩ :=
    hmeets.split h
  have hphase := hraises.phase ho
  cases hraises with
  | cancelled _ _ hc =>
    obtain hc | hmem := (isCancelled_of_course hbefore).mp hc
    · exact .inl hc
    · exact .inr (.inl (List.mem_append_left _ hmem))
  | unreadable hs hq =>
    -- The item that it ends with is taken on the same occasion.
    obtain ⟨hgo, rfl⟩ := occur_turn.mp ho
    simp only [go, hs.1, goIntake, hs.2, guarded_live, Channel.next?, hq, Option.map_some,
      Intake.received, Option.some.injEq] at hgo
    subst hgo
    simp [acts, isOver, outcome?, Phase.ofIntake, Channel.takenSince, hq]

-- ---------------------------------------------------------------------------
-- What does not change the end
-- ---------------------------------------------------------------------------

def stopped (s : Session) : Session :=
  match s.phase with
  | .running _ _ => s
  | _ => { s with isCancelled := true }

/-- The machine whose sessions cancel their own lifetime as soon as one of their loops has ended
them. -/
def stoppingMachine (p : Policy) (supply : IdSupply) (id : SessionId) :
    Machine Session Occasion Act where
  occur s o := ((machine p supply id).occur s o).map fun r => (r.1, r.2.stopped)

@[simp] theorem stopped_stopped (s : Session) : s.stopped.stopped = s.stopped := by
  cases h : s.phase <;> simp [stopped, h]

theorem stopped_of_not_running (hs : ∀ i d, s.phase ≠ .running i d) :
    s.stopped = { s with isCancelled := true } := by
  unfold stopped
  split
  · rename_i i d h
    exact absurd h (hs i d)
  · rfl

@[simp] theorem outcome?_stopped (s : Session) : s.stopped.outcome? = s.outcome? := by
  cases h : s.phase <;> simp [stopped, outcome?, h]

theorem clientMove_cancelled (s : Session) (move : Move) :
    clientMove { s with isCancelled := true } move =
      (s.clientMove move).map fun t => { t with isCancelled := true } := by
  cases move with
  | send item =>
    simp only [clientMove]
    cases s.inbound.send? item with
    | none => rfl
    | some r => cases r <;> rfl
  | read =>
    simp only [clientMove]
    cases s.outbound.next? with
    | none => rfl
    | some r => obtain ⟨_ | _, _⟩ := r <;> rfl
  | finish | leave | cancel => rfl

theorem occur_stopped (p : Policy) (supply : IdSupply) (id : SessionId) (s : Session)
    (o : Occasion) :
    ((machine p supply id).occur s.stopped o).map (fun r => (r.1, r.2.stopped)) =
      ((machine p supply id).occur s o).map (fun r => (r.1, r.2.stopped)) := by
  by_cases hrunning : ∃ i d, s.phase = .running i d
  · obtain ⟨i, d, hs⟩ := hrunning
    simp [stopped, hs]
  have hs : ∀ i d, s.phase ≠ .running i d := fun i d h => hrunning ⟨i, d, h⟩
  cases o with
  | outside move =>
    simp only [machine, stopped_of_not_running hs, clientMove_cancelled, Option.map_map]
    cases hm : s.clientMove move with
    | none => rfl
    | some t =>
      have ht : ∀ i d, t.phase ≠ .running i d := by rwa [phase_clientMove hm]
      have ht' : ∀ i d, { t with isCancelled := true }.phase ≠ .running i d := ht
      simp [stopped_of_not_running ht, stopped_of_not_running ht']
  | turn loop minted now answer =>
    obtain ⟨inbound, outbound, isCancelled, phase⟩ := s
    cases phase with
    | running i d => exact absurd rfl (hs i d)
    | closing | closed => cases loop <;> cases answer <;> rfl

/-- A session does the same and ends the same if its loops cancel its own lifetime when they end
it. -/
theorem course_stopping (p : Policy) (supply : IdSupply) (id : SessionId) (s : Session)
    (os : List Occasion) :
    ((stoppingMachine p supply id).course s os).map (fun r => (r.1, r.2.outcome?)) =
      ((machine p supply id).course s os).map (fun r => (r.1, r.2.outcome?)) := by
  have hstep : ∀ s s' : Session, ∀ o o' : Occasion, s.stopped = s'.stopped → o = o' →
      ((stoppingMachine p supply id).occur s o).map
          (fun r => (r.1.map fun act => act, r.2.stopped)) =
        ((machine p supply id).occur s' o').map
          (fun r => (r.1.map fun act => act, r.2.stopped)) := by
    rintro s s' o _ hs rfl
    have hs' := occur_stopped p supply id s o
    rw [hs, occur_stopped] at hs'
    simpa [stoppingMachine, Option.map_map, Function.comp_def] using hs'.symm
  have halike := Machine.course_alike stopped (fun o => o) (fun act => act) hstep
    (rfl : s.stopped = s.stopped) (rfl : os.map (fun o => o) = os.map fun o => o)
  have houtcome := congrArg (Option.map fun r => (r.1, r.2.outcome?)) halike
  simpa [Option.map_map, Function.comp_def] using houtcome

/-- It makes no difference whether a message could be deleted or the outbox be cleared. -/
theorem go_answered {loop : Loop} {call : QueueCall} (hcall : s.awaits id loop = some call)
    (hkind : call.kind = .delete ∨ call.kind = .clear) (a b : Except QueueFault QueueAnswer) :
    s.go p supply minted now (some a) loop = s.go p supply minted now (some b) loop := by
  obtain ⟨inbound, outbound, isCancelled, phase⟩ := s
  cases loop with
  | closing => cases phase <;> rfl
  | intake =>
    cases phase with
    | running i d =>
      cases i <;> cases isCancelled <;> simp [awaits] at hcall
      subst hcall
      simp [QueueCall.kind] at hkind
    | closing | closed => rfl
  | delivery =>
    cases phase with
    | running i d =>
      obtain ⟨stage, ticker, deadline⟩ := d
      cases stage with
      | fetching =>
        cases isCancelled <;> simp [awaits] at hcall
        subst hcall
        simp [QueueCall.kind] at hkind
      | settling m others => cases isCancelled <;> rfl
      | resting | pacing | sending | finished => rfl
    | closing | closed => rfl

theorem course_answered {start : Session} {before after : List Occasion} {acts past : List Act}
    {loop : Loop} {call : QueueCall} {a : Except QueueFault QueueAnswer}
    (hbefore : (machine p supply id).course start before = some (past, s))
    (hcall : s.awaits id loop = some call) (hkind : call.kind = .delete ∨ call.kind = .clear)
    (h : (machine p supply id).course start (before ++ .turn loop minted now (some a) :: after) =
      some (acts, t)) (b : Except QueueFault QueueAnswer) :
    ∃ acts', (machine p supply id).course start
      (before ++ .turn loop minted now (some b) :: after) = some (acts', t) := by
  obtain ⟨past', s', _, hbefore', hafter, -⟩ := Machine.course_append.mp h
  obtain ⟨rfl, rfl⟩ : past = past' ∧ s = s' := by simpa [hbefore] using hbefore'
  obtain ⟨new, v, rest, ho, hrest, -⟩ := Machine.course_cons.mp hafter
  obtain ⟨hgo, -⟩ := occur_turn.mp ho
  rw [go_answered hcall hkind a b] at hgo
  exact ⟨_, Machine.course_append.mpr ⟨past, s, _, hbefore,
    Machine.course_cons.mpr ⟨_, v, rest, occur_turn.mpr ⟨hgo, rfl⟩, hrest, rfl⟩, rfl⟩⟩

end

end Session

open Session (IsIdleAt Raises)

section
variable {p : Policy} {supply : IdSupply} {id : SessionId} {start t : Session}
  {inbound : Channel Item} {outbound : Channel Response} {isCancelled : Bool} {begun : Nat}
  {os : List Occasion} {acts : List Act} {outcome : Except Status Unit}

/-- How a session ends. It ends well exactly if its delivery once found the outbox empty at its
deadline or behind it, and with the status of a failure exactly if a loop raised that failure; it
never meets with two of them. It is cancelled only from outside, or by its input, and the end of its
input ends the intake alone. Once it is decided how the session ends, no loop goes on, and the
outbox is cleared once. Neither the answers to deletions and to the clearing, nor that a loop which
ends the session cancels what is left of it, change the end. -/
theorem outcome_decided (hstart : start = .started p inbound outbound isCancelled begun)
    (h : (Session.machine p supply id).course start os = some (acts, t))
    (ho : t.outcome? = some outcome) :
    (∃ result : Except Failure Unit, outcome = result.mapError p.rulebook.statusOf ∧
      (result = .ok () ↔ (Session.machine p supply id).Meets start os IsIdleAt) ∧
      (∀ f, result = .error f ↔ (Session.machine p supply id).Meets start os (Raises · · f)) ∧
      (result = .error .cancelled →
        isCancelled = true ∨ .outside .cancel ∈ os ∨ .took (.error .cancelled) ∈ acts)) ∧
    (∀ (v : Session) (d : Delivery) minted now answer, v.Runs .reading d →
      v.inbound.queued = [] → v.inbound.isEnded = true →
      v.go p supply minted now answer .intake = some { v with phase := .running .ended d }) ∧
    (∃ done answer, acts = done ++ [.did (.called (.clear id) answer)] ∧
      ∀ a, .did (.called (.clear id) a) ∉ done) ∧
    (∀ before after past v result, os = before ++ after →
      (Session.machine p supply id).course start before = some (past, v) →
      v.phase = .closing result →
      ∀ loop minted now answer, .turn loop minted now answer ∈ after → loop = .closing) ∧
    (∀ before after loop minted now a b past v call,
      os = before ++ .turn loop minted now (some a) :: after →
      (Session.machine p supply id).course start before = some (past, v) →
      v.awaits id loop = some call → call.kind = .delete ∨ call.kind = .clear →
      ∃ acts', (Session.machine p supply id).course start
        (before ++ .turn loop minted now (some b) :: after) = some (acts', t)) ∧
    ∃ t', (Session.stoppingMachine p supply id).course start os = some (acts, t') ∧
      t'.outcome? = some outcome := by
  subst hstart
  refine ⟨?_, ?_, ?_, ?_, ?_, ?_⟩
  · cases Session.decided rfl h with
    | pending hphase => simp [Session.outcome?, hphase] at ho
    | @ended result _ _ _ hending hi hr _ =>
      refine ⟨result, ?_, hi, hr, fun hc => Session.cancelled_of_meets h ((hr _).mp hc)⟩
      cases hending with
      | clearing hphase => simp [Session.outcome?, hphase] at ho
      | cleared hphase => simpa [Session.outcome?, hphase, eq_comm] using ho
  · intro v d minted now answer hv hnone hend
    exact Session.go_of_end hv hnone hend
  · cases Session.decided rfl h with
    | pending hphase => simp [Session.outcome?, hphase] at ho
    | ended hending _ _ hclear =>
      cases hending with
      | clearing hphase => simp [Session.outcome?, hphase] at ho
      | cleared _ => exact ⟨_, _, rfl, hclear⟩
  · rintro before after past v result rfl hbefore hv
    obtain ⟨past', v', rest, hbefore', hafter, -⟩ := Machine.course_append.mp h
    obtain ⟨rfl, rfl⟩ : past = past' ∧ v = v' := by simpa [hbefore] using hbefore'
    exact (Session.ending hv hafter).2
  · rintro before after loop minted now a b past v call rfl hbefore hcall hkind
    exact Session.course_answered hbefore hcall hkind h b
  · have hstop := Session.course_stopping p supply id
      (.started p inbound outbound isCancelled begun) os
    rw [h, Option.map_some, Option.map_eq_some_iff] at hstop
    obtain ⟨⟨acts', t'⟩, hcourse, heq⟩ := hstop
    obtain ⟨rfl, ht⟩ := Prod.mk.inj heq
    exact ⟨t', hcourse, ht.trans ho⟩

def idleEnd : List Occasion :=
  [.turn .delivery 0 5 (some (.ok (.messages []))),
    .turn .closing 0 5 (some (.error (.unavailable "gone")))]

/-- A message cannot be saved, and the input is at its end. -/
def unsavedEnd : List Occasion :=
  [.outside (.send (.ok ⟨⟨"a", "one"⟩⟩)), .outside .finish, .turn .intake 0 0 none,
    .turn .intake 0 0 (some (.error (.unavailable "gone"))),
    .turn .closing 0 0 (some (.ok .done))]

theorem outcome_decided_idle_unsaved :
    (∃ t, Session.deskMachine.course .fresh idleEnd =
        some ([.did (.called (.fetchAll ⟨"desk"⟩) (.ok (.messages []))),
          .did (.called (.clear ⟨"desk"⟩) (.error (.unavailable "gone")))], t) ∧
      t.outcome? = some (.ok ()) ∧ Session.deskMachine.Meets .fresh idleEnd IsIdleAt) ∧
    ∃ t f, Session.deskMachine.course .fresh unsavedEnd =
        some ([.took (.ok ⟨⟨"a", "one"⟩⟩),
          .did (.called (.save ⟨"desk"⟩ ⟨⟨"a"⟩, "one"⟩) (.error (.unavailable "gone"))),
          .did (.called (.clear ⟨"desk"⟩) (.ok .done))], t) ∧
      t.outcome? = some (.error (Relay.brisk.chat.rulebook.statusOf f)) ∧
      Session.deskMachine.Meets .fresh unsavedEnd (Raises · · f) := by
  constructor
  · have h : Session.deskMachine.course .fresh idleEnd = some (_, _) := rfl
    obtain ⟨result, hresult, hidle, -⟩ := (outcome_decided rfl h rfl).1
    cases result with
    | ok u => exact ⟨_, h, rfl, hidle.mp rfl⟩
    | error f => cases hresult
  · have h : Session.deskMachine.course .fresh unsavedEnd = some (_, _) := rfl
    obtain ⟨result, hresult, -, hraises, -⟩ := (outcome_decided rfl h rfl).1
    cases result with
    | ok u => cases hresult
    | error f => exact ⟨_, f, h, congrArg some hresult, (hraises f).mp rfl⟩

end

end Chat

end NoteRelay
