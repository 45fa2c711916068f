import NoteRelay.Proofs.Chat.Outcome

/-!
# What the intake does about requests

The intake works through its input one item after the other. `Request.effect` is what has to be done
about a request, and `effects` lists what was done: every request is answered by a frame or has its
message saved, one of the two and once, before the next one is taken (`requests_answered`). Nothing
that a request says stops the intake. What stops it is listed by `Session.Raises`, but for the end
of its input.
-/

namespace NoteRelay

theorem Channel.queued_eq_of_next? {α : Type} {c c' : Channel α} {item : Option α}
    (h : c.next? = some (item, c')) : c.queued = item.toList ++ c'.queued := by
  cases item with
  | some a => exact queued_of_next? h
  | none =>
    unfold next? at h
    split at h
    · simp at h
    · split at h <;> simp at h
      simp [h]

theorem Channel.end_of_next? {α : Type} {c c' : Channel α} (h : c.next? = some (none, c')) :
    c.queued = [] ∧ c.isEnded = true := by
  unfold next? at h
  split at h
  · simp at h
  · rename_i hnil
    split at h
    · exact ⟨hnil, by assumption⟩
    · simp at h

namespace Chat

inductive Intake.Effect where
  | saved (message : ChatMessage)
  | answered (frame : Response)
  deriving DecidableEq

/-- What has to be done about a request, where `fresh` is the identity it gets when it names
none. -/
def Request.effect (b : Rulebook) (fresh : CorrelationId) (r : Request) : Intake.Effect :=
  match r.accept fresh with
  | .ok m => .saved m
  | .error f => .answered (.status (b.statusOf f))

/-- Every frame of the intake counts, and every save that succeeds. -/
def Deed.effect? : Deed → Option Intake.Effect
  | .called (.save _ m) (.ok _) => some (.saved m)
  | .sent .intake _ frame => some (.answered frame)
  | _ => none

def Act.item? : Act → Option Item
  | .took item => some item
  | .did _ => none

def items (acts : List Act) : List Item :=
  acts.filterMap Act.item?

def effects (acts : List Act) : List Intake.Effect :=
  acts.filterMap fun act => act.deed?.bind Deed.effect?

def Occasion.arrival? : Occasion → Option Item
  | .outside (.send item) => some item
  | _ => none

/-- How many identities are used up when the intake goes on. -/
def Occasion.minted? : Occasion → Option Nat
  | .turn .intake minted _ _ => some minted
  | _ => none

@[simp] theorem items_append (a b : List Act) : items (a ++ b) = items a ++ items b :=
  List.filterMap_append

@[simp] theorem effects_append (a b : List Act) : effects (a ++ b) = effects a ++ effects b :=
  List.filterMap_append

theorem Intake.received_request (b : Rulebook) (fresh : CorrelationId) (r : Request) :
    (∃ m, received b fresh (some (.ok r)) = .ok (.saving m) ∧ r.effect b fresh = .saved m) ∨
      ∃ status, received b fresh (some (.ok r)) = .ok (.refusing status) ∧
        r.effect b fresh = .answered (.status status) := by
  cases ha : r.accept fresh with
  | ok m => exact .inl ⟨m, by simp [received, ha], by simp [Request.effect, ha]⟩
  | error f =>
    have hf := Request.isRecoverable_of_accept ha
    exact .inr ⟨b.statusOf f, by simp [received, ha, hf], by simp [Request.effect, ha]⟩

namespace Session

/-- The intake has stopped, or the session does not run any more. -/
def IntakeRests (s : Session) : Prop :=
  ∀ i d, s.phase = .running i d → i = .ended

/-- What the intake has in hand, with the number of the identity that was fresh when it was taken:
the request whose message it saves or whose refusal it sends, and nothing when it reads. -/
def Holds (b : Rulebook) (supply : IdSupply) (s : Session) (held : Option (Item × Nat)) : Prop :=
  match s.phase with
  | .running .reading _ => held = none
  | .running .ended _ => held = none
  | .running (.saving m) _ =>
    ∃ r n, held = some (.ok r, n) ∧ r.effect b (supply.correlation n) = .saved m
  | .running (.refusing status) _ =>
    ∃ r n, held = some (.ok r, n) ∧
      r.effect b (supply.correlation n) = .answered (.status status)
  | _ => True

section
variable {p : Policy} {supply : IdSupply} {id : SessionId} {s t : Session} {loop : Loop}
  {minted now : Nat} {answer : Option (Except QueueFault QueueAnswer)} {i : Intake} {d : Delivery}

theorem items_acts : items (s.acts id loop answer t) =
    if t.isOver then [] else t.inbound.takenSince s.inbound := by
  simp [items, acts, List.filterMap_map, Function.comp_def, Act.item?]

theorem effects_acts : effects (s.acts id loop answer t) =
    (s.deedsWith id loop answer t).filterMap Deed.effect? := by
  have htook : (fun act : Act => act.deed?.bind Deed.effect?) ∘ Act.took = fun _ => none := rfl
  have hdid : (fun act : Act => act.deed?.bind Deed.effect?) ∘ Act.did = Deed.effect? := rfl
  rw [effects, acts, List.filterMap_append, List.filterMap_map, List.filterMap_map, htook, hdid]
  simp

theorem go_of_reading {item : Option Item} {inbound : Channel Item} (hs : s.Runs .reading d)
    (hnext : s.inbound.next? = some (item, inbound)) :
    s.go p supply minted now answer .intake = some { s with
      inbound
      phase := .ofIntake d (Intake.received p.rulebook (supply.correlation minted) item) } := by
  simp [go, hs.1, hs.2, goIntake, hnext]

theorem go_of_request {r : Request} {rest : List Item} (hs : s.Runs .reading d)
    (hqueued : s.inbound.queued = .ok r :: rest) :
    ∃ v i, s.go p supply minted now answer .intake = some v ∧ v.phase = .running i d ∧
      i ≠ .ended ∧ v.inbound.queued = rest := by
  have hnext : s.inbound.next? = some (some (.ok r), { s.inbound with queued := rest }) := by
    simp [Channel.next?, hqueued]
  rw [go_of_reading hs hnext]
  obtain ⟨m, hr, -⟩ | ⟨status, hr, -⟩ :=
    Intake.received_request p.rulebook (supply.correlation minted) r
  · exact ⟨_, .saving m, rfl, by rw [hr]; rfl, by simp, rfl⟩
  · exact ⟨_, .refusing status, rfl, by rw [hr]; rfl, by simp, rfl⟩

/-- The intake comes to its end where nothing is left to read. -/
theorem queued_of_goIntake_ended {b : Rulebook} (hc : s.isCancelled = false)
    (h : s.goIntake b supply minted answer i = some (.ok .ended, t)) :
    s.inbound.queued = [] ∧ s.inbound.isEnded = true := by
  cases i with
  | reading =>
    simp only [goIntake, hc, guarded_live, Option.map_map, Option.map_eq_some_iff] at h
    obtain ⟨⟨item, inbound⟩, hnext, hr⟩ := h
    obtain ⟨hr, -⟩ := Prod.mk.inj hr
    cases item with
    | none => exact Channel.end_of_next? hnext
    | some item =>
      cases item with
      | error f => simp [Intake.received] at hr
      | ok r =>
        obtain ⟨m, hr', -⟩ | ⟨status, hr', -⟩ :=
          Intake.received_request b (supply.correlation minted) r
        · simp [hr'] at hr
        · simp [hr'] at hr
  | saving m =>
    simp only [goIntake, hc, guarded_live, Option.map_map, Option.map_eq_some_iff] at h
    obtain ⟨a, -, hr⟩ := h
    cases a <;> simp [Except.bind, Intake.saved] at hr
  | refusing status =>
    simp only [goIntake, Option.map_eq_some_iff] at h
    obtain ⟨r, -, hr⟩ := h
    cases r <;> simp at hr
  | ended => simp [goIntake] at h

theorem stops_of_intake (hs : s.phase = .running i d)
    (h : s.go p supply minted now answer .intake = some t) :
    (∃ i', t.phase = .running i' d ∧ i' ≠ .ended) ∨
      (t.phase = .running .ended d ∧ s.inbound.queued = [] ∧ s.inbound.isEnded = true) ∨
      ∃ f, t.phase = .closing (.error f) ∧ s.Raises (.turn .intake minted now answer) f := by
  cases hc : s.isCancelled with
  | true =>
    have hturn : Turn p ⟨""⟩ now .intake s (s.deedsWith ⟨""⟩ .intake answer t) t :=
      turn_of_answer h
    exact .inr (.inr ⟨.cancelled, by rw [(hturn.of_cancelled hs hc).2],
      .cancelled (by simp) hs hc⟩)
  | false =>
    obtain ⟨i', d', ht⟩ | hfailed := decided_of_intake ⟨hs, hc⟩ h
    · simp only [go, hs, Option.map_eq_some_iff, Prod.exists] at h
      obtain ⟨r, v, hgo, rfl⟩ := h
      obtain ⟨rfl, rfl⟩ : r = .ok i' ∧ d = d' := by
        cases r with
        | ok i => simpa [Phase.ofIntake] using ht
        | error f => simp [Phase.ofIntake] at ht
      by_cases hended : i' = .ended
      · subst hended
        exact .inr (.inl ⟨ht, queued_of_goIntake_ended hc hgo⟩)
      · exact .inl ⟨i', ht, hended⟩
    · exact .inr (.inr hfailed)

-- ---------------------------------------------------------------------------
-- The turns of a session, to its intake
-- ---------------------------------------------------------------------------

/-- What a turn is to the intake, with the items that it takes and the effects that it has. -/
inductive IntakeTurn (b : Rulebook) (supply : IdSupply) (minted : Nat) (s : Session) :
    Loop → List Item → List Intake.Effect → Session → Prop where
  /-- The intake stays where it is, or the session does not run any more. -/
  | aside {loop : Loop} {t : Session} :
      (∀ i d, t.phase = .running i d → ∃ d', s.phase = .running i d') →
      (t.isOver = false → t.inbound = s.inbound) → IntakeTurn b supply minted s loop [] [] t
  | read {d : Delivery} {item : Option Item} {inbound : Channel Item} :
      s.Runs .reading d → s.inbound.next? = some (item, inbound) →
      IntakeTurn b supply minted s .intake item.toList [] { s with
        inbound
        phase := .ofIntake d (Intake.received b (supply.correlation minted) item) }
  | saved {m : ChatMessage} {d : Delivery} :
      s.Runs (.saving m) d →
      IntakeTurn b supply minted s .intake [] [.saved m] { s with phase := .running .reading d }
  | refused {status : Status} {d : Delivery} {outbound : Channel Response} :
      s.Runs (.refusing status) d →
      IntakeTurn b supply minted s .intake [] [.answered (.status status)]
        { s with outbound, phase := .running .reading d }

theorem IntakeTurn.of_aside {b : Rulebook} {ds : List Deed}
    (hphase : ∀ i d, t.phase = .running i d → ∃ d', s.phase = .running i d')
    (hinbound : t.isOver = true ∨ t.inbound = s.inbound)
    (hds : ds.filterMap Deed.effect? = []) :
    IntakeTurn b supply minted s loop (if t.isOver then [] else t.inbound.takenSince s.inbound)
      (ds.filterMap Deed.effect?) t := by
  have hitems : (if t.isOver then [] else t.inbound.takenSince s.inbound) = [] := by
    obtain hover | hinbound := hinbound
    · simp [hover]
    · simp [hinbound]
  rw [hitems, hds]
  exact .aside hphase fun hrun => hinbound.resolve_left (by simp [hrun])

theorem intakeTurn_of_go (h : s.go p supply minted now answer loop = some t) :
    IntakeTurn p.rulebook supply minted s loop (items (s.acts id loop answer t))
      (effects (s.acts id loop answer t)) t := by
  rw [items_acts, effects_acts]
  have hturn : Turn p id now loop s (s.deedsWith id loop answer t) t := turn_of_answer h
  generalize s.deedsWith id loop answer t = ds at hturn ⊢
  cases hturn with
  | read hs hnext _ | broken hs hnext _ =>
    -- The turn does not say which identity was fresh, so that the phase is read off the machine.
    rw [go_of_reading hs hnext, Option.some.injEq] at h
    have hread : IntakeTurn p.rulebook supply minted s _ _ _ _ := .read hs hnext
    rw [h] at hread
    simpa [isOver, outcome?, Channel.takenSince_of_next? hnext] using hread
  | saved hs =>
    have hsaved : IntakeTurn p.rulebook supply minted s _ _ _ _ := .saved hs
    simpa [isOver, outcome?, Deed.effect?] using hsaved
  | @refused _ status d outbound hs _ =>
    have hrefused := @IntakeTurn.refused p.rulebook supply minted s status d outbound hs
    simpa [isOver, outcome?, Deed.effect?] using hrefused
  | cancelled | unsaved | unheard | unfetched => exact .of_aside (by simp) (.inr rfl) rfl
  | finished => exact .of_aside (by simp) (.inr rfl) rfl
  | cleared => exact .of_aside (by simp [Session.finished]) (.inl rfl) rfl
  | fetched hs _ _ | rested hs _ _ | paced hs _ _ | delivered hs _ _ =>
    refine .of_aside ?_ (.inr rfl) rfl
    rintro i d ⟨⟩
    exact ⟨_, hs.1⟩
  | foundNothing hs _ _ _ | settled hs _ =>
    refine .of_aside ?_ (.inr rfl) rfl
    rintro i d ⟨⟩
    exact ⟨_, hs.1⟩

theorem intakeTurn_of_occur {o : Occasion} {new : List Act}
    (h : (machine p supply id).occur s o = some (new, t)) :
    (∃ move, o = .outside move ∧ new = [] ∧ s.clientMove move = some t) ∨
      ∃ loop minted now answer, o = .turn loop minted now answer ∧ s.isOver = false ∧
        IntakeTurn p.rulebook supply minted s loop (items new) (effects new) t := by
  obtain ⟨move, ho, hnew, hm⟩ | ⟨loop, minted, now, answer, rfl, rfl, hturn⟩ := turn_of_occur h
  · exact .inl ⟨move, ho, hnew, hm⟩
  · exact .inr ⟨loop, minted, now, answer, rfl, by rw [isOver, hturn.outcome?_eq_none]; rfl,
      intakeTurn_of_go (occur_turn.mp h).1⟩

-- ---------------------------------------------------------------------------
-- Along a course
-- ---------------------------------------------------------------------------

theorem queued_clientMove {move : Move} (h : s.clientMove move = some t) :
    t.inbound.queued = s.inbound.queued ++ (Occasion.outside move).arrival?.toList := by
  cases move with
  | send item =>
    simp only [clientMove] at h
    split at h <;> simp at h
    rename_i hsend
    subst h
    exact Channel.queued_of_send? hsend
  | read =>
    simp only [clientMove] at h
    split at h <;> simp at h
    subst h
    simp [Occasion.arrival?]
  | finish | leave | cancel =>
    simp only [clientMove, Option.some.injEq] at h
    subst h
    simp [Occasion.arrival?, Channel.ended]

theorem isOver_clientMove {move : Move} (h : s.clientMove move = some t) :
    t.isOver = s.isOver := by
  simp [isOver, outcome?, phase_clientMove h]

/-- What has come in has been taken in its order, or it still waits in that order. -/
theorem arrivals_eq {start : Session} {os : List Occasion} {acts : List Act}
    (h : (machine p supply id).course start os = some (acts, t)) :
    ∃ rest, start.inbound.queued ++ os.filterMap Occasion.arrival? = items acts ++ rest ∧
      (t.isOver = false → rest = t.inbound.queued) := by
  refine Machine.course_induction (P := fun os acts t => ∃ rest,
    start.inbound.queued ++ os.filterMap Occasion.arrival? = items acts ++ rest ∧
      (t.isOver = false → rest = t.inbound.queued)) ⟨_, by simp [items], fun _ => rfl⟩ ?_ h
  rintro os acts v o new t - ⟨rest, hrest, hqueued⟩ ho
  have hnews : start.inbound.queued ++ (os ++ [o]).filterMap Occasion.arrival? =
      items acts ++ (rest ++ o.arrival?.toList) := by
    rw [List.filterMap_append, ← List.append_assoc, hrest, List.append_assoc]
    cases ha : o.arrival? <;> simp [ha]
  rw [hnews, items_append]
  obtain ⟨move, rfl, rfl, hm⟩ | ⟨loop, minted, now, answer, rfl, hover, hturn⟩ :=
    intakeTurn_of_occur ho
  · refine ⟨rest ++ (Occasion.outside move).arrival?.toList, by simp [items], fun ht => ?_⟩
    rw [queued_clientMove hm, hqueued (isOver_clientMove hm ▸ ht)]
  · have hnone : (Occasion.turn loop minted now answer).arrival?.toList = [] := rfl
    rw [hnone, List.append_nil, hqueued hover]
    generalize items new = taken, effects new = done at hturn
    cases hturn with
    | aside _ hinbound => exact ⟨v.inbound.queued, by simp, fun ht => by rw [hinbound ht]⟩
    | @read _ _ inbound _ hnext =>
      refine ⟨inbound.queued, ?_, fun _ => rfl⟩
      rw [Channel.queued_eq_of_next? hnext, List.append_assoc]
    | saved | refused => exact ⟨v.inbound.queued, by simp, fun _ => rfl⟩

theorem rests {os : List Occasion} {acts : List Act} (hs : s.IntakeRests)
    (h : (machine p supply id).course s os = some (acts, t)) :
    items acts = [] ∧ effects acts = [] ∧ t.IntakeRests := by
  refine Machine.course_induction (P := fun _ acts t => items acts = [] ∧ effects acts = [] ∧
    t.IntakeRests) ⟨rfl, rfl, hs⟩ ?_ h
  rintro os acts v o new t - ⟨hitems, heffects, hv⟩ ho
  rw [items_append, effects_append, hitems, heffects, List.nil_append, List.nil_append]
  obtain ⟨move, rfl, rfl, hm⟩ | ⟨loop, minted, now, answer, rfl, -, hturn⟩ :=
    intakeTurn_of_occur ho
  · refine ⟨rfl, rfl, fun i d ht => hv i d ?_⟩
    rw [← phase_clientMove hm, ht]
  · generalize items new = taken, effects new = done at hturn
    cases hturn with
    | aside hphase _ =>
      refine ⟨rfl, rfl, fun i d ht => ?_⟩
      obtain ⟨d', hd'⟩ := hphase i d ht
      exact hv i d' hd'
    | read hs _ | saved hs | refused hs => simpa using hv _ _ hs.1

/-- What has been taken and done: each request that was taken has had its effect, but for one item
at most, which the intake still holds. -/
structure Answered (p : Policy) (supply : IdSupply) (os : List Occasion) (acts : List Act)
    (handled : List (Request × Nat)) (held : Option (Item × Nat)) : Prop where
  items_eq : items acts = handled.map (fun h => .ok h.1) ++ held.toList.map Prod.fst
  effects_eq : effects acts =
    handled.map fun h => h.1.effect p.rulebook (supply.correlation h.2)
  minted : (handled.map Prod.snd ++ held.toList.map Prod.snd).Sublist
    (os.filterMap Occasion.minted?)

variable {os : List Occasion} {acts new : List Act} {handled : List (Request × Nat)}
  {held : Option (Item × Nat)} {o : Occasion}

theorem Answered.aside (h : Answered p supply os acts handled held) (hitems : items new = [])
    (heffects : effects new = []) : Answered p supply (os ++ [o]) (acts ++ new) handled held where
  items_eq := by simp [hitems, h.items_eq]
  effects_eq := by simp [heffects, h.effects_eq]
  minted := h.minted.trans (by simp)

theorem Answered.take (h : Answered p supply os acts handled none) {item : Item}
    (hitems : items new = [item]) (heffects : effects new = []) (ho : o.minted? = some minted) :
    Answered p supply (os ++ [o]) (acts ++ new) handled (some (item, minted)) where
  items_eq := by simp [hitems, h.items_eq]
  effects_eq := by simp [heffects, h.effects_eq]
  minted := by
    simpa [ho] using h.minted.append_right [minted]

theorem Answered.handle {r : Request} {n : Nat}
    (h : Answered p supply os acts handled (some (.ok r, n))) (hitems : items new = [])
    (heffects : effects new = [r.effect p.rulebook (supply.correlation n)]) :
    Answered p supply (os ++ [o]) (acts ++ new) (handled ++ [(r, n)]) none where
  items_eq := by simp [hitems, h.items_eq]
  effects_eq := by simp [heffects, h.effects_eq]
  minted := by simpa using h.minted.trans (by simp)

theorem Holds.of_aside {b : Rulebook} (h : s.Holds b supply held)
    (hphase : ∀ i d, t.phase = .running i d → ∃ d', s.phase = .running i d') :
    t.Holds b supply held := by
  unfold Holds at h ⊢
  cases ht : t.phase with
  | running i d =>
    obtain ⟨d', hs⟩ := hphase i d ht
    rw [hs] at h
    cases i <;> exact h
  | closing | closed => trivial

theorem answered {start : Session} (hstart : start.Holds p.rulebook supply none)
    (h : (machine p supply id).course start os = some (acts, t)) :
    ∃ handled held, Answered p supply os acts handled held ∧ t.Holds p.rulebook supply held := by
  refine Machine.course_induction (P := fun os acts t => ∃ handled held,
    Answered p supply os acts handled held ∧ t.Holds p.rulebook supply held)
    ⟨[], none, ⟨rfl, rfl, by simp⟩, hstart⟩ ?_ h
  rintro os acts v o new t - ⟨handled, held, hv, hheld⟩ ho
  obtain ⟨move, rfl, rfl, hm⟩ | ⟨loop, minted, now, answer, rfl, -, hturn⟩ :=
    intakeTurn_of_occur ho
  · refine ⟨handled, held, hv.aside rfl rfl, ?_⟩
    unfold Holds
    rwa [phase_clientMove hm]
  · generalize hitems : items new = taken, heffects : effects new = done at hturn
    cases hturn with
    | aside hphase _ =>
      exact ⟨handled, held, hv.aside hitems heffects, hheld.of_aside hphase⟩
    | @read d item inbound hs hnext =>
      obtain rfl : held = none := by simpa [Holds, hs.1] using hheld
      cases item with
      | none => exact ⟨handled, none, hv.aside hitems heffects, rfl⟩
      | some item =>
        refine ⟨handled, some (item, minted), hv.take hitems heffects rfl, ?_⟩
        cases item with
        | error f => trivial
        | ok r =>
          obtain ⟨m, hr, he⟩ | ⟨status, hr, he⟩ :=
            Intake.received_request p.rulebook (supply.correlation minted) r
          · rw [hr]
            exact ⟨r, minted, rfl, he⟩
          · rw [hr]
            exact ⟨r, minted, rfl, he⟩
    | saved hs =>
      obtain ⟨r, n, rfl, he⟩ : ∃ r n, held = some (.ok r, n) ∧ _ := by
        simpa [Holds, hs.1] using hheld
      exact ⟨_, none, hv.handle hitems (by rw [heffects, he]), rfl⟩
    | refused hs =>
      obtain ⟨r, n, rfl, he⟩ : ∃ r n, held = some (.ok r, n) ∧ _ := by
        simpa [Holds, hs.1] using hheld
      exact ⟨_, none, hv.handle hitems (by rw [heffects, he]), rfl⟩

end

end Session

section
variable {p : Policy} {supply : IdSupply} {id : SessionId} {start t : Session}
  {inbound : Channel Item} {outbound : Channel Response} {isCancelled : Bool} {begun : Nat}
  {os : List Occasion} {acts : List Act}

/-- What the intake does about its input. It takes items in the order in which they come in, and
every request that it has taken has had its one effect, in that order, but for the one that it may
still hold. A request is accepted, or refused with a failure that leaves the session open, so that
the intake goes on with every request. It stops at the end of its input, or on an occasion on which
the session comes to a failure; then, and when the delivery ends the session, nothing more is taken
or done. -/
theorem requests_answered (hstart : start = .started p inbound outbound isCancelled begun)
    (h : (Session.machine p supply id).course start os = some (acts, t)) :
    (∀ (r : Request) fresh, (∃ m, r.accept fresh = .ok m) ∨
      ∃ f, r.accept fresh = .error f ∧ f.isRecoverable = true) ∧
    (∃ rest, inbound.queued ++ os.filterMap Occasion.arrival? = items acts ++ rest ∧
      (t.isOver = false → rest = t.inbound.queued)) ∧
    (∃ handled held, Session.Answered p supply os acts handled held ∧
      t.Holds p.rulebook supply held) ∧
    (∀ (v : Session) d r rest minted now answer, v.Runs .reading d →
      v.inbound.queued = .ok r :: rest →
      ∃ v' i, v.go p supply minted now answer .intake = some v' ∧ v'.phase = .running i d ∧
        i ≠ .ended ∧ v'.inbound.queued = rest) ∧
    (∀ (v v' : Session) i d minted now answer, v.phase = .running i d →
      v.go p supply minted now answer .intake = some v' →
      (∃ i', v'.phase = .running i' d ∧ i' ≠ .ended) ∨
        (v'.phase = .running .ended d ∧ v.inbound.queued = [] ∧ v.inbound.isEnded = true) ∨
        ∃ f, v'.phase = .closing (.error f) ∧ v.Raises (.turn .intake minted now answer) f) ∧
    (∀ before after past v, os = before ++ after →
      (Session.machine p supply id).course start before = some (past, v) → v.IntakeRests →
      items acts = items past ∧ effects acts = effects past) := by
  have hholds : start.Holds p.rulebook supply none := by
    rw [hstart]
    rfl
  have hinbound : start.inbound = inbound := by
    rw [hstart]
    rfl
  refine ⟨?_, hinbound ▸ Session.arrivals_eq h, Session.answered hholds h, ?_, ?_, ?_⟩
  · intro r fresh
    cases ha : r.accept fresh with
    | ok m => exact .inl ⟨m, rfl⟩
    | error f => exact .inr ⟨f, rfl, Request.isRecoverable_of_accept ha⟩
  · intro v d r rest minted now answer hv hqueued
    exact Session.go_of_request hv hqueued
  · intro v v' i d minted now answer hv hgo
    exact Session.stops_of_intake hv hgo
  · rintro before after past v rfl hbefore hv
    obtain ⟨past', v', new, hbefore', hafter, rfl⟩ := Machine.course_append.mp h
    obtain ⟨rfl, rfl⟩ : past = past' ∧ v = v' := by simpa [hbefore] using hbefore'
    obtain ⟨hitems, heffects, -⟩ := Session.rests hv hafter
    simp [hitems, heffects]

/-- A message, a blank text and then a failure to read. -/
def mixedInput : List Occasion :=
  [.outside (.send (.ok ⟨⟨"a", "one"⟩⟩)), .outside (.send (.ok ⟨⟨"", "   "⟩⟩)),
    .outside (.send (.error (.validation []))), .outside (.send (.ok ⟨⟨"b", "two"⟩⟩)),
    .turn .intake 0 0 none, .turn .intake 0 0 (some (.ok .done)), .turn .intake 0 0 none,
    .turn .intake 1 0 none, .turn .intake 1 0 none]

theorem requests_answered_mixed :
    ∃ acts t handled held, Session.deskMachine.course .fresh mixedInput = some (acts, t) ∧
      items acts = [.ok ⟨⟨"a", "one"⟩⟩, .ok ⟨⟨"", "   "⟩⟩, .error (.validation [])] ∧
      effects acts = [.saved ⟨⟨"a"⟩, "one"⟩,
        .answered (.status (Relay.brisk.chat.rulebook.statusOf (.ofRejection .emptyText)))] ∧
      Session.Answered Relay.brisk.chat .counting mixedInput acts handled held ∧
      t.phase = .closing (.error (.validation [])) := by
  have h : Session.deskMachine.course .fresh mixedInput = some (_, _) := rfl
  obtain ⟨handled, held, hanswered, -⟩ := (requests_answered rfl h).2.2.1
  exact ⟨_, _, handled, held, h, rfl, rfl, hanswered, rfl⟩

end

end Chat

end NoteRelay
