import NoteRelay.Proofs.Chat.Turn
import NoteRelay.Proofs.Course

/-!
# The courses of a chat session

A session seen alone, as a machine. At every occasion its client does something, or its lifetime is
cancelled, or one of its loops may go on, at any time and with any answer to its call: nothing is
said here of the queue that answers.

`Session.turn_of_occur` reads a step of a course as a turn. Once it is decided how a session
ends, nothing follows but the one turn that clears the outbox (`Session.ending`).
-/

namespace NoteRelay

/-- What has been received from a channel since it was in an earlier state, when nothing was
sent. -/
def Channel.takenSince {α : Type} (c before : Channel α) : List α :=
  before.queued.take (before.queued.length - c.queued.length)

@[simp] theorem Channel.takenSince_self {α : Type} (c : Channel α) : c.takenSince c = [] := by
  simp [takenSince]

theorem Channel.takenSince_of_next? {α : Type} {c c' : Channel α} {item : Option α}
    (h : c.next? = some (item, c')) : c'.takenSince c = item.toList := by
  cases item with
  | some a => simp [takenSince, queued_of_next? h]
  | none =>
    unfold next? at h
    split at h
    · simp at h
    · split at h <;> simp at h
      simp [h]

namespace Chat

inductive Occasion where
  | outside (move : Session.Move)
  /-- A loop may go on, with the answer to its call if there is one. So many identities are used
  up. -/
  | turn (loop : Loop) (minted now : Nat) (answer : Option (Except QueueFault QueueAnswer))

/-- What a session does on a course: besides its deeds, it takes items of its input. -/
inductive Act where
  | took (item : Item)
  | did (deed : Deed)

def Act.deed? : Act → Option Deed
  | .took _ => none
  | .did deed => some deed

namespace Session

/-- What a loop does in going on from `s` to `t`. A session that is over lets go of its input, which
is not taking it. -/
def acts (id : SessionId) (loop : Loop) (answer : Option (Except QueueFault QueueAnswer))
    (s t : Session) : List Act :=
  (if t.isOver then [] else t.inbound.takenSince s.inbound).map .took ++
    (s.deedsWith id loop answer t).map .did

def machine (p : Policy) (supply : IdSupply) (id : SessionId) : Machine Session Occasion Act where
  occur s
    | .outside move => (s.clientMove move).map fun t => ([], t)
    | .turn loop minted now answer =>
      (s.go p supply minted now answer loop).map fun t => (s.acts id loop answer t, t)

section
variable {p : Policy} {supply : IdSupply} {id : SessionId} {s t : Session} {o : Occasion}
  {new : List Act} {minted now : Nat} {loop : Loop}
  {answer : Option (Except QueueFault QueueAnswer)}

theorem occur_outside {move : Move} :
    (machine p supply id).occur s (.outside move) = some (new, t) ↔
      s.clientMove move = some t ∧ new = [] := by
  simp only [machine, Option.map_eq_some_iff, Prod.mk.injEq]
  constructor
  · rintro ⟨t, hm, rfl, rfl⟩
    exact ⟨hm, rfl⟩
  · rintro ⟨hm, rfl⟩
    exact ⟨t, hm, rfl, rfl⟩

theorem occur_turn :
    (machine p supply id).occur s (.turn loop minted now answer) = some (new, t) ↔
      s.go p supply minted now answer loop = some t ∧ new = s.acts id loop answer t := by
  simp only [machine, Option.map_eq_some_iff, Prod.mk.injEq]
  constructor
  · rintro ⟨t, hgo, rfl, rfl⟩
    exact ⟨hgo, rfl⟩
  · rintro ⟨hgo, rfl⟩
    exact ⟨t, hgo, rfl, rfl⟩

theorem isCancelled_clientMove {move : Move} (h : s.clientMove move = some t) :
    t.isCancelled = true ↔ s.isCancelled = true ∨ move = .cancel := by
  cases move with
  | send item | read =>
    simp only [clientMove] at h
    split at h <;> simp at h
    subst h
    simp
  | finish | leave | cancel =>
    simp only [clientMove, Option.some.injEq] at h
    subst h
    simp

/-- A step of a course leaves the phase and what has been done alone, or it is a turn. -/
theorem turn_of_occur (h : (machine p supply id).occur s o = some (new, t)) :
    (∃ move, o = .outside move ∧ new = [] ∧ s.clientMove move = some t) ∨
      ∃ loop minted now answer, o = .turn loop minted now answer ∧
        new = s.acts id loop answer t ∧
        Turn p id now loop s (s.deedsWith id loop answer t) t := by
  cases o with
  | outside move =>
    obtain ⟨hm, rfl⟩ := occur_outside.mp h
    exact .inl ⟨move, rfl, rfl, hm⟩
  | turn loop minted now answer =>
    obtain ⟨hgo, rfl⟩ := occur_turn.mp h
    exact .inr ⟨loop, minted, now, answer, rfl, rfl, turn_of_answer hgo⟩

/-- A loop that only comes to a decision has done nothing else. -/
theorem acts_of_decided {phase : Phase} (hds : s.deedsWith id loop answer { s with phase } = []) :
    s.acts id loop answer { s with phase } = [] := by
  simp [acts, hds]

theorem mem_deedsWith_of_mem_acts {deed : Deed} (h : .did deed ∈ s.acts id loop answer t) :
    deed ∈ s.deedsWith id loop answer t := by
  simpa [acts] using h

theorem acts_of_finished {outcome : Except Status Unit} :
    s.acts id loop answer (s.finished outcome) =
      (s.deedsWith id loop answer (s.finished outcome)).map .did := by
  simp [acts, isOver, outcome?, finished]

end

end Session

-- ---------------------------------------------------------------------------
-- When a session takes a turn
-- ---------------------------------------------------------------------------

section
variable {p : Policy} {id : SessionId} {now : Nat} {loop : Loop} {s t : Session} {ds : List Deed}

/-- A turn is taken by a loop that runs, or that sees the cancellation and nothing else, or by the
session at its end. -/
theorem Turn.taken (h : Turn p id now loop s ds t) :
    (loop ≠ .closing ∧ ∃ i d, s.Runs i d) ∨
      (loop ≠ .closing ∧ (∃ i d, s.phase = .running i d) ∧ s.isCancelled = true ∧ ds = [] ∧
        t = { s with phase := .closing (.error .cancelled) }) ∨
      (loop = .closing ∧ ∃ result answer, s.phase = .closing result ∧
        ds = [.called (.clear id) answer] ∧
        t = s.finished (result.mapError p.rulebook.statusOf)) := by
  cases h with
  | cancelled hloop hs hc => exact .inr (.inl ⟨hloop, ⟨_, _, hs⟩, hc, rfl, rfl⟩)
  | cleared hs => exact .inr (.inr ⟨rfl, _, _, hs, rfl, rfl⟩)
  | unheard hloop hs => exact .inl ⟨hloop, _, _, hs⟩
  | saved hs | unsaved hs => exact .inl ⟨by simp, _, _, hs⟩
  | refused hs _ | unfetched hs _ | settled hs _ => exact .inl ⟨by simp, _, _, hs⟩
  | read hs _ _ | broken hs _ _ | fetched hs _ _ => exact .inl ⟨by simp, _, _, hs⟩
  | rested hs _ _ | paced hs _ _ | delivered hs _ _ => exact .inl ⟨by simp, _, _, hs⟩
  | foundNothing hs _ _ _ | finished hs _ _ _ => exact .inl ⟨by simp, _, _, hs⟩

theorem Turn.isCancelled_eq (h : Turn p id now loop s ds t) : t.isCancelled = s.isCancelled := by
  cases h <;> rfl

/-- The loops leave the clearing of the outbox to the end. -/
theorem Turn.clear_notMem (h : Turn p id now loop s ds t) (hloop : loop ≠ .closing)
    (answer : Except QueueFault QueueAnswer) : .called (.clear id) answer ∉ ds := by
  cases h with
  | cleared _ => exact absurd rfl hloop
  | _ => simp

theorem Turn.stage_ne_finished (h : Turn p id now loop s ds t)
    (hs : ∀ i d, s.phase = .running i d → d.stage ≠ .finished) {i : Intake} {d : Delivery}
    (ht : t.phase = .running i d) : d.stage ≠ .finished := by
  cases h with
  | read hruns _ _ | saved hruns | refused hruns _ =>
    cases ht
    exact hs _ _ hruns.1
  | fetched | foundNothing | rested | paced | delivered =>
    cases ht
    simp
  | settled =>
    cases ht
    exact Stage.ofSnapshot_ne_finished _
  | _ => cases ht

theorem Turn.of_cancelled (h : Turn p id now loop s ds t) {i : Intake} {d : Delivery}
    (hs : s.phase = .running i d) (hc : s.isCancelled = true) :
    ds = [] ∧ t = { s with phase := .closing (.error .cancelled) } := by
  obtain ⟨-, i, d, -, hlive⟩ | ⟨-, -, -, hds, ht⟩ | ⟨-, result, answer, hclosing, -, -⟩ := h.taken
  · simp [hc] at hlive
  · exact ⟨hds, ht⟩
  · simp [hs] at hclosing

theorem Turn.of_closing (h : Turn p id now loop s ds t) {result : Except Failure Unit}
    (hs : s.phase = .closing result) :
    loop = .closing ∧ (∃ answer, ds = [.called (.clear id) answer]) ∧
      t = s.finished (result.mapError p.rulebook.statusOf) := by
  obtain ⟨-, i, d, hruns, -⟩ | ⟨-, ⟨i, d, hruns⟩, -⟩ |
    ⟨hloop, result', answer, hclosing, hds, ht⟩ := h.taken
  · simp [hs] at hruns
  · simp [hs] at hruns
  · obtain rfl : result = result' := by simpa [hs] using hclosing
    exact ⟨hloop, ⟨answer, hds⟩, ht⟩

theorem Turn.not_closed (h : Turn p id now loop s ds t) {outcome : Except Status Unit} :
    s.phase ≠ .closed outcome := by
  intro hs
  obtain ⟨-, i, d, hruns, -⟩ | ⟨-, ⟨i, d, hruns⟩, -⟩ | ⟨-, result, answer, hclosing, -, -⟩ :=
    h.taken
  · simp [hs] at hruns
  · simp [hs] at hruns
  · simp [hs] at hclosing

theorem Turn.outcome?_eq_none (h : Turn p id now loop s ds t) : s.outcome? = none := by
  cases hphase : s.phase with
  | closed outcome => exact absurd hphase h.not_closed
  | _ => simp [Session.outcome?, hphase]

end

-- ---------------------------------------------------------------------------
-- Along a course
-- ---------------------------------------------------------------------------

namespace Session

section
variable {p : Policy} {supply : IdSupply} {id : SessionId} {s t t' : Session} {o : Occasion}
  {os : List Occasion} {acts new : List Act}

theorem isCancelled_of_occur (h : (machine p supply id).occur s o = some (new, t)) :
    t.isCancelled = true ↔ s.isCancelled = true ∨ o = .outside .cancel := by
  obtain ⟨move, rfl, -, hm⟩ | ⟨loop, minted, now, answer, rfl, -, hturn⟩ := turn_of_occur h
  · simpa using isCancelled_clientMove hm
  · simp [hturn.isCancelled_eq]

theorem isCancelled_of_course (h : (machine p supply id).course s os = some (acts, t)) :
    t.isCancelled = true ↔ s.isCancelled = true ∨ .outside .cancel ∈ os := by
  refine Machine.course_induction (P := fun os _ t => t.isCancelled = true ↔
    s.isCancelled = true ∨ .outside .cancel ∈ os) (by simp) ?_ h
  intro os acts v o new t _ hv hoccur
  rw [isCancelled_of_occur hoccur, hv, List.mem_append, List.mem_singleton, or_assoc,
    eq_comm (a := o)]

theorem stage_ne_finished {inbound : Channel Item} {outbound : Channel Response}
    {isCancelled : Bool} {now : Nat}
    (h : (machine p supply id).course (.started p inbound outbound isCancelled now) os =
      some (acts, s)) :
    ∀ i d, s.phase = .running i d → d.stage ≠ .finished := by
  refine Machine.course_induction
    (P := fun _ _ s => ∀ i d, s.phase = .running i d → d.stage ≠ .finished) ?_ ?_ h
  · rintro i d ⟨⟩
    simp [Delivery.started]
  · intro os acts v o new t _ hv hoccur i d ht
    obtain ⟨move, -, -, hm⟩ | ⟨_, _, _, _, -, -, hturn⟩ := turn_of_occur hoccur
    · exact hv i d ((phase_clientMove hm).symm.trans ht)
    · exact hturn.stage_ne_finished hv ht

/-- What a session does once it is decided how it ends, and where it gets. -/
inductive Ending (p : Policy) (id : SessionId) (result : Except Failure Unit) :
    List Act → Session → Prop where
  | clearing {t : Session} : t.phase = .closing result → Ending p id result [] t
  | cleared {t : Session} {answer : Except QueueFault QueueAnswer} :
      t.phase = .closed (result.mapError p.rulebook.statusOf) →
      Ending p id result [.did (.called (.clear id) answer)] t

theorem Ending.outside {result : Except Failure Unit} {move : Move}
    (h : Ending p id result acts t) (hm : t.clientMove move = some t') :
    Ending p id result acts t' := by
  cases h with
  | clearing hphase => exact .clearing ((phase_clientMove hm).trans hphase)
  | cleared hphase => exact .cleared ((phase_clientMove hm).trans hphase)

theorem Ending.turn {result : Except Failure Unit} {now : Nat} {loop : Loop}
    {answer : Option (Except QueueFault QueueAnswer)} (h : Ending p id result acts t)
    (hturn : Turn p id now loop t (t.deedsWith id loop answer t') t') :
    loop = .closing ∧ Ending p id result (acts ++ t.acts id loop answer t') t' := by
  cases h with
  | clearing hphase =>
    obtain ⟨hloop, ⟨answer, hds⟩, rfl⟩ := hturn.of_closing hphase
    rw [acts_of_finished, hds]
    exact ⟨hloop, .cleared rfl⟩
  | cleared hphase => exact absurd hphase hturn.not_closed

theorem ending {result : Except Failure Unit} (hs : s.phase = .closing result)
    (h : (machine p supply id).course s os = some (acts, t)) :
    Ending p id result acts t ∧
      ∀ loop minted now answer, .turn loop minted now answer ∈ os → loop = .closing := by
  refine Machine.course_induction (P := fun os acts t => Ending p id result acts t ∧
    ∀ loop minted now answer, .turn loop minted now answer ∈ os → loop = .closing)
    ⟨.clearing hs, by simp⟩ ?_ h
  rintro os acts v o new t - ⟨hv, hos⟩ hoccur
  simp only [List.mem_append, List.mem_singleton]
  obtain ⟨move, rfl, rfl, hm⟩ | ⟨loop, _, _, answer, rfl, rfl, hturn⟩ := turn_of_occur hoccur
  · refine ⟨by simpa using hv.outside hm, fun loop minted now answer hmem => ?_⟩
    exact hos loop minted now answer (hmem.resolve_right (by simp))
  · obtain ⟨hloop, hending⟩ := hv.turn hturn
    refine ⟨hending, fun loop' minted now answer' hmem => ?_⟩
    obtain hmem | hmem := hmem
    · exact hos _ _ _ _ hmem
    · cases hmem
      exact hloop

end

-- For short courses: a session that has just started, with room in both of its channels.

def fresh : Session :=
  .started Relay.brisk.chat { capacity := 4 } { capacity := 4 } false 0

def deskMachine : Machine Session Occasion Act :=
  machine Relay.brisk.chat .counting ⟨"desk"⟩

end Session

end Chat

end NoteRelay
