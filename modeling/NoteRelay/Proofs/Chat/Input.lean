import NoteRelay.Proofs.Chat.Intake

/-!
# The input of a chat session

What becomes of the channel that a session reads from: its client ends it, and the session lets go
of it when it is over and not before (`Session.inbound_of_course`). A failure in the input is the
last that the intake takes, behind requests that have all been answered, and it is how the session
ends (`Session.answered_of_item`, `Session.ending_of_item`).
-/

namespace NoteRelay.Chat

section
variable {p : Policy} {supply : IdSupply} {id : SessionId} {s t : Session}

theorem Session.inbound_clientMove {move : Move} (h : s.clientMove move = some t) :
    (t.inbound.isEnded = true ↔ s.inbound.isEnded = true ∨ move = .finish) ∧
      t.inbound.isAbandoned = s.inbound.isAbandoned ∧
      t.inbound.capacity = s.inbound.capacity := by
  cases move with
  | send item =>
    simp only [clientMove] at h
    split at h <;> cases h
    rename_i hsend
    simp [Channel.eq_of_send? hsend]
  | read =>
    simp only [clientMove] at h
    split at h <;> cases h
    simp
  | finish | leave | cancel =>
    cases h
    simp [Channel.ended]

/-- A turn leaves open whether more comes in, and lets go of the input at the end alone. -/
theorem Turn.inbound {now : Nat} {loop : Loop} {ds : List Deed} (h : Turn p id now loop s ds t) :
    t.inbound.isEnded = s.inbound.isEnded ∧
      (t.isOver = false → t.inbound.isAbandoned = s.inbound.isAbandoned) ∧
      t.inbound.capacity = s.inbound.capacity := by
  cases h with
  | read _ hnext _ | broken _ hnext _ =>
    rw [Channel.eq_of_next? hnext]
    exact ⟨rfl, fun _ => rfl, rfl⟩
  | cleared => exact ⟨rfl, by simp [Session.isOver, Session.outcome?, Session.finished], rfl⟩
  | _ => exact ⟨rfl, fun _ => rfl, rfl⟩

theorem Session.inbound_of_course {os : List Occasion} {acts : List Act}
    (h : (machine p supply id).course s os = some (acts, t)) :
    (t.inbound.isEnded = true ↔ s.inbound.isEnded = true ∨ .outside .finish ∈ os) ∧
      (t.isOver = false → t.inbound.isAbandoned = s.inbound.isAbandoned) ∧
      t.inbound.capacity = s.inbound.capacity := by
  refine Machine.course_induction (P := fun os _ t =>
    (t.inbound.isEnded = true ↔ s.inbound.isEnded = true ∨ .outside .finish ∈ os) ∧
      (t.isOver = false → t.inbound.isAbandoned = s.inbound.isAbandoned) ∧
      t.inbound.capacity = s.inbound.capacity) (by simp) ?_ h
  rintro os acts v o new t - ⟨hended, habandoned, hcapacity⟩ ho
  obtain ⟨move, rfl, -, hm⟩ | ⟨loop, minted, now, answer, rfl, -, hturn⟩ := turn_of_occur ho
  · obtain ⟨hfinish, hsame, hroom⟩ := inbound_clientMove hm
    rw [isOver_clientMove hm, hsame]
    refine ⟨?_, habandoned, hroom.trans hcapacity⟩
    rw [hfinish, hended, or_assoc, List.mem_append, List.mem_singleton, Occasion.outside.injEq,
      eq_comm (a := move)]
  · have hover : v.isOver = false := by rw [isOver, hturn.outcome?_eq_none]; rfl
    obtain ⟨hsame, hkept, hroom⟩ := hturn.inbound
    exact ⟨by simp [hsame, hended], fun ht => (hkept ht).trans (habandoned hover),
      hroom.trans hcapacity⟩

theorem Session.Ending.outcome {f : Failure} {done : List Act} (h : Ending p id (.error f) done t) :
    (t.phase = .closing (.error f) ∧ ∀ minted now answer,
        (t.go p supply minted now (some answer) .closing).bind Session.outcome? =
          some (.error (p.rulebook.statusOf f))) ∨
      t.outcome? = some (.error (p.rulebook.statusOf f)) := by
  cases h with
  | clearing hphase =>
    refine .inl ⟨hphase, fun minted now answer => ?_⟩
    simp only [go, hphase]
    rfl
  | cleared hphase =>
    refine .inr ?_
    simp only [outcome?, hphase]
    rfl

end

end NoteRelay.Chat
