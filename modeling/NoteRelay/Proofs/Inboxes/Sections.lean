import Mathlib.Data.List.Nodup
import NoteRelay.Inboxes.Shared
import NoteRelay.Proofs.Store

/-!
# The sections of a call

`Entered` lists what a section can do to shared inboxes. From it: the directory has each box that
was ever made under the user for whom it was made (`Shared.Sound`), so that no user has two; what a
call was told of the directory stays true (`Entered.directory`); and what waits for a user, by the
directory, is changed by the last section of a call alone, which does what the call does on queues
that nobody shares (`Entered.keeps`, `Entered.answers`).
-/

namespace NoteRelay.Inboxes

namespace Section

def call : Section → Call
  | find call => call
  | make e => .push e
  | append _ e => .push e
  | take user _ => .pop user
  | size user _ => .count user

def place? : Section → Option Nat
  | find _ => none
  | make _ => none
  | append place _ => some place
  | take _ place => some place
  | size _ place => some place

end Section

namespace Call

@[simp] theorem call_atBox (call : Call) (place : Nat) : (call.atBox place).call = call := by
  cases call <;> rfl

@[simp] theorem place?_atBox (call : Call) (place : Nat) :
    (call.atBox place).place? = some place := by
  cases call <;> rfl

end Call

namespace Shared

variable {s s' : Shared} {user other : UserId} {place : Nat} {es : List NoteEvent}

/-- For whom the boxes were made, each at its place. -/
def owners (s : Shared) : List UserId :=
  s.boxes.map Box.owner

def waiting (s : Shared) (user : UserId) : List NoteEvent :=
  ((s.directory.get? user).map s.events).getD []

/-- The directory has all boxes, each under its owner, and nothing else. -/
def Sound (s : Shared) : Prop :=
  ∀ user place, s.directory.get? user = some place ↔ s.owners[place]? = some user

/-- A section of a call uses the box that the directory has for the user of the call. -/
def InPlace (s : Shared) (part : Section) : Prop :=
  ∀ place, part.place? = some place → s.directory.get? part.call.user = some place

theorem waiting_of_place (h : s.directory.get? user = some place) :
    s.waiting user = s.events place := by
  simp [waiting, h]

theorem sound_empty : Sound empty := by
  intro user place
  simp [empty, owners]

theorem Sound.nodup_owners (h : s.Sound) : s.owners.Nodup := by
  rw [List.nodup_iff_getElem?_ne_getElem?]
  intro i j hij hj heq
  have hi : s.owners[i]? = some s.owners[j] := by rw [heq, List.getElem?_eq_getElem hj]
  have hplace := (h s.owners[j] i).mpr hi
  rw [(h s.owners[j] j).mpr (List.getElem?_eq_getElem hj)] at hplace
  simp only [Option.some.injEq] at hplace
  omega

theorem Sound.lt_length (h : s.Sound) (hplace : s.directory.get? user = some place) :
    place < s.boxes.length := by
  obtain ⟨hlt, -⟩ := List.getElem?_eq_some_iff.mp ((h user place).mp hplace)
  simpa [owners] using hlt

theorem Sound.eq_of_place (h : s.Sound) (hplace : s.directory.get? user = some place)
    (hother : s.directory.get? other = some place) : other = user := by
  have huser := (h user place).mp hplace
  rw [(h other place).mp hother] at huser
  exact Option.some.inj huser

-- ---------------------------------------------------------------------------
-- Another content of a box
-- ---------------------------------------------------------------------------

@[simp] theorem directory_withEvents (s : Shared) (place : Nat) (es : List NoteEvent) :
    (s.withEvents place es).directory = s.directory := rfl

@[simp] theorem owners_withEvents (s : Shared) (place : Nat) (es : List NoteEvent) :
    (s.withEvents place es).owners = s.owners := by
  refine List.ext_getElem? fun i => ?_
  by_cases hi : place = i <;>
    cases hb : s.boxes[i]? <;> simp [owners, withEvents, hi, hb]

theorem events_withEvents (h : place < s.boxes.length) (spot : Nat) :
    (s.withEvents place es).events spot = if spot = place then es else s.events spot := by
  by_cases hp : spot = place
  · subst hp
    simp [events, withEvents, h]
  · simp [events, withEvents, hp, Ne.symm hp]

theorem Sound.withEvents (h : s.Sound) (place : Nat) (es : List NoteEvent) :
    (s.withEvents place es).Sound := by
  intro user spot
  simpa using h user spot

theorem Sound.waiting_withEvents (h : s.Sound) (hplace : s.directory.get? user = some place)
    (es : List NoteEvent) (other : UserId) :
    (s.withEvents place es).waiting other = if other = user then es else s.waiting other := by
  have hlt := h.lt_length hplace
  by_cases ho : other = user
  · subst ho
    simp [waiting, hplace, events_withEvents hlt]
  · cases hother : s.directory.get? other with
    | none => simp [waiting, hother, ho]
    | some spot =>
      have hne : spot ≠ place := by
        rintro rfl
        exact ho (h.eq_of_place hplace hother)
      simp [waiting, hother, events_withEvents hlt, hne, ho]

-- ---------------------------------------------------------------------------
-- A box more
-- ---------------------------------------------------------------------------

theorem getElem?_owners_withBoxFor (s : Shared) (user : UserId) (place : Nat) :
    (s.withBoxFor user).owners[place]? =
      if place = s.boxes.length then some user else s.owners[place]? := by
  have howners : (s.withBoxFor user).owners = s.owners ++ [user] := by simp [owners, withBoxFor]
  have hlength : s.owners.length = s.boxes.length := by simp [owners]
  rw [howners, List.getElem?_append]
  split
  · rw [if_neg (by omega)]
  · split
    · rename_i heq
      simp [heq, hlength]
    · rw [List.getElem?_eq_none (by simp; omega), List.getElem?_eq_none (by omega)]

/-- The new box is as empty as its place was. -/
@[simp] theorem events_withBoxFor (s : Shared) (user : UserId) :
    (s.withBoxFor user).events = s.events := by
  funext place
  by_cases hlt : place < s.boxes.length
  · simp [events, withBoxFor, List.getElem?_append_left hlt]
  · have hle := Nat.le_of_not_lt hlt
    simp only [events, withBoxFor, List.getElem?_append_right hle, List.getElem?_eq_none hle]
    cases place - s.boxes.length <;> rfl

theorem get?_withBoxFor (s : Shared) (user other : UserId) :
    (s.withBoxFor user).directory.get? other =
      if other = user then some s.boxes.length else s.directory.get? other :=
  Table.get?_insert _ _ _ _

theorem Sound.withBoxFor (h : s.Sound) (hnone : s.directory.get? user = none) :
    (s.withBoxFor user).Sound := by
  intro other place
  rw [get?_withBoxFor, getElem?_owners_withBoxFor]
  by_cases ho : other = user
  · subst ho
    -- No older box is that of the user.
    have hold : s.owners[place]? ≠ some other := fun hp => by
      simp [(h other place).mpr hp] at hnone
    by_cases hp : place = s.boxes.length
    · simp [hp]
    · simp [hp, Ne.symm hp, hold]
  · have hlast : s.directory.get? other ≠ some s.boxes.length := fun hp =>
      Nat.lt_irrefl _ (h.lt_length hp)
    by_cases hp : place = s.boxes.length
    · simp [hp, ho, Ne.symm ho, hlast]
    · simp [hp, ho, h other place]

theorem waiting_withBoxFor (hnone : s.directory.get? user = none) (other : UserId) :
    (s.withBoxFor user).waiting other = s.waiting other := by
  by_cases ho : other = user
  · subst ho
    have hlast : s.events s.boxes.length = [] := by simp [events]
    simp [waiting, get?_withBoxFor, hnone, hlast]
  · simp [waiting, get?_withBoxFor, ho]

end Shared

-- ---------------------------------------------------------------------------
-- What a section can do
-- ---------------------------------------------------------------------------

inductive Entered (s : Shared) : Section → Progress Section → Shared → Prop where
  | found {call : Call} {place : Nat} : s.directory.get? call.user = some place →
      Entered s (.find call) (.next (call.atBox place)) s
  | missed {e : NoteEvent} : s.directory.get? e.recipient = none →
      Entered s (.find (.push e)) (.next (.make e)) s
  | tookNone {user : UserId} : s.directory.get? user = none →
      Entered s (.find (.pop user)) (.answered (.event none)) s
  | sizedNone {user : UserId} : s.directory.get? user = none →
      Entered s (.find (.count user)) (.answered (.number 0)) s
  /-- Another call has made the box since this one looked for it. -/
  | madeBefore {e : NoteEvent} {place : Nat} : s.directory.get? e.recipient = some place →
      Entered s (.make e) (.next (.append place e)) s
  | made {e : NoteEvent} : s.directory.get? e.recipient = none →
      Entered s (.make e) (.next (.append s.boxes.length e)) (s.withBoxFor e.recipient)
  | appended {place : Nat} {e : NoteEvent} :
      Entered s (.append place e) (.answered .done) (s.withEvents place (s.events place ++ [e]))
  | took {user : UserId} {place : Nat} :
      Entered s (.take user place) (.answered (.event (s.events place).head?))
        (s.withEvents place (s.events place).tail)
  | sized {user : UserId} {place : Nat} :
      Entered s (.size user place) (.answered (.number (s.events place).length)) s

theorem entered (s : Shared) (part : Section) :
    Entered s part (s.enter part).1 (s.enter part).2 := by
  cases part with
  | find call =>
    simp only [Shared.enter]
    split
    · exact .found ‹_›
    · cases call with
      | push e => exact .missed ‹_›
      | pop user => exact .tookNone ‹_›
      | count user => exact .sizedNone ‹_›
  | make e =>
    simp only [Shared.enter]
    split
    · exact .madeBefore ‹_›
    · exact .made ‹_›
  | append place e => exact .appended
  | take user place => exact .took
  | size user place => exact .sized

theorem run_pop {q : Queues} {user : UserId} {es : List NoteEvent}
    (h : q.inboxes.waiting user = es) :
    (q.run (.pop user)).1 = .event es.head? ∧
      ∀ other, (q.run (.pop user)).2.inboxes.waiting other =
        if other = user then es.tail else q.inboxes.waiting other := by
  simp [Queues.run, h]

theorem run_count {q : Queues} {user : UserId} {es : List NoteEvent}
    (h : q.inboxes.waiting user = es) :
    (q.run (.count user)).1 = .number es.length ∧
      ∀ other, (q.run (.count user)).2.inboxes.waiting other = q.inboxes.waiting other := by
  simp [Queues.run, Inboxes.count, h]

namespace Entered

variable {s s' : Shared} {part : Section} {p : Progress Section}

theorem sound (h : Entered s part p s') (hs : s.Sound) : s'.Sound := by
  cases h with
  | found | missed | tookNone | sizedNone | madeBefore | sized => exact hs
  | made hnone => exact hs.withBoxFor hnone
  | appended | took => exact hs.withEvents _ _

/-- What the directory once has for a user it keeps. -/
theorem directory (h : Entered s part p s') {user : UserId} {place : Nat}
    (hplace : s.directory.get? user = some place) : s'.directory.get? user = some place := by
  cases h with
  | found | missed | tookNone | sizedNone | madeBefore | appended | took | sized => exact hplace
  | @made e hnone =>
    have hne : user ≠ e.recipient := by
      rintro rfl
      simp [hplace] at hnone
    rw [Shared.get?_withBoxFor, if_neg hne, hplace]

/-- Nobody can take the box away from under a call. -/
theorem inPlace (h : Entered s part p s') {other : Section} (hother : s.InPlace other) :
    s'.InPlace other :=
  fun place hplace => h.directory (hother place hplace)

/-- A section that is not the last of its call changes nothing that waits. -/
theorem keeps {rest : Section} (h : Entered s part (.next rest) s') :
    rest.call = part.call ∧ s'.InPlace rest ∧ ∀ user, s'.waiting user = s.waiting user := by
  cases h with
  | @found call place hplace =>
    refine ⟨call.call_atBox place, ?_, fun _ => rfl⟩
    intro spot hspot
    obtain rfl : place = spot := by simpa using hspot
    simpa using hplace
  | missed =>
    refine ⟨rfl, fun spot hspot => ?_, fun _ => rfl⟩
    simp [Section.place?] at hspot
  | madeBefore hplace =>
    refine ⟨rfl, ?_, fun _ => rfl⟩
    rintro spot ⟨⟩
    exact hplace
  | made hnone =>
    refine ⟨rfl, ?_, Shared.waiting_withBoxFor hnone⟩
    rintro spot ⟨⟩
    exact (Shared.get?_withBoxFor s _ _).trans (if_pos rfl)

/-- The last section of a call does at once what the call does on queues in which the same waits. -/
theorem answers {a : QueueAnswer} {q : Queues} (h : Entered s part (.answered a) s')
    (hs : s.Sound) (hpart : s.InPlace part) (hq : ∀ user, q.inboxes.waiting user = s.waiting user) :
    (q.run part.call.toQueueCall).1 = a ∧
      ∀ user, (q.run part.call.toQueueCall).2.inboxes.waiting user = s'.waiting user := by
  have hempty {user : UserId} (hnone : s.directory.get? user = none) :
      q.inboxes.waiting user = [] := by
    simp [hq, Shared.waiting, hnone]
  have hevents {user : UserId} {place : Nat} (hplace : s.directory.get? user = some place) :
      q.inboxes.waiting user = s.events place :=
    (hq user).trans (Shared.waiting_of_place hplace)
  cases h with
  | @tookNone user hnone =>
    obtain ⟨ha, hrun⟩ := run_pop (hempty hnone)
    refine ⟨ha, fun other => (hrun other).trans ?_⟩
    by_cases ho : other = user
    · simp [ho, ← hq, hempty hnone]
    · simp [ho, hq]
  | sizedNone hnone =>
    obtain ⟨ha, hrun⟩ := run_count (hempty hnone)
    exact ⟨ha, fun other => (hrun other).trans (hq other)⟩
  | @appended place e =>
    have hplace : s.directory.get? e.recipient = some place := hpart place rfl
    refine ⟨rfl, fun other => ?_⟩
    rw [hs.waiting_withEvents hplace, ← hevents hplace]
    by_cases ho : other = e.recipient
    · simp [Section.call, Call.toQueueCall, Queues.run, ho]
    · simp [Section.call, Call.toQueueCall, Queues.run, ho, hq]
  | @took user place =>
    have hplace : s.directory.get? user = some place := hpart place rfl
    obtain ⟨ha, hrun⟩ := run_pop (hevents hplace)
    refine ⟨ha, fun other => (hrun other).trans ?_⟩
    rw [hs.waiting_withEvents hplace, hq]
  | @sized user place =>
    have hplace : s.directory.get? user = some place := hpart place rfl
    obtain ⟨ha, hrun⟩ := run_count (hevents hplace)
    exact ⟨ha, fun other => (hrun other).trans (hq other)⟩

end Entered

end NoteRelay.Inboxes
