import NoteRelay.Proofs.Inboxes.Sections
import NoteRelay.Proofs.Service

/-!
# What shared inboxes do with events

However the sections of calls on shared inboxes come between each other, no user gets two boxes, and
every event that is put into a box is taken out of it once or is still there, all in one order. Each
putting is that of one push, and each taking that of one pop (`Shared.Lossless`).

`Kept` is what a course keeps at every point of it, with one `Account` for each call.
-/

namespace NoteRelay.Inboxes

open Service (Deed Occasion Record Stage Traffic records)

def Shared.service : Service Shared Section where
  start := .empty
  first := .find
  perform := Shared.enter

-- ---------------------------------------------------------------------------
-- What calls do with events
-- ---------------------------------------------------------------------------

/-- A call puts an event into a box or takes it out. -/
structure Handling where
  id : Nat
  place : Nat
  event : NoteEvent
  deriving DecidableEq, Repr

/-- What a section of a call puts into a box. -/
def Section.puts (id : Nat) : Section → List Handling
  | append place e => [⟨id, place, e⟩]
  | _ => []

/-- What a section of a call takes out of a box, by what the call comes to. -/
def Section.takes (id : Nat) : Section → Progress Section → List Handling
  | take _ place, .answered a => a.popped.toList.map fun e => ⟨id, place, e⟩
  | _, _ => []

def puts (ds : List (Deed Section)) : List Handling :=
  ds.flatMap fun d => match d with
    | .performed id part _ => part.puts id
    | .record _ => []

def takes (ds : List (Deed Section)) : List Handling :=
  ds.flatMap fun d => match d with
    | .performed id part p => part.takes id p
    | .record _ => []

def handledBy (id : Nat) (hs : List Handling) : List Handling :=
  hs.filter fun h => h.id = id

def eventsAt (place : Nat) (hs : List Handling) : List NoteEvent :=
  (hs.filter fun h => h.place = place).map Handling.event

section
variable {id other : Nat} {part : Section} {p : Progress Section} {h : Handling}

@[simp] theorem puts_append (a b : List (Deed Section)) : puts (a ++ b) = puts a ++ puts b :=
  List.flatMap_append

@[simp] theorem puts_performed : puts [.performed id part p] = part.puts id :=
  List.append_nil _

@[simp] theorem puts_record (r : Record) : puts [.record r] = [] := rfl

@[simp] theorem takes_append (a b : List (Deed Section)) : takes (a ++ b) = takes a ++ takes b :=
  List.flatMap_append

@[simp] theorem takes_performed : takes [.performed id part p] = part.takes id p :=
  List.append_nil _

@[simp] theorem takes_record (r : Record) : takes [.record r] = [] := rfl

@[simp] theorem handledBy_append (id : Nat) (a b : List Handling) :
    handledBy id (a ++ b) = handledBy id a ++ handledBy id b :=
  List.filter_append ..

@[simp] theorem eventsAt_append (place : Nat) (a b : List Handling) :
    eventsAt place (a ++ b) = eventsAt place a ++ eventsAt place b := by
  simp [eventsAt]

theorem id_of_mem_puts (h' : h ∈ part.puts id) : h.id = id := by
  cases part with
  | append place e => simp only [Section.puts, List.mem_singleton] at h'; rw [h']
  | find | make | take | size => simp [Section.puts] at h'

theorem id_of_mem_takes (h' : h ∈ part.takes id p) : h.id = id := by
  cases p with
  | next => cases part <;> simp [Section.takes] at h'
  | answered a =>
    cases part with
    | take user place =>
      obtain ⟨e, -, rfl⟩ := List.mem_map.mp h'
      rfl
    | find | make | append | size => simp [Section.takes] at h'

theorem handledBy_of_id {hs : List Handling} (h : ∀ x ∈ hs, x.id = id) :
    handledBy other hs = if other = id then hs else [] := by
  split
  · rename_i heq
    refine List.filter_eq_self.mpr fun x hx => ?_
    simp [h x hx, heq]
  · rename_i hne
    refine List.filter_eq_nil_iff.mpr fun x hx => ?_
    simp [h x hx, Ne.symm hne]

/-- What a section does with events is what becomes of the boxes. -/
theorem Entered.conserves {s s' : Shared} (h : Entered s part p s') (hs : s.Sound)
    (hpart : s.InPlace part) (id place : Nat) :
    s.events place ++ eventsAt place (part.puts id) =
      eventsAt place (part.takes id p) ++ s'.events place := by
  cases h with
  | found | missed | tookNone | sizedNone | madeBefore | sized => exact List.append_nil _
  | made => simp [Section.puts, Section.takes, eventsAt]
  | @appended used e =>
    rw [Shared.events_withEvents (hs.lt_length (hpart used rfl))]
    by_cases hp : place = used
    · subst hp
      simp [Section.puts, Section.takes, eventsAt]
    · simp [Section.puts, Section.takes, eventsAt, hp, Ne.symm hp]
  | @took user used =>
    rw [Shared.events_withEvents (hs.lt_length (hpart used rfl))]
    by_cases hp : place = used
    · subst hp
      cases hevents : s.events place <;>
        simp [Section.puts, Section.takes, eventsAt, QueueAnswer.popped]
    · simp [Section.puts, Section.takes, eventsAt, hp, Ne.symm hp]

end

-- ---------------------------------------------------------------------------
-- The share of a call
-- ---------------------------------------------------------------------------

/-- What a call has done with events by the time that it has come so far. -/
inductive Share (s : Shared) (id : Nat) :
    Call → Progress Section → List Handling → List Handling → Prop where
  | under {call : Call} {part : Section} : part.call = call → s.InPlace part →
      Share s id call (.next part) [] []
  | pushed {e : NoteEvent} {place : Nat} : s.directory.get? e.recipient = some place →
      Share s id (.push e) (.answered .done) [⟨id, place, e⟩] []
  | popped {user : UserId} {place : Nat} {e : NoteEvent} :
      s.directory.get? user = some place →
      Share s id (.pop user) (.answered (.event (some e))) [] [⟨id, place, e⟩]
  | foundNone {user : UserId} : Share s id (.pop user) (.answered (.event none)) [] []
  | counted {user : UserId} {n : Nat} : Share s id (.count user) (.answered (.number n)) [] []

section
variable {s s' : Shared} {id : Nat} {put taken : List Handling} {call : Call} {part : Section}

theorem Share.mono {p : Progress Section} (h : Share s id call p put taken)
    (hkeep : ∀ user place, s.directory.get? user = some place →
      s'.directory.get? user = some place) : Share s' id call p put taken := by
  cases h with
  | under hcall hpart => exact .under hcall fun place hplace => hkeep _ _ (hpart place hplace)
  | pushed hplace => exact .pushed (hkeep _ _ hplace)
  | popped hplace => exact .popped (hkeep _ _ hplace)
  | foundNone => exact .foundNone
  | counted => exact .counted

theorem Share.of_next (h : Share s id call (.next part) put taken) :
    s.InPlace part ∧ part.call = call ∧ put = [] ∧ taken = [] := by
  cases h with
  | under hcall hpart => exact ⟨hpart, hcall, rfl, rfl⟩

theorem Share.of_push {e : NoteEvent} {a : QueueAnswer}
    (h : Share s id (.push e) (.answered a) put taken) :
    a = .done ∧ ∃ place, s.directory.get? e.recipient = some place ∧ put = [⟨id, place, e⟩] := by
  cases h with
  | pushed hplace => exact ⟨rfl, _, hplace, rfl⟩

theorem Share.of_pop {user : UserId} {a : QueueAnswer}
    (h : Share s id (.pop user) (.answered a) put taken) :
    (a = .event none ∧ taken = []) ∨ ∃ place e, a = .event (some e) ∧
      s.directory.get? user = some place ∧ taken = [⟨id, place, e⟩] := by
  cases h with
  | popped hplace => exact .inr ⟨_, _, rfl, hplace, rfl⟩
  | foundNone => exact .inl ⟨rfl, rfl⟩

theorem Share.of_put {p : Progress Section} {x : Handling} (h : Share s id call p put taken)
    (hx : x ∈ put) :
    call = .push x.event ∧ s.directory.get? x.event.recipient = some x.place ∧ put = [x] := by
  cases h with
  | pushed hplace =>
    obtain rfl := List.mem_singleton.mp hx
    exact ⟨rfl, hplace, rfl⟩
  | under | popped | foundNone | counted => simp at hx

theorem Share.of_taken {p : Progress Section} {x : Handling} (h : Share s id call p put taken)
    (hx : x ∈ taken) :
    ∃ user, call = .pop user ∧ s.directory.get? user = some x.place ∧ taken = [x] := by
  cases h with
  | popped hplace =>
    obtain rfl := List.mem_singleton.mp hx
    exact ⟨_, rfl, hplace, rfl⟩
  | under | pushed | foundNone | counted => simp at hx

/-- By a section a call comes to its share. Only the last one does anything with events. -/
theorem Entered.share {p : Progress Section} (h : Entered s part p s') (hpart : s.InPlace part)
    (id : Nat) : Share s' id part.call p (part.puts id) (part.takes id p) := by
  have hstill := h.inPlace hpart
  cases p with
  | next rest =>
    obtain ⟨hcall, hrest, -⟩ := h.keeps
    cases h with
    | found | missed | madeBefore | made => exact .under hcall hrest
  | answered a =>
    cases h with
    | tookNone => exact .foundNone
    | sizedNone => exact .counted
    | appended => exact .pushed (hstill _ rfl)
    | @took user place =>
      cases hhead : (s.events place).head? with
      | none => exact .foundNone
      | some e => exact .popped (hstill _ rfl)
    | sized => exact .counted

end

/-- What there is of a call at each of its stages: its records, and what it has done with events. -/
inductive Account (s : Shared) (id : Nat) :
    Option (Stage Section) → List Record → List Handling → List Handling → Prop where
  | absent : Account s id none [] [] []
  | pending {call : Call} {p : Progress Section} {put taken : List Handling} :
      Share s id call p put taken →
      Account s id (some (.pending p)) [.started id call] put taken
  | ended {call : Call} {a : QueueAnswer} {put taken : List Handling} :
      Share s id call (.answered a) put taken →
      Account s id (some (.ended a)) [.started id call, .ended id a] put taken

section
variable {s s' : Shared} {id : Nat} {rs : List Record} {put taken : List Handling}

theorem Account.mono {stage : Option (Stage Section)} (h : Account s id stage rs put taken)
    (hkeep : ∀ user place, s.directory.get? user = some place →
      s'.directory.get? user = some place) : Account s' id stage rs put taken := by
  cases h with
  | absent => exact .absent
  | pending h => exact .pending (h.mono hkeep)
  | ended h => exact .ended (h.mono hkeep)

theorem Account.of_none (h : Account s id none rs put taken) :
    rs = [] ∧ put = [] ∧ taken = [] := by
  cases h with
  | absent => exact ⟨rfl, rfl, rfl⟩

theorem Account.of_pending {p : Progress Section}
    (h : Account s id (some (.pending p)) rs put taken) :
    ∃ call, rs = [.started id call] ∧ Share s id call p put taken := by
  cases h with
  | pending hshare => exact ⟨_, rfl, hshare⟩

theorem Account.of_started {stage : Option (Stage Section)} {call : Call}
    (h : Account s id stage rs put taken) (hstarted : .started id call ∈ rs) :
    (∃ a, .ended id a ∈ rs) ∨ ∃ p, stage = some (.pending p) := by
  cases h with
  | absent => simp at hstarted
  | pending => exact .inr ⟨_, rfl⟩
  | @ended _ a => exact .inl ⟨a, by simp⟩

theorem Account.of_ended {stage : Option (Stage Section)} {call : Call} {a : QueueAnswer}
    (h : Account s id stage rs put taken) (hstarted : .started id call ∈ rs)
    (hended : .ended id a ∈ rs) : Share s id call (.answered a) put taken := by
  cases h with
  | absent => simp at hstarted
  | pending => simp at hended
  | ended hshare =>
    obtain rfl : call = _ := by simpa using hstarted
    obtain rfl : a = _ := by simpa using hended
    exact hshare

/-- What a call has done with events it has done after its start. -/
theorem Account.started_of_handled {stage : Option (Stage Section)} {x : Handling}
    (h : Account s id stage rs put taken) (hx : x ∈ put ++ taken) :
    ∃ call p, .started id call ∈ rs ∧ Share s id call p put taken := by
  cases h with
  | absent => simp at hx
  | @pending call p _ _ hshare => exact ⟨call, p, by simp, hshare⟩
  | @ended call a _ _ hshare => exact ⟨call, .answered a, by simp, hshare⟩

end

-- ---------------------------------------------------------------------------
-- What every course keeps
-- ---------------------------------------------------------------------------

def recordsOf (id : Nat) (ds : List (Deed Section)) : List Record :=
  (records ds).filter fun r => r.id = id

@[simp] theorem recordsOf_record (id : Nat) (ds : List (Deed Section)) (r : Record) :
    recordsOf id (ds ++ [.record r]) = recordsOf id ds ++ if r.id = id then [r] else [] := by
  by_cases hr : r.id = id <;> simp [recordsOf, records, hr]

@[simp] theorem recordsOf_performed (id other : Nat) (ds : List (Deed Section)) (part : Section)
    (p : Progress Section) :
    recordsOf id (ds ++ [.performed other part p]) = recordsOf id ds := by
  simp [recordsOf, records]

structure Kept (ds : List (Deed Section)) (w : Traffic Shared Section) : Prop where
  sound : w.store.Sound
  conserved : ∀ place,
    eventsAt place (puts ds) = eventsAt place (takes ds) ++ w.store.events place
  account : ∀ id, Account w.store id (w.calls.get? id) (recordsOf id ds)
    (handledBy id (puts ds)) (handledBy id (takes ds))

section
variable {ds new : List (Deed Section)} {w w' : Traffic Shared Section} {o : Occasion} {id : Nat}

theorem kept_initial : Kept [] Shared.service.initial where
  sound := Shared.sound_empty
  conserved _ := rfl
  account _ := .absent

theorem Kept.share {p : Progress Section} (h : Kept ds w)
    (hid : w.calls.get? id = some (.pending p)) :
    ∃ call, recordsOf id ds = [.started id call] ∧
      Share w.store id call p (handledBy id (puts ds)) (handledBy id (takes ds)) := by
  have haccount := h.account id
  rw [hid] at haccount
  exact haccount.of_pending

theorem Kept.inPlace {part : Section} (h : Kept ds w)
    (hid : w.calls.get? id = some (.pending (.next part))) : w.store.InPlace part := by
  obtain ⟨call, -, hshare⟩ := h.share hid
  exact hshare.of_next.1

/-- A record of a call leaves the boxes and every other call as they are. -/
theorem Kept.recorded {r : Record} {stage : Stage Section} (h : Kept ds w)
    (haccount : Account w.store r.id (some stage) (recordsOf r.id ds ++ [r])
      (handledBy r.id (puts ds)) (handledBy r.id (takes ds))) :
    Kept (ds ++ [.record r]) ⟨w.store, w.calls.insert r.id stage⟩ := by
  refine ⟨h.sound, by simpa using h.conserved, fun other => ?_⟩
  by_cases ho : other = r.id
  · subst ho
    simpa [Table.get?_insert] using haccount
  · simpa [Table.get?_insert, ho, Ne.symm ho] using h.account other

theorem Kept.performed {part : Section} (h : Kept ds w)
    (hid : w.calls.get? id = some (.pending (.next part))) :
    Kept (ds ++ [.performed id part (w.store.enter part).1])
      ⟨(w.store.enter part).2, w.calls.insert id (.pending (w.store.enter part).1)⟩ := by
  have hpart := h.inPlace hid
  have hentered := entered w.store part
  refine ⟨hentered.sound h.sound, fun place => ?_, fun other => ?_⟩
  · have hplace := hentered.conserves h.sound hpart id place
    simp only [puts_append, takes_append, puts_performed, takes_performed, eventsAt_append,
      h.conserved, List.append_assoc, hplace]
  · simp only [puts_append, takes_append, puts_performed, takes_performed, handledBy_append,
      handledBy_of_id fun _ => id_of_mem_puts, handledBy_of_id fun _ => id_of_mem_takes,
      recordsOf_performed, Table.get?_insert]
    -- The call whose section this is comes to its share. The others keep theirs, though there may
    -- be a box more by now.
    by_cases ho : other = id
    · subst ho
      obtain ⟨call, hrecords, hshare⟩ := h.share hid
      obtain ⟨-, rfl, hputs, htakes⟩ := hshare.of_next
      simp only [if_true, hrecords, hputs, htakes, List.nil_append]
      exact .pending (hentered.share hpart other)
    · simp only [if_neg ho, List.append_nil]
      exact (h.account other).mono fun _ _ => hentered.directory

theorem Kept.step (h : Kept ds w) (hstep : Shared.service.Step w o new w') :
    Kept (ds ++ new) w' := by
  cases hstep with
  | @started id call hid =>
    refine h.recorded (r := .started id call) ?_
    have haccount := h.account id
    rw [hid] at haccount
    obtain ⟨hrecords, hputs, htakes⟩ := haccount.of_none
    simp only [Record.id, hrecords, hputs, htakes, List.nil_append]
    have hplace : w.store.InPlace (.find call) := fun place hplace => by
      simp [Section.place?] at hplace
    exact .pending (.under rfl hplace)
  | performed hid => exact h.performed hid
  | @ended id a hid =>
    refine h.recorded (r := .ended id a) ?_
    obtain ⟨call, hrecords, hshare⟩ := h.share hid
    rw [Record.id, hrecords]
    exact .ended hshare

theorem kept {occasions : List Occasion}
    (h : Shared.service.machine.course Shared.service.initial occasions = some (ds, w)) :
    Kept ds w := by
  refine Machine.course_induction (P := fun _ ds w => Kept ds w) kept_initial ?_ h
  intro occasions ds w o new w' _ hkept hoccur
  exact hkept.step (Service.occur_eq_some.mp hoccur)

end

-- ---------------------------------------------------------------------------
-- Nothing is lost
-- ---------------------------------------------------------------------------

/-- What has become of the events of the calls that have left the boxes so. -/
structure Shared.Lossless (ds : List (Deed Section)) (s : Shared) : Prop where
  /-- No user has had two boxes made. -/
  one_box : s.owners.Nodup
  /-- The box that is found for a user is the one that was made for that user. -/
  found : s.Sound
  /-- What was put into the box of a user has been taken out or is still there, all in the order in
  which it was put in. -/
  in_order : ∀ user place, s.directory.get? user = some place →
    eventsAt place (puts ds) = eventsAt place (takes ds) ++ s.events place
  /-- Each event in a box was put there by a push of it, which puts no other one. -/
  of_push : ∀ x ∈ puts ds, .started x.id (.push x.event) ∈ records ds ∧
    s.directory.get? x.event.recipient = some x.place ∧ handledBy x.id (puts ds) = [x]
  /-- Each event that is taken is taken by a pop, which takes no other one. -/
  of_pop : ∀ x ∈ takes ds, ∃ user, .started x.id (.pop user) ∈ records ds ∧
    s.directory.get? user = some x.place ∧ handledBy x.id (takes ds) = [x]
  /-- A push that has ended has put its event into the box of the recipient. -/
  pushed : ∀ id e a, .started id (.push e) ∈ records ds → .ended id a ∈ records ds →
    a = .done ∧ ∃ place, s.directory.get? e.recipient = some place ∧
      handledBy id (puts ds) = [⟨id, place, e⟩]
  /-- A pop that has ended has taken what it was answered. -/
  popped : ∀ id user a, .started id (.pop user) ∈ records ds → .ended id a ∈ records ds →
    (a = .event none ∧ handledBy id (takes ds) = []) ∨
    ∃ place e, a = .event (some e) ∧ s.directory.get? user = some place ∧
      handledBy id (takes ds) = [⟨id, place, e⟩]

section
variable {ds : List (Deed Section)} {w : Traffic Shared Section}

theorem mem_recordsOf {r : Record} : r ∈ recordsOf r.id ds ↔ r ∈ records ds := by
  simp [recordsOf]

theorem mem_handledBy {x : Handling} {hs : List Handling} : x ∈ handledBy x.id hs ↔ x ∈ hs := by
  simp [handledBy]

theorem Kept.share_of_ended {id : Nat} {call : Call} {a : QueueAnswer} (h : Kept ds w)
    (hstarted : .started id call ∈ records ds) (hended : .ended id a ∈ records ds) :
    Share w.store id call (.answered a) (handledBy id (puts ds)) (handledBy id (takes ds)) :=
  (h.account id).of_ended (mem_recordsOf.mpr hstarted) (mem_recordsOf.mpr hended)

theorem Kept.lossless (h : Kept ds w) : w.store.Lossless ds where
  one_box := h.sound.nodup_owners
  found := h.sound
  in_order _ place _ := h.conserved place
  of_push x hx := by
    have hput := mem_handledBy.mpr hx
    obtain ⟨call, p, hstarted, hshare⟩ :=
      (h.account x.id).started_of_handled (List.mem_append_left _ hput)
    obtain ⟨rfl, hplace, hsingle⟩ := hshare.of_put hput
    exact ⟨mem_recordsOf.mp hstarted, hplace, hsingle⟩
  of_pop x hx := by
    have htaken := mem_handledBy.mpr hx
    obtain ⟨call, p, hstarted, hshare⟩ :=
      (h.account x.id).started_of_handled (List.mem_append_right _ htaken)
    obtain ⟨user, rfl, hplace, hsingle⟩ := hshare.of_taken htaken
    exact ⟨user, mem_recordsOf.mp hstarted, hplace, hsingle⟩
  pushed _ _ _ hstarted hended := (h.share_of_ended hstarted hended).of_push
  popped _ _ _ hstarted hended := (h.share_of_ended hstarted hended).of_pop

end

end NoteRelay.Inboxes
