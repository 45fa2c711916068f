import NoteRelay.Proofs.Chat.Outcome
import NoteRelay.Proofs.Clock
import NoteRelay.Proofs.Notify.Conservation
import NoteRelay.Proofs.Notify.Course

/-!
# Polling

How often a subscription polls its inbox, and when.

* `Polled` says what was polled and sent at each phase of a subscription that nobody cancels or
  leaves. Its counter is the number of empty polls in a row (`emptyRun`), so that it is done exactly
  when the last polls were all empty, as many as it tries.
* `Phase.InTempo` says when a subscription is where, if nothing comes late.
* `Subscription.goes_polling`: any outcomes after which a subscription polls again do come about.
* `polls_bounded` is the law of polling that these make up.

The answers of the inbox are left open here.
-/

namespace NoteRelay

theorem Channel.isAbandoned_of_send? {α : Type} {c c' : Channel α} {a : α}
    (h : c.send? a = some (.ok c')) : c'.isAbandoned = c.isAbandoned := by
  rw [eq_of_send? h]

theorem Channel.isAbandoned_of_next? {α : Type} {c c' : Channel α} {item : Option α}
    (h : c.next? = some (item, c')) : c'.isAbandoned = c.isAbandoned := by
  rw [eq_of_next? h]

namespace Notify

abbrev Poll := Except QueueFault (Option NoteEvent)

def polls (past : List Deed) : List Poll :=
  past.filterMap fun d => match d with
    | .called (.pop _) answer => some (answer.map QueueAnswer.popped)
    | _ => none

@[simp] theorem polls_append (a b : List Deed) : polls (a ++ b) = polls a ++ polls b :=
  List.filterMap_append

def events (outcomes : List Poll) : List NoteEvent :=
  outcomes.filterMap fun o => match o with
    | .ok found => found
    | .error _ => none

@[simp] theorem events_append (a b : List Poll) : events (a ++ b) = events a ++ events b :=
  List.filterMap_append

-- ---------------------------------------------------------------------------
-- Empty polls in a row
-- ---------------------------------------------------------------------------

def Poll.isEmpty : Poll → Bool
  | .ok none => true
  | _ => false

/-- How many polls in a row have found nothing, up to the last one. -/
def emptyRun (outcomes : List Poll) : Nat :=
  (outcomes.reverse.takeWhile Poll.isEmpty).length

@[simp] theorem emptyRun_nil : emptyRun [] = 0 :=
  rfl

@[simp] theorem emptyRun_append_none (outcomes : List Poll) :
    emptyRun (outcomes ++ [.ok none]) = emptyRun outcomes + 1 := by
  simp [emptyRun, List.takeWhile_cons, Poll.isEmpty]

theorem emptyRun_append_of_nonempty {o : Poll} (h : o.isEmpty = false) (outcomes : List Poll) :
    emptyRun (outcomes ++ [o]) = 0 := by
  simp [emptyRun, h]

@[simp] theorem emptyRun_append_some (outcomes : List Poll) (e : NoteEvent) :
    emptyRun (outcomes ++ [.ok (some e)]) = 0 :=
  emptyRun_append_of_nonempty rfl outcomes

@[simp] theorem emptyRun_append_error (outcomes : List Poll) (fault : QueueFault) :
    emptyRun (outcomes ++ [.error fault]) = 0 :=
  emptyRun_append_of_nonempty rfl outcomes

/-- The last polls were all empty exactly if there are not more of them than in the last row. -/
theorem replicate_suffix_iff {k : Nat} {outcomes : List Poll} :
    List.replicate k (.ok none) <:+ outcomes ↔ k ≤ emptyRun outcomes := by
  induction outcomes using List.reverseRecOn generalizing k with
  | nil => simp
  | append_singleton outcomes o ih =>
    cases k with
    | zero => simp
    | succ k =>
      rw [List.replicate_succ', List.suffix_concat_iff]
      by_cases ho : o = .ok none
      · subst ho
        simpa using ih
      · have hempty : o.isEmpty = false := by
          cases o with
          | error fault => rfl
          | ok found =>
            cases found with
            | none => exact absurd rfl ho
            | some e => rfl
        simp [emptyRun_append_of_nonempty hempty, Ne.symm ho]

-- ---------------------------------------------------------------------------
-- What was polled and sent, at each phase
-- ---------------------------------------------------------------------------

/-- A subscription polls again unless the last polls were all empty, as many as it tries, or one
has failed. -/
def MayPoll (tries : Nat) (before : List Poll) : Prop :=
  ¬ List.replicate tries (.ok none) <:+ before ∧ ∀ o ∈ before, ∃ found, o = .ok found

/-- Each of the polls was made when it might be. -/
abbrev MadeInTurn (tries : Nat) (outcomes : List Poll) : Prop :=
  Lawful (fun before _ => MayPoll tries before) outcomes

theorem MayPoll.emptyRun_lt {tries : Nat} {before : List Poll} (h : MayPoll tries before) :
    emptyRun before < tries :=
  Nat.lt_of_not_le fun hle => h.1 (replicate_suffix_iff.mpr hle)

theorem MayPoll.ok_append {tries : Nat} {before : List Poll} (h : MayPoll tries before)
    (found : Option NoteEvent) : ∀ o ∈ before ++ [.ok found], ∃ found, o = .ok found := by
  intro o ho
  obtain ho | ho := List.mem_append.mp ho
  · exact h.2 o ho
  · exact ⟨found, List.mem_singleton.mp ho⟩

/-- The frames of a subscription that has counted `n` and sent what its polls have found. -/
def told (n : Nat) (outcomes : List Poll) : List Frame :=
  .ofCount n :: (events outcomes).map .ofEvent

theorem told_append_none (n : Nat) (outcomes : List Poll) :
    told n (outcomes ++ [.ok none]) = told n outcomes := by
  simp [told, events]

theorem told_append_some (n : Nat) (outcomes : List Poll) (e : NoteEvent) :
    told n (outcomes ++ [.ok (some e)]) = told n outcomes ++ [.ofEvent e] := by
  simp [told, events]

/-- How a subscription has polled, when it is neither cancelled nor left by its client. -/
inductive Polled (p : Policy) : Phase → List Frame → List Poll → Prop where
  | counting : Polled p (.running .counting) [] []
  | announcing {n : Nat} : Polled p (.running (.announcing n)) [] []
  | pacing {ticker : Ticker} {n : Nat} {outcomes : List Poll} :
      MadeInTurn p.tries outcomes → MayPoll p.tries outcomes →
      Polled p (.running (.pacing ticker (emptyRun outcomes))) (told n outcomes) outcomes
  | popping {ticker : Ticker} {n : Nat} {outcomes : List Poll} :
      MadeInTurn p.tries outcomes → MayPoll p.tries outcomes →
      Polled p (.running (.popping ticker (emptyRun outcomes))) (told n outcomes) outcomes
  | sending {ticker : Ticker} {e : NoteEvent} {n : Nat} {outcomes : List Poll} :
      MadeInTurn p.tries outcomes → MayPoll p.tries outcomes →
      Polled p (.running (.sending ticker e)) (told n outcomes) (outcomes ++ [.ok (some e)])
  | done {n : Nat} {outcomes : List Poll} :
      MadeInTurn p.tries outcomes → (∀ o ∈ outcomes, ∃ found, o = .ok found) →
      emptyRun outcomes = p.tries → Polled p (.closed (.ok ())) (told n outcomes) outcomes
  | uncounted {fault : QueueFault} :
      Polled p (.closed (.error (p.rulebook.statusOf (.queue fault)))) [] []
  | unpopped {fault : QueueFault} {n : Nat} {outcomes : List Poll} :
      MadeInTurn p.tries outcomes → MayPoll p.tries outcomes →
      Polled p (.closed (.error (p.rulebook.statusOf (.queue fault)))) (told n outcomes)
        (outcomes ++ [.error fault])

/-- Nothing but the queue can end the subscription early. -/
def Subscription.Undisturbed (s : Subscription) : Prop :=
  s.isCancelled = false ∧ s.outbound.isAbandoned = false

section
variable {p : Policy} {now : Nat} {s t : Subscription} {new : List Deed} {fs : List Frame}
  {outcomes : List Poll}

theorem Subscription.Undisturbed.outside {move : Subscription.Move} (hs : s.Undisturbed)
    (hm : s.clientMove move = some t) (hleave : move ≠ .leave) (hcancel : move ≠ .cancel) :
    t.Undisturbed := by
  cases move with
  | leave => exact absurd rfl hleave
  | cancel => exact absurd rfl hcancel
  | read =>
    simp only [clientMove] at hm
    split at hm <;> simp at hm
    rename_i hnext
    subst hm
    exact ⟨hs.1, (Channel.isAbandoned_of_next? hnext).trans hs.2⟩

theorem Subscription.undisturbed_arrived (h : s.Undisturbed) (r : Except Failure Stage) :
    (s.arrived p r).Undisturbed := by
  unfold arrived
  split <;> exact h

theorem Turn.undisturbed (h : Turn p now s new t) (hs : s.Undisturbed) : t.Undisturbed := by
  have hsent : ∀ {frame outbound}, s.outbound.send? frame = some (.ok outbound) →
      Subscription.Undisturbed { s with outbound } := fun hsend =>
    ⟨hs.1, (Channel.isAbandoned_of_send? hsend).trans hs.2⟩
  cases h with
  | cancelled | uncounted | unheard | unpopped => exact hs
  | counted | paced | popped => exact hs
  | announced _ hsend => exact Subscription.undisturbed_arrived (hsent hsend) _
  | delivered _ hsend => exact Subscription.undisturbed_arrived (hsent hsend) _
  | foundNone => exact Subscription.undisturbed_arrived hs _

theorem Polled.arrived (s : Subscription) (ticker : Ticker) (n : Nat) {k : Nat}
    (h : MadeInTurn p.tries outcomes) (hok : ∀ o ∈ outcomes, ∃ found, o = .ok found)
    (hk : emptyRun outcomes = k) (hle : k ≤ p.tries) :
    Polled p (s.arrived p (.ok (.polling p ticker k))).phase (told n outcomes) outcomes := by
  subst hk
  rw [Subscription.arrived_polling]
  split
  · next hlt =>
    exact .pacing h ⟨fun hsuffix => Nat.not_le.mpr hlt (replicate_suffix_iff.mp hsuffix), hok⟩
  · next hge => exact .done h hok (Nat.le_antisymm hle (Nat.le_of_not_lt hge))

theorem Polled.turn (h : Polled p s.phase fs outcomes) (hs : s.Undisturbed)
    (hturn : Turn p now s new t) :
    Polled p t.phase (fs ++ frames new) (outcomes ++ polls new) := by
  obtain ⟨hlive, hheard⟩ := hs
  cases hturn with
  | cancelled _ hc => simp [hlive] at hc
  | unheard _ hsend => simp [Channel.send?_eq_abandoned, hheard] at hsend
  | counted hat =>
    rw [hat.1] at h
    cases h
    exact .announcing
  | uncounted hat =>
    rw [hat.1] at h
    cases h
    exact .uncounted
  | announced hat _ =>
    rw [hat.1] at h
    cases h
    exact Polled.arrived _ _ _ lawful_nil (by simp) rfl (Nat.zero_le _)
  | paced hat _ =>
    rw [hat.1] at h
    cases h with
    | pacing hmade hmay => simpa [frames, polls] using Polled.popping hmade hmay
  | popped hat hp =>
    rw [hat.1] at h
    cases h with
    | popping hmade hmay =>
      simpa [frames, polls, Except.map, hp] using Polled.sending hmade hmay
  | foundNone hat hp =>
    rw [hat.1] at h
    cases h with
    | popping hmade hmay =>
      simp only [polls, frames, List.filterMap_cons, List.filterMap_nil, Except.map, hp,
        List.append_nil]
      rw [← told_append_none]
      exact Polled.arrived _ _ _ (lawful_append_single.mpr ⟨hmade, hmay⟩) (hmay.ok_append none)
        (emptyRun_append_none _) hmay.emptyRun_lt
  | unpopped hat =>
    rw [hat.1] at h
    cases h with
    | popping hmade hmay =>
      simpa [frames, polls, Except.map, Subscription.finished] using Polled.unpopped hmade hmay
  | delivered hat _ =>
    rw [hat.1] at h
    cases h with
    | sending hmade hmay =>
      simp only [polls, frames, List.filterMap_cons, List.filterMap_nil, List.append_nil]
      rw [← told_append_some]
      exact Polled.arrived _ _ _ (lawful_append_single.mpr ⟨hmade, hmay⟩)
        (hmay.ok_append (some _)) (emptyRun_append_some _ _) (Nat.zero_le _)

end

-- ---------------------------------------------------------------------------
-- Polls and the clock
-- ---------------------------------------------------------------------------

namespace Subscription

def clock : Clock Subscription Occasion where
  time?
    | .outside _ => none
    | .turn now _ => some now
  due? := tickDue?

/-- What happens at an occasion, to a subscription and to its log. -/
inductive Beaten (p : Policy) (suits : Nat → Option Nat → Nat → Bool) :
    Nat × Subscription → List (Nat × Beat Deed) → Nat × Subscription → Prop where
  | aside {latest : Nat} {s t : Subscription} : t.phase = s.phase →
      Beaten p suits (latest, s) [] (latest, t)
  | turn {latest now : Nat} {s t : Subscription} {ds : List Deed} :
      suits latest s.tickDue? now = true → Turn p now s ds t →
      (∀ status, t.phase = .closed (.error status) → s.tickDue? = none) →
      Beaten p suits (latest, s) (clock.beats s now ds) (now, t)

section
variable {p : Policy} {suits : Nat → Option Nat → Nat → Bool} {s t : Subscription} {o : Occasion}
  {now now' S : Nat} {answer : Option (Except QueueFault QueueAnswer)}
  {new log : List (Nat × Beat Deed)} {ds : List Deed} {stage : Stage}

theorem IsAt.tickDue? (hs : s.IsAt stage) : s.tickDue? =
    match stage with
    | .pacing ticker _ => some ticker.due
    | _ => none := by
  cases stage <;> simp [Subscription.tickDue?, hs.1, hs.2]

/-- Taking a tick is no failure. -/
theorem tickDue?_of_failed (h : s.go p now answer = some t) {status : Status}
    (ht : t.phase = .closed (.error status)) : s.tickDue? = none := by
  obtain ⟨user, outbound, isCancelled, phase⟩ := s
  cases isCancelled with
  | true => rfl
  | false =>
    cases phase with
    | closed outcome => rfl
    | running stage =>
      cases stage with
      | pacing ticker k =>
        simp only [go, goStage, guarded_live, Option.map_map, Option.map_eq_some_iff] at h
        obtain ⟨ticker', -, rfl⟩ := h
        simp [arrived, Except.map] at ht
      | _ => rfl

theorem beaten_of_occur {x y : Nat × Subscription}
    (h : ((machine p).clocked clock suits).occur x o = some (new, y)) : Beaten p suits x new y := by
  obtain ⟨latest, s⟩ := x
  obtain ⟨latest', t⟩ := y
  obtain ⟨ds, ho, hlog⟩ := Machine.occur_clocked.mp h
  cases o with
  | outside move =>
    obtain ⟨-, rfl, rfl⟩ | ⟨htime, -⟩ := hlog
    · exact .aside (clientMove_cases (occur_outside.mp ho).1).2
    · simp [clock] at htime
  | turn now answer =>
    obtain ⟨htime, -⟩ | ⟨htime, hsuits, rfl⟩ := hlog
    · simp [clock] at htime
    · obtain rfl : now = latest' := by simpa [clock] using htime
      obtain ⟨hgo, rfl⟩ := occur_turn.mp ho
      exact .turn hsuits (turn_of_answer hgo) fun status ht => tickDue?_of_failed hgo ht

end

end Subscription

/-- When polls and the count are told, for a subscription that starts at `S`. -/
def OnTime (p : Policy) (S : Nat) (before : List (Nat × Beat Deed)) (x : Nat × Beat Deed) : Prop :=
  (∀ user answer, x.2 = .did (.called (.pop user) answer) →
    x.1 = S + ((polls (deedsOf before)).length + 1) * p.poll) ∧
  ∀ n, x.2 = .did (.sent (.ofCount n)) → x.1 = S

/-- Where a subscription can be at a time, when it has started at `S` and has polled `n` times. -/
def Phase.InTempo (p : Policy) (S n now : Nat) : Phase → Prop
  | .running .counting => now = S ∧ n = 0
  | .running (.announcing _) => now = S ∧ n = 0
  | .running (.pacing ticker _) => ticker = .started p.poll now ∧ now = S + n * p.poll
  | .running (.popping ticker _) => ticker = .started p.poll now ∧ now = S + (n + 1) * p.poll
  | .running (.sending ticker _) => ticker = .started p.poll now ∧ now = S + n * p.poll
  | .running .finished => False
  | .closed (.ok ()) => now = S + n * p.poll
  | .closed (.error _) => True

section
variable {p : Policy} {S n now now' : Nat} {s t : Subscription} {log : List (Nat × Beat Deed)}
  {ds : List Deed}

theorem Phase.InTempo.arrived {ticker : Ticker} (k : Nat) (hticker : ticker = .started p.poll now)
    (hnow : now = S + n * p.poll) :
    InTempo p S n now (s.arrived p (.ok (.polling p ticker k))).phase := by
  rw [Subscription.arrived_polling]
  split
  · exact ⟨hticker, hnow⟩
  · exact hnow

theorem Phase.InTempo.of_outcome? (h : s.phase.InTempo p S n now)
    (ho : s.outcome? = some (.ok ())) : now = S + n * p.poll := by
  cases hs : s.phase with
  | running stage => simp [Subscription.outcome?, hs] at ho
  | closed outcome =>
    obtain rfl : outcome = .ok () := by simpa [Subscription.outcome?, hs] using ho
    rwa [hs] at h

theorem Phase.InTempo.turn (h : s.phase.InTempo p S (polls (deedsOf log)).length now)
    (hlaw : Lawful (OnTime p S) log) (hnow : now' = s.tickDue?.getD now)
    (hturn : Turn p now' s ds t)
    (hfailed : ∀ status, t.phase = .closed (.error status) → s.tickDue? = none) :
    Lawful (OnTime p S) (log ++ Subscription.clock.beats s now' ds) ∧
      t.phase.InTempo p S (polls (deedsOf log ++ ds)).length now' := by
  cases hturn with
  | cancelled | unheard =>
    have hdue := hfailed _ rfl
    rw [Clock.beats_waiting hdue]
    simpa using ⟨hlaw, trivial⟩
  | counted hat =>
    have hdue : s.tickDue? = none := hat.tickDue?
    obtain rfl : now' = now := by simpa [hdue] using hnow
    rw [hat.1] at h
    rw [Clock.beats_waiting hdue]
    refine ⟨lawful_append_single.mpr ⟨hlaw, by rintro user answer ⟨⟩, by rintro n ⟨⟩⟩, ?_⟩
    exact ⟨h.1, by simpa [polls] using h.2⟩
  | uncounted hat =>
    rw [Clock.beats_waiting hat.tickDue?]
    exact ⟨lawful_append_single.mpr ⟨hlaw, by rintro user answer ⟨⟩, by rintro n ⟨⟩⟩, trivial⟩
  | announced hat _ =>
    have hdue : s.tickDue? = none := hat.tickDue?
    obtain rfl : now' = now := by simpa [hdue] using hnow
    rw [hat.1] at h
    obtain ⟨rfl, hnone⟩ := h
    rw [Clock.beats_waiting hdue]
    refine ⟨lawful_append_single.mpr ⟨hlaw, by rintro user answer ⟨⟩, fun _ _ => rfl⟩, ?_⟩
    refine InTempo.arrived 0 rfl ?_
    rw [polls_append, List.length_eq_zero_iff.mp hnone]
    simp [polls]
  | @paced _ _ k hat htake =>
    rw [hat.1] at h
    obtain ⟨rfl, rfl⟩ := h
    have hdue : s.tickDue? = some (S + (polls (deedsOf log)).length * p.poll + p.poll) :=
      hat.tickDue?
    obtain rfl : now' = S + (polls (deedsOf log)).length * p.poll + p.poll := by
      simpa [hdue] using hnow
    rw [Ticker.take?_started, Option.some.injEq] at htake
    rw [Clock.beats_ticking hdue]
    refine ⟨lawful_append_single.mpr ⟨hlaw, by rintro user answer ⟨⟩, by rintro n ⟨⟩⟩, ?_⟩
    refine ⟨htake.symm, ?_⟩
    rw [List.append_nil, Nat.add_mul, Nat.one_mul, Nat.add_assoc]
  | popped hat _ =>
    have hdue : s.tickDue? = none := hat.tickDue?
    obtain rfl : now' = now := by simpa [hdue] using hnow
    rw [hat.1] at h
    obtain ⟨hticker, hpresent⟩ := h
    rw [Clock.beats_waiting hdue]
    refine ⟨lawful_append_single.mpr ⟨hlaw, fun _ _ _ => hpresent, by rintro n ⟨⟩⟩, ?_⟩
    exact ⟨hticker, by simpa [polls] using hpresent⟩
  | foundNone hat _ =>
    have hdue : s.tickDue? = none := hat.tickDue?
    obtain rfl : now' = now := by simpa [hdue] using hnow
    rw [hat.1] at h
    obtain ⟨hticker, hpresent⟩ := h
    rw [Clock.beats_waiting hdue]
    refine ⟨lawful_append_single.mpr ⟨hlaw, fun _ _ _ => hpresent, by rintro n ⟨⟩⟩, ?_⟩
    exact InTempo.arrived _ hticker (by simpa [polls] using hpresent)
  | unpopped hat =>
    have hdue : s.tickDue? = none := hat.tickDue?
    obtain rfl : now' = now := by simpa [hdue] using hnow
    rw [hat.1] at h
    rw [Clock.beats_waiting hdue]
    exact ⟨lawful_append_single.mpr ⟨hlaw, fun _ _ _ => h.2, by rintro n ⟨⟩⟩, trivial⟩
  | delivered hat _ =>
    have hdue : s.tickDue? = none := hat.tickDue?
    obtain rfl : now' = now := by simpa [hdue] using hnow
    rw [hat.1] at h
    obtain ⟨hticker, hpresent⟩ := h
    rw [Clock.beats_waiting hdue]
    refine ⟨lawful_append_single.mpr ⟨hlaw, by rintro user answer ⟨⟩, by rintro n ⟨⟩⟩, ?_⟩
    exact InTempo.arrived 0 hticker (by simpa [polls] using hpresent)

end

-- ---------------------------------------------------------------------------
-- Every sequence of outcomes is polled
-- ---------------------------------------------------------------------------

namespace Subscription

/-- Undisturbed and with nothing late, a subscription can get from `x` to `y`. -/
def Goes (p : Policy) (x : Nat × Subscription) (ds : List Deed) (y : Nat × Subscription) : Prop :=
  ∃ os log, .outside .leave ∉ os ∧ .outside .cancel ∉ os ∧
    ((machine p).prompt clock).course x os = some (log, y) ∧ deedsOf log = ds

section
variable {p : Policy} {x y z : Nat × Subscription} {a b : List Deed} {s t : Subscription}
  {now now' : Nat}

theorem Goes.trans (h : Goes p x a y) (h' : Goes p y b z) : Goes p x (a ++ b) z := by
  obtain ⟨os, log, hleave, hcancel, hcourse, rfl⟩ := h
  obtain ⟨os', log', hleave', hcancel', hcourse', rfl⟩ := h'
  refine ⟨os ++ os', log ++ log', by simp [hleave, hleave'], by simp [hcancel, hcancel'], ?_,
    deedsOf_append _ _⟩
  exact Machine.course_append.mpr ⟨log, y, log', hcourse, hcourse', rfl⟩

theorem goes_of_occur {o : Occasion} {log : List (Nat × Beat Deed)}
    (h : ((machine p).prompt clock).occur x o = some (log, y)) (hleave : o ≠ .outside .leave)
    (hcancel : o ≠ .outside .cancel) : Goes p x (deedsOf log) y := by
  refine ⟨[o], log, by simp [hleave.symm], by simp [hcancel.symm], ?_, rfl⟩
  exact Machine.course_cons.mpr ⟨log, y, [], h, rfl, (List.append_nil log).symm⟩

theorem goes_of_go (answer : Option (Except QueueFault QueueAnswer)) {ds : List Deed}
    (hgo : s.go p now' answer = some t) (hnow : now' = s.tickDue?.getD now)
    (hds : s.deedsWith answer t = ds) : Goes p (now, s) ds (now', t) := by
  subst hds
  have ho : ((machine p).prompt clock).occur (now, s) (.turn now' answer) =
      some (clock.beats s now' (s.deedsWith answer t), (now', t)) :=
    Machine.occur_clocked.mpr
      ⟨_, occur_turn.mpr ⟨hgo, rfl⟩, .inr ⟨rfl, decide_eq_true hnow, rfl⟩⟩
  rw [← deedsOf_beats clock s now' (s.deedsWith answer t)]
  exact goes_of_occur ho (by simp) (by simp)

theorem goes_of_read (h : s.clientMove .read = some t) : Goes p (now, s) [] (now, t) := by
  have ho : ((machine p).prompt clock).occur (now, s) (.outside .read) = some ([], (now, t)) :=
    Machine.occur_clocked.mpr ⟨[], occur_outside.mpr ⟨h, rfl⟩, .inl ⟨rfl, rfl, rfl⟩⟩
  exact goes_of_occur ho (by simp) (by simp)

end

/-- A subscription at a stage, whose client has read all there is. -/
def readAt (user : UserId) (capacity : Nat) (stage : Stage) : Subscription :=
  ⟨user, { capacity }, false, .running stage⟩

section
variable {p : Policy} {user : UserId} {capacity now k : Nat} {stage next : Stage} {frame : Frame}

theorem arrived_of_lt {ticker : Ticker} (h : k < p.tries) :
    (readAt user capacity stage).arrived p (.ok (.polling p ticker k)) =
      readAt user capacity (.pacing ticker k) := by
  rw [arrived_polling, if_pos h]
  rfl

theorem goes_send (hroom : 0 < capacity)
    (hgo : ∀ s : Subscription, s.goStage p now none stage = s.goSend frame next)
    (hdue : (readAt user capacity stage).tickDue? = none) :
    Goes p (now, readAt user capacity stage) [.sent frame]
      (now, (readAt user capacity stage).arrived p (.ok next)) := by
  have hsent : (readAt user capacity stage).go p now none =
      some (({ readAt user capacity stage with
        outbound := { capacity, queued := [frame] } }).arrived p (.ok next)) := by
    simp [go, readAt, hgo, goSend, emit, Channel.send?, hroom]
  have hread : (({ readAt user capacity stage with
        outbound := { capacity, queued := [frame] } }).arrived p (.ok next)).clientMove .read =
      some ((readAt user capacity stage).arrived p (.ok next)) := by
    cases next <;> rfl
  have hdeeds : (readAt user capacity stage).deedsWith none (({ readAt user capacity stage with
      outbound := { capacity, queued := [frame] } }).arrived p (.ok next)) = [.sent frame] := by
    simp [deedsWith, Channel.sentSince, queued_arrived, readAt]
  exact (goes_of_go none hsent (by rw [hdue]; rfl) hdeeds).trans (goes_of_read hread)

theorem goes_announce (hroom : 0 < capacity) (n : Nat) :
    Goes p (now, .started user { capacity } false)
      [.called (.count user) (.ok (.number n)), .sent (.ofCount n)]
      (now, (readAt user capacity (.announcing n)).arrived p
        (.ok (.polling p (.started p.poll now) 0))) := by
  have hcount : Goes p (now, .started user { capacity } false)
      [.called (.count user) (.ok (.number n))] (now, readAt user capacity (.announcing n)) :=
    goes_of_go (some (.ok (.number n))) rfl rfl rfl
  exact hcount.trans (goes_send hroom (fun _ => rfl) rfl)

theorem goes_tick :
    Goes p (now, readAt user capacity (.pacing (.started p.poll now) k)) [] (now + p.poll,
      readAt user capacity (.popping (.started p.poll (now + p.poll)) k)) := by
  refine goes_of_go none ?_ rfl rfl
  simp [readAt, go, goStage, Ticker.take?_started, Except.map, arrived]

theorem goes_pop (ticker : Ticker) (answer : Except QueueFault QueueAnswer) :
    Goes p (now, readAt user capacity (.popping ticker k)) [.called (.pop user) answer] (now,
      (readAt user capacity (.popping ticker k)).arrived p
        ((answer.mapError Failure.queue).map fun a => .popped p ticker k a.popped)) := by
  refine goes_of_go (some answer) ?_ rfl ?_
  · cases answer <;> rfl
  · simp [deedsWith, awaits, Channel.sentSince, queued_arrived, readAt]

theorem goes_found (hroom : 0 < capacity) (e : NoteEvent) :
    Goes p (now, readAt user capacity (.pacing (.started p.poll now) k))
      [.called (.pop user) (.ok (.event (some e))), .sent (.ofEvent e)] (now + p.poll,
        (readAt user capacity (.sending (.started p.poll (now + p.poll)) e)).arrived p
          (.ok (.polling p (.started p.poll (now + p.poll)) 0))) :=
  goes_tick.trans ((goes_pop _ (.ok (.event (some e)))).trans
    (goes_send hroom (fun _ => rfl) rfl))

/-- Whatever the polls come out as, a subscription makes the next one as long as it may, and in
time. -/
theorem goes_polling (user : UserId) (now : Nat) (hroom : 0 < capacity) {outcomes : List Poll}
    (h : MadeInTurn p.tries outcomes) :
    ∃ ds s, Goes p (now, .started user { capacity } false) ds (now + outcomes.length * p.poll, s) ∧
      polls ds = outcomes ∧ frames ds ≠ [] ∧
      (MayPoll p.tries outcomes →
        s = readAt user capacity (.pacing (.started p.poll (now + outcomes.length * p.poll))
          (emptyRun outcomes))) := by
  induction outcomes using List.reverseRecOn with
  | nil =>
    refine ⟨_, _, by simpa using goes_announce hroom 0, rfl, by simp [frames], ?_⟩
    intro hmay
    rw [List.length_nil, Nat.zero_mul, Nat.add_zero]
    exact arrived_of_lt hmay.emptyRun_lt
  | append_singleton outcomes o ih =>
    obtain ⟨hold, hmay⟩ := lawful_append_single.mp h
    obtain ⟨ds, s, hgoes, rfl, hframes, hs⟩ := ih hold
    obtain rfl := hs hmay
    have htime : now + (polls ds ++ [o]).length * p.poll =
        now + (polls ds).length * p.poll + p.poll := by
      rw [List.length_append, List.length_singleton, Nat.add_mul, Nat.one_mul, Nat.add_assoc]
    rw [htime]
    cases o with
    | error fault =>
      refine ⟨_, _, hgoes.trans (goes_tick.trans (goes_pop _ (.error fault))), ?_, ?_, ?_⟩
      · simp [polls, Except.map]
      · simp [hframes]
      · intro hmay'
        obtain ⟨found, hfound⟩ := hmay'.2 (.error fault) (by simp)
        cases hfound
    | ok found =>
      cases found with
      | none =>
        refine ⟨_, _, hgoes.trans (goes_tick.trans (goes_pop _ (.ok (.event none)))), ?_, ?_, ?_⟩
        · simp [polls, Except.map, QueueAnswer.popped]
        · simp [hframes]
        · intro hmay'
          rw [emptyRun_append_none]
          exact arrived_of_lt (emptyRun_append_none _ ▸ hmay'.emptyRun_lt)
      | some e =>
        refine ⟨_, _, hgoes.trans (goes_found hroom e), ?_, ?_, ?_⟩
        · simp [polls, Except.map, QueueAnswer.popped]
        · simp [hframes]
        · intro hmay'
          rw [emptyRun_append_some]
          exact arrived_of_lt (emptyRun_append_some _ _ ▸ hmay'.emptyRun_lt)

end

end Subscription

-- ---------------------------------------------------------------------------
-- Along a course
-- ---------------------------------------------------------------------------

section
variable {p : Policy} {user : UserId} {outbound : Channel Frame} {isCancelled : Bool}
  {s : Subscription} {os : List Occasion} {past : List Deed} {fs : List Frame}
  {outcomes : List Poll} {S now : Nat} {log : List (Nat × Beat Deed)}

theorem Subscription.polled (hheard : outbound.isAbandoned = false)
    (h : (machine p).course (.started user outbound false) os = some (past, s))
    (hleave : .outside .leave ∉ os) (hcancel : .outside .cancel ∉ os) :
    Polled p s.phase (frames past) (polls past) := by
  refine (Machine.course_induction (P := fun os past s => .outside .leave ∉ os →
    .outside .cancel ∉ os → s.Undisturbed ∧ Polled p s.phase (frames past) (polls past))
    (fun _ _ => ⟨⟨rfl, hheard⟩, .counting⟩) ?_ h hleave hcancel).2
  intro os past v o new t _ hv ho hleave hcancel
  simp only [List.mem_append, List.mem_singleton, not_or] at hleave hcancel
  obtain ⟨hquiet, hpolled⟩ := hv hleave.1 hcancel.1
  obtain ⟨move, rfl, rfl, hm⟩ | ⟨now, answer, rfl, hturn⟩ := turn_of_occur ho
  · rw [List.append_nil, (clientMove_cases hm).2]
    refine ⟨hquiet.outside hm ?_ ?_, hpolled⟩
    · rintro rfl
      exact hleave.2 rfl
    · rintro rfl
      exact hcancel.2 rfl
  · rw [frames_append, polls_append]
    exact ⟨hturn.undisturbed hquiet, hpolled.turn hquiet hturn⟩

theorem Subscription.course_of_prompt {x : Nat}
    (h : ((machine p).prompt clock).course (x, .started user outbound isCancelled) os =
      some (log, (now, s))) :
    (machine p).course (.started user outbound isCancelled) os = some (deedsOf log, s) := by
  refine Machine.course_of_clocked ?_ h
  intro v o ds t ho htime
  cases o with
  | outside move => exact (occur_outside.mp ho).2
  | turn now answer => simp [clock] at htime

theorem Subscription.inTempo
    (h : ((machine p).prompt clock).course (S, .started user outbound isCancelled) os =
      some (log, (now, s))) :
    Lawful (OnTime p S) log ∧ s.phase.InTempo p S (polls (deedsOf log)).length now := by
  refine Machine.course_induction (P := fun _ log x => Lawful (OnTime p S) log ∧
    x.2.phase.InTempo p S (polls (deedsOf log)).length x.1) ⟨lawful_nil, rfl, rfl⟩ ?_ h
  rintro os log x o new y - ⟨hlaw, htempo⟩ ho
  cases beaten_of_occur ho with
  | aside hphase =>
    rw [List.append_nil, hphase]
    exact ⟨hlaw, htempo⟩
  | turn hsuits hturn hfailed =>
    rw [deedsOf_append, deedsOf_beats]
    exact Phase.InTempo.turn htempo hlaw (of_decide_eq_true hsuits) hturn hfailed

theorem Polled.madeInTurn (h : Polled p s.phase fs outcomes) : MadeInTurn p.tries outcomes := by
  generalize s.phase = phase at h
  cases h with
  | counting | announcing | uncounted => exact lawful_nil
  | pacing hmade _ | popping hmade _ | done hmade _ _ => exact hmade
  | sending hmade hmay | unpopped hmade hmay => exact lawful_append_single.mpr ⟨hmade, hmay⟩

theorem Polled.outcome?_eq_ok_iff (h : Polled p s.phase fs outcomes) :
    s.outcome? = some (.ok ()) ↔ fs ≠ [] ∧ (∀ o ∈ outcomes, ∃ found, o = .ok found) ∧
      List.replicate p.tries (.ok none) <:+ outcomes := by
  unfold Subscription.outcome?
  generalize s.phase = phase at h
  cases h with
  | counting | announcing | uncounted => simp
  | pacing _ hmay | popping _ hmay => simp [hmay.1]
  | done _ hok hrun =>
    refine iff_of_true rfl ⟨by simp [told], hok, ?_⟩
    exact replicate_suffix_iff.mpr (Nat.le_of_eq hrun.symm)
  | sending _ hmay =>
    refine iff_of_false (by simp) fun ⟨_, _, hsuffix⟩ => ?_
    -- What was found ends the row.
    have hle := replicate_suffix_iff.mp hsuffix
    rw [emptyRun_append_some] at hle
    exact Nat.not_le.mpr (Nat.zero_lt_of_lt hmay.emptyRun_lt) hle
  | unpopped =>
    refine iff_of_false (by simp) fun ⟨_, hok, _⟩ => ?_
    obtain ⟨found, hfound⟩ := hok _ (List.mem_append_right _ (List.mem_singleton.mpr rfl))
    cases hfound

theorem Polled.of_fault (h : Polled p s.phase fs outcomes) {before after : List Poll}
    {fault : QueueFault} (hsplit : outcomes = before ++ .error fault :: after) :
    after = [] ∧ s.outcome? = some (.error (p.rulebook.statusOf (.queue fault))) := by
  obtain rfl | ⟨after, o, rfl⟩ := List.eq_nil_or_concat after
  · refine ⟨rfl, ?_⟩
    unfold Subscription.outcome?
    generalize s.phase = phase at h
    have hmem : .error fault ∈ outcomes := by simp [hsplit]
    cases h with
    | counting | announcing | uncounted => simp at hmem
    | pacing _ hmay | popping _ hmay =>
      obtain ⟨found, hfound⟩ := hmay.2 _ hmem
      cases hfound
    | done _ hok =>
      obtain ⟨found, hfound⟩ := hok _ hmem
      cases hfound
    | sending _ hmay =>
      obtain ⟨found, hfound⟩ := hmay.ok_append _ _ hmem
      cases hfound
    | unpopped =>
      obtain ⟨-, hlast⟩ := List.append_inj' hsplit rfl
      obtain ⟨rfl⟩ := hlast
      rfl
  · -- The last poll was not made behind a failure.
    rw [List.concat_eq_append, ← List.cons_append, ← List.append_assoc] at hsplit
    obtain ⟨-, hok⟩ := h.madeInTurn _ o [] hsplit
    obtain ⟨found, hfound⟩ := hok (.error fault) (by simp)
    cases hfound

theorem Polled.of_error (h : Polled p s.phase fs outcomes) (hfs : fs ≠ []) {status : Status}
    (ho : s.outcome? = some (.error status)) :
    ∃ before fault, outcomes = before ++ [.error fault] ∧
      status = p.rulebook.statusOf (.queue fault) := by
  unfold Subscription.outcome? at ho
  generalize s.phase = phase at h ho
  cases h with
  | counting | announcing | uncounted => exact absurd rfl hfs
  | pacing | popping | sending | done => simp at ho
  | @unpopped fault _ before => exact ⟨before, fault, rfl, by simpa [eq_comm] using ho⟩

theorem Polled.frames_eq (h : Polled p s.phase fs outcomes) : fs = [] ∧ outcomes = [] ∨
    ∃ n sent held, fs = .ofCount n :: sent.map .ofEvent ∧ events outcomes = sent ++ held ∧
      (held = [] ∨ ∃ ticker e, s.phase = .running (.sending ticker e) ∧ held = [e]) := by
  generalize s.phase = phase at h ⊢
  cases h with
  | counting | announcing | uncounted => exact .inl ⟨rfl, rfl⟩
  | pacing | popping | done => exact .inr ⟨_, _, [], rfl, (List.append_nil _).symm, .inl rfl⟩
  | @sending ticker e => exact .inr ⟨_, _, [e], rfl, events_append _ _, .inr ⟨ticker, e, rfl, rfl⟩⟩
  | unpopped => exact .inr ⟨_, _, [], rfl, events_append _ _, .inl rfl⟩

theorem Polled.emptyRun_le (h : Polled p s.phase fs outcomes) : emptyRun outcomes ≤ p.tries := by
  generalize s.phase = phase at h
  cases h with
  | counting | announcing | uncounted => exact Nat.zero_le _
  | pacing _ hmay | popping _ hmay => exact Nat.le_of_lt hmay.emptyRun_lt
  | done _ _ hrun => exact Nat.le_of_eq hrun
  | sending | unpopped => simp

theorem Polled.counter_eq (h : Polled p s.phase fs outcomes) {ticker : Ticker} {k : Nat}
    (hs : s.phase = .running (.pacing ticker k) ∨ s.phase = .running (.popping ticker k)) :
    k = emptyRun outcomes ∧ k < p.tries := by
  obtain hs | hs := hs
  · rw [hs] at h
    cases h with
    | pacing _ hmay => exact ⟨rfl, hmay.emptyRun_lt⟩
  · rw [hs] at h
    cases h with
    | popping _ hmay => exact ⟨rfl, hmay.emptyRun_lt⟩

/-- Bounded polling. Undisturbed, a subscription polls until so many polls in a row were empty as it
tries, or one has failed, and never behind that: then it is over, and well in the first case. It has
sent one frame for each event that it found, and its counter is how many polls in a row were empty.
When nothing comes late, the count is told at the start, the n-th poll comes out n periods later,
and a good end behind n polls is n periods later, too. Every sequence of outcomes that a
subscription may poll is polled by one. -/
theorem polls_bounded {p : Policy} {user : UserId} :
    (∀ (outbound : Channel Frame) (os : List Occasion) (past : List Deed) (s : Subscription),
      outbound.isAbandoned = false →
      (Subscription.machine p).course (.started user outbound false) os = some (past, s) →
      .outside .leave ∉ os → .outside .cancel ∉ os →
      (∀ before o after, polls past = before ++ o :: after → MayPoll p.tries before) ∧
      (p.tries = 0 → polls past = []) ∧
      (s.outcome? = some (.ok ()) ↔ frames past ≠ [] ∧
        (∀ o ∈ polls past, ∃ found, o = .ok found) ∧
        List.replicate p.tries (.ok none) <:+ polls past) ∧
      (∀ before fault after, polls past = before ++ .error fault :: after →
        after = [] ∧ s.outcome? = some (.error (p.rulebook.statusOf (.queue fault)))) ∧
      (frames past ≠ [] → ∀ status, s.outcome? = some (.error status) →
        ∃ before fault, polls past = before ++ [.error fault] ∧
          status = p.rulebook.statusOf (.queue fault)) ∧
      (frames past = [] ∧ polls past = [] ∨ ∃ n sent held,
        frames past = .ofCount n :: sent.map .ofEvent ∧ events (polls past) = sent ++ held ∧
        (held = [] ∨ ∃ ticker e, s.phase = .running (.sending ticker e) ∧ held = [e])) ∧
      emptyRun (polls past) ≤ p.tries ∧
      (∀ ticker k, s.phase = .running (.pacing ticker k) ∨ s.phase = .running (.popping ticker k) →
        k = emptyRun (polls past) ∧ k < p.tries)) ∧
    (∀ (outbound : Channel Frame) (isCancelled : Bool) (S now : Nat) (os : List Occasion)
      (log : List (Nat × Beat Deed)) (s : Subscription),
      ((Subscription.machine p).prompt Subscription.clock).course
        (S, .started user outbound isCancelled) os = some (log, (now, s)) →
      (∀ before t n after, log = before ++ (t, .did (.sent (.ofCount n))) :: after → t = S) ∧
      (∀ before t owner answer after,
        log = before ++ (t, .did (.called (.pop owner) answer)) :: after →
        t = S + ((polls (deedsOf before)).length + 1) * p.poll) ∧
      (s.outcome? = some (.ok ()) → now = S + (polls (deedsOf log)).length * p.poll)) ∧
    ∀ (capacity S : Nat) (outcomes : List Poll), 0 < capacity →
      (∀ before o after, outcomes = before ++ o :: after → MayPoll p.tries before) →
      ∃ os log s, .outside .leave ∉ os ∧ .outside .cancel ∉ os ∧
        ((Subscription.machine p).prompt Subscription.clock).course
          (S, .started user { capacity } false) os =
            some (log, (S + outcomes.length * p.poll, s)) ∧
        polls (deedsOf log) = outcomes ∧
        (s.outcome? = some (.ok ()) ↔ (∀ o ∈ outcomes, ∃ found, o = .ok found) ∧
          List.replicate p.tries (.ok none) <:+ outcomes) := by
  refine ⟨?_, ?_, ?_⟩
  · intro outbound os past s hheard h hleave hcancel
    have hpolled := Subscription.polled hheard h hleave hcancel
    refine ⟨hpolled.madeInTurn, ?_, hpolled.outcome?_eq_ok_iff, fun _ _ _ => hpolled.of_fault,
      fun hfs _ => hpolled.of_error hfs, hpolled.frames_eq, hpolled.emptyRun_le,
      fun _ _ => hpolled.counter_eq⟩
    intro hnone
    cases hpolls : polls past with
    | nil => rfl
    | cons o after =>
      have hlt := (hpolled.madeInTurn [] o after hpolls).emptyRun_lt
      exact absurd hlt (by simp [hnone])
  · intro outbound isCancelled S now os log s h
    obtain ⟨hlaw, htempo⟩ := Subscription.inTempo h
    refine ⟨fun before t n after hsplit => (hlaw before _ after hsplit).2 n rfl,
      fun before t owner answer after hsplit => (hlaw before _ after hsplit).1 owner answer rfl, ?_⟩
    exact htempo.of_outcome?
  · intro capacity S outcomes hroom hmade
    obtain ⟨_, s, ⟨os, log, hleave, hcancel, hcourse, rfl⟩, hpolls, hframes, -⟩ :=
      Subscription.goes_polling user S hroom hmade
    refine ⟨os, log, s, hleave, hcancel, hcourse, hpolls, ?_⟩
    have hpolled := Subscription.polled rfl (Subscription.course_of_prompt hcourse) hleave hcancel
    rw [hpolled.outcome?_eq_ok_iff, hpolls]
    exact and_iff_right hframes

def twice : Policy :=
  ⟨5, 2, .standard⟩

def firstNote : NoteEvent :=
  ⟨⟨⟨Vector.replicate 32 ⟨0, Nat.zero_lt_succ 15⟩⟩⟩, .created, ⟨7⟩, ⟨1⟩, Relay.newYear⟩

/-- An event comes behind an empty poll, and then no more. -/
def lateEvent : List Occasion :=
  [.turn 3 (some (.ok (.number 0))), .turn 3 none, .turn 8 none,
    .turn 8 (some (.ok (.event none))), .turn 13 none,
    .turn 13 (some (.ok (.event (some firstNote)))), .turn 13 none, .turn 18 none,
    .turn 18 (some (.ok (.event none))), .turn 23 none, .turn 23 (some (.ok (.event none)))]

theorem polls_bounded_twice :
    (∃ past s, (Subscription.machine twice).course .fresh lateEvent = some (past, s) ∧
      polls past = [.ok none, .ok (some firstNote), .ok none, .ok none] ∧
      s.outcome? = some (.ok ()) ∧ List.replicate twice.tries (.ok none) <:+ polls past) ∧
    (∃ log s, ((Subscription.machine twice).prompt Subscription.clock).course (3, .fresh)
        lateEvent = some (log, (23, s)) ∧ 23 = 3 + (polls (deedsOf log)).length * twice.poll) ∧
    ∃ os log s, ((Subscription.machine twice).prompt Subscription.clock).course
        (3, .started ⟨1⟩ { capacity := 4 } false) os = some (log, (13, s)) ∧
      s.outcome? = some (.ok ()) := by
  refine ⟨?_, ?_, ?_⟩
  · have h : (Subscription.machine twice).course .fresh lateEvent = some (_, _) := rfl
    obtain ⟨-, -, hend, -⟩ := polls_bounded.1 { capacity := 4 } lateEvent _ _ rfl h
      (by simp [lateEvent]) (by simp [lateEvent])
    exact ⟨_, _, h, rfl, rfl, (hend.mp rfl).2.2⟩
  · have h : ((Subscription.machine twice).prompt Subscription.clock).course (3, .fresh)
      lateEvent = some (_, (23, _)) := rfl
    exact ⟨_, _, h, (polls_bounded.2.1 _ _ _ _ _ _ _ h).2.2 rfl⟩
  · have hmay : ∀ before o after, [.ok none, .ok none] = before ++ o :: after →
        MayPoll twice.tries before := by
      refine lawful_append_single.mpr ⟨lawful_append_single.mpr ⟨lawful_nil, ?_⟩, ?_⟩
      · exact ⟨fun h => absurd (replicate_suffix_iff.mp h) (by decide), by simp⟩
      · exact ⟨fun h => absurd (replicate_suffix_iff.mp h) (by decide), by simp⟩
    obtain ⟨os, log, s, -, -, hcourse, -, hend⟩ :=
      (@polls_bounded twice ⟨1⟩).2.2 4 3 _ (by decide) hmay
    exact ⟨os, log, s, hcourse, hend.mpr ⟨by simp, by decide⟩⟩

end

end Notify

end NoteRelay
