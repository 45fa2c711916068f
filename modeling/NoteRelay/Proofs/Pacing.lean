import NoteRelay.Proofs.Chat.Tempo
import NoteRelay.Proofs.Notify.Polling

/-!
# Pacing

However late everything comes that they wait for, the delivery of a session sends its frames and a
subscription makes its polls at the pace of their tickers (`paced`): never early, and behind a delay
not faster than ever. Each frame and each poll has a tick of its own, so that this comes down to
what the tickers grant.
-/

namespace NoteRelay

-- ---------------------------------------------------------------------------
-- Sessions
-- ---------------------------------------------------------------------------

namespace Chat

def Session.ticker? (s : Session) : Option Ticker :=
  match s.phase with
  | .running _ d => some d.ticker
  | _ => none

section
variable {p : Policy} {supply : IdSupply} {id : SessionId} {S now : Nat} {s t : Session}
  {ds : List Deed} {log new : List (Nat × Beat Act)} {i : Intake} {d : Delivery}

theorem Session.ticker?_of_aside (h : Aside s t) {k : Ticker} (hk : t.ticker? = some k) :
    s.ticker? = some k := by
  cases h with
  | same hphase => rwa [ticker?, hphase] at hk
  | intake hs ht => rw [ticker?, ht] at hk; rwa [ticker?, hs]
  | failed _ ht => simp [ticker?, ht] at hk

theorem Session.turned (hturn : Turn p id now .delivery s ds t)
    (hfailed : ∀ f, t.phase = .closing (.error f) → s.tickDue? .delivery = none) :
    Ticker.Turned now (s.tickDue? .delivery) s.ticker? t.ticker? := by
  have hwaits : ∀ {i d}, s.Runs i d → s.ticker? = some d.ticker := fun hs => by
    simp [ticker?, hs.1]
  cases hturn with
  | cancelled | unheard | unfetched =>
    rw [hfailed _ rfl]
    exact .left (by simp [ticker?])
  | fetched hs hat | foundNothing hs hat | delivered hs hat | settled hs hat =>
    rw [hs.tickDue?, hat, hwaits hs]
    exact .left fun k hk => hk
  | finished hs hat =>
    rw [hs.tickDue?, hat]
    exact .left (by simp [ticker?])
  | rested hs hat htake | paced hs hat htake =>
    rw [hs.tickDue?, hat, hwaits hs]
    exact .taken htake

/-- What a log says of the pace of a session. -/
structure Session.AtPace (p : Policy) (S : Nat) (log : List (Nat × Beat Act))
    (x : Nat × Session) : Prop where
  granting : Ticker.Granting p.tick S (ticks log) x.2.ticker?
  begins : Lawful (BeginsWithTick Act.isFrame) log
  /-- A delivery that is sending has just taken a tick. -/
  ticked : ∀ i d m others, x.2.phase = .running i d → d.stage = .sending m others →
    ∃ earlier n, log = earlier ++ [(n, .tick)] ∧ n ≤ x.1

theorem Session.AtPace.aside (h : AtPace p S log (now, s)) (ht : Aside s t) :
    AtPace p S log (now, t) where
  granting := ⟨h.granting.lawful, fun k hk => h.granting.due k (ticker?_of_aside ht hk)⟩
  begins := h.begins
  ticked := by
    intro i d m others hrunning hat
    cases ht with
    | same hphase => exact h.ticked i d m others (hphase.symm.trans hrunning) hat
    | intake hs ht =>
      obtain ⟨-, rfl⟩ := Phase.running.inj (ht.symm.trans hrunning)
      exact h.ticked _ _ m others hs hat
    | failed _ ht => simp [ht] at hrunning

theorem Session.tickDue?_of_sending (hturn : Turn p id now .delivery s ds t)
    {m : ChatMessage} {others : List ChatMessage} (ht : t.phase = .running i d)
    (hat : d.stage = .sending m others) : ds = [] ∧ ∃ due, s.tickDue? .delivery = some due := by
  cases hturn with
  | paced hs hpacing _ =>
    exact ⟨rfl, _, by rw [hs.tickDue?, hpacing]⟩
  | fetched | foundNothing | rested | delivered =>
    cases ht
    simp at hat
  | @settled _ _ _ _ others =>
    cases ht
    cases others <;> simp [Delivery.settled, Stage.ofSnapshot] at hat
  | cancelled | unheard | finished | unfetched => simp at ht

theorem Session.AtPace.turn {latest : Nat} (h : AtPace p S log (latest, s))
    (hlatest : latest ≤ now) (hturn : Turn p id now .delivery s ds t)
    (hfailed : ∀ f, t.phase = .closing (.error f) → s.tickDue? .delivery = none) :
    AtPace p S (log ++ clock.beats s now (ds.map .did)) (now, t) where
  granting := h.granting.turned (c := clock) (turned hturn hfailed)
  begins := by
    obtain hquiet | ⟨i, d, m, others, hs, hat, rfl⟩ := hturn.frame_cases
    · refine lawful_append_of_quiet h.begins (isAct_beats _ _ _ fun a ha => ?_)
      obtain ⟨d, hd, rfl⟩ := List.mem_map.mp ha
      exact hquiet d hd
    · have hdue : s.tickDue? .delivery = none := by rw [hs.tickDue?, hat]
      rw [Clock.beats_waiting hdue]
      refine lawful_append_single.mpr ⟨h.begins, fun _ => ?_⟩
      obtain ⟨earlier, n, hlog, hn⟩ := h.ticked i d m others hs.1 hat
      exact ⟨earlier, n, hlog, Nat.le_trans hn hlatest⟩
  ticked := by
    intro i d m others ht hat
    obtain ⟨rfl, due, hdue⟩ := tickDue?_of_sending hturn ht hat
    exact ⟨log, now, by rw [List.map_nil, Clock.beats_ticking hdue], Nat.le_refl now⟩

theorem Session.atPace {inbound : Channel Item} {outbound : Channel Response}
    {isCancelled : Bool} {os : List Occasion}
    (h : ((machine p supply id).timed clock).course
      (S, .started p inbound outbound isCancelled S) os = some (log, (now, t))) :
    AtPace p S log (now, t) := by
  refine Machine.course_induction (P := fun _ log x => AtPace p S log x) ?_ ?_ h
  · refine ⟨.start p.tick S, lawful_nil, ?_⟩
    rintro i d m others ⟨⟩ ⟨⟩
  · rintro os log x o new y - hx ho
    cases beaten_of_occur ho with
    | aside haside =>
      rw [List.append_nil]
      exact hx.aside haside
    | turn hsuits hturn hfailed => exact hx.turn (of_decide_eq_true hsuits) hturn hfailed
    | cleared hsuits hs =>
      refine ⟨⟨?_, by simp [ticker?, finished]⟩, ?_, by simp [finished]⟩
      · simpa using hx.granting.lawful
      · exact lawful_append_of_quiet hx.begins (by simp [Beat.isAct, Act.isFrame, Deed.isDelivery])

end

end Chat

-- ---------------------------------------------------------------------------
-- Subscriptions
-- ---------------------------------------------------------------------------

namespace Notify

def Subscription.ticker? (s : Subscription) : Option Ticker :=
  match s.phase with
  | .running (.pacing ticker _) => some ticker
  | .running (.popping ticker _) => some ticker
  | .running (.sending ticker _) => some ticker
  | _ => none

def Deed.isPoll : Deed → Bool
  | .called (.pop _) _ => true
  | _ => false

/-- A subscription that has told its count, and so has started its ticker. -/
def Subscription.HasTold (s : Subscription) : Prop :=
  s.phase ≠ .running .counting ∧ ∀ n, s.phase ≠ .running (.announcing n)

/-- What the log since the ticker was started says of the pace of a subscription. -/
structure Subscription.AtPace (p : Policy) (S : Nat) (log : List (Nat × Beat Deed))
    (x : Nat × Subscription) : Prop where
  told : x.2.HasTold
  granting : Ticker.Granting p.poll S (ticks log) x.2.ticker?
  begins : Lawful (BeginsWithTick Deed.isPoll) log
  /-- A subscription that is popping has just taken a tick. -/
  ticked : ∀ ticker k, x.2.phase = .running (.popping ticker k) →
    ∃ earlier n, log = earlier ++ [(n, .tick)] ∧ n ≤ x.1

/-- What a subscription has done before its ticker was started. -/
def Unstarted (log : List (Nat × Beat Deed)) : Prop :=
  ticks log = [] ∧ frames (deedsOf log) = [] ∧ polls (deedsOf log) = []

section
variable {p : Policy} {S now : Nat} {s t : Subscription} {ds : List Deed}
  {log : List (Nat × Beat Deed)}

theorem Unstarted.append {new : List (Nat × Beat Deed)} (h : Unstarted log) (h' : Unstarted new) :
    Unstarted (log ++ new) := by
  simp [Unstarted, h.1, h.2.1, h.2.2, h'.1, h'.2.1, h'.2.2]

theorem Subscription.ticker?_arrived {ticker k' : Ticker} {k : Nat}
    (h : (s.arrived p (.ok (.polling p ticker k))).ticker? = some k') : k' = ticker := by
  rw [arrived_polling] at h
  split at h
  · exact (Option.some.inj h).symm
  · simp [ticker?, finished] at h

theorem Subscription.turned (hturn : Turn p now s ds t) (htold : s.HasTold)
    (hfailed : ∀ status, t.phase = .closed (.error status) → s.tickDue? = none) :
    Ticker.Turned now s.tickDue? s.ticker? t.ticker? := by
  cases hturn with
  | cancelled | unheard | unpopped | uncounted =>
    rw [hfailed _ rfl]
    exact .left (by simp [ticker?, finished])
  | counted hs => exact absurd hs.1 htold.1
  | announced hs _ => exact absurd hs.1 (htold.2 _)
  | paced hs htake =>
    rw [hs.tickDue?]
    simp only [ticker?, hs.1]
    exact .taken htake
  | popped hs _ =>
    rw [hs.tickDue?]
    exact .left (by simp [ticker?, hs.1])
  | foundNone hs _ | delivered hs _ =>
    rw [hs.tickDue?]
    refine .left fun k' hk' => ?_
    rw [ticker?_arrived hk']
    simp [ticker?, hs.1]

theorem Subscription.hasTold_arrived (s : Subscription) (p : Policy) (ticker : Ticker) (k : Nat) :
    (s.arrived p (.ok (.polling p ticker k))).HasTold := by
  rw [arrived_polling]
  split <;> exact ⟨by simp [finished], by simp [finished]⟩

theorem Turn.hasTold (h : Turn p now s ds t) (hs : s.HasTold) : t.HasTold := by
  cases h with
  | counted hat => exact absurd hat.1 hs.1
  | announced | foundNone | delivered => exact Subscription.hasTold_arrived _ _ _ _
  | cancelled | uncounted | unheard | unpopped => exact ⟨by simp [Subscription.finished],
      by simp [Subscription.finished]⟩
  | paced | popped => exact ⟨by simp, by simp⟩

theorem Turn.poll_cases (h : Turn p now s ds t) : (∀ d ∈ ds, d.isPoll = false) ∨
    ∃ ticker k answer, s.IsAt (.popping ticker k) ∧ ds = [.called (.pop s.user) answer] := by
  cases h with
  | popped hs _ | foundNone hs _ | unpopped hs => exact .inr ⟨_, _, _, hs, rfl⟩
  | cancelled | unheard | paced => exact .inl (by simp)
  | counted | uncounted | announced | delivered => exact .inl (by simp [Deed.isPoll])

theorem Subscription.tickDue?_of_popping (h : Turn p now s ds t) {ticker : Ticker} {k : Nat}
    (ht : t.phase = .running (.popping ticker k)) : ds = [] ∧ ∃ due, s.tickDue? = some due := by
  cases h with
  | paced hs _ => exact ⟨rfl, _, hs.tickDue?⟩
  | announced | foundNone | delivered =>
    rw [arrived_polling] at ht
    split at ht <;> simp [finished] at ht
  | cancelled | uncounted | unheard | unpopped => simp [finished] at ht
  | counted | popped => simp at ht

theorem Subscription.AtPace.aside (h : AtPace p S log (now, s)) (hphase : t.phase = s.phase) :
    AtPace p S log (now, t) where
  told := by rw [HasTold, hphase]; exact h.told
  granting := by rw [ticker?, hphase]; exact h.granting
  begins := h.begins
  ticked ticker k ht := h.ticked ticker k (hphase.symm.trans ht)

theorem Subscription.AtPace.turn {latest : Nat} (h : AtPace p S log (latest, s))
    (hlatest : latest ≤ now) (hturn : Turn p now s ds t)
    (hfailed : ∀ status, t.phase = .closed (.error status) → s.tickDue? = none) :
    AtPace p S (log ++ clock.beats s now ds) (now, t) where
  told := hturn.hasTold h.told
  granting := h.granting.turned (c := clock) (turned hturn h.told hfailed)
  begins := by
    obtain hquiet | ⟨ticker, k, answer, hs, rfl⟩ := hturn.poll_cases
    · exact lawful_append_of_quiet h.begins (isAct_beats _ _ _ hquiet)
    · rw [Clock.beats_waiting hs.tickDue?]
      refine lawful_append_single.mpr ⟨h.begins, fun _ => ?_⟩
      obtain ⟨earlier, n, hlog, hn⟩ := h.ticked ticker k hs.1
      exact ⟨earlier, n, hlog, Nat.le_trans hn hlatest⟩
  ticked := by
    intro ticker k ht
    obtain ⟨rfl, due, hdue⟩ := tickDue?_of_popping hturn ht
    exact ⟨log, now, by rw [Clock.beats_ticking hdue], Nat.le_refl now⟩

/-- Where a subscription is as to its ticker: before its start, or at its pace since. -/
inductive Subscription.Pace (p : Policy) (log : List (Nat × Beat Deed)) (x : Nat × Subscription) :
    Prop where
  | early : Unstarted log → (∀ stage, x.2.phase = .running stage →
      stage = .counting ∨ ∃ n, stage = .announcing n) → Pace p log x
  | begun {before after : List (Nat × Beat Deed)} {S n : Nat} :
      log = before ++ (S, .did (.sent (.ofCount n))) :: after → Unstarted before →
      AtPace p S after x → Pace p log x

theorem Subscription.pace_of_early (hlog : Unstarted log)
    (hs : ∀ stage, s.phase = .running stage → stage = .counting ∨ ∃ n, stage = .announcing n)
    (hturn : Turn p now s ds t)
    (hfailed : ∀ status, t.phase = .closed (.error status) → s.tickDue? = none) :
    Pace p (log ++ clock.beats s now ds) (now, t) := by
  cases hturn with
  | cancelled | unheard =>
    rw [Clock.beats_waiting (hfailed _ rfl)]
    exact .early (hlog.append ⟨rfl, rfl, rfl⟩) (by simp [finished])
  | counted hat =>
    rw [Clock.beats_waiting hat.tickDue?]
    exact .early (hlog.append ⟨rfl, rfl, rfl⟩) (by simp)
  | uncounted hat =>
    rw [Clock.beats_waiting hat.tickDue?]
    exact .early (hlog.append ⟨rfl, rfl, rfl⟩) (by simp [finished])
  | announced hat _ =>
    rw [Clock.beats_waiting hat.tickDue?]
    refine .begun rfl hlog ⟨hasTold_arrived _ _ _ _, ⟨lawful_nil, fun k hk => ?_⟩, lawful_nil, ?_⟩
    · rw [ticker?_arrived hk]
      exact (Ticker.Granting.start p.poll now).due _ rfl
    · intro ticker k ht
      rw [arrived_polling] at ht
      split at ht <;> simp [finished] at ht
  | paced hat | popped hat | foundNone hat | unpopped hat | delivered hat =>
    obtain hstage | ⟨n, hstage⟩ := hs _ hat.1 <;> cases hstage

theorem Subscription.pace {user : UserId} {outbound : Channel Frame} {isCancelled : Bool}
    {start : Nat} {os : List Occasion}
    (h : ((machine p).timed clock).course (start, .started user outbound isCancelled) os =
      some (log, (now, t))) : Pace p log (now, t) := by
  refine Machine.course_induction (P := fun _ log x => Pace p log x) ?_ ?_ h
  · refine .early ⟨rfl, rfl, rfl⟩ ?_
    rintro stage ⟨⟩
    exact .inl rfl
  · rintro os log x o new y - hx ho
    cases beaten_of_occur ho with
    | aside hphase =>
      rw [List.append_nil]
      cases hx with
      | early hlog hs => exact .early hlog (hphase ▸ hs)
      | begun hlog hbefore hafter => exact .begun hlog hbefore (hafter.aside hphase)
    | turn hsuits hturn hfailed =>
      cases hx with
      | early hlog hs => exact pace_of_early hlog hs hturn hfailed
      | begun hlog hbefore hafter =>
        have hnext := hafter.turn (of_decide_eq_true hsuits) hturn hfailed
        rw [hlog, List.append_assoc, List.cons_append]
        exact .begun rfl hbefore hnext

end

end Notify

open Chat (Session)
open Notify (Subscription)

/-- Frames and polls at the pace of a ticker, whatever comes late and however late. In a session,
the ticks that the delivery takes and the frames that it sends are paced from its start on. A
subscription takes no tick, polls nothing and sends nothing before it tells its count; from then on
its ticks and polls are paced. -/
theorem paced :
    (∀ (p : Chat.Policy) (supply : IdSupply) (id : SessionId) (inbound : Channel Chat.Item)
      (outbound : Channel Chat.Response) (isCancelled : Bool) (S now : Nat)
      (os : List Chat.Occasion) (log : List (Nat × Beat Chat.Act)) (t : Session),
      ((Session.machine p supply id).timed Session.clock).course
        (S, .started p inbound outbound isCancelled S) os = some (log, (now, t)) →
      Paced p.tick S Chat.Act.isFrame log) ∧
    (∀ (p : Notify.Policy) (user : UserId) (outbound : Channel Notify.Frame) (isCancelled : Bool)
      (start now : Nat) (os : List Notify.Occasion) (log : List (Nat × Beat Notify.Deed))
      (t : Subscription),
      ((Subscription.machine p).timed Subscription.clock).course
        (start, .started user outbound isCancelled) os = some (log, (now, t)) →
      Notify.Unstarted log ∨
        ∃ before S n after, log = before ++ (S, .did (.sent (.ofCount n))) :: after ∧
          Notify.Unstarted before ∧ Paced p.poll S Notify.Deed.isPoll after) := by
  constructor
  · intro p supply id inbound outbound isCancelled S now os log t h
    have hpace := Session.atPace h
    exact .of_lawful hpace.granting.lawful hpace.begins
  · intro p user outbound isCancelled start now os log t h
    cases Subscription.pace h with
    | early hlog => exact .inl hlog
    | @begun before after S n hlog hbefore hafter =>
      refine .inr ⟨before, S, n, after, hlog, hbefore, ?_⟩
      exact .of_lawful hafter.granting.lawful hafter.begins

/-- The first tick is taken 27 too late. -/
def stalledFrames : List Chat.Occasion :=
  [.turn .delivery 0 1 (some (.ok (.messages [⟨⟨"a"⟩, "one"⟩, ⟨⟨"b"⟩, "two"⟩]))),
    .turn .delivery 0 37 none, .turn .delivery 0 40 none, .turn .delivery 0 41 (some (.ok .done)),
    .turn .delivery 0 47 none, .turn .delivery 0 47 none]

def stalledPolls : List Notify.Occasion :=
  [.turn 2 (some (.ok (.number 0))), .turn 4 none, .turn 37 none,
    .turn 40 (some (.ok (.event none))), .turn 47 none, .turn 47 (some (.ok (.event none)))]

/-- What a subscription does behind its count. -/
def polledLate : List (Nat × Beat Notify.Deed) :=
  [(37, .tick), (40, .did (.called (.pop ⟨1⟩) (.ok (.event none)))), (47, .tick),
    (47, .did (.called (.pop ⟨1⟩) (.ok (.event none))))]

theorem paced_stalled :
    (∃ log t, ((Session.machine ⟨10, 30, .disabled, .standard⟩ .counting ⟨"desk"⟩).timed
        Session.clock).course
          (0, .started ⟨10, 30, .disabled, .standard⟩ { capacity := 4 } { capacity := 4 } false 0)
          stalledFrames = some (log, (47, t)) ∧
      ticks log = [37, 47] ∧ Paced 10 0 Chat.Act.isFrame log) ∧
    ∃ t, ((Subscription.machine ⟨10, 2, .standard⟩).timed Subscription.clock).course
        (0, .fresh) stalledPolls =
          some ((2, .did (.called (.count ⟨1⟩) (.ok (.number 0)))) ::
            (4, .did (.sent (.ofCount 0))) :: polledLate, (47, t)) ∧
      Paced 10 4 Notify.Deed.isPoll polledLate := by
  constructor
  · have h : ((Session.machine ⟨10, 30, .disabled, .standard⟩ .counting ⟨"desk"⟩).timed
        Session.clock).course
          (0, .started ⟨10, 30, .disabled, .standard⟩ { capacity := 4 } { capacity := 4 } false 0)
          stalledFrames = some (_, (47, _)) := rfl
    exact ⟨_, _, h, rfl, paced.1 _ _ _ _ _ _ _ _ _ _ _ h⟩
  · have h : ((Subscription.machine ⟨10, 2, .standard⟩).timed Subscription.clock).course
        (0, .fresh) stalledPolls =
          some ((2, .did (.called (.count ⟨1⟩) (.ok (.number 0)))) ::
            (4, .did (.sent (.ofCount 0))) :: polledLate, (47, _)) := rfl
    refine ⟨_, h, ?_⟩
    obtain hnone | ⟨before, S, n, after, hlog, hbefore, hpaced⟩ := paced.2 _ _ _ _ _ _ _ _ _ h
    · exact absurd hnone.1 (by decide)
    -- The count is the only frame, and stands in second place.
    match before with
    | [] => cases hlog
    | [_] =>
      simp only [List.cons_append, List.nil_append, List.cons.injEq, Prod.mk.injEq] at hlog
      obtain ⟨-, ⟨rfl, -⟩, rfl⟩ := hlog
      exact hpaced
    | _ :: _ :: _ =>
      simp only [List.cons_append, List.cons.injEq] at hlog
      obtain ⟨rfl, rfl, -⟩ := hlog
      cases hbefore.2.1

end NoteRelay
