import NoteRelay.Proofs.Chat.Intake
import NoteRelay.Proofs.Clock

/-!
# The tempo of a chat session

A session seen alone, with the clock of its delivery. On a course of `Machine.prompt` a call is
answered and a frame is taken when the delivery gets there, and a tick is taken when it is due; only
the client and the intake come when they like. What the calls are answered is left open.

* `Gridded` is about the times in a log, and `Session.Tempo` about where the delivery is at a time
  and how it has ended. Every such course keeps both (`Session.tempo`).
* `Session.runsOut_of_unsent`: with nothing left to send, a session can get to its end by itself.
* `delivery_in_tempo` puts them together: the delivery acts at its ticks only, and the session ends
  well when the idle time has passed since the last frame, at the first tick at which it has.
-/

namespace NoteRelay.Chat

namespace Session

/-- The clock of a session is the one of its delivery, and of its end. The intake may go on at any
time, and what it does is not in the log. -/
def clock : Clock Session Occasion where
  time?
    | .turn .delivery _ now _ | .turn .closing _ now _ => some now
    | _ => none
  due? := tickDue? .delivery

/-- What is nothing to the delivery but that it may end it. -/
inductive Aside (s t : Session) : Prop where
  | same : t.phase = s.phase → Aside s t
  | intake {i i' : Intake} {d : Delivery} :
      s.phase = .running i d → t.phase = .running i' d → Aside s t
  | failed {i : Intake} {d : Delivery} {f : Failure} :
      s.phase = .running i d → t.phase = .closing (.error f) → Aside s t

section
variable {p : Policy} {supply : IdSupply} {id : SessionId} {s t : Session} {o : Occasion}
  {i : Intake} {d : Delivery} {minted now latest latest' : Nat} {ds : List Deed}
  {answer : Option (Except QueueFault QueueAnswer)}
  {suits : Nat → Option Nat → Nat → Bool} {new : List (Nat × Beat Act)}

theorem aside_of_intake (h : s.go p supply minted now answer .intake = some t) : Aside s t := by
  cases hs : s.phase with
  | running i d =>
    obtain ⟨i', ht, -⟩ | ⟨ht, -, -⟩ | ⟨f, ht, -⟩ := stops_of_intake hs h
    · exact .intake hs ht
    · exact .intake hs ht
    · exact .failed hs ht
  | closing | closed => simp [go, hs] at h

theorem Runs.tickDue? (hs : s.Runs i d) : s.tickDue? .delivery =
    match d.stage with
    | .resting | .pacing _ _ => some d.ticker.due
    | _ => none := by
  cases hstage : d.stage <;> simp [Session.tickDue?, hs.1, hs.2, hstage]

/-- What the delivery comes to in taking a tick is no failure. -/
theorem tickDue?_of_failed {f : Failure} (h : s.go p supply minted now answer .delivery = some t)
    (ht : t.phase = .closing (.error f)) : s.tickDue? .delivery = none := by
  cases hs : s.phase with
  | closing | closed => simp [Session.tickDue?, hs]
  | running i d =>
    cases hc : s.isCancelled with
    | true => simp [Session.tickDue?, hs, hc]
    | false =>
      have hruns : s.Runs i d := ⟨hs, hc⟩
      obtain ⟨i', d', hrunning⟩ | ⟨hdone, -⟩ | ⟨f, -, hraises⟩ := decided_of_delivery hruns h
      · simp [ht] at hrunning
      · simp [ht] at hdone
      · -- Of all that it raises, only what concerns a call or a frame is left.
        cases hraises with
        | cancelled _ _ hlive => simp [hc] at hlive
        | unfetched hs' hstage | frameUnheard hs' hstage =>
          obtain ⟨rfl, rfl⟩ := Phase.running.inj (hs.symm.trans hs'.1)
          rw [hruns.tickDue?, hstage]

theorem acts_of_delivery (h : Turn p id now .delivery s (s.deedsWith id .delivery answer t) t) :
    s.acts id .delivery answer t = (s.deedsWith id .delivery answer t).map .did := by
  have hin : t.inbound = s.inbound := by
    generalize s.deedsWith id .delivery answer t = ds at h
    cases h <;> rfl
  simp [acts, hin]

theorem running_of_turn (h : Turn p id now .delivery s ds t) :
    ∃ i d, s.phase = .running i d := by
  obtain ⟨-, i, d, hruns⟩ | ⟨-, hrunning, -⟩ | ⟨hloop, -⟩ := h.taken
  · exact ⟨i, d, hruns.1⟩
  · exact hrunning
  · cases hloop

/-- What happens at an occasion, to a session and to its log. -/
inductive Beaten (p : Policy) (id : SessionId) (suits : Nat → Option Nat → Nat → Bool) :
    Nat × Session → List (Nat × Beat Act) → Nat × Session → Prop where
  | aside {latest : Nat} {s t : Session} : Aside s t → Beaten p id suits (latest, s) [] (latest, t)
  | turn {latest now : Nat} {s t : Session} {ds : List Deed} :
      suits latest (s.tickDue? .delivery) now = true → Turn p id now .delivery s ds t →
      (∀ f, t.phase = .closing (.error f) → s.tickDue? .delivery = none) →
      Beaten p id suits (latest, s) (clock.beats s now (ds.map .did)) (now, t)
  | cleared {latest now : Nat} {s : Session} {result : Except Failure Unit}
      {answer : Except QueueFault QueueAnswer} :
      suits latest none now = true → s.phase = .closing result →
      Beaten p id suits (latest, s) [(now, .did (.did (.called (.clear id) answer)))]
        (now, s.finished (result.mapError p.rulebook.statusOf))

theorem aside_of_occur {x y : Nat × Session}
    (h : ((machine p supply id).clocked clock suits).occur x o = some (new, y))
    (htime : clock.time? o = none) : new = [] ∧ y.1 = x.1 ∧ Aside x.2 y.2 := by
  obtain ⟨acts, ho, ⟨-, rfl, hnow⟩ | ⟨hsome, -⟩⟩ := Machine.occur_clocked.mp h
  · refine ⟨rfl, hnow, ?_⟩
    cases o with
    | outside move => exact .same (phase_clientMove (occur_outside.mp ho).1)
    | turn loop minted now answer =>
      cases loop with
      | intake => exact aside_of_intake (occur_turn.mp ho).1
      | delivery | closing => simp [clock] at htime
  · simp [htime] at hsome

theorem beaten_of_occur {x y : Nat × Session}
    (h : ((machine p supply id).clocked clock suits).occur x o = some (new, y)) :
    Beaten p id suits x new y := by
  cases htime : clock.time? o with
  | none =>
    obtain ⟨rfl, hnow, haside⟩ := aside_of_occur h htime
    obtain ⟨latest, s⟩ := x
    obtain ⟨latest', t⟩ := y
    obtain rfl : latest' = latest := hnow
    exact .aside haside
  | some now =>
    obtain ⟨acts, ho, ⟨hnone, -⟩ | ⟨htime', hsuits, rfl⟩⟩ := Machine.occur_clocked.mp h
    · simp [htime] at hnone
    obtain ⟨latest, s⟩ := x
    obtain ⟨latest', t⟩ := y
    cases o with
    | outside move => simp [clock] at htime
    | turn loop minted now' answer =>
      obtain ⟨hgo, rfl⟩ := occur_turn.mp ho
      have hturn : Turn p id now' loop s (s.deedsWith id loop answer t) t := turn_of_answer hgo
      cases loop with
      | intake => simp [clock] at htime
      | delivery =>
        obtain rfl : now' = latest' := by simpa [clock] using htime'
        rw [acts_of_delivery hturn]
        exact .turn hsuits hturn fun f ht => tickDue?_of_failed hgo ht
      | closing =>
        obtain rfl : now' = latest' := by simpa [clock] using htime'
        obtain ⟨result, hs⟩ : ∃ result, s.phase = .closing result := by
          cases hs : s.phase with
          | closing result => exact ⟨result, rfl⟩
          | running | closed => simp [go, hs] at hgo
        obtain ⟨-, ⟨a, hds⟩, rfl⟩ := hturn.of_closing hs
        have hdue : clock.due? s = none := by simp [clock, Session.tickDue?, hs]
        rw [hdue] at hsuits
        rw [acts_of_finished, hds, Clock.beats_waiting hdue]
        exact .cleared hsuits hs

end

end Session

-- ---------------------------------------------------------------------------
-- Frames in a log
-- ---------------------------------------------------------------------------

def Deed.isDelivery : Deed → Bool
  | .sent .delivery _ _ => true
  | _ => false

def Act.isFrame : Act → Bool
  | .took _ => false
  | .did deed => deed.isDelivery

def frameTimes (log : List (Nat × Beat Act)) : List Nat :=
  (log.filter fun x => x.2.isAct Act.isFrame).map Prod.fst

/-- When the delivery has sent its last frame, or when the session was started. -/
def lastFrame (S : Nat) (log : List (Nat × Beat Act)) : Nat :=
  (frameTimes log).getLast?.getD S

@[simp] theorem frameTimes_append (a b : List (Nat × Beat Act)) :
    frameTimes (a ++ b) = frameTimes a ++ frameTimes b := by
  simp [frameTimes]

theorem frameTimes_of_quiet {log : List (Nat × Beat Act)}
    (h : ∀ x ∈ log, x.2.isAct Act.isFrame = false) : frameTimes log = [] := by
  simpa [frameTimes] using h

theorem Turn.frame_cases {p : Policy} {id : SessionId} {now : Nat} {loop : Loop} {s t : Session}
    {ds : List Deed} (h : Turn p id now loop s ds t) : (∀ d ∈ ds, d.isDelivery = false) ∨
      ∃ i d m others, s.Runs i d ∧ d.stage = .sending m others ∧
        ds = [.sent .delivery (some m) (p.render m)] := by
  obtain rfl | ⟨d, rfl, hd⟩ | hsent := h.news
  · exact .inl (by simp)
  · left
    intro deed hmem
    obtain rfl : deed = d := List.mem_singleton.mp hmem
    cases deed with
    | called => rfl
    | sent loop about frame =>
      cases loop with
      | delivery => exact absurd rfl (hd about frame)
      | intake | closing => rfl
  · exact .inr hsent

theorem lastFrame_append_of_quiet {S : Nat} {log new : List (Nat × Beat Act)}
    (h : frameTimes new = []) : lastFrame S (log ++ new) = lastFrame S log := by
  simp [lastFrame, h]

theorem lastFrame_append_of_sent {S now : Nat} {log new : List (Nat × Beat Act)}
    (h : frameTimes new = [now]) : lastFrame S (log ++ new) = now := by
  simp [lastFrame, h]

/-- A fetch finds the outbox empty when the idle time has passed since the last frame. -/
def FindsIdle (p : Policy) (id : SessionId) (S : Nat) (before : List (Nat × Beat Act))
    (x : Nat × Beat Act) : Prop :=
  ∃ a, x.2 = .did (.did (.called (.fetchAll id) (.ok a))) ∧ a.found = [] ∧
    lastFrame S before + p.idle ≤ x.1

-- ---------------------------------------------------------------------------
-- The grid
-- ---------------------------------------------------------------------------

def OnGrid (tick S n : Nat) : Prop :=
  ∃ k, n = S + k * tick

theorem OnGrid.refl (tick S : Nat) : OnGrid tick S S :=
  ⟨0, by simp⟩

theorem OnGrid.trans {tick S n m : Nat} (h : OnGrid tick S n) (h' : OnGrid tick n m) :
    OnGrid tick S m := by
  obtain ⟨k, rfl⟩ := h
  obtain ⟨k', rfl⟩ := h'
  exact ⟨k + k', by rw [Nat.add_mul, Nat.add_assoc]⟩

theorem OnGrid.next {tick S n : Nat} (h : OnGrid tick S n) : OnGrid tick S (n + tick) :=
  h.trans ⟨1, by simp⟩

theorem OnGrid.le {tick S n : Nat} (h : OnGrid tick S n) : S ≤ n := by
  obtain ⟨k, rfl⟩ := h
  exact Nat.le_add_right _ _

/-- The first time on the grid at which so much time has passed. -/
theorem OnGrid.eq_ceil {tick idle L n : Nat} (h : OnGrid tick L n) (hle : L + idle ≤ n)
    (hlt : n < L + idle + tick) : n = L + tick * ((idle + tick - 1) / tick) := by
  obtain ⟨k, rfl⟩ := h
  have hk : (idle + tick - 1) / tick = k := by
    refine Nat.div_eq_of_lt_le ?_ ?_
    · omega
    · rw [Nat.add_mul, Nat.one_mul]
      omega
  rw [hk, Nat.mul_comm]

theorem OnGrid.le_ceil {tick idle L n : Nat} (hp : 0 < tick) (h : OnGrid tick L n)
    (hlt : n < L + idle + tick) : n ≤ L + tick * ((idle + tick - 1) / tick) := by
  obtain ⟨k, rfl⟩ := h
  have hk : k ≤ (idle + tick - 1) / tick := (Nat.le_div_iff_mul_le hp).mpr (by omega)
  rw [Nat.mul_comm]
  exact Nat.add_le_add_left (Nat.mul_le_mul_left tick hk) L

/-- The times in a log are on the grid, and so are the time of the last frame and the present. -/
structure Gridded (tick S : Nat) (log : List (Nat × Beat Act)) (now : Nat) : Prop where
  times : ∀ x ∈ log, OnGrid tick S x.1
  last : OnGrid tick S (lastFrame S log)
  present : OnGrid tick (lastFrame S log) now
  sorted : (frameTimes log).Pairwise (· < ·)
  le_last : ∀ n ∈ frameTimes log, n ≤ lastFrame S log

section
variable {tick S now now' : Nat} {log new : List (Nat × Beat Act)}

theorem Gridded.start (tick S : Nat) : Gridded tick S [] S where
  times := by simp
  last := .refl _ _
  present := .refl _ _
  sorted := .nil
  le_last := by simp [frameTimes]

theorem Gridded.quiet (h : Gridded tick S log now) (hnow : OnGrid tick now now')
    (htimes : ∀ x ∈ new, x.1 = now') (hquiet : frameTimes new = []) :
    Gridded tick S (log ++ new) now' where
  times := by
    intro x hx
    obtain hx | hx := List.mem_append.mp hx
    · exact h.times x hx
    · rw [htimes x hx]
      exact h.last.trans (h.present.trans hnow)
  last := by rw [lastFrame_append_of_quiet hquiet]; exact h.last
  present := by rw [lastFrame_append_of_quiet hquiet]; exact h.present.trans hnow
  sorted := by rw [frameTimes_append, hquiet, List.append_nil]; exact h.sorted
  le_last := by
    rw [frameTimes_append, hquiet, List.append_nil, lastFrame_append_of_quiet hquiet]
    exact h.le_last

theorem Gridded.sent (h : Gridded tick S log now) (hlater : lastFrame S log < now)
    (htimes : ∀ x ∈ new, x.1 = now) (hsent : frameTimes new = [now]) :
    Gridded tick S (log ++ new) now where
  times := by
    intro x hx
    obtain hx | hx := List.mem_append.mp hx
    · exact h.times x hx
    · rw [htimes x hx]
      exact h.last.trans h.present
  last := by rw [lastFrame_append_of_sent hsent]; exact h.last.trans h.present
  present := by rw [lastFrame_append_of_sent hsent]; exact .refl _ _
  sorted := by
    rw [frameTimes_append, hsent]
    refine List.pairwise_append.mpr ⟨h.sorted, List.pairwise_singleton _ _, ?_⟩
    intro n hn m hm
    obtain rfl := List.mem_singleton.mp hm
    exact Nat.lt_of_le_of_lt (h.le_last n hn) hlater
  le_last := by
    intro n hn
    rw [lastFrame_append_of_sent hsent]
    rw [frameTimes_append, hsent] at hn
    obtain hn | hn := List.mem_append.mp hn
    · exact Nat.le_of_lt (Nat.lt_of_le_of_lt (h.le_last n hn) hlater)
    · exact Nat.le_of_eq (List.mem_singleton.mp hn)

theorem Gridded.next (h : Gridded tick S log now) {beat : Beat Act}
    (hquiet : beat.isAct Act.isFrame = false) : Gridded tick S (log ++ [(now, beat)]) now :=
  h.quiet (.refl _ _) (by simp) (by simp [frameTimes, hquiet])

theorem Gridded.ticked (h : Gridded tick S log now) :
    Gridded tick S (log ++ [(now + tick, .tick)]) (now + tick) :=
  h.quiet ⟨1, by simp⟩ (by simp) rfl

end

-- ---------------------------------------------------------------------------
-- In tempo
-- ---------------------------------------------------------------------------

/-- Where the delivery can be at a time, when the last frame was sent at `L`. -/
def Delivery.InTempo (p : Policy) (L now : Nat) (d : Delivery) : Prop :=
  d.ticker = .started p.tick now ∧
    match d.stage with
    | .fetching => d.deadline = L + p.idle ∧ now < L + p.idle + p.tick
    | .resting => d.deadline = L + p.idle ∧ now < L + p.idle
    | .pacing _ _ => True
    | .sending _ _ => L < now
    | .settling _ _ => now = L
    | .finished => False

inductive Session.Tempo (p : Policy) (id : SessionId) (S : Nat) :
    List (Nat × Beat Act) → Nat × Session → Prop where
  | running {log : List (Nat × Beat Act)} {now : Nat} {s : Session} {i : Intake} {d : Delivery} :
      s.phase = .running i d → d.InTempo p (lastFrame S log) now →
      Lawful (fun before x => ¬ FindsIdle p id S before x) log → Tempo p id S log (now, s)
  | failed {log : List (Nat × Beat Act)} {now : Nat} {s : Session} :
      (∀ i d, s.phase ≠ .running i d) → ¬ s.IsDone →
      Lawful (fun before x => ¬ FindsIdle p id S before x) log → Tempo p id S log (now, s)
  | done {before : List (Nat × Beat Act)} {now : Nat} {s : Session} {beat : Beat Act} :
      s.phase = .closing (.ok ()) →
      Lawful (fun before x => ¬ FindsIdle p id S before x) before →
      FindsIdle p id S before (now, beat) →
      now = lastFrame S before + p.tick * ((p.idle + p.tick - 1) / p.tick) →
      Tempo p id S (before ++ [(now, beat)]) (now, s)
  | ended {before : List (Nat × Beat Act)} {now : Nat} {s : Session} {beat : Beat Act}
      {answer : Except QueueFault QueueAnswer} :
      s.phase = .closed (.ok ()) →
      Lawful (fun before x => ¬ FindsIdle p id S before x) before →
      FindsIdle p id S before (now, beat) →
      now = lastFrame S before + p.tick * ((p.idle + p.tick - 1) / p.tick) →
      Tempo p id S (before ++ [(now, beat)] ++ [(now, .did (.did (.called (.clear id) answer)))])
        (now, s)

section
variable {p : Policy} {id : SessionId} {S now now' : Nat} {log : List (Nat × Beat Act)}
  {s t : Session} {ds : List Deed} {i : Intake} {d : Delivery}

theorem FindsIdle.quiet {x : Nat × Beat Act} (h : FindsIdle p id S log x) :
    frameTimes [x] = [] := by
  obtain ⟨n, beat⟩ := x
  obtain ⟨a, rfl, -⟩ := h
  rfl

theorem eq_of_findsIdle {before after : List (Nat × Beat Act)} {x y : Nat × Beat Act}
    (hlaw : Lawful (fun before x => ¬ FindsIdle p id S before x) log)
    (h : log ++ [y] = before ++ x :: after) (hfinds : FindsIdle p id S before x) :
    before = log ∧ x = y ∧ after = [] := by
  obtain hlast | ⟨rest, -, hlog⟩ := append_single_eq_append_cons h
  · exact hlast
  · exact absurd hfinds (hlaw before x rest hlog)

theorem Session.Tempo.isDone_iff (h : Tempo p id S log (now, s)) :
    s.IsDone ↔ ∃ before x after, log = before ++ x :: after ∧ FindsIdle p id S before x := by
  cases h with
  | running hs _ hlaw =>
    refine ⟨fun hdone => by simp [IsDone, hs] at hdone, ?_⟩
    rintro ⟨before, x, after, hsplit, hfinds⟩
    exact absurd hfinds (hlaw before x after hsplit)
  | failed _ hnot hlaw =>
    refine ⟨fun hdone => absurd hdone hnot, ?_⟩
    rintro ⟨before, x, after, hsplit, hfinds⟩
    exact absurd hfinds (hlaw before x after hsplit)
  | done hs _ hfinds => exact ⟨fun _ => ⟨_, _, _, rfl, hfinds⟩, fun _ => .inl hs⟩
  | ended hs _ hfinds =>
    exact ⟨fun _ => ⟨_, _, _, List.append_assoc _ _ _, hfinds⟩, fun _ => .inr hs⟩

theorem Session.Tempo.of_findsIdle (h : Tempo p id S log (now, s))
    {before after : List (Nat × Beat Act)} {x : Nat × Beat Act}
    (hsplit : log = before ++ x :: after) (hfinds : FindsIdle p id S before x) :
    Lawful (fun before x => ¬ FindsIdle p id S before x) before ∧
      (after = [] ∨ ∃ answer, after = [(x.1, .did (.did (.called (.clear id) answer)))]) ∧
      now = x.1 ∧ x.1 = lastFrame S before + p.tick * ((p.idle + p.tick - 1) / p.tick) := by
  cases h with
  | running _ _ hlaw | failed _ _ hlaw => exact absurd hfinds (hlaw before x after hsplit)
  | done _ hlaw _ hnow =>
    obtain ⟨rfl, rfl, rfl⟩ := eq_of_findsIdle hlaw hsplit hfinds
    exact ⟨hlaw, .inl rfl, rfl, hnow⟩
  | @ended _ _ _ _ answer _ hlaw _ hnow =>
    obtain ⟨-, rfl, -⟩ | ⟨rest, rfl, hlog⟩ := append_single_eq_append_cons hsplit
    · -- What comes last is the clearing, and no fetch.
      obtain ⟨a, ⟨⟩, -⟩ := hfinds
    · obtain ⟨rfl, rfl, rfl⟩ := eq_of_findsIdle hlaw hlog hfinds
      exact ⟨hlaw, .inr ⟨answer, rfl⟩, rfl, hnow⟩

theorem Session.Tempo.of_running (h : Tempo p id S log (now, s)) (hs : s.phase = .running i d) :
    d.ticker = .started p.tick now ∧ d.stage ≠ .finished := by
  cases h with
  | running hs' hd =>
    obtain ⟨-, rfl⟩ := Phase.running.inj (hs.symm.trans hs')
    obtain ⟨hticker, hstage⟩ := hd
    exact ⟨hticker, fun hfinished => by simp [hfinished] at hstage⟩
  | failed hs' => exact absurd hs (hs' i d)
  | done hs' | ended hs' => simp [hs] at hs'

/-- A delivery that has nothing left to send is not late for the end. -/
theorem Session.Tempo.present_le (hgrid : Gridded p.tick S log now) (h : Tempo p id S log (now, s))
    (hp : 0 < p.tick) (hs : s.phase = .running i d) (hunsent : d.stage.unsent = []) :
    now ≤ lastFrame S log + p.tick * ((p.idle + p.tick - 1) / p.tick) := by
  cases h with
  | running hs' hd =>
    obtain ⟨-, rfl⟩ := Phase.running.inj (hs.symm.trans hs')
    refine hgrid.present.le_ceil hp ?_
    obtain ⟨-, hstage⟩ := hd
    cases hat : d.stage with
    | fetching =>
      rw [hat] at hstage
      exact hstage.2
    | resting =>
      rw [hat] at hstage
      exact Nat.lt_add_right p.tick hstage.2
    | settling m others =>
      rw [hat] at hstage
      omega
    | pacing m others | sending m others => simp [hat, Stage.unsent] at hunsent
    | finished => simp [hat] at hstage
  | failed hs' => exact absurd hs (hs' i d)
  | done hs' | ended hs' => simp [hs] at hs'

theorem Session.Tempo.present_of_done (h : Tempo p id S log (now, s)) (hdone : s.IsDone) :
    now = lastFrame S log + p.tick * ((p.idle + p.tick - 1) / p.tick) := by
  cases h with
  | running hs => simp [IsDone, hs] at hdone
  | failed _ hnot => exact absurd hdone hnot
  | done _ _ hfinds hnow => rwa [lastFrame_append_of_quiet hfinds.quiet]
  | ended _ _ hfinds hnow =>
    rwa [lastFrame_append_of_quiet rfl, lastFrame_append_of_quiet hfinds.quiet]

theorem Session.Tempo.aside (h : Tempo p id S log (now, s)) (ht : Aside s t) :
    Tempo p id S log (now, t) := by
  cases ht with
  | same hphase =>
    cases h with
    | running hs hd hlaw => exact .running (hphase.trans hs) hd hlaw
    | failed hs hnot hlaw => exact .failed (hphase ▸ hs) (by rwa [IsDone, hphase]) hlaw
    | done hs hlaw hfinds hnow => exact .done (hphase.trans hs) hlaw hfinds hnow
    | ended hs hlaw hfinds hnow => exact .ended (hphase.trans hs) hlaw hfinds hnow
  | intake hs ht =>
    cases h with
    | running hs' hd hlaw =>
      obtain ⟨-, rfl⟩ := Phase.running.inj (hs.symm.trans hs')
      exact .running ht hd hlaw
    | failed hs' => exact absurd hs (hs' _ _)
    | done hs' | ended hs' => simp [hs] at hs'
  | failed hs ht =>
    cases h with
    | running hs' hd hlaw => exact .failed (by simp [ht]) (by simp [IsDone, ht]) hlaw
    | failed hs' => exact absurd hs (hs' _ _)
    | done hs' | ended hs' => simp [hs] at hs'

theorem Session.Tempo.turn (hp : 0 < p.tick) (hgrid : Gridded p.tick S log now)
    (hs : s.phase = .running i d) (hd : d.InTempo p (lastFrame S log) now)
    (hlaw : Lawful (fun before x => ¬ FindsIdle p id S before x) log)
    (hnow : now' = (s.tickDue? .delivery).getD now) (hturn : Turn p id now' .delivery s ds t)
    (hfailed : ∀ f, t.phase = .closing (.error f) → s.tickDue? .delivery = none) :
    Gridded p.tick S (log ++ clock.beats s now' (ds.map .did)) now' ∧
      Tempo p id S (log ++ clock.beats s now' (ds.map .did)) (now', t) := by
  obtain ⟨hticker, hstage⟩ := hd
  cases hturn with
  | cancelled | unheard =>
    have hdue := hfailed _ rfl
    obtain rfl : now' = now := by simpa [hdue] using hnow
    rw [Clock.beats_waiting hdue]
    simpa using ⟨hgrid, .failed (by simp) (by simp [IsDone]) hlaw⟩
  | fetched hruns hat hfound =>
    obtain ⟨rfl, rfl⟩ := Phase.running.inj (hs.symm.trans hruns.1)
    have hdue : s.tickDue? .delivery = none := by rw [hruns.tickDue?, hat]
    obtain rfl : now' = now := by simpa [hdue] using hnow
    rw [Clock.beats_waiting hdue]
    refine ⟨hgrid.next rfl, .running rfl ⟨hticker, trivial⟩ ?_⟩
    refine lawful_append_single.mpr ⟨hlaw, ?_⟩
    rintro ⟨a, ⟨⟩, hnone, -⟩
    simp [hfound] at hnone
  | foundNothing hruns hat hfound hearly =>
    obtain ⟨rfl, rfl⟩ := Phase.running.inj (hs.symm.trans hruns.1)
    have hdue : s.tickDue? .delivery = none := by rw [hruns.tickDue?, hat]
    obtain rfl : now' = now := by simpa [hdue] using hnow
    rw [hat] at hstage
    obtain ⟨hdeadline, -⟩ := hstage
    rw [hdeadline] at hearly
    rw [Clock.beats_waiting hdue]
    refine ⟨hgrid.next rfl, .running rfl ⟨hticker, ?_⟩ ?_⟩
    · rw [List.map_singleton, List.map_singleton, lastFrame_append_of_quiet rfl]
      exact ⟨hdeadline, hearly⟩
    · refine lawful_append_single.mpr ⟨hlaw, ?_⟩
      rintro ⟨a, -, -, hlate⟩
      exact absurd hlate (Nat.not_le.mpr hearly)
  | finished hruns hat hfound hlate =>
    obtain ⟨rfl, rfl⟩ := Phase.running.inj (hs.symm.trans hruns.1)
    have hdue : s.tickDue? .delivery = none := by rw [hruns.tickDue?, hat]
    obtain rfl : now' = now := by simpa [hdue] using hnow
    rw [hat] at hstage
    obtain ⟨hdeadline, hlt⟩ := hstage
    rw [hdeadline] at hlate
    rw [Clock.beats_waiting hdue]
    refine ⟨hgrid.next rfl, .done rfl hlaw ⟨_, rfl, hfound, hlate⟩ ?_⟩
    exact hgrid.present.eq_ceil hlate hlt
  | unfetched hruns hat =>
    have hdue := hfailed _ rfl
    obtain rfl : now' = now := by simpa [hdue] using hnow
    rw [Clock.beats_waiting hdue]
    refine ⟨hgrid.next rfl, .failed (by simp) (by simp [IsDone]) ?_⟩
    refine lawful_append_single.mpr ⟨hlaw, ?_⟩
    rintro ⟨a, ⟨⟩, -⟩
  | rested hruns hat htake =>
    obtain ⟨rfl, rfl⟩ := Phase.running.inj (hs.symm.trans hruns.1)
    have hdue : s.tickDue? .delivery = some (now + p.tick) := by
      rw [hruns.tickDue?, hat, hticker]
      rfl
    obtain rfl : now' = now + p.tick := by simpa [hdue] using hnow
    rw [hticker, Ticker.take?_started, Option.some.injEq] at htake
    rw [hat] at hstage
    obtain ⟨hdeadline, hlt⟩ := hstage
    rw [List.map_nil, Clock.beats_ticking hdue]
    refine ⟨hgrid.ticked, .running rfl ⟨htake.symm, ?_⟩ ?_⟩
    · rw [lastFrame_append_of_quiet rfl]
      exact ⟨hdeadline, Nat.add_lt_add_right hlt p.tick⟩
    · exact lawful_append_single.mpr ⟨hlaw, by rintro ⟨a, ⟨⟩, -⟩⟩
  | paced hruns hat htake =>
    obtain ⟨rfl, rfl⟩ := Phase.running.inj (hs.symm.trans hruns.1)
    have hdue : s.tickDue? .delivery = some (now + p.tick) := by
      rw [hruns.tickDue?, hat, hticker]
      rfl
    obtain rfl : now' = now + p.tick := by simpa [hdue] using hnow
    rw [hticker, Ticker.take?_started, Option.some.injEq] at htake
    rw [List.map_nil, Clock.beats_ticking hdue]
    refine ⟨hgrid.ticked, .running rfl ⟨htake.symm, ?_⟩ ?_⟩
    · rw [lastFrame_append_of_quiet rfl]
      exact Nat.lt_of_le_of_lt hgrid.present.le (Nat.lt_add_of_pos_right hp)
    · exact lawful_append_single.mpr ⟨hlaw, by rintro ⟨a, ⟨⟩, -⟩⟩
  | delivered hruns hat hsend =>
    obtain ⟨rfl, rfl⟩ := Phase.running.inj (hs.symm.trans hruns.1)
    have hdue : s.tickDue? .delivery = none := by rw [hruns.tickDue?, hat]
    obtain rfl : now' = now := by simpa [hdue] using hnow
    rw [hat] at hstage
    rw [Clock.beats_waiting hdue]
    refine ⟨hgrid.sent hstage (by simp) rfl, .running rfl ⟨hticker, ?_⟩ ?_⟩
    · exact (lastFrame_append_of_sent rfl).symm
    · exact lawful_append_single.mpr ⟨hlaw, by rintro ⟨a, ⟨⟩, -⟩⟩
  | @settled _ _ _ _ others _ hruns hat =>
    obtain ⟨rfl, rfl⟩ := Phase.running.inj (hs.symm.trans hruns.1)
    have hdue : s.tickDue? .delivery = none := by rw [hruns.tickDue?, hat]
    obtain rfl : now' = now := by simpa [hdue] using hnow
    rw [hat] at hstage
    rw [Clock.beats_waiting hdue]
    refine ⟨hgrid.next rfl, .running rfl ⟨hticker, ?_⟩ ?_⟩
    · rw [List.map_singleton, List.map_singleton, lastFrame_append_of_quiet rfl, ← hstage]
      cases others with
      | nil => exact ⟨rfl, Nat.lt_of_le_of_lt (Nat.le_add_right _ _) (Nat.lt_add_of_pos_right hp)⟩
      | cons m others => trivial
    · exact lawful_append_single.mpr ⟨hlaw, by rintro ⟨a, ⟨⟩, -⟩⟩

theorem Session.Tempo.cleared (h : Tempo p id S log (now, s)) {result : Except Failure Unit}
    (hs : s.phase = .closing result) (answer : Except QueueFault QueueAnswer) :
    Tempo p id S (log ++ [(now, .did (.did (.called (.clear id) answer)))])
      (now, s.finished (result.mapError p.rulebook.statusOf)) := by
  cases h with
  | running hs' => simp [hs] at hs'
  | failed _ hnot hlaw =>
    refine .failed (by simp [finished]) (fun hdone => hnot (isDone_of_finished hs hdone)) ?_
    exact lawful_append_single.mpr ⟨hlaw, by rintro ⟨a, ⟨⟩, -⟩⟩
  | done hs' hlaw hfinds hnow =>
    obtain rfl : result = .ok () := by simpa [hs] using hs'
    exact .ended rfl hlaw hfinds hnow
  | ended hs' => simp [hs] at hs'

end

namespace Session

section
variable {p : Policy} {supply : IdSupply} {id : SessionId} {S now now' : Nat}
  {log : List (Nat × Beat Act)} {inbound : Channel Item} {outbound : Channel Response}
  {isCancelled : Bool} {s t : Session} {os : List Occasion} {i : Intake} {d : Delivery}

theorem tempo (hp : 0 < p.tick)
    (h : ((machine p supply id).prompt clock).course
      (S, .started p inbound outbound isCancelled S) os = some (log, (now, t))) :
    Gridded p.tick S log now ∧ Tempo p id S log (now, t) := by
  refine Machine.course_induction
    (P := fun _ log x => Gridded p.tick S log x.1 ∧ Tempo p id S log x) ?_ ?_ h
  · refine ⟨.start _ _, .running rfl ⟨rfl, rfl, ?_⟩ lawful_nil⟩
    exact Nat.lt_of_le_of_lt (Nat.le_add_right _ _) (Nat.lt_add_of_pos_right hp)
  · rintro os log x o new y - ⟨hgrid, htempo⟩ ho
    cases beaten_of_occur ho with
    | aside haside =>
      rw [List.append_nil]
      exact ⟨hgrid, htempo.aside haside⟩
    | turn hsuits hturn hfailed =>
      obtain ⟨i, d, hs⟩ := running_of_turn hturn
      cases htempo with
      | running hs hd hlaw =>
        exact Tempo.turn hp hgrid hs hd hlaw (of_decide_eq_true hsuits) hturn hfailed
      | failed hne => exact absurd hs (hne i d)
      | done hs' | ended hs' => simp [hs] at hs'
    | @cleared latest now s result answer hsuits hs =>
      obtain rfl : now = latest := of_decide_eq_true hsuits
      exact ⟨hgrid.next rfl, htempo.cleared hs answer⟩

-- ---------------------------------------------------------------------------
-- How a session runs out
-- ---------------------------------------------------------------------------

/-- The loops may go on as soon as nothing is late. -/
theorem occur_prompt {loop : Loop} {answer : Option (Except QueueFault QueueAnswer)}
    (hloop : loop ≠ .intake) (hgo : s.go p supply 0 now' answer loop = some t)
    (hnow : now' = (s.tickDue? .delivery).getD now) :
    ((machine p supply id).prompt clock).occur (now, s) (.turn loop 0 now' answer) =
      some (clock.beats s now' (s.acts id loop answer t), (now', t)) := by
  refine Machine.occur_clocked.mpr ⟨_, occur_turn.mpr ⟨hgo, rfl⟩, .inr ⟨?_, ?_, rfl⟩⟩
  · cases loop with
    | intake => exact absurd rfl hloop
    | delivery | closing => rfl
  · exact decide_eq_true hnow

theorem quiet_of_go {loop : Loop} {minted : Nat}
    {answer : Option (Except QueueFault QueueAnswer)}
    (hgo : s.go p supply minted now answer loop = some t)
    (hs : ∀ i d m others, s.phase = .running i d → d.stage ≠ .sending m others) :
    ∀ a ∈ s.acts id loop answer t, a.isFrame = false := by
  have hturn : Turn p id now loop s (s.deedsWith id loop answer t) t := turn_of_answer hgo
  intro a ha
  cases a with
  | took item => rfl
  | did deed =>
    obtain hquiet | ⟨i, d, m, others, hruns, hstage, -⟩ := hturn.frame_cases
    · exact hquiet deed (mem_deedsWith_of_mem_acts ha)
    · exact absurd hstage (hs i d m others hruns.1)

theorem isDone_of_outcome? (h : s.outcome? = some (.ok ())) : s.IsDone := by
  cases hs : s.phase with
  | closed outcome =>
    obtain rfl : outcome = .ok () := by simpa [outcome?, hs] using h
    exact .inr hs
  | running | closing => simp [outcome?, hs] at h

/-- A session can end from here on without another frame. -/
def RunsOut (p : Policy) (supply : IdSupply) (id : SessionId) (x : Nat × Session) : Prop :=
  ∃ os log now t, ((machine p supply id).prompt clock).course x os = some (log, (now, t)) ∧
    frameTimes log = [] ∧ t.outcome? = some (.ok ())

theorem RunsOut.before (loop : Loop) (answer : Option (Except QueueFault QueueAnswer))
    (h : RunsOut p supply id (now', t)) (hloop : loop ≠ .intake)
    (hgo : s.go p supply 0 now' answer loop = some t)
    (hnow : now' = (s.tickDue? .delivery).getD now)
    (hs : ∀ i d m others, s.phase = .running i d → d.stage ≠ .sending m others) :
    RunsOut p supply id (now, s) := by
  obtain ⟨os, log, n, v, hcourse, hlog, hend⟩ := h
  refine ⟨_, _, n, v, Machine.course_cons.mpr
    ⟨_, _, log, occur_prompt hloop hgo hnow, hcourse, rfl⟩, ?_, hend⟩
  rw [frameTimes_append, hlog, frameTimes_of_quiet (isAct_beats _ _ _ (quiet_of_go hgo hs))]
  rfl

theorem runsOut_of_closing (hs : s.phase = .closing (.ok ())) : RunsOut p supply id (now, s) := by
  have hover : RunsOut p supply id (now, s.finished (.ok ())) :=
    ⟨[], [], now, _, rfl, rfl, rfl⟩
  refine hover.before .closing (some (.ok .done)) (by simp) ?_ ?_ (by simp [hs])
  · simp [go, hs, Except.mapError]
  · simp [tickDue?, hs]

theorem Runs.ne_sending (hs : s.Runs i d) (hstage : d.stage.unsent = []) :
    ∀ i d m others, s.phase = .running i d → d.stage ≠ .sending m others := by
  intro i' d' m others hs' hsending
  obtain ⟨-, rfl⟩ := Phase.running.inj (hs.1.symm.trans hs')
  simp [hsending, Stage.unsent] at hstage

theorem RunsOut.resting (hs : s.Runs i d) (hstage : d.stage = .resting)
    (hticker : d.ticker = .started p.tick now)
    (h : RunsOut p supply id (now + p.tick, { s with
      phase := .running i ⟨.fetching, .started p.tick (now + p.tick), d.deadline⟩ })) :
    RunsOut p supply id (now, s) := by
  refine h.before .delivery none (by simp) ?_ ?_
    (hs.ne_sending (by rw [hstage]; rfl))
  · simp [go, hs.1, hs.2, goDelivery, hstage, goTick, hticker, Ticker.take?_started, Except.map,
      Phase.ofDelivery]
  · simp [hs.tickDue?, hstage, hticker, Ticker.started]

/-- As long as the deadline is not over, a delivery that fetches nothing rests and fetches again at
the next tick. -/
theorem runsOut_of_fetching (hp : 0 < p.tick) {n : Nat} (hs : s.Runs i d)
    (hstage : d.stage = .fetching) (hticker : d.ticker = .started p.tick now)
    (hn : d.deadline ≤ now + n) : RunsOut p supply id (now, s) := by
  induction n generalizing s d now with
  | zero =>
    have hclosing : RunsOut p supply id (now, { s with phase := .closing (.ok ()) }) :=
      runsOut_of_closing rfl
    refine hclosing.before .delivery (some (.ok (.messages []))) (by simp) ?_
      (by simp [hs.tickDue?, hstage]) (hs.ne_sending (by rw [hstage]; rfl))
    simp [go, hs.1, hs.2, goDelivery, hstage, Except.bind, Delivery.fetched, QueueAnswer.found,
      Phase.ofDelivery, show d.deadline ≤ now from hn]
  | succ n ih =>
    by_cases hdue : d.deadline ≤ now
    · exact ih hs hstage hticker (Nat.le_trans hdue (Nat.le_add_right now n))
    · have hresting : RunsOut p supply id
          (now, { s with phase := .running i { d with stage := .resting } }) := by
        refine RunsOut.resting (i := i) (d := { d with stage := .resting }) ⟨rfl, hs.2⟩ rfl
          hticker ?_
        exact ih ⟨rfl, hs.2⟩ rfl rfl (by show d.deadline ≤ now + p.tick + n; omega)
      refine hresting.before .delivery (some (.ok (.messages []))) (by simp) ?_
        (by simp [hs.tickDue?, hstage]) (hs.ne_sending (by rw [hstage]; rfl))
      simp [go, hs.1, hs.2, goDelivery, hstage, Except.bind, Delivery.fetched, QueueAnswer.found,
        Phase.ofDelivery, hdue]

theorem runsOut_of_unsent (supply : IdSupply) (id : SessionId) (hp : 0 < p.tick) (hs : s.Runs i d)
    (hunsent : d.stage.unsent = []) (hfinished : d.stage ≠ .finished)
    (hticker : d.ticker = .started p.tick now) : RunsOut p supply id (now, s) := by
  cases hstage : d.stage with
  | fetching => exact runsOut_of_fetching hp hs hstage hticker (Nat.le_add_left d.deadline now)
  | resting =>
    refine .resting hs hstage hticker ?_
    exact runsOut_of_fetching hp ⟨rfl, hs.2⟩ rfl rfl (Nat.le_add_left d.deadline _)
  | settling m others =>
    obtain rfl : others = [] := by simpa [hstage, Stage.unsent] using hunsent
    have hfetching : RunsOut p supply id
        (now, { s with phase := .running i (d.settled p.idle now []) }) :=
      runsOut_of_fetching hp ⟨rfl, hs.2⟩ rfl hticker (Nat.le_add_left _ now)
    refine hfetching.before .delivery (some (.ok .done)) (by simp) ?_
      (by simp [hs.tickDue?, hstage]) (hs.ne_sending hunsent)
    simp [go, hs.1, hs.2, goDelivery, hstage, Except.map, Phase.ofDelivery, Delivery.settled,
      Stage.ofSnapshot]
  | pacing m others | sending m others => simp [hstage, Stage.unsent] at hunsent
  | finished => exact absurd hstage hfinished

/-- What the client does and what the intake does is nothing to the delivery, unless the session
fails. -/
theorem unmoved (hos : ∀ o ∈ os, clock.time? o = none)
    (h : ((machine p supply id).prompt clock).course (now, s) os = some (log, (now', t))) :
    log = [] ∧ now' = now ∧ ∀ i d, s.phase = .running i d →
      (∃ i', t.phase = .running i' d) ∨ ∃ f, t.phase = .closing (.error f) := by
  refine Machine.course_induction (P := fun os log x => (∀ o ∈ os, clock.time? o = none) →
    log = [] ∧ x.1 = now ∧ ∀ i d, s.phase = .running i d →
      (∃ i', x.2.phase = .running i' d) ∨ ∃ f, x.2.phase = .closing (.error f)) ?_ ?_ h hos
  · exact fun _ => ⟨rfl, rfl, fun i d hs => .inl ⟨i, hs⟩⟩
  · intro os log x o new y _ hx ho hos
    obtain ⟨rfl, hnow, hs⟩ := hx fun o ho => hos o (by simp [ho])
    obtain ⟨rfl, hnow', haside⟩ := aside_of_occur ho (hos o (by simp))
    refine ⟨rfl, hnow'.trans hnow, fun i d hphase => ?_⟩
    cases haside with
    | same hsame => rw [hsame]; exact hs i d hphase
    | failed _ hfailed => exact .inr ⟨_, hfailed⟩
    | intake hrunning hnext =>
      obtain ⟨i', hi'⟩ | ⟨f, hf⟩ := hs i d hphase
      · obtain ⟨-, rfl⟩ := Phase.running.inj (hrunning.symm.trans hi')
        exact .inl ⟨_, hnext⟩
      · simp [hf] at hrunning

end

end Session

section
variable {p : Policy} {supply : IdSupply} {id : SessionId} {S now : Nat}
  {log : List (Nat × Beat Act)} {inbound : Channel Item} {outbound : Channel Response}
  {isCancelled : Bool} {t : Session} {os : List Occasion}

/-- When nothing comes late, the delivery of a session acts at the ticks behind its start only and
sends at most one frame at each. The session ends well at the first time at which the outbox is
found empty and the idle time has passed since the last frame, which is as many ticks behind that
frame as it takes for the idle time to pass; nothing is done then but the clearing of the outbox.
While there is nothing left to send it can go on to its end, and what its client and its intake do
meanwhile, refusals included, changes neither the delivery nor the log. -/
theorem delivery_in_tempo (hp : 0 < p.tick)
    (h : ((Session.machine p supply id).prompt Session.clock).course
      (S, .started p inbound outbound isCancelled S) os = some (log, (now, t))) :
    (∀ x ∈ log, ∃ k, x.1 = S + k * p.tick) ∧
    (frameTimes log).Pairwise (· < ·) ∧
    (t.IsDone ↔ ∃ before x after, log = before ++ x :: after ∧ FindsIdle p id S before x) ∧
    (∀ before x after, log = before ++ x :: after → FindsIdle p id S before x →
      (∀ earlier y later, before = earlier ++ y :: later → ¬ FindsIdle p id S earlier y) ∧
      (after = [] ∨ ∃ answer, after = [(x.1, .did (.did (.called (.clear id) answer)))]) ∧
      now = x.1 ∧ x.1 = lastFrame S before + p.tick * ((p.idle + p.tick - 1) / p.tick)) ∧
    (∀ i d, t.Runs i d → d.stage.unsent = [] →
      now ≤ lastFrame S log + p.tick * ((p.idle + p.tick - 1) / p.tick) ∧
      ∃ os' log' now' t', ((Session.machine p supply id).prompt Session.clock).course (now, t) os' =
        some (log', (now', t')) ∧ frameTimes log' = [] ∧ t'.outcome? = some (.ok ()) ∧
        now' = lastFrame S log + p.tick * ((p.idle + p.tick - 1) / p.tick)) ∧
    (∀ os' log' now' t',
      (∀ o ∈ os', (∃ move, o = .outside move) ∨
        ∃ minted n answer, o = .turn .intake minted n answer) →
      ((Session.machine p supply id).prompt Session.clock).course (now, t) os' =
        some (log', (now', t')) →
      log' = [] ∧ now' = now ∧ ∀ i d, t.phase = .running i d →
        (∃ i', t'.phase = .running i' d) ∨ ∃ f, t'.phase = .closing (.error f)) := by
  obtain ⟨hgrid, htempo⟩ := Session.tempo hp h
  refine ⟨hgrid.times, hgrid.sorted, htempo.isDone_iff,
    fun _ _ _ hsplit hfinds => htempo.of_findsIdle hsplit hfinds, ?_, ?_⟩
  · intro i d hruns hunsent
    obtain ⟨hticker, hfinished⟩ := htempo.of_running hruns.1
    obtain ⟨os', log', now', t', hcourse, hquiet, hend⟩ :=
      Session.runsOut_of_unsent supply id hp hruns hunsent hfinished hticker
    refine ⟨htempo.present_le hgrid hp hruns.1 hunsent, os', log', now', t', hcourse, hquiet, hend,
      ?_⟩
    obtain ⟨-, htempo'⟩ :=
      Session.tempo hp (Machine.course_append.mpr ⟨log, (now, t), log', h, hcourse, rfl⟩)
    rw [htempo'.present_of_done (Session.isDone_of_outcome? hend), lastFrame_append_of_quiet hquiet]
  · intro os' log' now' t' hos' hcourse
    refine Session.unmoved (fun o ho => ?_) hcourse
    obtain ⟨move, rfl⟩ | ⟨minted, n, answer, rfl⟩ := hos' o ho <;> rfl

def uneven : Policy :=
  ⟨2, 3, .disabled, .standard⟩

/-- One message is sent, and a blank one is refused while nothing is left to send. -/
def oneFrame : List Occasion :=
  [.turn .delivery 0 0 (some (.ok (.messages [⟨⟨"a"⟩, "one"⟩]))),
    .turn .delivery 0 2 none, .turn .delivery 0 2 none, .turn .delivery 0 2 (some (.ok .done)),
    .turn .delivery 0 2 (some (.ok (.messages []))), .turn .delivery 0 4 none,
    .outside (.send (.ok ⟨⟨"b", "   "⟩⟩)), .turn .intake 0 4 none, .turn .intake 0 5 none,
    .turn .delivery 0 4 (some (.ok (.messages []))), .turn .delivery 0 6 none,
    .turn .delivery 0 6 (some (.ok (.messages []))), .turn .closing 0 6 (some (.ok .done))]

theorem delivery_in_tempo_uneven :
    ∃ log t before x after,
      ((Session.machine uneven .counting ⟨"desk"⟩).prompt Session.clock).course
        (0, .started uneven { capacity := 4 } { capacity := 4 } false 0) oneFrame =
          some (log, (6, t)) ∧
      t.outcome? = some (.ok ()) ∧ frameTimes log = [2] ∧ log = before ++ x :: after ∧
      6 = x.1 ∧ x.1 = lastFrame 0 before + uneven.tick *
        ((uneven.idle + uneven.tick - 1) / uneven.tick) := by
  have h : ((Session.machine uneven .counting ⟨"desk"⟩).prompt Session.clock).course
    (0, .started uneven { capacity := 4 } { capacity := 4 } false 0) oneFrame = some (_, _) := rfl
  obtain ⟨-, -, hdone, hend, -⟩ := delivery_in_tempo (by decide) h
  obtain ⟨before, x, after, hsplit, hfinds⟩ := hdone.mp (.inr rfl)
  obtain ⟨-, -, hnow, hx⟩ := hend before x after hsplit hfinds
  exact ⟨_, _, before, x, after, h, rfl, rfl, hsplit, hnow, hx⟩

end

end NoteRelay.Chat
