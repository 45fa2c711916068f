import NoteRelay.Waiting
import NoteRelay.Proofs.Chronicle
import NoteRelay.Proofs.Course

/-!
# Machines and the clock

A machine with a clock keeps a log of what it does and when. It waits for two kinds of things: for
ticks, and for others to complete a call or to take what it sends. On a course of `Machine.timed`
both may come as late as they like, on one of `Machine.prompt` nothing comes late: a tick is taken
when it is due, and everything else takes no time.

`Ticker.Spaces` is what taking ticks keeps, however late each of them is taken, and `Paced` is what
follows for acts that each begin with a tick of their own (`Paced.of_lawful`).
-/

namespace NoteRelay

inductive Beat (δ : Type) where
  | tick
  | did (deed : δ)

def Beat.deed? {δ : Type} : Beat δ → Option δ
  | tick => none
  | did deed => some deed

def Beat.isAct {δ : Type} (isAct : δ → Bool) : Beat δ → Bool
  | tick => false
  | did deed => isAct deed

/-- How a machine sees the time: which occasions come at one, and when a tick is due that it waits
for. What other occasions bring is nothing that it does itself. -/
structure Clock (σ ε : Type) where
  time? : ε → Option Nat
  due? : σ → Option Nat

section
variable {σ ε δ : Type}

/-- What goes into the log at a time. If the machine has waited for a tick, it takes it first. -/
def Clock.beats (c : Clock σ ε) (s : σ) (now : Nat) (ds : List δ) : List (Nat × Beat δ) :=
  (if (c.due? s).isSome then [(now, .tick)] else []) ++ ds.map fun d => (now, .did d)

theorem Clock.beats_waiting {c : Clock σ ε} {s : σ} (h : c.due? s = none) (now : Nat)
    (ds : List δ) : c.beats s now ds = ds.map fun d => (now, .did d) := by
  simp [beats, h]

theorem Clock.beats_ticking {c : Clock σ ε} {s : σ} {due : Nat} (h : c.due? s = some due)
    (now : Nat) : c.beats s now ([] : List δ) = [(now, .tick)] := by
  simp [beats, h]

/-- A machine that goes on at certain times only. With its state it keeps the time at which it last
went on; whether another time suits may depend on that and on the tick that it waits for. -/
def Machine.clocked (M : Machine σ ε δ) (c : Clock σ ε) (suits : Nat → Option Nat → Nat → Bool) :
    Machine (Nat × σ) ε (Nat × Beat δ) where
  occur s o := (M.occur s.2 o).bind fun (ds, t) =>
    match c.time? o with
    | none => some ([], (s.1, t))
    | some now => if suits s.1 (c.due? s.2) now then some (c.beats s.2 now ds, (now, t)) else none

/-- Whatever the machine waits for may come late. The clock never goes back. -/
def Machine.timed (M : Machine σ ε δ) (c : Clock σ ε) : Machine (Nat × σ) ε (Nat × Beat δ) :=
  M.clocked c fun latest _ now => latest ≤ now

/-- Nothing comes late, and what is not a tick takes no time. -/
def Machine.prompt (M : Machine σ ε δ) (c : Clock σ ε) : Machine (Nat × σ) ε (Nat × Beat δ) :=
  M.clocked c fun latest due? now => now = due?.getD latest

variable {M : Machine σ ε δ} {c : Clock σ ε} {suits : Nat → Option Nat → Nat → Bool}
  {latest latest' : Nat} {s t : σ} {o : ε} {os : List ε} {log : List (Nat × Beat δ)}

theorem Machine.occur_clocked :
    (M.clocked c suits).occur (latest, s) o = some (log, (latest', t)) ↔
      ∃ ds, M.occur s o = some (ds, t) ∧
        (c.time? o = none ∧ log = [] ∧ latest' = latest ∨
          c.time? o = some latest' ∧ suits latest (c.due? s) latest' = true ∧
            log = c.beats s latest' ds) := by
  simp only [clocked, Option.bind_eq_some_iff, Prod.exists]
  constructor
  · rintro ⟨ds, v, hgo, h⟩
    refine ⟨ds, ?_⟩
    split at h
    · rename_i ho
      simp only [Option.some.injEq, Prod.mk.injEq] at h
      obtain ⟨rfl, rfl, rfl⟩ := h
      exact ⟨hgo, .inl ⟨ho, rfl, rfl⟩⟩
    · rename_i now ho
      split at h <;> simp only [Option.some.injEq, Prod.mk.injEq, reduceCtorEq] at h
      rename_i hsuits
      obtain ⟨rfl, rfl, rfl⟩ := h
      exact ⟨hgo, .inr ⟨ho, hsuits, rfl⟩⟩
  · rintro ⟨ds, hgo, ⟨ho, rfl, rfl⟩ | ⟨ho, hsuits, rfl⟩⟩
    · exact ⟨ds, t, hgo, by simp [ho]⟩
    · exact ⟨ds, t, hgo, by simp [ho, hsuits]⟩

def deedsOf (log : List (Nat × Beat δ)) : List δ :=
  log.filterMap fun x => x.2.deed?

@[simp] theorem deedsOf_append (a b : List (Nat × Beat δ)) :
    deedsOf (a ++ b) = deedsOf a ++ deedsOf b :=
  List.filterMap_append

@[simp] theorem deedsOf_map_did (now : Nat) (ds : List δ) :
    deedsOf (ds.map fun d => (now, .did d)) = ds := by
  induction ds with
  | nil => rfl
  | cons d ds ih => exact congrArg (d :: ·) ih

@[simp] theorem deedsOf_beats (c : Clock σ ε) (s : σ) (now : Nat) (ds : List δ) :
    deedsOf (c.beats s now ds) = ds := by
  unfold Clock.beats
  split
  · exact deedsOf_map_did now ds
  · exact deedsOf_map_did now ds

/-- Without the clock, a course is one of the machine. If nothing is done but at a time, the log has
all the deeds. -/
theorem Machine.course_of_clocked
    (quiet : ∀ s o ds t, M.occur s o = some (ds, t) → c.time? o = none → ds = [])
    (h : (M.clocked c suits).course (latest, s) os = some (log, (latest', t))) :
    M.course s os = some (deedsOf log, t) := by
  refine course_induction (P := fun os log v => M.course s os = some (deedsOf log, v.2)) rfl ?_ h
  rintro os log ⟨latest, v⟩ o new ⟨latest', t⟩ - hv ho
  obtain ⟨ds, hgo, hlog⟩ := occur_clocked.mp ho
  refine course_append_single.mpr ⟨_, v, ds, hv, hgo, ?_⟩
  obtain ⟨htime, rfl, -⟩ | ⟨-, -, rfl⟩ := hlog
  · simp [deedsOf, quiet _ _ _ _ hgo htime]
  · simp

end

-- ---------------------------------------------------------------------------
-- Ticks
-- ---------------------------------------------------------------------------

/-- A tick that is granted at `n` behind others comes a period after each of them, and so many
periods as there are ticks between them; all count from `S`, when the ticker was started. -/
def Ticker.Spaces (p S : Nat) (before : List Nat) (n : Nat) : Prop :=
  S + (before.length + 1) * p ≤ n ∧
    ∀ earlier m between, before = earlier ++ m :: between →
      m + (between.length + 1) * p ≤ n + tolerance

theorem Ticker.Spaces.mono {p S n n' : Nat} {before : List Nat} (h : Spaces p S before n)
    (hn : n ≤ n') : Spaces p S before n' := by
  refine ⟨Nat.le_trans h.1 hn, fun earlier m between hsplit => ?_⟩
  have := h.2 earlier m between hsplit
  omega

/-- Behind a tick that is taken too late the next one is due a whole period later; behind any other
tick it is due a period after this one was due, which is all that the tolerance is for. -/
theorem Ticker.Spaces.taken {p S now : Nat} {before : List Nat} {k : Ticker}
    (h : Spaces p S before k.due) (hp : k.period = p) (hdue : k.due ≤ now) :
    Spaces p S (before ++ [now]) (k.taken now).due := by
  have hnext : k.due + p ≤ (k.taken now).due ∧ now + p ≤ (k.taken now).due + tolerance := by
    simp only [Ticker.taken, hp]
    split <;> omega
  constructor
  · have := h.1
    rw [List.length_append, List.length_singleton, Nat.add_mul (before.length + 1), Nat.one_mul]
    omega
  · intro earlier m between hsplit
    obtain ⟨rfl, rfl, rfl⟩ | ⟨between, rfl, hbefore⟩ := append_single_eq_append_cons hsplit
    · simpa using hnext.2
    · have := h.2 earlier m between hbefore
      rw [List.length_append, List.length_singleton, Nat.add_mul (between.length + 1), Nat.one_mul]
      omega

theorem Ticker.take?_started (p now : Nat) :
    (started p now).take? (now + p) = some (started p (now + p)) := by
  have hearly : ¬ now + p + tolerance < now + p := by omega
  unfold take? taken started
  rw [if_pos (Nat.le_refl _), if_neg hearly]

/-- What is known of the ticks that were granted so far and of the ticker that grants them. -/
structure Ticker.Granting (p S : Nat) (granted : List Nat) (k? : Option Ticker) : Prop where
  lawful : Lawful (Spaces p S) granted
  due : ∀ k, k? = some k → k.period = p ∧ Spaces p S granted k.due

theorem Ticker.Granting.start (p S : Nat) : Granting p S [] (some (.started p S)) where
  lawful := lawful_nil
  due := by
    rintro _ ⟨⟩
    exact ⟨rfl, by simp [started], by simp⟩

/-- What becomes of a ticker at a time: its tick is taken if one is waited for, and otherwise it
stays as it is or is let go. -/
inductive Ticker.Turned (now : Nat) : Option Nat → Option Ticker → Option Ticker → Prop where
  | left {k? k'? : Option Ticker} : (∀ k, k'? = some k → k? = some k) → Turned now none k? k'?
  | taken {k k' : Ticker} : k.take? now = some k' → Turned now (some k.due) (some k) (some k')

def ticks {δ : Type} (log : List (Nat × Beat δ)) : List Nat :=
  log.filterMap fun x => match x.2 with
    | .tick => some x.1
    | .did _ => none

@[simp] theorem ticks_nil {δ : Type} : ticks ([] : List (Nat × Beat δ)) = [] :=
  rfl

@[simp] theorem ticks_append {δ : Type} (a b : List (Nat × Beat δ)) :
    ticks (a ++ b) = ticks a ++ ticks b :=
  List.filterMap_append

@[simp] theorem ticks_cons_tick {δ : Type} (n : Nat) (log : List (Nat × Beat δ)) :
    ticks ((n, .tick) :: log) = n :: ticks log :=
  rfl

@[simp] theorem ticks_cons_did {δ : Type} (n : Nat) (d : δ) (log : List (Nat × Beat δ)) :
    ticks ((n, .did d) :: log) = ticks log :=
  rfl

theorem ticks_beats {σ ε δ : Type} (c : Clock σ ε) (s : σ) (now : Nat) (ds : List δ) :
    ticks (c.beats s now ds) = if (c.due? s).isSome then [now] else [] := by
  have hdid : ticks (ds.map fun d => (now, Beat.did d)) = [] := by
    simp [ticks, List.filterMap_map]
  rw [Clock.beats, ticks_append, hdid]
  split <;> rfl

theorem Ticker.Granting.turned {σ ε δ : Type} {c : Clock σ ε} {s : σ} {p S now : Nat}
    {log : List (Nat × Beat δ)} {ds : List δ} {k? k'? : Option Ticker}
    (h : Granting p S (ticks log) k?) (hturned : Turned now (c.due? s) k? k'?) :
    Granting p S (ticks (log ++ c.beats s now ds)) k'? := by
  rw [ticks_append, ticks_beats]
  generalize c.due? s = due? at hturned
  cases hturned with
  | left hsame => simpa using ⟨h.lawful, fun k hk => h.due k (hsame k hk)⟩
  | @taken k k' htake =>
    simp only [take?, Option.ite_none_right_eq_some, Option.some.injEq] at htake
    obtain ⟨hdue, rfl⟩ := htake
    obtain ⟨hp, hspaces⟩ := h.due k rfl
    refine ⟨lawful_append_single.mpr ⟨h.lawful, hspaces.mono hdue⟩, ?_⟩
    rintro _ ⟨⟩
    exact ⟨hp, hspaces.taken hp hdue⟩

-- ---------------------------------------------------------------------------
-- Acts that begin with a tick
-- ---------------------------------------------------------------------------

section
variable {δ : Type} {isAct : δ → Bool} {log : List (Nat × Beat δ)}

def BeginsWithTick (isAct : δ → Bool) (before : List (Nat × Beat δ)) (x : Nat × Beat δ) : Prop :=
  x.2.isAct isAct = true → ∃ earlier n, before = earlier ++ [(n, .tick)] ∧ n ≤ x.1

theorem lawful_append_of_quiet {new : List (Nat × Beat δ)}
    (h : Lawful (BeginsWithTick isAct) log) (hnew : ∀ x ∈ new, x.2.isAct isAct = false) :
    Lawful (BeginsWithTick isAct) (log ++ new) := by
  induction new using List.reverseRecOn with
  | nil => rwa [List.append_nil]
  | append_singleton new x ih =>
    rw [← List.append_assoc]
    refine lawful_append_single.mpr ⟨ih fun y hy => hnew y (by simp [hy]), fun hx => ?_⟩
    simp [hnew x (by simp)] at hx

theorem isAct_beats {σ ε : Type} {ds : List δ} (c : Clock σ ε) (s : σ) (now : Nat)
    (h : ∀ d ∈ ds, isAct d = false) : ∀ x ∈ c.beats s now ds, x.2.isAct isAct = false := by
  intro x hx
  obtain hx | hx := List.mem_append.mp hx
  · split at hx
    · rw [List.mem_singleton.mp hx]
      rfl
    · simp at hx
  · obtain ⟨d, hd, rfl⟩ := List.mem_map.mp hx
    exact h d hd

def countActs (isAct : δ → Bool) (log : List (Nat × Beat δ)) : Nat :=
  log.countP fun x => x.2.isAct isAct

theorem countActs_append_tick (isAct : δ → Bool) (log : List (Nat × Beat δ)) (n : Nat) :
    countActs isAct (log ++ [(n, .tick)]) = countActs isAct log := by
  simp [countActs, Beat.isAct]

theorem countActs_append_did (isAct : δ → Bool) (log : List (Nat × Beat δ)) (n : Nat) (d : δ) :
    countActs isAct (log ++ [(n, .did d)]) = countActs isAct log + if isAct d then 1 else 0 := by
  simp [countActs, Beat.isAct, List.countP_append, List.countP_singleton]

theorem countActs_le_ticks (h : Lawful (BeginsWithTick isAct) log) :
    countActs isAct log ≤ (ticks log).length ∧
      ∀ earlier n, log = earlier ++ [(n, .tick)] → countActs isAct log < (ticks log).length := by
  induction log using List.reverseRecOn with
  | nil => exact ⟨Nat.le_refl 0, by simp⟩
  | append_singleton log x ih =>
    obtain ⟨hold, hnew⟩ := lawful_append_single.mp h
    obtain ⟨hle, hlt⟩ := ih hold
    obtain ⟨n, beat⟩ := x
    cases beat with
    | tick =>
      have hless : countActs isAct (log ++ [(n, .tick)]) <
          (ticks (log ++ [(n, .tick)])).length := by
        rw [countActs_append_tick, ticks_append]
        simpa using Nat.lt_succ_of_le hle
      exact ⟨Nat.le_of_lt hless, fun _ _ _ => hless⟩
    | did d =>
      refine ⟨?_, by simp⟩
      rw [countActs_append_did, ticks_append, ticks_cons_did]
      cases hd : isAct d with
      | false => simpa using hle
      | true =>
        obtain ⟨earlier, m, hlog, -⟩ := hnew hd
        simpa using Nat.succ_le_of_lt (hlt earlier m hlog)

/-- Acts follow each other at the pace of the ticker that they take their ticks from. `p` is its
period, and it was started at `S`. -/
structure Paced (p S : Nat) (isAct : δ → Bool) (log : List (Nat × Beat δ)) : Prop where
  /-- The k-th tick is not granted before `k` periods have passed. -/
  tick_due : ∀ before n after, ticks log = before ++ n :: after →
    S + (before.length + 1) * p ≤ n
  /-- However late a tick was taken, those behind it are not closer to each other than a period
  less 5 milliseconds. -/
  ticks_apart : ∀ before m between n after,
    ticks log = before ++ m :: (between ++ n :: after) →
      m + (between.length + 1) * p ≤ n + 5
  /-- The k-th act begins with a tick, and not before `k` periods have passed. -/
  act_begun : ∀ before t d after, log = before ++ (t, .did d) :: after → isAct d = true →
    ∃ earlier n, before = earlier ++ [(n, .tick)] ∧ n ≤ t ∧
      S + (countActs isAct earlier + 1) * p ≤ n
  acts_apart : ∀ before m t d between n t' d' after,
    log = before ++ (m, .tick) :: (t, .did d) :: (between ++ (n, .tick) :: (t', .did d') :: after) →
      isAct d = true → isAct d' = true →
        m + (countActs isAct between + 1) * p ≤ n + 5

theorem Lawful.behind_act {between : List (Nat × Beat δ)} (before : List (Nat × Beat δ)) (t : Nat)
    (d : δ) (h : Lawful (BeginsWithTick isAct) (before ++ (t, .did d) :: between)) :
    Lawful (BeginsWithTick isAct) between := by
  rintro earlier x later rfl hx
  obtain ⟨start, n, hsplit, hn⟩ :=
    h (before ++ (t, .did d) :: earlier) x later (by simp) hx
  obtain ⟨-, ⟨⟩, -⟩ | ⟨rest, rfl, -⟩ := append_single_eq_append_cons hsplit.symm
  exact ⟨rest, n, rfl, hn⟩

theorem Paced.of_lawful {p S : Nat} (hticks : Lawful (Ticker.Spaces p S) (ticks log))
    (hacts : Lawful (BeginsWithTick isAct) log) : Paced p S isAct log where
  tick_due before n after hsplit := (hticks before n after hsplit).1
  ticks_apart before m between n after hsplit :=
    (hticks (before ++ m :: between) n after (by simp [hsplit])).2 before m between rfl
  act_begun := by
    rintro before t d after rfl hd
    obtain ⟨earlier, n, rfl, hn⟩ := hacts before (t, .did d) after rfl hd
    refine ⟨earlier, n, rfl, hn, ?_⟩
    have hdue := (hticks (ticks earlier) n (ticks after) (by simp)).1
    have hcount := (countActs_le_ticks hacts.left.left).1
    calc S + (countActs isAct earlier + 1) * p
        ≤ S + ((ticks earlier).length + 1) * p :=
          Nat.add_le_add_left (Nat.mul_le_mul_right p (Nat.succ_le_succ hcount)) S
      _ ≤ n := hdue
  acts_apart := by
    rintro before m t d between n t' d' after rfl - -
    have happart := (hticks (ticks before ++ m :: ticks between) n (ticks after) (by simp)).2
      (ticks before) m (ticks between) rfl
    have hbetween : Lawful (BeginsWithTick isAct) between := by
      refine Lawful.behind_act (before ++ [(m, .tick)]) t d ?_
      refine Lawful.left (b := (n, .tick) :: (t', .did d') :: after) ?_
      simpa using hacts
    have hcount := (countActs_le_ticks hbetween).1
    calc m + (countActs isAct between + 1) * p
        ≤ m + ((ticks between).length + 1) * p :=
          Nat.add_le_add_left (Nat.mul_le_mul_right p (Nat.succ_le_succ hcount)) m
      _ ≤ n + 5 := happart

end

end NoteRelay
