import Mathlib.Data.List.Induction

/-!
# Courses

A session or a subscription waits, and goes on when there is what it waits for. A `Machine` is such
a thing seen alone: what surrounds it is a list of occasions, which come in any order and bring
anything. What holds of every course of it holds over every queue, every client and every schedule.

`Machine.course_induction`: what holds at the start and is kept by every occasion holds of every
course. `Machine.course_alike`: courses on occasions that are alike are alike, if every step is.
-/

namespace NoteRelay

theorem append_single_eq_append_cons {α : Type} {l before after : List α} {x a : α}
    (h : l ++ [x] = before ++ a :: after) :
    (before = l ∧ a = x ∧ after = []) ∨
      ∃ rest, after = rest ++ [x] ∧ l = before ++ a :: rest := by
  obtain rfl | ⟨rest, y, rfl⟩ := List.eq_nil_or_concat after
  · obtain ⟨hl, hx⟩ := List.append_inj' h rfl
    exact .inl ⟨hl.symm, (List.singleton_inj.mp hx).symm, rfl⟩
  · rw [List.concat_eq_append, ← List.cons_append, ← List.append_assoc] at h
    obtain ⟨hl, hx⟩ := List.append_inj' h rfl
    exact .inr ⟨rest, by rw [List.concat_eq_append, List.singleton_inj.mp hx], hl⟩

/-- Something that waits for occasions: what it does on each that others see, and what becomes of
it. An occasion that is not possible has no outcome. -/
structure Machine (σ ε δ : Type) where
  occur : σ → ε → Option (List δ × σ)

namespace Machine

variable {σ ε δ : Type}

def course (M : Machine σ ε δ) (s : σ) : List ε → Option (List δ × σ)
  | [] => some ([], s)
  | o :: rest => (M.occur s o).bind fun (ds, t) => (M.course t rest).map fun r => (ds ++ r.1, r.2)

/-- On a course, an occasion finds the machine in a state such that `P`. -/
def Meets (M : Machine σ ε δ) (s : σ) (os : List ε) (P : σ → ε → Prop) : Prop :=
  ∃ before o after ds v, os = before ++ o :: after ∧ M.course s before = some (ds, v) ∧ P v o

variable {M : Machine σ ε δ} {s t : σ} {o : ε} {os os' : List ε} {ds : List δ}

theorem course_nil : M.course s [] = some (ds, t) ↔ ds = [] ∧ t = s := by
  simp [course, eq_comm]

theorem course_cons : M.course s (o :: os) = some (ds, t) ↔
    ∃ new v rest, M.occur s o = some (new, v) ∧ M.course v os = some (rest, t) ∧
      ds = new ++ rest := by
  simp only [course, Option.bind_eq_some_iff, Option.map_eq_some_iff, Prod.exists, Prod.mk.injEq]
  constructor
  · rintro ⟨new, v, hgo, rest, t, hrest, rfl, rfl⟩
    exact ⟨new, v, rest, hgo, hrest, rfl⟩
  · rintro ⟨new, v, rest, hgo, hrest, rfl⟩
    exact ⟨new, v, hgo, rest, t, hrest, rfl, rfl⟩

theorem course_single : M.course s [o] = some (ds, t) ↔ M.occur s o = some (ds, t) := by
  simp only [course_cons, course_nil]
  constructor
  · rintro ⟨new, v, _, hgo, ⟨rfl, rfl⟩, rfl⟩
    rwa [List.append_nil]
  · intro hgo
    exact ⟨ds, t, [], hgo, ⟨rfl, rfl⟩, (List.append_nil ds).symm⟩

theorem course_append : M.course s (os ++ os') = some (ds, t) ↔
    ∃ old v new, M.course s os = some (old, v) ∧ M.course v os' = some (new, t) ∧
      ds = old ++ new := by
  induction os generalizing s ds with
  | nil => simp [course_nil]
  | cons o os ih =>
    simp only [List.cons_append, course_cons, ih]
    constructor
    · rintro ⟨new, v, _, hgo, ⟨old, v', rest, hold, hrest, rfl⟩, rfl⟩
      exact ⟨_, v', rest, ⟨new, v, old, hgo, hold, rfl⟩, hrest, by simp⟩
    · rintro ⟨_, v', rest, ⟨new, v, old, hgo, hold, rfl⟩, hrest, rfl⟩
      exact ⟨new, v, _, hgo, ⟨old, v', rest, hold, hrest, rfl⟩, by simp⟩

theorem course_append_single : M.course s (os ++ [o]) = some (ds, t) ↔
    ∃ old v new, M.course s os = some (old, v) ∧ M.occur v o = some (new, t) ∧
      ds = old ++ new := by
  simp only [course_append, course_single]

theorem course_induction {P : List ε → List δ → σ → Prop} (start : P [] [] s)
    (next : ∀ os ds v o new t, M.course s os = some (ds, v) → P os ds v →
      M.occur v o = some (new, t) → P (os ++ [o]) (ds ++ new) t)
    (h : M.course s os = some (ds, t)) : P os ds t := by
  induction os using List.reverseRecOn generalizing ds t with
  | nil =>
    obtain ⟨rfl, rfl⟩ := course_nil.mp h
    exact start
  | append_singleton os o ih =>
    obtain ⟨old, v, new, hold, hgo, rfl⟩ := course_append_single.mp h
    exact next os old v o new t hold (ih hold) hgo

theorem not_meets_nil (P : σ → ε → Prop) : ¬ M.Meets s [] P := by
  rintro ⟨before, o, after, -, -, h, -⟩
  simp at h

theorem meets_append_single {v : σ} {P : σ → ε → Prop} (h : M.course s os = some (ds, v)) :
    M.Meets s (os ++ [o]) P ↔ M.Meets s os P ∨ P v o := by
  constructor
  · rintro ⟨before, a, after, ds', v', hsplit, hv', hP⟩
    obtain ⟨rfl, rfl, -⟩ | ⟨rest, -, hos⟩ := append_single_eq_append_cons hsplit
    · obtain ⟨rfl, rfl⟩ : ds = ds' ∧ v = v' := by simpa [h] using hv'
      exact .inr hP
    · exact .inl ⟨before, a, rest, ds', v', hos, hv', hP⟩
  · rintro (⟨before, a, after, ds', v', rfl, hv', hP⟩ | hP)
    · exact ⟨before, a, after ++ [o], ds', v', by simp, hv', hP⟩
    · exact ⟨os, o, [], ds, v, rfl, h, hP⟩

/-- What is met with on a possible course happens, between what came before it and what comes
behind. -/
theorem Meets.split {P : σ → ε → Prop} (h : M.Meets s os P)
    (hcourse : M.course s os = some (ds, t)) :
    ∃ before o after old v new v' rest, os = before ++ o :: after ∧ P v o ∧
      M.course s before = some (old, v) ∧ M.occur v o = some (new, v') ∧
      M.course v' after = some (rest, t) ∧ ds = old ++ (new ++ rest) := by
  obtain ⟨before, o, after, old, v, rfl, hold, hP⟩ := h
  obtain ⟨old', v', _, hold', hafter, rfl⟩ := course_append.mp hcourse
  obtain ⟨rfl, rfl⟩ : old = old' ∧ v = v' := by simpa [hold] using hold'
  obtain ⟨new, v', rest, hoccur, hrest, rfl⟩ := course_cons.mp hafter
  exact ⟨before, o, after, old, v, new, v', rest, rfl, hP, hold, hoccur, hrest, rfl⟩

-- ---------------------------------------------------------------------------
-- Courses that are alike
-- ---------------------------------------------------------------------------

/-- States, occasions and deeds are alike when they look the same under `f`, `g` and `k`. The
courses may be those of two machines. -/
theorem course_alike {N : Machine σ ε δ} {α β γ : Type} (f : σ → α) (g : ε → β) (k : δ → γ)
    (step : ∀ s s' o o', f s = f s' → g o = g o' →
      (M.occur s o).map (fun r => (r.1.map k, f r.2)) =
        (N.occur s' o').map (fun r => (r.1.map k, f r.2)))
    {s' : σ} (hs : f s = f s') (hos : os.map g = os'.map g) :
    (M.course s os).map (fun r => (r.1.map k, f r.2)) =
      (N.course s' os').map (fun r => (r.1.map k, f r.2)) := by
  induction os generalizing s s' os' with
  | nil =>
    obtain rfl : os' = [] := by simpa using hos.symm
    simp [course, hs]
  | cons o os ih =>
    obtain ⟨o', os', rfl, ho, hos⟩ := List.map_eq_cons_iff.mp hos.symm
    have hgo := step s s' o o' hs ho.symm
    simp only [course]
    cases h : M.occur s o with
    | none =>
      rw [h, Option.map_none, eq_comm, Option.map_eq_none_iff] at hgo
      simp [hgo]
    | some r =>
      rw [h, Option.map_some, eq_comm, Option.map_eq_some_iff] at hgo
      obtain ⟨r', h', hr⟩ := hgo
      obtain ⟨hds, ht⟩ := Prod.mk.inj hr
      have hrest := ih ht.symm hos.symm
      simp only [h', Option.bind_some, Option.map_map]
      -- The rests are alike, and so they are behind deeds that are alike.
      have hmap := congrArg (Option.map fun x : List γ × α => (r.1.map k ++ x.1, x.2)) hrest
      simpa [Option.map_map, Function.comp_def, hds] using hmap

end Machine

end NoteRelay
