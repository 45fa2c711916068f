import NoteRelay.Proofs.Settings.Layers
import NoteRelay.Settings.Environment

/-!
# The layer of the environment

Variables are laid over each other like any layers. Where none of them leads to a step of a path, or
past its end, what they say at the path is what the one that names it says (`Environment.at?_tree`).
-/

namespace NoteRelay

-- ---------------------------------------------------------------------------
-- Trees of one path
-- ---------------------------------------------------------------------------

namespace Environment

variable {path other : List String} {leaf : Tree} {assigned : Variables}

theorem treeOfPath_cons (key : String) (path : List String) (leaf : Tree) :
    treeOfPath (key :: path) leaf = .table [(key, treeOfPath path leaf)] :=
  rfl

theorem opens_treeOfPath (h : path <+: other → path = other) :
    (treeOfPath path leaf).Opens other := by
  induction path generalizing other with
  | nil =>
    rw [← h List.nil_prefix]
    exact Tree.opens_nil
  | cons key path ih =>
    cases other with
    | nil => exact Tree.opens_nil
    | cons step other =>
      rw [treeOfPath_cons]
      refine ⟨List.pairwise_singleton _ key, fun t ht => ?_⟩
      rw [Table.lookup_cons, List.lookup_nil] at ht
      split at ht
      · rename_i heq
        subst heq
        cases ht
        exact ih fun hp => (List.cons.inj (h (List.cons_prefix_cons.mpr ⟨rfl, hp⟩))).2
      · cases ht

theorem at?_treeOfPath (h : path <+: other → path = other) (h' : other <+: path → path = other) :
    (treeOfPath path leaf).at? other = if path = other then some leaf else none := by
  induction path generalizing other with
  | nil =>
    have := h List.nil_prefix
    subst this
    simp [treeOfPath]
  | cons key path ih =>
    cases other with
    | nil => cases h' List.nil_prefix
    | cons step other =>
      rw [treeOfPath_cons, Tree.at?_cons_table, Table.lookup_cons, List.lookup_nil]
      by_cases heq : step = key
      · subst heq
        rw [if_pos rfl, Option.bind_some, ih]
        · simp
        · exact fun hp => (List.cons.inj (h (List.cons_prefix_cons.mpr ⟨rfl, hp⟩))).2
        · exact fun hp => (List.cons.inj (h' (List.cons_prefix_cons.mpr ⟨rfl, hp⟩))).2
      · rw [if_neg heq, Option.bind_none, if_neg fun h => heq (List.cons.inj h).1.symm]

-- ---------------------------------------------------------------------------
-- The layer of the variables
-- ---------------------------------------------------------------------------

/-- What the first variable that names a path stands for. -/
def named? (assigned : Variables) (path : List String) : Option Tree :=
  (assigned.find? fun e => path? e.1 == some path).map fun e => treeOfValue e.2

/-- The paths that variables name. -/
def paths (assigned : Variables) : List (List String) :=
  assigned.filterMap fun e => path? e.1

theorem paths_append (assigned later : Variables) :
    paths (assigned ++ later) = paths assigned ++ paths later :=
  List.filterMap_append

theorem paths_cons {name : String} (h : path? name = some path) (value : String) :
    paths ((name, value) :: assigned) = path :: paths assigned := by
  simp [paths, h]

theorem named?_append (assigned later : Variables) (path : List String) :
    named? (assigned ++ later) path = (named? assigned path).or (named? later path) := by
  rw [named?, List.find?_append, Option.map_or]
  rfl

theorem named?_singleton (name value : String) (path : List String) :
    named? [(name, value)] path =
      if path? name = some path then some (treeOfValue value) else none := by
  by_cases h : path? name = some path <;> simp [named?, h]

theorem named?_eq_none_iff : named? assigned path = none ↔ ∀ e ∈ assigned, path? e.1 ≠ some path := by
  simp [named?]

theorem named?_eq_none (h : path ∉ paths assigned) : named? assigned path = none := by
  rw [named?_eq_none_iff]
  intro e he hpath
  exact h (List.mem_filterMap.mpr ⟨e, he, hpath⟩)

/-- The variable that names a path, where no two name one. -/
theorem named?_of_mem {name value : String} (h : (paths assigned).Nodup)
    (hmem : (name, value) ∈ assigned) (hname : path? name = some path) :
    named? assigned path = some (treeOfValue value) := by
  obtain ⟨before, after, rfl⟩ := List.append_of_mem hmem
  have hbefore : path ∉ paths before := by
    rw [paths_append, paths_cons hname] at h
    exact fun hin => (List.nodup_append.mp h).2.2 path hin path List.mem_cons_self rfl
  rw [named?_append, named?_eq_none hbefore, Option.none_or, ← List.singleton_append, named?_append,
    named?_singleton, if_pos hname, Option.some_or]

/-- A path is one that a variable names, or one that leads elsewhere. -/
def Clear (path named : List String) : Prop :=
  named = path ∨ (¬ named <+: path ∧ ¬ path <+: named)

instance (path named : List String) : Decidable (Clear path named) :=
  inferInstanceAs (Decidable (_ ∨ _))

theorem tree_concat (assigned : Variables) (name value : String) :
    tree (assigned ++ [(name, value)]) =
      match path? name with
      | some path => (tree assigned).merge (treeOfPath path (treeOfValue value))
      | none => tree assigned := by
  rw [tree, List.foldl_append]
  rfl

/-- The variables, one laid over the other, say at a path what the one that names it says. -/
theorem at?_tree (hclear : ∀ named ∈ paths assigned, Clear path named)
    (hdistinct : (paths assigned).Nodup) (hpath : path ≠ []) :
    (tree assigned).Opens path ∧ (tree assigned).at? path = named? assigned path := by
  induction assigned using List.reverseRecOn with
  | nil =>
    obtain ⟨key, path, rfl⟩ := List.exists_cons_of_ne_nil hpath
    exact ⟨⟨List.nodup_nil, by simp⟩, rfl⟩
  | append_singleton assigned e ih =>
    obtain ⟨name, value⟩ := e
    rw [tree_concat, named?_append, named?_singleton]
    rw [paths_append] at hclear hdistinct
    have hbefore := ih (fun named h => hclear named (List.mem_append_left _ h))
      (List.nodup_append.mp hdistinct).1
    cases hname : path? name with
    | none => simpa using hbefore
    | some named =>
      rw [paths_cons hname] at hclear hdistinct
      have hnamed := hclear named (List.mem_append_right _ List.mem_cons_self)
      have hdown : named <+: path → named = path := fun h => hnamed.resolve_right fun hno => hno.1 h
      have hup : path <+: named → named = path := fun h => hnamed.resolve_right fun hno => hno.2 h
      have hopens : (treeOfPath named (treeOfValue value)).Opens path := opens_treeOfPath hdown
      refine ⟨hbefore.1.merge hopens, ?_⟩
      dsimp only
      rw [Tree.at?_merge hopens, hbefore.2, at?_treeOfPath hdown hup]
      by_cases heq : named = path
      · subst heq
        have hfresh : named ∉ paths assigned := fun hin =>
          (List.nodup_append.mp hdistinct).2.2 named hin named List.mem_cons_self rfl
        simp [named?_eq_none hfresh]
      · simp [heq]

end Environment

end NoteRelay
