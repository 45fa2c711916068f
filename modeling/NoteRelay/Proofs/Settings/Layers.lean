import NoteRelay.Proofs.Store
import NoteRelay.Settings.Tree

/-!
# Layers of settings

What stands at a path of two layers is what the upper one has there, laid over what the lower one
has there (`at?_merge`). That needs tables on the way in both of them, and every key of these once:
where the upper layer has something else on the way, all that the lower one has below is gone.
-/

namespace NoteRelay.Tree

variable {below above tree t : Tree} {entries : List (String × Tree)} {key k : String}
  {path : List String}

-- ---------------------------------------------------------------------------
-- Entries
-- ---------------------------------------------------------------------------

theorem lookup_eq_none_of_not_mem {α : Type} {es : List (String × α)}
    (h : key ∉ es.map Prod.fst) : es.lookup key = none := by
  rw [List.lookup_eq_none_iff]
  intro e he
  have hne : key ≠ e.1 := fun heq => h (heq ▸ List.mem_map_of_mem he)
  simpa using hne

theorem mem_iff_lookup {α : Type} {es : List (String × α)} (h : (es.map Prod.fst).Nodup)
    (key : String) (a : α) : (key, a) ∈ es ↔ es.lookup key = some a :=
  Table.mem_entries_iff (t := ⟨es, h⟩)

theorem mem_put {α : Type} {a : α} {es : List (String × α)} {e : String × α}
    (h : e ∈ put key a es) : e = (key, a) ∨ e ∈ es := by
  induction es with
  | nil => exact .inl (List.mem_singleton.mp h)
  | cons first rest ih =>
    obtain ⟨k, b⟩ := first
    unfold put at h
    split at h
    · rename_i heq
      subst heq
      obtain rfl | hrest := List.mem_cons.mp h
      · exact .inl rfl
      · exact .inr (List.mem_cons_of_mem _ hrest)
    · obtain rfl | hrest := List.mem_cons.mp h
      · exact .inr List.mem_cons_self
      · exact (ih hrest).imp_right (List.mem_cons_of_mem _)

theorem nodup_put {α : Type} {a : α} {es : List (String × α)} (h : (es.map Prod.fst).Nodup) :
    ((put key a es).map Prod.fst).Nodup := by
  induction es with
  | nil => exact List.pairwise_singleton _ key
  | cons first rest ih =>
    obtain ⟨k, b⟩ := first
    rw [List.map_cons, List.nodup_cons] at h
    unfold put
    split
    · exact List.nodup_cons.mpr h
    · rename_i hne
      refine List.nodup_cons.mpr ⟨fun hmem => ?_, ih h.2⟩
      obtain ⟨e, he, heq⟩ := List.mem_map.mp hmem
      obtain rfl | hrest := mem_put he
      · exact hne heq.symm
      · exact h.1 (heq ▸ List.mem_map_of_mem hrest)

/-- Entries that have every key once, and values of one sort. -/
structure EachOnce {α : Type} (P : α → Prop) (es : List (String × α)) : Prop where
  nodup : (es.map Prod.fst).Nodup
  sort : ∀ e ∈ es, P e.2

namespace EachOnce

variable {α : Type} {P : α → Prop} {es : List (String × α)} {a : α}

theorem nil : EachOnce P [] :=
  ⟨List.nodup_nil, by simp⟩

theorem put (h : EachOnce P es) (ha : P a) : EachOnce P (put key a es) where
  nodup := nodup_put h.nodup
  sort e he := by
    obtain rfl | hold := mem_put he
    · exact ha
    · exact h.sort e hold

theorem concat (h : EachOnce P es) (hnew : es.lookup key = none) (ha : P a) :
    EachOnce P (es ++ [(key, a)]) where
  nodup := by
    rw [List.map_append, List.map_singleton, List.nodup_append]
    refine ⟨h.nodup, List.pairwise_singleton _ key, ?_⟩
    intro k hk other hother heq
    rw [List.mem_singleton] at hother
    subst hother heq
    obtain ⟨e, he, rfl⟩ := List.mem_map.mp hk
    rw [(mem_iff_lookup h.nodup e.1 e.2).mp he] at hnew
    cases hnew
  sort e he := by
    obtain hold | hlast := List.mem_append.mp he
    · exact h.sort e hold
    · rw [List.mem_singleton.mp hlast]
      exact ha

theorem of_lookup (h : EachOnce P es) (hlookup : es.lookup key = some a) : P a :=
  h.sort (key, a) ((mem_iff_lookup h.nodup key a).mpr hlookup)

end EachOnce

-- ---------------------------------------------------------------------------
-- What stands at a path
-- ---------------------------------------------------------------------------

def IsTable : Tree → Prop
  | .table _ => True
  | _ => False

instance (tree : Tree) : Decidable tree.IsTable := by
  cases tree <;> unfold IsTable <;> infer_instance

theorem IsTable.exists_eq (h : tree.IsTable) : ∃ entries, tree = .table entries := by
  cases tree with
  | table entries => exact ⟨entries, rfl⟩
  | _ => exact h.elim

def at? : List String → Tree → Option Tree
  | [], tree => some tree
  | key :: path, .table entries => (entries.lookup key).bind (at? path)
  | _ :: _, _ => none

@[simp] theorem at?_nil (tree : Tree) : tree.at? [] = some tree := by
  cases tree <;> rfl

@[simp] theorem at?_cons_table (key : String) (path : List String)
    (entries : List (String × Tree)) :
    (table entries).at? (key :: path) = (entries.lookup key).bind (at? path) :=
  rfl

/-- A step leads on only from a table. -/
theorem at?_cons_of_not_isTable (h : ¬ tree.IsTable) : tree.at? (key :: path) = none := by
  cases tree with
  | table entries => exact absurd trivial h
  | _ => rfl

/-- All steps of a path but the last lead to tables that have every key once, or to nothing. -/
def Opens : List String → Tree → Prop
  | [], _ => True
  | key :: path, .table entries =>
    (entries.map Prod.fst).Nodup ∧ ∀ t, entries.lookup key = some t → t.Opens path
  | _ :: _, _ => False

theorem Opens.exists_table (h : tree.Opens (key :: path)) :
    ∃ entries, tree = .table entries ∧ (entries.map Prod.fst).Nodup ∧
      ∀ t, entries.lookup key = some t → t.Opens path := by
  cases tree with
  | table entries => exact ⟨entries, rfl, h⟩
  | _ => exact h.elim

@[simp] theorem opens_nil : tree.Opens [] := by
  cases tree <;> trivial

-- ---------------------------------------------------------------------------
-- Two layers
-- ---------------------------------------------------------------------------

/-- What an upper layer makes of what a lower one has at some place. -/
def overlay (below : Option Tree) : Option Tree → Option Tree
  | none => below
  | some above =>
    match below with
    | none => some above
    | some tree => some (tree.merge above)

@[simp] theorem overlay_none (below : Option Tree) : overlay below none = below := rfl

@[simp] theorem none_overlay (above : Option Tree) : overlay none above = above := by
  cases above <;> rfl

@[simp] theorem overlay_some_some (below above : Tree) :
    overlay (some below) (some above) = some (below.merge above) := rfl

theorem merge_table_table (below above : List (String × Tree)) :
    (table below).merge (table above) = .table (merge.mergeEntries below above) := by
  rw [merge]

/-- Anything but a table replaces what is below it, and is replaced by what is laid over it. -/
theorem merge_of_not_isTable (h : ¬ (below.IsTable ∧ above.IsTable)) :
    below.merge above = above := by
  cases above with
  | table upper =>
    cases below with
    | table lower => exact absurd ⟨trivial, trivial⟩ h
    | _ => simp [merge]
  | _ => simp [merge]

theorem lookup_mergeEntries {below above : List (String × Tree)}
    (h : (above.map Prod.fst).Nodup) (key : String) :
    (merge.mergeEntries below above).lookup key =
      overlay (below.lookup key) (above.lookup key) := by
  induction above generalizing below with
  | nil => rw [merge.mergeEntries, List.lookup_nil, overlay_none]
  | cons first rest ih =>
    obtain ⟨k, tree⟩ := first
    rw [List.map_cons, List.nodup_cons] at h
    rw [merge.mergeEntries, ih h.2, lookup_put, Table.lookup_cons]
    by_cases heq : key = k
    · subst heq
      rw [if_pos rfl, if_pos rfl, lookup_eq_none_of_not_mem h.1, overlay_none]
      cases below.lookup key <;> rfl
    · rw [if_neg heq, if_neg heq]

theorem nodup_mergeEntries {below above : List (String × Tree)}
    (h : (below.map Prod.fst).Nodup) :
    ((merge.mergeEntries below above).map Prod.fst).Nodup := by
  induction above generalizing below with
  | nil => rwa [merge.mergeEntries]
  | cons first rest ih =>
    rw [merge.mergeEntries]
    exact ih (nodup_put h)

theorem at?_merge (h : above.Opens path) :
    (below.merge above).at? path = overlay (below.at? path) (above.at? path) := by
  induction path generalizing below above with
  | nil => simp
  | cons key path ih =>
    obtain ⟨entries, rfl, hnodup, hopens⟩ := h.exists_table
    by_cases hbelow : below.IsTable
    · obtain ⟨lower, rfl⟩ := hbelow.exists_eq
      rw [merge_table_table, at?_cons_table, at?_cons_table, at?_cons_table,
        lookup_mergeEntries hnodup]
      cases habove : entries.lookup key with
      | none => simp
      | some upper =>
        cases lower.lookup key with
        | none => simp
        | some under => simpa using ih (hopens upper habove)
    · rw [merge_of_not_isTable fun h => hbelow h.1, at?_cons_of_not_isTable hbelow, none_overlay]

theorem Opens.merge (hbelow : below.Opens path) (habove : above.Opens path) :
    (below.merge above).Opens path := by
  induction path generalizing below above with
  | nil => exact opens_nil
  | cons key path ih =>
    obtain ⟨lower, rfl, hlower, hunder⟩ := hbelow.exists_table
    obtain ⟨upper, rfl, hupper, hover⟩ := habove.exists_table
    rw [merge_table_table]
    refine ⟨nodup_mergeEntries hlower, fun t ht => ?_⟩
    rw [lookup_mergeEntries hupper] at ht
    cases hl : lower.lookup key with
    | none =>
      rw [hl, none_overlay] at ht
      exact hover t ht
    | some under =>
      cases hu : upper.lookup key with
      | none =>
        rw [hl, hu, overlay_none, Option.some.injEq] at ht
        exact ht ▸ hunder under hl
      | some laid =>
        rw [hl, hu, overlay_some_some, Option.some.injEq] at ht
        exact ht ▸ ih (hunder under hl) (hover laid hu)

-- ---------------------------------------------------------------------------
-- Trees with every key once
-- ---------------------------------------------------------------------------

/-- A table that has every key once, or no table. -/
def Keyed : Tree → Prop
  | .table entries => (entries.map Prod.fst).Nodup
  | _ => True

/-- Wherever a path leads, a table has every key once. -/
def Distinct (tree : Tree) : Prop :=
  ∀ path t, tree.at? path = some t → t.Keyed

theorem distinct_of_not_isTable (h : ¬ tree.IsTable) : tree.Distinct := by
  intro path t hat
  cases path with
  | nil =>
    rw [at?_nil, Option.some.injEq] at hat
    subst hat
    cases tree with
    | table entries => exact absurd trivial h
    | _ => trivial
  | cons key path => simp [at?_cons_of_not_isTable h] at hat

theorem distinct_table_iff : (table entries).Distinct ↔ EachOnce Distinct entries := by
  constructor
  · intro h
    have hnodup : (entries.map Prod.fst).Nodup := h [] _ (at?_nil _)
    refine ⟨hnodup, fun e he path t hat => h (e.1 :: path) t ?_⟩
    rw [at?_cons_table, (mem_iff_lookup hnodup e.1 e.2).mp he]
    exact hat
  · intro hentries path t hat
    cases path with
    | nil =>
      rw [at?_nil, Option.some.injEq] at hat
      subst hat
      exact hentries.nodup
    | cons key path =>
      rw [at?_cons_table, Option.bind_eq_some_iff] at hat
      obtain ⟨child, hlookup, hat⟩ := hat
      exact hentries.of_lookup hlookup path t hat

/-- A sort of trees has every key once, if each of its tables has and is made of the same sort. -/
theorem distinct_of_closed {P : Tree → Prop}
    (h : ∀ entries, P (.table entries) → EachOnce P entries) (ht : P tree) : tree.Distinct := by
  intro path
  induction path generalizing tree with
  | nil =>
    intro t hat
    rw [at?_nil, Option.some.injEq] at hat
    subst hat
    cases tree with
    | table entries => exact (h entries ht).nodup
    | _ => trivial
  | cons key path ih =>
    intro t hat
    by_cases htable : tree.IsTable
    · obtain ⟨entries, rfl⟩ := htable.exists_eq
      rw [at?_cons_table, Option.bind_eq_some_iff] at hat
      obtain ⟨child, hlookup, hat⟩ := hat
      exact ih ((h entries ht).of_lookup hlookup) t hat
    · rw [at?_cons_of_not_isTable htable] at hat
      cases hat

end NoteRelay.Tree
