/-!
# Finite maps

A `Table` holds one value for each of finitely many keys. `get?` is its view: `get?_insert` and
`get?_erase` say what the two changes do to it.
-/

namespace NoteRelay

structure Table (κ α : Type) where
  entries : List (κ × α)
  distinct : (entries.map Prod.fst).Nodup
  deriving Repr

namespace Table

variable {κ α : Type}

def empty : Table κ α :=
  ⟨[], List.nodup_nil⟩

instance : Inhabited (Table κ α) := ⟨empty⟩

def isEmpty (t : Table κ α) : Bool :=
  t.entries.isEmpty

def keys (t : Table κ α) : List κ :=
  t.entries.map Prod.fst

def values (t : Table κ α) : List α :=
  t.entries.map Prod.snd

/-- The table with every value changed. -/
def mapValues {β : Type} (t : Table κ α) (f : α → β) : Table κ β where
  entries := t.entries.map fun e => (e.1, f e.2)
  distinct := by simpa [Function.comp_def] using t.distinct

variable [DecidableEq κ]

def get? (t : Table κ α) (k : κ) : Option α :=
  t.entries.lookup k

/-- The pairs under any other key. -/
def entriesBut (t : Table κ α) (k : κ) : List (κ × α) :=
  t.entries.filter fun e => e.1 ≠ k

theorem nodup_entriesBut (t : Table κ α) (k : κ) : ((t.entriesBut k).map Prod.fst).Nodup :=
  t.distinct.sublist (List.filter_sublist.map _)

theorem not_mem_entriesBut (t : Table κ α) (k : κ) : k ∉ (t.entriesBut k).map Prod.fst := by
  simp [entriesBut]

def erase (t : Table κ α) (k : κ) : Table κ α :=
  ⟨t.entriesBut k, t.nodup_entriesBut k⟩

/-- The table with a value under a key, in place of the one that was there. The key comes last. -/
def insert (t : Table κ α) (k : κ) (a : α) : Table κ α where
  entries := t.entriesBut k ++ [(k, a)]
  distinct := by
    rw [List.map_append]
    refine List.nodup_append.2 ⟨t.nodup_entriesBut k, by simp, ?_⟩
    intro x hx y hy hxy
    simp only [List.map_cons, List.map_nil, List.mem_singleton] at hy
    rw [hxy, hy] at hx
    exact t.not_mem_entriesBut k hx

@[simp]
theorem get?_empty (k : κ) : (empty : Table κ α).get? k = none :=
  rfl

theorem lookup_cons (key k : κ) (a : α) (rest : List (κ × α)) :
    ((k, a) :: rest).lookup key = if key = k then some a else rest.lookup key := by
  by_cases h : key = k
  · subst h; simp
  · have : (key == k) = false := by simp [h]
    simp [List.lookup_cons, this, h]

theorem lookup_entriesBut (k key : κ) (entries : List (κ × α)) :
    (entries.filter fun e => decide (e.1 ≠ k)).lookup key =
      if key = k then none else entries.lookup key := by
  induction entries with
  | nil => simp
  | cons e rest ih =>
    obtain ⟨k', a⟩ := e
    by_cases hk : k' = k
    · subst hk
      simp only [ne_eq, not_true_eq_false, decide_false, Bool.false_eq_true, not_false_eq_true,
        List.filter_cons_of_neg, ih, lookup_cons]
      by_cases h : key = k' <;> simp [h]
    · simp only [ne_eq, hk, not_false_eq_true, decide_true, List.filter_cons_of_pos, lookup_cons,
        ih]
      by_cases h : key = k' <;> by_cases h' : key = k <;> simp_all

theorem get?_erase (t : Table κ α) (k key : κ) :
    (t.erase k).get? key = if key = k then none else t.get? key :=
  lookup_entriesBut k key t.entries

theorem lookup_append_single (key k : κ) (a : α) (entries : List (κ × α)) :
    (entries ++ [(k, a)]).lookup key = (entries.lookup key).or (if key = k then some a else none) := by
  induction entries with
  | nil => simp [lookup_cons]
  | cons e rest ih =>
    obtain ⟨k', b⟩ := e
    by_cases h : key = k' <;> simp [lookup_cons, h, ih]

theorem get?_insert (t : Table κ α) (k key : κ) (a : α) :
    (t.insert k a).get? key = if key = k then some a else t.get? key := by
  show (t.entriesBut k ++ [(k, a)]).lookup key = if key = k then some a else t.get? key
  have := lookup_entriesBut k key t.entries
  rw [lookup_append_single, entriesBut, this]
  by_cases h : key = k <;> simp [h, get?]

theorem get?_mapValues {β : Type} (t : Table κ α) (f : α → β) (k : κ) :
    (t.mapValues f).get? k = (t.get? k).map f := by
  show (t.entries.map fun e => (e.1, f e.2)).lookup k = (t.entries.lookup k).map f
  induction t.entries with
  | nil => rfl
  | cons e rest ih =>
    obtain ⟨k', a⟩ := e
    by_cases h : k = k' <;> simp [lookup_cons, h, ih]

end Table

end NoteRelay
