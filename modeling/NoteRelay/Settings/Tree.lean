/-!
# Untyped settings

What a source of settings says, before it is given types: the common ground of the file formats
and the environment. Layers are laid over each other with `merge`, key by key:
tables are merged, and anything else is replaced.
-/

namespace NoteRelay

inductive Tree where
  | empty
  | bool (value : Bool)
  /-- A whole number of 64 bits, with or without a sign. -/
  | whole (value : Int)
  /-- Any other number. No setting takes one, so its value is not kept. -/
  | otherNumber
  | char (value : Char)
  | text (value : String)
  | list (items : List Tree)
  | table (entries : List (String × Tree))
  deriving Repr, Inhabited

namespace Tree

/-- Whether a tree can hold a whole number: one of 64 bits, with a sign or without. -/
def canHold (i : Int) : Bool :=
  Int64.minValue.toInt ≤ i && i < UInt64.size

/-- Puts an entry in place of the one under its key, or behind all entries. -/
def put {α : Type} (key : String) (value : α) : List (String × α) → List (String × α)
  | [] => [(key, value)]
  | (k, v) :: rest => if k = key then (k, value) :: rest else (k, v) :: put key value rest

theorem lookup_put {α : Type} (key k : String) (value : α) (entries : List (String × α)) :
    (put key value entries).lookup k = if k = key then some value else entries.lookup k := by
  induction entries with
  | nil =>
    by_cases h : k = key
    · simp [put, h]
    · simp [put, List.lookup_cons, beq_eq_false_iff_ne.mpr h, h]
  | cons entry rest ih =>
    obtain ⟨k', v'⟩ := entry
    by_cases hk : k' = key
    · subst hk
      by_cases h : k = k'
      · simp [put, h]
      · simp [put, List.lookup_cons, beq_eq_false_iff_ne.mpr h, h]
    · by_cases h : k = k'
      · subst h; simp [put, hk]
      · simp [put, hk, List.lookup_cons, beq_eq_false_iff_ne.mpr h, ih]

def merge (below : Tree) : Tree → Tree
  | table above =>
    match below with
    | table entries => table (mergeEntries entries above)
    | _ => table above
  | above => above
where
  mergeEntries (below : List (String × Tree)) : List (String × Tree) → List (String × Tree)
    | [] => below
    | (key, above) :: rest =>
      let merged := match below.lookup key with
        | some tree => tree.merge above
        | none => above
      mergeEntries (put key merged below) rest

end Tree

end NoteRelay
