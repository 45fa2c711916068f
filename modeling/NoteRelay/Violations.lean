import NoteRelay.Failure

/-!
# Trees of violations

Checking a nested value yields a tree: fields with the rules they break, nested records, and lists
of records. It is reported flat, by the names of the leaves in byte order.
-/

namespace NoteRelay

structure BrokenRule where
  rule : String
  text : Option String
  deriving DecidableEq, Repr

def BrokenRule.reason (b : BrokenRule) : String :=
  b.text.getD ("invalid " ++ b.rule)

inductive Violations where
  | rules (broken : List BrokenRule)
  | record (fields : List (String × Violations))
  | each (entries : List (List (String × Violations)))
  deriving Repr

namespace Violations

/-- The leaves below a field, from left to right. Only the name of the leaf is kept. -/
def leaves (field : String) : Violations → List Violation
  | rules broken => broken.map fun b => ⟨field, b.reason⟩
  | record fields => ofFields fields
  | each entries => ofEntries entries
where
  ofFields : List (String × Violations) → List Violation
    | [] => []
    | (field, below) :: rest => below.leaves field ++ ofFields rest
  ofEntries : List (List (String × Violations)) → List Violation
    | [] => []
    | fields :: rest => ofFields fields ++ ofEntries rest

/-- All leaves of a record, sorted by field. Leaves of one field keep their order. -/
def flatten (fields : List (String × Violations)) : List Violation :=
  (leaves.ofFields fields).mergeSort fun a b => !decide (b.field < a.field)

def toFailure (fields : List (String × Violations)) : Failure :=
  .validation (flatten fields)

end Violations

end NoteRelay
