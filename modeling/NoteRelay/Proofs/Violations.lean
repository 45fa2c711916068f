import Mathlib.Data.List.Induction
import Mathlib.Data.List.Nodup
import NoteRelay.Violations
import NoteRelay.Proofs.Masking
import NoteRelay.Proofs.Text.Bytes

/-!
# What is reported of a tree of violations

A tree is reported by its leaves: all of them, each once, sorted by the bytes of their names, and
among leaves of one name in the order of the tree. So the order in which records list their fields
shows only among leaves of one name. The status has one detail for each item, and the code of its
name is that of the last entry made for it (`flattened`).

Which leaves a tree has is told by looking them up: each stands at a path of positions (`leafAt?`).
-/

namespace NoteRelay

namespace Violations

-- ---------------------------------------------------------------------------
-- Leaves by their paths
-- ---------------------------------------------------------------------------

/-- The leaf at a path: its field, and the rules that it breaks. A path takes one position for a
field of a record, and one more for an entry of a list. -/
def leafAt? : List Nat → List (String × Violations) → Option (String × List BrokenRule)
  | [], _ => none
  | i :: path, fields =>
    match fields[i]?, path with
    | some (field, rules broken), [] => some (field, broken)
    | some (_, record below), path => leafAt? path below
    | some (_, each entries), e :: path => entries[e]?.bind (leafAt? path)
    | _, _ => none

section
variable {field : String} {rest : List (String × Violations)} {i : Nat} {path : List Nat}

@[simp] theorem leafAt?_of_empty : leafAt? path [] = none := by
  cases path <;> rfl

@[simp] theorem leafAt?_behind (f : String × Violations) :
    leafAt? ((i + 1) :: path) (f :: rest) = leafAt? (i :: path) rest := by
  rw [leafAt?.eq_def, leafAt?.eq_def (i :: path)]
  simp only [List.getElem?_cons_succ]

@[simp] theorem leafAt?_rules {broken : List BrokenRule} :
    leafAt? (0 :: path) ((field, rules broken) :: rest) =
      if path = [] then some (field, broken) else none := by
  cases path <;> rfl

@[simp] theorem leafAt?_record {below : List (String × Violations)} :
    leafAt? (0 :: path) ((field, record below) :: rest) = leafAt? path below := by
  cases path <;> rfl

def leafAmong? (entries : List (List (String × Violations))) :
    List Nat → Option (String × List BrokenRule)
  | [] => none
  | e :: path => entries[e]?.bind (leafAt? path)

@[simp] theorem leafAt?_each {entries : List (List (String × Violations))} :
    leafAt? (0 :: path) ((field, each entries) :: rest) = leafAmong? entries path := by
  cases path <;> rfl

end

/-- What is reported of a leaf. A rule without a text of its own is told by its name. -/
def reported (leaf : String × List BrokenRule) : List Violation :=
  leaf.2.map fun b => ⟨leaf.1, match b.text with
    | some text => text
    | none => "invalid " ++ b.rule⟩

def itemsAt (fields : List (String × Violations)) (path : List Nat) : List Violation :=
  (leafAt? path fields).elim [] reported

/-- The violations are those of the leaves, each of which stands at one path. -/
def Gathers (leaf? : List Nat → Option (String × List BrokenRule)) (vs : List Violation) : Prop :=
  ∃ paths : List (List Nat), paths.Nodup ∧ (∀ path, path ∈ paths ↔ (leaf? path).isSome = true) ∧
    vs = paths.flatMap fun path => (leaf? path).elim [] reported

/-- The path behind one more sibling. -/
def behind : List Nat → List Nat
  | [] => []
  | i :: path => (i + 1) :: path

theorem behind_injective : Function.Injective behind := by
  rintro (_ | ⟨i, path⟩) (_ | ⟨j, path'⟩) h <;> simp_all [behind]

theorem mem_map_behind {paths : List (List Nat)} {i : Nat} {path : List Nat} :
    (i + 1) :: path ∈ paths.map behind ↔ i :: path ∈ paths :=
  List.mem_map_of_injective (a := i :: path) behind_injective

theorem gathers_none : Gathers (fun _ => none) [] :=
  ⟨[], by simp, by simp, rfl⟩

/-- The first of some siblings, and behind it the others. -/
theorem Gathers.cons {head rest leaf? : List Nat → Option (String × List BrokenRule)}
    {vs ws : List Violation} (hhead : Gathers head vs) (hrest : Gathers rest ws)
    (hnil : leaf? [] = none) (hnil' : rest [] = none)
    (hzero : ∀ path, leaf? (0 :: path) = head path)
    (hsucc : ∀ i path, leaf? ((i + 1) :: path) = rest (i :: path)) : Gathers leaf? (vs ++ ws) := by
  obtain ⟨paths, hnodup, hmem, rfl⟩ := hhead
  obtain ⟨paths', hnodup', hmem', rfl⟩ := hrest
  have hbehind : ∀ path, leaf? (behind path) = rest path := by
    rintro (_ | ⟨i, path⟩)
    · rw [behind, hnil, hnil']
    · exact hsucc i path
  have hne : ∀ path tail, behind path ≠ 0 :: tail := by
    rintro (_ | ⟨i, path⟩) tail <;> simp [behind]
  refine ⟨paths.map (0 :: ·) ++ paths'.map behind, ?_, ?_, ?_⟩
  · refine (hnodup.map List.cons_injective).append (hnodup'.map behind_injective) ?_
    simp only [List.disjoint_left, List.mem_map]
    rintro _ ⟨tail, -, rfl⟩ ⟨path, -, h⟩
    exact hne path tail h
  · rintro (_ | ⟨_ | i, path⟩)
    · have hnot : behind [] ∉ paths'.map behind := by
        simp [behind_injective.eq_iff, hmem', hnil']
      simpa [hnil, behind] using hnot
    · simp [hzero, hmem, hne]
    · rw [hsucc, ← hmem', List.mem_append, mem_map_behind]
      simp
  · simp [List.flatMap_map, hzero, hbehind]

-- ---------------------------------------------------------------------------
-- All leaves of a tree
-- ---------------------------------------------------------------------------

theorem reported_eq (field : String) (broken : List BrokenRule) :
    reported (field, broken) = broken.map fun b => ⟨field, b.reason⟩ := by
  refine List.map_congr_left fun b _ => ?_
  cases h : b.text <;> simp [BrokenRule.reason, h]

/-- The collected leaves of a tree are its leaves, each once. -/
theorem gathers_leaves (fields : List (String × Violations)) :
    Gathers (leafAt? · fields) (leaves.ofFields fields) := by
  induction fields using leaves.ofFields.induct
    (motive_2 := fun field below =>
      Gathers (fun path => leafAt? (0 :: path) [(field, below)]) (below.leaves field))
    (motive_3 := fun entries => Gathers (leafAmong? entries) (leaves.ofEntries entries)) with
  | case1 field broken =>
    refine ⟨[[]], by simp, by simp, ?_⟩
    simp [leaves, reported_eq]
  | case2 field fields ih => simpa [leaves] using ih
  | case3 field entries ih => simpa [leaves] using ih
  | case4 => simpa [leaves.ofFields] using gathers_none
  | case5 field below rest ihbelow ihrest =>
    rw [leaves.ofFields]
    refine ihbelow.cons ihrest rfl rfl (fun path => ?_) fun i path => leafAt?_behind _
    cases below <;> simp
  | case6 =>
    have hnone : leafAmong? [] = fun _ => none := by
      funext path
      cases path <;> rfl
    simpa [leaves.ofEntries, hnone] using gathers_none
  | case7 fields rest ihfields ihrest =>
    rw [leaves.ofEntries]
    exact ihfields.cons ihrest rfl rfl (fun path => rfl) fun i path => rfl

-- ---------------------------------------------------------------------------
-- Other orders of a tree
-- ---------------------------------------------------------------------------

/-- The fields of a record, or of records below it, stand in another order. -/
inductive Reordered : List (String × Violations) → List (String × Violations) → Prop where
  | fields {fs gs : List (String × Violations)} : fs.Perm gs → Reordered fs gs
  | trans {fs gs hs : List (String × Violations)} :
      Reordered fs gs → Reordered gs hs → Reordered fs hs
  | inRecord {fs gs : List (String × Violations)} (before after : List (String × Violations))
      (field : String) :
      Reordered fs gs →
        Reordered (before ++ (field, record fs) :: after) (before ++ (field, record gs) :: after)
  /-- The entries of a list have their order from the list. -/
  | inEntry {fs gs : List (String × Violations)} (before after : List (String × Violations))
      (field : String) (entries others : List (List (String × Violations))) :
      Reordered fs gs →
        Reordered (before ++ (field, each (entries ++ fs :: others)) :: after)
          (before ++ (field, each (entries ++ gs :: others)) :: after)

theorem ofFields_eq_flatMap (fields : List (String × Violations)) :
    leaves.ofFields fields = fields.flatMap fun f => f.2.leaves f.1 := by
  induction fields with
  | nil => rfl
  | cons f rest ih => simp [leaves.ofFields, ih]

theorem ofEntries_eq_flatMap (entries : List (List (String × Violations))) :
    leaves.ofEntries entries = entries.flatMap leaves.ofFields := by
  induction entries with
  | nil => rfl
  | cons fields rest ih => simp [leaves.ofEntries, ih]

theorem Reordered.leaves_perm {fs gs : List (String × Violations)} (h : Reordered fs gs) :
    (leaves.ofFields fs).Perm (leaves.ofFields gs) := by
  induction h with
  | fields h =>
    rw [ofFields_eq_flatMap, ofFields_eq_flatMap]
    exact h.flatMap_right _
  | trans _ _ ih ih' => exact ih.trans ih'
  | inRecord before after field _ ih =>
    simp only [ofFields_eq_flatMap, List.flatMap_append, List.flatMap_cons, leaves]
    simp only [← ofFields_eq_flatMap]
    exact (ih.append_right _).append_left _
  | inEntry before after field entries others _ ih =>
    simp only [ofFields_eq_flatMap (_ ++ _), List.flatMap_append, List.flatMap_cons, leaves,
      ofEntries_eq_flatMap]
    exact (((ih.append_right _).append_left _).append_right _).append_left _

-- ---------------------------------------------------------------------------
-- Sorted by field
-- ---------------------------------------------------------------------------

/-- Sorting keeps items in their order that the order of the sort does not tell apart. -/
theorem filter_mergeSort {α : Type} {le : α → α → Bool} {keep : α → Bool}
    (htrans : ∀ a b c, le a b = true → le b c = true → le a c = true)
    (htotal : ∀ a b, (le a b || le b a) = true)
    (hkeep : ∀ a b, keep a = true → keep b = true → le a b = true) (l : List α) :
    (l.mergeSort le).filter keep = l.filter keep := by
  have hsub : (l.filter keep).Sublist (l.mergeSort le) := by
    refine List.sublist_mergeSort htrans htotal ?_ List.filter_sublist
    refine List.pairwise_of_forall_mem_list fun a ha b hb => hkeep a b ?_ ?_
    · exact (List.mem_filter.mp ha).2
    · exact (List.mem_filter.mp hb).2
  have hsub' : (l.filter keep).Sublist ((l.mergeSort le).filter keep) := by
    simpa using hsub.filter keep
  exact (hsub'.eq_of_length ((l.mergeSort_perm le).filter keep).length_eq.symm).symm

section
variable {fields fields' : List (String × Violations)}

def byField (v w : Violation) : Bool :=
  !decide (w.field < v.field)

theorem byField_iff {v w : Violation} : byField v w = true ↔ v.field ≤ w.field := by
  rw [byField, Bool.not_eq_true', decide_eq_false_iff_not, not_lt]

theorem byField_trans (u v w : Violation) (h : byField u v = true) (h' : byField v w = true) :
    byField u w = true := by
  rw [byField_iff] at *
  exact h.trans h'

theorem byField_total (v w : Violation) : (byField v w || byField w v) = true := by
  simpa [byField_iff] using le_total v.field w.field

theorem flatten_perm : (flatten fields).Perm (leaves.ofFields fields) :=
  List.mergeSort_perm _ _

theorem flatten_sorted : (flatten fields).Pairwise fun v w => v.field ≤ w.field :=
  (List.pairwise_mergeSort byField_trans byField_total _).imp byField_iff.mp

theorem filter_flatten (name : String) :
    (flatten fields).filter (·.field = name) =
      (leaves.ofFields fields).filter (·.field = name) := by
  refine filter_mergeSort byField_trans byField_total (fun v w hv hw => ?_) _
  rw [byField_iff, of_decide_eq_true hv, of_decide_eq_true hw]

theorem exists_field_itemsAt (fields : List (String × Violations)) (path : List Nat) :
    ∃ name, ∀ v ∈ itemsAt fields path, v.field = name := by
  unfold itemsAt
  cases leafAt? path fields with
  | none => exact ⟨"", by simp⟩
  | some leaf => exact ⟨leaf.1, by simp +contextual [reported]⟩

/-- What is reported of one leaf stays in its order. -/
theorem itemsAt_sublist_flatten (path : List Nat) :
    (itemsAt fields path).Sublist (flatten fields) := by
  obtain ⟨paths, -, hmem, hleaves⟩ := gathers_leaves fields
  by_cases hpath : path ∈ paths
  · obtain ⟨name, hname⟩ := exists_field_itemsAt fields path
    have hsub : (itemsAt fields path).Sublist (leaves.ofFields fields) := by
      rw [hleaves, List.flatMap_def]
      exact List.sublist_flatten_of_mem (List.mem_map_of_mem hpath)
    have hfilter : (itemsAt fields path).filter (·.field = name) = itemsAt fields path :=
      List.filter_eq_self.mpr fun v hv => by simpa using hname v hv
    rw [← hfilter]
    refine (hsub.filter _).trans ?_
    rw [← filter_flatten]
    exact List.filter_sublist
  · have hnone : leafAt? path fields = none := by
      simpa [hmem] using hpath
    simp [itemsAt, hnone]

theorem Reordered.flatten_perm (h : Reordered fields fields') :
    (flatten fields').Perm (flatten fields) :=
  Violations.flatten_perm.trans (h.leaves_perm.symm.trans Violations.flatten_perm.symm)

/-- Sorted by field, two orders of one tree name the same fields at the same places. -/
theorem Reordered.fields_flatten (h : Reordered fields fields') :
    (flatten fields').map Violation.field = (flatten fields).map Violation.field := by
  refine (h.flatten_perm.map _).eq_of_pairwise (fun a b _ _ => le_antisymm) ?_ ?_ <;>
  exact List.pairwise_map.mpr flatten_sorted

end

end Violations

-- ---------------------------------------------------------------------------
-- Codes of fields
-- ---------------------------------------------------------------------------

namespace Rulebook

def Amendment.fieldCode? : Amendment → Option (String × DetailCode)
  | .rule _ _ => none
  | .fieldCode field code => some (field, code)

def fieldEntries (amendments : List Amendment) : List (String × DetailCode) :=
  [("text", .invalidText), ("correlation_id", .invalidCorrelationId)] ++
    amendments.filterMap Amendment.fieldCode?

def codeFor (amendments : List Amendment) (field : String) : DetailCode :=
  ((fieldEntries amendments).reverse.lookup field).getD .unknown

section
variable (amendments : List Amendment)

theorem codeFor_nil (field : String) : codeFor [] field = standardFieldCode field := by
  simp only [codeFor, fieldEntries, standardFieldCode]
  split
  · rfl
  · rfl
  · rename_i htext hid
    simp [List.lookup_cons, beq_false_of_ne htext, beq_false_of_ne hid]

theorem codeFor_rule (kind : Failure.Kind) (rule : Rule) (field : String) :
    codeFor (amendments ++ [.rule kind rule]) field = codeFor amendments field := by
  rw [codeFor, fieldEntries, List.filterMap_append]
  simp [codeFor, fieldEntries, List.filterMap, Amendment.fieldCode?]

theorem codeFor_fieldCode (name : String) (code : DetailCode) (field : String) :
    codeFor (amendments ++ [.fieldCode name code]) field =
      if field = name then code else codeFor amendments field := by
  rw [codeFor, fieldEntries, List.filterMap_append, ← List.append_assoc]
  by_cases h : field = name
  · simp [Amendment.fieldCode?, h]
  · simp [Amendment.fieldCode?, h, codeFor, fieldEntries, List.lookup_cons, beq_false_of_ne h]

theorem fieldCode_amended (field : String) :
    (amended amendments).fieldCode field = codeFor amendments field := by
  induction amendments using List.reverseRecOn with
  | nil => exact (codeFor_nil field).symm
  | append_singleton amendments a ih =>
    rw [amended, List.foldl_append, ← amended, List.foldl_cons, List.foldl_nil]
    cases a with
    | rule kind rule =>
      rw [codeFor_rule]
      exact ih
    | fieldCode name code =>
      rw [codeFor_fieldCode, ← ih]
      rfl

end

end Rulebook

-- ---------------------------------------------------------------------------
-- The report
-- ---------------------------------------------------------------------------

namespace Violations

/-- The failure of a tree has what is reported of its leaves, each at one path, nothing else and
nothing twice. What is reported of one leaf stays in its order, and the fields are in the order of
their bytes. Another order of the tree changes the order among items of one field at most. The
status has a detail for each item, under the code that the last entry for its field gives. -/
theorem flattened (fields : List (String × Violations)) :
    ∃ violations, toFailure fields = .validation violations ∧
      (∃ paths : List (List Nat), paths.Nodup ∧
        (∀ path, path ∈ paths ↔ (leafAt? path fields).isSome = true) ∧
        violations.Perm (paths.flatMap (itemsAt fields))) ∧
      (∀ path, (itemsAt fields path).Sublist violations) ∧
      violations.Pairwise (fun v w => Text.bytes v.field ≤ Text.bytes w.field) ∧
      (∀ fields' violations', Reordered fields fields' →
        toFailure fields' = .validation violations' →
          violations'.map Violation.field = violations.map Violation.field ∧
          ∀ name, (violations'.filter (·.field = name)).Perm
            (violations.filter (·.field = name))) ∧
      ∀ amendments, ((Rulebook.amended amendments).statusOf (toFailure fields)).details =
        violations.map fun v => ⟨Rulebook.codeFor amendments v.field, v.reason⟩ := by
  obtain ⟨paths, hnodup, hmem, hleaves⟩ := gathers_leaves fields
  refine ⟨flatten fields, rfl, ⟨paths, hnodup, hmem, ?_⟩, itemsAt_sublist_flatten, ?_, ?_, ?_⟩
  · exact flatten_perm.trans (.of_eq hleaves)
  · refine flatten_sorted.imp fun h => ?_
    rw [← List.not_lt, ← Text.lt_iff_bytes_lt, not_lt]
    exact h
  · rintro fields' _ horder ⟨⟩
    exact ⟨horder.fields_flatten, fun name => horder.flatten_perm.filter _⟩
  · intro amendments
    simp [Rulebook.statusOf, Rulebook.details, toFailure, Rulebook.fieldCode_amended]

def noText : String × Violations :=
  ("text", .rules [⟨"length", none⟩, ⟨"blank", some "no text"⟩])

def longText : String × Violations :=
  ("text", .rules [⟨"length", some "too long"⟩])

def takenId : String × Violations :=
  ("id", .rules [⟨"taken", none⟩])

/-- Texts of two parts and of a title, so that three leaves have one name. -/
def draft : List (String × Violations) :=
  [("parts", .each [[noText], [longText, takenId]]), ("title", .record [longText])]

def draftTurned : List (String × Violations) :=
  [("title", .record [longText]), ("parts", .each [[noText], [takenId, longText]])]

theorem draft_reordered : Reordered draft draftTurned := by
  have hpart : Reordered draft
      [("parts", .each [[noText], [takenId, longText]]), ("title", .record [longText])] :=
    .inEntry [] _ "parts" [[noText]] [] (.fields (.swap _ _ _))
  exact hpart.trans (.fields (.swap _ _ _))

/-- The two orders differ, and only among the texts. -/
theorem flattened_draft :
    Reordered draft draftTurned ∧
      toFailure draft = .validation [⟨"id", "invalid taken"⟩, ⟨"text", "invalid length"⟩,
        ⟨"text", "no text"⟩, ⟨"text", "too long"⟩, ⟨"text", "too long"⟩] ∧
      toFailure draftTurned = .validation [⟨"id", "invalid taken"⟩, ⟨"text", "too long"⟩,
        ⟨"text", "invalid length"⟩, ⟨"text", "no text"⟩, ⟨"text", "too long"⟩] ∧
      (flatten draftTurned).map Violation.field = (flatten draft).map Violation.field ∧
      ((flatten draftTurned).filter (·.field = "text")).Perm
        ((flatten draft).filter (·.field = "text")) ∧
      ((Rulebook.amended [.fieldCode "text" .business, .fieldCode "text" .internal]).statusOf
          (toFailure draft)).details =
        [⟨.unknown, "invalid taken"⟩, ⟨.internal, "invalid length"⟩, ⟨.internal, "no text"⟩,
          ⟨.internal, "too long"⟩, ⟨.internal, "too long"⟩] := by
  have hreports : toFailure draft = .validation [⟨"id", "invalid taken"⟩,
        ⟨"text", "invalid length"⟩, ⟨"text", "no text"⟩, ⟨"text", "too long"⟩,
        ⟨"text", "too long"⟩] ∧
      toFailure draftTurned = .validation [⟨"id", "invalid taken"⟩, ⟨"text", "too long"⟩,
        ⟨"text", "invalid length"⟩, ⟨"text", "no text"⟩, ⟨"text", "too long"⟩] := by
    simp [toFailure, flatten, draft, draftTurned, noText, longText, takenId, leaves,
      leaves.ofFields, leaves.ofEntries, BrokenRule.reason, List.mergeSort,
      List.MergeSort.Internal.splitInTwo, -String.lt_iff_ltb]
  obtain ⟨_, ⟨⟩, -, -, -, horders, hcodes⟩ := flattened draft
  obtain ⟨hfields, hperm⟩ := horders draftTurned _ draft_reordered rfl
  refine ⟨draft_reordered, hreports.1, hreports.2, hfields, hperm "text", ?_⟩
  rw [hcodes, Failure.validation.inj hreports.1]
  rfl

end Violations

end NoteRelay
