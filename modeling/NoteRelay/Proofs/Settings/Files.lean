import NoteRelay.Proofs.Settings.Layers
import NoteRelay.Settings.Load

/-!
# Every key once

Whatever a file of settings says more than once, its tree has each key once in every table. In JSON
and YAML a later entry replaces an earlier one; in TOML a key that is there is not added again
(`Settings.distinct_fileTree?`).
-/

namespace NoteRelay

-- ---------------------------------------------------------------------------
-- JSON
-- ---------------------------------------------------------------------------

namespace Tree

/-- What some JSON value says. -/
def IsOfJson (t : Tree) : Prop :=
  ∃ j, ofJson? j = some t

theorem eachOnce_of_membersOfJson? {members : List (String × Json)}
    {read out : List (String × Tree)} (hread : EachOnce IsOfJson read)
    (h : ofJson?.membersOfJson? members read = some out) : EachOnce IsOfJson out := by
  induction members generalizing read with
  | nil =>
    rw [ofJson?.membersOfJson?, Option.some.injEq] at h
    exact h ▸ hread
  | cons member rest ih =>
    obtain ⟨key, j⟩ := member
    rw [ofJson?.membersOfJson?, Option.bind_eq_bind, Option.bind_eq_some_iff] at h
    obtain ⟨tree, htree, hrest⟩ := h
    exact ih (hread.put ⟨j, htree⟩) hrest

theorem real?_ne_table {lexeme : List Char} {entries : List (String × Tree)} :
    ofJson?.real? lexeme ≠ some (.table entries) := by
  unfold ofJson?.real?
  split <;> simp

theorem distinct_ofJson? {j : Json} {t : Tree} (h : ofJson? j = some t) : t.Distinct := by
  refine distinct_of_closed (P := IsOfJson) ?_ ⟨j, h⟩
  rintro entries ⟨j, h⟩
  cases j with
  | object members =>
    rw [ofJson?, Option.map_eq_some_iff] at h
    obtain ⟨out, hout, heq⟩ := h
    cases heq
    exact eachOnce_of_membersOfJson? .nil hout
  | number lexeme =>
    unfold ofJson? at h
    split at h
    · split at h
      · cases h
      · exact absurd h real?_ne_table
    · exact absurd h real?_ne_table
  | array items =>
    rw [ofJson?, Option.map_eq_some_iff] at h
    obtain ⟨_, -, heq⟩ := h
    cases heq
  | _ => cases h

end Tree

-- ---------------------------------------------------------------------------
-- YAML
-- ---------------------------------------------------------------------------

namespace Yaml

open NoteRelay.Tree (EachOnce)

variable {entries : List (String × Tree)}

/-- What some node says. -/
def IsOfNode (t : Tree) : Prop :=
  ∃ (node : Node) (depth left rest : Nat), node.toTree? depth left = some (t, rest)

theorem treeOfWhole_ne_table (i : Int) : treeOfWhole i ≠ .table entries := by
  unfold treeOfWhole
  split <;> simp

theorem resolve_ne_table (s : String) : resolve s ≠ .table entries := by
  have hwhole (i : Int) : treeOfWhole i ≠ .table entries := treeOfWhole_ne_table i
  unfold resolve
  split_ifs
  · simp
  · split
    · simp
    · split
      · exact hwhole _
      · simp
  · split
    · simp
    · split
      · exact hwhole _
      · simp

theorem taggedScalar?_ne_table (tag text : String) :
    Node.taggedScalar? tag text ≠ some (.table entries) := by
  unfold Node.taggedScalar?
  split
  · simp
  · simp [treeOfWhole_ne_table]
  · split <;> simp
  · split <;> simp
  · simp

theorem eachOnce_of_entriesToTree? {written : List (Node × Node)} {read out : List (String × Tree)}
    {depth left rest : Nat} (hread : EachOnce IsOfNode read)
    (h : Node.toTree?.entriesToTree? written read depth left = some (out, rest)) :
    EachOnce IsOfNode out := by
  induction written generalizing read left with
  | nil =>
    rw [Node.toTree?.entriesToTree?] at h
    cases h
    exact hread
  | cons entry written ih =>
    obtain ⟨key, value⟩ := entry
    simp only [Node.toTree?.entriesToTree?, Option.bind_eq_bind, Option.bind_eq_some_iff,
      Prod.exists] at h
    obtain ⟨text, afterKey, -, tree, after, htree, hrest⟩ := h
    exact ih (hread.put ⟨value, depth, afterKey, after, htree⟩) hrest

/-- A reference says what its target says; only tables say a table. -/
theorem eachOnce_of_toTree? : ∀ (node : Node) (depth left rest : Nat),
    node.toTree? depth left = some (.table entries, rest) → EachOnce IsOfNode entries
  | .reference target, depth, 0, rest, h => by simp [Node.toTree?] at h
  | .reference target, depth, left + 1, rest, h => by
    rw [Node.toTree?] at h
    exact eachOnce_of_toTree? target depth left rest h
  | .table tag written, 0, left, rest, h => by simp [Node.toTree?] at h
  | .table tag written, depth + 1, left, rest, h => by
    unfold Node.toTree? at h
    split at h
    · cases h
    · rw [Option.map_eq_some_iff] at h
      obtain ⟨⟨out, after⟩, hout, heq⟩ := h
      cases heq
      exact eachOnce_of_entriesToTree? .nil hout
  | .list tag items, 0, left, rest, h => by simp [Node.toTree?] at h
  | .list tag items, depth + 1, left, rest, h => by
    unfold Node.toTree? at h
    split at h
    · cases h
    · simp at h
  | .scalar none true text, depth, left, rest, h => by
    simp [Node.toTree?, resolve_ne_table] at h
  | .scalar none false text, depth, left, rest, h => by
    simp [Node.toTree?] at h
  | .scalar (some tag) plain text, depth, left, rest, h => by
    unfold Node.toTree? at h
    split at h
    · cases h
    · rw [Option.map_eq_some_iff] at h
      obtain ⟨tree, htree, heq⟩ := h
      cases heq
      exact absurd htree (taggedScalar?_ne_table tag text)

theorem distinct_meaning? {node : Node} {t : Tree} (h : node.meaning? = some t) : t.Distinct := by
  rw [Node.meaning?, Option.map_eq_some_iff] at h
  obtain ⟨⟨tree, rest⟩, htree, rfl⟩ := h
  refine Tree.distinct_of_closed (P := IsOfNode) ?_ ⟨node, _, _, rest, htree⟩
  rintro entries ⟨node, depth, left, rest, h⟩
  exact eachOnce_of_toTree? node depth left rest h

theorem distinct_tree? {content : String} {t : Tree} (h : tree? content = some t) :
    t.IsTable ∧ t.Distinct := by
  rw [tree?, Option.bind_eq_bind, Option.bind_eq_some_iff] at h
  obtain ⟨node, -, h⟩ := h
  split at h
  · cases h
    exact ⟨trivial, Tree.distinct_table_iff.mpr .nil⟩
  · rw [Option.bind_eq_bind, Option.bind_eq_some_iff] at h
    obtain ⟨tree, htree, h⟩ := h
    split at h
    · cases h
      exact ⟨trivial, distinct_meaning? htree⟩
    · cases h

end Yaml

-- ---------------------------------------------------------------------------
-- TOML
-- ---------------------------------------------------------------------------

namespace Toml

open NoteRelay.Tree (EachOnce)

/-- A node whose tables, those in lists apart, have every key once. -/
def Node.Distinct (node : Node) : Prop :=
  node.toTree.Distinct

def Section.Distinct (s : Section) : Prop :=
  EachOnce Node.Distinct s.entries

theorem entriesToTree_eq (entries : List (String × Node)) :
    Node.toTree.entriesToTree entries = entries.map fun e => (e.1, e.2.toTree) := by
  induction entries with
  | nil => rfl
  | cons e rest ih => rw [Node.toTree.entriesToTree, ih, List.map_cons]

theorem distinct_table_iff {origin : Origin} {entries : List (String × Node)} :
    (Node.table origin entries).Distinct ↔ EachOnce Node.Distinct entries := by
  rw [Node.Distinct, Node.toTree, entriesToTree_eq, Tree.distinct_table_iff]
  constructor
  · rintro ⟨hnodup, hsort⟩
    refine ⟨by simpa [Function.comp_def] using hnodup, fun e he => ?_⟩
    exact hsort (e.1, e.2.toTree) (List.mem_map_of_mem (f := fun e => (e.1, e.2.toTree)) he)
  · rintro ⟨hnodup, hsort⟩
    refine ⟨by simpa [Function.comp_def] using hnodup, fun e he => ?_⟩
    obtain ⟨inner, hinner, rfl⟩ := List.mem_map.mp he
    exact hsort inner hinner

theorem distinct_tables (earlier : List (List (String × Node))) (last : List (String × Node)) :
    (Node.tables earlier last).Distinct :=
  Tree.distinct_of_not_isTable (by simp [Node.toTree, Tree.IsTable])

namespace Section.Distinct

variable {s s' : Section} {path : List String} {tree : Tree}

theorem fresh (origin : Origin) : Section.Distinct ⟨origin, []⟩ :=
  EachOnce.nil

/-- A change at the end of a path is felt on the way to it and nowhere else. -/
theorem modifyAt {maker : Origin} {change : Section → Option Section}
    (hchange : ∀ s s', Section.Distinct s → change s = some s' → s'.Distinct)
    (hs : s.Distinct) (h : s.modifyAt maker change path = some s') : s'.Distinct := by
  induction path generalizing s s' with
  | nil =>
    rw [Section.modifyAt] at h
    exact hchange s s' hs h
  | cons key path ih =>
    rw [Section.modifyAt] at h
    split at h
    · obtain ⟨made, hmade, heq⟩ := Option.bind_eq_some_iff.mp h
      cases heq
      exact EachOnce.put hs (distinct_table_iff.mpr (ih (fresh maker) hmade))
    · cases h
    · obtain ⟨made, -, heq⟩ := Option.bind_eq_some_iff.mp h
      cases heq
      exact EachOnce.put hs (distinct_tables _ _)
    · rename_i origin entries hlookup
      have hentries : Section.Distinct ⟨origin, entries⟩ :=
        distinct_table_iff.mp (EachOnce.of_lookup hs hlookup)
      split at h
      · cases h
      · obtain ⟨made, hmade, heq⟩ := Option.bind_eq_some_iff.mp h
        cases heq
        exact EachOnce.put hs (distinct_table_iff.mpr (ih hentries hmade))

theorem add {behindPath : Bool} {key : String} (hs : s.Distinct) (htree : tree.Distinct)
    (h : s.add behindPath key tree = some s') : s'.Distinct := by
  unfold Section.add at h
  split at h
  · cases h
  · split at h
    · cases h
    · rename_i hnew
      cases h
      exact EachOnce.concat hs (Option.not_isSome_iff_eq_none.mp hnew) htree

theorem addAt (hs : s.Distinct) (htree : tree.Distinct) (h : s.addAt path tree = some s') :
    s'.Distinct := by
  unfold Section.addAt at h
  split at h
  · cases h
  · exact modifyAt (fun _ _ hs h => add hs htree h) hs h

theorem openTable (hs : s.Distinct) (h : s.openTable path = some s') : s'.Distinct := by
  unfold Section.openTable at h
  split at h
  · cases h
  · refine modifyAt (fun s s' hs h => ?_) hs h
    split at h
    · rename_i hnew
      cases h
      exact EachOnce.concat hs hnew (distinct_table_iff.mpr .nil)
    · rename_i entries hlookup
      cases h
      exact EachOnce.put hs
        (distinct_table_iff.mpr (distinct_table_iff.mp (EachOnce.of_lookup hs hlookup)))
    · cases h

theorem openListed (hs : s.Distinct) (h : s.openListed path = some s') : s'.Distinct := by
  unfold Section.openListed at h
  split at h
  · cases h
  · refine modifyAt (fun s s' hs h => ?_) hs h
    split at h
    · rename_i hnew
      cases h
      exact EachOnce.concat hs hnew (distinct_tables _ _)
    · cases h
      exact EachOnce.put hs (distinct_tables _ _)
    · cases h

end Section.Distinct

theorem inInt64_ne_table {i : Int} {entries : List (String × Tree)} :
    inInt64 i ≠ some (.table entries) := by
  unfold inInt64
  split <;> simp

theorem integer?_ne_table {cs : List Char} {entries : List (String × Tree)} :
    integer? cs ≠ some (.table entries) := by
  unfold integer? radixRun?
  split
  all_goals
    split
    · exact inInt64_ne_table
    · simp

theorem float?_ne_table {cs : List Char} {entries : List (String × Tree)} :
    float? cs ≠ some (.table entries) := by
  unfold float?
  dsimp only
  split_ifs <;> simp

theorem distinct_dateTree : dateTree.Distinct := by
  have hplain : (Tree.text "").Distinct := Tree.distinct_of_not_isTable id
  exact Tree.distinct_table_iff.mpr (EachOnce.nil.concat rfl hplain)

theorem distinct_number? {cs rest : List Char} {tree : Tree} (h : number? cs = some (tree, rest)) :
    tree.Distinct := by
  unfold number? at h
  split at h
  · obtain ⟨_, -, heq⟩ := Option.map_eq_some_iff.mp h
    cases heq
    exact distinct_dateTree
  · split at h
    · cases h
      exact distinct_dateTree
    · obtain ⟨read, hread, heq⟩ := Option.map_eq_some_iff.mp h
      cases heq
      refine Tree.distinct_of_not_isTable fun htable => ?_
      obtain ⟨entries, rfl⟩ := htable.exists_eq
      cases hinteger : integer? (cs.takeWhile isWordChar) with
      | some whole =>
        rw [hinteger] at hread
        exact integer?_ne_table (hinteger.trans hread)
      | none =>
        rw [hinteger] at hread
        exact float?_ne_table hread

/-- What is read with so much fuel has every key once. -/
def ValuesDistinct (fuel : Nat) : Prop :=
  ∀ depth cs tree rest, value? fuel depth cs = some (tree, rest) → tree.Distinct

def EntriesDistinct (fuel : Nat) : Prop :=
  ∀ depth (s : Section) cs s' rest, s.Distinct →
    inlineEntries? fuel depth s cs = some (s', rest) → s'.Distinct

theorem valuesDistinct_succ {fuel : Nat} (hentries : EntriesDistinct fuel) :
    ValuesDistinct (fuel + 1) := by
  intro depth cs tree rest h
  unfold value? at h
  split at h
  · obtain ⟨_, -, heq⟩ := Option.map_eq_some_iff.mp h
    cases heq
    exact Tree.distinct_of_not_isTable id
  · obtain ⟨_, -, heq⟩ := Option.map_eq_some_iff.mp h
    cases heq
    exact Tree.distinct_of_not_isTable id
  · split at h
    · cases h
    · obtain ⟨_, -, heq⟩ := Option.map_eq_some_iff.mp h
      cases heq
      exact Tree.distinct_of_not_isTable id
  -- An inline table, which may be empty.
  · split at h
    · cases h
    · split at h
      · cases h
        exact Tree.distinct_table_iff.mpr .nil
      · obtain ⟨⟨made, _⟩, hmade, heq⟩ := Option.bind_eq_some_iff.mp h
        cases heq
        exact distinct_table_iff.mpr (hentries _ _ _ made _ (Section.Distinct.fresh .header) hmade)
  · cases h
    exact Tree.distinct_of_not_isTable id
  · cases h
    exact Tree.distinct_of_not_isTable id
  · exact distinct_number? h

theorem entriesDistinct_succ {fuel : Nat} (hvalues : ValuesDistinct fuel)
    (hentries : EntriesDistinct fuel) : EntriesDistinct (fuel + 1) := by
  intro depth s cs s' rest hs h
  rw [inlineEntries?] at h
  obtain ⟨⟨path, afterPath⟩, -, h⟩ := Option.bind_eq_some_iff.mp h
  dsimp only at h
  split at h
  · obtain ⟨⟨item, afterItem⟩, hitem, h⟩ := Option.bind_eq_some_iff.mp h
    obtain ⟨added, hadded, h⟩ := Option.bind_eq_some_iff.mp h
    have hdistinct : added.Distinct := hs.addAt (hvalues _ _ item afterItem hitem) hadded
    dsimp only at h
    split at h
    · exact hentries _ _ _ s' rest hdistinct h
    · cases h
      exact hdistinct
    · cases h
  · cases h

theorem distinct_of_fuel (fuel : Nat) : ValuesDistinct fuel ∧ EntriesDistinct fuel := by
  induction fuel with
  | zero =>
    constructor
    · intro depth cs tree rest h
      rw [value?] at h
      cases h
    · intro depth s cs s' rest hs h
      rw [inlineEntries?] at h
      cases h
  | succ fuel ih => exact ⟨valuesDistinct_succ ih.2, entriesDistinct_succ ih.1 ih.2⟩

theorem distinct_statement? {d d' : Document} {cs rest : List Char} (hd : d.root.Distinct)
    (h : d.statement? cs = some (d', rest)) : d'.root.Distinct := by
  unfold Document.statement? at h
  split at h
  · obtain ⟨⟨path, after⟩, -, h⟩ := Option.bind_eq_some_iff.mp h
    obtain ⟨root, hroot, heq⟩ := Option.bind_eq_some_iff.mp h
    cases heq
    exact hd.openListed hroot
  · obtain ⟨⟨path, after⟩, -, h⟩ := Option.bind_eq_some_iff.mp h
    obtain ⟨root, hroot, heq⟩ := Option.bind_eq_some_iff.mp h
    cases heq
    exact hd.openTable hroot
  · obtain ⟨⟨path, afterPath⟩, -, h⟩ := Option.bind_eq_some_iff.mp h
    dsimp only at h
    split at h
    · obtain ⟨⟨item, afterItem⟩, hitem, h⟩ := Option.bind_eq_some_iff.mp h
      obtain ⟨afterLine, -, h⟩ := Option.bind_eq_some_iff.mp h
      obtain ⟨root, hroot, heq⟩ := Option.bind_eq_some_iff.mp h
      cases heq
      have hdistinct : item.Distinct := (distinct_of_fuel _).1 _ _ item afterItem hitem
      exact Section.Distinct.modifyAt (fun _ _ hs h => hs.addAt hdistinct h) hd hroot
    · cases h

theorem distinct_statements? {fuel : Nat} {d d' : Document} {cs : List Char}
    (hd : d.root.Distinct) (h : Document.statements? fuel d cs = some d') : d'.root.Distinct := by
  induction fuel generalizing d cs with
  | zero =>
    rw [Document.statements?] at h
    cases h
  | succ fuel ih =>
    rw [Document.statements?] at h
    split at h
    · cases h
      exact hd
    · obtain ⟨⟨next, rest⟩, hnext, h⟩ := Option.bind_eq_some_iff.mp h
      exact ih (distinct_statement? hd hnext) h

theorem distinct_tree? {content : String} {t : Tree} (h : tree? content = some t) :
    t.IsTable ∧ t.Distinct := by
  unfold tree? at h
  obtain ⟨d, hd, heq⟩ := Option.bind_eq_some_iff.mp h
  cases heq
  refine ⟨trivial, distinct_table_iff.mpr ?_⟩
  exact distinct_statements? (Section.Distinct.fresh .header) hd

end Toml

-- ---------------------------------------------------------------------------
-- Files
-- ---------------------------------------------------------------------------

theorem FileFormat.distinct_tree? {format : FileFormat} {content : String} {t : Tree}
    (h : format.tree? content = some t) : t.IsTable ∧ t.Distinct := by
  cases format with
  | toml => exact Toml.distinct_tree? h
  | yaml => exact Yaml.distinct_tree? h
  | json =>
    rw [tree?] at h
    obtain ⟨j, -, h⟩ := Option.bind_eq_some_iff.mp h
    split at h
    · cases h
    · obtain ⟨tree, htree, h⟩ := Option.bind_eq_some_iff.mp h
      split at h
      · cases h
        exact ⟨trivial, Tree.distinct_ofJson? htree⟩
      · cases h

/-- The layer of a file is a table, and has every key once wherever there is a table. -/
theorem Settings.distinct_fileTree? {file : Option SettingsFile} {t : Tree}
    (h : fileTree? file = some t) : t.IsTable ∧ t.Distinct := by
  cases file with
  | none =>
    cases h
    exact ⟨trivial, Tree.distinct_table_iff.mpr .nil⟩
  | some file => exact FileFormat.distinct_tree? h

end NoteRelay
