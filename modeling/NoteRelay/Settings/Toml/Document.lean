import NoteRelay.Settings.Toml.Scalar

/-!
# TOML documents

A document is a run of statements: headers that open a table, and entries that go into the table
opened last. `Section` keeps, beside the entries of a table, how the table came to be, since that
decides what may still be added to it.
-/

namespace NoteRelay.Toml

/-- How a table came to be: by a header of its own, as a step in the path of a header, or as a step
in the path of an entry. -/
inductive Origin where
  | header
  | implied
  | entry
  deriving DecidableEq, Repr

inductive Node where
  | value (tree : Tree)
  | table (origin : Origin) (entries : List (String × Node))
  /-- A list of tables, of which only the last can grow. -/
  | tables (earlier : List (List (String × Node))) (last : List (String × Node))
  deriving Inhabited

namespace Node

def toTree : Node → Tree
  | value tree => tree
  | table _ entries => .table (entriesToTree entries)
  | tables earlier last => .list (tablesToTree earlier ++ [.table (entriesToTree last)])
where
  entriesToTree : List (String × Node) → List (String × Tree)
    | [] => []
    | (key, node) :: rest => (key, node.toTree) :: entriesToTree rest
  tablesToTree : List (List (String × Node)) → List Tree
    | [] => []
    | entries :: rest => .table (entriesToTree entries) :: tablesToTree rest

end Node

structure Section where
  origin : Origin
  entries : List (String × Node)

/-- Changes the table at the end of a path, making the tables on the way that are missing. An
entry's path does not lead through a table that has a header of its own. -/
def Section.modifyAt (maker : Origin) (change : Section → Option Section) :
    List String → Section → Option Section
  | [], s => change s
  | key :: path, s => do
    let node ← match s.entries.lookup key with
      | none => do
        let made ← modifyAt maker change path ⟨maker, []⟩
        some (Node.table made.origin made.entries)
      | some (.value _) => none
      | some (.tables earlier last) => do
        let made ← modifyAt maker change path ⟨.header, last⟩
        some (Node.tables earlier made.entries)
      | some (.table origin entries) =>
        if maker = .entry ∧ origin = .header then none
        else do
          let made ← modifyAt maker change path ⟨origin, entries⟩
          some (Node.table made.origin made.entries)
    return { s with entries := Tree.put key node s.entries }

/-- Adds an entry under a new key. Behind a path the table has to be one of paths. -/
def Section.add (behindPath : Bool) (key : String) (tree : Tree) (s : Section) : Option Section :=
  if (s.origin = .entry) != behindPath then none
  else if (s.entries.lookup key).isSome then none
  else some { s with entries := s.entries ++ [(key, .value tree)] }

def Section.addAt (path : List String) (tree : Tree) (s : Section) : Option Section :=
  match path.getLast? with
  | none => none
  | some key =>
    let way := path.dropLast
    s.modifyAt .entry (Section.add (!way.isEmpty) key tree) way

def Section.openTable (path : List String) (s : Section) : Option Section :=
  match path.getLast? with
  | none => none
  | some key =>
    let opened (s : Section) : Option Section :=
      match s.entries.lookup key with
      | none => some { s with entries := s.entries ++ [(key, .table .header [])] }
      | some (.table .implied entries) =>
        some { s with entries := Tree.put key (.table .header entries) s.entries }
      | some _ => none
    s.modifyAt .implied opened path.dropLast

def Section.openListed (path : List String) (s : Section) : Option Section :=
  match path.getLast? with
  | none => none
  | some key =>
    let opened (s : Section) : Option Section :=
      match s.entries.lookup key with
      | none => some { s with entries := s.entries ++ [(key, .tables [] [])] }
      | some (.tables earlier last) =>
        some { s with entries := Tree.put key (.tables (earlier ++ [last]) []) s.entries }
      | some _ => none
    s.modifyAt .implied opened path.dropLast

/-- The lists and inline tables that may stand in each other. -/
def deepest : Nat :=
  79

def longestPath : Nat :=
  79

def path? (cs : List Char) : Option (List String × List Char) :=
  (keyPath? (cs.length + 1) cs).filter fun (path, _) => path.length ≤ longestPath

mutual

/-- A value, and what follows it, with at most `depth` lists and inline tables in each other. -/
def value? : (fuel depth : Nat) → List Char → Option (Tree × List Char)
  | 0, _, _ => none
  | fuel + 1, depth, cs =>
    match cs with
    | '"' :: _ => (string? cs).map fun (s, rest) => (.text (String.ofList s), rest)
    | '\x27' :: _ => (string? cs).map fun (s, rest) => (.text (String.ofList s), rest)
    | '[' :: rest =>
      if depth = 0 then none
      else (items? fuel (depth - 1) rest).map fun (ts, rest) => (.list ts, rest)
    | '\x7b' :: rest =>
      if depth = 0 then none
      else
        match skipBlanks rest with
        | '\x7d' :: rest => some (.table [], rest)
        | _ => do
          let (made, rest) ← inlineEntries? fuel (depth - 1) ⟨.header, []⟩ rest
          return ((Node.table made.origin made.entries).toTree, rest)
    | 't' :: 'r' :: 'u' :: 'e' :: rest => some (.bool true, rest)
    | 'f' :: 'a' :: 'l' :: 's' :: 'e' :: rest => some (.bool false, rest)
    | cs => number? cs

def items? : (fuel depth : Nat) → List Char → Option (List Tree × List Char)
  | 0, _, _ => none
  | fuel + 1, depth, cs =>
    match skipLines (cs.length + 1) cs with
    | ']' :: rest => some ([], rest)
    | cs => do
      let (item, rest) ← value? fuel depth cs
      match skipLines (rest.length + 1) rest with
      | ',' :: rest =>
        let (items, rest) ← items? fuel depth rest
        return (item :: items, rest)
      | ']' :: rest => return ([item], rest)
      | _ => none

def inlineEntries? : (fuel depth : Nat) → Section → List Char → Option (Section × List Char)
  | 0, _, _, _ => none
  | fuel + 1, depth, s, cs => do
    let (path, rest) ← path? cs
    match rest with
    | '=' :: rest =>
      let (item, rest) ← value? fuel depth (skipBlanks rest)
      let s ← s.addAt path item
      match skipBlanks rest with
      | ',' :: rest => inlineEntries? fuel depth s rest
      | '\x7d' :: rest => return (s, rest)
      | _ => none
    | _ => none

end

structure Document where
  root : Section
  current : List String

def headerPath? (closing : List Char) (cs : List Char) : Option (List String × List Char) := do
  let (path, rest) ← path? cs
  if closing.isPrefixOf rest then
    let rest ← dropLine? (rest.drop closing.length)
    return (path, rest)
  else none

def Document.statement? (d : Document) (cs : List Char) : Option (Document × List Char) :=
  match cs with
  | '[' :: '[' :: rest => do
    let (path, rest) ← headerPath? [']', ']'] rest
    let root ← d.root.openListed path
    return (⟨root, path⟩, rest)
  | '[' :: rest => do
    let (path, rest) ← headerPath? [']'] rest
    let root ← d.root.openTable path
    return (⟨root, path⟩, rest)
  | cs => do
    let (path, rest) ← path? cs
    match rest with
    | '=' :: rest =>
      let (item, rest) ← value? (2 * cs.length + 2) deepest (skipBlanks rest)
      let rest ← dropLine? rest
      let root ← d.root.modifyAt .implied (Section.addAt path item) d.current
      return ({ d with root }, rest)
    | _ => none

def Document.statements? : Nat → Document → List Char → Option Document
  | 0, _, _ => none
  | fuel + 1, d, cs =>
    match skipLines (cs.length + 1) cs with
    | [] => some d
    | cs => do
      let (d, rest) ← d.statement? cs
      statements? fuel d rest

/-- The tree of a document. A byte order mark may stand in front. -/
def tree? (content : String) : Option Tree := do
  let cs := match content.toList with
    | '\uFEFF' :: rest => rest
    | cs => cs
  let d ← Document.statements? (cs.length + 1) ⟨⟨.header, []⟩, []⟩ cs
  return (Node.table d.root.origin d.root.entries).toTree

end NoteRelay.Toml
