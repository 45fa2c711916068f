import NoteRelay.Settings.Yaml.Scalar

/-!
# YAML documents

Collections in blocks, where indentation says what belongs together, and in brackets. Values are
read as `Node`, which keeps the written text of scalars, since a key is its text whatever it would
stand for as a value; `Node.toTree?` gives them their meaning, as long as what the references of a
document unfold to is neither too deep nor too large.
-/

namespace NoteRelay.Yaml

inductive Node where
  | scalar (tag : Option String) (plain : Bool) (text : String)
  /-- A name that stands for an anchored node. -/
  | reference (target : Node)
  | list (tag : Option String) (items : List Node)
  | table (tag : Option String) (entries : List (Node × Node))
  deriving Inhabited

namespace Node

def absent : Node :=
  scalar none true ""

def isForeign : Option String → Bool
  | some tag => !("!!".isPrefixOf tag)
  | none => false

def taggedScalar? (tag text : String) : Option Tree :=
  match tag with
  | "!!bool" => (flag? text).map .bool
  | "!!int" => (whole? text.toList).map treeOfWhole
  | "!!float" =>
    if isSpecialFloat text || isFloat text.toList then some .otherNumber else none
  | "!!null" => if isNull text && text != "" then some .empty else none
  | _ => some (.text text)

/-- A key is a scalar, and is its text. The number is of the references that may still be
followed. -/
def key? : Node → Nat → Option (String × Nat)
  | scalar _ _ text, left => some (text, left)
  | reference target, left + 1 => target.key? left
  | _, _ => none

/-- What a node says, if it is no deeper than `depth` and unfolds no more than `left` references;
and how many of these remain. -/
def toTree? : Node → (depth left : Nat) → Option (Tree × Nat)
  | scalar none true text, _, left => some (resolve text, left)
  | scalar none false text, _, left => some (.text text, left)
  | scalar (some tag) _ text, _, left =>
    if isForeign (some tag) then none else (taggedScalar? tag text).map (·, left)
  | reference target, depth, left + 1 => target.toTree? depth left
  | list tag items, depth + 1, left =>
    if isForeign tag then none
    else (itemsToTree? items depth left).map fun (trees, left) => (.list trees, left)
  | table tag entries, depth + 1, left =>
    if isForeign tag then none
    else (entriesToTree? entries [] depth left).map fun (read, left) => (.table read, left)
  | _, _, _ => none
where
  itemsToTree? : List Node → (depth left : Nat) → Option (List Tree × Nat)
    | [], _, left => some ([], left)
    | item :: rest, depth, left => do
      let (tree, left) ← item.toTree? depth left
      let (trees, left) ← itemsToTree? rest depth left
      return (tree :: trees, left)
  /-- A later entry replaces an earlier one under the same key. -/
  entriesToTree? : List (Node × Node) → List (String × Tree) → (depth left : Nat) →
      Option (List (String × Tree) × Nat)
    | [], read, _, left => some (read, left)
    | (key, value) :: rest, read, depth, left => do
      let (key, left) ← key.key? left
      let (tree, left) ← value.toTree? depth left
      entriesToTree? rest (Tree.put key tree read) depth left

/-- How many scalars, references and ends of collections a node is written with. -/
def size : Node → Nat
  | scalar _ _ _ => 1
  | reference _ => 1
  | list _ items => sizes items + 2
  | table _ entries => entrySizes entries + 2
where
  sizes : List Node → Nat
    | [] => 0
    | item :: rest => item.size + sizes rest
  entrySizes : List (Node × Node) → Nat
    | [] => 0
    | (key, value) :: rest => key.size + value.size + entrySizes rest

def deepest : Nat :=
  128

/-- What a whole document says. Its references may be followed a hundred times as often as it is
long, so that a short text does not unfold to a huge tree. -/
def meaning? (node : Node) : Option Tree :=
  (node.toTree? deepest (100 * node.size)).map (·.1)

def withTag (tag : Option String) (node : Node) : Node :=
  match tag, node with
  | none, node => node
  | some _, scalar _ plain text => scalar tag plain text
  | some _, reference target => reference target
  | some _, list _ items => list tag items
  | some _, table _ entries => table tag entries

end Node

abbrev Anchors := List (String × Node)

abbrev Reading := Option (Node × Cursor × Anchors)

structure Properties where
  anchor : Option String
  tag : Option String

namespace Properties

def isEmpty (p : Properties) : Bool :=
  p.anchor.isNone && p.tag.isNone

def put (p : Properties) (node : Node) (anchors : Anchors) : Node × Anchors :=
  let node := node.withTag p.tag
  match p.anchor with
  | some name => (node, (name, node) :: anchors)
  | none => (node, anchors)

end Properties

def isAnchorChar (c : Char) : Bool :=
  c.isAlphanum || c == '_' || c == '-'

def isTagChar (c : Char) : Bool :=
  c.isAlphanum || "-_.:/;?@&=+$~*()%#".contains c

def anchorName? (cs : List Char) : Option (String × Nat) :=
  let name := cs.takeWhile isAnchorChar
  let next := cs.drop name.length
  let ends := atGap next || (next.head?.map fun c => "?:,]\x7d%@\x60".contains c).getD false
  if name.isEmpty || !ends then none else some (String.ofList name, name.length)

/-- A tag with its marks, in the short form of the core schema where it has one. -/
def tag? (cs : List Char) : Option (String × Nat) :=
  match cs with
  | '!' :: '<' :: rest =>
    let name := rest.takeWhile (· != '>')
    let core := "tag:yaml.org,2002:".toList
    let tag := if core.isPrefixOf name then "!!".toList ++ name.drop core.length else '!' :: name
    if name.isEmpty || (rest.drop name.length).isEmpty then none
    else some (String.ofList tag, name.length + 3)
  | '!' :: '!' :: rest =>
    let name := rest.takeWhile isTagChar
    if name.isEmpty then none else some (String.ofList ('!' :: '!' :: name), name.length + 2)
  | '!' :: rest =>
    let name := rest.takeWhile isTagChar
    some (String.ofList ('!' :: name), name.length + 1)
  | _ => none

def properties? (brackets : Bool) : Nat → Properties → Cursor → Option (Properties × Cursor)
  | 0, _, _ => none
  | fuel + 1, p, cur =>
    match cur.rest with
    | '&' :: rest =>
      match p.anchor, anchorName? rest with
      | none, some (name, length) =>
        let after := cur.advance (length + 1)
        properties? brackets fuel { p with anchor := some name } (after.skipGap true brackets)
      | _, _ => none
    | '!' :: _ =>
      match p.tag, tag? cur.rest with
      | none, some (tag, length) =>
        let after := cur.advance length
        if atGap after.rest || (brackets && (after.rest.head?.map isFlowMark).getD true) then
          properties? brackets fuel { p with tag := some tag } (after.skipGap true brackets)
        else none
      | _, _ => none
    | _ => some (p, cur)

/-- The longest key that needs no question mark. -/
def longestKey : Nat :=
  1024

mutual

def flowNode? : Nat → Anchors → Cursor → Reading
  | 0, _, _ => none
  | fuel + 1, anchors, cur => do
    let (p, cur) ← properties? true 3 ⟨none, none⟩ cur
    match cur.rest with
    | '[' :: _ =>
      let (items, cur, anchors) ← flowItems? fuel anchors ((cur.advance 1).skipGap true true)
      let (node, anchors) := p.put (.list none items) anchors
      return (node, cur, anchors)
    | '\x7b' :: _ =>
      let (entries, cur, anchors) ← flowEntries? fuel anchors ((cur.advance 1).skipGap true true)
      let (node, anchors) := p.put (.table none entries) anchors
      return (node, cur, anchors)
    | '*' :: rest =>
      let (name, length) ← anchorName? rest
      let node ← anchors.lookup name
      if p.isEmpty then return (.reference node, cur.advance (length + 1), anchors) else none
    | '"' :: _ =>
      let (text, cur) ← quoted? '"' cur
      let (node, anchors) := p.put (.scalar none false (String.ofList text)) anchors
      return (node, cur, anchors)
    | '\x27' :: _ =>
      let (text, cur) ← quoted? '\x27' cur
      let (node, anchors) := p.put (.scalar none false (String.ofList text)) anchors
      return (node, cur, anchors)
    | cs =>
      if startsPlain true cs then
        let (text, cur) ← plain? true 0 (cs.length + 1) cur
        let (node, anchors) := p.put (.scalar none true (String.ofList text)) anchors
        return (node, cur, anchors)
      else
        match cs with
        | c :: _ =>
          if c == ',' || c == ']' || c == '\x7d' || c == ':' then
            if p.isEmpty && c != ':' then none
            else
              let (node, anchors) := p.put .absent anchors
              return (node, cur, anchors)
          else none
        | [] => none

def flowValue? : Nat → Anchors → Cursor → Reading
  | 0, _, _ => none
  | fuel + 1, anchors, cur =>
    let cur := cur.skipGap true true
    match cur.rest with
    | ',' :: _ => some (.absent, cur, anchors)
    | ']' :: _ => some (.absent, cur, anchors)
    | '\x7d' :: _ => some (.absent, cur, anchors)
    | _ => flowNode? fuel anchors cur

/-- A key with its value, or a key alone. A key without a question mark stands on one line with its
colon. -/
def flowEntry? : Nat → Anchors → Cursor → Option ((Node × Option Node) × Cursor × Anchors)
  | 0, _, _ => none
  | fuel + 1, anchors, cur =>
    if cur.atIndicator '?' then do
      let cur := (cur.advance 1).skipGap true true
      let (key, cur, anchors) ← flowValueOrKey? fuel anchors cur
      let cur := cur.skipGap true true
      match cur.rest with
      | ':' :: _ =>
        let (value, cur, anchors) ← flowValue? fuel anchors (cur.advance 1)
        return ((key, some value), cur, anchors)
      | _ => return ((key, some .absent), cur, anchors)
    else do
      let (key, after, anchors) ← flowNode? fuel anchors { cur with fresh := false }
      let next := { after with fresh := false }.skipGap true true
      match next.rest with
      | ':' :: _ =>
        let length := cur.rest.length - next.rest.length
        if next.fresh || (cur.rest.take length).contains '\n' || longestKey < length then none
        else
          let (value, cur, anchors) ← flowValue? fuel anchors (next.advance 1)
          return ((key, some value), cur, anchors)
      | _ => return ((key, none), next, anchors)

def flowValueOrKey? : Nat → Anchors → Cursor → Reading
  | 0, _, _ => none
  | fuel + 1, anchors, cur =>
    match cur.rest with
    | ':' :: _ => some (.absent, cur, anchors)
    | _ => flowValue? fuel anchors cur

def flowItems? : Nat → Anchors → Cursor → Option (List Node × Cursor × Anchors)
  | 0, _, _ => none
  | fuel + 1, anchors, cur =>
    match cur.rest with
    | ']' :: _ => some ([], cur.advance 1, anchors)
    | _ => do
      let ((key, value), cur, anchors) ← flowEntry? fuel anchors cur
      let item := match value with
        | some value => Node.table none [(key, value)]
        | none => key
      let cur := cur.skipGap true true
      match cur.rest with
      | ',' :: _ =>
        let (items, cur, anchors) ← flowItems? fuel anchors ((cur.advance 1).skipGap true true)
        return (item :: items, cur, anchors)
      | ']' :: _ => return ([item], cur.advance 1, anchors)
      | _ => none

def flowEntries? : Nat → Anchors → Cursor → Option (List (Node × Node) × Cursor × Anchors)
  | 0, _, _ => none
  | fuel + 1, anchors, cur =>
    match cur.rest with
    | '\x7d' :: _ => some ([], cur.advance 1, anchors)
    | _ => do
      let ((key, value), cur, anchors) ← flowEntry? fuel anchors cur
      let entry := (key, value.getD .absent)
      let cur := cur.skipGap true true
      match cur.rest with
      | ',' :: _ =>
        let (entries, cur, anchors) ← flowEntries? fuel anchors ((cur.advance 1).skipGap true true)
        return (entry :: entries, cur, anchors)
      | '\x7d' :: _ => return ([entry], cur.advance 1, anchors)
      | _ => none

end

/-- A node that can be a key, read where it starts. A plain one may go on over lines indented by
`indent` at least. -/
def simpleNode? (indent : Int) (p : Properties) (anchors : Anchors) (cur : Cursor) : Reading := do
  match cur.rest with
  | '*' :: rest =>
    let (name, length) ← anchorName? rest
    let node ← anchors.lookup name
    if p.isEmpty then return (.reference node, cur.advance (length + 1), anchors) else none
  | '"' :: _ =>
    let (text, cur) ← quoted? '"' cur
    let (node, anchors) := p.put (.scalar none false (String.ofList text)) anchors
    return (node, cur, anchors)
  | '\x27' :: _ =>
    let (text, cur) ← quoted? '\x27' cur
    let (node, anchors) := p.put (.scalar none false (String.ofList text)) anchors
    return (node, cur, anchors)
  | '[' :: _ =>
    let (node, cur, anchors) ← flowNode? (4 * cur.rest.length + 8) anchors cur
    let (node, anchors) := p.put node anchors
    return (node, cur, anchors)
  | '\x7b' :: _ =>
    let (node, cur, anchors) ← flowNode? (4 * cur.rest.length + 8) anchors cur
    let (node, anchors) := p.put node anchors
    return (node, cur, anchors)
  | cs =>
    if startsPlain false cs then
      let (text, cur) ← plain? false indent (cs.length + 1) cur
      let (node, anchors) := p.put (.scalar none true (String.ofList text)) anchors
      return (node, cur, anchors)
    else none

def colonAfter? (start key : Cursor) : Option Cursor :=
  let blanks := (key.rest.takeWhile isBlank).length
  let colon := key.advance blanks
  let length := start.rest.length - colon.rest.length
  if colon.atIndicator ':' && !((start.rest.take length).contains '\n') && length ≤ longestKey then
    some colon
  else none

mutual

/-- A node of a block, read where it starts: `parent` is the column of the collection it belongs
to, and `inline` says that it stands on the line of its key, where no block can start. -/
def blockNode? : Nat → Anchors → (parent : Int) → (inline : Bool) → Cursor → Reading
  | 0, _, _, _, _ => none
  | fuel + 1, anchors, parent, inline, start => do
    let fits (cur : Cursor) : Bool := !inline || cur.fresh
    let (p, cur) ← properties? false 3 ⟨none, none⟩ { start with fresh := false }
    if !p.isEmpty && (cur.fresh || cur.atEnd) then
      -- the node itself starts on a later line, or is missing
      if cur.atBoundary || (cur.column : Int) < parent ||
          ((cur.column : Int) == parent && !(cur.atIndicator '-')) then
        let (node, anchors) := p.put .absent anchors
        return (node, cur, anchors)
      else
        let (node, cur, anchors) ← blockNode? fuel anchors parent false cur
        let (node, anchors) := p.put node anchors
        return (node, cur, anchors)
    else if cur.atIndicator '-' then
      if fits start && p.isEmpty then
        let (items, cur, anchors) ← blockItems? fuel anchors cur.column cur
        return (.list none items, cur, anchors)
      else none
    else if cur.atIndicator '?' || cur.atIndicator ':' then
      if fits start && p.isEmpty then
        let (entries, cur, anchors) ← blockEntries? fuel anchors cur.column cur
        return (.table none entries, cur, anchors)
      else none
    else
      match cur.rest with
      | '|' :: _ =>
        let (text, cur) ← block? parent cur
        let (node, anchors) := p.put (.scalar none false (String.ofList text)) anchors
        return (node, cur.skipGap false false, anchors)
      | '>' :: _ =>
        let (text, cur) ← block? parent cur
        let (node, anchors) := p.put (.scalar none false (String.ofList text)) anchors
        return (node, cur.skipGap false false, anchors)
      | _ =>
        let (node, after, read) ← simpleNode? (parent + 1) p anchors cur
        match colonAfter? start after with
        | some _ =>
          if fits start then
            let (entries, cur, anchors) ← blockEntries? fuel anchors start.column start
            return (.table none entries, cur, anchors)
          else none
        | none => return (node, { after with fresh := false }.skipGap true false, read)

def blockValue? : Nat → Anchors → (column : Nat) → Cursor → Reading
  | 0, _, _, _ => none
  | fuel + 1, anchors, column, colon =>
    let cur := (colon.advance 1).skipGap true false
    if cur.atBoundary then some (.absent, { cur with fresh := true }, anchors)
    else if !cur.fresh then blockNode? fuel anchors column true cur
    else if column < cur.column then blockNode? fuel anchors column false cur
    else if cur.column == column && cur.atIndicator '-' then do
      let (items, cur, anchors) ← blockItems? fuel anchors column cur
      return (.list none items, cur, anchors)
    else some (.absent, cur, anchors)

def blockEntries? : Nat → Anchors → (column : Nat) → Cursor →
    Option (List (Node × Node) × Cursor × Anchors)
  | 0, _, _, _ => none
  | fuel + 1, anchors, column, start => do
    let (key, value, cur, anchors) ←
      if start.atIndicator '?' then do
        let (key, cur, anchors) ← blockItem? fuel anchors column start
        if cur.fresh && cur.column == column && cur.atIndicator ':' then
          let (value, cur, anchors) ← blockItem? fuel anchors column cur
          some (key, value, cur, anchors)
        else some (key, Node.absent, cur, anchors)
      else if start.atIndicator ':' then do
        let (value, cur, anchors) ← blockValue? fuel anchors column start
        some (Node.absent, value, cur, anchors)
      else do
        let (p, cur) ← properties? false 3 ⟨none, none⟩ { start with fresh := false }
        if cur.fresh then none
        let (key, after, anchors) ← simpleNode? (column + 1) p anchors cur
        let colon ← colonAfter? start after
        let (value, cur, anchors) ← blockValue? fuel anchors column colon
        some (key, value, cur, anchors)
    if cur.atBoundary || (cur.fresh && cur.column < column) then
      return ([(key, value)], cur, anchors)
    else if cur.fresh && cur.column == column then
      let (entries, cur, anchors) ← blockEntries? fuel anchors column cur
      return ((key, value) :: entries, cur, anchors)
    else none

/-- What follows an indicator that opens a block of its own: a dash or a question mark. -/
def blockItem? : Nat → Anchors → (column : Nat) → Cursor → Reading
  | 0, _, _, _ => none
  | fuel + 1, anchors, column, start =>
    let cur := (start.advance 1).skipGap false false
    if cur.atBoundary then some (.absent, { cur with fresh := true }, anchors)
    else if cur.fresh && cur.column ≤ column then some (.absent, cur, anchors)
    else blockNode? fuel anchors column false cur

def blockItems? : Nat → Anchors → (column : Nat) → Cursor →
    Option (List Node × Cursor × Anchors)
  | 0, _, _, _ => none
  | fuel + 1, anchors, column, start => do
    let (item, cur, anchors) ← blockItem? fuel anchors column start
    if cur.atBoundary then return ([item], cur, anchors)
    else if !cur.fresh || column < cur.column then none
    else if cur.column == column && cur.atIndicator '-' then
      let (items, cur, anchors) ← blockItems? fuel anchors column cur
      return (item :: items, cur, anchors)
    else return ([item], cur, anchors)

end

/-- Directives in front of a document, which has to be opened by a line of dashes then. -/
def skipDirectives : Nat → Cursor → Option (Bool × Cursor)
  | 0, _ => none
  | fuel + 1, cur =>
    match cur.rest with
    | '%' :: rest =>
      let line := rest.takeWhile (· != '\n')
      let isVersion := "YAML 1.".toList.isPrefixOf line
      let isTag := "TAG ".toList.isPrefixOf line
      if isVersion || isTag then
        let next := (Cursor.mk (rest.drop line.length) 0 true).skipGap false false
        (skipDirectives fuel next).map fun (_, cur) => (true, cur)
      else none
    | _ => some (false, cur)

def endsStream : Nat → Cursor → Bool
  | 0, _ => false
  | fuel + 1, cur =>
    if cur.atEnd then true
    else if cur.column == 0 && isBoundary '.' cur.rest then
      let next := (cur.advance 3).skipGap true false
      (next.fresh || next.atEnd) && endsStream fuel next
    else false

def node? (content : String) : Option Node := do
  let cs := match content.toList with
    | '\uFEFF' :: rest => rest
    | cs => cs
  if !cs.all isAllowed then none
  let cs := normalized cs
  let fuel := 4 * cs.length + 16
  let cur := (Cursor.start cs).skipGap false false
  let (directed, cur) ← skipDirectives fuel cur
  let opened := cur.column == 0 && isBoundary '-' cur.rest
  if directed && !opened then none
  let cur := if opened then (cur.advance 3).skipGap true false else cur
  if cur.atBoundary then
    if endsStream fuel cur then return .absent else none
  else
    let (node, cur, _) ← blockNode? fuel [] (-1) (opened && !cur.fresh) cur
    if (cur.fresh || cur.atEnd) && endsStream fuel cur then return node else none

/-- The tree of a text. A text without a document is an empty table. -/
def tree? (content : String) : Option Tree := do
  let node ← node? content
  match node with
  | .scalar none true "" => return .table []
  | node =>
    let tree ← node.meaning?
    match tree with
    | .table _ => return tree
    | _ => none

end NoteRelay.Yaml
