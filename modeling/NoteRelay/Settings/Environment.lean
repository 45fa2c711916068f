import NoteRelay.Settings.Tree
import NoteRelay.Text.Form
import NoteRelay.Text.Numeral

/-!
# Settings from the environment

A variable whose name starts with `APP_` sets what the rest of its name says, in lower case, with
`__` (or a dot) between the steps of the path. Its value is read as a flag, a number, a quoted
text, a character, a list or a table; a value that is none of these is the text itself.
-/

namespace NoteRelay.Environment

open Text (trim)

abbrev Variables := List (String × String)

def namePrefixed : List Char :=
  "app_".toList

/-- Takes `__` for a dot, from left to right. -/
def dotted : List Char → List Char
  | '_' :: '_' :: rest => '.' :: dotted rest
  | c :: rest => c :: dotted rest
  | [] => []

def splitDots : List Char → List (List Char)
  | [] => [[]]
  | c :: rest =>
    match splitDots rest with
    | [] => [[c]]
    | part :: parts => if c == '.' then [] :: part :: parts else (c :: part) :: parts

/-- The path that a variable's name spells, if it spells one. -/
def path? (name : String) : Option (List String) :=
  let cs := (trim name.toList).map Char.toLower
  if namePrefixed.isPrefixOf cs then
    let parts := splitDots (dotted (cs.drop namePrefixed.length))
    if parts.any List.isEmpty then none else some (parts.map String.ofList)
  else none

/-- Blanks between the parts of a value. -/
def isGap (c : Char) : Bool :=
  c == ' ' || c == '\t' || c == '\n' || c == '\r' || c == '\x0c'

def skipGaps (cs : List Char) : List Char :=
  cs.dropWhile isGap

def isSeparator (c : Char) : Bool :=
  c == ',' || c == '[' || c == ']' || c == '\x7b' || c == '\x7d'

def isKeyChar (c : Char) : Bool :=
  c.isAlphanum || c == '_' || c == '-'

def isExponentTail : List Char → Bool
  | [] => true
  | e :: rest =>
    (e == 'e' || e == 'E') &&
      (match rest with
        | '+' :: ds => !ds.isEmpty && ds.all Numeral.isDecimal
        | '-' :: ds => !ds.isEmpty && ds.all Numeral.isDecimal
        | ds => !ds.isEmpty && ds.all Numeral.isDecimal)

def dropSign : List Char → List Char
  | '+' :: rest => rest
  | '-' :: rest => rest
  | cs => cs

/-- A number with a point: digits on one side of it at least. -/
def isPointed (cs : List Char) : Bool :=
  let cs := dropSign cs
  let whole := cs.takeWhile Numeral.isDecimal
  match cs.drop whole.length with
  | '.' :: rest =>
    let fraction := rest.takeWhile Numeral.isDecimal
    !(whole.isEmpty && fraction.isEmpty) && isExponentTail (rest.drop fraction.length)
  | _ => false

def whole? (cs : List Char) : Option Int :=
  let digits (ds : List Char) : Option Nat :=
    if !ds.isEmpty && ds.all Numeral.isDecimal then some (Numeral.decimalValue ds) else none
  match cs with
  | '-' :: ds => (digits ds).map fun n => -(n : Int)
  | '+' :: ds => (digits ds).map fun n => (n : Int)
  | ds => (digits ds).map fun n => (n : Int)

/-- A word that stands for itself: a number if it looks like one, otherwise a text. -/
def bare (word : List Char) : Tree :=
  if word.contains '.' && isPointed word then .otherNumber
  else
    match whole? word with
    | some i => if Tree.canHold i then .whole i else .text (String.ofList word)
    | none => .text (String.ofList word)

def hexChar? (count : Nat) (cs : List Char) : Option (Char × List Char) := do
  let ds ← (cs.take count).mapM Numeral.digitValue?
  let n := Numeral.value 16 ds
  if ds.length = count ∧ n.isValidChar then some (Char.ofNat n, cs.drop count) else none

def isLineGap (c : Char) : Bool :=
  c == ' ' || c == '\t' || c == '\n' || c == '\r'

/-- A quoted text from behind its opening quote, and what follows it. A backslash before blanks
takes them out. -/
def quotedBody? : Nat → List Char → Option (List Char × List Char)
  | 0, _ => none
  | fuel + 1, cs =>
    let put (c : Char) (rest : List Char) := do
      let (text, rest) ← quotedBody? fuel rest
      return (c :: text, rest)
    match cs with
    | [] => none
    | '"' :: rest => some ([], rest)
    | '\\' :: 'b' :: rest => put '\x08' rest
    | '\\' :: 't' :: rest => put '\t' rest
    | '\\' :: 'n' :: rest => put '\n' rest
    | '\\' :: 'f' :: rest => put '\x0c' rest
    | '\\' :: 'r' :: rest => put '\r' rest
    | '\\' :: '"' :: rest => put '"' rest
    | '\\' :: '\\' :: rest => put '\\' rest
    | '\\' :: 'u' :: rest => do
      let (c, rest) ← hexChar? 4 rest
      put c rest
    | '\\' :: 'U' :: rest => do
      let (c, rest) ← hexChar? 8 rest
      put c rest
    | '\\' :: c :: rest =>
      if isLineGap c then quotedBody? fuel (rest.dropWhile isLineGap) else none
    | c :: rest =>
      if c == '\t' || (0x20 ≤ c.toNat && c.toNat != 0x7f && c != '\\') then put c rest else none

def quoted? (cs : List Char) : Option (List Char × List Char) :=
  quotedBody? (cs.length + 1) cs

def key? (cs : List Char) : Option (String × List Char) :=
  match cs with
  | '"' :: rest => (quoted? rest).map fun (text, rest) => (String.ofList text, rest)
  | cs =>
    match cs.takeWhile isKeyChar with
    | [] => none
    | name => some (String.ofList name, cs.drop name.length)

mutual

/-- A value with the gaps around it, and what follows it. -/
def value? : Nat → List Char → Option (Tree × List Char)
  | 0, _ => none
  | fuel + 1, cs =>
    let found := match skipGaps cs with
      | 't' :: 'r' :: 'u' :: 'e' :: rest => some (Tree.bool true, rest)
      | 'f' :: 'a' :: 'l' :: 's' :: 'e' :: rest => some (Tree.bool false, rest)
      | '\x7b' :: rest => (entries? fuel rest).map fun (es, rest) => (Tree.table es, rest)
      | '[' :: rest => (items? fuel rest).map fun (ts, rest) => (Tree.list ts, rest)
      | '"' :: rest => (quoted? rest).map fun (s, rest) => (Tree.text (String.ofList s), rest)
      | '\x27' :: rest =>
        match rest with
        | c :: '\x27' :: rest => some (Tree.char c, rest)
        | _ => none
      | cs =>
        let word := cs.takeWhile fun c => !isSeparator c
        some (bare (trim word), cs.drop word.length)
    found.map fun (tree, rest) => (tree, skipGaps rest)

def items? : Nat → List Char → Option (List Tree × List Char)
  | 0, _ => none
  | fuel + 1, cs =>
    match cs with
    | ']' :: rest => some ([], rest)
    | cs => do
      let (item, rest) ← value? fuel cs
      match rest with
      | ',' :: rest =>
        let (items, rest) ← items? fuel rest
        return (item :: items, rest)
      | ']' :: rest => return ([item], rest)
      | _ => none

def entries? : Nat → List Char → Option (List (String × Tree) × List Char)
  | 0, _ => none
  | fuel + 1, cs =>
    match cs with
    | '\x7d' :: rest => some ([], rest)
    | cs => do
      let (key, rest) ← key? (skipGaps cs)
      match skipGaps rest with
      | '=' :: rest =>
        let (item, rest) ← value? fuel rest
        match rest with
        | ',' :: rest =>
          let (entries, rest) ← entries? fuel rest
          return (if entries.any (·.1 == key) then entries else (key, item) :: entries, rest)
        | '\x7d' :: rest => return ([(key, item)], rest)
        | _ => none
      | _ => none

end

def treeOfValue (value : String) : Tree :=
  let cs := trim value.toList
  match value? (2 * cs.length + 2) cs with
  | some (tree, []) => tree
  | _ => .text (String.ofList cs)

def treeOfPath (path : List String) (leaf : Tree) : Tree :=
  path.foldr (fun key tree => .table [(key, tree)]) leaf

/-- The layer of all variables, a later one laid over the earlier ones. -/
def tree (assigned : Variables) : Tree :=
  assigned.foldl
    (fun layer (name, value) =>
      match path? name with
      | some path => layer.merge (treeOfPath path (treeOfValue value))
      | none => layer)
    (.table [])

end NoteRelay.Environment
