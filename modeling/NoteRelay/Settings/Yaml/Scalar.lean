import NoteRelay.Settings.Environment
import NoteRelay.Settings.Yaml.Cursor
import NoteRelay.Text.Numeral

/-!
# YAML scalars

Plain, quoted and block scalars, and what a plain one stands for. A single line break inside a
scalar is folded into a blank; of several, the first is dropped.
-/

namespace NoteRelay.Yaml

/-- What line breaks inside a flow scalar become: `count` of them are folded. -/
def foldedBreaks (count : Nat) : List Char :=
  if count ≤ 1 then [' '] else List.replicate (count - 1) '\n'

-- ---------------------------------------------------------------------------
-- Plain scalars
-- ---------------------------------------------------------------------------

def isFlowMark (c : Char) : Bool :=
  c == ',' || c == '[' || c == ']' || c == '\x7b' || c == '\x7d'

def isIndicator (c : Char) : Bool :=
  isFlowMark c || c == '#' || c == '&' || c == '*' || c == '!' || c == '|' || c == '>' ||
    c == '\x27' || c == '"' || c == '%' || c == '@' || c == '\x60'

def startsPlain (brackets : Bool) : List Char → Bool
  | [] => false
  | '-' :: rest => !(atGap rest)
  | '?' :: rest => !brackets && !(atGap rest)
  | ':' :: rest => !brackets && !(atGap rest)
  | c :: _ => !(isBlank c) && c != '\n' && !(isIndicator c)

/-- The word in front: no blanks, and no mark that ends a plain scalar. `none` is a colon before a
bracket, which is refused inside brackets. -/
def plainWord? (brackets : Bool) : List Char → Option (List Char × List Char)
  | [] => some ([], [])
  | ':' :: rest =>
    match rest with
    | [] => some ([], ':' :: rest)
    | c :: _ =>
      if brackets && (isFlowMark c || c == '?') then none
      else if isBlank c || c == '\n' then some ([], ':' :: rest)
      else (plainWord? brackets rest).map fun (word, rest) => (':' :: word, rest)
  | c :: rest =>
    if isBlank c || c == '\n' || (brackets && isFlowMark c) then some ([], c :: rest)
    else (plainWord? brackets rest).map fun (word, rest) => (c :: word, rest)

/-- The blanks between two words: the blanks themselves, the breaks among them, what follows and
its column. `none` is a tab where indentation should be. -/
def plainGap? (indent : Int) : List Char → Nat → Nat → List Char →
    Option (List Char × Nat × List Char × Nat)
  | '\n' :: rest, _, breaks, _ => plainGap? indent rest 0 (breaks + 1) []
  | c :: rest, column, breaks, blanks =>
    if isBlank c then
      if 0 < breaks ∧ (column : Int) < indent ∧ c = '\t' then none
      else plainGap? indent rest (column + 1) breaks (if breaks = 0 then c :: blanks else blanks)
    else some (blanks.reverse, breaks, c :: rest, column)
  | [], column, breaks, blanks => some (blanks.reverse, breaks, [], column)

/-- A plain scalar whose lines after the first are indented by `indent` at least. The place behind
it is the end of its last word. -/
def plain? (brackets : Bool) (indent : Int) : Nat → Cursor → Option (List Char × Cursor)
  | 0, _ => none
  | fuel + 1, cur => do
    let (word, rest) ← plainWord? brackets cur.rest
    let after := cur.advance word.length
    if word.isEmpty then return ([], after)
    let (blanks, breaks, next, column) ← plainGap? indent rest after.column 0 []
    let fits := breaks == 0 || brackets || decide (indent ≤ (column : Int))
    let goesOn := match next with
      | [] => false
      | '#' :: _ => blanks.isEmpty && breaks == 0
      | c :: _ => !(breaks != 0 && (Cursor.mk next column true).atBoundary) && c != '\n'
    if goesOn && fits && (breaks != 0 || !blanks.isEmpty) then
      let (more, last) ← plain? brackets indent fuel ⟨next, column, false⟩
      if more.isEmpty then return (word, after)
      let between := if breaks = 0 then blanks else foldedBreaks breaks
      return (word ++ between ++ more, last)
    else return (word, after)

-- ---------------------------------------------------------------------------
-- Quoted scalars
-- ---------------------------------------------------------------------------

def escape? : List Char → Option (Char × List Char)
  | '0' :: rest => some ('\x00', rest)
  | 'a' :: rest => some ('\x07', rest)
  | 'b' :: rest => some ('\x08', rest)
  | 't' :: rest => some ('\t', rest)
  | '\t' :: rest => some ('\t', rest)
  | 'n' :: rest => some ('\n', rest)
  | 'v' :: rest => some ('\x0b', rest)
  | 'f' :: rest => some ('\x0c', rest)
  | 'r' :: rest => some ('\r', rest)
  | 'e' :: rest => some ('\x1b', rest)
  | ' ' :: rest => some (' ', rest)
  | '"' :: rest => some ('"', rest)
  | '/' :: rest => some ('/', rest)
  | '\\' :: rest => some ('\\', rest)
  | 'N' :: rest => some ('\x85', rest)
  | '_' :: rest => some ('\xa0', rest)
  | 'L' :: rest => some ('\u2028', rest)
  | 'P' :: rest => some ('\u2029', rest)
  | 'x' :: rest => Environment.hexChar? 2 rest
  | 'u' :: rest => Environment.hexChar? 4 rest
  | 'U' :: rest => Environment.hexChar? 8 rest
  | _ => none

def quotedGap : List Char → List Char × Nat × List Char
  | [] => ([], 0, [])
  | c :: rest =>
    if c == '\n' then
      let (_, breaks, rest) := quotedGap rest
      ([], breaks + 1, rest)
    else if isBlank c then
      let (blanks, breaks, rest) := quotedGap rest
      (c :: blanks, breaks, rest)
    else ([], 0, c :: rest)

/-- Whether a boundary of documents starts the line behind `breaks` line breaks. -/
def crossesBoundary (breaks : Nat) (rest : List Char) : Bool :=
  breaks != 0 && (isBoundary '-' rest || isBoundary '.' rest)

def quotedBody? (quote : Char) : Nat → List Char → Option (List Char × List Char)
  | 0, _ => none
  | fuel + 1, cs =>
    let put (front rest : List Char) := do
      let (text, rest) ← quotedBody? quote fuel rest
      return (front ++ text, rest)
    match cs with
    | [] => none
    | c :: rest =>
      if c == quote then
        match quote, rest with
        | '\x27', '\x27' :: rest => put ['\x27'] rest
        | _, _ => some ([], rest)
      else if c == '\\' && quote == '"' then
        match rest with
        | '\n' :: rest =>
          let (_, breaks, rest) := quotedGap rest
          put (List.replicate breaks '\n') rest
        | rest => do
          let (c, rest) ← escape? rest
          put [c] rest
      else if isBlank c || c == '\n' then
        let (blanks, breaks, rest) := quotedGap cs
        if crossesBoundary breaks rest then none
        else put (if breaks = 0 then blanks else foldedBreaks breaks) rest
      else put [c] rest

def Cursor.past (cur : Cursor) (rest : List Char) : Cursor :=
  let run := cur.rest.take (cur.rest.length - rest.length)
  let last := run.reverse.takeWhile (· != '\n')
  ⟨rest, if run.contains '\n' then last.length else cur.column + run.length, false⟩

def quoted? (quote : Char) (cur : Cursor) : Option (List Char × Cursor) := do
  let (text, rest) ← quotedBody? quote (cur.rest.length + 1) (cur.rest.drop 1)
  return (text, cur.past rest)

-- ---------------------------------------------------------------------------
-- Block scalars
-- ---------------------------------------------------------------------------

/-- What happens to the line breaks at the end of a block scalar. -/
inductive Chomping where
  | strip
  | clip
  | keep
  deriving DecidableEq, Repr

/-- The header of a block scalar, from behind its mark: chomping and indentation in either order,
and the rest of the line. -/
def blockHeader? (cs : List Char) : Option (Chomping × Option Nat × List Char) :=
  let chomping : List Char → Chomping × List Char
    | '-' :: rest => (.strip, rest)
    | '+' :: rest => (.keep, rest)
    | rest => (.clip, rest)
  let digit : List Char → Option Nat × List Char
    | d :: rest => if '1' ≤ d ∧ d ≤ '9' then (some (d.toNat - 48), rest) else (none, d :: rest)
    | [] => (none, [])
  let (mode, indent, rest) :=
    match chomping cs with
    | (.clip, rest) =>
      let (indent, rest) := digit rest
      let (mode, rest) := chomping rest
      (mode, indent, rest)
    | (mode, rest) =>
      let (indent, rest) := digit rest
      (mode, indent, rest)
  let rest := rest.dropWhile isBlank
  let rest := match rest with
    | '#' :: rest => rest.dropWhile (· != '\n')
    | rest => rest
  match rest with
  | [] => some (mode, indent, [])
  | '\n' :: rest => some (mode, indent, rest)
  | _ => none

def linesOf : List Char → List (List Char × Bool)
  | [] => []
  | '\n' :: rest => ([], true) :: linesOf rest
  | c :: rest =>
    match linesOf rest with
    | [] => [([c], false)]
    | (line, broken) :: lines => (c :: line, broken) :: lines

def unlines : List (List Char × Bool) → List Char
  | [] => []
  | (line, broken) :: lines => line ++ (if broken then '\n' :: unlines lines else unlines lines)

def leadingSpaces (line : List Char) : Nat :=
  (line.takeWhile (· == ' ')).length

def tabsIndent (line : List Char) : Bool :=
  (line.drop (leadingSpaces line)).head? == some '\t'

def isSpaceLine (line : List Char) : Bool :=
  line.all (· == ' ')

/-- The column of the content: that of the first line that has some, but not less than that of the
blank lines before it, nor than `least`. `none` is a tab in the indentation of that line. -/
def detectedIndent? (least : Nat) (lines : List (List Char × Bool)) : Option Nat :=
  let blank := lines.takeWhile fun l => isSpaceLine l.1
  let widest := blank.foldl (fun n l => max n l.1.length) least
  match lines.drop blank.length with
  | (line, _) :: _ => if tabsIndent line then none else some (max widest (leadingSpaces line))
  | [] => some widest

/-- A block scalar that is being read: its text so far, whether a break is due behind it, whether
its last line starts with a blank, and the empty lines since. -/
structure BlockText where
  text : List Char
  breakDue : Bool
  lastBlank : Bool
  empties : Nat

/-- Adds a line of content. In a folded scalar the break before it becomes a blank, or vanishes
before empty lines, unless one of the two lines starts with a blank. -/
def BlockText.add (b : BlockText) (folded : Bool) (line : List Char) (broken : Bool) : BlockText :=
  let blank := match line with
    | c :: _ => isBlank c
    | [] => false
  let joint : List Char :=
    if !b.breakDue then []
    else if folded && !b.lastBlank && !blank then (if b.empties == 0 then [' '] else [])
    else ['\n']
  ⟨b.text ++ joint ++ List.replicate b.empties '\n' ++ line, broken, blank, 0⟩

def blockLines? (folded : Bool) (indent : Nat) :
    List (List Char × Bool) → BlockText → Option (BlockText × List (List Char × Bool))
  | [], b => some (b, [])
  | (line, broken) :: lines, b =>
    if isSpaceLine line && line.length ≤ indent then
      blockLines? folded indent lines (if broken then { b with empties := b.empties + 1 } else b)
    else if indent ≤ leadingSpaces line then
      blockLines? folded indent lines (b.add folded (line.drop indent) broken)
    else if tabsIndent line then none
    else some (b, (line, broken) :: lines)

/-- A block scalar below an indentation. The place behind it is the start of a line. -/
def block? (parent : Int) (cur : Cursor) : Option (List Char × Cursor) := do
  let folded := cur.rest.head? == some '>'
  let (chomping, given, body) ← blockHeader? (cur.rest.drop 1)
  let lines := linesOf body
  let indent ← match given with
    | some n => some ((max parent 0).toNat + n)
    | none => detectedIndent? (max (parent + 1) 1).toNat lines
  let (b, rest) ← blockLines? folded indent lines ⟨[], false, false, 0⟩
  let due : List Char := if b.breakDue then ['\n'] else []
  let ending := match chomping with
    | .strip => []
    | .clip => due
    | .keep => due ++ List.replicate b.empties '\n'
  return (b.text ++ ending, ⟨unlines rest, 0, true⟩)

-- ---------------------------------------------------------------------------
-- What a plain scalar stands for
-- ---------------------------------------------------------------------------

/-- Digits behind a zero are no number. -/
def isZeroPadded (cs : List Char) : Bool :=
  match Environment.dropSign cs with
  | '0' :: rest => !rest.isEmpty && rest.all Numeral.isDecimal
  | _ => false

def runBelow? (base : Nat) (cs : List Char) : Option Nat :=
  if cs.isEmpty then none
  else
    (cs.mapM fun c => (Numeral.digitValue? c).filter (· < base)).map (Numeral.value base)

def whole? (cs : List Char) : Option Int :=
  let magnitude (ds : List Char) : Option Nat := match ds with
    | '0' :: 'x' :: rest => runBelow? 16 rest
    | '0' :: 'o' :: rest => runBelow? 8 rest
    | '0' :: 'b' :: rest => runBelow? 2 rest
    | ds => if isZeroPadded ds then none else runBelow? 10 ds
  match cs with
  | '+' :: ds => (magnitude ds).map fun n => (n : Int)
  | '-' :: ds => (magnitude ds).map fun n => -(n : Int)
  | ds => (magnitude ds).map fun n => (n : Int)

def isFloat (cs : List Char) : Bool :=
  let body := Environment.dropSign cs
  let whole := body.takeWhile Numeral.isDecimal
  let rest := body.drop whole.length
  let (fraction, rest) := match rest with
    | '.' :: rest =>
      let fraction := rest.takeWhile Numeral.isDecimal
      (fraction, rest.drop fraction.length)
    | rest => ([], rest)
  !(whole.isEmpty && fraction.isEmpty) && Environment.isExponentTail rest &&
    !Decimal.lexemeOverflows body

def isSpecialFloat (s : String) : Bool :=
  [".inf", ".Inf", ".INF", "+.inf", "+.Inf", "+.INF", "-.inf", "-.Inf", "-.INF", ".nan", ".NaN",
    ".NAN"].contains s

def isNull (s : String) : Bool :=
  ["", "~", "null", "Null", "NULL"].contains s

def flag? (s : String) : Option Bool :=
  if ["true", "True", "TRUE"].contains s then some true
  else if ["false", "False", "FALSE"].contains s then some false
  else none

def treeOfWhole (i : Int) : Tree :=
  if Tree.canHold i then .whole i else .otherNumber

def resolve (s : String) : Tree :=
  if isNull s then .empty
  else
    match flag? s with
    | some b => .bool b
    | none =>
      match whole? s.toList with
      | some i => treeOfWhole i
      | none =>
        if isSpecialFloat s || (!(isZeroPadded s.toList) && isFloat s.toList) then .otherNumber
        else .text s

end NoteRelay.Yaml
