/-!
# A place in a YAML text

What is left to read, the column it starts at, and whether a line has been begun since the last
thing read. Lines are separated by single line feeds; `normalized` makes them so.
-/

namespace NoteRelay.Yaml

structure Cursor where
  rest : List Char
  column : Nat
  /-- Only blanks stand between the start of the line and this place. -/
  fresh : Bool

def normalized : List Char → List Char
  | '\r' :: '\n' :: rest => '\n' :: normalized rest
  | '\r' :: rest => '\n' :: normalized rest
  | '\x85' :: rest => '\n' :: normalized rest
  | c :: rest => c :: normalized rest
  | [] => []

def isAllowed (c : Char) : Bool :=
  let n := c.toNat
  n == 9 || n == 10 || n == 13 || (0x20 ≤ n && n ≤ 0x7e) || n == 0x85 ||
    (0xa0 ≤ n && n ≤ 0xfffd && n != 0xfeff) || 0x10000 ≤ n

def isBlank (c : Char) : Bool :=
  c == ' ' || c == '\t'

def atGap : List Char → Bool
  | [] => true
  | c :: _ => isBlank c || c == '\n'

/-- Whether a line of three marks stands here, which bounds a document. -/
def isBoundary (mark : Char) (cs : List Char) : Bool :=
  [mark, mark, mark].isPrefixOf cs && atGap (cs.drop 3)

namespace Cursor

def start (cs : List Char) : Cursor :=
  ⟨cs, 0, true⟩

def advance (cur : Cursor) (count : Nat) : Cursor :=
  ⟨cur.rest.drop count, cur.column + count, false⟩

def atEnd (cur : Cursor) : Bool :=
  cur.rest.isEmpty

def atBoundary (cur : Cursor) : Bool :=
  cur.rest.isEmpty ||
    (cur.column == 0 && (isBoundary '-' cur.rest || isBoundary '.' cur.rest))

/-- Whether an indicator stands here, with a blank behind it. -/
def atIndicator (c : Char) (cur : Cursor) : Bool :=
  match cur.rest with
  | d :: rest => c == d && atGap rest
  | [] => false

/-- Skips blanks, comments and line breaks. Tabs are blanks only behind something on the same
line, or everywhere inside brackets. -/
def skipGap (tabs brackets : Bool) (cur : Cursor) : Cursor :=
  go (tabs || brackets) cur.rest cur.column cur.fresh
where
  go (tabs : Bool) (cs : List Char) (column : Nat) (fresh : Bool) : Cursor :=
    match cs with
    | ' ' :: rest => go tabs rest (column + 1) fresh
    | '\n' :: rest => go brackets rest 0 true
    | '#' :: rest => skipComment rest
    | '\t' :: rest => if tabs then go tabs rest (column + 1) fresh else ⟨'\t' :: rest, column, fresh⟩
    | cs => ⟨cs, column, fresh⟩
  skipComment : List Char → Cursor
    | '\n' :: rest => go brackets rest 0 true
    | _ :: rest => skipComment rest
    | [] => ⟨[], 0, true⟩

end Cursor

end NoteRelay.Yaml
