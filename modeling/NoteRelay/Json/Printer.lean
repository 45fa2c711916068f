import NoteRelay.Text.Numeral

/-!
# JSON values and their text

The tree of a JSON text. Numbers keep their written form, since readers differ in the forms they
take: `1.0` is a number and no integer. Object members keep their order and their repetitions,
since some readers refuse what others overwrite.

The text is compact: no blanks, members in their order, and in strings only the quote, the backslash
and the control characters escaped.
-/

namespace NoteRelay

-- ---------------------------------------------------------------------------
-- Values
-- ---------------------------------------------------------------------------

inductive Json where
  | null
  | bool (value : Bool)
  | number (lexeme : String)
  | string (text : String)
  | array (items : List Json)
  | object (members : List (String × Json))
  /-- Sound syntax around text that is not Unicode (a lone surrogate escape or a stray byte in
  this string, or in a key of this object). It may be passed over, but it has no content. -/
  | garbled
  deriving BEq, Repr, Inhabited

namespace Json

/-- Containers around the innermost value. -/
def depth : Json → Nat
  | array items => depths items + 1
  | object members => memberDepths members + 1
  | _ => 0
where
  depths : List Json → Nat
    | [] => 0
    | j :: rest => max j.depth (depths rest)
  memberDepths : List (String × Json) → Nat
    | [] => 0
    | (_, j) :: rest => max j.depth (memberDepths rest)

end Json

-- ---------------------------------------------------------------------------
-- Text
-- ---------------------------------------------------------------------------

namespace Json

def escaped (c : Char) : List Char :=
  if c == '"' then ['\\', '"']
  else if c == '\\' then ['\\', '\\']
  else if c == '\x08' then ['\\', 'b']
  else if c == '\t' then ['\\', 't']
  else if c == '\n' then ['\\', 'n']
  else if c == '\x0c' then ['\\', 'f']
  else if c == '\r' then ['\\', 'r']
  else if c.toNat < 0x20 then
    ['\\', 'u', '0', '0', Numeral.digit (c.toNat / 16), Numeral.digit (c.toNat % 16)]
  else [c]

def quoted (s : String) : List Char :=
  '"' :: (s.toList.flatMap escaped ++ ['"'])

/-- The characters of a value. A `garbled` value has no content and is written as `null`. -/
def written : Json → List Char
  | null => ['n', 'u', 'l', 'l']
  | bool true => ['t', 'r', 'u', 'e']
  | bool false => ['f', 'a', 'l', 's', 'e']
  | number lexeme => lexeme.toList
  | string text => quoted text
  | array items => '[' :: (writtenItems items ++ [']'])
  | object members => '\x7b' :: (writtenMembers members ++ ['\x7d'])
  | garbled => ['n', 'u', 'l', 'l']
where
  writtenItems : List Json → List Char
    | [] => []
    | [j] => j.written
    | j :: rest => j.written ++ ',' :: writtenItems rest
  writtenMembers : List (String × Json) → List Char
    | [] => []
    | [(k, j)] => quoted k ++ ':' :: j.written
    | (k, j) :: rest => quoted k ++ ':' :: (j.written ++ ',' :: writtenMembers rest)

def render (j : Json) : String :=
  String.ofList j.written

end Json

end NoteRelay
