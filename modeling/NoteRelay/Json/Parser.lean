import NoteRelay.Json.Printer
import NoteRelay.Text.Bytes
import NoteRelay.Text.Numeral

/-!
# Reading JSON

A strict reader of RFC 8259 text over glyphs: four blanks, no leading zeros, no trailing commas,
no comments, no raw control characters in strings, nothing after the value. Bytes that are no
text are refused outside strings; inside one they make the value `garbled`.
-/

namespace NoteRelay.Json

open Text (Glyph)

def isSpace (c : Char) : Bool :=
  c == ' ' || c == '\t' || c == '\n' || c == '\r'

def skipSpace : List Glyph → List Glyph
  | some c :: rest => if isSpace c then skipSpace rest else some c :: rest
  | gs => gs

/-- What one element between the quotes stands for: a character, a UTF-16 unit written as an
escape, or a stray byte. -/
inductive Piece where
  | char (c : Char)
  | unit (n : Nat)
  | stray
  deriving DecidableEq, Repr

def shortEscape? : Char → Option Char
  | '"' => some '"'
  | '\\' => some '\\'
  | '/' => some '/'
  | 'b' => some '\x08'
  | 'f' => some '\x0c'
  | 'n' => some '\n'
  | 'r' => some '\r'
  | 't' => some '\t'
  | _ => none

def hexUnit? (a b c d : Char) : Option Nat := do
  let a ← Numeral.digitValue? a
  let b ← Numeral.digitValue? b
  let c ← Numeral.digitValue? c
  let d ← Numeral.digitValue? d
  return Numeral.value 16 [a, b, c, d]

/-- The pieces up to the closing quote, and what follows it. -/
def pieces : List Glyph → Option (List Piece × List Glyph)
  | [] => none
  | none :: rest => do
    let (ps, rest) ← pieces rest
    return (.stray :: ps, rest)
  | some '"' :: rest => some ([], rest)
  | some '\\' :: some 'u' :: some a :: some b :: some c :: some d :: rest => do
    let n ← hexUnit? a b c d
    let (ps, rest) ← pieces rest
    return (.unit n :: ps, rest)
  | some '\\' :: some e :: rest => do
    let c ← shortEscape? e
    let (ps, rest) ← pieces rest
    return (.char c :: ps, rest)
  | some c :: rest =>
    if c.toNat < 0x20 || c == '\\' then none
    else do
      let (ps, rest) ← pieces rest
      return (.char c :: ps, rest)

def isHighSurrogate (n : Nat) : Bool :=
  0xD800 ≤ n && n ≤ 0xDBFF

def isLowSurrogate (n : Nat) : Bool :=
  0xDC00 ≤ n && n ≤ 0xDFFF

/-- The text that pieces spell: a high surrogate needs its low one right behind it, and there is
no other use of surrogates. -/
def spell : List Piece → Option (List Char)
  | [] => some []
  | .char c :: rest => (spell rest).map (c :: ·)
  | .stray :: _ => none
  | .unit hi :: .unit lo :: rest =>
    if isHighSurrogate hi then
      if isLowSurrogate lo then
        (spell rest).map (Char.ofNat (0x10000 + (hi - 0xD800) * 0x400 + (lo - 0xDC00)) :: ·)
      else none
    else if isLowSurrogate hi then none
    else (spell (.unit lo :: rest)).map (Char.ofNat hi :: ·)
  | .unit n :: rest =>
    if isHighSurrogate n || isLowSurrogate n then none
    else (spell rest).map (Char.ofNat n :: ·)

def digits : List Glyph → List Char × List Glyph
  | some c :: rest =>
    if Numeral.isDecimal c then
      let (ds, rest) := digits rest
      (c :: ds, rest)
    else ([], some c :: rest)
  | gs => ([], gs)

def someDigits? (gs : List Glyph) : Option (List Char × List Glyph) :=
  match digits gs with
  | ([], _) => none
  | taken => some taken

def wholePart? : List Glyph → Option (List Char × List Glyph)
  | some '0' :: rest => some (['0'], rest)
  | gs => someDigits? gs

def fractionPart? : List Glyph → Option (List Char × List Glyph)
  | some '.' :: rest => do
    let (ds, rest) ← someDigits? rest
    return ('.' :: ds, rest)
  | gs => some ([], gs)

def exponentDigits? : List Glyph → Option (List Char × List Glyph)
  | some c :: rest =>
    if c == '+' || c == '-' then do
      let (ds, rest) ← someDigits? rest
      return (c :: ds, rest)
    else someDigits? (some c :: rest)
  | gs => someDigits? gs

def exponentPart? : List Glyph → Option (List Char × List Glyph)
  | some c :: rest =>
    if c == 'e' || c == 'E' then do
      let (ds, rest) ← exponentDigits? rest
      return (c :: ds, rest)
    else some ([], some c :: rest)
  | gs => some ([], gs)

def unsignedNumber? (gs : List Glyph) : Option (List Char × List Glyph) := do
  let (whole, gs) ← wholePart? gs
  let (fraction, gs) ← fractionPart? gs
  let (exponent, gs) ← exponentPart? gs
  return (whole ++ fraction ++ exponent, gs)

def lexeme? : List Glyph → Option (List Char × List Glyph)
  | some '-' :: rest => do
    let (cs, rest) ← unsignedNumber? rest
    return ('-' :: cs, rest)
  | gs => unsignedNumber? gs

def dropWord? : List Char → List Glyph → Option (List Glyph)
  | [], gs => some gs
  | c :: cs, some g :: gs => if c == g then dropWord? cs gs else none
  | _ :: _, _ => none

def ofPieces (ps : List Piece) : Json :=
  match spell ps with
  | some cs => string (String.ofList cs)
  | none => garbled

/-- An object over keys of which some may be no text. -/
def ofMembers (members : List (List Piece × Json)) : Json :=
  match members.mapM fun (k, v) => (spell k).map fun cs => (String.ofList cs, v) with
  | some members => object members
  | none => garbled

mutual

def value? : Nat → List Glyph → Option (Json × List Glyph)
  | 0, _ => none
  | fuel + 1, gs =>
    match skipSpace gs with
    | some 'n' :: rest => (dropWord? ['u', 'l', 'l'] rest).map (null, ·)
    | some 't' :: rest => (dropWord? ['r', 'u', 'e'] rest).map (bool true, ·)
    | some 'f' :: rest => (dropWord? ['a', 'l', 's', 'e'] rest).map (bool false, ·)
    | some '"' :: rest => do
      let (ps, rest) ← pieces rest
      return (ofPieces ps, rest)
    | some '[' :: rest =>
      match skipSpace rest with
      | some ']' :: rest => some (array [], rest)
      | _ => do
        let (items, rest) ← items? fuel rest
        return (array items, rest)
    | some '\x7b' :: rest =>
      match skipSpace rest with
      | some '\x7d' :: rest => some (object [], rest)
      | _ => do
        let (members, rest) ← members? fuel rest
        return (ofMembers members, rest)
    | gs => do
      let (cs, rest) ← lexeme? gs
      return (number (String.ofList cs), rest)

/-- One item and all that follow it, with the closing bracket. -/
def items? : Nat → List Glyph → Option (List Json × List Glyph)
  | 0, _ => none
  | fuel + 1, gs => do
    let (item, rest) ← value? fuel gs
    match skipSpace rest with
    | some ',' :: rest =>
      let (items, rest) ← items? fuel rest
      return (item :: items, rest)
    | some ']' :: rest => return ([item], rest)
    | _ => none

/-- One member and all that follow it, with the closing brace. -/
def members? : Nat → List Glyph → Option (List (List Piece × Json) × List Glyph)
  | 0, _ => none
  | fuel + 1, gs =>
    match skipSpace gs with
    | some '"' :: rest => do
      let (key, rest) ← pieces rest
      match skipSpace rest with
      | some ':' :: rest =>
        let (item, rest) ← value? fuel rest
        match skipSpace rest with
        | some ',' :: rest =>
          let (members, rest) ← members? fuel rest
          return ((key, item) :: members, rest)
        | some '\x7d' :: rest => return ([(key, item)], rest)
        | _ => none
      | _ => none
    | _ => none

end

/-- The value that glyphs spell, with only blanks around it. Two steps of fuel a glyph suffice,
since between two glyphs consumed at most two readers call each other. -/
def ofGlyphs? (gs : List Glyph) : Option Json := do
  let (j, rest) ← value? (2 * gs.length + 2) gs
  match skipSpace rest with
  | [] => return j
  | _ => none

def ofText? (s : String) : Option Json :=
  ofGlyphs? (Text.glyphsOfText s)

def ofBytes? (bytes : ByteArray) : Option Json :=
  ofGlyphs? (Text.glyphsOfBytes bytes)

end NoteRelay.Json
