import NoteRelay.Settings.Environment
import NoteRelay.Text.Numeral
import NoteRelay.Timestamp

/-!
# TOML scalars

Blanks and comments, strings in their four forms, numbers and dates. Readers take the characters
in front and return what follows.
-/

namespace NoteRelay.Toml

open Environment (hexChar?)

def isBlank (c : Char) : Bool :=
  c == ' ' || c == '\t'

def skipBlanks (cs : List Char) : List Char :=
  cs.dropWhile isBlank

/-- Characters that may stand in comments and in quotes. -/
def isPrintable (c : Char) : Bool :=
  c == '\t' || (0x20 ≤ c.toNat && c.toNat != 0x7f)

def skipComment : List Char → List Char
  | '#' :: rest => rest.dropWhile isPrintable
  | cs => cs

def dropBreak? : List Char → Option (List Char)
  | '\n' :: rest => some rest
  | '\r' :: '\n' :: rest => some rest
  | _ => none

def dropLine? (cs : List Char) : Option (List Char) :=
  match skipComment (skipBlanks cs) with
  | [] => some []
  | cs => dropBreak? cs

/-- Skips blanks, comments and line breaks. Each turn takes a line, so the count of characters
bounds the turns. -/
def skipLines (fuel : Nat) (cs : List Char) : List Char :=
  match fuel with
  | 0 => cs
  | fuel + 1 =>
    let cs := skipComment (skipBlanks cs)
    match dropBreak? cs with
    | some rest => skipLines fuel rest
    | none => cs

def isBareKeyChar (c : Char) : Bool :=
  c.isAlphanum || c == '_' || c == '-'

-- ---------------------------------------------------------------------------
-- Strings
-- ---------------------------------------------------------------------------

def escape? : List Char → Option (Char × List Char)
  | 'b' :: rest => some ('\x08', rest)
  | 't' :: rest => some ('\t', rest)
  | 'n' :: rest => some ('\n', rest)
  | 'f' :: rest => some ('\x0c', rest)
  | 'r' :: rest => some ('\r', rest)
  | '"' :: rest => some ('"', rest)
  | '\\' :: rest => some ('\\', rest)
  | 'u' :: rest => hexChar? 4 rest
  | 'U' :: rest => hexChar? 8 rest
  | _ => none

def basicBody? : Nat → List Char → Option (List Char × List Char)
  | 0, _ => none
  | fuel + 1, cs =>
    match cs with
    | [] => none
    | '"' :: rest => some ([], rest)
    | '\\' :: rest => do
      let (c, rest) ← escape? rest
      let (text, rest) ← basicBody? fuel rest
      return (c :: text, rest)
    | c :: rest =>
      if isPrintable c then do
        let (text, rest) ← basicBody? fuel rest
        return (c :: text, rest)
      else none

def literalBody? (cs : List Char) : Option (List Char × List Char) :=
  let text := cs.takeWhile fun c => isPrintable c && c != '\x27'
  match cs.drop text.length with
  | '\x27' :: rest => some (text, rest)
  | _ => none

/-- Blanks and line breaks behind a backslash that ends a line. -/
def skipFold (fuel : Nat) (cs : List Char) : List Char :=
  match fuel with
  | 0 => cs
  | fuel + 1 =>
    match dropBreak? (skipBlanks cs) with
    | some rest => skipFold fuel rest
    | none => skipBlanks cs

/-- A string over several lines, from behind its quotes. Up to two quotes may stand right before
the three that end it. -/
def longBody? (quote : Char) (escapes : Bool) : Nat → List Char → Option (List Char × List Char)
  | 0, _ => none
  | fuel + 1, cs =>
    let put (c : Char) (rest : List Char) := do
      let (text, rest) ← longBody? quote escapes fuel rest
      return (c :: text, rest)
    match cs with
    | [] => none
    | c :: rest =>
      if c == quote then
        let run := (cs.takeWhile (· == quote)).length
        if run < 3 then put c rest
        else if run ≤ 5 then some (List.replicate (run - 3) quote, cs.drop run)
        else none
      else if c == '\\' && escapes then
        match dropBreak? (skipBlanks rest) with
        | some rest => longBody? quote escapes fuel (skipFold fuel rest)
        | none => do
          let (c, rest) ← escape? rest
          put c rest
      else if isPrintable c then put c rest
      else
        match dropBreak? cs with
        | some rest => put '\n' rest
        | none => none

/-- A line break right behind the opening quotes is not part of the string. -/
def dropFirstBreak (cs : List Char) : List Char :=
  (dropBreak? cs).getD cs

def string? (cs : List Char) : Option (List Char × List Char) :=
  let fuel := cs.length + 1
  match cs with
  | '"' :: '"' :: '"' :: rest => longBody? '"' true fuel (dropFirstBreak rest)
  | '\x27' :: '\x27' :: '\x27' :: rest => longBody? '\x27' false fuel (dropFirstBreak rest)
  | '"' :: rest => basicBody? fuel rest
  | '\x27' :: rest => literalBody? rest
  | _ => none

def simpleKey? (cs : List Char) : Option (String × List Char) :=
  match cs with
  | '"' :: rest => (basicBody? (cs.length + 1) rest).map fun (k, rest) => (String.ofList k, rest)
  | '\x27' :: rest => (literalBody? rest).map fun (k, rest) => (String.ofList k, rest)
  | cs =>
    match cs.takeWhile isBareKeyChar with
    | [] => none
    | name => some (String.ofList name, cs.drop name.length)

/-- A key path with dots between its steps, and blanks around each. -/
def keyPath? : Nat → List Char → Option (List String × List Char)
  | 0, _ => none
  | fuel + 1, cs => do
    let (key, rest) ← simpleKey? (skipBlanks cs)
    match skipBlanks rest with
    | '.' :: rest =>
      let (path, rest) ← keyPath? fuel rest
      return (key :: path, rest)
    | rest => return ([key], rest)

-- ---------------------------------------------------------------------------
-- Numbers and dates
-- ---------------------------------------------------------------------------

/-- Whether digits of a class stand with single underscores between them, none at an end. -/
def isDigitRun (isDigit : Char → Bool) : List Char → Bool
  | [] => false
  | [c] => isDigit c
  | c :: '_' :: rest => isDigit c && isDigitRun isDigit rest
  | c :: rest => isDigit c && isDigitRun isDigit rest

def valueOfRun (base : Nat) (cs : List Char) : Nat :=
  Numeral.value base (cs.filterMap Numeral.digitValue?)

/-- Whether a run is a decimal number without a leading zero. -/
def isPlainRun (cs : List Char) : Bool :=
  isDigitRun Numeral.isDecimal cs && (cs.length == 1 || cs.head? != some '0')

def inInt64 (i : Int) : Option Tree :=
  if Int64.minValue.toInt ≤ i ∧ i ≤ Int64.maxValue.toInt then some (.whole i) else none

def digitBelow (base : Nat) (c : Char) : Bool :=
  match Numeral.digitValue? c with
  | some d => d < base
  | none => false

def radixRun? (base : Nat) (cs : List Char) : Option Tree :=
  if isDigitRun (digitBelow base) cs then inInt64 (valueOfRun base cs) else none

/-- A whole number, in decimal or behind the mark of a base. -/
def integer? : List Char → Option Tree
  | '0' :: 'x' :: rest => radixRun? 16 rest
  | '0' :: 'o' :: rest => radixRun? 8 rest
  | '0' :: 'b' :: rest => radixRun? 2 rest
  | '-' :: rest => if isPlainRun rest then inInt64 (-(valueOfRun 10 rest : Int)) else none
  | '+' :: rest => if isPlainRun rest then inInt64 (valueOfRun 10 rest) else none
  | cs => if isPlainRun cs then inInt64 (valueOfRun 10 cs) else none

def isExponentMark (c : Char) : Bool :=
  c == 'e' || c == 'E'

def float? (cs : List Char) : Option Tree :=
  let body := Environment.dropSign cs
  if body == "inf".toList || body == "nan".toList then some .otherNumber
  else
    let mantissa := body.takeWhile fun c => !isExponentMark c
    let exponent := body.drop mantissa.length
    let whole := mantissa.takeWhile (· != '.')
    let fraction := mantissa.drop whole.length
    let fractionOk := fraction.isEmpty || isDigitRun Numeral.isDecimal (fraction.drop 1)
    let exponentOk := exponent.isEmpty ||
      isDigitRun Numeral.isDecimal (Environment.dropSign (exponent.drop 1))
    let pointed := !(fraction.isEmpty && exponent.isEmpty)
    if isPlainRun whole && fractionOk && exponentOk && pointed
        && !Decimal.lexemeOverflows (body.filter (· != '_')) then
      some .otherNumber
    else none

def digits? (count : Nat) (cs : List Char) : Option (Nat × List Char) :=
  let ds := cs.take count
  if ds.length = count ∧ ds.all Numeral.isDecimal then
    some (Numeral.decimalValue ds, cs.drop count)
  else none

def expect? (c : Char) : List Char → Option (List Char)
  | d :: rest => if c == d then some rest else none
  | [] => none

def dropDate? (cs : List Char) : Option (List Char) := do
  let (year, cs) ← digits? 4 cs
  let cs ← expect? '-' cs
  let (month, cs) ← digits? 2 cs
  let cs ← expect? '-' cs
  let (day, cs) ← digits? 2 cs
  let _ ← Date.of? year month day
  return cs

def dropFraction? : List Char → Option (List Char)
  | '.' :: rest =>
    match rest.takeWhile Numeral.isDecimal with
    | [] => none
    | ds => some (rest.drop ds.length)
  | cs => some cs

def dropTime? (cs : List Char) : Option (List Char) := do
  let (hour, cs) ← digits? 2 cs
  let cs ← expect? ':' cs
  let (minute, cs) ← digits? 2 cs
  let cs ← expect? ':' cs
  let (second, cs) ← digits? 2 cs
  if hour < 24 ∧ minute < 60 ∧ second ≤ 60 then dropFraction? cs else none

def dropOffset? : List Char → Option (List Char)
  | 'Z' :: rest => some rest
  | 'z' :: rest => some rest
  | c :: rest =>
    if c == '+' || c == '-' then do
      let (hours, cs) ← digits? 2 rest
      let cs ← expect? ':' cs
      let (minutes, cs) ← digits? 2 cs
      if hours < 24 ∧ minutes < 60 then some cs else none
    else some (c :: rest)
  | [] => some []

/-- A date or a time, as the table of one entry that no setting knows. -/
def dateTree : Tree :=
  .table [("$datetime", .text "")]

/-- What follows the time behind a date, if there is one. A blank between them counts only before
a digit. -/
def dropTimePart? : List Char → Option (List Char)
  | ' ' :: d :: rest =>
    if Numeral.isDecimal d then (dropTime? (d :: rest)).bind dropOffset? else some (' ' :: d :: rest)
  | c :: rest =>
    if c == 'T' || c == 't' then (dropTime? rest).bind dropOffset? else some (c :: rest)
  | [] => some []

def isWordChar (c : Char) : Bool :=
  c.isAlphanum || c == '_' || c == '-' || c == '+' || c == '.' || c == ':'

def number? (cs : List Char) : Option (Tree × List Char) :=
  match dropDate? cs with
  | some rest => (dropTimePart? rest).map (dateTree, ·)
  | none =>
    match dropTime? cs with
    | some rest => some (dateTree, rest)
    | none =>
      let word := cs.takeWhile isWordChar
      ((integer? word).orElse fun _ => float? word).map (·, cs.drop word.length)

end NoteRelay.Toml
