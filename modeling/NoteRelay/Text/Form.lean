import NoteRelay.Text.Bytes
import NoteRelay.Text.Numeral

/-!
# Blanks, percent escapes and form fields

The characters of the Unicode property `White_Space`, and what they leave of a text when they are
taken off its ends. Bytes written as `%` and two hexadecimal digits, and the form encoding of names
and values that queries use: fields between ampersands, a plus sign for a blank. An escape that is
cut short or has other digits stands for itself.
-/

namespace NoteRelay.Text

-- ---------------------------------------------------------------------------
-- Blanks
-- ---------------------------------------------------------------------------

/-- The characters of the property `White_Space`: a table of the standard. -/
def isBlank (c : Char) : Bool :=
  let n := c.toNat
  (9 ≤ n && n ≤ 13) || n == 0x20 || n == 0x85 || n == 0xA0 || n == 0x1680 ||
    (0x2000 ≤ n && n ≤ 0x200A) || n == 0x2028 || n == 0x2029 || n == 0x202F || n == 0x205F ||
    n == 0x3000

def dropBlanks (cs : List Char) : List Char :=
  cs.dropWhile isBlank

def trim (cs : List Char) : List Char :=
  (dropBlanks (dropBlanks cs).reverse).reverse

def allBlank (s : String) : Bool :=
  s.toList.all isBlank

-- ---------------------------------------------------------------------------
-- Escapes and fields
-- ---------------------------------------------------------------------------

def unescaped : List Char → List UInt8
  | '%' :: a :: b :: rest =>
    match Numeral.digitValue? a, Numeral.digitValue? b with
    | some hi, some lo => UInt8.ofNat (16 * hi + lo) :: unescaped rest
    | _, _ => 0x25 :: unescaped (a :: b :: rest)
  | c :: rest => String.utf8EncodeChar c ++ unescaped rest
  | [] => []

def formText (cs : List Char) : String :=
  lossyText (unescaped (cs.map fun c => if c == '+' then ' ' else c))

def splitAt (separator : Char) : List Char → List (List Char)
  | [] => [[]]
  | c :: rest =>
    match splitAt separator rest with
    | [] => [[c]]
    | piece :: pieces => if c == separator then [] :: piece :: pieces else (c :: piece) :: pieces

/-- What stands before the first separator and what stands behind it. -/
def cutAt (separator : Char) (cs : List Char) : List Char × Option (List Char) :=
  match cs.dropWhile (· != separator) with
  | [] => (cs, none)
  | _ :: rest => (cs.takeWhile (· != separator), some rest)

/-- The names and values of a query. A name without an equals sign has the empty value. -/
def formFields (query : List Char) : List (String × String) :=
  ((splitAt '&' query).filter (!·.isEmpty)).map fun field =>
    let (name, value) := cutAt '=' field
    (formText name, formText (value.getD []))

end NoteRelay.Text
