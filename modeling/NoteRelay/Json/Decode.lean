import NoteRelay.Json.Printer
import NoteRelay.Text.Numeral

/-!
# Reading typed values out of JSON

What the decoders of records, choices and scalars have in common. A record is read from an object,
or from an array that holds its fields in their declared order; a choice is read from its name, or
from an object whose only key is the name.
-/

namespace NoteRelay.Json

def text? : Json → Option String
  | string s => some s
  | _ => none

def flag? : Json → Option Bool
  | bool b => some b
  | _ => none

def optionalText? : Json → Option (Option String)
  | null => some none
  | string s => some (some s)
  | _ => none

/-- The whole number that a lexeme writes in digits alone. A negative zero is not one of them. -/
def wholeOfLexeme? (lexeme : List Char) : Option Int :=
  match lexeme with
  | '-' :: ds =>
    let n := Numeral.decimalValue ds
    if ds.all Numeral.isDecimal && n != 0 then some (-(n : Int)) else none
  | ds => if ds.all Numeral.isDecimal then some (Numeral.decimalValue ds : Int) else none

def whole? : Json → Option Int
  | number lexeme => wholeOfLexeme? lexeme.toList
  | _ => none

def wholeWithin? (low high : Int) (j : Json) : Option Int :=
  j.whole?.filter fun i => low ≤ i && i ≤ high

def int64? (j : Json) : Option Int64 :=
  (j.wholeWithin? Int64.minValue.toInt Int64.maxValue.toInt).map Int64.ofInt

def int32? (j : Json) : Option Int32 :=
  (j.wholeWithin? Int32.minValue.toInt Int32.maxValue.toInt).map Int32.ofInt

def uint64? (j : Json) : Option UInt64 :=
  (j.wholeWithin? 0 (UInt64.size - 1)).map fun i => UInt64.ofNat i.toNat

def uint32? (j : Json) : Option UInt32 :=
  (j.wholeWithin? 0 (UInt32.size - 1)).map fun i => UInt32.ofNat i.toNat

def uint16? (j : Json) : Option UInt16 :=
  (j.wholeWithin? 0 (UInt16.size - 1)).map fun i => UInt16.ofNat i.toNat

def ofInt64 (i : Int64) : Json :=
  number (Numeral.ofInt i.toInt)

def ofInt32 (i : Int32) : Json :=
  number (Numeral.ofInt i.toInt)

def ofNat (n : Nat) : Json :=
  number (Numeral.ofNat n)

/-- The last value under a key. -/
def get? (key : String) : Json → Option Json
  | object members => (members.reverse.find? fun m => m.1 == key).map (·.2)
  | _ => none

/-- A member that is there and is not `null`. -/
def given? (key : String) (j : Json) : Option Json :=
  match j.get? key with
  | some null => none
  | found => found

def items : Json → List Json
  | array items => items
  | _ => []

/-- What a record gives for each of its fields, in the order of `fields`. Unknown keys are passed
over, a known key that comes twice is refused, and so is an array longer than the record. -/
def slots? (fields : List String) : Json → Option (List (Option Json))
  | object members =>
    let known := (members.map (·.1)).filter fields.contains
    if known.Nodup then some (fields.map fun f => members.lookup f) else none
  | array items =>
    if items.length ≤ fields.length then
      some (items.map some ++ List.replicate (fields.length - items.length) none)
    else none
  | _ => none

def choice? : Json → Option (String × Option Json)
  | string name => some (name, none)
  | object [(name, content)] => some (name, some content)
  | _ => none

/-- The name of a choice of which nothing is said but its name. -/
def bareChoice? (j : Json) : Option String :=
  match j.choice? with
  | some (name, none) => some name
  | some (name, some null) => some name
  | _ => none

end NoteRelay.Json

namespace NoteRelay

def fieldValue? {α : Type} (read : Json → Option α) (slot : Option Json) : Option α :=
  slot.bind read

/-- The value of a field that may be left out. -/
def fieldOr? {α : Type} (absent : α) (read : Json → Option α) : Option Json → Option α
  | some j => read j
  | none => some absent

end NoteRelay
