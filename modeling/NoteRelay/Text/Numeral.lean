/-!
# Numerals

Whole numbers as digits. `value_decimal` says that the decimal digits of a number read back as
that number, `digitValue?_digit` the same of a single digit up to base sixteen. Whether a decimal
number is too large for a binary floating-point number of 64 bits is settled in exact arithmetic.
-/

-- ---------------------------------------------------------------------------
-- Digits
-- ---------------------------------------------------------------------------

namespace NoteRelay.Numeral

/-- The digit of a value below sixteen, in lower case. -/
def digit (d : Nat) : Char :=
  if d < 10 then Char.ofNat (48 + d) else Char.ofNat (87 + d)

/-- The value of a digit in bases up to sixteen, in either case. -/
def digitValue? (c : Char) : Option Nat :=
  if '0' ≤ c ∧ c ≤ '9' then some (c.toNat - 48)
  else if 'a' ≤ c ∧ c ≤ 'f' then some (c.toNat - 87)
  else if 'A' ≤ c ∧ c ≤ 'F' then some (c.toNat - 55)
  else none

def isDecimal (c : Char) : Bool :=
  '0' ≤ c && c ≤ '9'

theorem digitValue?_digit : ∀ d : Fin 16, digitValue? (digit d) = some d.val := by
  decide

def value (base : Nat) (ds : List Nat) : Nat :=
  ds.foldl (fun n d => base * n + d) 0

def decimalValue (cs : List Char) : Nat :=
  value 10 (cs.map fun c => c.toNat - 48)

/-- The decimal digits of a number: at least one, and no leading zero. -/
def decimal (n : Nat) : List Char :=
  if n < 10 then [digit n] else decimal (n / 10) ++ [digit (n % 10)]
termination_by n
decreasing_by omega

theorem digit_toNat : ∀ d : Fin 10, (digit d).toNat - 48 = d.val := by
  decide

theorem value_append (base : Nat) (ds : List Nat) (d : Nat) :
    value base (ds ++ [d]) = base * value base ds + d := by
  simp [value]

theorem value_decimal (n : Nat) : decimalValue (decimal n) = n := by
  fun_induction decimal n with
  | case1 n h => simpa [decimalValue, value] using digit_toNat ⟨n, h⟩
  | case2 n h ih =>
    have hd := digit_toNat ⟨n % 10, by omega⟩
    simp only [decimalValue, List.map_append, List.map_cons, List.map_nil, value_append] at ih ⊢
    simp only at hd
    rw [hd, ih]
    omega

def padded (width n : Nat) : List Char :=
  let ds := decimal n
  List.replicate (width - ds.length) '0' ++ ds

def signed (i : Int) : List Char :=
  if i < 0 then '-' :: decimal i.natAbs else decimal i.natAbs

def ofNat (n : Nat) : String :=
  String.ofList (decimal n)

def ofInt (i : Int) : String :=
  String.ofList (signed i)

end NoteRelay.Numeral

-- ---------------------------------------------------------------------------
-- The range of binary64
-- ---------------------------------------------------------------------------

namespace NoteRelay.Decimal

/-- Halfway between the largest finite number and the power of two above it: what is not below
rounds to infinity. -/
def overflowBound : Nat :=
  Nat.pow 2 1024 - Nat.pow 2 970

/-- Whether `digits * 10 ^ exponent` rounds to infinity. Beyond 400 places the answer does not
depend on the exponent any more, except for zero. -/
def overflows (digits : Nat) (exponent : Int) : Bool :=
  if digits == 0 then false
  else if 400 < exponent then true
  else if 0 ≤ exponent then overflowBound ≤ digits * Nat.pow 10 exponent.toNat
  else if exponent < -(400 + (Numeral.decimal digits).length : Int) then false
  else overflowBound * Nat.pow 10 (-exponent).toNat ≤ digits

/-- The same of a number written with digits, an optional point and an optional exponent. -/
def lexemeOverflows (lexeme : List Char) : Bool :=
  let mantissa := (lexeme.takeWhile fun c => c != 'e' && c != 'E').filter fun c =>
    Numeral.isDecimal c || c == '.'
  let tail := (lexeme.dropWhile fun c => c != 'e' && c != 'E').drop 1
  let whole := mantissa.filter Numeral.isDecimal
  let places := ((mantissa.dropWhile fun c => c != '.').drop 1).length
  let ds := tail.filter Numeral.isDecimal
  let size : Int := Numeral.decimalValue ds
  let exponent := if tail.head? == some '-' then -size else size
  overflows (Numeral.decimalValue whole) (exponent - places)

end NoteRelay.Decimal
