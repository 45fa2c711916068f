import NoteRelay.Text.Form
import NoteRelay.Text.Numeral

/-!
# Instants in UTC

A date of the proleptic Gregorian calendar with a time of day to the nanosecond. A leap second is
the second 59 with a second's worth of extra nanoseconds, as `23:59:60.25` is `23:59:59` and
1 250 000 000 ns. Every value is a date that exists: the rule is a field of the type.

Written as RFC 3339 in UTC, with the fewest of 0, 3, 6 or 9 fraction digits that are exact and a
sign on years outside 0 to 9999. Read more freely: blanks before the parts, one-digit fields, any
number of fraction digits, any offset.
-/

namespace NoteRelay

-- ---------------------------------------------------------------------------
-- Dates and times of day
-- ---------------------------------------------------------------------------

def isLeapYear (year : Int) : Bool :=
  year % 4 == 0 && (year % 100 != 0 || year % 400 == 0)

def daysInMonth (year : Int) (month : Nat) : Nat :=
  if month == 2 then (if isLeapYear year then 29 else 28)
  else if month == 4 || month == 6 || month == 9 || month == 11 then 30
  else 31

/-- The years a date can have. -/
def yearRange : Int × Int :=
  (-262143, 262142)

def IsDate (year : Int) (month day : Nat) : Prop :=
  (yearRange.1 ≤ year ∧ year ≤ yearRange.2) ∧ (1 ≤ month ∧ month ≤ 12) ∧
    (1 ≤ day ∧ day ≤ daysInMonth year month)

instance (year : Int) (month day : Nat) : Decidable (IsDate year month day) := by
  unfold IsDate; infer_instance

structure Date where
  year : Int
  month : Nat
  day : Nat
  isDate : IsDate year month day
  deriving DecidableEq, Repr

def Date.of? (year : Int) (month day : Nat) : Option Date :=
  if h : IsDate year month day then some ⟨year, month, day, h⟩ else none

def Date.next? (d : Date) : Option Date :=
  if d.day < daysInMonth d.year d.month then Date.of? d.year d.month (d.day + 1)
  else if d.month < 12 then Date.of? d.year (d.month + 1) 1
  else Date.of? (d.year + 1) 1 1

def Date.previous? (d : Date) : Option Date :=
  if 1 < d.day then Date.of? d.year d.month (d.day - 1)
  else if 1 < d.month then Date.of? d.year (d.month - 1) (daysInMonth d.year (d.month - 1))
  else Date.of? (d.year - 1) 12 31

/-- The date so many days after 1 January 1970. Years are counted from March, so that the leap day
ends a year, in cycles of 400 years, which all have 146 097 days. -/
def Date.ofEpochDay? (day : Int) : Option Date :=
  let shifted := day + 719468
  let cycle := shifted / 146097
  let inCycle := shifted % 146097
  let yearInCycle := (inCycle - inCycle / 1460 + inCycle / 36524 - inCycle / 146096) / 365
  let inYear := inCycle - (365 * yearInCycle + yearInCycle / 4 - yearInCycle / 100)
  let fromMarch := (5 * inYear + 2) / 153
  let dayOfMonth := inYear - (153 * fromMarch + 2) / 5 + 1
  let month := if fromMarch < 10 then fromMarch + 3 else fromMarch - 9
  let year := yearInCycle + cycle * 400 + (if month ≤ 2 then 1 else 0)
  Date.of? year month.toNat dayOfMonth.toNat

def nanosPerSecond : Nat :=
  1000000000

def IsTimeOfDay (hour minute second nano : Nat) : Prop :=
  (hour < 24 ∧ minute < 60 ∧ second < 60) ∧
    (nano < nanosPerSecond ∨ (second = 59 ∧ nano < 2 * nanosPerSecond))

instance (hour minute second nano : Nat) : Decidable (IsTimeOfDay hour minute second nano) := by
  unfold IsTimeOfDay; infer_instance

structure TimeOfDay where
  hour : Nat
  minute : Nat
  second : Nat
  nano : Nat
  isTimeOfDay : IsTimeOfDay hour minute second nano
  deriving DecidableEq, Repr

def TimeOfDay.of? (hour minute second nano : Nat) : Option TimeOfDay :=
  if h : IsTimeOfDay hour minute second nano then some ⟨hour, minute, second, nano, h⟩ else none

structure Timestamp where
  date : Date
  time : TimeOfDay
  deriving DecidableEq, Repr

namespace Timestamp

/-- The instant that many seconds after the start of 1970, and that many nanoseconds more. -/
def ofUnix? (seconds : Int) (nanos : Nat) : Option Timestamp := do
  let date ← Date.ofEpochDay? (seconds / 86400)
  let inDay := (seconds % 86400).toNat
  let time ← TimeOfDay.of? (inDay / 3600) (inDay / 60 % 60) (inDay % 60) nanos
  return ⟨date, time⟩

/-- The instant shown by a clock that runs `offset` minutes ahead of UTC, by less than a day. -/
def ofLocal? (date : Date) (time : TimeOfDay) (offset : Int) : Option Timestamp := do
  let minutes : Int := time.hour * 60 + time.minute - offset
  let date ← if minutes < 0 then date.previous?
    else if minutes < 1440 then some date
    else date.next?
  let inDay := (minutes % 1440).toNat
  let time ← TimeOfDay.of? (inDay / 60) (inDay % 60) time.second time.nano
  return ⟨date, time⟩

end Timestamp

-- ---------------------------------------------------------------------------
-- As text
-- ---------------------------------------------------------------------------

namespace Timestamp

open Text (dropBlanks)

def writtenYear (year : Int) : List Char :=
  if year < 0 then '-' :: Numeral.padded 4 year.natAbs
  else if year ≤ 9999 then Numeral.padded 4 year.toNat
  else '+' :: Numeral.padded 4 year.toNat

def writtenFraction (nano : Nat) : List Char :=
  if nano == 0 then []
  else if nano % 1000000 == 0 then '.' :: Numeral.padded 3 (nano / 1000000)
  else if nano % 1000 == 0 then '.' :: Numeral.padded 6 (nano / 1000)
  else '.' :: Numeral.padded 9 nano

def writtenDate (d : Date) : List Char :=
  writtenYear d.year ++ '-' :: (Numeral.padded 2 d.month ++ '-' :: Numeral.padded 2 d.day)

/-- A leap second is written as second 60. -/
def writtenTime (t : TimeOfDay) : List Char :=
  let (second, nano) :=
    if t.nano < nanosPerSecond then (t.second, t.nano)
    else (t.second + 1, t.nano - nanosPerSecond)
  Numeral.padded 2 t.hour ++ ':' :: (Numeral.padded 2 t.minute ++
    ':' :: (Numeral.padded 2 second ++ writtenFraction nano))

def written (t : Timestamp) : List Char :=
  writtenDate t.date ++ 'T' :: (writtenTime t.time ++ ['Z'])

def render (t : Timestamp) : String :=
  String.ofList t.written

/-- One to `most` decimal digits in front, blanks before them passed over. -/
def number? (most : Nat) (cs : List Char) : Option (Nat × List Char) :=
  let cs := dropBlanks cs
  let ds := (cs.take most).takeWhile Numeral.isDecimal
  if ds.isEmpty then none else some (Numeral.decimalValue ds, cs.drop ds.length)

/-- A year of up to four digits, or of any number of digits behind a sign. -/
def year? (cs : List Char) : Option (Int × List Char) :=
  match dropBlanks cs with
  | '-' :: rest =>
    match rest.takeWhile Numeral.isDecimal with
    | [] => none
    | ds => some (-(Numeral.decimalValue ds : Int), rest.drop ds.length)
  | '+' :: rest =>
    match rest.takeWhile Numeral.isDecimal with
    | [] => none
    | ds => some ((Numeral.decimalValue ds : Int), rest.drop ds.length)
  | rest => (number? 4 rest).map fun (n, rest) => ((n : Int), rest)

def dropMark? (mark : Char) (cs : List Char) : Option (List Char) :=
  match dropBlanks cs with
  | c :: rest => if c == mark then some rest else none
  | [] => none

/-- The nanoseconds of a fraction, if there is one. Digits after the ninth are cut off. -/
def fraction? : List Char → Option (Nat × List Char)
  | '.' :: rest =>
    let ds := rest.takeWhile Numeral.isDecimal
    if ds.isEmpty then none
    else
      let kept := ds.take 9
      some (Numeral.decimalValue kept * Nat.pow 10 (9 - kept.length), rest.drop ds.length)
  | cs => some (0, cs)

def pair? : List Char → Option (Nat × List Char)
  | a :: b :: rest =>
    if Numeral.isDecimal a && Numeral.isDecimal b then
      some (Numeral.decimalValue [a, b], rest)
    else none
  | _ => none

def offsetSign? : List Char → Option (Int × List Char)
  | '+' :: rest => some (1, rest)
  | '-' :: rest => some (-1, rest)
  | '\u2212' :: rest => some (-1, rest)
  | _ => none

/-- Minutes ahead of UTC. -/
def offset? (cs : List Char) : Option (Int × List Char) :=
  match dropBlanks cs with
  | 'Z' :: rest | 'z' :: rest => some (0, rest)
  | cs =>
    if (cs.take 3).map Char.toLower == ['u', 't', 'c'] then some (0, cs.drop 3)
    else do
      let (sign, cs) ← offsetSign? cs
      let (hours, cs) ← pair? cs
      let (minutes, cs) ← pair? (cs.dropWhile fun c => c == ':' || Text.isBlank c)
      if hours < 24 ∧ minutes < 60 then some (sign * (hours * 60 + minutes : Nat), cs) else none

def date? (cs : List Char) : Option (Date × List Char) := do
  let (year, cs) ← year? cs
  let cs ← dropMark? '-' cs
  let (month, cs) ← number? 2 cs
  let cs ← dropMark? '-' cs
  let (day, cs) ← number? 2 cs
  let date ← Date.of? year month day
  return (date, cs)

/-- The time in front. Second 60 is a leap second. -/
def time? (cs : List Char) : Option (TimeOfDay × List Char) := do
  let (hour, cs) ← number? 2 cs
  let cs ← dropMark? ':' cs
  let (minute, cs) ← number? 2 cs
  let cs ← dropMark? ':' cs
  let (second, cs) ← number? 2 cs
  let (nano, cs) ← fraction? cs
  let time ← if second = 60 then TimeOfDay.of? hour minute 59 (nano + nanosPerSecond)
    else TimeOfDay.of? hour minute second nano
  return (time, cs)

def isDateTimeMark (c : Char) : Bool :=
  c == 'T' || c == 't' || c == ' '

def ofChars? (cs : List Char) : Option Timestamp := do
  let (date, cs) ← date? cs
  match cs with
  | [] => none
  | mark :: cs =>
    if isDateTimeMark mark then
      let (time, cs) ← time? cs
      let (offset, cs) ← offset? cs
      if cs.all Text.isBlank then ofLocal? date time offset else none
    else none

def ofText? (s : String) : Option Timestamp :=
  ofChars? s.toList

end Timestamp

end NoteRelay
