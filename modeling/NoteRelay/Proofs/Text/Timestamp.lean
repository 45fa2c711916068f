import Mathlib.Data.List.TakeWhile
import NoteRelay.Proofs.Text.Numeral
import NoteRelay.Timestamp

/-!
# Instants are read as they were written

Every instant that the type admits, with years of any sign and width, leap seconds and fractions of
any of the written widths (`ofText?_render`).
-/

namespace NoteRelay.Timestamp

open Numeral (padded isDecimal)

-- ---------------------------------------------------------------------------
-- Numbers and years
-- ---------------------------------------------------------------------------

theorem not_isBlank_of_isDecimal {c : Char} (h : isDecimal c = true) :
    Text.isBlank c = false := by
  obtain ⟨hlow, hhigh⟩ := Numeral.isDecimal_iff.mp h
  simp [Text.isBlank]
  omega

theorem takeWhile_padded (width n : Nat) {c : Char} (hc : isDecimal c = false)
    (rest : List Char) :
    (padded width n ++ c :: rest).takeWhile isDecimal = padded width n := by
  rw [List.takeWhile_append_of_pos fun c hc => Numeral.isDecimal_of_mem_padded hc]
  simp [hc]

theorem padded_eq_cons (width n : Nat) :
    ∃ c cs, padded width n = c :: cs ∧ isDecimal c = true := by
  obtain ⟨c, cs, heq⟩ := List.exists_cons_of_ne_nil (Numeral.padded_ne_nil width n)
  exact ⟨c, cs, heq, Numeral.isDecimal_of_mem_padded (heq ▸ List.mem_cons_self)⟩

theorem dropBlanks_padded (width n : Nat) (rest : List Char) :
    Text.dropBlanks (padded width n ++ rest) = padded width n ++ rest := by
  obtain ⟨c, cs, heq, hc⟩ := padded_eq_cons width n
  simp [heq, Text.dropBlanks, not_isBlank_of_isDecimal hc]

theorem number?_padded {width n : Nat} (hpos : 0 < width) (h : n < 10 ^ width)
    (rest : List Char) : number? width (padded width n ++ rest) = some (n, rest) := by
  have hlength := Numeral.length_padded hpos h
  have hdigits : ((padded width n ++ rest).take width).takeWhile isDecimal = padded width n := by
    rw [List.take_append_of_le_length (by omega), List.take_of_length_le (by omega)]
    exact List.takeWhile_eq_self_iff.mpr fun c hc => Numeral.isDecimal_of_mem_padded hc
  simp [number?, dropBlanks_padded, hdigits, Numeral.padded_ne_nil, Numeral.decimalValue_padded]

theorem takeWhile_year (n : Nat) (rest : List Char) :
    ∃ c cs, padded 4 n = c :: cs ∧ isDecimal c = true ∧
      (c :: (cs ++ '-' :: rest)).takeWhile isDecimal = c :: cs ∧
      Numeral.decimalValue (c :: cs) = n := by
  obtain ⟨c, cs, heq, hc⟩ := padded_eq_cons 4 n
  have hminus : isDecimal '-' = false := rfl
  have htake := takeWhile_padded 4 n hminus rest
  rw [heq] at htake
  exact ⟨c, cs, heq, hc, htake, heq ▸ Numeral.decimalValue_padded 4 n⟩

theorem year?_written (year : Int) (rest : List Char) :
    year? (writtenYear year ++ '-' :: rest) = some (year, '-' :: rest) := by
  unfold writtenYear
  split
  · obtain ⟨c, cs, heq, -, htake, hvalue⟩ := takeWhile_year year.natAbs rest
    have hblank : Text.isBlank '-' = false := rfl
    have hyear : -(Numeral.decimalValue (c :: cs) : Int) = year := by omega
    simp [year?, Text.dropBlanks, heq, hblank, htake, hyear]
  · split
    · obtain ⟨c, cs, heq, hc, -, -⟩ := takeWhile_year year.toNat rest
      have hnumber : number? 4 (padded 4 year.toNat ++ '-' :: rest) =
          some (year.toNat, '-' :: rest) := number?_padded (by omega) (by omega) _
      have hplain : c ≠ '-' ∧ c ≠ '+' :=
        ⟨Numeral.ne_of_isDecimal hc rfl, Numeral.ne_of_isDecimal hc rfl⟩
      unfold year?
      rw [dropBlanks_padded]
      rw [heq, List.cons_append] at hnumber ⊢
      simp [hplain, hnumber]
      omega
    · obtain ⟨c, cs, heq, -, htake, hvalue⟩ := takeWhile_year year.toNat rest
      have hblank : Text.isBlank '+' = false := rfl
      have hyear : (Numeral.decimalValue (c :: cs) : Int) = year := by omega
      simp [year?, Text.dropBlanks, heq, hblank, htake, hyear]

theorem dropMark?_cons {mark : Char} (h : Text.isBlank mark = false) (rest : List Char) :
    dropMark? mark (mark :: rest) = some rest := by
  simp [dropMark?, Text.dropBlanks, h]

-- ---------------------------------------------------------------------------
-- Dates and times
-- ---------------------------------------------------------------------------

theorem date?_written (d : Date) {c : Char} (rest : List Char) :
    date? (writtenDate d ++ c :: rest) = some (d, c :: rest) := by
  have hmark : Text.isBlank '-' = false := rfl
  obtain ⟨hyear, hmonth, hday⟩ := d.isDate
  have hdays : daysInMonth d.year d.month ≤ 31 := by
    unfold daysInMonth
    split_ifs <;> omega
  simp [date?, writtenDate, year?_written, dropMark?_cons hmark,
    number?_padded (show 0 < 2 by omega) (show d.month < 10 ^ 2 by omega),
    number?_padded (show 0 < 2 by omega) (show d.day < 10 ^ 2 by omega), Date.of?, d.isDate]

/-- The digits of a fraction, with zeros for the places that are left out. -/
theorem fraction?_padded {width n : Nat} (hpos : 0 < width) (hwidth : width ≤ 9)
    (h : n < 10 ^ width) {c : Char} (hc : isDecimal c = false) (rest : List Char) :
    fraction? ('.' :: (padded width n ++ c :: rest)) =
      some (n * 10 ^ (9 - width), c :: rest) := by
  have hlength := Numeral.length_padded hpos h
  have htake : (padded width n).take 9 = padded width n :=
    List.take_of_length_le (by omega)
  simp [fraction?, takeWhile_padded width n hc, Numeral.padded_ne_nil, htake, hlength,
    Numeral.decimalValue_padded]

theorem fraction?_written {nano : Nat} (h : nano < nanosPerSecond) (rest : List Char) :
    fraction? (writtenFraction nano ++ 'Z' :: rest) = some (nano, 'Z' :: rest) := by
  have hz : isDecimal 'Z' = false := rfl
  unfold nanosPerSecond at h
  unfold writtenFraction
  split_ifs with hzero hmillis hmicros
  · obtain rfl : nano = 0 := by simpa using hzero
    simp [fraction?]
  · have hmod : nano % 1000000 = 0 := by simpa using hmillis
    rw [List.cons_append, fraction?_padded (by omega) (by omega) (by omega) hz]
    simp
    omega
  · have hmod : nano % 1000 = 0 := by simpa using hmicros
    rw [List.cons_append, fraction?_padded (by omega) (by omega) (by omega) hz]
    simp
    omega
  · rw [List.cons_append, fraction?_padded (by omega) (by omega) (by omega) hz]
    simp

theorem TimeOfDay.of?_eq (t : TimeOfDay) :
    TimeOfDay.of? t.hour t.minute t.second t.nano = some t := by
  simp [TimeOfDay.of?, t.isTimeOfDay]

theorem time?_parts {hour minute second nano : Nat} {cs rest : List Char} (hhour : hour < 100)
    (hminute : minute < 100) (hsecond : second < 100)
    (hfraction : fraction? cs = some (nano, rest)) :
    time? (padded 2 hour ++ ':' :: (padded 2 minute ++ ':' :: (padded 2 second ++ cs))) =
      (if second = 60 then TimeOfDay.of? hour minute 59 (nano + nanosPerSecond)
        else TimeOfDay.of? hour minute second nano).map (·, rest) := by
  have hmark : Text.isBlank ':' = false := rfl
  have hread : ∀ {n : Nat}, n < 100 → ∀ rest, number? 2 (padded 2 n ++ rest) = some (n, rest) :=
    fun hn => number?_padded (by omega) (by omega)
  unfold time?
  generalize nanosPerSecond = extra
  simp only [hread hhour, hread hminute, hread hsecond, dropMark?_cons hmark, hfraction,
    Option.bind_eq_bind, Option.bind_some, Option.pure_def]
  split <;> rw [Option.map_eq_bind] <;> rfl

theorem time?_written (t : TimeOfDay) (rest : List Char) :
    time? (writtenTime t ++ 'Z' :: rest) = some (t, 'Z' :: rest) := by
  obtain ⟨⟨hhour, hminute, hsecond⟩, hnano⟩ := t.isTimeOfDay
  by_cases hplain : t.nano < nanosPerSecond
  · have hwritten : writtenTime t = padded 2 t.hour ++ ':' :: (padded 2 t.minute ++
        ':' :: (padded 2 t.second ++ writtenFraction t.nano)) := by
      simp [writtenTime, hplain]
    have hparts := time?_parts (show t.hour < 100 by omega) (show t.minute < 100 by omega)
      (show t.second < 100 by omega) (fraction?_written hplain rest)
    rw [if_neg (by omega), TimeOfDay.of?_eq, Option.map_some] at hparts
    simpa [hwritten] using hparts
  · -- What is beyond the second is a leap second.
    obtain ⟨hlast, hleap⟩ := hnano.resolve_left hplain
    have hwritten : writtenTime t = padded 2 t.hour ++ ':' :: (padded 2 t.minute ++
        ':' :: (padded 2 60 ++ writtenFraction (t.nano - nanosPerSecond))) := by
      simp [writtenTime, hplain, hlast]
    have hparts := time?_parts (show t.hour < 100 by omega) (show t.minute < 100 by omega)
      (show 60 < 100 by omega)
      (fraction?_written (show t.nano - nanosPerSecond < nanosPerSecond by omega) rest)
    have hwhole : t.nano - nanosPerSecond + nanosPerSecond = t.nano := by omega
    rw [if_pos rfl, hwhole, ← hlast, TimeOfDay.of?_eq, Option.map_some] at hparts
    simpa [hwritten] using hparts

/-- Under no offset an instant is what the clock shows. -/
theorem ofLocal?_utc (t : Timestamp) : ofLocal? t.date t.time 0 = some t := by
  obtain ⟨⟨hhour, hminute, -⟩, -⟩ := t.time.isTimeOfDay
  have hnonneg : ¬ ((t.time.hour : Int) * 60 + t.time.minute - 0 < 0) := by omega
  have hday : (t.time.hour : Int) * 60 + t.time.minute - 0 < 1440 := by omega
  have hinDay : (((t.time.hour : Int) * 60 + t.time.minute - 0) % 1440).toNat =
      t.time.hour * 60 + t.time.minute := by omega
  have hhours : (t.time.hour * 60 + t.time.minute) / 60 = t.time.hour := by omega
  have hminutes : (t.time.hour * 60 + t.time.minute) % 60 = t.time.minute := by omega
  simp only [ofLocal?, hnonneg, hday, hinDay, hhours, hminutes, TimeOfDay.of?_eq, if_true, if_false]
  rfl

theorem ofText?_render (t : Timestamp) : ofText? t.render = some t := by
  have hmark : isDateTimeMark 'T' = true := rfl
  have hoffset : offset? ['Z'] = some (0, []) := rfl
  rw [ofText?, render, String.toList_ofList, ofChars?, written, date?_written, Option.bind_eq_bind,
    Option.bind_some]
  simp only [hmark, if_true, time?_written, hoffset, Option.bind_eq_bind, Option.bind_some,
    List.all_nil, ofLocal?_utc]

end NoteRelay.Timestamp
