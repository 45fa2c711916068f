import Mathlib.Algebra.Group.Nat.Defs
import Mathlib.Data.List.Basic
import NoteRelay.Text.Numeral

/-!
# Numerals as texts

What readers of numerals need of their digits: they are digits, there is no zero in front that does
not count, and a numeral that is filled up with zeros has its width and its value.
-/

namespace NoteRelay.Numeral

theorem isDecimal_iff {c : Char} : isDecimal c = true ↔ 48 ≤ c.toNat ∧ c.toNat ≤ 57 := by
  simp [isDecimal, Char.le_def, UInt32.le_iff_toNat_le]

theorem ne_of_isDecimal {c d : Char} (hc : isDecimal c = true) (hd : isDecimal d = false) :
    c ≠ d := by
  rintro rfl
  exact absurd (hc.symm.trans hd) (by decide)

theorem isDecimal_digit : ∀ d : Fin 10, isDecimal (digit d) = true := by
  decide

theorem digit_ne_zero : ∀ d : Fin 10, d ≠ 0 → digit d ≠ '0' := by
  decide

theorem isDecimal_of_mem_decimal {n : Nat} {c : Char} (h : c ∈ decimal n) :
    isDecimal c = true := by
  fun_induction decimal n with
  | case1 n hn =>
    obtain rfl := List.mem_singleton.mp h
    exact isDecimal_digit ⟨n, hn⟩
  | case2 n hn ih =>
    obtain h | h := List.mem_append.mp h
    · exact ih h
    · obtain rfl := List.mem_singleton.mp h
      exact isDecimal_digit ⟨n % 10, by omega⟩

theorem decimal_injective {m n : Nat} (h : decimal m = decimal n) : m = n := by
  rw [← value_decimal m, h, value_decimal]

/-- The first digit is no zero, unless the number is. -/
theorem decimal_eq_cons (n : Nat) :
    ∃ c cs, decimal n = c :: cs ∧ isDecimal c = true ∧ (c = '0' → n = 0 ∧ cs = []) := by
  fun_induction decimal n with
  | case1 n hn =>
    refine ⟨_, [], rfl, isDecimal_digit ⟨n, hn⟩, fun h => ⟨?_, rfl⟩⟩
    by_contra hne
    exact digit_ne_zero ⟨n, hn⟩ (by simpa [Fin.ext_iff] using hne) h
  | case2 n hn ih =>
    obtain ⟨c, cs, heq, hc, hzero⟩ := ih
    refine ⟨c, cs ++ [digit (n % 10)], by rw [heq, List.cons_append], hc, fun h => ?_⟩
    have := (hzero h).1
    omega

theorem decimal_ne_nil (n : Nat) : decimal n ≠ [] := by
  obtain ⟨c, cs, heq, -⟩ := decimal_eq_cons n
  simp [heq]

theorem signed_eq_cons (i : Int) :
    ∃ c cs, signed i = c :: cs ∧ (isDecimal c = true ∨ c = '-') := by
  unfold signed
  split
  · exact ⟨_, _, rfl, .inr rfl⟩
  · obtain ⟨c, cs, heq, hc, -⟩ := decimal_eq_cons i.natAbs
    exact ⟨c, cs, heq, .inl hc⟩

/-- A sign is no digit. -/
theorem signed_injective {i j : Int} (h : signed i = signed j) : i = j := by
  have hminus : ∀ n, '-' ∉ decimal n := fun n hmem =>
    ne_of_isDecimal (isDecimal_of_mem_decimal hmem) rfl rfl
  unfold signed at h
  split at h <;> split at h
  · have := decimal_injective (List.cons.inj h).2
    omega
  · exact absurd (h ▸ List.mem_cons_self) (hminus _)
  · exact absurd (h ▸ List.mem_cons_self) (hminus _)
  · have := decimal_injective h
    omega

theorem ofInt_injective {i j : Int} (h : ofInt i = ofInt j) : i = j :=
  signed_injective (String.ofList_injective h)

-- ---------------------------------------------------------------------------
-- Numerals of a width
-- ---------------------------------------------------------------------------

theorem length_decimal_le {n width : Nat} (hpos : 0 < width) (h : n < 10 ^ width) :
    (decimal n).length ≤ width := by
  fun_induction decimal n generalizing width with
  | case1 n hn => exact hpos
  | case2 n hn ih =>
    obtain ⟨width, rfl⟩ : ∃ w, width = w + 1 := ⟨width - 1, by omega⟩
    have hwidth : 0 < width := by
      by_contra hzero
      obtain rfl : width = 0 := by omega
      omega
    have := ih hwidth (by rw [Nat.pow_succ] at h; omega)
    simpa using this

theorem isDecimal_of_mem_padded {width n : Nat} {c : Char} (h : c ∈ padded width n) :
    isDecimal c = true := by
  obtain h | h := List.mem_append.mp h
  · rw [List.eq_of_mem_replicate h]
    rfl
  · exact isDecimal_of_mem_decimal h

theorem length_padded {width n : Nat} (hpos : 0 < width) (h : n < 10 ^ width) :
    (padded width n).length = width := by
  have := length_decimal_le hpos h
  simp only [padded, List.length_append, List.length_replicate]
  omega

theorem padded_ne_nil (width n : Nat) : padded width n ≠ [] := by
  simp [padded, decimal_ne_nil]

theorem decimalValue_zeros_append (k : Nat) (cs : List Char) :
    decimalValue (List.replicate k '0' ++ cs) = decimalValue cs := by
  induction k with
  | zero => rfl
  | succ k ih =>
    rw [← ih, List.replicate_succ, List.cons_append]
    rfl

theorem decimalValue_padded (width n : Nat) : decimalValue (padded width n) = n := by
  rw [padded, decimalValue_zeros_append, value_decimal]

end NoteRelay.Numeral
