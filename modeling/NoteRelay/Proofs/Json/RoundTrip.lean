import NoteRelay.Json.Parser
import NoteRelay.Json.Printer
import NoteRelay.Proofs.Text.Numeral

/-!
# JSON is read as it was written

The reader gives back every value that the writer wrote, if its numbers are whole and all of it is
text (`ofText?_render`). A written value ends where its bracket, its quote or its last digit is, so
that what follows it is left as it is.
-/

namespace NoteRelay.Json

open Text (Glyph)

-- ---------------------------------------------------------------------------
-- Strings
-- ---------------------------------------------------------------------------

/-- A character stands between quotes behind a backslash, as a number, or for itself. -/
theorem escaped_cases (c : Char) :
    (∃ e, escaped c = ['\\', e] ∧ shortEscape? e = some c) ∨
      (c.toNat < 0x20 ∧ escaped c =
        ['\\', 'u', '0', '0', Numeral.digit (c.toNat / 16), Numeral.digit (c.toNat % 16)]) ∨
      (0x20 ≤ c.toNat ∧ c ≠ '"' ∧ c ≠ '\\' ∧ escaped c = [c]) := by
  unfold escaped
  split_ifs with hquote hslash hb ht hn hf hr hcontrol
  · exact .inl ⟨'"', rfl, by rw [beq_iff_eq.mp hquote]; rfl⟩
  · exact .inl ⟨'\\', rfl, by rw [beq_iff_eq.mp hslash]; rfl⟩
  · exact .inl ⟨'b', rfl, by rw [beq_iff_eq.mp hb]; rfl⟩
  · exact .inl ⟨'t', rfl, by rw [beq_iff_eq.mp ht]; rfl⟩
  · exact .inl ⟨'n', rfl, by rw [beq_iff_eq.mp hn]; rfl⟩
  · exact .inl ⟨'f', rfl, by rw [beq_iff_eq.mp hf]; rfl⟩
  · exact .inl ⟨'r', rfl, by rw [beq_iff_eq.mp hr]; rfl⟩
  · exact .inr (.inl ⟨hcontrol, rfl⟩)
  · exact .inr (.inr ⟨by omega, by simpa using hquote, by simpa using hslash, rfl⟩)

theorem pieces_short {e c : Char} (h : shortEscape? e = some c) (gs : List Glyph) :
    pieces (some '\\' :: some e :: gs) = (pieces gs).map fun r => (.char c :: r.1, r.2) := by
  have hu : e ≠ 'u' := by
    rintro rfl
    simp [shortEscape?] at h
  rw [pieces.eq_def]
  cases hgs : pieces gs <;> simp [hu, h, hgs]

theorem pieces_unit {a b c d : Char} {n : Nat} (h : hexUnit? a b c d = some n)
    (gs : List Glyph) :
    pieces (some '\\' :: some 'u' :: some a :: some b :: some c :: some d :: gs) =
      (pieces gs).map fun r => (.unit n :: r.1, r.2) := by
  rw [pieces.eq_def]
  cases hgs : pieces gs <;> simp [h, hgs]

theorem pieces_plain {c : Char} (hc : 0x20 ≤ c.toNat) (hquote : c ≠ '"') (hslash : c ≠ '\\')
    (gs : List Glyph) :
    pieces (some c :: gs) = (pieces gs).map fun r => (.char c :: r.1, r.2) := by
  rw [pieces.eq_def]
  cases hgs : pieces gs <;> simp [hslash, hgs, Nat.not_lt.mpr hc]

theorem hexUnit?_digits {n : Nat} (h : n < 0x20) :
    hexUnit? '0' '0' (Numeral.digit (n / 16)) (Numeral.digit (n % 16)) = some n := by
  have hzero : Numeral.digitValue? '0' = some 0 := rfl
  have hhigh := Numeral.digitValue?_digit ⟨n / 16, by omega⟩
  have hlow := Numeral.digitValue?_digit ⟨n % 16, by omega⟩
  simp only [hexUnit?, hzero, hhigh, hlow, Option.bind_eq_bind, Option.bind_some, Option.pure_def,
    Numeral.value, List.foldl_cons, List.foldl_nil]
  congr 1
  omega

/-- A small unit is a character of its own, whatever follows it. -/
theorem spell_unit {n : Nat} (h : n < 0xD800) (ps : List Piece) :
    spell (.unit n :: ps) = (spell ps).map (Char.ofNat n :: ·) := by
  have hhigh : isHighSurrogate n = false := by
    simp [isHighSurrogate]
    omega
  have hlow : isLowSurrogate n = false := by
    simp [isLowSurrogate]
    omega
  cases ps with
  | nil => simp [spell, hhigh, hlow]
  | cons p ps => cases p <;> simp [spell, hhigh, hlow]

/-- One character as it is written is one piece, which spells it. -/
theorem pieces_escaped (c : Char) :
    ∃ p, (∀ gs, pieces ((escaped c).map some ++ gs) =
        (pieces gs).map fun r => (p :: r.1, r.2)) ∧
      ∀ ps cs, spell ps = some cs → spell (p :: ps) = some (c :: cs) := by
  obtain ⟨e, he, hshort⟩ | ⟨hc, he⟩ | ⟨hc, hquote, hslash, he⟩ := escaped_cases c
  · exact ⟨.char c, fun gs => by rw [he]; exact pieces_short hshort gs,
      fun ps cs h => by simp [spell, h]⟩
  · refine ⟨.unit c.toNat, fun gs => by rw [he]; exact pieces_unit (hexUnit?_digits hc) gs, ?_⟩
    intro ps cs h
    rw [spell_unit (by omega), h, Option.map_some, Char.ofNat_toNat]
  · exact ⟨.char c, fun gs => by rw [he]; exact pieces_plain hc hquote hslash gs,
      fun ps cs h => by simp [spell, h]⟩

theorem pieces_quoted (cs : List Char) (gs : List Glyph) :
    ∃ ps, pieces ((cs.flatMap escaped).map some ++ some '"' :: gs) = some (ps, gs) ∧
      spell ps = some cs := by
  induction cs with
  | nil => exact ⟨[], by simp [pieces], rfl⟩
  | cons c cs ih =>
    obtain ⟨ps, hps, hspell⟩ := ih
    obtain ⟨p, hp, hcons⟩ := pieces_escaped c
    refine ⟨p :: ps, ?_, hcons ps cs hspell⟩
    rw [List.flatMap_cons, List.map_append, List.append_assoc, hp, hps, Option.map_some]

-- ---------------------------------------------------------------------------
-- Numbers
-- ---------------------------------------------------------------------------

/-- What may follow a value that is written: nothing, or a mark of the container that it is in. -/
def IsEnd : List Glyph → Prop
  | [] => True
  | g :: _ => g = some ',' ∨ g = some ']' ∨ g = some '\x7d'

theorem digits_append {ds : List Char} (hds : ∀ c ∈ ds, Numeral.isDecimal c = true)
    {gs : List Glyph} (hgs : IsEnd gs) : digits (ds.map some ++ gs) = (ds, gs) := by
  induction ds with
  | nil =>
    cases gs with
    | nil => rfl
    | cons g gs => obtain rfl | rfl | rfl := hgs <;> simp [digits, Numeral.isDecimal]
  | cons c ds ih =>
    simp [digits, hds c (by simp), ih fun c hc => hds c (by simp [hc])]

theorem wholePart?_decimal (n : Nat) {gs : List Glyph} (hgs : IsEnd gs) :
    wholePart? ((Numeral.decimal n).map some ++ gs) = some (Numeral.decimal n, gs) := by
  obtain ⟨c, cs, heq, hc, hzero⟩ := Numeral.decimal_eq_cons n
  by_cases h : c = '0'
  · obtain ⟨-, rfl⟩ := hzero h
    simp [heq, h, wholePart?]
  · have hdigits : digits ((Numeral.decimal n).map some ++ gs) = (Numeral.decimal n, gs) :=
      digits_append (fun c hc => Numeral.isDecimal_of_mem_decimal hc) hgs
    rw [heq] at hdigits ⊢
    rw [List.map_cons, List.cons_append] at hdigits ⊢
    unfold wholePart?
    split
    · next h' => simp_all
    · simp [someDigits?, hdigits]

theorem unsignedNumber?_decimal (n : Nat) {gs : List Glyph} (hgs : IsEnd gs) :
    unsignedNumber? ((Numeral.decimal n).map some ++ gs) = some (Numeral.decimal n, gs) := by
  have hfraction : fractionPart? gs = some ([], gs) := by
    cases gs with
    | nil => rfl
    | cons g gs => obtain rfl | rfl | rfl := hgs <;> rfl
  have hexponent : exponentPart? gs = some ([], gs) := by
    cases gs with
    | nil => rfl
    | cons g gs => obtain rfl | rfl | rfl := hgs <;> rfl
  simp [unsignedNumber?, wholePart?_decimal n hgs, hfraction, hexponent]

theorem lexeme?_signed (i : Int) {gs : List Glyph} (hgs : IsEnd gs) :
    lexeme? ((Numeral.signed i).map some ++ gs) = some (Numeral.signed i, gs) := by
  unfold Numeral.signed
  split
  · simp [lexeme?, unsignedNumber?_decimal _ hgs]
  · obtain ⟨c, cs, heq, hc, -⟩ := Numeral.decimal_eq_cons i.natAbs
    have hnumber := unsignedNumber?_decimal i.natAbs hgs
    rw [heq] at hnumber ⊢
    have hsign : c ≠ '-' := Numeral.ne_of_isDecimal hc rfl
    unfold lexeme?
    split
    · next h' => simp_all
    · exact hnumber

-- ---------------------------------------------------------------------------
-- Values
-- ---------------------------------------------------------------------------

/-- The numbers are whole, and all of it is text. -/
def IsPlain : Json → Prop
  | number lexeme => ∃ i, lexeme = Numeral.ofInt i
  | array items => areItems items
  | object members => areMembers members
  | garbled => False
  | _ => True
where
  areItems : List Json → Prop
    | [] => True
    | j :: rest => j.IsPlain ∧ areItems rest
  areMembers : List (String × Json) → Prop
    | [] => True
    | (_, j) :: rest => j.IsPlain ∧ areMembers rest

theorem skipSpace_cons {c : Char} (h : isSpace c = false) (gs : List Glyph) :
    skipSpace (some c :: gs) = some c :: gs := by
  simp [skipSpace, h]

theorem not_isSpace_of_isDecimal {c : Char} (h : Numeral.isDecimal c = true) :
    isSpace c = false := by
  have hne : ∀ d, Numeral.isDecimal d = false → c ≠ d := fun d => Numeral.ne_of_isDecimal h
  simp [isSpace, hne ' ' rfl, hne '\n' rfl, hne '\t' rfl, hne '\r' rfl]

theorem not_isSpace_signed {i : Int} {c : Char} {cs : List Char}
    (h : Numeral.signed i = c :: cs) : isSpace c = false := by
  obtain ⟨c', cs', heq, hc⟩ := Numeral.signed_eq_cons i
  obtain ⟨rfl, rfl⟩ := List.cons.inj (h.symm.trans heq)
  obtain hc | rfl := hc
  · exact not_isSpace_of_isDecimal hc
  · rfl

theorem writtenItems_cons_cons (j j' : Json) (rest : List Json) :
    written.writtenItems (j :: j' :: rest) =
      j.written ++ ',' :: written.writtenItems (j' :: rest) := by
  rw [written.writtenItems]
  simp

theorem writtenMembers_cons_cons (k : String) (j : Json) (m : String × Json)
    (rest : List (String × Json)) :
    written.writtenMembers ((k, j) :: m :: rest) =
      quoted k ++ ':' :: (j.written ++ ',' :: written.writtenMembers (m :: rest)) := by
  rw [written.writtenMembers]
  simp

/-- A value begins with no blank, and not as the end of an array. -/
theorem written_eq_cons {j : Json} (hj : j.IsPlain) :
    ∃ c cs, j.written = c :: cs ∧ isSpace c = false ∧ c ≠ ']' := by
  cases j with
  | number lexeme =>
    obtain ⟨i, rfl⟩ := hj
    obtain ⟨c, cs, heq, hc⟩ := Numeral.signed_eq_cons i
    refine ⟨c, cs, by rw [written, Numeral.ofInt, String.toList_ofList, heq],
      not_isSpace_signed heq, ?_⟩
    obtain hc | rfl := hc
    · exact Numeral.ne_of_isDecimal hc rfl
    · decide
  | bool value => cases value <;> exact ⟨_, _, rfl, by decide, by decide⟩
  | garbled => exact absurd hj id
  | _ => exact ⟨_, _, rfl, by decide, by decide⟩

theorem writtenItems_eq_cons {j : Json} (hj : j.IsPlain) (rest : List Json) :
    ∃ c cs, written.writtenItems (j :: rest) = c :: cs ∧ isSpace c = false ∧ c ≠ ']' := by
  obtain ⟨c, cs, heq, hc⟩ := written_eq_cons hj
  cases rest with
  | nil => exact ⟨c, cs, heq, hc⟩
  | cons j' rest => exact ⟨c, _, by rw [writtenItems_cons_cons, heq, List.cons_append], hc⟩

theorem writtenMembers_eq_cons (m : String × Json) (rest : List (String × Json)) :
    ∃ cs, written.writtenMembers (m :: rest) = '"' :: cs := by
  cases rest with
  | nil => exact ⟨_, rfl⟩
  | cons m' rest => exact ⟨_, by rw [writtenMembers_cons_cons]; rfl⟩

theorem value?_number (i : Int) {fuel : Nat} {gs : List Glyph} (hgs : IsEnd gs) :
    value? (fuel + 1) ((Numeral.signed i).map some ++ gs) =
      some (number (Numeral.ofInt i), gs) := by
  have hlexeme := lexeme?_signed i hgs
  obtain ⟨c, cs, heq, hc⟩ := Numeral.signed_eq_cons i
  have hspace := not_isSpace_signed heq
  rw [Numeral.ofInt]
  rw [heq, List.map_cons, List.cons_append] at hlexeme ⊢
  unfold value?
  rw [skipSpace_cons hspace]
  -- A digit or a sign begins no other value.
  split
  case h_7 => simp [hlexeme]
  all_goals simp_all [Numeral.isDecimal]

-- ---------------------------------------------------------------------------
-- The readers, one step of fuel after the other
-- ---------------------------------------------------------------------------

def ReadsValues (fuel : Nat) : Prop :=
  ∀ (j : Json) (gs : List Glyph), j.IsPlain → 2 * j.written.length ≤ fuel + 1 → IsEnd gs →
    value? fuel (j.written.map some ++ gs) = some (j, gs)

def ReadsItems (fuel : Nat) : Prop :=
  ∀ (items : List Json) (gs : List Glyph), items ≠ [] → IsPlain.areItems items →
    2 * (written.writtenItems items).length ≤ fuel →
    items? fuel ((written.writtenItems items).map some ++ some ']' :: gs) = some (items, gs)

def ReadsMembers (fuel : Nat) : Prop :=
  ∀ (members : List (String × Json)) (gs : List Glyph), members ≠ [] →
    IsPlain.areMembers members → 2 * (written.writtenMembers members).length ≤ fuel →
    ∃ ms, members? fuel ((written.writtenMembers members).map some ++ some '\x7d' :: gs) =
        some (ms, gs) ∧
      ms.mapM (fun (k, v) => (spell k).map fun cs => (String.ofList cs, v)) = some members

variable {fuel : Nat}

theorem readsValues_succ (hitems : ReadsItems fuel) (hmembers : ReadsMembers fuel) :
    ReadsValues (fuel + 1) := by
  intro j gs hj hfuel hgs
  cases j with
  | null => simp [written, value?, skipSpace, isSpace, dropWord?]
  | bool value => cases value <;> simp [written, value?, skipSpace, isSpace, dropWord?]
  | number lexeme =>
    obtain ⟨i, rfl⟩ := hj
    rw [written, Numeral.ofInt, String.toList_ofList]
    exact value?_number i hgs
  | string text =>
    obtain ⟨ps, hps, hspell⟩ := pieces_quoted text.toList gs
    simp [written, quoted, value?, skipSpace, isSpace, hps, ofPieces, hspell]
  | array items =>
    cases items with
    | nil => simp [written, written.writtenItems, value?, skipSpace, isSpace]
    | cons j rest =>
      have hread := hitems (j :: rest) gs (by simp) hj (by simp [written] at hfuel; omega)
      obtain ⟨c, cs, heq, hspace, hclose⟩ := writtenItems_eq_cons hj.1 rest
      simp only [written, heq, List.map_cons, List.map_append, List.cons_append] at hread ⊢
      have hbracket : isSpace '[' = false := rfl
      simp [value?, skipSpace_cons hbracket, skipSpace_cons hspace, hclose, hread]
  | object members =>
    cases members with
    | nil => simp [written, written.writtenMembers, value?, skipSpace, isSpace]
    | cons m rest =>
      obtain ⟨ms, hread, hms⟩ :=
        hmembers (m :: rest) gs (by simp) hj (by simp [written] at hfuel; omega)
      obtain ⟨cs, heq⟩ := writtenMembers_eq_cons m rest
      simp only [written, heq, List.map_cons, List.map_append, List.cons_append] at hread ⊢
      simp [value?, skipSpace, isSpace, hread, ofMembers, hms]
  | garbled => exact absurd hj id

theorem readsItems_succ (hvalues : ReadsValues fuel) (hitems : ReadsItems fuel) :
    ReadsItems (fuel + 1) := by
  intro items gs hne hplain hfuel
  match items, hne with
  | [j], _ =>
    have hread := hvalues j (some ']' :: gs) hplain.1 (by simpa [written.writtenItems] using hfuel)
      (by simp [IsEnd])
    simp [written.writtenItems, items?, hread, skipSpace, isSpace]
  | j :: j' :: rest, _ =>
    rw [writtenItems_cons_cons] at hfuel ⊢
    simp only [List.length_append, List.length_cons] at hfuel
    have hread := hvalues j
      (some ',' :: ((written.writtenItems (j' :: rest)).map some ++ some ']' :: gs)) hplain.1
      (by omega) (by simp [IsEnd])
    have hrest := hitems (j' :: rest) gs (by simp) hplain.2 (by
      obtain ⟨c, cs, heq, -⟩ := written_eq_cons hplain.1
      simp only [heq, List.length_cons] at hfuel
      omega)
    simp [items?, hread, hrest, skipSpace, isSpace]

theorem readsMembers_succ (hvalues : ReadsValues fuel) (hmembers : ReadsMembers fuel) :
    ReadsMembers (fuel + 1) := by
  intro members gs hne hplain hfuel
  match members, hne with
  | [(k, j)], _ =>
    obtain ⟨ps, hps, hspell⟩ :=
      pieces_quoted k.toList (some ':' :: (j.written.map some ++ some '\x7d' :: gs))
    have hread := hvalues j (some '\x7d' :: gs) hplain.1
      (by simp [written.writtenMembers, quoted] at hfuel; omega) (by simp [IsEnd])
    refine ⟨[(ps, j)], ?_, by simp [hspell]⟩
    simp [written.writtenMembers, quoted, members?, hps, hread, skipSpace, isSpace]
  | (k, j) :: m :: rest, _ =>
    rw [writtenMembers_cons_cons] at hfuel ⊢
    simp only [List.length_append, List.length_cons] at hfuel
    obtain ⟨ms, hrest, hms⟩ := hmembers (m :: rest) gs (by simp) hplain.2 (by omega)
    obtain ⟨ps, hps, hspell⟩ := pieces_quoted k.toList (some ':' :: (j.written.map some ++
      some ',' :: ((written.writtenMembers (m :: rest)).map some ++ some '\x7d' :: gs)))
    have hread := hvalues j (some ',' :: ((written.writtenMembers (m :: rest)).map some ++
      some '\x7d' :: gs)) hplain.1 (by omega) (by simp [IsEnd])
    refine ⟨(ps, j) :: ms, ?_, by simp [hspell, hms]⟩
    simp [quoted, members?, hps, hread, hrest, skipSpace, isSpace]

theorem reads_written (fuel : Nat) : ReadsValues fuel ∧ ReadsItems fuel ∧ ReadsMembers fuel := by
  induction fuel with
  | zero =>
    refine ⟨?_, ?_, ?_⟩
    · intro j gs hj hfuel
      obtain ⟨c, cs, heq, -⟩ := written_eq_cons hj
      simp [heq] at hfuel
      omega
    · intro items gs hne hplain hfuel
      obtain ⟨j, rest, rfl⟩ := List.exists_cons_of_ne_nil hne
      obtain ⟨c, cs, heq, -⟩ := writtenItems_eq_cons hplain.1 rest
      simp [heq] at hfuel
    · intro members gs hne hplain hfuel
      obtain ⟨m, rest, rfl⟩ := List.exists_cons_of_ne_nil hne
      obtain ⟨cs, heq⟩ := writtenMembers_eq_cons m rest
      simp [heq] at hfuel
  | succ fuel ih =>
    obtain ⟨hvalues, hitems, hmembers⟩ := ih
    exact ⟨readsValues_succ hitems hmembers, readsItems_succ hvalues hitems,
      readsMembers_succ hvalues hmembers⟩

/-- What is written is read back. -/
theorem ofText?_render {j : Json} (hj : j.IsPlain) : ofText? j.render = some j := by
  have hread := (reads_written (2 * j.written.length + 2)).1 j [] hj (by omega) trivial
  rw [List.append_nil] at hread
  simp [ofText?, ofGlyphs?, Text.glyphsOfText, render, hread, skipSpace]

end NoteRelay.Json
