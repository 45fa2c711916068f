import Mathlib.Data.String.Basic
import NoteRelay.Text.Bytes

/-!
# Bytes of texts

The bytes of a text have its characters as their glyphs, and no stray byte (`glyphsOfBytes_toUTF8`).
Texts are ordered by their characters, and so are the bytes that they are written in (`lt_iff_bytes_lt`).
A text whose characters are all ASCII is written with one byte for each character, and every list
of such bytes is what some text is written in (`bytes_asciiText`).
-/

namespace NoteRelay.Text

-- ---------------------------------------------------------------------------
-- Glyphs of text
-- ---------------------------------------------------------------------------

/-- Behind the bytes `before` stand those of the characters. -/
theorem glyphsFrom_append (before : ByteArray) (cs : List Char) :
    glyphsFrom (before ++ cs.utf8Encode) before.size = cs.map some := by
  induction cs generalizing before with
  | nil =>
    rw [glyphsFrom]
    simp
  | cons c cs ih =>
    have hsize : [c].utf8Encode.size = c.utf8Size := by
      simp [List.utf8Encode_singleton]
    have hchar : (before ++ (c :: cs).utf8Encode).utf8DecodeChar? before.size = some c := by
      rw [ByteArray.utf8DecodeChar?_eq_utf8DecodeChar?_extract,
        ByteArray.extract_append_eq_right rfl (by simp), List.utf8DecodeChar?_utf8Encode_cons]
    -- The character goes over to the bytes before, and the rest is a case of the induction.
    have hrest : before ++ (c :: cs).utf8Encode = (before ++ [c].utf8Encode) ++ cs.utf8Encode := by
      rw [List.utf8Encode_cons, ByteArray.append_assoc]
    have hnext := ih (before ++ [c].utf8Encode)
    rw [ByteArray.size_append, hsize, ← hrest] at hnext
    have hlt : before.size < (before ++ (c :: cs).utf8Encode).size := by
      have := c.utf8Size_pos
      rw [hrest, ByteArray.size_append, ByteArray.size_append, hsize]
      omega
    rw [glyphsFrom, if_pos hlt, hchar]
    simp [hnext]

theorem glyphsOfBytes_toUTF8 (s : String) : glyphsOfBytes s.toUTF8 = glyphsOfText s := by
  have hbytes : s.toUTF8 = .empty ++ s.toList.utf8Encode := by
    rw [String.utf8Encode_toList, ByteArray.empty_append, String.toUTF8_eq_toByteArray]
  rw [glyphsOfBytes, glyphsOfText, hbytes]
  exact glyphsFrom_append .empty s.toList

-- ---------------------------------------------------------------------------
-- The order of bytes
-- ---------------------------------------------------------------------------

/-- The bytes that a text is written in. -/
def bytes (s : String) : List UInt8 :=
  s.toUTF8.data.toList

theorem bytes_eq_flatMap (s : String) : bytes s = s.toList.flatMap String.utf8EncodeChar := by
  rw [bytes, String.toUTF8_eq_toByteArray, ← String.utf8Encode_toList, List.utf8Encode]
  simp

/-- What follows the bytes of two characters does not matter to their order. -/
theorem utf8EncodeChar_append_lt {c d : Char} (h : c < d) (s t : List UInt8) :
    String.utf8EncodeChar c ++ s < String.utf8EncodeChar d ++ t := by
  have hlt : c.val.toNat < d.val.toNat := h
  have hle : d.val.toNat ≤ 0x10ffff := by
    have := d.valid
    simp only [UInt32.isValidChar, Nat.isValidChar] at this
    omega
  have hsecond (k : Nat) : k / 4096 = k / 64 / 64 := by omega
  have hthird (k : Nat) : k / 262144 = k / 64 / 64 / 64 := by omega
  simp only [String.utf8EncodeChar, hsecond, hthird]
  generalize c.val.toNat = m at hlt
  generalize d.val.toNat = n at hlt hle
  -- The first byte tells how many there are, so that the order is decided at one of the bytes.
  split_ifs <;>
    simp only [List.cons_append, List.nil_append, List.cons_lt_cons_iff, UInt8.lt_iff_toNat_lt,
      ← UInt8.toNat_inj, UInt8.toNat_ofNat'] <;> omega

theorem flatMap_utf8EncodeChar_lt {cs ds : List Char} (h : cs < ds) :
    cs.flatMap String.utf8EncodeChar < ds.flatMap String.utf8EncodeChar := by
  induction h with
  | @nil d ds =>
    obtain ⟨b, bs, hd⟩ := List.exists_cons_of_ne_nil (String.utf8EncodeChar_ne_nil (c := d))
    simp [hd]
  | rel h => exact utf8EncodeChar_append_lt h _ _
  | @cons c _ _ _ ih => exact List.append_left_lt ih

theorem lt_iff_bytes_lt (a b : String) : a < b ↔ bytes a < bytes b := by
  rw [String.lt_iff_toList_lt, bytes_eq_flatMap, bytes_eq_flatMap]
  refine ⟨flatMap_utf8EncodeChar_lt, fun h => ?_⟩
  obtain hlt | heq | hgt := lt_trichotomy a.toList b.toList
  · exact hlt
  · rw [heq] at h
    exact absurd h (List.lt_irrefl _)
  · exact absurd (flatMap_utf8EncodeChar_lt hgt) (List.lt_asymm h)

-- ---------------------------------------------------------------------------
-- ASCII
-- ---------------------------------------------------------------------------

theorem toList_loop (bs : ByteArray) (i : Nat) (taken : List UInt8) :
    ByteArray.toList.loop bs i taken = taken.reverse ++ bs.data.toList.drop i := by
  fun_induction ByteArray.toList.loop bs i taken with
  | case1 i taken hlt ih =>
    have hi : i < bs.data.toList.length := by simpa using hlt
    have hnext : bs.get! i = bs.data.toList[i] := by
      simp [ByteArray.get!, getElem!_pos bs.data i (by simpa using hlt)]
    rw [ih, List.reverse_cons, List.append_assoc, hnext, List.singleton_append,
      ← List.drop_eq_getElem_cons]
  | case2 i taken hge =>
    rw [List.drop_eq_nil_of_le (by simpa using hge), List.append_nil]

theorem toList_eq (bs : ByteArray) : bs.toList = bs.data.toList :=
  toList_loop bs 0 []

/-- The text whose characters have these bytes for numbers. -/
def asciiText (bs : List UInt8) : String :=
  String.ofList (bs.map fun b => Char.ofNat b.toNat)

theorem utf8EncodeChar_ofNat {b : UInt8} (h : b < 128) :
    String.utf8EncodeChar (Char.ofNat b.toNat) = [b] := by
  have hb : b.toNat < 128 := h
  have hval : (Char.ofNat b.toNat).val.toNat = b.toNat := by
    have hvalid : b.toNat.isValidChar := .inl (by omega)
    rw [Char.ofNat, dif_pos hvalid]
    rfl
  simp only [String.utf8EncodeChar, hval]
  rw [if_pos (by omega), UInt8.ofNat_toNat]

theorem bytes_asciiText {bs : List UInt8} (h : ∀ b ∈ bs, b < 128) : bytes (asciiText bs) = bs := by
  rw [bytes_eq_flatMap, asciiText, String.toList_ofList]
  induction bs with
  | nil => rfl
  | cons b bs ih =>
    rw [List.map_cons, List.flatMap_cons, utf8EncodeChar_ofNat (h b List.mem_cons_self),
      ih fun c hc => h c (List.mem_cons_of_mem b hc)]
    rfl

theorem bytes_inj {s t : String} (h : bytes s = bytes t) : s = t := by
  rw [← String.toByteArray_inj]
  exact ByteArray.ext (Array.toList_inj.mp h)

end NoteRelay.Text
