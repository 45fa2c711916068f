import Mathlib.Data.List.Basic
import NoteRelay.ChatMessage
import NoteRelay.NoteEvent
import NoteRelay.Proofs.Json.RoundTrip
import NoteRelay.Proofs.Text.Bytes
import NoteRelay.Proofs.Text.Timestamp

/-!
# Values are read as they were written

A format that loses nothing (`Json.Lossless`), and that those of the queues do: chat messages and
note events are read back from the tree of the value, from its text and from the bytes of that text.
-/

namespace NoteRelay

-- ---------------------------------------------------------------------------
-- Formats
-- ---------------------------------------------------------------------------

namespace Json

theorem ofBytes?_toUTF8 (s : String) : ofBytes? s.toUTF8 = ofText? s := by
  rw [ofBytes?, ofText?, Text.glyphsOfBytes_toUTF8]

/-- The texts of a format are read as what was written, and so are their bytes. -/
def Lossless {α : Type} (write : α → Json) (read? : Json → Option α) : Prop :=
  ∀ a, (ofText? (write a).render).bind read? = some a ∧
    (ofBytes? (write a).render.toUTF8).bind read? = some a

theorem lossless_of_isPlain {α : Type} {write : α → Json} {read? : Json → Option α}
    (hplain : ∀ a, (write a).IsPlain) (hread : ∀ a, read? (write a) = some a) :
    Lossless write read? := by
  intro a
  have htext : (ofText? (write a).render).bind read? = some a := by
    rw [ofText?_render (hplain a), Option.bind_some, hread]
  exact ⟨htext, by rw [ofBytes?_toUTF8, htext]⟩

-- ---------------------------------------------------------------------------
-- Whole numbers
-- ---------------------------------------------------------------------------

theorem wholeOfLexeme?_signed (i : Int) : wholeOfLexeme? (Numeral.signed i) = some i := by
  have hall : ∀ n, (Numeral.decimal n).all Numeral.isDecimal = true := fun n =>
    List.all_eq_true.mpr fun c hc => Numeral.isDecimal_of_mem_decimal hc
  unfold Numeral.signed
  split
  · have hsigned : -(i.natAbs : Int) = i := by omega
    rw [wholeOfLexeme?, hall, Numeral.value_decimal, hsigned]
    exact if_pos (by simp; omega)
  · obtain ⟨c, cs, heq, hc, -⟩ := Numeral.decimal_eq_cons i.natAbs
    have hsign : c ≠ '-' := Numeral.ne_of_isDecimal hc rfl
    have hdigits := hall i.natAbs
    have hvalue := Numeral.value_decimal i.natAbs
    rw [heq] at hdigits hvalue ⊢
    unfold wholeOfLexeme?
    split
    · simp_all
    · rw [if_pos hdigits, hvalue]
      congr 1
      omega

theorem wholeWithin?_ofInt {low high i : Int} (hlow : low ≤ i) (hhigh : i ≤ high) :
    (number (Numeral.ofInt i)).wholeWithin? low high = some i := by
  simp only [wholeWithin?, whole?, Numeral.ofInt, String.toList_ofList, wholeOfLexeme?_signed,
    Option.filter, hlow, hhigh, decide_true, Bool.and_true, if_true]

theorem int64?_ofInt64 (i : Int64) : (ofInt64 i).int64? = some i := by
  rw [int64?, ofInt64, wholeWithin?_ofInt (Int64.minValue_le_toInt i) (Int64.toInt_le i),
    Option.map_some, Int64.ofInt_toInt]

theorem int32?_ofInt32 (i : Int32) : (ofInt32 i).int32? = some i := by
  rw [int32?, ofInt32, wholeWithin?_ofInt (Int32.minValue_le_toInt i) (Int32.toInt_le i),
    Option.map_some, Int32.ofInt_toInt]

theorem isPlain_ofInt64 (i : Int64) : (ofInt64 i).IsPlain :=
  ⟨i.toInt, rfl⟩

theorem isPlain_ofInt32 (i : Int32) : (ofInt32 i).IsPlain :=
  ⟨i.toInt, rfl⟩

end Json

-- ---------------------------------------------------------------------------
-- UUIDs
-- ---------------------------------------------------------------------------

namespace Uuid

theorem hexDigit?_digit (d : Fin 16) : hexDigit? (Numeral.digit d) = some d := by
  simp [hexDigit?, Numeral.digitValue?_digit]

theorem mapM_simpleChars (u : Uuid) : u.simpleChars.mapM hexDigit? = some u.digits.toList := by
  unfold simpleChars
  induction u.digits.toList with
  | nil => rfl
  | cons d ds ih => simp [List.mapM_cons, hexDigit?_digit, ih]

theorem ofSimple?_simpleChars (u : Uuid) : ofSimple? u.simpleChars = some u := by
  simp [ofSimple?, mapM_simpleChars]
  rfl

theorem ofHyphenated?_groups {a b c d e : List Char} (ha : a.length = 8) (hb : b.length = 4)
    (hc : c.length = 4) (hd : d.length = 4) (he : e.length = 12) :
    ofHyphenated? (a ++ '-' :: (b ++ '-' :: (c ++ '-' :: (d ++ '-' :: e)))) =
      ofSimple? (a ++ b ++ c ++ d ++ e) := by
  simp [ofHyphenated?, ha, hb, hc, hd, he, List.drop_append, List.getElem?_append,
    List.drop_of_length_le]

theorem length_simpleChars (u : Uuid) : u.simpleChars.length = 32 := by
  simp [simpleChars]

theorem ofHyphenated?_hyphenatedChars (u : Uuid) : ofHyphenated? u.hyphenatedChars = some u := by
  have hlength := length_simpleChars u
  have hgroups : u.simpleChars.take 8 ++ (u.simpleChars.drop 8).take 4 ++
      (u.simpleChars.drop 12).take 4 ++ (u.simpleChars.drop 16).take 4 ++ u.simpleChars.drop 20 =
        u.simpleChars := by
    have hnext : ∀ n k, (u.simpleChars.drop n).take k ++ u.simpleChars.drop (n + k) =
        u.simpleChars.drop n := by
      intro n k
      rw [← List.drop_drop, List.take_append_drop]
    rw [List.append_assoc, List.append_assoc, List.append_assoc, hnext 16 4, hnext 12 4, hnext 8 4,
      List.take_append_drop]
  rw [hyphenatedChars, ofHyphenated?_groups (by simp [hlength]) (by simp [hlength])
    (by simp [hlength]) (by simp [hlength]) (by simp [hlength]), hgroups, ofSimple?_simpleChars]

theorem mapM_hexDigit?_of_mem {cs : List Char} (h : '-' ∈ cs) : cs.mapM hexDigit? = none := by
  induction cs with
  | nil => cases h
  | cons c cs ih =>
    rw [List.mapM_cons]
    obtain rfl | h := List.mem_cons.mp h
    · rfl
    · rw [ih h]
      cases hexDigit? c <;> rfl

/-- A hyphen is no digit. -/
theorem ofSimple?_hyphenatedChars (u : Uuid) : ofSimple? u.hyphenatedChars = none := by
  simp [ofSimple?, mapM_hexDigit?_of_mem (show '-' ∈ u.hyphenatedChars by simp [hyphenatedChars])]

theorem ofText?_hyphenated (u : Uuid) : ofText? u.hyphenated = some u := by
  simp [ofText?, hyphenated, ofChars?, ofSimple?_hyphenatedChars, ofHyphenated?_hyphenatedChars]

/-- Five groups of hexadecimal digits in lower case, with a hyphen between each two. -/
def IsCanonical (text : String) : Prop :=
  ∃ a b c d e : List Char,
    text.toList = a ++ '-' :: (b ++ '-' :: (c ++ '-' :: (d ++ '-' :: e))) ∧
    (a.length = 8 ∧ b.length = 4 ∧ c.length = 4 ∧ d.length = 4 ∧ e.length = 12) ∧
    ∀ x ∈ a ++ b ++ c ++ d ++ e, x ∈ "0123456789abcdef".toList

theorem mem_digits_of_mem_simpleChars {u : Uuid} {x : Char} (h : x ∈ u.simpleChars) :
    x ∈ "0123456789abcdef".toList := by
  have hdigit : ∀ d : Fin 16, Numeral.digit d ∈ "0123456789abcdef".toList := by decide
  obtain ⟨d, -, rfl⟩ := List.mem_map.mp h
  exact hdigit d

theorem isCanonical_hyphenated (u : Uuid) : IsCanonical u.hyphenated := by
  have hlength := length_simpleChars u
  refine ⟨_, _, _, _, _, String.toList_ofList, by simp [hlength], ?_⟩
  intro x hx
  refine mem_digits_of_mem_simpleChars (u := u) ?_
  simp only [List.mem_append] at hx
  obtain (((h | h) | h) | h) | h := hx
  · exact List.mem_of_mem_take h
  · exact List.mem_of_mem_drop (List.mem_of_mem_take h)
  · exact List.mem_of_mem_drop (List.mem_of_mem_take h)
  · exact List.mem_of_mem_drop (List.mem_of_mem_take h)
  · exact List.mem_of_mem_drop h

end Uuid

-- ---------------------------------------------------------------------------
-- Identities
-- ---------------------------------------------------------------------------

theorem UserId.ofJson?_toJson (u : UserId) : ofJson? u.toJson = some u := by
  simp [ofJson?, toJson, Json.int64?_ofInt64]

theorem NoteId.ofJson?_toJson (n : NoteId) : ofJson? n.toJson = some n := by
  simp [ofJson?, toJson, Json.int64?_ofInt64]

theorem EventId.ofJson?_toJson (e : EventId) : ofJson? e.toJson = some e := by
  simp [ofJson?, toJson, display, Json.text?, Uuid.ofText?_hyphenated]

theorem UserId.display_injective {user other : UserId} (h : user.display = other.display) :
    user = other := by
  have hvalue := Int64.toInt_inj.mp (Numeral.ofInt_injective h)
  cases user
  cases other
  simpa using hvalue

-- ---------------------------------------------------------------------------
-- What the queues store
-- ---------------------------------------------------------------------------

namespace ChatMessage

theorem ofJson?_toJson (m : ChatMessage) : ofJson? m.toJson = some m := by
  rfl

theorem isPlain_toJson (m : ChatMessage) : m.toJson.IsPlain := by
  simp [toJson, headerToJson, CorrelationId.toJson, Json.IsPlain, Json.IsPlain.areMembers]

theorem lossless : Json.Lossless toJson ofJson? :=
  Json.lossless_of_isPlain isPlain_toJson ofJson?_toJson

end ChatMessage

theorem NoteChange.ofJson?_toJson (c : NoteChange) : ofJson? c.toJson = some c := by
  cases c <;> rfl

theorem Timestamp.ofJson?_toJson (t : Timestamp) : ofJson? t.toJson = some t := by
  simp [ofJson?, toJson, Json.text?, ofText?_render]

namespace NoteEvent

theorem ofJson?_toJson (e : NoteEvent) : ofJson? e.toJson = some e := by
  have hslots : e.toJson.slots? ["id", "event_type", "note_id", "recipient", "event_time"] =
      some [some e.id.toJson, some e.change.toJson, some e.noteId.toJson, some e.recipient.toJson,
        some e.time.toJson] := rfl
  simp [ofJson?, hslots, fieldValue?, EventId.ofJson?_toJson, NoteChange.ofJson?_toJson,
    NoteId.ofJson?_toJson, UserId.ofJson?_toJson, Timestamp.ofJson?_toJson]

theorem isPlain_toJson (e : NoteEvent) : e.toJson.IsPlain := by
  simp [toJson, EventId.toJson, NoteChange.toJson, NoteId.toJson, UserId.toJson, Timestamp.toJson,
    Json.IsPlain, Json.IsPlain.areMembers, Json.isPlain_ofInt64]

theorem lossless : Json.Lossless toJson ofJson? :=
  Json.lossless_of_isPlain isPlain_toJson ofJson?_toJson

end NoteEvent

end NoteRelay
