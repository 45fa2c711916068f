/-!
# Bytes read as text

A byte string read as UTF-8, in two ways. `Glyph` keeps a place for every byte that belongs to no
character: readers of a format work on glyphs, so that one reader serves text and raw bytes alike and
each decides itself where a stray byte is tolerable. `lossyText` shows such bytes with replacement
characters: one for each longest stretch that begins like a character and does not end like one, and
one for each byte that begins nothing.
-/

namespace NoteRelay.Text

-- ---------------------------------------------------------------------------
-- Glyphs
-- ---------------------------------------------------------------------------

/-- A character, or `none` for a byte that is part of no character. -/
abbrev Glyph := Option Char

/-- The glyphs of `bytes` from position `i` on. A byte that starts no character stands alone. -/
def glyphsFrom (bytes : ByteArray) (i : Nat) : List Glyph :=
  if i < bytes.size then
    match bytes.utf8DecodeChar? i with
    | some c => some c :: glyphsFrom bytes (i + c.utf8Size)
    | none => none :: glyphsFrom bytes (i + 1)
  else []
termination_by bytes.size - i
decreasing_by
  all_goals have := Char.utf8Size_pos
  · have := this c; omega
  · omega

def glyphsOfBytes (bytes : ByteArray) : List Glyph :=
  glyphsFrom bytes 0

def glyphsOfText (s : String) : List Glyph :=
  s.toList.map some

def textOfGlyphs? (gs : List Glyph) : Option String :=
  (gs.mapM id).map String.ofList

-- ---------------------------------------------------------------------------
-- Replacement characters
-- ---------------------------------------------------------------------------

def isContinuation (b : UInt8) : Bool :=
  0x80 ≤ b && b ≤ 0xbf

/-- Whether a byte can come second in a character with this first byte. -/
def canFollow (first second : UInt8) : Bool :=
  if first == 0xe0 then 0xa0 ≤ second && second ≤ 0xbf
  else if first == 0xed then 0x80 ≤ second && second ≤ 0x9f
  else if first == 0xf0 then 0x90 ≤ second && second ≤ 0xbf
  else if first == 0xf4 then 0x80 ≤ second && second ≤ 0x8f
  else 0xc2 ≤ first && first ≤ 0xf4 && isContinuation second

/-- How many bytes one replacement character stands for, where no character begins. -/
def strayLength (first second third : UInt8) : Nat :=
  if !canFollow first second then 1
  else if 0xf0 ≤ first && isContinuation third then 3
  else 2

def lossyFrom (bytes : ByteArray) (i : Nat) : List Char :=
  if i < bytes.size then
    match bytes.utf8DecodeChar? i with
    | some c => c :: lossyFrom bytes (i + c.utf8Size)
    | none =>
      let byte (j : Nat) : UInt8 := bytes.data.getD j 0
      '\ufffd' :: lossyFrom bytes (i + max 1 (strayLength (byte i) (byte (i + 1)) (byte (i + 2))))
  else []
termination_by bytes.size - i
decreasing_by
  all_goals have := Char.utf8Size_pos
  · have := this c; omega
  · omega

def lossyText (bytes : List UInt8) : String :=
  String.ofList (lossyFrom ⟨bytes.toArray⟩ 0)

end NoteRelay.Text
