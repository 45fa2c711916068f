import NoteRelay.Text.Numeral
import NoteRelay.Json.Decode

/-!
# Identities

Who and what the relay talks about: users, notes, events, messages and sessions. New identities
come from an `IdSupply`, which is handed to whoever has to mint one.

Most of them are UUIDs: 128 bits, kept as their 32 hexadecimal digits. They are written in lower
case, with hyphens (`hyphenated`) or without (`simple`), and read in four forms.
-/

namespace NoteRelay

-- ---------------------------------------------------------------------------
-- UUIDs
-- ---------------------------------------------------------------------------

structure Uuid where
  digits : Vector (Fin 16) 32
  deriving DecidableEq, Repr

namespace Uuid

/-- The UUID of a numeric value, modulo 2^128. -/
def ofNat (n : Nat) : Uuid :=
  ⟨Vector.ofFn fun i => Fin.ofNat 16 (n / Nat.pow 16 (31 - i.val))⟩

def simpleChars (u : Uuid) : List Char :=
  u.digits.toList.map fun d => Numeral.digit d.val

/-- The digits in groups of 8, 4, 4, 4 and 12. -/
def hyphenatedChars (u : Uuid) : List Char :=
  let cs := u.simpleChars
  cs.take 8 ++ '-' :: ((cs.drop 8).take 4 ++ '-' :: ((cs.drop 12).take 4 ++
    '-' :: ((cs.drop 16).take 4 ++ '-' :: cs.drop 20)))

def simple (u : Uuid) : String :=
  String.ofList u.simpleChars

def hyphenated (u : Uuid) : String :=
  String.ofList u.hyphenatedChars

def hexDigit? (c : Char) : Option (Fin 16) :=
  match Numeral.digitValue? c with
  | some d => if h : d < 16 then some ⟨d, h⟩ else none
  | none => none

def ofSimple? (cs : List Char) : Option Uuid :=
  match cs.mapM hexDigit? with
  | some ds => if h : ds.length = 32 then some ⟨⟨ds.toArray, by simpa using h⟩⟩ else none
  | none => none

/-- Takes the four hyphens out, each of which has to stand in its place. -/
def ofHyphenated? (cs : List Char) : Option Uuid :=
  if cs.length = 36 ∧ [8, 13, 18, 23].all fun i => cs[i]? == some '-' then
    ofSimple? (cs.take 8 ++ (cs.drop 9).take 4 ++ (cs.drop 14).take 4 ++ (cs.drop 19).take 4 ++
      cs.drop 24)
  else none

def dropUrn? (cs : List Char) : Option (List Char) :=
  if (cs.take 9).map Char.toLower == "urn:uuid:".toList then some (cs.drop 9) else none

def dropBraces? : List Char → Option (List Char)
  | '\x7b' :: rest => if rest.getLast? == some '\x7d' then some rest.dropLast else none
  | _ => none

/-- A UUID in one of four forms: 32 digits, hyphenated, hyphenated in braces, or hyphenated behind
`urn:uuid:`. -/
def ofChars? (cs : List Char) : Option Uuid :=
  (ofSimple? cs).orElse fun _ => (ofHyphenated? cs).orElse fun _ =>
    ((dropBraces? cs).bind ofHyphenated?).orElse fun _ => (dropUrn? cs).bind ofHyphenated?

def ofText? (s : String) : Option Uuid :=
  ofChars? s.toList

end Uuid

-- ---------------------------------------------------------------------------
-- Identities
-- ---------------------------------------------------------------------------

structure UserId where
  value : Int64
  deriving DecidableEq, Repr

structure NoteId where
  value : Int64
  deriving DecidableEq, Repr

structure EventId where
  uuid : Uuid
  deriving DecidableEq, Repr

/-- The name under which a chat message is stored and answered. -/
structure CorrelationId where
  text : String
  deriving DecidableEq, Repr

/-- The name of a chat session, which is the namespace of its outbox. -/
structure SessionId where
  text : String
  deriving DecidableEq, Repr

/-- An authenticated caller. -/
structure Principal where
  userId : UserId
  deriving DecidableEq, Repr

namespace UserId

def display (u : UserId) : String := Numeral.ofInt u.value.toInt
def toJson (u : UserId) : Json := .ofInt64 u.value
def ofJson? (j : Json) : Option UserId := j.int64?.map UserId.mk

end UserId

namespace NoteId

def display (n : NoteId) : String := Numeral.ofInt n.value.toInt
def toJson (n : NoteId) : Json := .ofInt64 n.value
def ofJson? (j : Json) : Option NoteId := j.int64?.map NoteId.mk

end NoteId

namespace EventId

def display (e : EventId) : String := e.uuid.hyphenated
def toJson (e : EventId) : Json := .string e.display
def ofJson? (j : Json) : Option EventId := (j.text?.bind Uuid.ofText?).map EventId.mk

end EventId

namespace CorrelationId

def ofUuid (u : Uuid) : CorrelationId := ⟨u.hyphenated⟩
def toJson (c : CorrelationId) : Json := .string c.text
def ofJson? (j : Json) : Option CorrelationId := j.text?.map CorrelationId.mk

end CorrelationId

namespace SessionId

def ofUuid (u : Uuid) : SessionId := ⟨u.simple⟩
def toJson (s : SessionId) : Json := .string s.text
def ofJson? (j : Json) : Option SessionId := j.text?.map SessionId.mk

end SessionId

namespace Principal

def toJson (p : Principal) : Json := .object [("user_id", p.userId.toJson)]

def ofJson? (j : Json) : Option Principal :=
  match j.slots? ["user_id"] with
  | some [userId] => (fieldValue? UserId.ofJson? userId).map Principal.mk
  | _ => none

end Principal

/-- Where new identities come from: the `n`-th of each kind, counted apart. -/
structure IdSupply where
  correlation : Nat → CorrelationId
  event : Nat → EventId
  session : Nat → SessionId

/-- The supply whose `n`-th identity is the UUID of the numeric value `base + n + 1`. -/
def IdSupply.countingFrom (base : Nat) : IdSupply where
  correlation n := .ofUuid (.ofNat (base + n + 1))
  event n := ⟨.ofNat (base + n + 1)⟩
  session n := .ofUuid (.ofNat (base + n + 1))

def IdSupply.counting : IdSupply :=
  .countingFrom 0

end NoteRelay
