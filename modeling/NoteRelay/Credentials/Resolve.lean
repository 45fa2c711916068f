import NoteRelay.Credentials.Hmac
import NoteRelay.Identity
import NoteRelay.Json.Parser
import NoteRelay.Failure

/-!
# Who is calling

A caller shows a token in the first `Authorization` header. Only where there is none, or one whose
bytes are no readable text, the token of the query counts.

A token is three texts with points between them: a header, claims, and the signature of both under
a shared secret. It is taken if the header names HS256, the signature is right, and the claims name
a user and have not run out. The parts are bytes in the alphabet of RFC 4648, section 5, without
padding. Only the written form of some bytes is read: bits that no byte takes have to be zero.
-/

-- ---------------------------------------------------------------------------
-- Base64 for URLs
-- ---------------------------------------------------------------------------

namespace NoteRelay.Base64Url

def symbols : List Char :=
  "ABCDEFGHIJKLMNOPQRSTUVWXYZabcdefghijklmnopqrstuvwxyz0123456789-_".toList

def symbol (n : Nat) : Char :=
  symbols.getD n 'A'

def value? (c : Char) : Option Nat :=
  symbols.findIdx? (· == c)

def encode : List UInt8 → List Char
  | [] => []
  | [a] =>
    let n := a.toNat * 16
    [symbol (n / 64), symbol (n % 64)]
  | [a, b] =>
    let n := (a.toNat * 256 + b.toNat) * 4
    [symbol (n / 4096), symbol (n / 64 % 64), symbol (n % 64)]
  | a :: b :: c :: rest =>
    let n := (a.toNat * 256 + b.toNat) * 256 + c.toNat
    symbol (n / 262144) :: symbol (n / 4096 % 64) :: symbol (n / 64 % 64) :: symbol (n % 64) ::
      encode rest

def decodeValues? : List Nat → Option (List UInt8)
  | [] => some []
  | [_] => none
  | [a, b] =>
    let n := a * 64 + b
    if n % 16 = 0 then some [UInt8.ofNat (n / 16)] else none
  | [a, b, c] =>
    let n := (a * 64 + b) * 64 + c
    if n % 4 = 0 then some [UInt8.ofNat (n / 1024), UInt8.ofNat (n / 4)] else none
  | a :: b :: c :: d :: rest =>
    let n := ((a * 64 + b) * 64 + c) * 64 + d
    (decodeValues? rest).map fun bytes =>
      UInt8.ofNat (n / 65536) :: UInt8.ofNat (n / 256) :: UInt8.ofNat n :: bytes

def decode? (cs : List Char) : Option (List UInt8) :=
  (cs.mapM value?).bind decodeValues?

end NoteRelay.Base64Url

-- ---------------------------------------------------------------------------
-- Tokens
-- ---------------------------------------------------------------------------

namespace NoteRelay

structure Claims where
  userId : Int64
  /-- Seconds since 1970. -/
  expiry : Int64
  deriving DecidableEq, Repr

namespace Claims

def toJson (c : Claims) : Json :=
  .object [("user_id", .ofInt64 c.userId), ("exp", .ofInt64 c.expiry)]

def ofJson? (j : Json) : Option Claims :=
  match j.slots? ["user_id", "exp"] with
  | some [userId, expiry] => do
    let userId ← fieldValue? Json.int64? userId
    let expiry ← fieldValue? Json.int64? expiry
    return ⟨userId, expiry⟩
  | _ => none

end Claims

namespace Token

/-- The three parts of a token: points split it from the right, so that only the header can hold
more of them. -/
def parts? (token : List Char) : Option (List Char × List Char × List Char) :=
  let cut (cs : List Char) : Option (List Char × List Char) :=
    let last := (cs.reverse.takeWhile (· != '.')).reverse
    let front := cs.take (cs.length - last.length)
    if front.isEmpty then none else some (front.dropLast, last)
  do
    let (signed, signature) ← cut token
    let (header, claims) ← cut signed
    return (header, claims, signature)

def jsonOfPart? (part : List Char) : Option Json :=
  (Base64Url.decode? part).bind fun bytes => Json.ofBytes? ⟨bytes.toArray⟩

def headerTexts : List String :=
  ["typ", "cty", "jku", "kid", "x5u", "x5t", "x5t#S256"]

/-- Whether a header names the algorithm, once, and is otherwise in order. -/
def isHeader (j : Json) : Bool :=
  match j with
  | .object _ =>
    match j.slots? ("alg" :: headerTexts) with
    | some (alg :: texts) =>
      alg.bind Json.bareChoice? == some "HS256" &&
        texts.all fun slot => (fieldOr? none Json.optionalText? slot).isSome
    | _ => false
  | _ => false

/-- Claims that have a meaning of their own, and so are given once at most. -/
def registeredClaims : List String :=
  ["exp", "nbf", "sub", "iss", "aud"]

/-- Whether claims can be used by anyone: a token for a certain audience is for others. -/
def isForAnyone (j : Json) : Bool :=
  match j with
  | .object _ => (j.slots? registeredClaims).isSome && (j.given? "aud").isNone
  | _ => false

/-- The seconds a token is still taken after it has run out. -/
def leeway : Int :=
  60

def isLive (now : Int) (c : Claims) : Bool :=
  0 ≤ c.expiry.toInt && now - leeway ≤ c.expiry.toInt

def signature (secret : List UInt8) (header claims : List Char) : List Char :=
  Base64Url.encode (Hmac.tag secret (String.ofList (header ++ '.' :: claims)).toUTF8.toList)

/-- The claims of a token at a time, if it is to be taken. -/
def verify? (secret : List UInt8) (now : Int) (token : String) : Option Claims := do
  let (header, claims, signed) ← parts? token.toList
  let headerJson ← jsonOfPart? header
  if isHeader headerJson && signature secret header claims == signed then
    let claimsJson ← jsonOfPart? claims
    let read ← Claims.ofJson? claimsJson
    if isForAnyone claimsJson && isLive now read then some read else none
  else none

end Token

-- ---------------------------------------------------------------------------
-- Callers
-- ---------------------------------------------------------------------------

namespace Credentials

/-- What verifies tokens: a shared secret and the time in seconds since 1970. -/
structure Verifier where
  secret : String
  now : Int

def Verifier.verify (v : Verifier) (token : String) : Except Failure Claims :=
  match Token.verify? v.secret.toUTF8.toList v.now token with
  | some claims => .ok claims
  | none => .error (.unauthenticated "invalid token")

/-- The text of a header value: tabs and the printable characters of ASCII. -/
def headerText? (value : ByteArray) : Option String :=
  if value.toList.all fun b => b == 9 || (0x20 ≤ b && b ≤ 0x7e) then
    some (String.ofList (value.toList.map fun b => Char.ofNat b.toNat))
  else none

def bearerMark : String :=
  "Bearer "

def shownToken (authorization : List ByteArray) (query : Option String) :
    Except Failure String :=
  match authorization.head?.bind headerText? with
  | some header =>
    if bearerMark.toList.isPrefixOf header.toList then
      .ok (String.ofList (header.toList.drop bearerMark.length))
    else .error (.unauthenticated "invalid authorization header format")
  | none =>
    match query with
    | some token => if token.isEmpty then .error (.unauthenticated "missing token") else .ok token
    | none => .error (.unauthenticated "missing token")

def resolve (v : Verifier) (authorization : List ByteArray) (query : Option String) :
    Except Failure Principal := do
  let token ← shownToken authorization query
  let claims ← v.verify token
  return ⟨⟨claims.userId⟩⟩

end Credentials

end NoteRelay
