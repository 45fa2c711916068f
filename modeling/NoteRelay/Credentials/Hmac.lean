/-!
# HMAC-SHA-256

The hash of FIPS 180-4 on lists of bytes, and the keyed hash of RFC 2104 over it.
-/

-- ---------------------------------------------------------------------------
-- SHA-256
-- ---------------------------------------------------------------------------

namespace NoteRelay.Sha256

/-- Fractional parts of the cube roots of the first 64 primes. -/
def roundConstants : Array UInt32 :=
  #[0x428a2f98, 0x71374491, 0xb5c0fbcf, 0xe9b5dba5, 0x3956c25b, 0x59f111f1, 0x923f82a4, 0xab1c5ed5,
    0xd807aa98, 0x12835b01, 0x243185be, 0x550c7dc3, 0x72be5d74, 0x80deb1fe, 0x9bdc06a7, 0xc19bf174,
    0xe49b69c1, 0xefbe4786, 0x0fc19dc6, 0x240ca1cc, 0x2de92c6f, 0x4a7484aa, 0x5cb0a9dc, 0x76f988da,
    0x983e5152, 0xa831c66d, 0xb00327c8, 0xbf597fc7, 0xc6e00bf3, 0xd5a79147, 0x06ca6351, 0x14292967,
    0x27b70a85, 0x2e1b2138, 0x4d2c6dfc, 0x53380d13, 0x650a7354, 0x766a0abb, 0x81c2c92e, 0x92722c85,
    0xa2bfe8a1, 0xa81a664b, 0xc24b8b70, 0xc76c51a3, 0xd192e819, 0xd6990624, 0xf40e3585, 0x106aa070,
    0x19a4c116, 0x1e376c08, 0x2748774c, 0x34b0bcb5, 0x391c0cb3, 0x4ed8aa4a, 0x5b9cca4f, 0x682e6ff3,
    0x748f82ee, 0x78a5636f, 0x84c87814, 0x8cc70208, 0x90befffa, 0xa4506ceb, 0xbef9a3f7, 0xc67178f2]

/-- Fractional parts of the square roots of the first eight primes. -/
def initialState : Array UInt32 :=
  #[0x6a09e667, 0xbb67ae85, 0x3c6ef372, 0xa54ff53a, 0x510e527f, 0x9b05688c, 0x1f83d9ab, 0x5be0cd19]

def rotr (x : UInt32) (n : UInt32) : UInt32 :=
  (x >>> n) ||| (x <<< (32 - n))

def bigEndian (count n : Nat) : List UInt8 :=
  (List.range count).map fun i => UInt8.ofNat (n >>> (8 * (count - 1 - i)))

def word (a b c d : UInt8) : UInt32 :=
  (a.toUInt32 <<< 24) ||| (b.toUInt32 <<< 16) ||| (c.toUInt32 <<< 8) ||| d.toUInt32

def words : List UInt8 → List UInt32
  | a :: b :: c :: d :: rest => word a b c d :: words rest
  | _ => []

/-- A message with its end mark, filled up with zeros to whole blocks of 64 bytes, of which the
last eight hold its length in bits. -/
def padded (message : List UInt8) : List UInt8 :=
  let zeros := (119 - message.length % 64) % 64
  message ++ 0x80 :: (List.replicate zeros 0 ++ bigEndian 8 (8 * message.length))

/-- The 64 words that a block of 16 is spread to. -/
def schedule (block : List UInt32) : Array UInt32 :=
  (List.range 48).foldl
    (fun w i =>
      let a := w.getD (i + 1) 0
      let b := w.getD (i + 14) 0
      let s0 := rotr a 7 ^^^ rotr a 18 ^^^ (a >>> 3)
      let s1 := rotr b 17 ^^^ rotr b 19 ^^^ (b >>> 10)
      w.push (w.getD i 0 + s0 + w.getD (i + 9) 0 + s1))
    block.toArray

structure Working where
  (a b c d e f g h : UInt32)

def Working.round (s : Working) (k w : UInt32) : Working :=
  let s1 := rotr s.e 6 ^^^ rotr s.e 11 ^^^ rotr s.e 25
  let choice := (s.e &&& s.f) ^^^ (~~~s.e &&& s.g)
  let t1 := s.h + s1 + choice + k + w
  let s0 := rotr s.a 2 ^^^ rotr s.a 13 ^^^ rotr s.a 22
  let majority := (s.a &&& s.b) ^^^ (s.a &&& s.c) ^^^ (s.b &&& s.c)
  ⟨t1 + (s0 + majority), s.a, s.b, s.c, s.d + t1, s.e, s.f, s.g⟩

def compress (state : Array UInt32) (block : List UInt32) : Array UInt32 :=
  let w := schedule block
  let old (i : Nat) := state.getD i 0
  let start : Working := ⟨old 0, old 1, old 2, old 3, old 4, old 5, old 6, old 7⟩
  let s := (List.range 64).foldl
    (fun s i => s.round (roundConstants.getD i 0) (w.getD i 0)) start
  #[old 0 + s.a, old 1 + s.b, old 2 + s.c, old 3 + s.d, old 4 + s.e, old 5 + s.f, old 6 + s.g,
    old 7 + s.h]

def compressAll : Nat → Array UInt32 → List UInt32 → Array UInt32
  | 0, state, _ => state
  | blocks + 1, state, ws => compressAll blocks (compress state (ws.take 16)) (ws.drop 16)

def hash (message : List UInt8) : List UInt8 :=
  let ws := words (padded message)
  (compressAll (ws.length / 16) initialState ws).toList.flatMap fun x => bigEndian 4 x.toNat

end NoteRelay.Sha256

-- ---------------------------------------------------------------------------
-- HMAC
-- ---------------------------------------------------------------------------

namespace NoteRelay.Hmac

def blockSize : Nat :=
  64

/-- The key at the size of a block: a longer one is hashed first, then zeros fill it up. -/
def blockKey (key : List UInt8) : List UInt8 :=
  let short := if blockSize < key.length then Sha256.hash key else key
  short ++ List.replicate (blockSize - short.length) 0

def tag (key message : List UInt8) : List UInt8 :=
  let k := blockKey key
  Sha256.hash (k.map (· ^^^ 0x5c) ++ Sha256.hash (k.map (· ^^^ 0x36) ++ message))

end NoteRelay.Hmac
