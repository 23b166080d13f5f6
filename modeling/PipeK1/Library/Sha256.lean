import PipeK1.Library.ByteData

/-!
# SHA-256 and what is built on it

The hash of FIPS 180-4, HMAC over it, and HKDF with one block of output.
-/

set_option autoImplicit false

namespace Sha256

open ByteData

/-- The eight working variables. -/
structure Words where
  a : UInt32
  b : UInt32
  c : UInt32
  d : UInt32
  e : UInt32
  f : UInt32
  g : UInt32
  h : UInt32

def initial : Words :=
  ⟨0x6a09e667, 0xbb67ae85, 0x3c6ef372, 0xa54ff53a,
    0x510e527f, 0x9b05688c, 0x1f83d9ab, 0x5be0cd19⟩

def roundConstants : List UInt32 :=
  [0x428a2f98, 0x71374491, 0xb5c0fbcf, 0xe9b5dba5, 0x3956c25b, 0x59f111f1,
    0x923f82a4, 0xab1c5ed5, 0xd807aa98, 0x12835b01, 0x243185be, 0x550c7dc3,
    0x72be5d74, 0x80deb1fe, 0x9bdc06a7, 0xc19bf174, 0xe49b69c1, 0xefbe4786,
    0x0fc19dc6, 0x240ca1cc, 0x2de92c6f, 0x4a7484aa, 0x5cb0a9dc, 0x76f988da,
    0x983e5152, 0xa831c66d, 0xb00327c8, 0xbf597fc7, 0xc6e00bf3, 0xd5a79147,
    0x06ca6351, 0x14292967, 0x27b70a85, 0x2e1b2138, 0x4d2c6dfc, 0x53380d13,
    0x650a7354, 0x766a0abb, 0x81c2c92e, 0x92722c85, 0xa2bfe8a1, 0xa81a664b,
    0xc24b8b70, 0xc76c51a3, 0xd192e819, 0xd6990624, 0xf40e3585, 0x106aa070,
    0x19a4c116, 0x1e376c08, 0x2748774c, 0x34b0bcb5, 0x391c0cb3, 0x4ed8aa4a,
    0x5b9cca4f, 0x682e6ff3, 0x748f82ee, 0x78a5636f, 0x84c87814, 0x8cc70208,
    0x90befffa, 0xa4506ceb, 0xbef9a3f7, 0xc67178f2]

def rotr (word amount : UInt32) : UInt32 := (word >>> amount) ||| (word <<< (32 - amount))

/-! ## One block -/

/-- The message schedule from a window of sixteen words on. -/
def schedule : Nat → List UInt32 → List UInt32
  | 0, _ => []
  | rounds + 1, window =>
      let word (i : Nat) : UInt32 := window.getD i 0
      let s0 := rotr (word 1) 7 ^^^ rotr (word 1) 18 ^^^ (word 1 >>> 3)
      let s1 := rotr (word 14) 17 ^^^ rotr (word 14) 19 ^^^ (word 14 >>> 10)
      word 0 :: schedule rounds (window.tail ++ [word 0 + s0 + word 9 + s1])

def round (s : Words) (constant word : UInt32) : Words :=
  let s1 := rotr s.e 6 ^^^ rotr s.e 11 ^^^ rotr s.e 25
  let ch := (s.e &&& s.f) ^^^ (~~~s.e &&& s.g)
  let t1 := s.h + s1 + ch + constant + word
  let s0 := rotr s.a 2 ^^^ rotr s.a 13 ^^^ rotr s.a 22
  let maj := (s.a &&& s.b) ^^^ (s.a &&& s.c) ^^^ (s.b &&& s.c)
  ⟨t1 + (s0 + maj), s.a, s.b, s.c, s.d + t1, s.e, s.f, s.g⟩

def Words.add (s t : Words) : Words :=
  ⟨s.a + t.a, s.b + t.b, s.c + t.c, s.d + t.d, s.e + t.e, s.f + t.f, s.g + t.g, s.h + t.h⟩

/-- Big-endian words, a short last one left out. -/
def words : Bytes → List UInt32
  | b0 :: b1 :: b2 :: b3 :: rest => UInt32.ofNat (beNat [b0, b1, b2, b3]) :: words rest
  | _ => []

def compress (s : Words) (block : List UInt32) : Words :=
  s.add ((roundConstants.zip (schedule 64 block)).foldl (fun s step => round s step.1 step.2) s)

/-! ## Messages -/

def padding (length : Nat) : Bytes :=
  0x80 :: (List.replicate ((119 - length % 64) % 64) 0 ++ beList 8 (8 * length))

/-- Compress `count` blocks of sixteen words. -/
def absorb : Nat → Words → List UInt32 → Words
  | 0, s, _ => s
  | count + 1, s, message => absorb count (compress s (message.take 16)) (message.drop 16)

def sha256 (message : Bytes) : FixedBytes 32 :=
  let padded := words (message ++ padding message.length)
  let s := absorb (padded.length / 16) initial padded
  (((((((u32Be s.a).append (u32Be s.b)).append (u32Be s.c)).append (u32Be s.d)).append
    (u32Be s.e)).append (u32Be s.f)).append (u32Be s.g)).append (u32Be s.h)

/-! ## HMAC and HKDF -/

/-- A key as one block: hashed when it is longer, filled up with zeros. -/
def blockKey (key : Bytes) : Bytes :=
  let short := if key.length ≤ 64 then key else (sha256 key).toList
  short ++ List.replicate (64 - short.length) 0

def hmac (key message : Bytes) : FixedBytes 32 :=
  let pad (byte : UInt8) : Bytes := (blockKey key).map (· ^^^ byte)
  sha256 (pad 0x5c ++ (sha256 (pad 0x36 ++ message)).toList)

/-- One block of output from HKDF. -/
def hkdf (salt ikm info : Bytes) : FixedBytes 32 :=
  hmac (hmac salt ikm).toList (info ++ [0x01])

-- No proof computes a hash by unfolding.
attribute [irreducible] sha256 hmac hkdf

end Sha256
