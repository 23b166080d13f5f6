import PipeK1.Library.Aead

/-!
# ChaCha20-Poly1305

The AEAD of RFC 8439 as a function, and that opening inverts sealing: the
keystream is applied by exclusive or, and the tag is recomputed from what was
sealed.
-/

set_option autoImplicit false

namespace ChaCha20Poly1305

open ByteData SealedData

/-- The number a little-endian byte string denotes. -/
def leNat (bytes : Bytes) : Nat := beNat bytes.reverse

/-- Little-endian digits. -/
def leList (width value : Nat) : Bytes := (beList width value).reverse

/-! ## ChaCha20 -/

def rotl (word amount : UInt32) : UInt32 := (word <<< amount) ||| (word >>> (32 - amount))

/-- One quarter round on the words at four places. -/
def quarterRound (state : List UInt32) (i j k l : Nat) : List UInt32 :=
  let word (place : Nat) : UInt32 := state.getD place 0
  let a := word i + word j
  let d := rotl (word l ^^^ a) 16
  let c := word k + d
  let b := rotl (word j ^^^ c) 12
  let a := a + b
  let d := rotl (d ^^^ a) 8
  let c := c + d
  let b := rotl (b ^^^ c) 7
  (((state.set i a).set j b).set k c).set l d

/-- Column rounds, then diagonal rounds. -/
def doubleRound (state : List UInt32) : List UInt32 :=
  [(0, 4, 8, 12), (1, 5, 9, 13), (2, 6, 10, 14), (3, 7, 11, 15),
    (0, 5, 10, 15), (1, 6, 11, 12), (2, 7, 8, 13), (3, 4, 9, 14)].foldl
    (fun state (i, j, k, l) => quarterRound state i j k l) state

/-- Little-endian words, a short last one left out. -/
def words : Bytes → List UInt32
  | b0 :: b1 :: b2 :: b3 :: rest => UInt32.ofNat (leNat [b0, b1, b2, b3]) :: words rest
  | _ => []

/-- The words of "expand 32-byte k". -/
def constants : List UInt32 := [0x61707865, 0x3320646e, 0x79622d32, 0x6b206574]

def block (key : FixedBytes 32) (nonce : FixedBytes 12) (counter : Nat) : Bytes :=
  let start := constants ++ words key.toList ++ [UInt32.ofNat counter] ++ words nonce.toList
  let mixed := (List.replicate 10 ()).foldl (fun state _ => doubleRound state) start
  (List.zipWith (· + ·) start mixed).flatMap fun word => leList 4 word.toNat

def keystreamByte (key : FixedBytes 32) (nonce : FixedBytes 12) (index : Nat) : UInt8 :=
  (block key nonce (index / 64 + 1)).getD (index % 64) 0

/-- Encryption and decryption alike. -/
def applyKeystream (key : FixedBytes 32) (nonce : FixedBytes 12) (data : Bytes) : Bytes :=
  data.mapIdx fun index byte => byte ^^^ keystreamByte key nonce index

@[simp] theorem length_applyKeystream (key : FixedBytes 32) (nonce : FixedBytes 12)
    (data : Bytes) : (applyKeystream key nonce data).length = data.length :=
  List.length_mapIdx

theorem applyKeystream_applyKeystream (key : FixedBytes 32) (nonce : FixedBytes 12)
    (data : Bytes) : applyKeystream key nonce (applyKeystream key nonce data) = data := by
  apply List.ext_getElem?
  intro index
  rw [applyKeystream, applyKeystream, List.getElem?_mapIdx, List.getElem?_mapIdx]
  cases data[index]? with
  | none => rfl
  | some byte =>
      simp only [Option.map_some, UInt8.xor_assoc, UInt8.xor_self, UInt8.xor_zero]

/-! ## Poly1305 -/

/-- Zeros up to a multiple of sixteen bytes. -/
def padded (data : Bytes) : Bytes :=
  data ++ List.replicate ((16 - data.length % 16) % 16) 0

/-- What the tag covers. -/
def macData (aad ciphertext : Bytes) : Bytes :=
  padded aad ++ padded ciphertext ++ leList 8 aad.length ++ leList 8 ciphertext.length

/-- The polynomial over `count` blocks of sixteen bytes. -/
def accumulate (r : Nat) : Nat → Nat → Bytes → Nat
  | 0, acc, _ => acc
  | count + 1, acc, data =>
      accumulate r count ((acc + leNat (data.take 16 ++ [0x01])) * r % (2 ^ 130 - 5))
        (data.drop 16)

def poly1305Tag (oneTimeKey : Bytes) (data : Bytes) : FixedBytes 16 where
  toList :=
    let r := leNat (oneTimeKey.take 16) &&& 0x0ffffffc0ffffffc0ffffffc0fffffff
    let s := leNat ((oneTimeKey.drop 16).take 16)
    leList 16 (accumulate r (data.length / 16) 0 data + s)
  length_toList := by rw [leList, List.length_reverse, length_beList]

/-! ## The construction -/

/-- The keystream has 2^32 blocks, of which the first is the one-time key. -/
def tooLong (data : Bytes) : Prop := data.length / 64 ≥ 2 ^ 32 - 1

instance (data : Bytes) : Decidable (tooLong data) := inferInstanceAs (Decidable (_ ≥ _))

def tagOf (key : FixedBytes 32) (nonce : FixedBytes 12) (aad ciphertext : Bytes) :
    FixedBytes 16 :=
  poly1305Tag (block key nonce 0) (macData aad ciphertext)

def encrypt (key : FixedBytes 32) (nonce : FixedBytes 12) (aad plaintext : Bytes) :
    Except String (Bytes × FixedBytes 16) :=
  if tooLong plaintext then .error "aead::Error"
  else
    let ciphertext := applyKeystream key nonce plaintext
    .ok (ciphertext, tagOf key nonce aad ciphertext)

def decrypt (key : FixedBytes 32) (nonce : FixedBytes 12) (aad ciphertext : Bytes)
    (tag : FixedBytes 16) : Except String Bytes :=
  if tooLong ciphertext then .error "aead::Error"
  else if tagOf key nonce aad ciphertext = tag then .ok (applyKeystream key nonce ciphertext)
  else .error "aead::Error"

def cipher : Aead (FixedBytes 32) (FixedBytes 12) (FixedBytes 16) where
  encrypt := encrypt
  decrypt := decrypt
  length_encrypt := by
    intro key nonce aad plaintext ciphertext tag sealed
    unfold encrypt at sealed
    split at sealed
    · cases sealed
    · cases sealed
      exact length_applyKeystream key nonce plaintext
  length_decrypt := by
    intro key nonce aad ciphertext tag plaintext opened
    unfold decrypt at opened
    split at opened
    · cases opened
    · split at opened
      · cases opened
        exact length_applyKeystream key nonce ciphertext
      · cases opened

-- Proofs about the cipher go through its laws; computing tags by unfolding is hopeless.
attribute [irreducible] tagOf block

/-- Under every key, whatever the keystream is long enough for opens again. -/
theorem cipher_inverts (key : FixedBytes 32) (limit : Nat) (short : limit / 64 < 2 ^ 32 - 1) :
    cipher.Inverts key limit := by
  intro nonce aad plaintext fits
  have small : ¬ tooLong plaintext := by
    unfold tooLong
    omega
  refine ⟨applyKeystream key nonce plaintext, _, if_neg small, ?_⟩
  have small' : ¬ tooLong (applyKeystream key nonce plaintext) := by
    rwa [tooLong, length_applyKeystream]
  change decrypt _ _ _ _ _ = _
  rw [decrypt, if_neg small', if_pos rfl, applyKeystream_applyKeystream]

/-- The tag is recomputed, so only a ciphertext with the tag of its own opens. -/
theorem cipher_opensSealed (key : FixedBytes 32) : cipher.OpensSealed key := by
  intro nonce aad ciphertext tag plaintext opened
  change decrypt key nonce aad ciphertext tag = .ok plaintext at opened
  change encrypt key nonce aad plaintext = .ok (ciphertext, tag)
  unfold decrypt at opened
  split at opened
  · cases opened
  · next small =>
      split at opened
      · next same =>
          cases opened
          have small' : ¬ tooLong (applyKeystream key nonce ciphertext) := by
            rwa [tooLong, length_applyKeystream]
          rw [encrypt, if_neg small', applyKeystream_applyKeystream, ← same]
      · cases opened

end ChaCha20Poly1305
