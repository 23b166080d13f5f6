import PipeK1.Host
import PipeK1.Keys
import PipeK1.Wire
import PipeK1.Library.ChaCha20Poly1305
import PipeK1.Library.Sha256
import PipeK1.Library.TextCodecs
import Mathlib.Data.ZMod.Basic
import Mathlib.Tactic.NormNum.Prime

/-!
# Reference crates

Crates that meet every assumption made of them, for applying the results. The
hash, the AEAD and the encodings are the real ones. The curve is a cyclic group
of prime order 13 that carries the x-coordinates of secp256k1's first multiples
of its generator, so that secret keys from 1 to 6 have their real public keys
and shared points.
-/

set_option autoImplicit false

namespace PipeK1.Reference

open ByteData ByteReader

/-! ## The curve -/

/-- A field element, big-endian. -/
def fieldBytes (value : Nat) : FixedBytes 32 := ⟨beList 32 value, length_beList 32 value⟩

/-- The x-coordinate of the `k`-th multiple of the generator, for `k` from 1 to 6. -/
def multipleX : Nat → Nat
  | 1 => 0x79be667ef9dcbbac55a06295ce870b07029bfcdb2dce28d959f2815b16f81798
  | 2 => 0xc6047f9441ed7d6d3045406e95c07cd85c778e4b8cef3ca7abac09b95c709ee5
  | 3 => 0xf9308a019258c31049344f85f89d5229b531c845836f99b08601f113bce036f9
  | 4 => 0xe493dbf1c10d80f3581e4904930b1404cc6c13900ee0758474fa94abe8c4cd13
  | 5 => 0x2f8bde4d1a07209355b4a7250a5c5128e88b84bddc619ab7cba8d569b240efe4
  | 6 => 0xfff97bd5755eeea420453a14355235d382f6472f8568a18b2f057a1460297556
  | _ => 0

abbrev Point := ZMod 13

/-- A point and its negation are the same multiple of the generator up to sign. -/
def multiple (point : Point) : Nat := min point.val (13 - point.val)

def pointX (point : Point) : FixedBytes 32 := fieldBytes (multipleX (multiple point))

def xCoordinate (point : Point) : Option (FixedBytes 32) :=
  if point = 0 then none else some (pointX point)

/-- The first five multiples have even y-coordinates, the sixth an odd one. -/
def evenY (point : Point) : Bool := point ∈ [1, 2, 3, 4, 5, -6]

def compress (point : Point) : FixedBytes 33 :=
  (FixedBytes.single (if evenY point then 0x02 else 0x03)).append (pointX point)

def points : List Point := [1, 2, 3, 4, 5, 6, -1, -2, -3, -4, -5, -6]

def fromSec1 (bytes : FixedBytes 33) : Except String Point :=
  match points.find? fun point => compress point = bytes with
  | some point => .ok point
  | none => .error "crypto error"

/-- A secret scalar. -/
abbrev Scalar := { value : Nat // 0 < value ∧ value < 13 }

def scalar (bytes : FixedBytes 32) : Option Scalar :=
  if valid : 0 < beNat bytes.toList ∧ beNat bytes.toList < 13 then
    some ⟨beNat bytes.toList, valid⟩
  else none

def publicBytes (key : Scalar) : FixedBytes 32 := pointX (key.val • 1)

/-- Signatures BIP-340 gives under the secret key 3, by hash: of the trailer and of the detached
payload made for the sample below. Other messages have a stand-in. -/
def recorded : List (Nat × Nat) :=
  [(0xa59a6b02c42b8c69801dde80a87871c8a484743c08d08c702bfc7d334f7dcd6b,
      0x8200b529fe426045d591e490d830d02a9432a3bc900c59a7ca3c6268a0bb3884 * 2 ^ 256 +
        0x11f62039ddf97a6f945f5da14a51a9eefcecd4b289f38c82a67a341d9898b38d),
    (0x87c623179b6506bd14f9f6113d5659ddf2891840be78a974008e2a92375c69b6,
      0xee3f0109f9c56f83665cb055d1091b0c7da471f78869b2444586cc17abc5aa4e * 2 ^ 256 +
        0xb909406c83097b2cfbac3e613fb9c19b6132fbfe2f747e90cab8f51d160f4fdc)]

def signature (key hash : FixedBytes 32) : FixedBytes 64 :=
  match recorded.lookup (beNat hash.toList) with
  | some value =>
      if key = fieldBytes (multipleX 3) then ⟨beList 64 value, length_beList 64 value⟩
      else key.append hash
  | none => key.append hash

def verifyRaw (key hash : FixedBytes 32) (sig : FixedBytes 64) : Except String Unit :=
  if sig = signature key hash then .ok () else .error "signature error"

def verifyingKey (bytes : FixedBytes 32) : Except String (FixedBytes 32) :=
  if bytes ∈ points.map pointX then .ok bytes else .error "signature error"

def isIdentity (point : Point) : Bool := point = 0

def curve : Secp256k1 where
  Point := Point
  Scalar := Scalar
  SigningKey := Scalar
  VerifyingKey := FixedBytes 32
  Signature := FixedBytes 64
  nonZeroScalar bytes := (scalar bytes).elim (.error "crypto error") .ok
  fromSec1 := fromSec1
  mul point scalar := scalar.val • point
  isIdentity := isIdentity
  xCoordinate := xCoordinate
  signingKey bytes := (scalar bytes).elim (.error "signature error") .ok
  publicBytes := publicBytes
  signRaw key hash _ := .ok (signature (publicBytes key) hash)
  signatureBytes := id
  verifyingKey := verifyingKey
  signature := .ok
  verifyRaw := verifyRaw

instance : AddCommGroup curve.Point := inferInstanceAs (AddCommGroup (ZMod 13))

/-! ## The record -/

def packagesWith (aead : Cipher) : Crates where
  digests :=
    { sha256 := Sha256.sha256
      hmacSha256 := fun key message => Sha256.hmac key.toList message
      -- Only BIP-85 derivation hashes with SHA-512.
      hmacSha512 := fun _ _ => FixedBytes.zeros 64
      hkdfSha256 := fun salt ikm info => .ok (Sha256.hkdf salt.toList ikm.toList info) }
  aead := aead
  curve := curve
  encodings :=
    { hexEncode := Hex.encode
      hexDecode := Hex.decode
      bech32Encode := Bech32.encode
      bech32Decode := Bech32.decode
      base64Encode := Base64.encode
      base64Decode := Base64.decode }
  -- No mnemonic is known here.
  bip :=
    { Mnemonic := Unit
      XPrv := Unit
      ChildNumber := Unit
      mnemonic := fun _ => .error "mnemonic has an invalid word count: 0"
      seed := fun _ _ => []
      root := fun _ => .ok ()
      path := fun _ => .ok []
      deriveChild := fun _ _ => .ok ()
      privateKey := fun _ => FixedBytes.zeros 32 }

abbrev packages : Crates := packagesWith ChaCha20Poly1305.cipher

/-! ## The assumptions hold -/

theorem fieldBytes_inj {left right : Nat} (small : left < 256 ^ 32) (small' : right < 256 ^ 32)
    (same : fieldBytes left = fieldBytes right) : left = right := by
  refine beList_injective small small' ?_
  rwa [fieldBytes, fieldBytes, FixedBytes.mk.injEq] at same

theorem multipleX_lt : ∀ point : Point, multipleX (multiple point) < 256 ^ 32 := by
  decide +kernel

theorem multipleX_inj : ∀ left right : Point, left ≠ 0 → right ≠ 0 →
    multipleX (multiple left) = multipleX (multiple right) → left = right ∨ left = -right := by
  decide +kernel

theorem pointX_inj {left right : Point} (nonzero : left ≠ 0) (nonzero' : right ≠ 0)
    (same : pointX left = pointX right) : XOnly.SameUpToSign left right := by
  rw [pointX, pointX] at same
  exact multipleX_inj left right nonzero nonzero'
    (fieldBytes_inj (multipleX_lt left) (multipleX_lt right) same)

theorem pointX_neg (point : Point) : pointX (-point) = pointX point := by
  have same : multiple (-point) = multiple point := by
    revert point
    decide
  rw [pointX, pointX, same]

theorem mem_points {point : Point} (nonzero : point ≠ 0) : point ∈ points := by
  revert point
  decide

theorem ne_zero_of_mem {point : Point} (member : point ∈ points) : point ≠ 0 := by
  revert point
  decide

theorem xCoordinate_of_ne_zero {point : Point} (nonzero : point ≠ 0) :
    xCoordinate point = some (pointX point) := if_neg nonzero

theorem pointX_of_xCoordinate {point : Point} {x : FixedBytes 32} (nonzero : point ≠ 0)
    (coordinate : xCoordinate point = some x) : pointX point = x :=
  Option.some.inj ((xCoordinate_of_ne_zero nonzero).symm.trans coordinate)

theorem xCoordinate_neg (point : Point) : xCoordinate (-point) = xCoordinate point := by
  unfold xCoordinate
  simp only [neg_eq_zero, pointX_neg]

theorem xCoordinate_inj {left right : Point} (nonzero : left ≠ 0) (nonzero' : right ≠ 0)
    (same : xCoordinate left = xCoordinate right) : XOnly.SameUpToSign left right := by
  rw [xCoordinate_of_ne_zero nonzero'] at same
  exact pointX_inj nonzero nonzero' (pointX_of_xCoordinate nonzero same)

theorem fromSec1_ok {x : FixedBytes 32} {point : Point}
    (decoded : fromSec1 (Secp256k1.evenSec1 x) = .ok point) :
    point ≠ 0 ∧ xCoordinate point = some x := by
  unfold fromSec1 at decoded
  cases found : points.find? fun point => compress point = Secp256k1.evenSec1 x with
  | none => simp [found] at decoded
  | some lifted =>
      simp only [found, Except.ok.injEq] at decoded
      subst decoded
      have nonzero := ne_zero_of_mem (List.mem_of_find?_eq_some found)
      have encoded : compress lifted = Secp256k1.evenSec1 x := by
        simpa using List.find?_some found
      have bytes : pointX lifted = x :=
        FixedBytes.ext (List.cons.inj (congrArg FixedBytes.toList encoded)).2
      exact ⟨nonzero, by rw [xCoordinate_of_ne_zero nonzero, bytes]⟩

theorem fromSec1_complete {x : FixedBytes 32} {point : Point} (nonzero : point ≠ 0)
    (coordinate : xCoordinate point = some x) :
    ∃ lifted, fromSec1 (Secp256k1.evenSec1 x) = .ok lifted := by
  have bytes := pointX_of_xCoordinate nonzero coordinate
  -- One of the two points with this x-coordinate has an even y-coordinate.
  have even : ∃ candidate, candidate ≠ 0 ∧ pointX candidate = x ∧ evenY candidate = true := by
    have either : evenY point = true ∨ evenY (-point) = true := by
      clear coordinate bytes
      revert point
      decide
    rcases either with itself | negated
    · exact ⟨point, nonzero, bytes, itself⟩
    · exact ⟨-point, neg_ne_zero.mpr nonzero, (pointX_neg point).trans bytes, negated⟩
  obtain ⟨candidate, nonzero', bytes', even⟩ := even
  have encoded : compress candidate = Secp256k1.evenSec1 x := by
    rw [compress, even, bytes']
    rfl
  unfold fromSec1
  cases found : points.find? fun point => compress point = Secp256k1.evenSec1 x with
  | some lifted => exact ⟨lifted, rfl⟩
  | none =>
      have missing := List.find?_eq_none.mp found candidate (mem_points nonzero')
      simp [encoded] at missing

theorem generated_ne_zero (key : Scalar) : key.val • (1 : Point) ≠ 0 := by
  have all : ∀ value : Fin 13, 0 < value.val → value.val • (1 : Point) ≠ 0 := by decide
  exact all ⟨key.val, key.property.2⟩ key.property.1

theorem decode_eq_ok {error : String} {bytes : FixedBytes 32} {key : Scalar} :
    (scalar bytes).elim (.error error) .ok = Except.ok key ↔ scalar bytes = some key := by
  cases scalar bytes with
  | none => simp
  | some value => simp

theorem isIdentity_iff (point : Point) : isIdentity point = true ↔ point = 0 :=
  decide_eq_true_iff

def prime : curve.PrimeOrder where
  order := 13
  order_prime := by norm_num
  annihilates := by
    change ∀ point : Point, 13 • point = 0
    decide
  generator := (1 : Point)
  generator_ne_zero := by
    change (1 : Point) ≠ 0
    decide
  scalarValue := Subtype.val
  scalarValue_pos key := key.property.1
  scalarValue_lt key := key.property.2
  mul_eq _ _ := rfl
  isIdentity_iff := isIdentity_iff
  xCoordinate_isSome _ nonzero := Option.isSome_iff_exists.mpr ⟨_, xCoordinate_of_ne_zero nonzero⟩
  xCoordinate_neg := xCoordinate_neg
  xCoordinate_inj _ _ := xCoordinate_inj
  fromSec1_ok _ _ := fromSec1_ok
  fromSec1_complete _ _ := fromSec1_complete
  signingKey_ok secret key valid :=
    ⟨key, decode_eq_ok.mpr (decode_eq_ok.mp valid), xCoordinate_of_ne_zero (generated_ne_zero key)⟩

theorem verifyingKey_publicBytes (key : curve.SigningKey) :
    curve.verifyingKey (curve.publicBytes key) = .ok (curve.publicBytes key) := by
  have member : publicBytes key ∈ points.map pointX :=
    List.mem_map_of_mem (mem_points (generated_ne_zero key))
  dsimp only [curve]
  rw [verifyingKey, if_pos member]

theorem verifyRaw_of_signed {key hash : FixedBytes 32} {sig : FixedBytes 64}
    (signed : (.ok (signature key hash) : Except String (FixedBytes 64)) = .ok sig) :
    verifyRaw key hash sig = .ok () :=
  if_pos (Except.ok.inj signed).symm

theorem signs : curve.SignsAndVerifies where
  signs _ key hash _ := ⟨signature (publicBytes key) hash, rfl⟩
  verifies _ key _ sig _ signed :=
    ⟨_, sig, verifyingKey_publicBytes key, rfl, verifyRaw_of_signed signed⟩

instance (aead : Cipher) : AddCommGroup (packagesWith aead).curve.Point :=
  inferInstanceAs (AddCommGroup (ZMod 13))

/-- The reference crates behave as documented. -/
def encryptLaws {aead : Cipher} (seals : ∀ key, aead.SealsUpTo key chunkSize) :
    EncryptLaws (packagesWith aead) where
  prime := prime
  signs := signs
  expands _ _ _ := ⟨_, rfl⟩
  seals := seals

theorem cipher_inverts (key : FixedBytes 32) :
    ChaCha20Poly1305.cipher.Inverts key chunkSize :=
  ChaCha20Poly1305.cipher_inverts key chunkSize (by decide)

def lawful : Lawful packages where
  toEncryptLaws := encryptLaws fun key => (cipher_inverts key).sealsUpTo
  inverts := cipher_inverts

/-! ## Hosts -/

def secretBytes (key : Scalar) : FixedBytes 32 := fieldBytes key.val

/-- A host with `secret` in its environment and a working disk, that draws the ephemeral key
`ephemeral`. -/
def keyHost (secret ephemeral : Scalar) : Host where
  envVar name :=
    if name = "PIPE_K1_SEC_KEY" then some (Hex.encode (secretBytes secret).toList) else none
  descriptor _ := []
  fileContents _ := .error ⟨.other, "No such file or directory (os error 2)"⟩
  isFile _ := false
  isDir _ := false
  pathExists _ := false
  canonicalize _ := none
  currentDir := none
  gitOutput _ := none
  unixTime := .ok 1700000000
  osEntropy := secretBytes ephemeral
  salt := FixedBytes.zeros 11
  spoolKey := FixedBytes.zeros 32
  disk := ⟨[], 2 ^ 40, ofBytes⟩

/-- The keys and the data of the sample runs. -/
def sampleSender : Scalar := ⟨3, by decide⟩

def sampleRecipient : Scalar := ⟨1, by decide⟩

def sampleEphemeral : Scalar := ⟨2, by decide⟩

def sampleData : Bytes := Text.utf8 "hello"

/-- The sender's host with one file, a signature file. -/
def signatureHost (sigRaw : Bytes) : Host :=
  { keyHost sampleSender sampleEphemeral with fileContents := fun _ => .ok sigRaw }

theorem scalar_secretBytes (key : Scalar) : scalar (secretBytes key) = some key := by
  have value : beNat (secretBytes key).toList = key.val :=
    beNat_beList (Nat.lt_trans key.property.2 (by decide))
  unfold scalar
  simp only [value, key.property, and_self, ↓reduceDIte]

theorem signingKey_secretBytes (key : Scalar) : curve.signingKey (secretBytes key) = .ok key := by
  dsimp only [curve]
  rw [scalar_secretBytes]
  rfl

/-- Hexadecimal text of 32 bytes is read as these bytes. -/
theorem parseKeyBytes_hex (aead : Cipher) (bytes : FixedBytes 32) :
    parseKeyBytes (packagesWith aead) (Hex.encode bytes.toList) = .ok bytes := by
  have solid : ∀ c ∈ (Hex.encode bytes.toList).toList, Text.isWhitespace c = false := by
    intro c member
    obtain ⟨value, small, rfl⟩ := Hex.exists_digit member
    exact (Hex.digit_spec value small).2.1
  have plain : 'n' ∉ (Hex.encode bytes.toList).toList := by
    intro member
    obtain ⟨value, small, same⟩ := Hex.exists_digit member
    exact (Hex.digit_spec value small).2.2.1 same.symm
  have unmarked : ∀ rest, ('n' :: rest).isPrefixOf (Hex.encode bytes.toList).toList = false := by
    intro rest
    rw [Bool.eq_false_iff, ne_eq, List.isPrefixOf_iff_prefix]
    exact fun found => plain (found.subset List.mem_cons_self)
  have trimmed : trimmedString (Hex.encode bytes.toList) = Hex.encode bytes.toList := by
    rw [trimmedString, Text.trim_of_solid solid, String.ofList_toList]
  have decoded : (packagesWith aead).encodings.hexDecode (Hex.encode bytes.toList) = .ok bytes.toList :=
    Hex.decode_encode bytes.toList
  have nsec : "nsec1".toList.isPrefixOf (Hex.encode bytes.toList).toList = false := unmarked _
  have npub : "npub1".toList.isPrefixOf (Hex.encode bytes.toList).toList = false := unmarked _
  simp only [parseKeyBytes, trimmed, nsec, npub, decoded, FixedBytes.ofList?_toList, Bool.or_self,
    Bool.false_eq_true, ↓reduceIte]

theorem loadSecretKey_keyHost (aead : Cipher) (secret ephemeral : Scalar) :
    loadSecretKey (packagesWith aead) (keyHost secret ephemeral) {} =
      .ok (secretBytes secret) := by
  have environment : envVarOr (keyHost secret ephemeral) "PIPE_K1_SEC_KEY" "PIPEK1_SEC_KEY" =
      some (Hex.encode (secretBytes secret).toList) := rfl
  have mnemonic : mnemonicInput (keyHost secret ephemeral) {} = .ok none := rfl
  simp only [loadSecretKey, mnemonic, environment, parseKeyBytes_hex]
  rfl

theorem keyHost_disk_honest (secret ephemeral : Scalar) : (keyHost secret ephemeral).disk.Honest :=
  ⟨show 2 ^ 40 < 2 ^ 64 by decide, fun written => (smooth_ofBytes written).patient, content_ofBytes⟩

end PipeK1.Reference
