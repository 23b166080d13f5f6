import PipeK1.Library.Aead
import PipeK1.Library.XOnly

/-!
# Third-party crates

The packages the program calls, as one record of functions: hashes, the AEAD,
the curve, text encodings and BIP-32/39 derivation. An error is the text its
`Display` gives. Nothing is assumed about the functions here; what a result
relies on is stated as one of the properties below the record.
-/

set_option autoImplicit false

namespace PipeK1

open ByteData SealedData

/-- `sha2`, `hmac` and `hkdf`. An incremental hasher is the bytes it was fed. -/
structure Digests where
  sha256 : Bytes → FixedBytes 32
  hmacSha256 : FixedBytes 32 → Bytes → FixedBytes 32
  hmacSha512 : Bytes → Bytes → FixedBytes 64
  /-- `Hkdf::new(Some(salt), ikm).expand(info, out)` with a 32-byte output. -/
  hkdfSha256 : FixedBytes 11 → FixedBytes 32 → Bytes → Except String (FixedBytes 32)

/-- The parts of `k256` the program uses. -/
structure Secp256k1 where
  Point : Type
  Scalar : Type
  SigningKey : Type
  VerifyingKey : Type
  Signature : Type
  /-- `NonZeroScalar::try_from`. -/
  nonZeroScalar : FixedBytes 32 → Except String Scalar
  /-- `PublicKey::from_sec1_bytes`. -/
  fromSec1 : FixedBytes 33 → Except String Point
  mul : Point → Scalar → Point
  isIdentity : Point → Bool
  /-- `to_encoded_point(false).x()`. -/
  xCoordinate : Point → Option (FixedBytes 32)
  /-- `SigningKey::from_bytes`. -/
  signingKey : FixedBytes 32 → Except String SigningKey
  /-- `verifying_key().to_bytes()`. -/
  publicBytes : SigningKey → FixedBytes 32
  signRaw : SigningKey → FixedBytes 32 → FixedBytes 32 → Except String Signature
  signatureBytes : Signature → FixedBytes 64
  /-- `VerifyingKey::from_bytes`. -/
  verifyingKey : FixedBytes 32 → Except String VerifyingKey
  /-- `Signature::try_from`. -/
  signature : FixedBytes 64 → Except String Signature
  verifyRaw : VerifyingKey → FixedBytes 32 → Signature → Except String Unit

/-- `hex`, `bech32` and `base64` (the standard engine). -/
structure Encodings where
  hexEncode : Bytes → String
  hexDecode : String → Except String Bytes
  bech32Encode : String → Bytes → String
  /-- The human-readable part and the payload. -/
  bech32Decode : String → Except String (String × Bytes)
  base64Encode : Bytes → String
  base64Decode : String → Except String Bytes

/-- `bip39` and `bip32`. -/
structure Derivation where
  Mnemonic : Type
  XPrv : Type
  ChildNumber : Type
  mnemonic : String → Except String Mnemonic
  seed : Mnemonic → String → Bytes
  root : Bytes → Except String XPrv
  path : String → Except String (List ChildNumber)
  deriveChild : XPrv → ChildNumber → Except String XPrv
  privateKey : XPrv → FixedBytes 32

abbrev Cipher := Aead (FixedBytes 32) (FixedBytes 12) (FixedBytes 16)

structure Crates where
  digests : Digests
  /-- `chacha20poly1305`. -/
  aead : Cipher
  curve : Secp256k1
  encodings : Encodings
  bip : Derivation

/-! ## Documented behaviour -/

/-- HKDF-Expand fails only for outputs longer than 255 hash lengths. -/
def Digests.Expands (digests : Digests) : Prop :=
  ∀ salt ikm info, ∃ key, digests.hkdfSha256 salt ikm info = .ok key

namespace Secp256k1

/-- The 33-byte SEC1 encoding with an even y-coordinate. -/
def evenSec1 (x : FixedBytes 32) : FixedBytes 33 := (FixedBytes.single 0x02).append x

/-- `k256` computes in a group of prime order in which a point and its negation
have the same x-coordinate, decompression gives one of the two points with the
wanted x-coordinate, and keys and scalars come from the same 32 bytes. -/
structure PrimeOrder (curve : Secp256k1) [AddCommGroup curve.Point] where
  order : Nat
  order_prime : order.Prime
  annihilates : ∀ point : curve.Point, order • point = 0
  generator : curve.Point
  generator_ne_zero : generator ≠ 0
  scalarValue : curve.Scalar → Nat
  scalarValue_pos : ∀ scalar, 0 < scalarValue scalar
  scalarValue_lt : ∀ scalar, scalarValue scalar < order
  mul_eq : ∀ point scalar, curve.mul point scalar = scalarValue scalar • point
  isIdentity_iff : ∀ point, curve.isIdentity point = true ↔ point = 0
  xCoordinate_isSome : ∀ point, point ≠ 0 → (curve.xCoordinate point).isSome
  xCoordinate_neg : ∀ point, curve.xCoordinate (-point) = curve.xCoordinate point
  xCoordinate_inj : ∀ left right, left ≠ 0 → right ≠ 0 →
    curve.xCoordinate left = curve.xCoordinate right → XOnly.SameUpToSign left right
  fromSec1_ok : ∀ x point, curve.fromSec1 (evenSec1 x) = .ok point →
    point ≠ 0 ∧ curve.xCoordinate point = some x
  fromSec1_complete : ∀ x point, point ≠ 0 → curve.xCoordinate point = some x →
    ∃ lifted, curve.fromSec1 (evenSec1 x) = .ok lifted
  signingKey_ok : ∀ secret key, curve.signingKey secret = .ok key →
    ∃ scalar, curve.nonZeroScalar secret = .ok scalar ∧
      curve.xCoordinate (scalarValue scalar • generator) = some (curve.publicBytes key)

/-- BIP-340: a signature made by a key verifies, from its encoded form, under that
key's encoded public key. -/
structure SignsAndVerifies (curve : Secp256k1) : Prop where
  signs : ∀ secret key hash, curve.signingKey secret = .ok key →
    ∃ signature, curve.signRaw key hash (FixedBytes.zeros 32) = .ok signature
  verifies : ∀ secret key hash signature, curve.signingKey secret = .ok key →
    curve.signRaw key hash (FixedBytes.zeros 32) = .ok signature →
    ∃ verifier decoded, curve.verifyingKey (curve.publicBytes key) = .ok verifier ∧
      curve.signature (curve.signatureBytes signature) = .ok decoded ∧
      curve.verifyRaw verifier hash decoded = .ok ()

/-- BIP-340: an encoded signature is valid for at most one hash under a key. -/
def BindsHash (curve : Secp256k1) : Prop :=
  ∀ verifier signature hash hash', curve.verifyRaw verifier hash signature = .ok () →
    curve.verifyRaw verifier hash' signature = .ok () → hash = hash'

end Secp256k1

end PipeK1
