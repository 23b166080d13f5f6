import PipeK1.Crates
import PipeK1.Library.Text

/-!
# The wire format

Constants, tagged hashes, nonces, additional data and the key schedule, which
the encryptor and the decryptor share.
-/

set_option autoImplicit false

namespace PipeK1

open ByteData

variable (crates : Crates)

def magicHeader : FixedBytes 4 := ⟨[0x50, 0x4B, 0x30, 0x31], rfl⟩

def magicSignature : FixedBytes 4 := ⟨[0x50, 0x4B, 0x53, 0x47], rfl⟩

abbrev wireHeaderSize : Nat := 97

abbrev chunkHeaderSize : Nat := 5

abbrev signaturePayloadSize : Nat := 105

abbrev chunkSize : Nat := 65536

abbrev tagSize : Nat := 16

abbrev trailerSize : Nat := 96

-- Where the fields lie: definitions of several modules share these proofs.

theorem header_magic : 0 + 4 ≤ wireHeaderSize := by decide

theorem header_version : 4 < wireHeaderSize := by decide

theorem header_mode : 5 < wireHeaderSize := by decide

theorem header_ephemeralPub : 6 + 32 ≤ wireHeaderSize := by decide

theorem header_recipientPub : 38 + 32 ≤ wireHeaderSize := by decide

theorem header_salt : 70 + 11 ≤ wireHeaderSize := by decide

theorem header_hmac : 81 + 16 ≤ wireHeaderSize := by decide

theorem chunkHeader_length : 0 + 4 ≤ chunkHeaderSize := by decide

theorem chunkHeader_tag : 4 < chunkHeaderSize := by decide

theorem trailer_sender : 0 + 32 ≤ trailerSize := by decide

theorem payload_magic : 0 + 4 ≤ signaturePayloadSize := by decide

theorem payload_version : 4 < signaturePayloadSize := by decide

theorem payload_timestamp : 5 + 4 ≤ signaturePayloadSize := by decide

theorem payload_signer : 9 + 32 ≤ signaturePayloadSize := by decide

def tagSign : String := "pipe-k1/v1/sign"

def tagSignLegacy : String := "pipek1/v1/sign"

def tagAuth : String := "pipe-k1/v1/auth"

def tagEntropy : String := "pipe-k1/v1/entropy"

def infoHeader : Bytes := Text.utf8 "pipe-k1/v1/header"

def infoStream : Bytes := Text.utf8 "pipe-k1/v1/stream"

/-- BIP-340 tagged hash. -/
def taggedHash (tag : String) (msg : Bytes) : FixedBytes 32 :=
  let tagHash := crates.digests.sha256 (Text.utf8 tag)
  crates.digests.sha256 (tagHash.toList ++ tagHash.toList ++ msg)

/-- `ChunkCounter (8B BE) || 0x00 0x00 0x00 || TermTag (1B)`. -/
def buildNonce (counter : UInt64) (termTag : UInt8) : FixedBytes 12 :=
  ((u64Be counter).append (FixedBytes.zeros 3)).append (FixedBytes.single termTag)

def buildAad (magic : FixedBytes 4) (version mode : UInt8) (recipPub : FixedBytes 32)
    (chunkLen : UInt32) (counter : UInt64) (termTag : UInt8) : FixedBytes 51 :=
  (((((magic.append (FixedBytes.single version)).append (FixedBytes.single mode)).append
    recipPub).append (u32Be chunkLen)).append (u64Be counter)).append (FixedBytes.single termTag)

/-- The additional data of a stream's chunk. -/
def streamAad (mode : UInt8) (recipPub : FixedBytes 32) (chunkLen : Nat) (counter : UInt64)
    (termTag : UInt8) : Bytes :=
  (buildAad magicHeader 0x01 mode recipPub (UInt32.ofNat chunkLen) counter termTag).toList

/-- The header key and the payload key. -/
def deriveKeys (ikm : FixedBytes 32) (salt : FixedBytes 11) :
    Except String (FixedBytes 32 × FixedBytes 32) :=
  match crates.digests.hkdfSha256 salt ikm infoHeader with
  | .error e => .error ("HKDF header expand failed: " ++ e)
  | .ok headerKey =>
      match crates.digests.hkdfSha256 salt ikm infoStream with
      | .error e => .error ("HKDF stream expand failed: " ++ e)
      | .ok payloadKey => .ok (headerKey, payloadKey)

def computeHeaderHmac (headerKey : FixedBytes 32) (header81 : FixedBytes 81) : FixedBytes 16 :=
  (crates.digests.hmacSha256 headerKey header81.toList).slice 0 16

/-- The point with this x-coordinate and an even y-coordinate. -/
def liftX (xBytes : FixedBytes 32) : Except String crates.curve.Point :=
  match crates.curve.fromSec1 (Secp256k1.evenSec1 xBytes) with
  | .error e => .error ("Invalid curve point: " ++ e)
  | .ok point => .ok point

/-- SHA-256 of the x-coordinate of `privScalar` times the lifted `pubX`. -/
def ecdhSharedX (privScalar pubX : FixedBytes 32) : Except String (FixedBytes 32) :=
  match crates.curve.nonZeroScalar privScalar with
  | .error e => .error ("Invalid private scalar: " ++ e)
  | .ok sk =>
      match liftX crates pubX with
      | .error e => .error e
      | .ok pt =>
          let shared := crates.curve.mul pt sk
          if crates.curve.isIdentity shared then .error "Point at infinity"
          else
            match crates.curve.xCoordinate shared with
            | none => .error "Missing x coordinate"
            | some x => .ok (crates.digests.sha256 x.toList)

/-- The bytes a Mode 1 trailer signs, before hashing. -/
def authTranscript (hmac16 : FixedBytes 16) (ptDigest : FixedBytes 32) : FixedBytes 48 :=
  hmac16.append ptDigest

/-! ## Documented behaviour -/

/-- What encryption relies on. -/
structure EncryptLaws (crates : Crates) [AddCommGroup crates.curve.Point] where
  prime : crates.curve.PrimeOrder
  signs : crates.curve.SignsAndVerifies
  expands : crates.digests.Expands
  seals : ∀ key, crates.aead.SealsUpTo key chunkSize

/-- What a round trip relies on. -/
structure Lawful (crates : Crates) [AddCommGroup crates.curve.Point] extends
    EncryptLaws crates where
  inverts : ∀ key, crates.aead.Inverts key chunkSize

end PipeK1
