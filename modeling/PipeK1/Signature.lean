import PipeK1.Host
import PipeK1.Wire

/-!
# Detached signatures

The 105-byte payload `PKSG || version || timestamp || key || signature`, and the
ASCII armor it may arrive in.
-/

set_option autoImplicit false

namespace PipeK1

open ByteData

variable (crates : Crates)

abbrev SignaturePayload := FixedBytes signaturePayloadSize

def tsAndDigest (timestamp : UInt32) (msgDigest : FixedBytes 32) : FixedBytes 36 :=
  (u32Be timestamp).append msgDigest

/-- The source unwraps the signature with `expect`. -/
def signStreamPayload (signingKey : crates.curve.SigningKey) (msgDigest : FixedBytes 32)
    (timestamp : UInt32) : Except Stop SignaturePayload :=
  let mHash := taggedHash crates tagSign (tsAndDigest timestamp msgDigest).toList
  match crates.curve.signRaw signingKey mHash (FixedBytes.zeros 32) with
  | .error e => throw (.panicked ("signing failed: " ++ e))
  | .ok signature =>
      return (((magicSignature.append (FixedBytes.single 0x01)).append (u32Be timestamp)).append
        (crates.curve.publicBytes signingKey)).append (crates.curve.signatureBytes signature)

/-- The signer's key, when the signature verifies under the current or the legacy tag. -/
def verifyStreamPayload (payload : SignaturePayload) (msgDigest : FixedBytes 32) :
    Except String (FixedBytes 32) :=
  if payload.slice 0 4 ≠ magicSignature then
    .error "Invalid magic bytes in signature payload"
  else if payload.byteAt 4 ≠ 0x01 then
    .error "Unsupported signature version"
  else
    let timestamp := u32FromBe (payload.slice 5 4)
    let signed := (tsAndDigest timestamp msgDigest).toList
    let pkX := payload.slice 9 32
    match crates.curve.verifyingKey pkX with
    | .error e => .error ("Invalid public key: " ++ e)
    | .ok vk =>
        match crates.curve.signature (payload.slice 41 64) with
        | .error e => .error ("Invalid signature format: " ++ e)
        | .ok sig =>
            match crates.curve.verifyRaw vk (taggedHash crates tagSign signed) sig with
            | .ok () => .ok pkX
            | .error e1 =>
                match crates.curve.verifyRaw vk (taggedHash crates tagSignLegacy signed) sig with
                | .ok () => .ok pkX
                | .error _ => .error ("Schnorr verification failed: " ++ e1)

/-! ## Armor -/

def beginsArmor (text : List Char) : Bool :=
  Text.contains "BEGIN PGP SIGNATURE".toList text ||
    Text.contains "BEGIN PIPE-K1 SIGNATURE".toList text ||
    Text.contains "BEGIN PIPEK1 SIGNATURE".toList text

def endsArmor (text : List Char) : Bool :=
  Text.contains "END PGP SIGNATURE".toList text ||
    Text.contains "END PIPE-K1 SIGNATURE".toList text ||
    Text.contains "END PIPEK1 SIGNATURE".toList text

/-- The lines between the markers; blank lines and header lines are left out. -/
def armorBody : Bool → List (List Char) → List Char
  | _, [] => []
  | capture, line :: lines =>
      let tr := Text.trim line
      if beginsArmor tr then armorBody true lines
      else if endsArmor tr then []
      else if capture && !tr.isEmpty && !tr.contains ':' then tr ++ armorBody capture lines
      else armorBody capture lines

def isArmored (text : List Char) : Bool :=
  Text.contains "SIGNATURE".toList text && beginsArmor text

/-- The signature bytes of a file. `verify` and the git shim each carry this code. -/
def detachArmor (sigRaw : Bytes) : Except Pipek1Error Bytes :=
  match Text.fromUtf8 sigRaw with
  | none => .ok sigRaw
  | some text =>
      if isArmored text then
        match crates.encodings.base64Decode
            (String.ofList (armorBody false (Text.lines text))) with
        | .error e => .error (.wireCorruption ("Base64 decode error: " ++ e))
        | .ok bytes => .ok bytes
      else
        .ok sigRaw

/-- `-----BEGIN <label>-----`, a blank line, the Base64 text, `-----END <label>-----`. -/
def printArmored (label : String) (payload : SignaturePayload) : Run Unit := do
  println ("-----BEGIN " ++ label ++ "-----")
  println ""
  println (crates.encodings.base64Encode payload.toList)
  println ("-----END " ++ label ++ "-----")

/-! ## What a payload says -/

/-- `PKSG`, version 1. -/
structure PayloadFormed (payload : SignaturePayload) : Prop where
  magic : payload.slice 0 4 = magicSignature
  version : payload.byteAt 4 = 0x01

/-- The embedded key signed the timestamp and the digest, under one of the two tags. -/
structure PayloadVerifies (payload : SignaturePayload) (msgDigest : FixedBytes 32) : Prop where
  formed : PayloadFormed payload
  signed : ∃ vk sig, crates.curve.verifyingKey (payload.slice 9 32) = .ok vk ∧
    crates.curve.signature (payload.slice 41 64) = .ok sig ∧
    ∃ tag, (tag = tagSign ∨ tag = tagSignLegacy) ∧
      crates.curve.verifyRaw vk (taggedHash crates tag
        (tsAndDigest (u32FromBe (payload.slice 5 4)) msgDigest).toList) sig = .ok ()

theorem verifyStreamPayload_eq_ok_iff {payload : SignaturePayload} {msgDigest pk : FixedBytes 32} :
    verifyStreamPayload crates payload msgDigest = .ok pk ↔
      PayloadVerifies crates payload msgDigest ∧ pk = payload.slice 9 32 := by
  simp only [verifyStreamPayload, Stop.guard_eq_ok_iff, ne_eq, not_not]
  constructor
  · rintro ⟨magic, version, rest⟩
    cases key : crates.curve.verifyingKey (payload.slice 9 32) with
    | error e => simp [key] at rest
    | ok vk =>
        cases framed : crates.curve.signature (payload.slice 41 64) with
        | error e => simp [key, framed] at rest
        | ok sig =>
            simp only [key, framed] at rest
            split at rest
            · next current =>
                cases rest
                exact ⟨⟨⟨magic, version⟩, vk, sig, key, framed, tagSign, .inl rfl, current⟩, rfl⟩
            · split at rest
              · next legacy =>
                  cases rest
                  exact ⟨⟨⟨magic, version⟩, vk, sig, key, framed, tagSignLegacy, .inr rfl, legacy⟩,
                    rfl⟩
              · cases rest
  · rintro ⟨⟨⟨magic, version⟩, vk, sig, key, framed, tag, known, verified⟩, rfl⟩
    refine ⟨magic, version, ?_⟩
    simp only [key, framed]
    rcases known with rfl | rfl
    · rw [verified]
    · split
      · rfl
      · rw [verified]

end PipeK1
