import PipeK1.Keys
import PipeK1.Wire

/-!
# The streaming encryptor

`run_encrypt`: the ephemeral key, the header, the chunk loop with one chunk of
lookahead and the Mode 1 trailer.
-/

set_option autoImplicit false

namespace PipeK1

open ByteData ByteReader Effects

variable (crates : Crates) (host : Host)

structure EncryptArgs where
  recipientHex : String
  mode : UInt8
  keyArgs : KeyIntakeArgs
  entropyFd : Option Int

/-! ## Keys -/

/-- Re-hash until the scalar is valid. The source sets no bound on the number of
rounds; here the check is made at most `rounds` times. -/
def rehash : Nat → FixedBytes 32 → Except Stop (FixedBytes 32)
  | 0, _ => throw .unfinished
  | rounds + 1, mixed =>
      if (crates.curve.signingKey mixed).isOk ∧ mixed ≠ FixedBytes.zeros 32 then
        return mixed
      else
        rehash rounds (taggedHash crates tagEntropy mixed.toList)

/-- The system's random bytes, mixed with those behind the entropy descriptor if
there is one. -/
def ephPrivBytes (rounds : Nat) (entropyFd : Option Int) : Except Stop (FixedBytes 32) :=
  match entropyFd with
  | none => return host.osEntropy
  | some fdNum => do
      let reader ← fromRawFd host fdNum
      let physicalEntropy ← Stop.mapErr
        (fun e => .usageError ("Failed to read entropy fd: " ++ e.message))
        (fill chunkSize reader).1
      if physicalEntropy = [] then
        throw (.failed (.usageError "Entropy file descriptor was empty"))
      else
        rehash crates rounds
          (taggedHash crates tagEntropy (host.osEntropy.toList ++ physicalEntropy))

/-- The sender's key, in Mode 1. -/
def senderSigningKey (mode : UInt8) (keyArgs : KeyIntakeArgs) :
    Except Stop (Option crates.curve.SigningKey) :=
  if mode = 0x01 then
    match loadSecretKey crates host keyArgs with
    | .error (.failed e) =>
        throw (.failed (.usageError ("Mode 1 requires sender secret key: " ++ e.display)))
    | .error stop => throw stop
    | .ok senderPriv => do
        let key ← Stop.mapErr (fun e => .usageError ("Invalid sender secret scalar: " ++ e))
          (crates.curve.signingKey senderPriv)
        return some key
  else
    return none

/-- Everything that is fixed before the first wire byte. -/
structure EncryptSession where
  mode : UInt8
  recipX : FixedBytes 32
  ephPubX : FixedBytes 32
  headerKey : FixedBytes 32
  payloadKey : FixedBytes 32
  sender : Option crates.curve.SigningKey

@[irreducible] def encryptSession (rounds : Nat) (args : EncryptArgs) :
    Except Stop (EncryptSession crates) := do
  let recipX ← Stop.mapErr .usageError (parseKeyBytes crates args.recipientHex)
  let ephPriv ← ephPrivBytes crates host rounds args.entropyFd
  let signingKey ← Stop.mapErr
    (fun e => .usageError ("Invalid ephemeral secret scalar: " ++ e))
    (crates.curve.signingKey ephPriv)
  let sender ← senderSigningKey crates host args.mode args.keyArgs
  let ikm ← Stop.mapErr (fun e => .usageError ("ECDH calculation failed: " ++ e))
    (ecdhSharedX crates ephPriv recipX)
  let keys ← Stop.mapErr (fun e => .usageError ("Key derivation failed: " ++ e))
    (deriveKeys crates ikm host.salt)
  return ⟨args.mode, recipX, crates.curve.publicBytes signingKey, keys.1, keys.2, sender⟩

/-! ## Header -/

/-- Magic through salt. -/
def header81 (mode : UInt8) (ephPubX recipX : FixedBytes 32) (salt : FixedBytes 11) :
    FixedBytes 81 :=
  ((((magicHeader.append (FixedBytes.single 0x01)).append (FixedBytes.single mode)).append
    ephPubX).append recipX).append salt

variable {crates} in
def EncryptSession.hmac16 (session : EncryptSession crates) : FixedBytes 16 :=
  computeHeaderHmac crates session.headerKey
    (header81 session.mode session.ephPubX session.recipX host.salt)

variable {crates} in
def EncryptSession.header (session : EncryptSession crates) : FixedBytes wireHeaderSize :=
  (header81 session.mode session.ephPubX session.recipX host.salt).append (session.hmac16 host)

/-! ## Chunks -/

/-- The loop's variables. Bytes of a buffer past its length are left over from
earlier rounds. -/
structure EncryptState where
  curBuf : Bytes
  nextBuf : Bytes
  curLen : Nat
  chunkCounter : UInt64
  hashed : Bytes

/-- The number of bytes read, and the buffer with them at its front. -/
def fillBuffer (buf : Bytes) : Run (Nat × Bytes) := do
  let outcome ← onStdin (fill buf.length)
  let filled ← orFail .io outcome
  return (filled.length, filled ++ buf.drop filled.length)

def checkedAdd (left right : UInt64) : Option UInt64 :=
  if left.toNat + right.toNat < 2 ^ 64 then some (left + right) else none

/-- Nothing after the current chunk makes it the terminal one. -/
def lookaheadTag (nextLen : Nat) : UInt8 := if nextLen = 0 then 0x01 else 0x00

variable {crates} in
/-- The plaintext hasher runs in Mode 1 only. -/
def EncryptSession.absorb (session : EncryptSession crates) (hashed block : Bytes) : Bytes :=
  if session.mode = 0x01 then hashed ++ block else hashed

variable {crates} in
def encryptStep (session : EncryptSession crates) (state : EncryptState) :
    Run (EncryptState ⊕ Bytes) := do
  let (nextLen, nextBuf) ← fillBuffer state.nextBuf
  let termTag := lookaheadTag nextLen
  let nonce := buildNonce state.chunkCounter termTag
  let aad := streamAad session.mode session.recipX state.curLen state.chunkCounter termTag
  writeStdout ((u32Be (UInt32.ofNat state.curLen)).toList ++ [termTag])
  let block := state.curBuf.take state.curLen
  let hashed := session.absorb state.hashed block
  match crates.aead.encrypt session.payloadKey nonce aad block with
  | .error e => fail (.usageError ("Chunk encryption failed: " ++ e))
  | .ok (ct, tag) => do
      record (.chunkSealed session.payloadKey ⟨nonce, aad, block, ct, tag⟩)
      writeStdout ct
      writeStdout tag.toList
      match checkedAdd state.chunkCounter 1 with
      | none => fail (.usageError "Chunk counter overflow")
      | some chunkCounter =>
          if nextLen = 0 then
            return .inr hashed
          else
            return .inl ⟨nextBuf, state.curBuf, nextLen, chunkCounter, hashed⟩

/-! ### One round -/

theorem checkedAdd_one_eq_some_iff {counter next : UInt64} :
    checkedAdd counter 1 = some next ↔ next.toNat = counter.toNat + 1 := by
  unfold checkedAdd
  split
  · next fits =>
      have sum : (counter + 1).toNat = counter.toNat + 1 := by
        rw [UInt64.toNat_add]
        exact Nat.mod_eq_of_lt fits
      rw [Option.some.injEq, ← UInt64.toNat_inj, sum, eq_comm]
  · next overflow =>
      have bound := next.toNat_lt
      constructor
      · intro impossible
        cases impossible
      · intro same
        have one : (1 : UInt64).toNat = 1 := rfl
        omega

theorem fillBuffer_ends (buf : Bytes) (process : Process) :
    Ends (fun filled after => ∃ bytes, filled = (bytes.length, bytes ++ buf.drop bytes.length) ∧
        fill buf.length process.stdin = (.ok bytes, after.stdin) ∧ bytes.length ≤ buf.length ∧
        content process.stdin = bytes ++ content after.stdin ∧
        after.events = process.events ∧
        (Smooth process.stdin → Smooth after.stdin ∧
          bytes = (content process.stdin).take buf.length))
      (fun stop _ => ∃ error rest, fill buf.length process.stdin = (.error error, rest) ∧
        stop = .failed (.io error)) (fillBuffer buf process) := by
  rw [fillBuffer, ends_bind, onStdin, ends_modifyGet, ends_bind]
  refine ends_orFail ?_ ?_
  · intro bytes filled
    have delivered : fill buf.length process.stdin =
        (.ok bytes, (fill buf.length process.stdin).2) := Prod.ext filled rfl
    obtain ⟨content_eq, fits⟩ := fill_ok_content delivered
    refine ⟨bytes, rfl, delivered, fits, content_eq, rfl, fun smooth => ?_⟩
    obtain ⟨rest, taken, _, _, quiet⟩ := fill_patient buf.length smooth.patient
    rw [taken] at filled
    cases filled
    exact ⟨by simpa only [taken] using quiet smooth, rfl⟩
  · intro error failed
    exact ⟨error, _, Prod.ext failed rfl, rfl⟩

variable {crates} in
/-- What one round does: `bytes`, read into the other buffer, is the plaintext of the next
chunk, and the current one is sealed and written. -/
structure EncryptRound (session : EncryptSession crates) (state : EncryptState)
    (process after : Process) (bytes ct : Bytes) (tag : FixedBytes tagSize) : Prop where
  content_eq : content process.stdin = bytes ++ content after.stdin
  fits : bytes.length ≤ state.nextBuf.length
  sealed : crates.aead.encrypt session.payloadKey
    (buildNonce state.chunkCounter (lookaheadTag bytes.length))
    (streamAad session.mode session.recipX state.curLen state.chunkCounter
      (lookaheadTag bytes.length)) (state.curBuf.take state.curLen) = .ok (ct, tag)
  events_eq : after.events = process.events ++
    [.stdout ((u32Be (UInt32.ofNat state.curLen)).toList ++ [lookaheadTag bytes.length]),
      .chunkSealed session.payloadKey ⟨buildNonce state.chunkCounter (lookaheadTag bytes.length),
        streamAad session.mode session.recipX state.curLen state.chunkCounter
          (lookaheadTag bytes.length), state.curBuf.take state.curLen, ct, tag⟩,
      .stdout ct, .stdout tag.toList]
  smooth : Smooth process.stdin → Smooth after.stdin ∧
    bytes = (content process.stdin).take state.nextBuf.length

variable {crates} in
/-- Why a round fails. -/
inductive ChunkFailure (session : EncryptSession crates) (state : EncryptState)
    (process : Process) : Stop → Prop
  | read {error : IoError} {rest : Reader}
      (failed : fill state.nextBuf.length process.stdin = (.error error, rest)) :
      ChunkFailure session state process (.failed (.io error))
  | encryption {nonce : FixedBytes 12} {aad : Bytes} {error : String}
      (refused : crates.aead.encrypt session.payloadKey nonce aad
        (state.curBuf.take state.curLen) = .error error) :
      ChunkFailure session state process
        (.failed (.usageError ("Chunk encryption failed: " ++ error)))
  | overflow (many : 2 ^ 64 ≤ state.chunkCounter.toNat + 1) :
      ChunkFailure session state process (.failed (.usageError "Chunk counter overflow"))

variable {crates} in
theorem encryptStep_ends (session : EncryptSession crates) (state : EncryptState)
    (process : Process) :
    Ends (fun outcome after => ∃ bytes ct tag counter,
        EncryptRound session state process after bytes ct tag ∧
        fill state.nextBuf.length process.stdin = (.ok bytes, after.stdin) ∧
        counter.toNat = state.chunkCounter.toNat + 1 ∧
        outcome = if bytes.length = 0 then
            .inr (session.absorb state.hashed (state.curBuf.take state.curLen))
          else .inl ⟨bytes ++ state.nextBuf.drop bytes.length, state.curBuf, bytes.length, counter,
            session.absorb state.hashed (state.curBuf.take state.curLen)⟩)
      (fun stop _ => ChunkFailure session state process stop)
      (encryptStep session state process) := by
  rw [encryptStep, ends_bind]
  refine (fillBuffer_ends state.nextBuf process).mono ?_ ?_
  rotate_left
  · rintro _ _ ⟨error, rest, failed, rfl⟩
    exact .read failed
  rintro _ first ⟨bytes, rfl, delivered, fits, content_eq, events_eq, quiet⟩
  rw [ends_bind, ends_writeStdout]
  cases sealed : crates.aead.encrypt session.payloadKey
      (buildNonce state.chunkCounter (lookaheadTag bytes.length))
      (streamAad session.mode session.recipX state.curLen state.chunkCounter
        (lookaheadTag bytes.length)) (state.curBuf.take state.curLen) with
  | error e =>
      rw [ends_fail]
      exact .encryption sealed
  | ok output =>
      obtain ⟨ct, tag⟩ := output
      simp only [ends_bind, ends_record, ends_writeStdout]
      cases counted : checkedAdd state.chunkCounter 1 with
      | none =>
          rw [ends_fail]
          refine .overflow ?_
          by_contra few
          have room : state.chunkCounter.toNat + 1 < 2 ^ 64 := Nat.lt_of_not_le few
          have next := @checkedAdd_one_eq_some_iff state.chunkCounter
            (UInt64.ofNat (state.chunkCounter.toNat + 1))
          rw [counted, UInt64.toNat_ofNat_of_lt' room] at next
          cases next.mpr rfl
      | some counter =>
          have counted' := checkedAdd_one_eq_some_iff.mp counted
          have events : ∀ sealing, first.events ++
              [.stdout ((u32Be (UInt32.ofNat state.curLen)).toList ++ [lookaheadTag bytes.length])] ++
              [.chunkSealed session.payloadKey sealing] ++ [.stdout ct] ++ [.stdout tag.toList] =
              process.events ++ [.stdout ((u32Be (UInt32.ofNat state.curLen)).toList ++
                [lookaheadTag bytes.length]), .chunkSealed session.payloadKey sealing, .stdout ct,
                .stdout tag.toList] := by
            intro sealing
            simp only [events_eq, List.append_assoc, List.cons_append, List.nil_append]
          split
          · next last =>
              exact ⟨bytes, ct, tag, counter, ⟨content_eq, fits, sealed, events _, quiet⟩, delivered,
                counted', (if_pos last).symm⟩
          · next more =>
              exact ⟨bytes, ct, tag, counter, ⟨content_eq, fits, sealed, events _, quiet⟩, delivered,
                counted', (if_neg more).symm⟩

variable {crates} in
theorem encryptStep_shrinks (session : EncryptSession crates) {state next : EncryptState}
    {process process' : Process}
    (stepped : encryptStep session state process = .ok (.inl next) process') :
    (content process'.stdin).length < (content process.stdin).length := by
  obtain ⟨bytes, ct, tag, counter, round, _, _, outcome⟩ :=
    (encryptStep_ends session state process).ok stepped
  split at outcome
  · cases outcome
  · rw [round.content_eq, List.length_append]
    omega

variable {crates} in
/-- The chunk loop; its result is what the plaintext hasher has absorbed. -/
def encryptChunks (session : EncryptSession crates) (state : EncryptState) : Run Bytes :=
  loop (fun process => (content process.stdin).length) (encryptStep session)
    (encryptStep_shrinks session) state

/-! ## Trailer -/

variable {crates} in
def writeTrailer (session : EncryptSession crates) (hashed : Bytes) : Run Unit :=
  match session.sender with
  | none => pure ()
  | some signingKey => do
      let ptDigest := crates.digests.sha256 hashed
      let authHash := taggedHash crates tagAuth
        (authTranscript (session.hmac16 host) ptDigest).toList
      let sig ← orFail (fun e => .usageError ("Trailer signing failed: " ++ e))
        (crates.curve.signRaw signingKey authHash (FixedBytes.zeros 32))
      writeStdout (crates.curve.publicBytes signingKey).toList
      writeStdout (crates.curve.signatureBytes sig).toList

/-- `vec![0u8; CHUNK_SIZE]`. -/
@[irreducible] def zeroBuffer : Bytes := List.replicate chunkSize 0

theorem length_zeroBuffer : zeroBuffer.length = chunkSize := by
  unfold zeroBuffer
  exact List.length_replicate

@[irreducible] def runEncrypt (rounds : Nat) (args : EncryptArgs) : Run Unit := do
  let session ← orStop (encryptSession crates host rounds args)
  writeStdout (session.header host).toList
  let filled ← fillBuffer zeroBuffer
  let hashed ← encryptChunks session ⟨filled.2, zeroBuffer, filled.1, 0, []⟩
  writeTrailer host session hashed

end PipeK1
