import PipeK1.Keys
import PipeK1.Spool
import PipeK1.Wire

/-!
# The streaming decryptor

`run_decrypt`: header checks, the chunk loop over the spool, the Mode 1
trailer, the end-of-input check and the release.
-/

set_option autoImplicit false

namespace PipeK1

open ByteData ByteReader Effects

variable (crates : Crates) (host : Host)

structure DecryptArgs where
  expectedSender : Option String
  allowUntrustedSender : Bool
  allowUnverifiedStream : Bool
  maxSize : Option UInt64
  keyArgs : KeyIntakeArgs

/-! ## Header -/

/-- What a verified header hands to the chunk loop. -/
structure StreamHeader where
  mode : UInt8
  recipPub : FixedBytes 32
  hmac16 : FixedBytes 16
  payloadKey : FixedBytes 32
deriving DecidableEq

def checkHeader (args : DecryptArgs) (recipPriv expectedRecipPub : FixedBytes 32)
    (header : FixedBytes wireHeaderSize) : Except Pipek1Error StreamHeader :=
  let mode := header.byteAt 5
  let ephPub := header.slice 6 32
  let recipPub := header.slice 38 32
  let salt := header.slice 70 11
  if header.slice 0 4 ≠ magicHeader then
    .error (.wireCorruption "Invalid magic bytes (expected PK01)")
  else if header.byteAt 4 ≠ 0x01 then
    .error (.wireCorruption ("Unsupported protocol version: " ++
      toString (header.byteAt 4).toNat))
  else if mode ≠ 0x01 ∧ mode ≠ 0x02 then
    .error (.wireCorruption ("Unsupported mode: " ++ toString mode.toNat))
  else if args.expectedSender.isSome ∧ mode = 0x02 then
    .error (.wireCorruption ("Sender verification requested via --sender, but wire header " ++
      "indicates Mode 2 (Anonymous)"))
  else if mode = 0x01 ∧ args.expectedSender.isNone ∧ args.allowUntrustedSender = false then
    .error (.usageError ("Mode 1 stream requires either --sender <npub|hex> or " ++
      "--allow-untrusted-sender"))
  else if recipPub ≠ expectedRecipPub then
    .error (.wireCorruption "Recipient public key mismatch on wire")
  else
    match ecdhSharedX crates recipPriv ephPub with
    | .error e => .error (.wireCorruption ("ECDH calculation failed: " ++ e))
    | .ok ikm =>
        match deriveKeys crates ikm salt with
        | .error e => .error (.wireCorruption ("Key derivation failed: " ++ e))
        | .ok (headerKey, payloadKey) =>
            if computeHeaderHmac crates headerKey (header.slice 0 81) ≠ header.slice 81 16 then
              .error (.wireCorruption "Header HMAC verification failed (tampered wire header)")
            else
              .ok ⟨mode, recipPub, header.slice 81 16, payloadKey⟩

/-! ## Chunks -/

/-- A chunk as it stands on the wire. -/
structure WireChunk where
  termTag : UInt8
  ciphertext : Bytes
  tag : FixedBytes tagSize
deriving DecidableEq

def WireChunk.bytes (chunk : WireChunk) : Bytes :=
  (u32Be (UInt32.ofNat chunk.ciphertext.length)).toList ++
    (chunk.termTag :: (chunk.ciphertext ++ chunk.tag.toList))

/-- Framing header, ciphertext and tag of the next chunk. -/
def readChunk : Run WireChunk := do
  let chunkHdr ← readStdin
    (fun e => if e.kind = .unexpectedEof then
      .wireCorruption "Premature EOF before terminal chunk" else .io e) chunkHeaderSize
  let chunkLen := (u32FromBe (chunkHdr.slice 0 4)).toNat
  let termTag := chunkHdr.byteAt 4
  if termTag ≠ 0x00 ∧ termTag ≠ 0x01 then
    fail (.wireCorruption ("Framing violation: invalid terminal tag 0x" ++
      Text.hexByte termTag ++ " (expected 0x00 or 0x01)"))
  else if termTag = 0x00 ∧ chunkLen ≠ chunkSize then
    fail (.wireCorruption "Framing violation: intermediate chunk must be exactly 64 KiB")
  else if chunkLen > chunkSize then
    fail (.wireCorruption "Chunk size exceeds 64 KiB buffer limit")
  else do
    let ctBuffer ← readStdin .io chunkLen
    let tagBytes ← readStdin .io tagSize
    return ⟨termTag, ctBuffer.toList, tagBytes⟩

def openChunk (header : StreamHeader) (counter : UInt64) (chunk : WireChunk) :
    Except String Bytes :=
  crates.aead.decrypt header.payloadKey (buildNonce counter chunk.termTag)
    (streamAad header.mode header.recipPub chunk.ciphertext.length counter chunk.termTag)
    chunk.ciphertext chunk.tag

/-- The loop's variables; `hashed` is what the plaintext hasher has absorbed. -/
structure DecryptState where
  chunkCounter : UInt64
  spool : Spool
  hashed : Bytes

/-- Straight to standard output, or into the spool. -/
def deliverChunk (args : DecryptArgs) (plaintext : Bytes) (spool : Spool) : Run Spool :=
  if args.allowUnverifiedStream then do
    writeStdout plaintext
    return spool
  else
    match spool.writeChunk crates.aead plaintext with
    | .ok () spool => return spool
    | .error e _ => fail (.usageError e)

def decryptStep (args : DecryptArgs) (header : StreamHeader) (state : DecryptState) :
    Run (DecryptState ⊕ DecryptState) := do
  let chunk ← readChunk
  match openChunk crates header state.chunkCounter chunk with
  | .error _ =>
      fail (.wireCorruption "Poly1305 AEAD tag verification failed (tampered chunk)")
  | .ok plaintext => do
      record (.chunkAuthenticated state.chunkCounter chunk.termTag plaintext)
      let spool ← deliverChunk crates args plaintext state.spool
      let hashed := if header.mode = 0x01 then state.hashed ++ plaintext else state.hashed
      let next : DecryptState := ⟨state.chunkCounter + 1, spool, hashed⟩
      return if chunk.termTag = 0x01 then .inr next else .inl next

/-! ### Progress -/

/-- The two shapes the framing guards let through. -/
def WireChunk.Framed (chunk : WireChunk) : Prop :=
  (chunk.termTag = 0x00 ∧ chunk.ciphertext.length = chunkSize) ∨
    (chunk.termTag = 0x01 ∧ chunk.ciphertext.length ≤ chunkSize)

theorem WireChunk.Framed.length_le {chunk : WireChunk} (framed : chunk.Framed) :
    chunk.ciphertext.length ≤ chunkSize := by
  rcases framed with ⟨_, full⟩ | ⟨_, fits⟩
  · exact Nat.le_of_eq full
  · exact fits

theorem readChunk_ends (process : Process) :
    Ends (fun chunk after => content process.stdin = chunk.bytes ++ content after.stdin ∧
        after.events = process.events ∧ (Smooth process.stdin → Smooth after.stdin) ∧
        chunk.Framed)
      (fun _ after => after.events = process.events) (readChunk process) := by
  rw [readChunk, ends_bind]
  refine (readStdin_ends _ _ process).mono ?_ (fun _ _ same => same)
  rintro chunkHdr first ⟨content₁, events₁, smooth₁⟩
  split
  · exact events₁
  · next known =>
      split
      · exact events₁
      · next full =>
          split
          · exact events₁
          · next fits =>
              rw [ends_bind]
              refine (readStdin_ends _ _ first).mono ?_ (fun _ _ same => same.trans events₁)
              rintro ctBuffer second ⟨content₂, events₂, smooth₂⟩
              rw [ends_bind]
              refine (readStdin_ends _ _ second).mono ?_
                (fun _ _ same => same.trans (events₂.trans events₁))
              rintro tagBytes third ⟨content₃, events₃, smooth₃⟩
              rw [ends_pure]
              have lenField : u32Be (UInt32.ofNat ctBuffer.toList.length) =
                  chunkHdr.slice 0 4 := by
                rw [ctBuffer.length_toList, UInt32.ofNat_toNat, u32Be_u32FromBe]
              have split_header : chunkHdr.toList =
                  (chunkHdr.slice 0 4).toList ++ [chunkHdr.byteAt 4] := by
                rw [← chunkHdr.toList_slice_one 4 (by decide),
                  ← chunkHdr.toList_slice_add 0 4 1 (by decide), chunkHdr.slice_whole]
              refine ⟨?_, events₃.trans (events₂.trans events₁),
                fun smooth => smooth₃ (smooth₂ (smooth₁ smooth)), ?_⟩
              · rw [WireChunk.bytes, lenField, content₁, content₂, content₃, split_header]
                simp only [List.append_assoc, List.cons_append, List.nil_append]
              · have width := ctBuffer.length_toList
                by_cases terminal : chunkHdr.byteAt 4 = 0x01
                · exact .inr ⟨terminal, width.trans_le (Nat.le_of_not_lt fits)⟩
                · have intermediate : chunkHdr.byteAt 4 = 0x00 := by
                    by_contra unknown
                    exact known ⟨unknown, terminal⟩
                  refine .inl ⟨intermediate, ?_⟩
                  by_contra short
                  exact full ⟨intermediate, fun whole => short (width.trans whole)⟩

/-- The bytes still to come bound the number of rounds. -/
def stdinLength (process : Process) : Nat := (content process.stdin).length

theorem deliverChunk_ends (args : DecryptArgs) (plaintext : Bytes) (spool : Spool)
    (process : Process) :
    Ends (fun after process' => process'.stdin = process.stdin ∧
        (if args.allowUnverifiedStream then
          after = spool ∧ process'.events = process.events ++ [.stdout plaintext]
        else
          spool.writeChunk crates.aead plaintext = .ok () after ∧
            process'.events = process.events))
      (fun stop process' => args.allowUnverifiedStream = false ∧ process' = process ∧
        ∃ error after, spool.writeChunk crates.aead plaintext = .error error after ∧
          stop = .failed (.usageError error))
      (deliverChunk crates args plaintext spool process) := by
  rw [deliverChunk]
  cases streaming : args.allowUnverifiedStream with
  | true => exact ⟨rfl, rfl, rfl⟩
  | false =>
      cases written : spool.writeChunk crates.aead plaintext with
      | ok value after => exact ⟨rfl, rfl, rfl⟩
      | error error after => exact ⟨rfl, rfl, error, after, rfl, rfl⟩

theorem decryptStep_shrinks (args : DecryptArgs) (header : StreamHeader)
    {state next : DecryptState} {process process' : Process}
    (stepped : decryptStep crates args header state process = .ok (.inl next) process') :
    stdinLength process' < stdinLength process := by
  have consumed : Ends (fun _ after => stdinLength after < stdinLength process)
      (fun _ _ => True) (decryptStep crates args header state process) := by
    rw [decryptStep, ends_bind]
    refine (readChunk_ends process).mono ?_ (fun _ _ _ => trivial)
    rintro chunk first ⟨content_eq, _, _, _⟩
    cases openChunk crates header state.chunkCounter chunk with
    | error _ => trivial
    | ok plaintext =>
        simp only [ends_bind, ends_record]
        refine (deliverChunk_ends crates args plaintext state.spool _).mono ?_
          (fun _ _ _ => trivial)
        rintro spool second ⟨stdin_eq, _⟩
        have shorter : (content second.stdin).length = (content first.stdin).length := by
          rw [stdin_eq]
        rw [ends_pure, stdinLength, stdinLength, content_eq, List.length_append,
          WireChunk.bytes, List.length_append, List.length_cons]
        omega
  exact consumed.ok stepped

/-- The chunk loop, up to and including the terminal chunk. -/
def decryptChunks (args : DecryptArgs) (header : StreamHeader) (state : DecryptState) :
    Run DecryptState :=
  loop stdinLength (decryptStep crates args header) (decryptStep_shrinks crates args header) state

/-! ## Trailer, end of input, release -/

def verifyTrailer (hmac16 : FixedBytes 16) (hashed : Bytes) (trailer : FixedBytes trailerSize) :
    Except Pipek1Error Unit :=
  match crates.curve.verifyingKey (trailer.slice 0 32) with
  | .error e => .error (.wireCorruption ("Invalid sender public key in trailer: " ++ e))
  | .ok senderVk =>
      match crates.curve.signature (trailer.slice 32 64) with
      | .error e => .error (.wireCorruption ("Invalid signature framing in trailer: " ++ e))
      | .ok sig =>
          let ptDigest := crates.digests.sha256 hashed
          let authHash := taggedHash crates tagAuth (authTranscript hmac16 ptDigest).toList
          match crates.curve.verifyRaw senderVk authHash sig with
          | .error e =>
              .error (.authFailure ("Mode 1 trailer signature verification failed: " ++ e))
          | .ok () => .ok ()

/-- The sender comparison; its result is the notice to print. -/
def compareSender (args : DecryptArgs) (senderPub : FixedBytes 32) :
    Except Pipek1Error (Option String) :=
  let senderNpub := encodeNpub crates senderPub
  match args.expectedSender with
  | some exp =>
      match parseKeyBytes crates exp with
      | .error e => .error (.usageError e)
      | .ok expBytes =>
          if expBytes ≠ senderPub then
            .error (.authFailure ("Authenticated sender " ++ senderNpub ++
              " does not match expected sender " ++ exp))
          else
            .ok (some ("Notice: Authenticated Mode 1 stream verified from " ++ senderNpub))
  | none =>
      if args.allowUntrustedSender then
        .ok (some ("Notice: Decrypted Mode 1 stream authenticated by untrusted sender " ++
          senderNpub))
      else
        .ok none

def authenticateTrailer (args : DecryptArgs) (header : StreamHeader) (hashed : Bytes) :
    Run Unit := do
  let trailer ← readStdin (fun e => .wireCorruption
    ("Missing or truncated Mode 1 authenticated trailer: " ++ e.message)) trailerSize
  orFail id (verifyTrailer crates header.hmac16 hashed trailer)
  let notice ← orFail id (compareSender crates args (trailer.slice 0 32))
  record (.trailerAuthenticated (trailer.slice 0 32))
  match notice with
  | some text => eprintln text
  | none => pure ()

def trailerStage (args : DecryptArgs) (header : StreamHeader) (hashed : Bytes) : Run Unit :=
  if header.mode = 0x01 then authenticateTrailer crates args header hashed else pure ()

/-- One read of one byte after the stream must report end of input. -/
def assertEndOfInput : Run Unit := do
  let trailing ← onStdin (read 1)
  match trailing with
  | .error e => fail (.io e)
  | .ok [] => record .endOfInput
  | .ok (_ :: _) =>
      fail (.wireCorruption "Unauthenticated trailing bytes detected after stream termination")

@[irreducible] def runDecrypt (args : DecryptArgs) : Run Unit := do
  let recipPriv ← orStop (loadSecretKey crates host args.keyArgs)
  let signingKey ← orFail (fun e => .usageError ("Invalid secret key: " ++ e))
    (crates.curve.signingKey recipPriv)
  let expectedRecipPub := crates.curve.publicBytes signingKey
  let headerBytes ← readStdin
    (fun e => .wireCorruption ("Failed to read 97-byte header: " ++ e.message)) wireHeaderSize
  let header ← orFail id (checkHeader crates args recipPriv expectedRecipPub headerBytes)
  let state ← decryptChunks crates args header ⟨0, Spool.start host args.maxSize, []⟩
  trailerStage crates args header state.hashed
  assertEndOfInput
  if args.allowUnverifiedStream then
    pure ()
  else
    state.spool.releaseToStdout crates.aead

end PipeK1
