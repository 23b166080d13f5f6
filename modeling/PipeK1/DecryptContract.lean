import PipeK1.RoundTrip

/-!
# The decryptor's contract

No unverified plaintext is released, exactly the grammar is accepted, and an
expected sender is authenticated.
-/

set_option autoImplicit false

namespace PipeK1

open ByteData ByteReader Effects Numbering

variable {crates : Crates} {host : Host} {args : DecryptArgs}

/-! ## No release of unverified plaintext -/

/-- The plaintext an event reports as authenticated. -/
def Event.decrypted : Event → Bytes
  | .chunkAuthenticated _ _ plaintext => plaintext
  | _ => []

theorem decrypted_chunkEvents (counter : UInt64) (chunks : List StreamChunk) :
    (chunkEvents args counter chunks).flatMap Event.decrypted = plaintextOf chunks := by
  induction chunks generalizing counter with
  | nil => rfl
  | cons chunk chunks ih =>
      cases streaming : args.allowUnverifiedStream with
      | true => simp [chunkEvents, streaming, ih, Event.decrypted, plaintextOf]
      | false => simp [chunkEvents, streaming, ih, Event.decrypted, plaintextOf]

theorem TrailerEvents.decrypted {header : StreamHeader} {events : List Event}
    (recorded : TrailerEvents header events) : events.flatMap Event.decrypted = [] := by
  rcases recorded with ⟨_, rfl⟩ | ⟨_, senderPub, notices, rfl⟩
  · rfl
  · rw [List.flatMap_eq_nil_iff]
    intro event member
    rcases List.mem_cons.mp member with rfl | notice
    · rfl
    · obtain ⟨text, _, rfl⟩ := List.mem_map.mp notice
      rfl

/-- A refused run has written nothing. An accepted one writes once, after the terminal chunk,
the Mode 1 trailer and the end-of-input check have passed, and what it writes is the
plaintext of all chunks in order. -/
theorem runDecrypt_releases_verified_plaintext (crates : Crates) (host : Host)
    (args : DecryptArgs) (stdin : Reader) (spooling : args.allowUnverifiedStream = false)
    (trusted : SpoolTrusted crates host) :
    (∀ stop final, runDecrypt crates host args (Process.start stdin) = .error stop final →
      final.stdout = []) ∧
    ∀ final, runDecrypt crates host args (Process.start stdin) = .ok () final →
      final.stdout = final.events.flatMap Event.decrypted ∧
      ∃ before, final.events = before ++ [.stdout final.stdout] ∧
        before.flatMap Event.stdoutBytes = [] ∧
        (∃ counter plaintext, .chunkAuthenticated counter 0x01 plaintext ∈ before) ∧
        ((content stdin)[5]? = some 0x01 → ∃ senderPub, .trailerAuthenticated senderPub ∈ before) ∧
        .endOfInput ∈ before := by
  have run := runDecrypt_ends crates host args stdin
  refine ⟨fun stop final failed => run.error failed spooling trusted, fun final finished => ?_⟩
  obtain ⟨stream, accepted⟩ := run.ok finished
  obtain ⟨recipPriv, signingKey, _, _, conforms⟩ := accepted.conforms
  obtain ⟨trailerEvents, released, recorded, events, whole⟩ := accepted.events
  have stdout_eq := accepted.stdout fun _ => trusted
  rw [spooling, whole spooling trusted] at events
  simp only [Bool.false_eq_true, ↓reduceIte] at events
  let before := chunkEvents args 0 stream.chunks ++ (trailerEvents ++ [.endOfInput])
  have split : final.events = before ++ [.stdout final.stdout] := by
    rw [events, stdout_eq]
    simp [before]
  refine ⟨?_, before, split, ?_, ?_, ?_, ?_⟩
  · rw [stdout_eq, events, List.flatMap_append, List.flatMap_append, decrypted_chunkEvents,
      recorded.decrypted]
    simp [Event.decrypted, Stream.plaintext]
  · simp only [before, List.flatMap_append, stdout_chunkEvents, spooling, recorded.stdout]
    rfl
  · refine ⟨UInt64.ofNat stream.full.length, stream.last.plaintext, ?_⟩
    rw [← conforms.last.1]
    simp [before, Stream.chunks, chunkEvents_append, chunkEvents]
  · intro one
    rw [accepted.content_eq, conforms.mode_of_bytes crates _, Option.some.injEq] at one
    rcases recorded with ⟨two, _⟩ | ⟨_, senderPub, notices, rfl⟩
    · rw [one] at two
      exact absurd two (by decide)
    · exact ⟨senderPub, by simp [before]⟩
  · simp [before]

open Reference in
/-- On an authenticated stream of five bytes from the key 3 to the key 1. -/
theorem runDecrypt_releases_verified_plaintext_sample :
    ∃ final, runDecrypt packages (keyHost sampleRecipient sampleEphemeral)
        (openArgs false sampleSender false)
        (Process.start (sealedStream false sampleSender sampleRecipient sampleEphemeral
          sampleData)) = .ok () final ∧
      final.stdout = sampleData ∧ final.stdout = final.events.flatMap Event.decrypted ∧
      ∃ before, final.events = before ++ [.stdout final.stdout] ∧
        before.flatMap Event.stdoutBytes = [] := by
  obtain ⟨final, finished, output⟩ :=
    @sealedStream_accepted false false sampleSender sampleRecipient sampleEphemeral sampleData
      (by decide)
  obtain ⟨decrypted, before, split, silent, _⟩ :=
    (runDecrypt_releases_verified_plaintext packages
      (keyHost sampleRecipient sampleEphemeral) (openArgs false sampleSender false)
      (sealedStream false sampleSender sampleRecipient sampleEphemeral sampleData) rfl
      (keyHost_trusted sampleRecipient sampleEphemeral)).2 final finished
  exact ⟨final, finished, output, decrypted, before, split, silent⟩

/-! ## The grammar -/

theorem length_plaintextOf_le {header : StreamHeader} {counter : UInt64}
    {chunks : List StreamChunk} (opens : Numbered (StreamChunk.Opens crates header) counter chunks) :
    (plaintextOf chunks).length ≤ (wireBytes chunks).length := by
  induction chunks generalizing counter with
  | nil => exact Nat.le_refl _
  | cons chunk chunks ih =>
      obtain ⟨opened, opensLater⟩ := numbered_cons_iff.mp opens
      have later := ih opensLater
      have width := crates.aead.length_decrypt opened
      simp only [plaintextOf, wireBytes, List.flatMap_cons, List.length_append,
        WireChunk.bytes, List.length_cons] at later ⊢
      omega

theorem Stream.length_plaintext_le {stream : Stream} {recipPriv recipPub : FixedBytes 32}
    (conforms : stream.Conforms crates args recipPriv recipPub) :
    stream.plaintext.length ≤ stream.bytes.length := by
  have bound := length_plaintextOf_le conforms.opens
  rw [Stream.bytes, List.length_append, List.length_append]
  exact Nat.le_trans bound (by omega)

/-- Exactly the conforming streams are accepted, and a byte string is one in one way only. -/
theorem runDecrypt_accepts_iff (crates : Crates) (host : Host) (args : DecryptArgs)
    (recipPriv : FixedBytes 32) (signingKey : crates.curve.SigningKey) (stdin : Reader)
    (loaded : loadSecretKey crates host args.keyArgs = .ok recipPriv)
    (valid : crates.curve.signingKey recipPriv = .ok signingKey)
    (unlimited : args.maxSize = none) (smooth : Smooth stdin)
    (trusted : args.allowUnverifiedStream = false → SpoolTrusted crates host)
    (takes : args.allowUnverifiedStream = false →
      host.disk.Takes (21 * (content stdin).length)) :
    (∃ final, runDecrypt crates host args (Process.start stdin) = .ok () final) ↔
      ∃! stream : Stream, content stdin = stream.bytes ∧
        stream.Conforms crates args recipPriv (crates.curve.publicBytes signingKey) := by
  constructor
  · rintro ⟨final, finished⟩
    obtain ⟨stream, accepted⟩ := (runDecrypt_ends crates host args stdin).ok finished
    obtain ⟨recipPriv', signingKey', loaded', valid', conforms⟩ := accepted.conforms
    rw [loaded] at loaded'
    cases loaded'
    rw [valid] at valid'
    cases valid'
    have whole : content stdin = stream.bytes := by
      rw [accepted.content_eq, accepted.exhausted smooth, List.append_nil]
    refine ⟨stream, ⟨whole, conforms⟩, ?_⟩
    rintro other ⟨whole', conforms'⟩
    exact conforms'.unique crates conforms (whole'.symm.trans whole)
  · rintro ⟨stream, ⟨whole, conforms⟩, _⟩
    refine runDecrypt_of_conforms loaded valid conforms
      (fun spooling => ⟨trusted spooling, ⟨(takes spooling).done, ?_⟩, ?_⟩) smooth whole
    · have bound := Stream.length_plaintext_le conforms
      have fits := (takes spooling).fits
      rw [whole] at fits
      omega
    · intro max limited
      rw [unlimited] at limited
      cases limited

open Reference in
/-- The sample stream conforms, in one way only. -/
theorem runDecrypt_accepts_iff_sample :
    ∃! stream : Stream,
      content (sealedStream false sampleSender sampleRecipient sampleEphemeral sampleData) =
        stream.bytes ∧
      stream.Conforms packages (openArgs false sampleSender true) (secretBytes sampleRecipient)
        (publicBytes sampleRecipient) := by
  obtain ⟨final, finished, _⟩ :=
    @sealedStream_accepted false true sampleSender sampleRecipient sampleEphemeral sampleData
      (by decide)
  exact (runDecrypt_accepts_iff packages (keyHost sampleRecipient sampleEphemeral)
    (openArgs false sampleSender true) (secretBytes sampleRecipient) sampleRecipient
    (sealedStream false sampleSender sampleRecipient sampleEphemeral sampleData)
    (loadSecretKey_keyHost _ sampleRecipient sampleEphemeral)
    (signingKey_secretBytes sampleRecipient) rfl
    (smooth_sealedStream false sampleSender sampleRecipient sampleEphemeral (by decide))
    (fun spooling => nomatch spooling) (fun spooling => nomatch spooling)).mp ⟨final, finished⟩

/-! ## Sender authentication -/

/-- The bytes hashed for a trailer over this header HMAC and this plaintext. -/
def trailerPreimage (crates : Crates) (hmac16 : FixedBytes 16) (plaintext : Bytes) : Bytes :=
  let tagHash := crates.digests.sha256 (Text.utf8 tagAuth)
  tagHash.toList ++ tagHash.toList ++
    (authTranscript hmac16 (crates.digests.sha256 plaintext)).toList

/-- SHA-256 has no collision among the messages hashed for two trailers. -/
def TrailerHashesDistinct (crates : Crates) (hmac16 hmac16' : FixedBytes 16)
    (plaintext plaintext' : Bytes) : Prop :=
  Set.InjOn crates.digests.sha256
    {plaintext, plaintext', trailerPreimage crates hmac16 plaintext,
      trailerPreimage crates hmac16' plaintext'}

theorem trailerHash_injective {hmac16 hmac16' : FixedBytes 16} {plaintext plaintext' : Bytes}
    (distinct : TrailerHashesDistinct crates hmac16 hmac16' plaintext plaintext')
    (same : taggedHash crates tagAuth
        (authTranscript hmac16 (crates.digests.sha256 plaintext)).toList =
      taggedHash crates tagAuth
        (authTranscript hmac16' (crates.digests.sha256 plaintext')).toList) :
    hmac16 = hmac16' ∧ plaintext = plaintext' := by
  have preimages : trailerPreimage crates hmac16 plaintext =
      trailerPreimage crates hmac16' plaintext' := distinct (by simp) (by simp) same
  have transcripts := List.append_cancel_left preimages
  obtain ⟨hmacs, digests⟩ := List.append_inj transcripts (by
    rw [FixedBytes.length_toList, FixedBytes.length_toList])
  exact ⟨FixedBytes.ext hmacs, distinct (by simp) (by simp) (FixedBytes.ext digests)⟩

/-- With a sender expected, an accepted stream is in Mode 1 and its trailer carries that
sender's key and a signature of it over the header HMAC and exactly the bytes emitted. A
trailer that verifies for another header HMAC or another plaintext is therefore refused. -/
theorem runDecrypt_authenticates_sender (crates : Crates) (host : Host) (args : DecryptArgs)
    (stdin : Reader) (final : Process) (exp : String)
    (expected : args.expectedSender = some exp)
    (trusted : args.allowUnverifiedStream = false → SpoolTrusted crates host)
    (finished : runDecrypt crates host args (Process.start stdin) = .ok () final) :
    ∃ (headerBytes : FixedBytes wireHeaderSize) (chunks : Bytes)
        (trailer : FixedBytes trailerSize) (senderVk : crates.curve.VerifyingKey)
        (sig : crates.curve.Signature),
      content stdin =
        headerBytes.toList ++ (chunks ++ trailer.toList) ++ content final.stdin ∧
      (Smooth stdin → content final.stdin = []) ∧
      headerBytes.byteAt 5 = 0x01 ∧
      parseKeyBytes crates exp = .ok (trailer.slice 0 32) ∧
      crates.curve.verifyingKey (trailer.slice 0 32) = .ok senderVk ∧
      crates.curve.signature (trailer.slice 32 64) = .ok sig ∧
      crates.curve.verifyRaw senderVk (taggedHash crates tagAuth
        (authTranscript (headerBytes.slice 81 16)
          (crates.digests.sha256 final.stdout)).toList) sig = .ok () ∧
      ∀ hmac16 plaintext, crates.curve.BindsHash →
        TrailerHashesDistinct crates hmac16 (headerBytes.slice 81 16) plaintext final.stdout →
        crates.curve.verifyRaw senderVk (taggedHash crates tagAuth
          (authTranscript hmac16 (crates.digests.sha256 plaintext)).toList) sig = .ok () →
        hmac16 = headerBytes.slice 81 16 ∧ plaintext = final.stdout := by
  obtain ⟨stream, accepted⟩ := (runDecrypt_ends crates host args stdin).ok finished
  obtain ⟨recipPriv, signingKey, _, _, conforms⟩ := accepted.conforms
  have one : stream.header.mode = 0x01 := by
    rcases conforms.header.permitted with ⟨one, _⟩ | ⟨_, unexpected⟩
    · exact one
    · rw [expected] at unexpected
      cases unexpected
  rcases conforms.trailer with ⟨two, _⟩ | ⟨_, trailer, trailer_eq, verifies⟩
  · rw [one] at two
    exact absurd two (by decide)
  obtain ⟨senderVk, sig, decoded, framed, verified⟩ := verifies.authentic
  rw [conforms.header.hmac_eq, ← accepted.stdout trusted] at verified
  refine ⟨stream.headerBytes, wireBytes stream.chunks, trailer, senderVk, sig, ?_,
    accepted.exhausted, ?_, verifies.sender exp expected, decoded, framed, verified, ?_⟩
  · rw [accepted.content_eq, Stream.bytes, trailer_eq]
  · rw [← conforms.header.mode_eq, one]
  · intro hmac16 plaintext binds distinct verified'
    exact trailerHash_injective distinct (binds senderVk sig _ _ verified' verified)

open Reference in
/-- The sample stream's trailer carries the expected key. -/
theorem runDecrypt_authenticates_sender_sample :
    ∃ (headerBytes : FixedBytes wireHeaderSize) (trailer : FixedBytes trailerSize)
        (final : Process),
      runDecrypt packages (keyHost sampleRecipient sampleEphemeral)
        (openArgs false sampleSender false)
        (Process.start (sealedStream false sampleSender sampleRecipient sampleEphemeral
          sampleData)) = .ok () final ∧
      final.stdout = sampleData ∧ headerBytes.byteAt 5 = 0x01 ∧
      parseKeyBytes packages (publicHex sampleSender) = .ok (trailer.slice 0 32) := by
  obtain ⟨final, finished, output⟩ :=
    @sealedStream_accepted false false sampleSender sampleRecipient sampleEphemeral sampleData
      (by decide)
  obtain ⟨headerBytes, _, trailer, _, _, _, _, one, parsed, _⟩ :=
    runDecrypt_authenticates_sender packages (keyHost sampleRecipient sampleEphemeral)
      (openArgs false sampleSender false)
      (sealedStream false sampleSender sampleRecipient sampleEphemeral sampleData) final
      (publicHex sampleSender) rfl (fun _ => keyHost_trusted sampleRecipient sampleEphemeral)
      finished
  exact ⟨headerBytes, trailer, final, finished, output, one, parsed⟩

end PipeK1
