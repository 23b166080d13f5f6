import PipeK1.CanonicalFraming
import PipeK1.Cli
import PipeK1.StreamNonces

/-!
# What a failed encryption leaves behind

The bytes on standard output when `run_encrypt` stops early, and why no
decryptor takes them, or any prefix of them, for a stream.
-/

set_option autoImplicit false

namespace PipeK1

open ByteData ByteReader Effects Numbering

variable {crates : Crates} {host : Host}

/-! ## Unfinished bodies -/

/-- Chunks that a session has sealed, of the beginning of `data`. -/
structure SealedFront (session : EncryptSession crates) (data : Bytes) (done : List StreamChunk) :
    Prop where
  seals : Numbered session.Seals 0 done
  fits : ∀ chunk ∈ done, chunk.plaintext.length ≤ chunkSize
  front : plaintextOf done <+: data

theorem SealedFront.length_ciphertext {session : EncryptSession crates} {data : Bytes}
    {done : List StreamChunk} (front : SealedFront session data done) {chunk : StreamChunk}
    (member : chunk ∈ done) : chunk.wire.ciphertext.length ≤ chunkSize := by
  obtain ⟨_, sealed⟩ := front.seals.exists_of_mem member
  exact (Nat.le_of_eq (crates.aead.length_encrypt sealed)).trans (front.fits chunk member)

/-- What stands behind the header of an encryption that stopped: intermediate chunks and at most
the framing header of another one, or all chunks of a signed stream without its trailer. At the
last chunk number the last of the chunks may be a terminal one. -/
inductive Leftover (session : EncryptSession crates) (stop : Stop) :
    List StreamChunk → Bytes → Prop
  | cut {done : List StreamChunk} {tail : Bytes}
      (early : stop = overflowStop ∨ ∀ chunk ∈ done, chunk.wire.termTag = 0x00)
      (short : tail.length ≤ chunkHeaderSize) : Leftover session stop done tail
  | unsigned {full : List StreamChunk} {last : StreamChunk}
      (early : ∀ chunk ∈ full, chunk.wire.termTag = 0x00) (terminal : last.wire.termTag = 0x01)
      (signs : session.sender ≠ none) : Leftover session stop (full ++ [last]) []

/-- An intermediate chunk on the wire. -/
def StreamChunk.Early (chunk : StreamChunk) : Prop :=
  chunk.wire.termTag = 0x00 ∧ chunk.wire.ciphertext.length ≤ chunkSize

/-- Behind intermediate chunks there is no room for a terminal one. -/
theorem wireBytes_ne_cut {done full : List StreamChunk} {last : StreamChunk} {tail rest : Bytes}
    (early : ∀ chunk ∈ done, chunk.Early) (short : tail.length ≤ chunkHeaderSize)
    (early' : ∀ chunk ∈ full, chunk.Early) (terminal : last.Terminal) :
    wireBytes (full ++ [last]) ++ rest ≠ wireBytes done ++ tail := by
  intro same
  induction done generalizing full with
  | nil =>
      -- A chunk is longer than its framing header.
      have lengths := congrArg List.length same
      have width : chunkHeaderSize < (wireBytes (full ++ [last])).length := by
        simp only [wireBytes, List.flatMap_append, List.flatMap_cons, List.flatMap_nil,
          List.append_nil, List.length_append, WireChunk.bytes, List.length_cons,
          FixedBytes.length_toList, chunkHeaderSize, tagSize]
        omega
      simp only [wireBytes, List.flatMap_nil, List.nil_append, List.length_append] at lengths width
      omega
  | cons first done ih =>
      have earlyFirst := early first List.mem_cons_self
      cases full with
      | nil =>
          simp only [wireBytes, List.nil_append, List.flatMap_cons, List.flatMap_nil,
            List.append_nil, List.append_assoc] at same
          obtain ⟨wires, _⟩ := WireChunk.bytes_append_inj terminal.2 earlyFirst.2 same
          have tags := terminal.1
          rw [wires, earlyFirst.1] at tags
          exact absurd tags (by decide)
      | cons first' full =>
          simp only [wireBytes, List.cons_append, List.flatMap_cons, List.append_assoc] at same
          obtain ⟨_, rests⟩ := WireChunk.bytes_append_inj
            (early' first' List.mem_cons_self).2 earlyFirst.2 same
          exact ih (fun chunk member => early chunk (List.mem_cons_of_mem _ member))
            (fun chunk member => early' chunk (List.mem_cons_of_mem _ member))
            (by simpa only [wireBytes] using rests)

/-! ## Where an encryption stops -/

theorem fillBuffer_unmoved (buf : Bytes) (process : Process) :
    Ends (fun _ after => after.events = process.events)
      (fun _ after => after.events = process.events) (fillBuffer buf process) := by
  rw [fillBuffer, ends_bind, onStdin, ends_modifyGet, ends_bind]
  exact ends_orFail (fun _ _ => rfl) (fun _ _ => rfl)

section Stops

variable {session : EncryptSession crates} {input : Bytes} {recorded : List Event} {quiet : Prop}
  {done : List StreamChunk} {state : EncryptState} {process : Process}

theorem EncryptProgress.stdout
    (progress : EncryptProgress session input recorded quiet done state process) :
    process.stdout = recorded.flatMap Event.stdoutBytes ++ wireBytes done := by
  rw [Process.stdout, progress.events, List.flatMap_append,
    EncryptSession.stdout_sealEvents progress.seals]

theorem EncryptProgress.sealedFront
    (progress : EncryptProgress session input recorded quiet done state process) :
    SealedFront session input done where
  seals := progress.seals
  fits chunk member := (progress.intermediate chunk member).2
  front := ⟨_, progress.content_eq.symm⟩

/-- The block of the current round, sealed. -/
theorem EncryptProgress.sealedFront_concat
    (progress : EncryptProgress session input recorded quiet done state process)
    {termTag : UInt8} {ciphertext : Bytes} {tag : FixedBytes tagSize}
    (sealed : crates.aead.encrypt session.payloadKey (buildNonce state.chunkCounter termTag)
      (streamAad session.mode session.recipX state.curLen state.chunkCounter termTag)
      (state.curBuf.take state.curLen) = .ok (ciphertext, tag)) :
    SealedFront session input
      (done ++ [⟨⟨termTag, ciphertext, tag⟩, state.curBuf.take state.curLen⟩]) := by
  have width : (state.curBuf.take state.curLen).length = state.curLen :=
    List.length_take_of_le progress.curLen_le
  have fits := progress.curLen_le
  rw [progress.curBuf_length] at fits
  refine ⟨progress.seals.concat ?_, fun chunk member => ?_, ?_⟩
  · rw [UInt64.zero_add, ← progress.counter, UInt64.ofNat_toNat]
    simp only [EncryptSession.Seals, width]
    exact sealed
  · rcases List.mem_append.mp member with earlier | late
    · exact (progress.intermediate chunk earlier).2
    · rw [List.mem_singleton.mp late]
      exact width.trans_le fits
  · rw [plaintextOf_append_singleton]
    exact ⟨_, by rw [progress.content_eq, List.append_assoc]⟩

/-- A round that fails has written at most the framing header of its chunk, unless the chunk
counter overflows. -/
theorem encryptStep_stops
    (progress : EncryptProgress session input recorded quiet done state process) :
    Ends (fun _ _ => True) (fun stop after => ∃ done' tail, SealedFront session input done' ∧
        Leftover session stop done' tail ∧
        after.stdout = recorded.flatMap Event.stdoutBytes ++ (wireBytes done' ++ tail))
      (encryptStep session state process) := by
  have early : ∀ chunk ∈ done, chunk.wire.termTag = 0x00 :=
    fun chunk member => (progress.intermediate chunk member).1
  have written := progress.stdout
  rw [Process.stdout] at written
  rw [encryptStep, ends_bind]
  refine (fillBuffer_unmoved state.nextBuf process).mono ?_ ?_
  · rintro ⟨nextLen, nextBuf⟩ first same
    rw [ends_bind, ends_writeStdout]
    cases outcome : crates.aead.encrypt session.payloadKey
        (buildNonce state.chunkCounter (lookaheadTag nextLen))
        (streamAad session.mode session.recipX state.curLen state.chunkCounter
          (lookaheadTag nextLen)) (state.curBuf.take state.curLen) with
    | error e =>
        rw [ends_fail]
        refine ⟨done, (u32Be (UInt32.ofNat state.curLen)).toList ++ [lookaheadTag nextLen],
          progress.sealedFront, .cut (.inr early) ?_, ?_⟩
        · rw [List.length_append, FixedBytes.length_toList]
          exact Nat.le_refl _
        · rw [stdout_record, Process.stdout, same, written, List.append_assoc]
          rfl
    | ok output =>
        obtain ⟨ciphertext, tag⟩ := output
        simp only [ends_bind, ends_record, ends_writeStdout]
        cases checkedAdd state.chunkCounter 1 with
        | none =>
            refine ⟨_, [], progress.sealedFront_concat outcome, .cut (.inl rfl) (Nat.zero_le _), ?_⟩
            have width : ciphertext.length = state.curLen :=
              (crates.aead.length_encrypt outcome).trans
                (List.length_take_of_le progress.curLen_le)
            simp only [Process.stdout, same, List.flatMap_append, written, wireBytes,
              List.flatMap_cons, List.flatMap_nil, Event.stdoutBytes, WireChunk.bytes, width,
              List.append_assoc, List.nil_append, List.append_nil, List.cons_append]
        | some counter => split <;> trivial
  · intro _ after same
    refine ⟨done, [], progress.sealedFront, .cut (.inr early) (Nat.zero_le _), ?_⟩
    rw [Process.stdout, same, written, List.append_nil]

theorem encryptChunks_stops {stdin : Reader}
    (progress : EncryptProgress session input recorded quiet [] state process)
    (buffered : Buffered stdin [state.curBuf.take state.curLen] process.stdin) :
    Ends (fun hashed after => ∃ full last,
        EncryptDone session input recorded quiet full last hashed after)
      (fun stop after => ∃ done tail, SealedFront session input done ∧
        Leftover session stop done tail ∧
        after.stdout = recorded.flatMap Event.stdoutBytes ++ (wireBytes done ++ tail))
      (encryptChunks session state process) := by
  unfold encryptChunks
  refine loop_ends (fun state process => ∃ done,
    EncryptProgress session input recorded quiet done state process ∧
      Buffered stdin (done.map StreamChunk.plaintext ++ [state.curBuf.take state.curLen])
        process.stdin) ?_ ⟨[], progress, buffered⟩
  rintro state process ⟨done, progress, buffered⟩
  refine ((encryptStep_advances progress buffered).and (encryptStep_stops progress)).mono ?_
    (fun _ _ stopped => stopped.2)
  rintro outcome after ⟨advanced, _⟩
  cases outcome with
  | inl next => exact advanced
  | inr hashed =>
      obtain ⟨last, finished, _⟩ := advanced
      exact ⟨done, last, finished⟩

theorem writeTrailer_stops (session : EncryptSession crates) (hashed : Bytes)
    (process : Process) :
    Ends (fun _ _ => True) (fun _ after => after = process ∧ session.sender ≠ none)
      (writeTrailer host session hashed process) := by
  unfold writeTrailer
  cases signer : session.sender with
  | none => trivial
  | some signingKey =>
      rw [ends_bind]
      exact ends_orFail (fun _ _ => trivial)
        (fun _ _ => ⟨rfl, Option.some_ne_none signingKey⟩)

end Stops

/-- However an encryption stops before its end, it has written nothing, or its header and what is
left over of the chunks. -/
theorem runEncrypt_stops (crates : Crates) (host : Host) (rounds : Nat) (args : EncryptArgs)
    (stdin : Reader) :
    Ends (fun _ _ => True)
      (fun stop final => final.stdout = [] ∨ ∃ session done tail,
        encryptSession crates host rounds args = .ok session ∧
        SealedFront session (content stdin) done ∧ Leftover session stop done tail ∧
        final.stdout = (session.header host).toList ++ (wireBytes done ++ tail))
      (runEncrypt crates host rounds args (Process.start stdin)) := by
  unfold runEncrypt
  rw [ends_bind]
  refine ends_orStop ?_ (fun _ _ => .inl rfl)
  intro session session_eq
  rw [ends_bind, ends_writeStdout, ends_bind]
  refine ((fillBuffer_ends _ _).and (fillBuffer_unmoved _ _)).mono ?_ ?_
  · rintro _ first ⟨⟨bytes, rfl, delivered, fits, content₁, events₁, smooth₁⟩, _⟩
    rw [length_zeroBuffer] at delivered fits smooth₁
    have buffered : Buffered stdin
        [(bytes ++ zeroBuffer.drop bytes.length).take bytes.length] first.stdin := by
      rw [List.take_left]
      exact ⟨⟨_, delivered, rfl⟩, fun _ none => absurd none List.not_mem_nil⟩
    have header : first.events.flatMap Event.stdoutBytes = (session.header host).toList := by
      rw [events₁]
      exact List.append_nil _
    rw [ends_bind]
    refine (encryptChunks_stops (encryptProgress_start session fits content₁ smooth₁)
      buffered).mono ?_ ?_
    · rintro hashed second ⟨full, last, finished⟩
      refine (writeTrailer_stops session hashed second).mono (fun _ _ _ => trivial) ?_
      rintro _ _ ⟨rfl, signs⟩
      refine .inr ⟨session, full ++ [last], [], session_eq, ⟨finished.seals, ?_, ?_⟩,
        .unsigned (fun chunk member => (finished.intermediate chunk member).1)
          finished.terminal.1 signs, ?_⟩
      · intro chunk member
        rcases List.mem_append.mp member with earlier | late
        · exact (finished.intermediate chunk earlier).2
        · rw [List.mem_singleton.mp late]
          exact finished.terminal.2
      · exact ⟨_, finished.content_eq.symm⟩
      · rw [Process.stdout, finished.events, List.flatMap_append, header,
          EncryptSession.stdout_sealEvents finished.seals, List.append_nil]
    · rintro stop after ⟨done, tail, front, leftover, written⟩
      rw [header] at written
      exact .inr ⟨session, done, tail, session_eq, front, leftover, written⟩
  · rintro _ after ⟨_, same⟩
    refine .inr ⟨session, [], [], session_eq,
      ⟨numbered_nil, fun _ none => absurd none List.not_mem_nil, List.nil_prefix⟩,
      .cut (.inr fun _ none => absurd none List.not_mem_nil) (Nat.zero_le _), ?_⟩
    rw [Process.stdout, same]
    rfl

/-! ## Refusal -/

/-- No conforming stream stands at the front of a header with an unfinished body. -/
theorem Leftover.not_conforming {rounds : Nat} {argsE : EncryptArgs}
    {session : EncryptSession crates} {data rest tail : Bytes} {done : List StreamChunk}
    {stop : Stop} {argsD : DecryptArgs} {recipPriv recipPub : FixedBytes 32} {stream : Stream}
    (leftover : Leftover session stop done tail) (counted : stop ≠ overflowStop)
    (front : SealedFront session data done)
    (session_eq : encryptSession crates host rounds argsE = .ok session)
    (conforms : stream.Conforms crates argsD recipPriv recipPub) :
    stream.bytes ++ rest ≠ (session.header host).toList ++ (wireBytes done ++ tail) := by
  intro same
  rw [Stream.bytes, List.append_assoc, List.append_assoc] at same
  obtain ⟨headers, bodies⟩ := List.append_inj same (by
    rw [FixedBytes.length_toList, FixedBytes.length_toList])
  have early : ∀ chunk ∈ stream.full, chunk.Early :=
    fun chunk member => ⟨(conforms.full chunk member).1, Nat.le_of_eq (conforms.full chunk member).2⟩
  cases leftover with
  | cut early' short =>
      have unfinished : ∀ chunk ∈ done, chunk.Early := fun chunk member =>
        ⟨(early'.resolve_left counted) chunk member, front.length_ciphertext member⟩
      exact wireBytes_ne_cut unfinished short early conforms.last bodies
  | unsigned early' terminal signs =>
      -- Only the trailer is missing, and Mode 1 asks for one.
      have one : stream.header.mode = 0x01 := by
        obtain ⟨ephPriv, ephKey, keys⟩ := encryptSession_eq_ok session_eq
        rw [conforms.header.mode_eq, FixedBytes.ext headers]
        refine (wireHeader_mode _ _ _ _ _).trans ?_
        rcases senderSigningKey_eq_ok keys.sender with ⟨_, anonymous⟩ | ⟨one, _⟩
        · exact absurd anonymous signs
        · rw [keys.mode_eq, one]
      obtain ⟨_, _, missing⟩ := wires_unique (fun chunk member => (early chunk member).1)
        early' conforms.last.1 terminal (length_ciphertext_le conforms.full conforms.last)
        (fun chunk member => front.length_ciphertext member) bodies
      rcases conforms.trailer with ⟨two, _⟩ | ⟨_, array, trailer_eq, _⟩
      · rw [one] at two
        exact absurd two (by decide)
      · have none := (List.append_eq_nil_iff.mp missing).1
        have width := array.length_toList
        rw [← trailer_eq, none] at width
        cases width

/-- No conforming stream stands at the front of what a failed encryption has written. -/
theorem not_conforming_of_failed {sender : Host} {rounds : Nat} {argsE : EncryptArgs}
    {stdin : Reader} {stop : Stop} {final : Process}
    (failed : runEncrypt crates sender rounds argsE (Process.start stdin) = .error stop final)
    (counted : stop ≠ overflowStop) {argsD : DecryptArgs} {recipPriv recipPub : FixedBytes 32}
    {stream : Stream} (conforms : stream.Conforms crates argsD recipPriv recipPub) :
    ¬ stream.bytes <+: final.stdout := by
  rintro ⟨rest, front⟩
  rcases (runEncrypt_stops crates sender rounds argsE stdin).error failed with
    nothing | ⟨session, done, tail, session_eq, sealed, leftover, written⟩
  · rw [nothing, Stream.bytes] at front
    have header := (List.append_eq_nil_iff.mp (List.append_eq_nil_iff.mp front).1).1
    have width := stream.headerBytes.length_toList
    rw [header] at width
    cases width
  · exact leftover.not_conforming counted sealed session_eq conforms (front.trans written)

/-- An input without a conforming stream at its front is refused before anything is released,
whatever the spool does. -/
theorem runDecrypt_of_not_conforming {recipient : Host} {argsD : DecryptArgs} {reader : Reader}
    (missing : ∀ recipPriv recipPub (stream : Stream),
      stream.Conforms crates argsD recipPriv recipPub → ¬ stream.bytes <+: content reader) :
    Ends (fun _ _ => False) (fun _ after => argsD.allowUnverifiedStream = false → after.stdout = [])
      (runDecrypt crates recipient argsD (Process.start reader)) := by
  rw [runDecrypt_eq, ends_bind]
  refine (decryptStream_ends crates recipient argsD reader).mono ?_ (fun _ _ silent => silent)
  rintro state after ⟨stream, streamRead⟩
  obtain ⟨_, _, _, _, conforms⟩ := streamRead.conforms
  exact absurd ⟨_, streamRead.content_eq.symm⟩ (missing _ _ stream conforms)

/-- What an encryption has written when it fails is refused, and so is every beginning of it,
whatever key, flags, spool and schedule it meets; the failure at the last chunk number is left
out. -/
theorem runEncrypt_failed_refused (crates : Crates) (sender recipient : Host) (rounds : Nat)
    (argsE : EncryptArgs) (argsD : DecryptArgs) (stdin reader : Reader) (stop : Stop)
    (final : Process)
    (failed : runEncrypt crates sender rounds argsE (Process.start stdin) = .error stop final)
    (counted : stop ≠ overflowStop) (delivered : content reader <+: final.stdout) :
    exitStatus (runDecrypt crates recipient argsD (Process.start reader)) ≠ some 0 ∧
      (argsD.allowUnverifiedStream = false →
        (reported (runDecrypt crates recipient argsD (Process.start reader))).stdout = []) := by
  have ends := @runDecrypt_of_not_conforming crates recipient argsD reader
    fun _ _ _ conforms front => not_conforming_of_failed failed counted conforms
      (front.trans delivered)
  cases ran : runDecrypt crates recipient argsD (Process.start reader) with
  | error stop' after =>
      refine ⟨stop'.exitCode_ne_zero, fun spooling => ?_⟩
      rw [stdout_reported_error]
      exact ends.error ran spooling
  | ok value after => exact (ends.ok ran).elim

namespace Reference

/-- A letter, then a read error. -/
def brokenInput : Reader := [.ready [0x68], .failed endInsideBuffer]

theorem fill_brokenInput : (fill chunkSize brokenInput).1 = .error endInsideBuffer := rfl

/-- The header has been written by then. -/
theorem brokenInput_stops :
    ∃ stop final, runEncrypt packages (keyHost sampleSender sampleEphemeral) 0
        (sealArgs false sampleRecipient) (Process.start brokenInput) = .error stop final ∧
      stop ≠ overflowStop ∧ final.stdout ≠ [] := by
  have agree := correspondents ChaCha20Poly1305.cipher sampleSender sampleRecipient
    sampleEphemeral 0 false true
  obtain ⟨session, accepted⟩ := agree.session_exists lawful.toEncryptLaws
  cases ran : runEncrypt packages (keyHost sampleSender sampleEphemeral) 0
      (sealArgs false sampleRecipient) (Process.start brokenInput) with
  | ok value final =>
      obtain ⟨_, full, last, _, _, buffered⟩ := (runEncrypt_buffers _ _ _ _ _).ok ran
      obtain ⟨first, filled⟩ : ∃ first, (fill chunkSize brokenInput).1 = .ok first := by
        obtain ⟨before, ⟨fills, _⟩, exhausted⟩ := buffered
        cases chunks : (full ++ [last]).map StreamChunk.plaintext with
        | nil => simp at chunks
        | cons plaintext plaintexts =>
            rw [chunks] at fills
            obtain ⟨next, taken, _⟩ := fills
            exact ⟨plaintext, congrArg Prod.fst taken⟩
      rw [fill_brokenInput] at filled
      cases filled
  | error stop final =>
      refine ⟨stop, final, rfl, ?_, ?_⟩
      · rintro rfl
        rcases (runEncrypt_buffers _ _ _ _ _).error ran with
          ⟨refused, _⟩ | ⟨session', accepted', stopped⟩
        · cases accepted.symm.trans refused
        · cases stopped.failure (lawful.seals _) (fun _ _ _ => ⟨_, rfl⟩) with
          | overflow buffered many =>
              have few := buffered.length_le
              have short : (content brokenInput).length = 1 := rfl
              omega
      · obtain ⟨later, events⟩ := (runEncrypt_header accepted brokenInput).error ran
        intro nothing
        rw [Process.stdout, ← events, List.flatMap_append, List.append_eq_nil_iff] at nothing
        have width := (session.header (keyHost sampleSender sampleEphemeral)).length_toList
        rw [show (session.header (keyHost sampleSender sampleEphemeral)).toList = [] by
          simpa [Event.stdoutBytes] using nothing.1] at width
        cases width

end Reference

open Reference in
/-- Whatever is left of the broken run, the recipient refuses it. -/
theorem runEncrypt_failed_refused_sample :
    ∃ stop final, runEncrypt packages (keyHost sampleSender sampleEphemeral) 0
        (sealArgs false sampleRecipient) (Process.start brokenInput) = .error stop final ∧
      final.stdout ≠ [] ∧
      exitStatus (runDecrypt packages (keyHost sampleRecipient sampleEphemeral)
        (openArgs false sampleSender false) (Process.start (ofBytes final.stdout))) ≠ some 0 ∧
      (reported (runDecrypt packages (keyHost sampleRecipient sampleEphemeral)
        (openArgs false sampleSender false) (Process.start (ofBytes final.stdout)))).stdout = [] := by
  obtain ⟨stop, final, failed, counted, written⟩ := brokenInput_stops
  obtain ⟨status, quiet⟩ := runEncrypt_failed_refused packages
    (keyHost sampleSender sampleEphemeral) (keyHost sampleRecipient sampleEphemeral) 0
    (sealArgs false sampleRecipient) (openArgs false sampleSender false) brokenInput
    (ofBytes final.stdout) stop final failed counted
    (by rw [content_ofBytes])
  exact ⟨stop, final, failed, written, status, quiet rfl⟩

end PipeK1
