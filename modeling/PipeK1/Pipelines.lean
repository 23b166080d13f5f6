import PipeK1.EncryptFailures
import PipeK1.ModeContract
import PipeK1.OnlineStreams

/-!
# Pipelines

What comes out of `encrypt | decrypt` when either program may fail, or be stopped,
at any point: never anything but the beginning of what went in, and from a
decryptor that spools either all of it or nothing.
-/

set_option autoImplicit false

namespace PipeK1

open ByteData ByteReader Effects Numbering

variable {crates : Crates}

/-! ## What a decryption puts out -/

/-- Nothing, or the plaintext of chunks that authenticate behind an accepted header. -/
def AuthenticOutput (crates : Crates) (host : Host) (args : DecryptArgs) (input output : Bytes) :
    Prop :=
  output = [] ∨ ∃ header rest done, AcceptsHeader crates host args input header rest ∧
    Authentic crates header 0 rest done ∧ output = plaintextOf done

section Output

variable {host : Host} {args : DecryptArgs}

/-- Chunks that authenticate at the front of the input have been written. -/
def StreamedFront (crates : Crates) (header : StreamHeader) (before after : Process) : Prop :=
  ∃ done, Authentic crates header 0 (content before.stdin) done ∧
    after.stdout = before.stdout ++ plaintextOf done

theorem decryptChunks_authentic (streaming : args.allowUnverifiedStream = true)
    {header : StreamHeader} {start : Process} {startSpool : Spool} {state : DecryptState}
    (progress : DecryptProgress crates args header start startSpool [] state start) :
    Ends (fun _ after => StreamedFront crates header start after)
      (fun _ after => StreamedFront crates header start after)
      (decryptChunks crates args header state start) := by
  have written : ∀ {done state} {process after : Process},
      DecryptProgress crates args header start startSpool done state process →
      after.events = process.events → after.stdout = start.stdout ++ plaintextOf done := by
    intro done state process after reached same
    rw [Process.stdout_of_events (same.trans reached.events), stdout_chunkEvents, streaming]
    rfl
  unfold decryptChunks
  refine loop_ends (fun state process => ∃ done, (∀ chunk ∈ done, StreamChunk.Full chunk) ∧
    DecryptProgress crates args header start startSpool done state process) ?_ ?_
  · rintro state process ⟨done, allFull, reached⟩
    refine ((decryptStep_ends reached).and (decryptStep_stuck streaming header state process)).mono
      ?_ ?_
    · rintro outcome after ⟨⟨chunk, next, framed, advanced, rfl⟩, _⟩
      rcases framed with ⟨tag, width⟩ | ⟨tag, width⟩
      · have more : ¬ chunk.wire.termTag = 0x01 := by
          rw [tag]
          decide
        rw [if_neg more]
        exact ⟨done ++ [chunk], full_concat allFull ⟨tag, width⟩, advanced⟩
      · rw [if_pos tag]
        refine ⟨done ++ [chunk], ?_, written advanced rfl⟩
        rw [advanced.content_eq]
        exact authentic_of_terminal allFull ⟨tag, width⟩ advanced.opens _
    · rintro stop after ⟨_, unmoved, _⟩
      refine ⟨done, ?_, written reached unmoved⟩
      rw [reached.content_eq]
      exact authentic_of_full allFull reached.opens _
  · exact ⟨[], fun _ none => absurd none List.not_mem_nil, progress⟩

theorem runDecrypt_authentic_of_streaming (streaming : args.allowUnverifiedStream = true)
    (stdin : Reader) :
    Ends (fun _ final => AuthenticOutput crates host args (content stdin) final.stdout)
      (fun _ final => AuthenticOutput crates host args (content stdin) final.stdout)
      (runDecrypt crates host args (Process.start stdin)) := by
  rw [runDecrypt, ends_bind]
  refine ends_orStop ?_ (fun _ _ => .inl rfl)
  intro recipPriv loaded
  rw [ends_bind]
  refine ends_orFail ?_ (fun _ _ => .inl rfl)
  intro signingKey valid
  rw [ends_bind]
  refine (readStdin_ends _ _ _).mono ?_ (fun _ _ same => .inl (Process.stdout_of_events_start same))
  rintro headerBytes first ⟨content₁, events₁, _⟩
  have silent : first.stdout = [] := Process.stdout_of_events_start events₁
  rw [ends_bind]
  refine ends_orFail ?_ (fun _ _ => .inl silent)
  intro header checked
  have conforms := checkHeader_eq_ok_iff.mp checked
  have known : header.mode = 0x01 ∨ header.mode = 0x02 :=
    conforms.permitted.imp And.left And.left
  have begun : DecryptProgress crates args header first (Spool.start host args.maxSize) []
      ⟨0, Spool.start host args.maxSize, []⟩ first :=
    ⟨rfl, numbered_nil, rfl, by simp [plaintextOf], (List.append_nil _).symm, id,
      fun _ => ⟨Spool.holds_start crates.aead host args.maxSize, Spool.Continues.refl _⟩⟩
  have output : ∀ after : Process, StreamedFront crates header first after →
      AuthenticOutput crates host args (content stdin) after.stdout := by
    rintro after ⟨done, authentic, written⟩
    rw [silent] at written
    exact .inr ⟨header, content first.stdin, done,
      ⟨recipPriv, signingKey, headerBytes, loaded, valid, content₁, conforms⟩, authentic, written⟩
  rw [ends_bind]
  refine (decryptChunks_authentic streaming begun).mono ?_ (fun _ after => output after)
  intro state after streamed
  refine (afterChunks_silent streaming known state after).mono ?_ ?_
  · intro _ final unmoved
    rw [unmoved]
    exact output after streamed
  · intro _ final unmoved
    rw [unmoved]
    exact output after streamed

/-- Whatever standard input does and however the run ends. -/
theorem runDecrypt_authentic
    (trusted : args.allowUnverifiedStream = false → SpoolTrusted crates host) (stdin : Reader) :
    AuthenticOutput crates host args (content stdin)
      (reported (runDecrypt crates host args (Process.start stdin))).stdout := by
  rw [stdout_reported]
  cases streaming : args.allowUnverifiedStream with
  | true =>
      have ends := @runDecrypt_authentic_of_streaming crates host args streaming stdin
      cases ran : runDecrypt crates host args (Process.start stdin) with
      | ok value final => exact ends.ok ran
      | error stop final => exact ends.error ran
  | false =>
      have ends := runDecrypt_ends crates host args stdin
      cases ran : runDecrypt crates host args (Process.start stdin) with
      | error stop final => exact .inl (ends.error ran streaming (trusted streaming))
      | ok value final =>
          obtain ⟨stream, accepted⟩ := ends.ok ran
          obtain ⟨recipPriv, signingKey, loaded, valid, conforms⟩ := accepted.conforms
          refine .inr ⟨stream.header, _, stream.chunks, ⟨recipPriv, signingKey, stream.headerBytes,
            loaded, valid, ?_, conforms.header⟩, authentic_of_terminal conforms.full conforms.last
              conforms.opens (stream.trailer ++ content final.stdin), accepted.stdout trusted⟩
          rw [accepted.content_eq, Stream.bytes, List.append_assoc, List.append_assoc]
          rfl

end Output

/-! ## What an encryption puts out -/

/-- No chunk can follow: too few bytes are left for one, or the last one is terminal. -/
def NoChunkFollows (done : List StreamChunk) (tail : Bytes) : Prop :=
  tail.length ≤ chunkHeaderSize ∨
    ∃ (full : List StreamChunk) (last : StreamChunk), done = full ++ [last] ∧
      last.wire.termTag = 0x01

theorem NoChunkFollows.tail {chunk : StreamChunk} {done : List StreamChunk} {tail : Bytes}
    (ended : NoChunkFollows (chunk :: done) tail) (more : chunk.wire.termTag = 0x00) :
    NoChunkFollows done tail := by
  rcases ended with short | ⟨full, last, same, terminal⟩
  · exact .inl short
  · cases full with
    | nil =>
        cases same
        rw [more] at terminal
        exact absurd terminal (by decide)
    | cons first full =>
        cases same
        exact .inr ⟨full, last, rfl, terminal⟩

/-- Whatever standard input does and however the run ends: nothing, or the header, chunks of the
beginning of the input, and what nobody takes for a chunk. -/
theorem runEncrypt_written (crates : Crates) (host : Host) (rounds : Nat) (args : EncryptArgs)
    (stdin : Reader) :
    (reported (runEncrypt crates host rounds args (Process.start stdin))).stdout = [] ∨
      ∃ session done tail, encryptSession crates host rounds args = .ok session ∧
        SealedFront session (content stdin) done ∧ NoChunkFollows done tail ∧
        (reported (runEncrypt crates host rounds args (Process.start stdin))).stdout =
          (session.header host).toList ++ (wireBytes done ++ tail) := by
  rw [stdout_reported]
  cases ran : runEncrypt crates host rounds args (Process.start stdin) with
  | ok value final =>
      obtain ⟨session, full, last, trailer, run⟩ :=
        (runEncrypt_ends crates host rounds args stdin).ok ran
      exact .inr ⟨session, full ++ [last], trailer, run.session_eq,
        ⟨run.seals, run.length_plaintext_le, ⟨_, run.content_eq.symm⟩⟩,
        .inr ⟨full, last, rfl, run.terminal.1⟩, run.stdout_eq⟩
  | error stop final =>
      rcases (runEncrypt_stops crates host rounds args stdin).error ran with
        nothing | ⟨session, done, tail, session_eq, front, leftover, written⟩
      · exact .inl nothing
      · refine .inr ⟨session, done, tail, session_eq, front, ?_, written⟩
        cases leftover with
        | cut _ short => exact .inl short
        | unsigned _ terminal _ => exact .inl (Nat.zero_le _)

/-! ## One behind the other -/

/-- A chunk at the front of these chunks is the first of them. -/
theorem NoChunkFollows.first {chunk : WireChunk} {done : List StreamChunk} {rest tail : Bytes}
    (ended : NoChunkFollows done tail) (fits : chunk.ciphertext.length ≤ chunkSize)
    (allFit : ∀ chunk ∈ done, chunk.wire.ciphertext.length ≤ chunkSize)
    (same : chunk.bytes ++ rest = wireBytes done ++ tail) :
    ∃ first later, done = first :: later ∧ chunk = first.wire ∧
      rest = wireBytes later ++ tail := by
  cases done with
  | nil =>
      rcases ended with short | ⟨full, last, none, _⟩
      · have lengths := congrArg List.length same
        simp only [wireBytes, List.flatMap_nil, List.nil_append, List.length_append,
          WireChunk.bytes, List.length_cons, FixedBytes.length_toList, chunkHeaderSize,
          tagSize] at lengths short
        omega
      · exact absurd none.symm (List.append_ne_nil_of_right_ne_nil _ (List.cons_ne_nil _ _))
  | cons first later =>
      have split : wireBytes (first :: later) ++ tail =
          first.wire.bytes ++ (wireBytes later ++ tail) := by
        simp [wireBytes]
      obtain ⟨wires, rests⟩ := WireChunk.bytes_append_inj fits
        (allFit first List.mem_cons_self) (same.trans split)
      exact ⟨first, later, rfl, wires, rests⟩

/-- What authenticates at the front of sealed chunks are these chunks. -/
theorem Authentic.prefix_of_sealed {header : StreamHeader} {counter : UInt64}
    {bytes more tail : Bytes} {chunks done : List StreamChunk}
    (authentic : Authentic crates header counter bytes chunks)
    (opens : Numbered (StreamChunk.Opens crates header) counter done)
    (fits : ∀ chunk ∈ done, chunk.wire.ciphertext.length ≤ chunkSize)
    (ended : NoChunkFollows done tail)
    (same : bytes ++ more = wireBytes done ++ tail) : chunks <+: done := by
  induction authentic generalizing done with
  | nil => exact List.nil_prefix
  | last framed opensHere =>
      rw [List.append_assoc] at same
      obtain ⟨first, later, rfl, wires, _⟩ := ended.first framed.length_le fits same
      rw [opensHere.eq (numbered_cons_iff.mp opens).1 wires]
      exact ⟨later, rfl⟩
  | cons full opensHere _ ih =>
      rw [List.append_assoc] at same
      obtain ⟨first, later, rfl, wires, rests⟩ := ended.first full.framed.length_le fits same
      obtain ⟨opensFirst, opensLater⟩ := numbered_cons_iff.mp opens
      rw [opensHere.eq opensFirst wires]
      refine List.cons_prefix_cons.mpr ⟨rfl, ih opensLater
        (fun chunk member => fits chunk (List.mem_cons_of_mem _ member)) (ended.tail ?_) rests⟩
      rw [← wires]
      exact full.1

section Link

variable [AddCommGroup crates.curve.Point] {sender recipient : Host} {rounds : Nat}
  {argsE : EncryptArgs} {argsD : DecryptArgs}

/-- Whatever arrives of what an encryption has written, all that a decryption makes of it is the
beginning of what the encryption could read. -/
theorem decrypted_prefix (laws : Lawful crates)
    (trusted : argsD.allowUnverifiedStream = false → SpoolTrusted crates recipient)
    {stdinE stdinD : Reader}
    (arrived : content stdinD <+:
      (reported (runEncrypt crates sender rounds argsE (Process.start stdinE))).stdout) :
    (reported (runDecrypt crates recipient argsD (Process.start stdinD))).stdout <+:
      content stdinE := by
  rcases @runDecrypt_authentic crates recipient argsD trusted stdinD with
    nothing | ⟨header, rest, chunks, accepts, authentic, output⟩
  · rw [nothing]
    exact List.nil_prefix
  obtain ⟨more, whole⟩ := arrived
  obtain ⟨recipPriv, recipKey, headerBytes, loaded, valid, front, conforms⟩ := accepts
  rw [front, List.append_assoc] at whole
  rcases runEncrypt_written crates sender rounds argsE stdinE with
    nothing | ⟨session, done, tail, session_eq, sealed, ended, written⟩
  · rw [nothing] at whole
    have width := headerBytes.length_toList
    rw [(List.append_eq_nil_iff.mp whole).1] at width
    cases width
  rw [written] at whole
  obtain ⟨headers, bodies⟩ := List.append_inj whole (by
    rw [FixedBytes.length_toList, FixedBytes.length_toList])
  obtain ⟨ephPriv, ephKey, keys⟩ := encryptSession_eq_ok session_eq
  rw [FixedBytes.ext headers] at conforms
  have opens : Numbered (StreamChunk.Opens crates header) 0 done := by
    rw [conforms.of_session laws.prime keys valid]
    exact sealed.seals.mono fun _ chunk member seals =>
      seals.opens (laws.inverts session.payloadKey) (sealed.fits chunk member)
  have same := authentic.prefix_of_sealed opens
    (fun chunk member => sealed.length_ciphertext member) ended bodies
  rw [output]
  have front := plaintextOf_prefix same
  exact front.trans sealed.front

/-- What a decryption accepts of what an encryption has written is all of it. -/
theorem EncryptedRun.accepted_whole (laws : Lawful crates) {stdinE : Reader}
    {session : EncryptSession crates} {full : List StreamChunk} {last : StreamChunk}
    {trailer : Bytes} {finalE : Process}
    (run : EncryptedRun crates sender rounds argsE stdinE session full last trailer finalE)
    {recipPriv : FixedBytes 32} {recipKey : crates.curve.SigningKey}
    (valid : crates.curve.signingKey recipPriv = .ok recipKey) {stream : Stream}
    (conforms : stream.Conforms crates argsD recipPriv (crates.curve.publicBytes recipKey))
    {rest : Bytes} (front : stream.bytes ++ rest = finalE.stdout) :
    rest = [] ∧ stream.chunks = full ++ [last] := by
  rw [run.stdout_eq, Stream.bytes, List.append_assoc, List.append_assoc] at front
  obtain ⟨headers, bodies⟩ := List.append_inj front (by
    rw [FixedBytes.length_toList, FixedBytes.length_toList])
  obtain ⟨ephPriv, ephKey, keys⟩ := encryptSession_eq_ok run.session_eq
  have header := conforms.header
  rw [FixedBytes.ext headers] at header
  have same := header.of_session laws.prime keys valid
  have fits : ∀ chunk ∈ full ++ [last], chunk.wire.ciphertext.length ≤ chunkSize := by
    intro chunk member
    obtain ⟨_, sealed⟩ := run.seals.exists_of_mem member
    exact (Nat.le_of_eq (crates.aead.length_encrypt sealed)).trans
      (run.length_plaintext_le chunk member)
  obtain ⟨fulls, lasts, trailers⟩ := wires_unique (fun chunk member => (conforms.full chunk member).1)
    (fun chunk member => (run.intermediate chunk member).1) conforms.last.1 run.terminal.1
    (length_ciphertext_le conforms.full conforms.last) fits bodies
  constructor
  · -- The mode is in the header, so the trailers have one length.
    have width := conforms.trailer.length
    rw [header.mode_eq.trans (wireHeader_mode _ _ _ _ _), keys.mode_eq, ← run.length_trailer,
      ← trailers, List.length_append] at width
    exact List.length_eq_zero_iff.mp (by omega)
  · have opens : Numbered (StreamChunk.Opens crates stream.header) 0 (full ++ [last]) := by
      rw [same]
      exact run.chunks_open laws
    refine opens_unique crates conforms.opens opens ?_
    rw [Stream.chunks, List.map_append, List.map_append, fulls, List.map_singleton,
      List.map_singleton, lasts]

theorem decrypted_whole (laws : Lawful crates)
    (trusted : argsD.allowUnverifiedStream = false → SpoolTrusted crates recipient)
    {stdinE stdinD : Reader}
    (counted : ∀ final, runEncrypt crates sender rounds argsE (Process.start stdinE) ≠
      .error overflowStop final)
    (arrived : content stdinD <+:
      (reported (runEncrypt crates sender rounds argsE (Process.start stdinE))).stdout)
    {finalD : Process}
    (accepted : runDecrypt crates recipient argsD (Process.start stdinD) = .ok () finalD) :
    ∃ finalE, runEncrypt crates sender rounds argsE (Process.start stdinE) = .ok () finalE ∧
      content stdinD = finalE.stdout ∧
      content stdinE = finalD.stdout ++ content finalE.stdin := by
  obtain ⟨stream, read⟩ := (runDecrypt_ends crates recipient argsD stdinD).ok accepted
  obtain ⟨recipPriv, recipKey, _, valid, conforms⟩ := read.conforms
  have front : stream.bytes <+: content stdinD := ⟨_, read.content_eq.symm⟩
  cases ran : runEncrypt crates sender rounds argsE (Process.start stdinE) with
  | error stop final =>
      rw [ran, stdout_reported_error] at arrived
      have refused := not_conforming_of_failed ran
        (fun overflow => counted final (overflow ▸ ran)) conforms
      exact absurd (front.trans arrived) refused
  | ok value finalE =>
      rw [ran] at arrived
      obtain ⟨rest, whole⟩ := arrived
      change content stdinD ++ rest = finalE.stdout at whole
      obtain ⟨session, full, last, trailer, run⟩ :=
        (runEncrypt_ends crates sender rounds argsE stdinE).ok ran
      rw [read.content_eq, List.append_assoc] at whole
      obtain ⟨none, chunks⟩ := run.accepted_whole laws valid conforms whole
      refine ⟨finalE, rfl, ?_, ?_⟩
      · rw [← whole, read.content_eq, none, (List.append_eq_nil_iff.mp none).1]
      · rw [run.content_eq, read.stdout trusted, Stream.plaintext, chunks]

end Link

/-! ## Pipelines -/

/-- An encryption does not get to the last chunk number. -/
def NumbersLeft (crates : Crates) (host : Host) (rounds : Nat) (args : List String)
    (stdin : Reader) : Prop :=
  ∀ recip final, (encryptOptions args).recipient = some recip →
    runEncrypt crates host rounds (encryptArgs args recip) (Process.start stdin) ≠
      .error overflowStop final

/-- `encrypt | decrypt`. -/
structure Pipeline where
  sender : Host
  recipient : Host
  rounds : Nat
  exeE : String
  exeD : String
  argsE : List String
  argsD : List String

namespace Pipeline

variable (crates : Crates) (pipeline : Pipeline)

def encrypt (stdin : Reader) : Option Nat × Process :=
  realMain crates pipeline.sender pipeline.rounds (pipeline.exeE :: "encrypt" :: pipeline.argsE)
    stdin

def decrypt (stdin : Reader) : Option Nat × Process :=
  realMain crates pipeline.recipient pipeline.rounds
    (pipeline.exeD :: "decrypt" :: pipeline.argsD) stdin

/-- Both programs are called by their commands, and a spool gives back what it takes. -/
structure Sound : Prop where
  encrypts : isGitInvocation pipeline.exeE "encrypt" = false
  decrypts : isGitInvocation pipeline.exeD "decrypt" = false
  trusted : (decryptOptions pipeline.argsD).allowUnverified = false →
    SpoolTrusted crates pipeline.recipient

variable {crates pipeline}

namespace Sound

variable (sound : pipeline.Sound crates)
include sound

theorem encrypt_cases (stdin : Reader) :
    (pipeline.encrypt crates stdin).2.stdout = [] ∨
      ∃ recip, (encryptOptions pipeline.argsE).recipient = some recip ∧
        pipeline.encrypt crates stdin =
          (exitStatus (runEncrypt crates pipeline.sender pipeline.rounds
              (encryptArgs pipeline.argsE recip) (Process.start stdin)),
            reported (runEncrypt crates pipeline.sender pipeline.rounds
              (encryptArgs pipeline.argsE recip) (Process.start stdin))) := by
  cases given : (encryptOptions pipeline.argsE).recipient with
  | none =>
      obtain ⟨error, refused⟩ := realMain_encrypt_without_recipient sound.encrypts given
      refine .inl ?_
      rw [Pipeline.encrypt, refused]
      exact stdout_reported_error _ _
  | some recip => exact .inr ⟨recip, rfl, realMain_encrypt sound.encrypts given⟩

variable [AddCommGroup crates.curve.Point] (laws : Lawful crates) {stdinE stdinD : Reader}
  (arrived : content stdinD <+: (pipeline.encrypt crates stdinE).2.stdout)
include laws arrived

theorem decrypt_prefix :
    (pipeline.decrypt crates stdinD).2.stdout <+: content stdinE := by
  rw [Pipeline.decrypt, realMain_decrypt sound.decrypts]
  rcases sound.encrypt_cases stdinE with nothing | ⟨recip, _, encrypted⟩
  · rw [nothing, List.prefix_nil] at arrived
    rcases @runDecrypt_authentic crates pipeline.recipient (decryptArgs pipeline.argsD)
      sound.trusted stdinD with none | ⟨_, _, _, ⟨_, _, headerBytes, _, _, front, _⟩, _⟩
    · rw [none]
      exact List.nil_prefix
    · rw [arrived] at front
      have width := headerBytes.length_toList
      rw [(List.append_eq_nil_iff.mp front.symm).1] at width
      cases width
  · rw [encrypted] at arrived
    exact decrypted_prefix laws sound.trusted arrived

theorem decrypt_whole (counted : NumbersLeft crates pipeline.sender pipeline.rounds
      pipeline.argsE stdinE) (exited : (pipeline.decrypt crates stdinD).1 = some 0) :
    (pipeline.encrypt crates stdinE).1 = some 0 ∧
      content stdinD = (pipeline.encrypt crates stdinE).2.stdout ∧
      content stdinE = (pipeline.decrypt crates stdinD).2.stdout ++
        content (pipeline.encrypt crates stdinE).2.stdin := by
  rw [Pipeline.decrypt, realMain_decrypt sound.decrypts] at exited ⊢
  obtain ⟨finalD, accepted⟩ := exitStatus_eq_zero_iff.mp exited
  rcases sound.encrypt_cases stdinE with nothing | ⟨recip, given, encrypted⟩
  · rw [nothing, List.prefix_nil] at arrived
    obtain ⟨stream, read⟩ := (runDecrypt_ends crates pipeline.recipient
      (decryptArgs pipeline.argsD) stdinD).ok accepted
    have front := read.content_eq
    rw [arrived, Stream.bytes, List.append_assoc] at front
    have width := stream.headerBytes.length_toList
    rw [(List.append_eq_nil_iff.mp front.symm).1] at width
    cases width
  · rw [encrypted] at arrived ⊢
    obtain ⟨finalE, ran, whole, parts⟩ := decrypted_whole laws sound.trusted
      (fun final => counted recip final given) arrived accepted
    rw [ran, accepted]
    exact ⟨rfl, whole, parts⟩

end Sound

end Pipeline

/-- Whatever arrives at the decryptor of what the encryptor has written before it ended or was
stopped, under any keys and options and over any delivery: only a beginning of the input comes
out; of a failed decryption that was to spool nothing does; and a decryption succeeds only if the
encryption did, all of its output arrived and all that it had read comes out. The failure at the
last chunk number is left out. -/
theorem pipeline_all_or_nothing (crates : Crates) [AddCommGroup crates.curve.Point]
    (laws : Lawful crates) (pipeline : Pipeline) (sound : pipeline.Sound crates)
    (stdinE stdinD : Reader)
    (arrived : content stdinD <+: (pipeline.encrypt crates stdinE).2.stdout) :
    (pipeline.decrypt crates stdinD).2.stdout <+: content stdinE ∧
    ((decryptOptions pipeline.argsD).allowUnverified = false →
      (pipeline.decrypt crates stdinD).1 ≠ some 0 →
      (pipeline.decrypt crates stdinD).2.stdout = []) ∧
    (NumbersLeft crates pipeline.sender pipeline.rounds pipeline.argsE stdinE →
      (pipeline.decrypt crates stdinD).1 = some 0 →
      (pipeline.encrypt crates stdinE).1 = some 0 ∧
        content stdinD = (pipeline.encrypt crates stdinE).2.stdout ∧
        content stdinE = (pipeline.decrypt crates stdinD).2.stdout ++
          content (pipeline.encrypt crates stdinE).2.stdin) := by
  refine ⟨sound.decrypt_prefix laws arrived, fun spooling failed => ?_,
    sound.decrypt_whole laws arrived⟩
  rw [Pipeline.decrypt, realMain_decrypt sound.decrypts] at failed ⊢
  cases ran : runDecrypt crates pipeline.recipient (decryptArgs pipeline.argsD)
      (Process.start stdinD) with
  | ok value final =>
      rw [ran] at failed
      exact absurd rfl failed
  | error stop final =>
      rw [stdout_reported_error]
      exact (runDecrypt_ends crates pipeline.recipient (decryptArgs pipeline.argsD)
        stdinD).error ran spooling (sound.trusted spooling)

namespace Reference

/-- From the key 3 to the key 1. -/
def samplePipeline : Pipeline :=
  ⟨keyHost sampleSender sampleEphemeral, keyHost sampleRecipient sampleEphemeral, 0, "pipe-k1",
    "pipe-k1", ["--recipient", publicHex sampleRecipient], ["--allow-unverified-stream"]⟩

theorem samplePipeline_sound : samplePipeline.Sound packages :=
  ⟨by decide, by decide, fun _ => keyHost_trusted sampleRecipient sampleEphemeral⟩

end Reference

open Reference in
/-- A sender that is stopped after 150 bytes. -/
theorem pipeline_all_or_nothing_sample :
    (samplePipeline.decrypt packages (ofBytes ((samplePipeline.encrypt packages
      (ofBytes sampleData)).2.stdout.take 150))).2.stdout <+: sampleData := by
  have delivered := (pipeline_all_or_nothing packages lawful samplePipeline samplePipeline_sound
    (ofBytes sampleData) (ofBytes ((samplePipeline.encrypt packages
      (ofBytes sampleData)).2.stdout.take 150))
    (by rw [content_ofBytes]; exact List.take_prefix _ _)).1
  rwa [content_ofBytes] at delivered

/-! ## Chains -/

/-- A chain of pipelines, each at the end of the one before: from `data` to `out`, where a
program may be given, or may hand on, a beginning only. `intact` says that every decryption
succeeded and every encryption was given all of its input. -/
inductive Chain (crates : Crates) : List Pipeline → Bytes → Bytes → Prop → Prop where
  | done {data} : Chain crates [] data data True
  | link {pipeline pipelines data out intact} (stdinE stdinD : Reader) :
      content stdinE <+: data →
      content stdinD <+: (pipeline.encrypt crates stdinE).2.stdout →
      Chain crates pipelines (pipeline.decrypt crates stdinD).2.stdout out intact →
      Chain crates (pipeline :: pipelines) data out
        ((content stdinE = data ∧ Smooth stdinE ∧
          NumbersLeft crates pipeline.sender pipeline.rounds pipeline.argsE stdinE ∧
          (pipeline.decrypt crates stdinD).1 = some 0) ∧ intact)

theorem Pipeline.Sound.exhausts {pipeline : Pipeline} (sound : pipeline.Sound crates)
    {stdin : Reader} (smooth : Smooth stdin) (exited : (pipeline.encrypt crates stdin).1 = some 0) :
    content (pipeline.encrypt crates stdin).2.stdin = [] := by
  obtain ⟨recip, _, ran⟩ := realMain_encrypt_succeeds sound.encrypts (Prod.ext exited rfl)
  obtain ⟨session, full, last, trailer, run⟩ :=
    (runEncrypt_ends crates pipeline.sender pipeline.rounds _ stdin).ok ran
  exact run.exhausted smooth

/-- However many pipelines stand behind each other, and wherever one is stopped or fails: what
comes out in the end is a beginning of what went in, and all of it if no link was broken. -/
theorem chain_delivers (crates : Crates) [AddCommGroup crates.curve.Point] (laws : Lawful crates)
    (pipelines : List Pipeline) (sound : ∀ pipeline ∈ pipelines, pipeline.Sound crates)
    (data out : Bytes) (intact : Prop) (chain : Chain crates pipelines data out intact) :
    out <+: data ∧ (intact → out = data) := by
  induction chain with
  | done => exact ⟨List.prefix_refl _, fun _ => rfl⟩
  | @link pipeline pipelines data out intact stdinE stdinD given arrived _ ih =>
      have here := sound pipeline List.mem_cons_self
      obtain ⟨later, whole⟩ := ih fun other member => sound other (List.mem_cons_of_mem _ member)
      refine ⟨(later.trans (here.decrypt_prefix laws arrived)).trans given, ?_⟩
      rintro ⟨⟨all, smooth, counted, exited⟩, rest⟩
      obtain ⟨encrypted, _, parts⟩ := here.decrypt_whole laws arrived counted exited
      rw [here.exhausts smooth encrypted, List.append_nil] at parts
      rw [whole rest, ← parts, all]

open Reference in
/-- Two pipelines, the first of which is cut off. -/
theorem chain_delivers_sample :
    let first := (samplePipeline.decrypt packages (ofBytes ((samplePipeline.encrypt packages
      (ofBytes sampleData)).2.stdout.take 150))).2.stdout
    (samplePipeline.decrypt packages (ofBytes (samplePipeline.encrypt packages
      (ofBytes first)).2.stdout)).2.stdout <+: sampleData := by
  intro first
  have whole : ∀ bytes : Bytes, content (ofBytes bytes) <+: bytes := by
    intro bytes
    rw [content_ofBytes]
  have cut : content (ofBytes ((samplePipeline.encrypt packages
      (ofBytes sampleData)).2.stdout.take 150)) <+:
        (samplePipeline.encrypt packages (ofBytes sampleData)).2.stdout := by
    rw [content_ofBytes]
    exact List.take_prefix _ _
  have sound : ∀ pipeline ∈ [samplePipeline, samplePipeline], pipeline.Sound packages := by
    simp only [List.mem_cons, List.not_mem_nil, or_false, or_self, forall_eq]
    exact samplePipeline_sound
  exact (chain_delivers packages lawful _ sound sampleData _ _
    (.link (ofBytes sampleData) _ (whole _) cut
      (.link (ofBytes first) (ofBytes _) (whole _) (whole _) .done))).1

end PipeK1
