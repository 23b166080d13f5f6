import PipeK1.RoundTrip

/-!
# How a plaintext is cut into chunks

With short reads only, the chunks are the pieces of the plaintext at the
multiples of the chunk size, whatever the reads are. An end of input that more
bytes follow, as a terminal reports it, can leave an intermediate chunk short;
where it does is said of the reads alone.
-/

set_option autoImplicit false

namespace PipeK1

open ByteData ByteReader Effects Numbering SealedData

variable {crates : Crates} {host : Host} {rounds : Nat} {args : EncryptArgs} {stdin : Reader}
  {session : EncryptSession crates} {full : List StreamChunk} {last : StreamChunk}
  {trailer : Bytes} {final : Process}

/-! ## Lengths -/

/-- Each chunk adds a length, a tag byte and an authentication tag. -/
theorem length_wireBytes {counter : UInt64} {chunks : List StreamChunk}
    (seals : Numbered session.Seals counter chunks) :
    (wireBytes chunks).length =
      (plaintextOf chunks).length + 21 * chunks.length := by
  induction chunks generalizing counter with
  | nil => rfl
  | cons chunk chunks ih =>
      obtain ⟨first, later⟩ := numbered_cons_iff.mp seals
      have width : chunk.wire.ciphertext.length = chunk.plaintext.length :=
        crates.aead.length_encrypt first
      have whole := ih later
      have here : chunk.wire.bytes.length = chunk.plaintext.length + 21 := by
        simp only [WireChunk.bytes, List.length_append, List.length_cons, FixedBytes.length_toList,
          width, tagSize]
        omega
      simp only [wireBytes, plaintextOf] at whole
      rw [wireBytes, plaintextOf, List.flatMap_cons, List.flatMap_cons, List.length_append,
        List.length_append, List.length_cons, here, whole, Nat.mul_succ]
      omega

theorem EncryptedRun.length_trailer
    (run : EncryptedRun crates host rounds args stdin session full last trailer final) :
    trailer.length = if args.mode = 0x01 then trailerSize else 0 := by
  obtain ⟨ephPriv, ephKey, keys⟩ := encryptSession_eq_ok run.session_eq
  have signed := run.signed
  unfold TrailerSigned at signed
  rcases senderSigningKey_eq_ok keys.sender with
    ⟨other, anonymous⟩ | ⟨one, senderPriv, senderKey, _, _, sender⟩
  · simp only [anonymous] at signed
    rw [if_neg other, signed]
    rfl
  · simp only [sender] at signed
    obtain ⟨sig, _, rfl⟩ := signed
    rw [if_pos one, List.length_append, FixedBytes.length_toList, FixedBytes.length_toList]

/-! ## Chunks at the multiples of the chunk size -/

/-- One chunk for every started 64 KiB, and one for the empty plaintext. -/
def chunkCount (length : Nat) : Nat := max 1 ((length + (chunkSize - 1)) / chunkSize)

theorem chunkCount_eq {length count : Nat} (positive : 0 < count)
    (upper : length ≤ chunkSize * count)
    (lower : 1 < count → chunkSize * (count - 1) < length) : chunkCount length = count := by
  simp only [chunkCount, chunkSize] at *
  omega

/-- The last chunk takes up what is left, all of a chunk if the length is a multiple. -/
theorem lastLength_eq {length before : Nat} (count : before + 1 = chunkCount length) :
    length - chunkSize * before ≤ chunkSize ∧
      length - chunkSize * before =
        if length ≠ 0 ∧ chunkSize ∣ length then chunkSize else length % chunkSize := by
  simp only [chunkCount, chunkSize] at *
  constructor
  · omega
  · split <;> omega

theorem BufferedUp.fills {chunks : List StreamChunk} {rest : Reader}
    (buffered : BufferedUp stdin chunks rest) :
    Fills chunkSize stdin (chunks.map StreamChunk.plaintext ++ [[]]) rest := by
  obtain ⟨before, ⟨fills, _⟩, exhausted⟩ := buffered
  exact fills.concat exhausted

/-- The plaintext of every chunk is the piece at its place. -/
theorem BufferedUp.piece (patient : Patient stdin) {chunks : List StreamChunk} {rest : Reader}
    (buffered : BufferedUp stdin chunks rest) {i : Nat} {chunk : StreamChunk}
    (found : chunks[i]? = some chunk) :
    chunk.plaintext = ((content stdin).drop (chunkSize * i)).take chunkSize := by
  refine buffered.fills.getElem?_patient patient ?_
  rw [List.getElem?_append_left (by
    rw [List.length_map]
    exact (List.getElem?_eq_some_iff.mp found).1), List.getElem?_map, found]
  rfl

theorem BufferedUp.count (patient : Patient stdin) {rest : Reader}
    (buffered : BufferedUp stdin (full ++ [last]) rest) :
    (full ++ [last]).length = chunkCount (content stdin).length := by
  -- The buffer after the last one stayed empty.
  have beyond : [] = ((content stdin).drop (chunkSize * (full ++ [last]).length)).take chunkSize :=
    buffered.fills.getElem?_patient patient (by simp)
  refine (chunkCount_eq (by simp) ?_ ?_).symm
  · have none := congrArg List.length beyond
    rw [List.length_take, List.length_drop, List.length_nil] at none
    have positive : 0 < chunkSize := by decide
    omega
  · intro several
    have before : (full ++ [last]).length - 1 = full.length := by simp
    rw [before]
    have found : (full ++ [last])[full.length]? = some last := by simp
    have piece := buffered.piece patient found
    obtain ⟨_, ⟨_, more⟩, _⟩ := buffered
    have nonempty : last.plaintext ≠ [] := by
      refine more last.plaintext ?_
      cases full with
      | nil => simp at several
      | cons first later => simp
    by_contra short
    rw [List.drop_of_length_le (Nat.le_of_not_lt short), List.take_nil] at piece
    exact nonempty piece

variable (host session) in
/-- What a run writes for the plaintext `data`. -/
structure CanonicalFraming (data : Bytes) (chunks : List StreamChunk) (final : Process) :
    Prop where
  count : chunks.length = chunkCount data.length
  piece : ∀ i chunk, chunks[i]? = some chunk →
    chunk.plaintext = (data.drop (chunkSize * i)).take chunkSize
  intermediate : ∀ i chunk, chunks[i]? = some chunk → i + 1 < chunks.length →
    chunk.wire.termTag = 0x00 ∧ chunk.plaintext.length = chunkSize
  last : ∀ i chunk, chunks[i]? = some chunk → i + 1 = chunks.length →
    chunk.wire.termTag = 0x01 ∧ chunk.plaintext = data.drop (chunkSize * i) ∧
      chunk.plaintext.length =
        if data.length ≠ 0 ∧ chunkSize ∣ data.length then chunkSize else data.length % chunkSize
  whole : plaintextOf chunks = data
  /-- The counters do not wrap. -/
  few : chunks.length < 2 ^ 64
  seals : Numbered session.Seals 0 chunks
  sealings : ∀ key sealing, .chunkSealed key sealing ∈ final.events ↔
    key = session.payloadKey ∧ ∃ (i : Nat) (chunk : StreamChunk), chunks[i]? = some chunk ∧
      sealing = chunk.sealing session.mode session.recipX (UInt64.ofNat i)
  stdout_eq : ∃ trailer, final.stdout =
    (session.header host).toList ++ (wireBytes chunks ++ trailer)
  length_stdout : final.stdout.length = wireHeaderSize + data.length + 21 * chunks.length +
    if session.mode = 0x01 then trailerSize else 0

theorem EncryptedRun.framing (smooth : Smooth stdin)
    (run : EncryptedRun crates host rounds args stdin session full last trailer final)
    (buffered : BufferedUp stdin (full ++ [last]) final.stdin) :
    CanonicalFraming host session (content stdin) (full ++ [last]) final := by
  obtain ⟨ephPriv, ephKey, keys⟩ := encryptSession_eq_ok run.session_eq
  have whole : plaintextOf (full ++ [last]) = content stdin := by
    have parts := run.content_eq
    rw [run.exhausted smooth, List.append_nil] at parts
    exact parts.symm
  have count := buffered.count smooth.patient
  have size : (full ++ [last]).length = full.length + 1 := by simp
  exact {
    count := count
    piece := fun i chunk found => buffered.piece smooth.patient found
    intermediate := by
      intro i chunk found early
      have member : chunk ∈ full := by
        rw [List.getElem?_append_left (by omega)] at found
        exact List.mem_of_getElem? found
      exact ⟨(run.intermediate chunk member).1, run.allFull smooth chunk member⟩
    last := by
      intro i chunk found late
      have same : i = full.length := by omega
      subst same
      have piece := buffered.piece smooth.patient found
      have is_last : chunk = last := by simpa using found.symm
      obtain ⟨fits, length⟩ := lastLength_eq (size.symm.trans count)
      have remaining : chunk.plaintext = (content stdin).drop (chunkSize * full.length) := by
        rw [piece, List.take_of_length_le]
        rw [List.length_drop]
        exact fits
      refine ⟨by rw [is_last]; exact run.terminal.1, remaining, ?_⟩
      rw [remaining, List.length_drop, length]
    whole := whole
    few := by
      rw [size]
      exact run.few
    seals := run.seals
    sealings := run.sealings
    stdout_eq := ⟨trailer, run.stdout_eq⟩
    length_stdout := by
      rw [run.stdout_eq, List.length_append, List.length_append, FixedBytes.length_toList,
        length_wireBytes run.seals, whole, run.length_trailer, keys.mode_eq]
      omega }

/-- Whatever the short reads, and up to the last number a chunk can have, the plaintext is
written as its pieces of 64 KiB. -/
theorem runEncrypt_frames_canonically (crates : Crates) (host : Host) (rounds : Nat)
    (args : EncryptArgs) (session : EncryptSession crates)
    (accepted : encryptSession crates host rounds args = .ok session) (stdin : Reader)
    (smooth : Smooth stdin) :
    (crates.aead.SealsUpTo session.payloadKey chunkSize →
      (∀ signingKey hash, session.sender = some signingKey →
        ∃ sig, crates.curve.signRaw signingKey hash (FixedBytes.zeros 32) = .ok sig) →
      (content stdin).length < (2 ^ 64 - 1) * chunkSize →
      ∃ final, runEncrypt crates host rounds args (Process.start stdin) = .ok () final) ∧
    ∀ final, runEncrypt crates host rounds args (Process.start stdin) = .ok () final →
      ∃ chunks, CanonicalFraming host session (content stdin) chunks final := by
  constructor
  · intro seals signs short
    cases ran : runEncrypt crates host rounds args (Process.start stdin) with
    | ok value final => exact ⟨final, rfl⟩
    | error stop final =>
        rcases (runEncrypt_ends crates host rounds args stdin).error ran session accepted with
          stuck | ⟨signingKey, hash, error, signer, refused⟩
        · exact absurd ⟨smooth, seals, short⟩ stuck
        · obtain ⟨sig, works⟩ := signs signingKey hash signer
          cases works.symm.trans refused
  · intro final ran
    obtain ⟨session', full, last, trailer, run, buffered⟩ :=
      (runEncrypt_buffers crates host rounds args stdin).ok ran
    have same : session' = session := Except.ok.inj (run.session_eq.symm.trans accepted)
    subst same
    exact ⟨_, run.framing smooth buffered⟩

open Reference in
/-- A whole chunk and five bytes more, in two deliveries and in Mode 1. -/
theorem runEncrypt_frames_canonically_sample :
    ∃ (session : EncryptSession packages) (final : Process) (first last : StreamChunk),
      runEncrypt packages (keyHost sampleSender sampleEphemeral) 0 (sealArgs false sampleRecipient)
        (Process.start [.ready (List.replicate chunkSize 0x61), .ready sampleData]) =
          .ok () final ∧
      CanonicalFraming (keyHost sampleSender sampleEphemeral) session
        (List.replicate chunkSize 0x61 ++ sampleData) [first, last] final ∧
      first.plaintext = List.replicate chunkSize 0x61 ∧ last.plaintext = sampleData := by
  have filled : (List.replicate chunkSize (0x61 : UInt8)).length = chunkSize :=
    List.length_replicate
  generalize List.replicate chunkSize (0x61 : UInt8) = block at filled
  have nonempty : block ≠ [] := List.ne_nil_of_length_pos (by rw [filled]; decide)
  have smooth : Smooth [.ready block, .ready sampleData] :=
    smooth_cons_iff.mpr ⟨nonempty, smooth_cons_iff.mpr ⟨by decide, Smooth.nil⟩⟩
  have whole : content [.ready block, .ready sampleData] = block ++ sampleData := by
    rw [content_ready, content_ready, content_nil, List.append_nil]
  have length : (block ++ sampleData).length = chunkSize + 5 := by
    rw [List.length_append, filled]
    rfl
  have agree := correspondents ChaCha20Poly1305.cipher sampleSender sampleRecipient
    sampleEphemeral 0 false true
  obtain ⟨session, accepted⟩ := agree.session_exists lawful.toEncryptLaws
  obtain ⟨succeeds, frames⟩ := runEncrypt_frames_canonically packages
    (keyHost sampleSender sampleEphemeral) 0 (sealArgs false sampleRecipient) session accepted
    [.ready block, .ready sampleData] smooth
  rw [whole] at succeeds frames
  obtain ⟨final, ran⟩ := succeeds (lawful.seals _) (fun _ _ _ => ⟨_, rfl⟩)
    (by rw [length]; decide)
  obtain ⟨chunks, framing⟩ := frames final ran
  have count : chunks.length = 2 := by
    rw [framing.count, length]
    decide
  obtain ⟨first, last, rfl⟩ := List.length_eq_two.mp count
  refine ⟨session, final, first, last, ran, framing, ?_, ?_⟩
  · rw [framing.piece 0 first rfl, Nat.mul_zero, List.drop_zero, List.take_left' filled]
  · rw [(framing.last 1 last rfl rfl).2.1, Nat.mul_one, List.drop_left' filled]

/-! ## An end of input that more bytes follow -/

/-- What the decryptor asks of the chunks: only the last is terminal, and all others are full. -/
structure FullUpToLast (chunks : List StreamChunk) : Prop where
  intermediate : ∀ (i : Nat) (chunk : StreamChunk), chunks[i]? = some chunk → chunk.wire.termTag = 0x00 →
    chunk.plaintext.length = chunkSize
  terminal : ∀ (i : Nat) (chunk : StreamChunk), chunks[i]? = some chunk →
    (chunk.wire.termTag = 0x01 ↔ i + 1 = chunks.length)

theorem EncryptedRun.fullUpToLast_iff
    (run : EncryptedRun crates host rounds args stdin session full last trailer final) :
    FullUpToLast (full ++ [last]) ↔ ∀ chunk ∈ full, chunk.plaintext.length = chunkSize := by
  have size : (full ++ [last]).length = full.length + 1 := by simp
  have early : ∀ {i chunk}, (full ++ [last])[i]? = some chunk → i < full.length →
      chunk ∈ full := by
    intro i chunk found inside
    rw [List.getElem?_append_left inside] at found
    exact List.mem_of_getElem? found
  have late : ∀ {i chunk}, (full ++ [last])[i]? = some chunk → ¬ i < full.length →
      i = full.length ∧ chunk = last := by
    intro i chunk found outside
    have bound := (List.getElem?_eq_some_iff.mp found).1
    have same : i = full.length := by omega
    subst same
    exact ⟨rfl, by simpa using found.symm⟩
  constructor
  · intro allowed chunk member
    obtain ⟨i, found⟩ := List.mem_iff_getElem?.mp member
    have inside := (List.getElem?_eq_some_iff.mp found).1
    refine allowed.intermediate i chunk ?_ (run.intermediate chunk member).1
    rw [List.getElem?_append_left inside, found]
  · intro allFull
    constructor
    · intro i chunk found zero
      by_cases inside : i < full.length
      · exact allFull chunk (early found inside)
      · rw [(late found inside).2, run.terminal.1] at zero
        cases zero
    · intro i chunk found
      by_cases inside : i < full.length
      · rw [(run.intermediate chunk (early found inside)).1, size]
        exact ⟨(fun impossible => nomatch impossible), fun same => by omega⟩
      · obtain ⟨same, rfl⟩ := late found inside
        rw [size, same]
        exact ⟨fun _ => rfl, fun _ => run.terminal.1⟩

theorem EncryptedRun.full_iff_not_resumesInside
    (run : EncryptedRun crates host rounds args stdin session full last trailer final)
    (buffered : BufferedUp stdin (full ++ [last]) final.stdin) :
    FullUpToLast (full ++ [last]) ↔ ¬ ResumesInside chunkSize stdin := by
  have fills := buffered.fills
  obtain ⟨_, ⟨_, more⟩, _⟩ := buffered
  simp only [List.map_append, List.map_cons, List.map_nil, List.append_assoc,
    List.cons_append, List.nil_append] at fills more
  rw [run.fullUpToLast_iff, ← fills.full_iff (by decide) more, List.forall_mem_map]

/-- Only a read error and the chunk counter stop a run whose ciphers work. -/
theorem runEncrypt_succeeds_of_quiet {session : EncryptSession crates}
    (accepted : encryptSession crates host rounds args = .ok session)
    (seals : crates.aead.SealsUpTo session.payloadKey chunkSize)
    (signs : ∀ signingKey hash, session.sender = some signingKey →
      ∃ sig, crates.curve.signRaw signingKey hash (FixedBytes.zeros 32) = .ok sig)
    (quiet : ∀ error : IoError, .failed error ∈ stdin → error.kind = .interrupted)
    (short : (content stdin).length + 1 < 2 ^ 64) :
    ∃ final, runEncrypt crates host rounds args (Process.start stdin) = .ok () final := by
  cases ran : runEncrypt crates host rounds args (Process.start stdin) with
  | ok value final => exact ⟨final, rfl⟩
  | error stop final =>
      rcases (runEncrypt_buffers crates host rounds args stdin).error ran with
        ⟨failed, _⟩ | ⟨session', accepted', stopped⟩
      · cases accepted.symm.trans failed
      · have same : session' = session := Except.ok.inj (accepted'.symm.trans accepted)
        subst same
        cases stopped.failure seals signs with
        | read reported fatal => exact absurd (quiet _ reported) fatal
        | overflow buffered many =>
            have few := buffered.length_le
            omega

/-- The stream of a successful run can be decrypted exactly when the input does not resume
inside a chunk. -/
theorem runEncrypt_decryptable_iff (crates : Crates) [AddCommGroup crates.curve.Point]
    (laws : Lawful crates) (sender recipient : Host) (rounds : Nat) (argsE : EncryptArgs)
    (argsD : DecryptArgs) (recipPriv : FixedBytes 32) (recipKey : crates.curve.SigningKey)
    (agree : Correspondents crates sender recipient rounds argsE argsD recipPriv recipKey)
    (stdin : Reader)
    (disk : argsD.allowUnverifiedStream = false →
      recipient.disk.Honest ∧ recipient.disk.Takes (21 * (content stdin).length))
    (ceiling : ∀ max, argsD.maxSize = some max → (content stdin).length ≤ max.toNat)
    (final : Process)
    (ran : runEncrypt crates sender rounds argsE (Process.start stdin) = .ok () final) :
    ∃ session full last trailer,
      EncryptedRun crates sender rounds argsE stdin session full last trailer final ∧
      ((FullUpToLast (full ++ [last]) ∧
          ∀ stdinD, Smooth stdinD → content stdinD = final.stdout →
            ∃ finalD, runDecrypt crates recipient argsD (Process.start stdinD) = .ok () finalD ∧
              finalD.stdout = plaintextOf (full ++ [last])) ↔
        ¬ ResumesInside chunkSize stdin) := by
  obtain ⟨session, full, last, trailer, run, buffered⟩ :=
    (runEncrypt_buffers crates sender rounds argsE stdin).ok ran
  refine ⟨session, full, last, trailer, run, ?_⟩
  rw [← run.full_iff_not_resumesInside buffered, and_iff_left_iff_imp]
  intro framed stdinD smoothD carried
  have shorter : (plaintextOf (full ++ [last])).length ≤ (content stdin).length := by
    rw [run.content_eq, List.length_append]
    exact Nat.le_add_right _ _
  refine agree.decrypts_of_full laws smoothD run (run.fullUpToLast_iff.mp framed) ?_ ?_ carried
  · intro spooling
    obtain ⟨honest, takes⟩ := disk spooling
    exact ⟨honest, takes.done, Nat.le_trans (Nat.mul_le_mul_left 21 shorter) takes.fits⟩
  · intro _ max limited
    exact Nat.le_trans shorter (ceiling max limited)

namespace Reference

/-- A letter, an end of input, another letter. -/
def resumingInput : Reader := [.ready [0x68], .ready [], .ready [0x69]]

theorem resumingInput_resumes : ResumesInside chunkSize resumingInput := by
  refine ⟨[.ready [0x68]], [.ready [0x69]], rfl, ?_, .inr (by decide), List.cons_ne_nil _ _⟩
  exact patient_cons_iff.mpr ⟨.inl ⟨[0x68], List.cons_ne_nil _ _, rfl⟩, patient_nil⟩

/-- It is encrypted without complaint. -/
theorem resumingInput_encrypted (anonymous : Bool) :
    ∃ final, runEncrypt packages (keyHost sampleSender sampleEphemeral) 0
      (sealArgs anonymous sampleRecipient) (Process.start resumingInput) = .ok () final := by
  have agree := correspondents ChaCha20Poly1305.cipher sampleSender sampleRecipient
    sampleEphemeral 0 anonymous true
  obtain ⟨session, accepted⟩ := agree.session_exists lawful.toEncryptLaws
  refine runEncrypt_succeeds_of_quiet accepted (lawful.seals _) (fun _ _ _ => ⟨_, rfl⟩) ?_
    (by decide)
  intro error member
  simp [resumingInput] at member

end Reference

open Reference in
theorem runEncrypt_decryptable_iff_sample :
    ∃ final session full last trailer,
      runEncrypt packages (keyHost sampleSender sampleEphemeral) 0 (sealArgs false sampleRecipient)
        (Process.start resumingInput) = .ok () final ∧
      EncryptedRun packages (keyHost sampleSender sampleEphemeral) 0
        (sealArgs false sampleRecipient) resumingInput session full last trailer final ∧
      ¬ (FullUpToLast (full ++ [last]) ∧
        ∀ stdinD, Smooth stdinD → content stdinD = final.stdout →
          ∃ finalD, runDecrypt packages (keyHost sampleRecipient sampleEphemeral)
              (openArgs false sampleSender false) (Process.start stdinD) = .ok () finalD ∧
            finalD.stdout = plaintextOf (full ++ [last])) := by
  obtain ⟨final, ran⟩ := resumingInput_encrypted false
  obtain ⟨session, full, last, trailer, run, decryptable⟩ := runEncrypt_decryptable_iff packages
    lawful (keyHost sampleSender sampleEphemeral) (keyHost sampleRecipient sampleEphemeral) 0
    (sealArgs false sampleRecipient) (openArgs false sampleSender false)
    (secretBytes sampleRecipient) sampleRecipient
    (correspondents _ sampleSender sampleRecipient sampleEphemeral 0 false false) resumingInput
    (fun _ => ⟨keyHost_disk_honest sampleRecipient sampleEphemeral,
      keyHost_takes sampleRecipient sampleEphemeral (by decide)⟩)
    (fun _ unlimited => nomatch unlimited) final ran
  exact ⟨final, session, full, last, trailer, ran, run,
    fun allowed => decryptable.mp allowed resumingInput_resumes⟩

open Reference in
/-- The first letter alone is written as a chunk that is not terminal. -/
theorem encrypt_short_intermediate_chunk :
    ∃ final session full last trailer,
      runEncrypt packages (keyHost sampleSender sampleEphemeral) 0 (sealArgs true sampleRecipient)
        (Process.start resumingInput) = .ok () final ∧
      EncryptedRun packages (keyHost sampleSender sampleEphemeral) 0
        (sealArgs true sampleRecipient) resumingInput session full last trailer final ∧
      ∃ chunk ∈ full ++ [last], chunk.wire.termTag = 0x00 ∧ chunk.plaintext.length ≠ chunkSize := by
  obtain ⟨final, ran⟩ := resumingInput_encrypted true
  obtain ⟨session, full, last, trailer, run, buffered⟩ :=
    (runEncrypt_buffers _ _ _ _ _).ok ran
  refine ⟨final, session, full, last, trailer, ran, run, ?_⟩
  by_contra none
  refine (run.full_iff_not_resumesInside buffered).mp ?_ resumingInput_resumes
  refine run.fullUpToLast_iff.mpr fun chunk member => ?_
  by_contra short
  exact none ⟨chunk, List.mem_append_left _ member, (run.intermediate chunk member).1, short⟩

end PipeK1
