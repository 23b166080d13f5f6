import PipeK1.Encrypt
import PipeK1.Stream
import PipeK1.Library.Buffering

/-!
# What the encryptor writes

A header, sealed chunks numbered from zero of which only the last is terminal,
and a trailer; the chunks' plaintexts are what was read. With short reads only,
nothing but the chunk counter can stop it.
-/

set_option autoImplicit false

namespace PipeK1

open ByteData ByteReader Effects Numbering SealedData

variable {crates : Crates} {host : Host}

/-! ## Sealed chunks -/

/-- The chunk with everything bound to it, as the cipher sees it. -/
def StreamChunk.sealing (mode : UInt8) (recipPub : FixedBytes 32) (counter : UInt64)
    (chunk : StreamChunk) : Sealing (FixedBytes 12) (FixedBytes 16) :=
  ⟨buildNonce counter chunk.wire.termTag,
    streamAad mode recipPub chunk.plaintext.length counter chunk.wire.termTag, chunk.plaintext,
    chunk.wire.ciphertext, chunk.wire.tag⟩

namespace EncryptSession

variable (session : EncryptSession crates)

/-- The chunk is what sealing its plaintext at this number gives. -/
def Seals (counter : UInt64) (chunk : StreamChunk) : Prop :=
  crates.aead.encrypt session.payloadKey (buildNonce counter chunk.wire.termTag)
    (streamAad session.mode session.recipX chunk.plaintext.length counter chunk.wire.termTag)
    chunk.plaintext = .ok (chunk.wire.ciphertext, chunk.wire.tag)

/-- What the loop records for its chunks, numbered from `counter`. -/
def sealEvents : UInt64 → List StreamChunk → List Event
  | _, [] => []
  | counter, chunk :: chunks =>
      .stdout ((u32Be (UInt32.ofNat chunk.plaintext.length)).toList ++ [chunk.wire.termTag]) ::
        .chunkSealed session.payloadKey (chunk.sealing session.mode session.recipX counter) ::
        .stdout chunk.wire.ciphertext :: .stdout chunk.wire.tag.toList ::
        sealEvents (counter + 1) chunks

variable {session}

theorem sealEvents_append (counter : UInt64) (early late : List StreamChunk) :
    session.sealEvents counter (early ++ late) =
      session.sealEvents counter early ++
        session.sealEvents (counter + UInt64.ofNat early.length) late := by
  induction early generalizing counter with
  | nil => simp [sealEvents]
  | cons chunk early ih =>
      simp only [List.cons_append, sealEvents, ih, List.length_cons, add_ofNat_succ]

theorem stdout_sealEvents {counter : UInt64} {chunks : List StreamChunk}
    (seals : Numbered session.Seals counter chunks) :
    (session.sealEvents counter chunks).flatMap Event.stdoutBytes = wireBytes chunks := by
  induction chunks generalizing counter with
  | nil => rfl
  | cons chunk chunks ih =>
      obtain ⟨first, later⟩ := numbered_cons_iff.mp seals
      have width : chunk.wire.ciphertext.length = chunk.plaintext.length :=
        crates.aead.length_encrypt first
      simp only [sealEvents, List.flatMap_cons, Event.stdoutBytes, ih later, wireBytes,
        WireChunk.bytes, width, List.append_assoc, List.cons_append, List.nil_append]

/-- The sealings of a run are those of its chunks. -/
theorem mem_sealEvents_iff {counter : UInt64} {chunks : List StreamChunk} {key : FixedBytes 32}
    {sealing : Sealing (FixedBytes 12) (FixedBytes 16)} :
    .chunkSealed key sealing ∈ session.sealEvents counter chunks ↔
      key = session.payloadKey ∧ ∃ (i : Nat) (chunk : StreamChunk), chunks[i]? = some chunk ∧
        sealing = chunk.sealing session.mode session.recipX (counter + UInt64.ofNat i) := by
  induction chunks generalizing counter with
  | nil => simp [sealEvents]
  | cons chunk chunks ih =>
      simp only [sealEvents, List.mem_cons, reduceCtorEq, false_or, Event.chunkSealed.injEq, ih]
      constructor
      · rintro (⟨same, here⟩ | ⟨same, i, other, found, there⟩)
        · exact ⟨same, 0, chunk, rfl, by simpa using here⟩
        · exact ⟨same, i + 1, other, found, by rw [there, add_ofNat_succ]⟩
      · rintro ⟨same, i, other, found, there⟩
        cases i with
        | zero =>
            cases found
            exact .inl ⟨same, by simpa using there⟩
        | succ i => exact .inr ⟨same, i, other, found, by rw [there, add_ofNat_succ]⟩

end EncryptSession

/-! ## The chunk loop -/

/-- What is known of the chunks sealed so far: `input` is what the loop had to read,
`recorded` what was recorded before it, `quiet` that standard input only shortens reads. -/
structure EncryptProgress (session : EncryptSession crates) (input : Bytes)
    (recorded : List Event) (quiet : Prop) (done : List StreamChunk) (state : EncryptState)
    (process : Process) : Prop where
  content_eq : input =
    plaintextOf done ++ (state.curBuf.take state.curLen ++ content process.stdin)
  seals : Numbered session.Seals 0 done
  intermediate : ∀ chunk ∈ done, chunk.wire.termTag = 0x00 ∧ chunk.plaintext.length ≤ chunkSize
  counter : state.chunkCounter.toNat = done.length
  hashed : session.mode = 0x01 → state.hashed = plaintextOf done
  events : process.events = recorded ++ session.sealEvents 0 done
  curLen_le : state.curLen ≤ state.curBuf.length
  curBuf_length : state.curBuf.length = chunkSize
  nextBuf_length : state.nextBuf.length = chunkSize
  smooth : quiet → Smooth process.stdin
  full : quiet → ∀ chunk ∈ done, chunk.plaintext.length = chunkSize
  lookahead : quiet → content process.stdin ≠ [] → state.curLen = chunkSize

/-- What a finished loop has sealed. -/
structure EncryptDone (session : EncryptSession crates) (input : Bytes) (recorded : List Event)
    (quiet : Prop) (full : List StreamChunk) (last : StreamChunk) (hashed : Bytes)
    (process : Process) : Prop where
  content_eq : input = plaintextOf (full ++ [last]) ++ content process.stdin
  seals : Numbered session.Seals 0 (full ++ [last])
  intermediate : ∀ chunk ∈ full, chunk.wire.termTag = 0x00 ∧ chunk.plaintext.length ≤ chunkSize
  terminal : last.wire.termTag = 0x01 ∧ last.plaintext.length ≤ chunkSize
  few : full.length + 1 < 2 ^ 64
  hashed : session.mode = 0x01 → hashed = plaintextOf (full ++ [last])
  events : process.events = recorded ++ session.sealEvents 0 (full ++ [last])
  exhausted : quiet → content process.stdin = []
  full : quiet → ∀ chunk ∈ full, chunk.plaintext.length = chunkSize

/-- Chunk by chunk, the plaintexts are what the buffers were filled with. Only the first buffer
can be empty. -/
structure Buffered (stdin : Reader) (plaintexts : List Bytes) (rest : Reader) : Prop where
  fills : Fills chunkSize stdin plaintexts rest
  more : ∀ bytes ∈ plaintexts.tail, bytes ≠ []

/-- The chunks of a finished loop took up every buffer, up to one that stayed empty. -/
def BufferedUp (stdin : Reader) (chunks : List StreamChunk) (rest : Reader) : Prop :=
  ∃ before, Buffered stdin (chunks.map StreamChunk.plaintext) before ∧
    fill chunkSize before = (.ok [], rest)

theorem Buffered.concat {stdin rest later : Reader} {plaintexts : List Bytes} {bytes : Bytes}
    (buffered : Buffered stdin plaintexts rest)
    (filled : fill chunkSize rest = (.ok bytes, later)) (nonempty : bytes ≠ []) :
    Buffered stdin (plaintexts ++ [bytes]) later where
  fills := buffered.fills.concat filled
  more := by
    intro other member
    cases plaintexts with
    | nil => cases member
    | cons first plaintexts =>
        rcases List.mem_append.mp member with early | late
        · exact buffered.more other early
        · rw [List.mem_singleton.mp late]
          exact nonempty

theorem Buffered.length_le {stdin rest : Reader} {plaintexts : List Bytes}
    (buffered : Buffered stdin plaintexts rest) :
    plaintexts.length ≤ (content stdin).length + 1 := by
  cases plaintexts with
  | nil => exact Nat.zero_le _
  | cons first plaintexts =>
      obtain ⟨next, taken, delivered⟩ := buffered.fills
      have count := delivered.length_le buffered.more
      rw [(fill_ok_content taken).1, List.length_append, List.length_cons]
      omega

/-- Why the chunk loop stops early when sealing works: a read fails, or there are too many
chunks. -/
inductive StreamFailure (stdin : Reader) : Stop → Prop
  | read {error : IoError} (reported : .failed error ∈ stdin)
      (fatal : error.kind ≠ .interrupted) : StreamFailure stdin (.failed (.io error))
  | overflow {plaintexts : List Bytes} {rest : Reader} (buffered : Buffered stdin plaintexts rest)
      (many : 2 ^ 64 ≤ plaintexts.length) :
      StreamFailure stdin (.failed (.usageError "Chunk counter overflow"))

theorem length_plaintextOf_of_full {chunks : List StreamChunk}
    (full : ∀ chunk ∈ chunks, chunk.plaintext.length = chunkSize) :
    (plaintextOf chunks).length = chunks.length * chunkSize := by
  induction chunks with
  | nil => rfl
  | cons chunk chunks ih =>
      have later := ih fun other member => full other (List.mem_cons_of_mem _ member)
      have here := full chunk List.mem_cons_self
      rw [plaintextOf, List.flatMap_cons, List.length_append, here, List.length_cons]
      rw [plaintextOf] at later
      rw [later, Nat.succ_mul, Nat.add_comm]

theorem encryptStep_advances {session : EncryptSession crates} {input : Bytes}
    {recorded : List Event} {quiet : Prop} {done : List StreamChunk} {state : EncryptState}
    {process : Process}
    {stdin : Reader}
    (progress : EncryptProgress session input recorded quiet done state process)
    (buffered : Buffered stdin (done.map StreamChunk.plaintext ++
      [state.curBuf.take state.curLen]) process.stdin) :
    Ends (fun outcome after =>
        match outcome with
        | .inl next => ∃ done', EncryptProgress session input recorded quiet done' next after ∧
            Buffered stdin (done'.map StreamChunk.plaintext ++ [next.curBuf.take next.curLen])
              after.stdin
        | .inr hashed => ∃ last, EncryptDone session input recorded quiet done last hashed after ∧
            BufferedUp stdin (done ++ [last]) after.stdin)
      (fun stop _ => ¬ (quiet ∧ crates.aead.SealsUpTo session.payloadKey chunkSize ∧
          input.length < (2 ^ 64 - 1) * chunkSize) ∧
        (crates.aead.SealsUpTo session.payloadKey chunkSize → StreamFailure stdin stop))
      (encryptStep session state process) := by
  have curLen_le := progress.curLen_le
  have curBuf_length := progress.curBuf_length
  have nextBuf_length := progress.nextBuf_length
  have block_length : (state.curBuf.take state.curLen).length = state.curLen := by
    rw [List.length_take]
    omega
  refine (encryptStep_ends session state process).mono ?_ ?_
  · rintro outcome after ⟨bytes, ct, tag, counter, round, delivered, counted, rfl⟩
    rw [nextBuf_length] at delivered
    let chunk : StreamChunk :=
      ⟨⟨lookaheadTag bytes.length, ct, tag⟩, state.curBuf.take state.curLen⟩
    have seals : session.Seals (0 + UInt64.ofNat done.length) chunk := by
      rw [UInt64.zero_add, ← progress.counter, UInt64.ofNat_toNat]
      simp only [EncryptSession.Seals, chunk, block_length]
      exact round.sealed
    have content_eq : input =
        plaintextOf (done ++ [chunk]) ++ (bytes ++ content after.stdin) := by
      rw [progress.content_eq, round.content_eq, plaintextOf, plaintextOf, List.flatMap_append]
      simp [chunk]
    have absorbed : session.mode = 0x01 →
        session.absorb state.hashed (state.curBuf.take state.curLen) =
          plaintextOf (done ++ [chunk]) := by
      intro one
      rw [EncryptSession.absorb, if_pos one, progress.hashed one, plaintextOf, plaintextOf,
        List.flatMap_append]
      simp [chunk]
    have events : after.events = recorded ++ session.sealEvents 0 (done ++ [chunk]) := by
      rw [round.events_eq, progress.events, EncryptSession.sealEvents_append, UInt64.zero_add,
        ← progress.counter, UInt64.ofNat_toNat, List.append_assoc]
      simp only [EncryptSession.sealEvents, StreamChunk.sealing, chunk, block_length]
    have seals' : Numbered session.Seals 0 (done ++ [chunk]) := progress.seals.concat seals
    have buffered' : Buffered stdin ((done ++ [chunk]).map StreamChunk.plaintext)
        process.stdin := by
      rw [List.map_append]
      exact buffered
    by_cases last : bytes.length = 0
    · rw [if_pos last]
      have none : bytes = [] := List.length_eq_zero_iff.mp last
      have few : done.length + 1 < 2 ^ 64 := by
        rw [← progress.counter, ← counted]
        exact counter.toNat_lt
      rw [none] at delivered
      refine ⟨chunk, ⟨by rw [content_eq, none]; rfl, seals', progress.intermediate, ⟨?_, ?_⟩, few,
        absorbed, events, ?_, progress.full⟩, ⟨_, buffered', delivered⟩⟩
      · simp [chunk, lookaheadTag, last]
      · change (state.curBuf.take state.curLen).length ≤ chunkSize
        omega
      · intro calm
        have whole := (round.smooth (progress.smooth calm)).2
        have nothing := round.content_eq
        rw [none, List.nil_append] at nothing
        rw [none] at whole
        rcases List.take_eq_nil_iff.mp whole.symm with zero | empty
        · rw [nextBuf_length] at zero
          cases zero
        · rw [← nothing, empty]
    · rw [if_neg last]
      have more : content process.stdin ≠ [] := by
        intro empty
        have parts := round.content_eq
        rw [empty] at parts
        have none := (List.append_eq_nil_iff.mp parts.symm).1
        rw [none] at last
        exact last rfl
      have fits := round.fits
      have prefix_eq : (bytes ++ state.nextBuf.drop bytes.length).take bytes.length = bytes :=
        List.take_left
      have nonempty : bytes ≠ [] := fun empty => last (List.length_eq_zero_iff.mpr empty)
      refine ⟨done ++ [chunk], ⟨by rw [content_eq, prefix_eq], seals', ?_, ?_, absorbed, events,
        ?_, ?_, curBuf_length, fun calm => (round.smooth (progress.smooth calm)).1, ?_, ?_⟩,
        by rw [prefix_eq]; exact buffered'.concat delivered nonempty⟩
      · intro other member
        rcases List.mem_append.mp member with early | late
        · exact progress.intermediate other early
        · rw [List.mem_singleton.mp late]
          refine ⟨by simp [chunk, lookaheadTag, last], ?_⟩
          change (state.curBuf.take state.curLen).length ≤ chunkSize
          omega
      · rw [counted, progress.counter, List.length_append, List.length_singleton]
      · change bytes.length ≤ (bytes ++ state.nextBuf.drop bytes.length).length
        rw [List.length_append]
        omega
      · rw [List.length_append, List.length_drop]
        omega
      · intro calm other member
        rcases List.mem_append.mp member with early | late
        · exact progress.full calm other early
        · rw [List.mem_singleton.mp late]
          exact block_length.trans (progress.lookahead calm more)
      · intro calm remaining
        have whole := (round.smooth (progress.smooth calm)).2
        have parts := round.content_eq
        rw [whole] at parts
        have longer : state.nextBuf.length ≤ (content process.stdin).length := by
          by_contra short
          rw [List.take_of_length_le (by omega)] at parts
          have empty := List.append_right_eq_self.mp parts.symm
          exact remaining empty
        change bytes.length = chunkSize
        rw [whole, List.length_take]
        omega
  · intro stop after failure
    cases failure with
    | read failed =>
        rw [nextBuf_length] at failed
        obtain ⟨reported, fatal⟩ := fill_error failed
        refine ⟨?_, fun _ => .read (buffered.fills.leaves_errors reported) fatal⟩
        rintro ⟨calm, _⟩
        obtain ⟨rest, taken, _⟩ := fill_patient chunkSize (progress.smooth calm).patient
        rw [taken] at failed
        cases failed
    | encryption refused =>
        have incapable : ¬ crates.aead.SealsUpTo session.payloadKey chunkSize := by
          intro capable
          have small : (state.curBuf.take state.curLen).length ≤ chunkSize := by omega
          obtain ⟨ct, tag, works⟩ := capable _ _ _ small
          cases works.symm.trans refused
        exact ⟨fun ready => incapable ready.2.1, fun capable => absurd capable incapable⟩
    | overflow many =>
        rw [progress.counter] at many
        refine ⟨?_, fun _ => .overflow buffered ?_⟩
        · rintro ⟨calm, _, short⟩
          have count := length_plaintextOf_of_full (progress.full calm)
          have parts := congrArg List.length progress.content_eq
          rw [List.length_append, count] at parts
          have beyond : (2 ^ 64 - 1) * chunkSize ≤ done.length * chunkSize :=
            Nat.mul_le_mul_right chunkSize (by omega)
          omega
        · rw [List.length_append, List.length_map]
          exact many

theorem encryptChunks_ends {session : EncryptSession crates} {input : Bytes}
    {recorded : List Event} {quiet : Prop} {done : List StreamChunk} {state : EncryptState}
    {process : Process}
    {stdin : Reader}
    (progress : EncryptProgress session input recorded quiet done state process)
    (buffered : Buffered stdin (done.map StreamChunk.plaintext ++
      [state.curBuf.take state.curLen]) process.stdin) :
    Ends (fun hashed after => ∃ full last,
        EncryptDone session input recorded quiet full last hashed after ∧
          BufferedUp stdin (full ++ [last]) after.stdin)
      (fun stop _ => ¬ (quiet ∧ crates.aead.SealsUpTo session.payloadKey chunkSize ∧
          input.length < (2 ^ 64 - 1) * chunkSize) ∧
        (crates.aead.SealsUpTo session.payloadKey chunkSize → StreamFailure stdin stop))
      (encryptChunks session state process) := by
  unfold encryptChunks
  refine loop_ends (fun state process => ∃ done,
    EncryptProgress session input recorded quiet done state process ∧
      Buffered stdin (done.map StreamChunk.plaintext ++ [state.curBuf.take state.curLen])
        process.stdin) ?_ ⟨done, progress, buffered⟩
  rintro state process ⟨done, progress, buffered⟩
  refine (encryptStep_advances progress buffered).mono ?_ (fun _ _ stuck => stuck)
  rintro outcome after advanced
  cases outcome with
  | inl next => exact advanced
  | inr hashed => exact ⟨done, advanced⟩

/-! ## Trailer -/

/-- The bytes after the last chunk: nothing, or the sender's key and signature. -/
def TrailerSigned (host : Host) (session : EncryptSession crates) (plaintext trailer : Bytes) :
    Prop :=
  match session.sender with
  | none => trailer = []
  | some signingKey => ∃ sig,
      crates.curve.signRaw signingKey (taggedHash crates tagAuth (authTranscript
        (session.hmac16 host) (crates.digests.sha256 plaintext)).toList)
        (FixedBytes.zeros 32) = .ok sig ∧
      trailer = (crates.curve.publicBytes signingKey).toList ++
        (crates.curve.signatureBytes sig).toList

theorem writeTrailer_ends {session : EncryptSession crates} {plaintext hashed : Bytes}
    (absorbed : session.sender ≠ none → hashed = plaintext) (process : Process) :
    Ends (fun _ after => ∃ trailer events, TrailerSigned host session plaintext trailer ∧
        after.stdin = process.stdin ∧ after.events = process.events ++ events ∧
        events.flatMap Event.stdoutBytes = trailer ∧ ∀ key sealing, .chunkSealed key sealing ∉ events)
      (fun _ _ => ∃ signingKey hash error, session.sender = some signingKey ∧
        crates.curve.signRaw signingKey hash (FixedBytes.zeros 32) = .error error)
      (writeTrailer host session hashed process) := by
  unfold writeTrailer TrailerSigned
  cases sender : session.sender with
  | none => exact ⟨[], [], rfl, rfl, (List.append_nil _).symm, rfl, fun _ _ => List.not_mem_nil⟩
  | some signingKey =>
      rw [absorbed (by rw [sender]; exact Option.some_ne_none signingKey)]
      simp only [ends_bind]
      refine ends_orFail ?_ ?_
      · intro sig signed
        rw [ends_writeStdout, ends_writeStdout]
        refine ⟨_, [.stdout (crates.curve.publicBytes signingKey).toList,
          .stdout (crates.curve.signatureBytes sig).toList], ⟨sig, signed, rfl⟩, rfl,
          List.append_assoc _ _ _, ?_, ?_⟩
        · simp [Event.stdoutBytes]
        · intro key sealing member
          simp at member
      · intro error refused
        exact ⟨signingKey, _, error, rfl, refused⟩

/-! ## The session -/

structure SessionKeys (crates : Crates) (host : Host) (rounds : Nat) (args : EncryptArgs)
    (session : EncryptSession crates) (ephPriv : FixedBytes 32)
    (signingKey : crates.curve.SigningKey) : Prop where
  recipient : parseKeyBytes crates args.recipientHex = .ok session.recipX
  ephemeral : ephPrivBytes crates host rounds args.entropyFd = .ok ephPriv
  valid : crates.curve.signingKey ephPriv = .ok signingKey
  ephPubX_eq : session.ephPubX = crates.curve.publicBytes signingKey
  mode_eq : session.mode = args.mode
  sender : senderSigningKey crates host args.mode args.keyArgs = .ok session.sender
  derived : ∃ ikm, ecdhSharedX crates ephPriv session.recipX = .ok ikm ∧
    deriveKeys crates ikm host.salt = .ok (session.headerKey, session.payloadKey)

theorem encryptSession_eq_ok {rounds : Nat} {args : EncryptArgs} {session : EncryptSession crates}
    (accepted : encryptSession crates host rounds args = .ok session) :
    ∃ ephPriv signingKey, SessionKeys crates host rounds args session ephPriv signingKey := by
  unfold encryptSession at accepted
  obtain ⟨recipX, recipient, accepted⟩ := Stop.bind_eq_ok accepted
  obtain ⟨ephPriv, ephemeral, accepted⟩ := Stop.bind_eq_ok accepted
  obtain ⟨signingKey, valid, accepted⟩ := Stop.bind_eq_ok accepted
  obtain ⟨sender, loaded, accepted⟩ := Stop.bind_eq_ok accepted
  obtain ⟨ikm, shared, accepted⟩ := Stop.bind_eq_ok accepted
  obtain ⟨keys, derived, accepted⟩ := Stop.bind_eq_ok accepted
  cases accepted
  exact ⟨ephPriv, signingKey, Stop.mapErr_eq_ok_iff.mp recipient, ephemeral,
    Stop.mapErr_eq_ok_iff.mp valid, rfl, rfl, loaded, ikm, Stop.mapErr_eq_ok_iff.mp shared,
    Stop.mapErr_eq_ok_iff.mp derived⟩

theorem senderSigningKey_eq_ok {mode : UInt8} {keyArgs : KeyIntakeArgs}
    {sender : Option crates.curve.SigningKey}
    (accepted : senderSigningKey crates host mode keyArgs = .ok sender) :
    (mode ≠ 0x01 ∧ sender = none) ∨
      (mode = 0x01 ∧ ∃ senderPriv key, loadSecretKey crates host keyArgs = .ok senderPriv ∧
        crates.curve.signingKey senderPriv = .ok key ∧ sender = some key) := by
  unfold senderSigningKey at accepted
  by_cases one : mode = 0x01
  · rw [if_pos one] at accepted
    cases loaded : loadSecretKey crates host keyArgs with
    | error stop => cases stop <;> simp [loaded, throw, throwThe, MonadExceptOf.throw] at accepted
    | ok senderPriv =>
        simp only [loaded] at accepted
        obtain ⟨key, valid, accepted⟩ := Stop.bind_eq_ok accepted
        cases accepted
        exact .inr ⟨one, senderPriv, key, rfl, Stop.mapErr_eq_ok_iff.mp valid, rfl⟩
  · rw [if_neg one] at accepted
    cases accepted
    exact .inl ⟨one, rfl⟩

theorem encryptSession_of_unparsed {args : EncryptArgs} {e : String}
    (refused : parseKeyBytes crates args.recipientHex = .error e) (rounds : Nat) :
    encryptSession crates host rounds args = .error (.failed (.usageError e)) := by
  simp only [encryptSession, refused]
  rfl

theorem runEncrypt_of_refused {rounds : Nat} {args : EncryptArgs} {stop : Stop}
    (refused : encryptSession crates host rounds args = .error stop) (stdin : Reader) :
    runEncrypt crates host rounds args (Process.start stdin) =
      .error stop (Process.start stdin) := by
  rw [runEncrypt, refused]
  rfl

/-! ## Whole runs -/

/-- What a successful run has read, sealed and written. -/
structure EncryptedRun (crates : Crates) (host : Host) (rounds : Nat) (args : EncryptArgs)
    (stdin : Reader) (session : EncryptSession crates) (full : List StreamChunk)
    (last : StreamChunk) (trailer : Bytes) (final : Process) : Prop where
  session_eq : encryptSession crates host rounds args = .ok session
  content_eq : content stdin = plaintextOf (full ++ [last]) ++ content final.stdin
  seals : Numbered session.Seals 0 (full ++ [last])
  intermediate : ∀ chunk ∈ full, chunk.wire.termTag = 0x00 ∧ chunk.plaintext.length ≤ chunkSize
  terminal : last.wire.termTag = 0x01 ∧ last.plaintext.length ≤ chunkSize
  few : full.length + 1 < 2 ^ 64
  signed : TrailerSigned host session (plaintextOf (full ++ [last])) trailer
  stdout_eq : final.stdout =
    (session.header host).toList ++ (wireBytes (full ++ [last]) ++ trailer)
  sealings : ∀ key sealing, .chunkSealed key sealing ∈ final.events ↔
    key = session.payloadKey ∧ ∃ (i : Nat) (chunk : StreamChunk),
      (full ++ [last])[i]? = some chunk ∧
      sealing = chunk.sealing session.mode session.recipX (UInt64.ofNat i)
  exhausted : Smooth stdin → content final.stdin = []
  allFull : Smooth stdin → ∀ chunk ∈ full, chunk.plaintext.length = chunkSize

theorem encryptProgress_start (session : EncryptSession crates) {process after : Process}
    {bytes : Bytes} (fits : bytes.length ≤ chunkSize)
    (content_eq : content process.stdin = bytes ++ content after.stdin)
    (smooth : Smooth process.stdin → Smooth after.stdin ∧
      bytes = (content process.stdin).take chunkSize) :
    EncryptProgress session (content process.stdin) after.events (Smooth process.stdin) []
      ⟨bytes ++ zeroBuffer.drop bytes.length, zeroBuffer, bytes.length, 0, []⟩ after where
  content_eq := by
    change _ = [] ++ ((bytes ++ _).take bytes.length ++ _)
    rw [List.take_left, content_eq]
    rfl
  seals := numbered_nil
  intermediate := fun _ none => absurd none List.not_mem_nil
  counter := rfl
  hashed := fun _ => rfl
  events := (List.append_nil _).symm
  curLen_le := by
    change bytes.length ≤ (bytes ++ _).length
    rw [List.length_append]
    omega
  curBuf_length := by
    change (bytes ++ _).length = _
    rw [List.length_append, List.length_drop, length_zeroBuffer]
    omega
  nextBuf_length := length_zeroBuffer
  smooth := fun quiet => (smooth quiet).1
  full := fun _ _ none => absurd none List.not_mem_nil
  lookahead := by
    intro quiet more
    have whole := (smooth quiet).2
    change bytes.length = chunkSize
    by_contra short
    rw [whole, List.length_take] at short
    rw [whole, List.take_of_length_le (by omega)] at content_eq
    exact more (List.append_right_eq_self.mp content_eq.symm)

/-- Why a run with a session can fail. -/
def EncryptStuck (session : EncryptSession crates) (stdin : Reader) : Prop :=
  ¬ (Smooth stdin ∧ crates.aead.SealsUpTo session.payloadKey chunkSize ∧
      (content stdin).length < (2 ^ 64 - 1) * chunkSize) ∨
    ∃ signingKey hash error, session.sender = some signingKey ∧
      crates.curve.signRaw signingKey hash (FixedBytes.zeros 32) = .error error

/-- How a run with a session fails; sealing and signing may be assumed to work. -/
structure StoppedRun (session : EncryptSession crates) (stdin : Reader) (stop : Stop) : Prop where
  stuck : EncryptStuck session stdin
  failure : crates.aead.SealsUpTo session.payloadKey chunkSize →
    (∀ signingKey hash, session.sender = some signingKey →
      ∃ sig, crates.curve.signRaw signingKey hash (FixedBytes.zeros 32) = .ok sig) →
    StreamFailure stdin stop

theorem runEncrypt_buffers (crates : Crates) (host : Host) (rounds : Nat) (args : EncryptArgs)
    (stdin : Reader) :
    Ends (fun _ final => ∃ session full last trailer,
        EncryptedRun crates host rounds args stdin session full last trailer final ∧
          BufferedUp stdin (full ++ [last]) final.stdin)
      (fun stop final =>
        (encryptSession crates host rounds args = .error stop ∧ final = Process.start stdin) ∨
          ∃ session, encryptSession crates host rounds args = .ok session ∧
            StoppedRun session stdin stop)
      (runEncrypt crates host rounds args (Process.start stdin)) := by
  unfold runEncrypt
  rw [ends_bind]
  refine ends_orStop ?_ ?_
  · intro session session_eq
    obtain ⟨ephPriv, signingKey, keys⟩ := encryptSession_eq_ok session_eq
    rw [ends_bind, ends_writeStdout, ends_bind]
    refine (fillBuffer_ends _ _).mono ?_ ?_
    · rintro _ first ⟨bytes, rfl, delivered, fits, content₁, events₁, smooth₁⟩
      rw [length_zeroBuffer] at delivered fits smooth₁
      have buffered : Buffered stdin ([] ++
          [(bytes ++ zeroBuffer.drop bytes.length).take bytes.length]) first.stdin := by
        rw [List.take_left]
        exact ⟨⟨_, delivered, rfl⟩, fun _ none => absurd none List.not_mem_nil⟩
      rw [ends_bind]
      refine (encryptChunks_ends (encryptProgress_start session fits content₁ smooth₁)
        buffered).mono ?_ ?_
      · rintro hashed second ⟨full, last, done, buffered⟩
        have absorbed : session.sender ≠ none → hashed = plaintextOf (full ++ [last]) := by
          intro signs
          refine done.hashed ?_
          rcases senderSigningKey_eq_ok keys.sender with ⟨_, none⟩ | ⟨one, _⟩
          · exact absurd none signs
          · rw [keys.mode_eq, one]
        refine (writeTrailer_ends absorbed second).mono ?_ ?_
        · rintro _ final ⟨trailer, events, signed, stdin_eq, events_eq, written, unsealed⟩
          have recorded : final.events = .stdout (session.header host).toList ::
              (session.sealEvents 0 (full ++ [last]) ++ events) := by
            rw [events_eq, done.events, events₁, List.append_assoc]
            rfl
          refine ⟨session, full, last, trailer, ⟨session_eq, ?_, done.seals, done.intermediate,
            done.terminal, done.few, signed, ?_, ?_, ?_, done.full⟩, by rw [stdin_eq]; exact buffered⟩
          · rw [stdin_eq]
            exact done.content_eq
          · rw [Process.stdout, recorded, List.flatMap_cons, List.flatMap_append,
              EncryptSession.stdout_sealEvents done.seals, written]
            rfl
          · intro key sealing
            simp only [recorded, List.mem_cons, reduceCtorEq, List.mem_append, unsealed, or_false,
              false_or, EncryptSession.mem_sealEvents_iff, UInt64.zero_add]
          · rw [stdin_eq]
            exact done.exhausted
        · rintro stop _ ⟨signingKey, hash, error, signer, refused⟩
          refine .inr ⟨session, session_eq, .inr ⟨signingKey, hash, error, signer, refused⟩, ?_⟩
          intro _ signs
          obtain ⟨sig, works⟩ := signs signingKey hash signer
          cases works.symm.trans refused
      · rintro stop _ ⟨stuck, failure⟩
        exact .inr ⟨session, session_eq, .inl stuck, fun seals _ => failure seals⟩
    · rintro _ _ ⟨error, rest, failed, rfl⟩
      rw [length_zeroBuffer] at failed
      obtain ⟨reported, fatal⟩ := fill_error failed
      refine .inr ⟨session, session_eq, .inl ?_, fun _ _ => .read reported fatal⟩
      rintro ⟨smooth, _⟩
      obtain ⟨_, taken, _⟩ := fill_patient chunkSize smooth.patient
      cases taken.symm.trans failed
  · intro stop failed
    exact .inl ⟨failed, rfl⟩

theorem runEncrypt_ends (crates : Crates) (host : Host) (rounds : Nat) (args : EncryptArgs)
    (stdin : Reader) :
    Ends (fun _ final => ∃ session full last trailer,
        EncryptedRun crates host rounds args stdin session full last trailer final)
      (fun _ _ => ∀ session, encryptSession crates host rounds args = .ok session →
        EncryptStuck session stdin)
      (runEncrypt crates host rounds args (Process.start stdin)) := by
  refine (runEncrypt_buffers crates host rounds args stdin).mono ?_ ?_
  · rintro _ final ⟨session, full, last, trailer, run, _⟩
    exact ⟨session, full, last, trailer, run⟩
  · rintro stop final (⟨failed, _⟩ | ⟨session, session_eq, stopped⟩) session' same
    · rw [failed] at same
      cases same
    · rw [session_eq] at same
      cases same
      exact stopped.stuck

/-! ## The header comes first -/

section Header

variable {earlier : List Event} (session : EncryptSession crates)

theorem fillBuffer_preserves (buf : Bytes) : Preserves (Recorded earlier) (fillBuffer buf) :=
  (onStdin_preserves _).bind fun _ => (orStop_preserves _).bind fun _ => .pure _

theorem encryptStep_preserves (state : EncryptState) :
    Preserves (Recorded earlier) (encryptStep session state) := by
  refine (fillBuffer_preserves _).bind fun filled => (record_preserves _).bind fun _ => ?_
  dsimp only
  split
  · exact .throw _
  · refine (record_preserves _).bind fun _ => (record_preserves _).bind fun _ =>
      (record_preserves _).bind fun _ => ?_
    split
    · exact .throw _
    · split <;> exact .pure _

theorem writeTrailer_preserves (hashed : Bytes) :
    Preserves (Recorded earlier) (writeTrailer host session hashed) := by
  unfold writeTrailer
  split
  · exact .pure _
  · exact (orStop_preserves _).bind fun _ => (record_preserves _).bind fun _ => record_preserves _

/-- However a run with a session ends, its header is the first thing it wrote. -/
theorem runEncrypt_header {rounds : Nat} {args : EncryptArgs} {session : EncryptSession crates}
    (accepted : encryptSession crates host rounds args = .ok session) (stdin : Reader) :
    Ends (fun _ final => Recorded [.stdout (session.header host).toList] final)
      (fun _ final => Recorded [.stdout (session.header host).toList] final)
      (runEncrypt crates host rounds args (Process.start stdin)) := by
  have rest : Preserves (Recorded [.stdout (session.header host).toList]) (do
      let filled ← fillBuffer zeroBuffer
      let hashed ← encryptChunks session ⟨filled.2, zeroBuffer, filled.1, 0, []⟩
      writeTrailer host session hashed) :=
    (fillBuffer_preserves _).bind fun _ =>
      (Preserves.loop (encryptStep_preserves session) _).bind fun _ => writeTrailer_preserves _ _
  rw [runEncrypt, accepted]
  exact rest _ (List.prefix_refl _)

end Header

end PipeK1
