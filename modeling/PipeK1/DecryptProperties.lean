import PipeK1.SpoolRelease
import PipeK1.Stream

/-!
# What the decryptor accepts

Soundness for every way standard input may behave: an accepted run has read a
conforming stream and emitted its plaintext; a refused one that was to spool
has emitted nothing. Completeness for short reads: a conforming stream with
room on the disk is accepted.
-/

set_option autoImplicit false

namespace PipeK1

open ByteData ByteReader Effects Numbering

variable {crates : Crates} {host : Host} {args : DecryptArgs}

/-! ## Header and trailer checks -/

theorem ecdhSharedX_liftable {privScalar pubX ikm : FixedBytes 32}
    (shared : ecdhSharedX crates privScalar pubX = .ok ikm) :
    ∃ point, liftX crates pubX = .ok point := by
  unfold ecdhSharedX at shared
  split at shared
  · cases shared
  · split at shared
    · cases shared
    · next point lifted => exact ⟨point, lifted⟩

theorem checkHeader_eq_ok_iff {recipPriv recipPub : FixedBytes 32}
    {bytes : FixedBytes wireHeaderSize} {header : StreamHeader} :
    checkHeader crates args recipPriv recipPub bytes = .ok header ↔
      HeaderConforms crates args recipPriv recipPub bytes header := by
  simp only [checkHeader, Stop.guard_eq_ok_iff, ne_eq, not_not]
  constructor
  · rintro ⟨magic, version, known, anonymous, untrusted, recipient, rest⟩
    cases shared : ecdhSharedX crates recipPriv (bytes.slice 6 32) with
    | error e => simp [shared] at rest
    | ok ikm =>
        cases derived : deriveKeys crates ikm (bytes.slice 70 11) with
        | error e => simp [shared, derived] at rest
        | ok keys =>
            obtain ⟨headerKey, payloadKey⟩ := keys
            simp only [shared, derived, Stop.guard_eq_ok_iff, not_not, Except.ok.injEq] at rest
            obtain ⟨authentic, rfl⟩ := rest
            refine ⟨magic, version, rfl, ?_, recipient, recipient, rfl,
              ecdhSharedX_liftable shared, ikm, headerKey, shared, derived, authentic⟩
            by_cases one : bytes.byteAt 5 = 0x01
            · refine .inl ⟨one, ?_⟩
              cases sender : args.expectedSender with
              | some exp => exact .inl rfl
              | none =>
                  refine .inr ?_
                  by_contra distrusted
                  exact untrusted ⟨one, by rw [sender]; rfl, by simpa using distrusted⟩
            · have two : bytes.byteAt 5 = 0x02 := by
                by_contra other
                exact known ⟨one, other⟩
              refine .inr ⟨two, ?_⟩
              cases sender : args.expectedSender with
              | none => rfl
              | some exp => exact absurd ⟨by rw [sender]; rfl, two⟩ anonymous
  · intro conforms
    obtain ⟨ikm, headerKey, shared, derived, authentic⟩ := conforms.authentic
    have modes := conforms.mode_eq
    refine ⟨conforms.magic, conforms.version, ?_, ?_, ?_, conforms.recipient, ?_⟩
    · rw [← modes]
      rcases conforms.permitted with ⟨one, _⟩ | ⟨two, _⟩
      · exact fun unknown => unknown.1 one
      · exact fun unknown => unknown.2 two
    · rw [← modes]
      rintro ⟨expected, two⟩
      rcases conforms.permitted with ⟨one, _⟩ | ⟨_, none⟩
      · rw [two] at one
        exact absurd one (by decide)
      · rw [none] at expected
        cases expected
    · rw [← modes]
      rintro ⟨one, unexpected, distrusted⟩
      rcases conforms.permitted with ⟨_, expected | trusted⟩ | ⟨two, _⟩
      · rw [Option.isNone_iff_eq_none] at unexpected
        rw [unexpected] at expected
        cases expected
      · rw [trusted] at distrusted
        cases distrusted
      · rw [one] at two
        exact absurd two (by decide)
    · simp only [shared, derived, Stop.guard_eq_ok_iff, not_not, Except.ok.injEq]
      refine ⟨authentic.trans conforms.hmac_eq, ?_⟩
      rw [← modes, ← conforms.hmac_eq, conforms.recipient, ← conforms.recipPub_eq]

theorem verifyTrailer_eq_ok_iff {hmac16 : FixedBytes 16} {hashed : Bytes}
    {trailer : FixedBytes trailerSize} :
    verifyTrailer crates hmac16 hashed trailer = .ok () ↔
      ∃ senderVk sig, crates.curve.verifyingKey (trailer.slice 0 32) = .ok senderVk ∧
        crates.curve.signature (trailer.slice 32 64) = .ok sig ∧
        crates.curve.verifyRaw senderVk (taggedHash crates tagAuth
          (authTranscript hmac16 (crates.digests.sha256 hashed)).toList) sig = .ok () := by
  unfold verifyTrailer
  constructor
  · intro accepted
    cases decoded : crates.curve.verifyingKey (trailer.slice 0 32) with
    | error e => simp [decoded] at accepted
    | ok senderVk =>
        cases framed : crates.curve.signature (trailer.slice 32 64) with
        | error e => simp [decoded, framed] at accepted
        | ok sig =>
            refine ⟨senderVk, sig, rfl, rfl, ?_⟩
            simp only [decoded, framed] at accepted
            split at accepted
            · cases accepted
            · next verified => exact verified
  · rintro ⟨senderVk, sig, decoded, framed, verified⟩
    simp only [decoded, framed, verified]

theorem compareSender_eq_ok {senderPub : FixedBytes 32} {notice : Option String}
    (accepted : compareSender crates args senderPub = .ok notice) :
    ∀ exp, args.expectedSender = some exp → parseKeyBytes crates exp = .ok senderPub := by
  intro exp expected
  simp only [compareSender, expected] at accepted
  cases parsed : parseKeyBytes crates exp with
  | error e => simp [parsed] at accepted
  | ok expBytes =>
      simp only [parsed, Stop.guard_eq_ok_iff, ne_eq, not_not] at accepted
      rw [accepted.1]

theorem compareSender_ok {senderPub : FixedBytes 32}
    (sender : ∀ exp, args.expectedSender = some exp → parseKeyBytes crates exp = .ok senderPub) :
    ∃ notice, compareSender crates args senderPub = .ok notice := by
  unfold compareSender
  cases expected : args.expectedSender with
  | none =>
      cases args.allowUntrustedSender with
      | true => exact ⟨_, rfl⟩
      | false => exact ⟨_, rfl⟩
  | some exp =>
      simp only [sender exp expected, ne_eq, not_true, ↓reduceIte]
      exact ⟨_, rfl⟩

/-! ## The record of a run -/

/-- What the loop records for its chunks, numbered from `counter`. -/
def chunkEvents (args : DecryptArgs) : UInt64 → List StreamChunk → List Event
  | _, [] => []
  | counter, chunk :: chunks =>
      .chunkAuthenticated counter chunk.wire.termTag chunk.plaintext ::
        ((if args.allowUnverifiedStream then [.stdout chunk.plaintext] else []) ++
          chunkEvents args (counter + 1) chunks)

theorem chunkEvents_append (counter : UInt64) (early late : List StreamChunk) :
    chunkEvents args counter (early ++ late) =
      chunkEvents args counter early ++
        chunkEvents args (counter + UInt64.ofNat early.length) late := by
  induction early generalizing counter with
  | nil => simp [chunkEvents]
  | cons chunk early ih =>
      simp only [List.cons_append, chunkEvents, ih, List.length_cons, add_ofNat_succ,
        List.append_assoc]

theorem stdout_chunkEvents (counter : UInt64) (chunks : List StreamChunk) :
    (chunkEvents args counter chunks).flatMap Event.stdoutBytes =
      if args.allowUnverifiedStream then plaintextOf chunks else [] := by
  induction chunks generalizing counter with
  | nil => simp [chunkEvents, plaintextOf]
  | cons chunk chunks ih =>
      cases streaming : args.allowUnverifiedStream with
      | true =>
          simp only [streaming, ↓reduceIte] at ih ⊢
          simp [chunkEvents, streaming, ih, Event.stdoutBytes, plaintextOf]
      | false =>
          simp only [streaming, Bool.false_eq_true, ↓reduceIte] at ih ⊢
          simp [chunkEvents, streaming, ih, Event.stdoutBytes]

theorem Process.stdout_of_events {before after : Process} {events : List Event}
    (recorded : after.events = before.events ++ events) :
    after.stdout = before.stdout ++ events.flatMap Event.stdoutBytes := by
  rw [Process.stdout, recorded, List.flatMap_append, Process.stdout]

theorem stdout_record (stdin : Reader) (events : List Event) (event : Event) :
    Process.stdout ⟨stdin, events ++ [event]⟩ =
      Process.stdout ⟨stdin, events⟩ ++ event.stdoutBytes := by
  rw [Process.stdout, List.flatMap_append, List.flatMap_singleton]
  rfl

/-! ## The chunk loop -/

/-- Where the loop is once it has taken the chunks `done`. -/
structure DecryptProgress (crates : Crates) (args : DecryptArgs) (header : StreamHeader)
    (start : Process) (startSpool : Spool) (done : List StreamChunk) (state : DecryptState)
    (process : Process) : Prop where
  content_eq : content start.stdin = wireBytes done ++ content process.stdin
  opens : Numbered (StreamChunk.Opens crates header) 0 done
  counter : state.chunkCounter = UInt64.ofNat done.length
  hashed : state.hashed = if header.mode = 0x01 then plaintextOf done else []
  events : process.events = start.events ++ chunkEvents args 0 done
  smooth : Smooth start.stdin → Smooth process.stdin
  spooled : args.allowUnverifiedStream = false →
    Spool.Holds crates.aead state.spool (plaintextOf done) ∧
      Spool.Continues startSpool state.spool

theorem plaintextOf_append_singleton (done : List StreamChunk) (chunk : StreamChunk) :
    plaintextOf (done ++ [chunk]) = plaintextOf done ++ chunk.plaintext := by
  simp [plaintextOf]

theorem decryptStep_ends {header : StreamHeader} {start : Process} {startSpool : Spool}
    {done : List StreamChunk} {state : DecryptState} {process : Process}
    (progress : DecryptProgress crates args header start startSpool done state process) :
    Ends (fun outcome after => ∃ chunk next, chunk.wire.Framed ∧
        DecryptProgress crates args header start startSpool (done ++ [chunk]) next after ∧
        outcome = if chunk.wire.termTag = 0x01 then .inr next else .inl next)
      (fun _ after => args.allowUnverifiedStream = false → after.stdout = start.stdout)
      (decryptStep crates args header state process) := by
  have silent : args.allowUnverifiedStream = false → ∀ events : List Event,
      events.flatMap Event.stdoutBytes = [] → ∀ after : Process,
      after.events = process.events ++ events → after.stdout = start.stdout := by
    intro spooling events quiet after recorded
    rw [progress.events, List.append_assoc] at recorded
    rw [Process.stdout_of_events recorded, List.flatMap_append, stdout_chunkEvents, spooling,
      quiet]
    simp
  rw [decryptStep, ends_bind]
  refine (readChunk_ends process).mono ?_ ?_
  · rintro wire first ⟨content_eq, events_eq, smooth, framed⟩
    cases opened : openChunk crates header state.chunkCounter wire with
    | error _ =>
        simp only [ends_fail]
        exact fun spooling => silent spooling [] rfl first (by rw [events_eq, List.append_nil])
    | ok plaintext =>
        simp only [ends_bind, ends_record]
        let chunk : StreamChunk := ⟨wire, plaintext⟩
        have opens : StreamChunk.Opens crates header (0 + UInt64.ofNat done.length) chunk := by
          rw [UInt64.zero_add, ← progress.counter]
          exact opened
        have counter : state.chunkCounter + 1 = UInt64.ofNat (done ++ [chunk]).length := by
          rw [progress.counter, List.length_append, UInt64.ofNat_add]
          rfl
        refine (deliverChunk_ends crates args plaintext state.spool _).mono ?_ ?_
        · rintro spool second ⟨stdin_eq, delivered⟩
          rw [ends_pure]
          refine ⟨chunk, ⟨state.chunkCounter + 1, spool, _⟩, framed,
            ⟨?_, ?_, counter, ?_, ?_, fun quiet => ?_, ?_⟩, rfl⟩
          · rw [progress.content_eq, content_eq, stdin_eq]
            simp [wireBytes, chunk]
          · exact progress.opens.concat opens
          · simp only [progress.hashed, plaintextOf_append_singleton]
            split <;> rfl
          · rw [chunkEvents_append, UInt64.zero_add, ← progress.counter]
            cases streaming : args.allowUnverifiedStream with
            | true =>
                simp only [streaming, ↓reduceIte] at delivered
                rw [delivered.2, events_eq, progress.events]
                simp [chunkEvents, streaming, chunk]
            | false =>
                simp only [streaming, Bool.false_eq_true, ↓reduceIte] at delivered
                rw [delivered.2, events_eq, progress.events]
                simp [chunkEvents, streaming, chunk]
          · rw [stdin_eq]
            exact smooth (progress.smooth quiet)
          · intro spooling
            simp only [spooling, Bool.false_eq_true, ↓reduceIte] at delivered
            obtain ⟨holds, continues⟩ := progress.spooled spooling
            obtain ⟨holds', continues', _⟩ :=
              (Spool.writeChunk_ends crates.aead plaintext _ state.spool holds).ok delivered.1
            rw [plaintextOf_append_singleton]
            exact ⟨holds', continues.trans continues'⟩
        · rintro _ after ⟨spooling, rfl, _⟩ _
          exact silent spooling [.chunkAuthenticated state.chunkCounter wire.termTag plaintext] rfl
            _ (by rw [events_eq])
  · intro _ after events_eq spooling
    exact silent spooling [] rfl after (by rw [events_eq, List.append_nil])

theorem full_concat {done : List StreamChunk} {chunk : StreamChunk}
    (allFull : ∀ other ∈ done, StreamChunk.Full other) (full : chunk.Full) :
    ∀ other ∈ done ++ [chunk], StreamChunk.Full other := by
  intro other member
  rcases List.mem_append.mp member with early | late
  · exact allFull other early
  · rw [List.mem_singleton.mp late]
    exact full

theorem decryptChunks_ends {header : StreamHeader} {start : Process} {startSpool : Spool}
    {state : DecryptState}
    (progress : DecryptProgress crates args header start startSpool [] state start) :
    Ends (fun final after => ∃ full last, (∀ chunk ∈ full, StreamChunk.Full chunk) ∧
        StreamChunk.Terminal last ∧
        DecryptProgress crates args header start startSpool (full ++ [last]) final after)
      (fun _ after => args.allowUnverifiedStream = false → after.stdout = start.stdout)
      (decryptChunks crates args header state start) := by
  unfold decryptChunks
  refine loop_ends (fun state process => ∃ done, (∀ chunk ∈ done, StreamChunk.Full chunk) ∧
    DecryptProgress crates args header start startSpool done state process) ?_ ?_
  · rintro state process ⟨done, allFull, reached⟩
    refine (decryptStep_ends reached).mono ?_ (fun _ _ quiet => quiet)
    rintro outcome after ⟨chunk, next, framed, advanced, rfl⟩
    rcases framed with ⟨tag, width⟩ | ⟨tag, width⟩
    · have more : ¬ chunk.wire.termTag = 0x01 := by
        rw [tag]
        decide
      rw [if_neg more]
      exact ⟨done ++ [chunk], full_concat allFull ⟨tag, width⟩, advanced⟩
    · rw [if_pos tag]
      exact ⟨done, chunk, allFull, ⟨tag, width⟩, advanced⟩
  · exact ⟨[], fun _ none => absurd none List.not_mem_nil, progress⟩

/-! ## After the chunks -/

/-- What the trailer stage records: in Mode 1 the sender, and a notice on standard error. -/
def TrailerEvents (header : StreamHeader) (events : List Event) : Prop :=
  (header.mode = 0x02 ∧ events = []) ∨
    (header.mode = 0x01 ∧ ∃ senderPub, ∃ notices : List String,
      events = .trailerAuthenticated senderPub :: notices.map .stderr)

theorem TrailerEvents.stdout {header : StreamHeader} {events : List Event}
    (recorded : TrailerEvents header events) : events.flatMap Event.stdoutBytes = [] := by
  rcases recorded with ⟨_, rfl⟩ | ⟨_, senderPub, notices, rfl⟩
  · rfl
  · rw [List.flatMap_eq_nil_iff]
    intro event member
    rcases List.mem_cons.mp member with rfl | notice
    · rfl
    · obtain ⟨text, _, rfl⟩ := List.mem_map.mp notice
      rfl

theorem authenticateTrailer_ends (header : StreamHeader) (one : header.mode = 0x01)
    (hashed : Bytes) (process : Process) :
    Ends (fun _ after => ∃ trailer events,
        content process.stdin = trailer.toList ++ content after.stdin ∧
        TrailerVerifies crates args header.hmac16 hashed trailer ∧
        TrailerEvents header events ∧ after.events = process.events ++ events ∧
        (Smooth process.stdin → Smooth after.stdin))
      (fun _ after => after.events = process.events)
      (authenticateTrailer crates args header hashed process) := by
  rw [authenticateTrailer, ends_bind]
  refine (readStdin_ends _ _ process).mono ?_ (fun _ _ same => same)
  rintro trailer first ⟨content_eq, events_eq, smooth⟩
  rw [ends_bind]
  refine ends_orFail ?_ ?_
  · intro _ verified
    rw [ends_bind]
    refine ends_orFail ?_ ?_
    · intro notice compared
      rw [ends_bind, ends_record]
      have verifies : TrailerVerifies crates args header.hmac16 hashed trailer :=
        ⟨verifyTrailer_eq_ok_iff.mp verified, compareSender_eq_ok compared⟩
      cases notice with
      | none =>
          refine ⟨trailer, [.trailerAuthenticated (trailer.slice 0 32)], content_eq, verifies,
            .inr ⟨one, trailer.slice 0 32, [], rfl⟩, ?_, smooth⟩
          rw [events_eq]
      | some text =>
          refine ⟨trailer, [.trailerAuthenticated (trailer.slice 0 32), .stderr (text ++ "\n")],
            content_eq, verifies, .inr ⟨one, trailer.slice 0 32, [text ++ "\n"], rfl⟩, ?_, smooth⟩
          rw [events_eq]
          exact List.append_assoc _ _ _
    · intro _ _
      exact events_eq
  · intro _ _
    exact events_eq

theorem trailerStage_ends (header : StreamHeader) {hashed plaintext : Bytes}
    (known : header.mode = 0x01 ∨ header.mode = 0x02)
    (absorbed : header.mode = 0x01 → hashed = plaintext) (process : Process) :
    Ends (fun _ after => ∃ trailer events,
        content process.stdin = trailer ++ content after.stdin ∧
        TrailerConforms crates args header plaintext trailer ∧
        TrailerEvents header events ∧ after.events = process.events ++ events ∧
        (Smooth process.stdin → Smooth after.stdin))
      (fun _ after => after.events = process.events)
      (trailerStage crates args header hashed process) := by
  unfold trailerStage
  by_cases one : header.mode = 0x01
  · rw [if_pos one]
    refine (authenticateTrailer_ends header one hashed process).mono ?_ (fun _ _ same => same)
    rintro _ after ⟨trailer, events, content_eq, verifies, recorded, events_eq, smooth⟩
    rw [absorbed one] at verifies
    exact ⟨trailer.toList, events, content_eq, .inr ⟨one, trailer, rfl, verifies⟩, recorded,
      events_eq, smooth⟩
  · rw [if_neg one, ends_pure]
    have two : header.mode = 0x02 := known.resolve_left one
    exact ⟨[], [], rfl, .inl ⟨two, rfl⟩, .inl ⟨two, rfl⟩, (List.append_nil _).symm, id⟩

theorem assertEndOfInput_ends (process : Process) :
    Ends (fun _ after => content process.stdin = content after.stdin ∧
        (Smooth process.stdin → content process.stdin = []) ∧
        after.events = process.events ++ [.endOfInput])
      (fun _ after => after.events = process.events) (assertEndOfInput process) := by
  rw [assertEndOfInput, ends_bind, onStdin, ends_modifyGet]
  cases reading : read 1 process.stdin with
  | mk outcome rest =>
      rcases outcome with _ | _ | ⟨_, _⟩
      · rfl
      · refine ⟨(read_ok_content reading).1, fun smooth => ?_, rfl⟩
        obtain ⟨bytes, rest', reading', _, _, ended⟩ := read_smooth Nat.one_pos smooth
        rw [reading] at reading'
        cases reading'
        exact ended rfl
      · rfl

theorem releaseToStdout_of_holds {aead : Cipher} {spool : Spool} {written : Bytes}
    (holds : Spool.Holds aead spool written)
    (inverts : aead.Inverts spool.spooler.spoolKey spoolChunkSize) (honest : spool.disk.Honest)
    (process : Process) :
    spool.releaseToStdout aead process =
      .ok () ⟨process.stdin, process.events ++ [.stdout written]⟩ := by
  obtain ⟨rest, released⟩ := Spool.releaseTo_of_holds holds inverts honest
  rw [Spool.file] at released
  rw [Spool.releaseToStdout, released]
  rfl

theorem releaseToStdout_ends (aead : Cipher) (spool : Spool) (process : Process) :
    Ends (fun _ after => after.stdin = process.stdin ∧
        ∃ released, after.events = process.events ++ [.stdout released])
      (fun _ _ => True) (spool.releaseToStdout aead process) := by
  unfold Spool.releaseToStdout
  cases Spool.releaseTo aead spool.spooler
      (spool.disk.readBack (spool.spooler.diskFile.getD [])) with
  | ok _ release => exact ⟨rfl, _, rfl⟩
  | error error release => trivial

/-! ## Whole runs -/

/-- The spool's assumptions: its cipher opens what it sealed, and the file is honest. -/
structure SpoolTrusted (crates : Crates) (host : Host) : Prop where
  inverts : crates.aead.Inverts host.spoolKey spoolChunkSize
  honest : host.disk.Honest

/-- What an accepted run has read and recorded; the release is known for a trusted spool. -/
structure AcceptedRun (crates : Crates) (host : Host) (args : DecryptArgs) (stdin : Reader)
    (stream : Stream) (final : Process) : Prop where
  conforms : ∃ recipPriv signingKey, loadSecretKey crates host args.keyArgs = .ok recipPriv ∧
    crates.curve.signingKey recipPriv = .ok signingKey ∧
    stream.Conforms crates args recipPriv (crates.curve.publicBytes signingKey)
  content_eq : content stdin = stream.bytes ++ content final.stdin
  exhausted : Smooth stdin → content final.stdin = []
  events : ∃ trailerEvents released, TrailerEvents stream.header trailerEvents ∧
    final.events = chunkEvents args 0 stream.chunks ++ (trailerEvents ++ .endOfInput ::
      if args.allowUnverifiedStream then [] else [.stdout released]) ∧
    (args.allowUnverifiedStream = false → SpoolTrusted crates host → released = stream.plaintext)

theorem AcceptedRun.stdout {stdin : Reader} {stream : Stream} {final : Process}
    (accepted : AcceptedRun crates host args stdin stream final)
    (trusted : args.allowUnverifiedStream = false → SpoolTrusted crates host) :
    final.stdout = stream.plaintext := by
  obtain ⟨trailerEvents, released, recorded, events, whole⟩ := accepted.events
  rw [Process.stdout, events, List.flatMap_append, List.flatMap_append, stdout_chunkEvents,
    recorded.stdout]
  cases streaming : args.allowUnverifiedStream with
  | true => simp [Event.stdoutBytes, Stream.plaintext]
  | false => simp [Event.stdoutBytes, whole streaming (trusted streaming)]

theorem Process.stdout_of_events_start {stdin : Reader} {after : Process}
    (recorded : after.events = (Process.start stdin).events) : after.stdout = [] := by
  rw [Process.stdout, recorded]
  rfl

/-- `run_decrypt` up to the trailer. -/
def decryptStream (crates : Crates) (host : Host) (args : DecryptArgs) : Run DecryptState := do
  let recipPriv ← orStop (loadSecretKey crates host args.keyArgs)
  let signingKey ← orFail (fun e => .usageError ("Invalid secret key: " ++ e))
    (crates.curve.signingKey recipPriv)
  let headerBytes ← readStdin
    (fun e => .wireCorruption ("Failed to read 97-byte header: " ++ e.message)) wireHeaderSize
  let header ← orFail id
    (checkHeader crates args recipPriv (crates.curve.publicBytes signingKey) headerBytes)
  let state ← decryptChunks crates args header ⟨0, Spool.start host args.maxSize, []⟩
  trailerStage crates args header state.hashed
  return state

/-- The release at the end of `run_decrypt`. -/
def releasePlaintext (crates : Crates) (args : DecryptArgs) (state : DecryptState) : Run Unit :=
  if args.allowUnverifiedStream then pure () else state.spool.releaseToStdout crates.aead

theorem runDecrypt_eq (crates : Crates) (host : Host) (args : DecryptArgs) :
    runDecrypt crates host args = (do
      let state ← decryptStream crates host args
      assertEndOfInput
      releasePlaintext crates args state) := by
  simp only [runDecrypt, decryptStream, releasePlaintext, bind_assoc, pure_bind]

/-- What a run has read and recorded once it is through the trailer. -/
structure StreamRead (crates : Crates) (host : Host) (args : DecryptArgs) (stdin : Reader)
    (stream : Stream) (state : DecryptState) (after : Process) : Prop where
  conforms : ∃ recipPriv signingKey, loadSecretKey crates host args.keyArgs = .ok recipPriv ∧
    crates.curve.signingKey recipPriv = .ok signingKey ∧
    stream.Conforms crates args recipPriv (crates.curve.publicBytes signingKey)
  content_eq : content stdin = stream.bytes ++ content after.stdin
  smooth : Smooth stdin → Smooth after.stdin
  events : ∃ trailerEvents, TrailerEvents stream.header trailerEvents ∧
    after.events = chunkEvents args 0 stream.chunks ++ trailerEvents
  spooled : args.allowUnverifiedStream = false →
    Spool.Holds crates.aead state.spool stream.plaintext ∧
      Spool.Continues (Spool.start host args.maxSize) state.spool

theorem StreamRead.stdout {stdin : Reader} {stream : Stream} {state : DecryptState}
    {after : Process} (streamRead : StreamRead crates host args stdin stream state after)
    (spooling : args.allowUnverifiedStream = false) : after.stdout = [] := by
  obtain ⟨trailerEvents, recorded, events⟩ := streamRead.events
  rw [Process.stdout, events, List.flatMap_append, stdout_chunkEvents, spooling, recorded.stdout]
  rfl

/-- A trusted spool gives back the plaintext. -/
theorem StreamRead.released {stdin : Reader} {stream : Stream} {state : DecryptState}
    {after : Process} (streamRead : StreamRead crates host args stdin stream state after)
    (spooling : args.allowUnverifiedStream = false) (trusted : SpoolTrusted crates host)
    (process : Process) :
    state.spool.releaseToStdout crates.aead process =
      .ok () ⟨process.stdin, process.events ++ [.stdout stream.plaintext]⟩ := by
  obtain ⟨holds, continues⟩ := streamRead.spooled spooling
  exact releaseToStdout_of_holds holds (continues.spoolKey ▸ trusted.inverts)
    (continues.honest trusted.honest) process

/-- For every behaviour of standard input: a run that is through the trailer has read a conforming
stream; one that stops before, and was to spool, has emitted nothing. -/
theorem decryptStream_ends (crates : Crates) (host : Host) (args : DecryptArgs) (stdin : Reader) :
    Ends (fun state after => ∃ stream, StreamRead crates host args stdin stream state after)
      (fun _ after => args.allowUnverifiedStream = false → after.stdout = [])
      (decryptStream crates host args (Process.start stdin)) := by
  have silent : ∀ {after : Process}, after.events = (Process.start stdin).events →
      args.allowUnverifiedStream = false → after.stdout = [] :=
    fun recorded _ => Process.stdout_of_events_start recorded
  rw [decryptStream, ends_bind]
  refine ends_orStop ?_ (fun _ _ => silent rfl)
  intro recipPriv loaded
  rw [ends_bind]
  refine ends_orFail ?_ (fun _ _ => silent rfl)
  intro signingKey valid
  rw [ends_bind]
  refine (readStdin_ends _ _ _).mono ?_ (fun _ _ recorded => silent recorded)
  rintro headerBytes first ⟨content₁, events₁, smooth₁⟩
  rw [ends_bind]
  refine ends_orFail ?_ (fun _ _ => silent events₁)
  intro header checked
  rw [ends_bind]
  have conformsHeader := checkHeader_eq_ok_iff.mp checked
  have begun : DecryptProgress crates args header first (Spool.start host args.maxSize) []
      ⟨0, Spool.start host args.maxSize, []⟩ first :=
    ⟨rfl, numbered_nil, rfl, by simp [plaintextOf], (List.append_nil _).symm, id,
      fun _ => ⟨Spool.holds_start crates.aead host args.maxSize, Spool.Continues.refl _⟩⟩
  refine (decryptChunks_ends begun).mono ?_ ?_
  · rintro state second ⟨full, last, allFull, terminal, progress⟩
    have known : header.mode = 0x01 ∨ header.mode = 0x02 := by
      rcases conformsHeader.permitted with ⟨one, _⟩ | ⟨two, _⟩
      · exact .inl one
      · exact .inr two
    rw [ends_bind]
    refine (trailerStage_ends header known
      (fun one => by rw [progress.hashed, if_pos one]) second).mono ?_ ?_
    · rintro _ third ⟨trailer, trailerEvents, content₃, conforms₃, recorded, events₃, smooth₃⟩
      let stream : Stream := ⟨headerBytes, header, full, last, trailer⟩
      have whole : content stdin = headerBytes.toList ++ content first.stdin := content₁
      rw [ends_pure]
      refine ⟨stream, ⟨recipPriv, signingKey, loaded, valid, conformsHeader, allFull, terminal,
        progress.opens, conforms₃⟩, ?_, fun smooth => smooth₃ (progress.smooth (smooth₁ smooth)),
        ⟨trailerEvents, recorded, ?_⟩, progress.spooled⟩
      · rw [whole, progress.content_eq, content₃]
        simp only [Stream.bytes, Stream.chunks, stream, List.append_assoc]
      · rw [events₃, progress.events, events₁, Process.events_start, List.nil_append]
        rfl
    · intro _ after same spooling
      rw [Process.stdout, same, progress.events, List.flatMap_append, stdout_chunkEvents, spooling]
      exact (List.append_nil _).trans (silent events₁ spooling)
  · intro _ after quiet spooling
    rw [quiet spooling]
    exact silent events₁ spooling

/-- For every behaviour of standard input: an accepted run has read a conforming stream and
emitted its plaintext; a refused run that was to spool has emitted nothing. -/
theorem runDecrypt_ends (crates : Crates) (host : Host) (args : DecryptArgs) (stdin : Reader) :
    Ends (fun _ final => ∃ stream, AcceptedRun crates host args stdin stream final)
      (fun _ final => args.allowUnverifiedStream = false → SpoolTrusted crates host →
        final.stdout = [])
      (runDecrypt crates host args (Process.start stdin)) := by
  rw [runDecrypt_eq, ends_bind]
  refine (decryptStream_ends crates host args stdin).mono ?_
    (fun _ _ silent spooling _ => silent spooling)
  rintro state third ⟨stream, streamRead⟩
  rw [ends_bind]
  refine (assertEndOfInput_ends third).mono ?_ ?_
  · rintro _ fourth ⟨content₄, ended, events₄⟩
    obtain ⟨trailerEvents, recorded, events₃⟩ := streamRead.events
    have consumed : content stdin = stream.bytes ++ content fourth.stdin := by
      rw [streamRead.content_eq, content₄]
    have exhausted : Smooth stdin → content fourth.stdin = [] := by
      intro smooth
      rw [← content₄]
      exact ended (streamRead.smooth smooth)
    rw [events₃, List.append_assoc] at events₄
    rw [releasePlaintext]
    cases streaming : args.allowUnverifiedStream with
    | true =>
        refine ⟨stream, streamRead.conforms, consumed, exhausted, trailerEvents, [], recorded, ?_,
          fun spooling => ?_⟩
        · rw [events₄, streaming]
          rfl
        · rw [streaming] at spooling
          cases spooling
    | false =>
        simp only [Bool.false_eq_true, ↓reduceIte]
        have released := streamRead.released streaming
        cases outcome : state.spool.releaseToStdout crates.aead fourth with
        | ok _ final =>
            obtain ⟨stdin_eq, output, events₅⟩ :=
              (releaseToStdout_ends crates.aead state.spool fourth).ok outcome
            refine ⟨stream, streamRead.conforms, ?_, ?_, trailerEvents, output, recorded, ?_,
              fun _ trusted => ?_⟩
            · rw [stdin_eq, consumed]
            · rw [stdin_eq]
              exact exhausted
            · rw [events₅, events₄, streaming, List.append_assoc, List.append_assoc]
              rfl
            · rw [released trusted fourth] at outcome
              cases outcome
              have outputs := List.append_cancel_left events₅
              exact (Event.stdout.inj (List.cons.inj outputs).1).symm
        | error error final =>
            intro _ trusted
            rw [released trusted fourth] at outcome
            cases outcome
  · intro _ after same spooling _
    rw [Process.stdout, same]
    exact streamRead.stdout spooling

end PipeK1
