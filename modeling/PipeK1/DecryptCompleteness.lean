import PipeK1.DecryptProperties

/-!
# Conforming streams are accepted

With short reads only and room on the disk, nothing stops the decryptor on a
conforming stream.
-/

set_option autoImplicit false

namespace PipeK1

open ByteData ByteReader Effects Numbering

variable {crates : Crates} {host : Host} {args : DecryptArgs}

theorem readChunk_of_framed {chunk : WireChunk} (framed : chunk.Framed) {process : Process}
    (patient : Patient process.stdin) {later : Bytes}
    (upcoming : content process.stdin = chunk.bytes ++ later) :
    ∃ rest, readChunk process = .ok chunk ⟨rest, process.events⟩ ∧ content rest = later ∧
      Patient rest ∧ (Smooth process.stdin → Smooth rest) := by
  have fits := framed.length_le
  have lenNat : (UInt32.ofNat chunk.ciphertext.length).toNat = chunk.ciphertext.length :=
    UInt32.toNat_ofNat_of_lt' (Nat.lt_of_le_of_lt fits (by decide))
  let lenField := u32Be (UInt32.ofNat chunk.ciphertext.length)
  let chunkHdr : FixedBytes chunkHeaderSize := lenField.append (FixedBytes.single chunk.termTag)
  have lenRead : (u32FromBe (chunkHdr.slice 0 4)).toNat = chunk.ciphertext.length := by
    rw [FixedBytes.slice_append_left _ _ 0 4 (by decide), FixedBytes.slice_whole,
      u32FromBe_u32Be, lenNat]
  have tagRead : chunkHdr.byteAt 4 = chunk.termTag :=
    FixedBytes.byteAt_append_single lenField chunk.termTag (by decide)
  obtain ⟨file₁, read₁, content₁, patient₁, smooth₁⟩ := readExact_patient patient chunkHdr
    (chunk.ciphertext ++ (chunk.tag.toList ++ later)) (by
      rw [upcoming]
      simp [chunkHdr, lenField, WireChunk.bytes])
  obtain ⟨file₂, read₂, content₂, patient₂, smooth₂⟩ := readExact_patient patient₁
    (⟨chunk.ciphertext, lenRead.symm⟩ : FixedBytes (u32FromBe (chunkHdr.slice 0 4)).toNat)
    (chunk.tag.toList ++ later) content₁
  obtain ⟨file₃, read₃, content₃, patient₃, smooth₃⟩ :=
    readExact_patient patient₂ chunk.tag later content₂
  refine ⟨file₃, ?_, content₃, patient₃, fun smooth => smooth₃ (smooth₂ (smooth₁ smooth))⟩
  have known : ¬ (chunkHdr.byteAt 4 ≠ 0x00 ∧ chunkHdr.byteAt 4 ≠ 0x01) := by
    rw [tagRead]
    rcases framed with ⟨tag, _⟩ | ⟨tag, _⟩ <;> simp [tag]
  have full : ¬ (chunkHdr.byteAt 4 = 0x00 ∧ (u32FromBe (chunkHdr.slice 0 4)).toNat ≠ chunkSize) := by
    rw [tagRead, lenRead]
    rcases framed with ⟨_, whole⟩ | ⟨tag, _⟩
    · exact fun short => short.2 whole
    · simp [tag]
  have small : ¬ (u32FromBe (chunkHdr.slice 0 4)).toNat > chunkSize := by
    rw [lenRead]
    exact Nat.not_lt.mpr fits
  rw [readChunk, bind_of_ok (readStdin_of_readExact read₁)]
  simp only [known, full, small, ↓reduceIte]
  rw [bind_of_ok (readStdin_of_readExact read₂), bind_of_ok (readStdin_of_readExact read₃)]
  simp only [tagRead]
  rfl

/-! ## The chunk loop -/

/-- The spool can take `total` once it holds `before`, a part of it. -/
structure SpoolRoom (crates : Crates) (spool : Spool) (before total : Bytes) : Prop where
  holds : Spool.Holds crates.aead spool before
  inverts : crates.aead.Inverts spool.spooler.spoolKey spoolChunkSize
  honest : spool.disk.Honest
  takes : spool.disk.Takes (21 * total.length)
  ceiling : ∀ max, spool.spooler.maxSize = some max → total.length ≤ max.toNat

theorem SpoolRoom.write {spool : Spool} {before total : Bytes}
    (room : SpoolRoom crates spool before total) {plaintext more : Bytes}
    (whole : before ++ (plaintext ++ more) = total) :
    ∃ after, spool.writeChunk crates.aead plaintext = .ok () after ∧
      SpoolRoom crates after (before ++ plaintext) total ∧
      after.spooler.maxSize = spool.spooler.maxSize := by
  have short : (before ++ plaintext).length ≤ total.length := by
    rw [← whole, ← List.append_assoc, @List.length_append _ (before ++ plaintext)]
    omega
  have writing := Spool.writeChunk_ends crates.aead plaintext before spool room.holds
  cases written : spool.writeChunk crates.aead plaintext with
  | error error after =>
      rcases writing.error written with ⟨max, ceiling, beyond⟩ | stuck
      · have allowed := room.ceiling max ceiling
        have small : (before ++ plaintext).length < UInt64.size :=
          Nat.lt_of_le_of_lt (short.trans allowed) max.toNat_lt
        have exceeds := UInt64.lt_iff_toNat_lt.mp beyond
        rw [UInt64.toNat_ofNat_of_lt' small] at exceeds
        omega
      · refine absurd ⟨room.inverts.sealsUpTo, (Spool.Continues.refl spool).takes room.takes ?_⟩ stuck
        omega
  | ok value after =>
      obtain ⟨holds, continues, _⟩ := writing.ok written
      refine ⟨after, rfl, ⟨holds, continues.spoolKey ▸ room.inverts,
        continues.honest room.honest, continues.takes room.takes (Nat.le_refl _), ?_⟩,
        continues.maxSize⟩
      rw [continues.maxSize]
      exact room.ceiling

theorem SpoolRoom.writeChunks {spool : Spool} {before total : Bytes} {plaintexts : List Bytes}
    (room : SpoolRoom crates spool before total) (whole : before ++ plaintexts.flatten = total) :
    ∃ after, Spool.writeChunks crates.aead plaintexts spool = .ok () after ∧
      SpoolRoom crates after total total := by
  induction plaintexts generalizing before spool with
  | nil =>
      rw [List.flatten_nil, List.append_nil] at whole
      exact ⟨spool, rfl, by rwa [whole] at room⟩
  | cons plaintext plaintexts ih =>
      rw [List.flatten_cons] at whole
      obtain ⟨middle, written, room', _⟩ := room.write whole
      obtain ⟨after, writing, room''⟩ := ih room' (by rw [List.append_assoc, whole])
      refine ⟨after, ?_, room''⟩
      rw [Spool.writeChunks, bind_of_ok written]
      exact writing

/-- A chunk that opens is refused by the spool only. -/
theorem decryptStep_opened {header : StreamHeader} {chunk : StreamChunk} {state : DecryptState}
    {process : Process} {later : Bytes} (framed : chunk.wire.Framed)
    (opens : StreamChunk.Opens crates header state.chunkCounter chunk)
    (patient : Patient process.stdin)
    (upcoming : content process.stdin = chunk.wire.bytes ++ later) :
    Ends (fun outcome after => ∃ spool,
        outcome = (if chunk.wire.termTag = 0x01 then
          .inr ⟨state.chunkCounter + 1, spool,
            if header.mode = 0x01 then state.hashed ++ chunk.plaintext else state.hashed⟩
        else
          .inl ⟨state.chunkCounter + 1, spool,
            if header.mode = 0x01 then state.hashed ++ chunk.plaintext else state.hashed⟩) ∧
        content after.stdin = later ∧ Patient after.stdin ∧
        (Smooth process.stdin → Smooth after.stdin) ∧
        (args.allowUnverifiedStream = false →
          state.spool.writeChunk crates.aead chunk.plaintext = .ok () spool))
      (fun _ _ => args.allowUnverifiedStream = false ∧
        ∃ error spool, state.spool.writeChunk crates.aead chunk.plaintext = .error error spool)
      (decryptStep crates args header state process) := by
  obtain ⟨rest, reading, content_eq, patient', quiet⟩ :=
    readChunk_of_framed framed patient upcoming
  have opened : openChunk crates header state.chunkCounter chunk.wire = .ok chunk.plaintext :=
    opens
  rw [decryptStep, bind_of_ok reading]
  simp only [opened, ends_bind, ends_record]
  refine (deliverChunk_ends crates args chunk.plaintext state.spool _).mono ?_ ?_
  · rintro spool after ⟨stdin_eq, delivered⟩
    rw [ends_pure, stdin_eq]
    refine ⟨spool, rfl, content_eq, patient', quiet, fun spooling => ?_⟩
    simp only [spooling, Bool.false_eq_true, ↓reduceIte] at delivered
    exact delivered.1
  · rintro _ _ ⟨spooling, _, error, spool, refused, _⟩
    exact ⟨spooling, error, spool, refused⟩

theorem decryptStep_of_opens {header : StreamHeader} {chunk : StreamChunk} {state : DecryptState}
    {process : Process} {before total more later : Bytes} (framed : chunk.wire.Framed)
    (opens : StreamChunk.Opens crates header state.chunkCounter chunk)
    (patient : Patient process.stdin)
    (upcoming : content process.stdin = chunk.wire.bytes ++ later)
    (whole : before ++ (chunk.plaintext ++ more) = total)
    (room : args.allowUnverifiedStream = false → SpoolRoom crates state.spool before total) :
    ∃ spool process', decryptStep crates args header state process =
        .ok (if chunk.wire.termTag = 0x01 then
          .inr ⟨state.chunkCounter + 1, spool,
            if header.mode = 0x01 then state.hashed ++ chunk.plaintext else state.hashed⟩
        else
          .inl ⟨state.chunkCounter + 1, spool,
            if header.mode = 0x01 then state.hashed ++ chunk.plaintext else state.hashed⟩)
          process' ∧
      content process'.stdin = later ∧ Patient process'.stdin ∧
      (Smooth process.stdin → Smooth process'.stdin) ∧
      (args.allowUnverifiedStream = false →
        SpoolRoom crates spool (before ++ chunk.plaintext) total ∧
          spool.spooler.maxSize = state.spool.spooler.maxSize) := by
  have stepping := @decryptStep_opened crates args header chunk state process later framed opens
    patient upcoming
  cases stepped : decryptStep crates args header state process with
  | ok outcome process' =>
      obtain ⟨spool, rfl, content_eq, patient', quiet, accepted⟩ := stepping.ok stepped
      refine ⟨spool, process', rfl, content_eq, patient', quiet, fun spooling => ?_⟩
      obtain ⟨after, written, room', limited⟩ := (room spooling).write whole
      rw [accepted spooling] at written
      cases written
      exact ⟨room', limited⟩
  | error stop process' =>
      obtain ⟨spooling, error, spool, refused⟩ := stepping.error stepped
      obtain ⟨after, written, _⟩ := (room spooling).write whole
      rw [refused] at written
      cases written

theorem flatten_plaintexts (chunks : List StreamChunk) :
    (chunks.map StreamChunk.plaintext).flatten = plaintextOf chunks :=
  List.flatMap_def.symm

/-- Where the loop is while the chunks `full ++ [last]` are still to come. -/
structure ChunksAhead (crates : Crates) (header : StreamHeader) (full : List StreamChunk)
    (last : StreamChunk) (later : Bytes) (state : DecryptState) (process : Process) : Prop where
  patient : Patient process.stdin
  content_eq : content process.stdin = wireBytes (full ++ [last]) ++ later
  opens : Numbered (StreamChunk.Opens crates header) state.chunkCounter (full ++ [last])
  allFull : ∀ chunk ∈ full, chunk.Full
  terminal : last.Terminal

/-- Chunks that open are all taken, unless the spool refuses one. -/
theorem decryptChunks_opened {header : StreamHeader} {full : List StreamChunk}
    {last : StreamChunk} {later : Bytes} {state : DecryptState} {process : Process}
    (ahead : ChunksAhead crates header full last later state process) :
    Ends (fun final after => content after.stdin = later ∧ Patient after.stdin ∧
        (Smooth process.stdin → Smooth after.stdin) ∧
        (header.mode = 0x01 → final.hashed = state.hashed ++ plaintextOf (full ++ [last])) ∧
        (args.allowUnverifiedStream = false → Spool.writeChunks crates.aead
          ((full ++ [last]).map StreamChunk.plaintext) state.spool = .ok () final.spool))
      (fun _ _ => args.allowUnverifiedStream = false ∧ ∃ error spool,
        Spool.writeChunks crates.aead ((full ++ [last]).map StreamChunk.plaintext) state.spool =
          .error error spool)
      (decryptChunks crates args header state process) := by
  unfold decryptChunks
  induction full generalizing state process with
  | nil =>
      have opens := (numbered_cons_iff.mp ahead.opens).1
      have content_eq := ahead.content_eq
      simp only [wireBytes, List.nil_append, List.flatMap_cons, List.flatMap_nil,
        List.append_nil] at content_eq
      have stepping := @decryptStep_opened crates args header last state process later
        (.inr ahead.terminal) opens ahead.patient content_eq
      cases stepped : decryptStep crates args header state process with
      | error stop after =>
          obtain ⟨spooling, error, spool, refused⟩ := stepping.error stepped
          rw [loop_of_error stepped]
          exact ⟨spooling, error, spool, bind_of_error refused⟩
      | ok outcome after =>
          obtain ⟨spool, rfl, content', patient', quiet, accepted⟩ := stepping.ok stepped
          rw [if_pos ahead.terminal.1] at stepped
          rw [loop_of_done stepped]
          refine ⟨content', patient', quiet, fun one => ?_, fun spooling => ?_⟩
          · simp [one, plaintextOf]
          · exact bind_of_ok (accepted spooling)
  | cons chunk full ih =>
      obtain ⟨opens, opensLater⟩ := numbered_cons_iff.mp ahead.opens
      have isFull := ahead.allFull chunk List.mem_cons_self
      have upcoming : content process.stdin =
          chunk.wire.bytes ++ (wireBytes (full ++ [last]) ++ later) := by
        rw [ahead.content_eq]
        simp [wireBytes]
      have more : ¬ chunk.wire.termTag = 0x01 := by
        rw [isFull.1]
        decide
      have stepping := @decryptStep_opened crates args header chunk state process _ (.inl isFull)
        opens ahead.patient upcoming
      cases stepped : decryptStep crates args header state process with
      | error stop after =>
          obtain ⟨spooling, error, spool, refused⟩ := stepping.error stepped
          rw [loop_of_error stepped]
          exact ⟨spooling, error, spool, bind_of_error refused⟩
      | ok outcome after =>
          obtain ⟨spool, rfl, content', patient', quiet, accepted⟩ := stepping.ok stepped
          rw [if_neg more] at stepped
          rw [loop_of_next stepped]
          have ahead' : ChunksAhead crates header full last later ⟨state.chunkCounter + 1, spool,
              if header.mode = 0x01 then state.hashed ++ chunk.plaintext else state.hashed⟩ after :=
            ⟨patient', content', opensLater,
              fun other member => ahead.allFull other (List.mem_cons_of_mem _ member),
              ahead.terminal⟩
          refine (ih ahead').mono ?_ ?_
          · rintro final last' ⟨content'', patient'', quiet', hashed, written⟩
            refine ⟨content'', patient'', fun smooth => quiet' (quiet smooth), fun one => ?_,
              fun spooling => ?_⟩
            · rw [hashed one]
              simp [one, plaintextOf]
            · exact (bind_of_ok (accepted spooling)).trans (written spooling)
          · rintro stop last' ⟨spooling, error, refusing, refused⟩
            exact ⟨spooling, error, refusing, (bind_of_ok (accepted spooling)).trans refused⟩

/-- Where the loop is when there is room for the plaintext of the chunks to come. -/
structure DecryptAhead (crates : Crates) (args : DecryptArgs) (header : StreamHeader)
    (before total : Bytes) (full : List StreamChunk) (last : StreamChunk) (later : Bytes)
    (state : DecryptState) (process : Process) : Prop where
  smooth : Smooth process.stdin
  content_eq : content process.stdin = wireBytes (full ++ [last]) ++ later
  opens : Numbered (StreamChunk.Opens crates header) state.chunkCounter (full ++ [last])
  allFull : ∀ chunk ∈ full, chunk.Full
  terminal : last.Terminal
  whole : before ++ plaintextOf (full ++ [last]) = total
  hashed : header.mode = 0x01 → state.hashed = before
  room : args.allowUnverifiedStream = false → SpoolRoom crates state.spool before total

theorem decryptChunks_of_ahead {header : StreamHeader} {before total later : Bytes}
    {full : List StreamChunk} {last : StreamChunk} {state : DecryptState} {process : Process}
    (ahead : DecryptAhead crates args header before total full last later state process) :
    ∃ final process', decryptChunks crates args header state process = .ok final process' ∧
      content process'.stdin = later ∧ Smooth process'.stdin ∧
      (header.mode = 0x01 → final.hashed = total) ∧
      (args.allowUnverifiedStream = false → SpoolRoom crates final.spool total total) := by
  have taking : args.allowUnverifiedStream = false → ∃ after, Spool.writeChunks crates.aead
      ((full ++ [last]).map StreamChunk.plaintext) state.spool = .ok () after ∧
        SpoolRoom crates after total total :=
    fun spooling => (ahead.room spooling).writeChunks (by
      rw [flatten_plaintexts, ahead.whole])
  have running := @decryptChunks_opened crates args header full last later state process
    ⟨ahead.smooth.patient, ahead.content_eq, ahead.opens, ahead.allFull, ahead.terminal⟩
  cases ran : decryptChunks crates args header state process with
  | error stop after =>
      obtain ⟨spooling, error, spool, refused⟩ := running.error ran
      obtain ⟨after, written, _⟩ := taking spooling
      rw [refused] at written
      cases written
  | ok final after =>
      obtain ⟨content', _, quiet, hashed, writing⟩ := running.ok ran
      refine ⟨final, after, rfl, content', quiet ahead.smooth, fun one => ?_, fun spooling => ?_⟩
      · rw [hashed one, ahead.hashed one, ahead.whole]
      · obtain ⟨spool, written, room⟩ := taking spooling
        rw [writing spooling] at written
        cases written
        exact room

/-! ## Whole runs -/

theorem trailerStage_of_conforms {header : StreamHeader} {hashed plaintext trailer : Bytes}
    (conforms : TrailerConforms crates args header plaintext trailer)
    (absorbed : header.mode = 0x01 → hashed = plaintext) {process : Process}
    (patient : Patient process.stdin) {later : Bytes}
    (upcoming : content process.stdin = trailer ++ later) :
    ∃ process', trailerStage crates args header hashed process = .ok () process' ∧
      content process'.stdin = later ∧ (Smooth process.stdin → Smooth process'.stdin) := by
  rcases conforms with ⟨two, rfl⟩ | ⟨one, array, rfl, verifies⟩
  · have other : ¬ header.mode = 0x01 := by
      rw [two]
      decide
    exact ⟨process, by rw [trailerStage, if_neg other]; rfl, upcoming, id⟩
  · obtain ⟨rest, reading, content_eq, _, quiet⟩ :=
      readExact_patient patient array later upcoming
    obtain ⟨notice, compared⟩ := compareSender_ok verifies.sender
    have verified : verifyTrailer crates header.hmac16 hashed array = .ok () := by
      rw [absorbed one]
      exact verifyTrailer_eq_ok_iff.mpr verifies.authentic
    rw [trailerStage, if_pos one, authenticateTrailer,
      bind_of_ok (readStdin_of_readExact reading), verified, compared]
    cases notice with
    | none => exact ⟨⟨rest, _⟩, rfl, content_eq, quiet⟩
    | some text => exact ⟨⟨rest, _⟩, rfl, content_eq, quiet⟩

/-- The spool takes the stream's plaintext, chunk by chunk. -/
def SpoolTakes (crates : Crates) (host : Host) (maxSize : Option UInt64) (stream : Stream) : Prop :=
  ∃ spool, Spool.writeChunks crates.aead (stream.chunks.map StreamChunk.plaintext)
    (Spool.start host maxSize) = .ok () spool

/-- On a conforming stream a run gets through the trailer, unless the spool refuses a chunk. -/
theorem decryptStream_of_conforms {recipPriv : FixedBytes 32}
    {signingKey : crates.curve.SigningKey}
    (loaded : loadSecretKey crates host args.keyArgs = .ok recipPriv)
    (valid : crates.curve.signingKey recipPriv = .ok signingKey) {stream : Stream}
    (conforms : stream.Conforms crates args recipPriv (crates.curve.publicBytes signingKey))
    {stdin : Reader} (patient : Patient stdin) (content_eq : content stdin = stream.bytes) :
    Ends (fun _ after => content after.stdin = [] ∧ (Smooth stdin → after.stdin = []) ∧
        (args.allowUnverifiedStream = false → SpoolTakes crates host args.maxSize stream))
      (fun _ _ => args.allowUnverifiedStream = false ∧
        ¬ SpoolTakes crates host args.maxSize stream)
      (decryptStream crates host args (Process.start stdin)) := by
  obtain ⟨rest, reading, content₁, patient₁, smooth₁⟩ :=
    readExact_patient patient stream.headerBytes _ content_eq
  have checked := checkHeader_eq_ok_iff.mpr conforms.header
  have started : readStdin (fun e => .wireCorruption ("Failed to read 97-byte header: " ++
      e.message)) wireHeaderSize (Process.start stdin) = .ok stream.headerBytes ⟨rest, []⟩ :=
    readStdin_of_readExact reading
  rw [decryptStream, loaded, bind_of_ok (show orStop _ _ = .ok recipPriv _ from rfl), valid,
    bind_of_ok (show orFail _ _ _ = .ok signingKey _ from rfl), bind_of_ok started, checked,
    bind_of_ok (show orFail _ _ _ = .ok stream.header _ from rfl), ends_bind]
  have ahead : ChunksAhead crates stream.header stream.full stream.last stream.trailer
      ⟨0, Spool.start host args.maxSize, []⟩ ⟨rest, []⟩ :=
    ⟨patient₁, content₁, conforms.opens, conforms.full, conforms.last⟩
  refine (decryptChunks_opened ahead).mono ?_ ?_
  · rintro state second ⟨content₂, patient₂, smooth₂, hashed, taken⟩
    obtain ⟨third, trailing, content₃, smooth₃⟩ := trailerStage_of_conforms conforms.trailer
      hashed patient₂ (content₂.trans (List.append_nil _).symm)
    rw [ends_bind, trailing]
    exact ⟨content₃, fun smooth => (smooth₃ (smooth₂ (smooth₁ smooth))).eq_nil content₃,
      fun spooling => ⟨_, taken spooling⟩⟩
  · rintro stop after ⟨spooling, error, spool, refused⟩
    refine ⟨spooling, ?_⟩
    rintro ⟨taken, writing⟩
    rw [Stream.chunks, refused] at writing
    cases writing

theorem assertEndOfInput_of_empty {process : Process} (empty : process.stdin = []) :
    assertEndOfInput process = .ok () ⟨[], process.events ++ [.endOfInput]⟩ := by
  have reading : onStdin (read 1) process = .ok (.ok []) ⟨[], process.events⟩ := by
    change EStateM.Result.ok _ _ = _
    rw [empty]
    rfl
  rw [assertEndOfInput, bind_of_ok reading]
  rfl

/-- Room for a stream's plaintext: no disk failure, and every block fits. -/
structure SpoolReady (crates : Crates) (host : Host) (maxSize : Option UInt64)
    (plaintext : Bytes) : Prop where
  trusted : SpoolTrusted crates host
  takes : host.disk.Takes (21 * plaintext.length)
  ceiling : ∀ max, maxSize = some max → plaintext.length ≤ max.toNat

theorem runDecrypt_of_conforms {recipPriv : FixedBytes 32} {signingKey : crates.curve.SigningKey}
    (loaded : loadSecretKey crates host args.keyArgs = .ok recipPriv)
    (valid : crates.curve.signingKey recipPriv = .ok signingKey) {stream : Stream}
    (conforms : stream.Conforms crates args recipPriv (crates.curve.publicBytes signingKey))
    (ready : args.allowUnverifiedStream = false →
      SpoolReady crates host args.maxSize stream.plaintext)
    {stdin : Reader} (smooth : Smooth stdin) (content_eq : content stdin = stream.bytes) :
    ∃ final, runDecrypt crates host args (Process.start stdin) = .ok () final := by
  have takes : args.allowUnverifiedStream = false →
      SpoolTakes crates host args.maxSize stream := by
    intro spooling
    have room : SpoolRoom crates (Spool.start host args.maxSize) [] stream.plaintext :=
      ⟨Spool.holds_start crates.aead host args.maxSize, (ready spooling).trusted.inverts,
        (ready spooling).trusted.honest, (ready spooling).takes, (ready spooling).ceiling⟩
    obtain ⟨spool, written, _⟩ := room.writeChunks (flatten_plaintexts stream.chunks)
    exact ⟨spool, written⟩
  have streaming := decryptStream_of_conforms loaded valid conforms smooth.patient content_eq
  rw [runDecrypt_eq]
  cases ran : decryptStream crates host args (Process.start stdin) with
  | error stop after =>
      obtain ⟨spooling, refused⟩ := streaming.error ran
      exact absurd (takes spooling) refused
  | ok state after =>
      obtain ⟨_, ended, _⟩ := streaming.ok ran
      obtain ⟨stream', streamRead⟩ := (decryptStream_ends crates host args stdin).ok ran
      rw [bind_of_ok ran, bind_of_ok (assertEndOfInput_of_empty (ended smooth)), releasePlaintext]
      cases spooling : args.allowUnverifiedStream with
      | true => exact ⟨_, rfl⟩
      | false => exact ⟨_, streamRead.released spooling (ready spooling).trusted _⟩

end PipeK1
