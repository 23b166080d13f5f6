import PipeK1.CanonicalFraming
import PipeK1.DecryptExitCodes
import PipeK1.StreamingRefinement

/-!
# Streams as they come in

What a beginning of the input already settles: the first chunks an encryption
writes, the refusal of a stream, and what an unverified decryption has put out.
The last gives the plaintext that a cut stream still yields.
-/

set_option autoImplicit false

namespace PipeK1

open ByteData ByteReader Effects Numbering

variable {crates : Crates} {host : Host}

/-! ## Encryption -/

section Encrypt

variable {session : EncryptSession crates}

/-- Sealing is a function of the number, the terminal tag and the plaintext. -/
theorem EncryptSession.Seals.wire_eq {counter : UInt64} {left right : StreamChunk}
    (seals : session.Seals counter left) (seals' : session.Seals counter right)
    (tags : left.wire.termTag = right.wire.termTag) (plaintexts : left.plaintext = right.plaintext) :
    left.wire = right.wire := by
  cases left with
  | mk wire plaintext =>
      cases right with
      | mk wire' plaintext' =>
          simp only [EncryptSession.Seals] at seals seals' tags plaintexts ⊢
          subst plaintexts
          rw [tags] at seals
          have sealed := Except.ok.inj (seals.symm.trans seals')
          cases wire
          cases wire'
          simp only [WireChunk.mk.injEq]
          exact ⟨tags, congrArg Prod.fst sealed, congrArg Prod.snd sealed⟩

/-- What `blocks` full intermediate chunks take on the wire. -/
def intermediateSize (blocks : Nat) : Nat := blocks * (chunkSize + 21)

theorem CanonicalFraming.blocks_lt {data : Bytes} {chunks : List StreamChunk} {final : Process}
    (framing : CanonicalFraming host session data chunks final) {blocks : Nat}
    (longer : blocks * chunkSize < data.length) : blocks < chunks.length := by
  rw [framing.count]
  simp only [chunkCount, chunkSize] at longer ⊢
  omega

/-- The chunks before a byte that is still to come are full intermediate ones. -/
theorem CanonicalFraming.front {data : Bytes} {chunks : List StreamChunk} {final : Process}
    (framing : CanonicalFraming host session data chunks final) {blocks : Nat}
    (longer : blocks * chunkSize < data.length) {i : Nat} (inside : i < blocks) :
    ∃ chunk, chunks[i]? = some chunk ∧ chunk.wire.termTag = 0x00 ∧
      chunk.plaintext = ((data.take (blocks * chunkSize)).drop (chunkSize * i)).take chunkSize := by
  have more := framing.blocks_lt longer
  have found : chunks[i]? = some chunks[i] := List.getElem?_eq_getElem (by omega)
  have within : chunkSize * i + chunkSize ≤ blocks * chunkSize := by
    rw [← Nat.mul_succ, Nat.mul_comm]
    exact Nat.mul_le_mul_right chunkSize inside
  refine ⟨chunks[i], found, (framing.intermediate i _ found (by omega)).1, ?_⟩
  rw [framing.piece i _ found, List.drop_take, List.take_take]
  congr 1
  omega

theorem CanonicalFraming.take_full {data : Bytes} {chunks : List StreamChunk} {final : Process}
    (framing : CanonicalFraming host session data chunks final) {blocks : Nat}
    (more : blocks < chunks.length) :
    ∀ chunk ∈ chunks.take blocks, chunk.wire.termTag = 0x00 ∧ chunk.plaintext.length = chunkSize := by
  intro chunk member
  obtain ⟨i, found⟩ := List.mem_iff_getElem?.mp member
  have inside := (List.getElem?_eq_some_iff.mp found).1
  rw [List.length_take] at inside
  rw [List.getElem?_take_of_lt (by omega)] at found
  exact framing.intermediate i chunk found (by omega)

theorem CanonicalFraming.length_front {data : Bytes} {chunks : List StreamChunk} {final : Process}
    (framing : CanonicalFraming host session data chunks final) {blocks : Nat}
    (more : blocks < chunks.length) :
    (wireBytes (chunks.take blocks)).length = intermediateSize blocks := by
  have count : (chunks.take blocks).length = blocks := List.length_take_of_le (Nat.le_of_lt more)
  have seals := framing.seals
  rw [← List.take_append_drop blocks chunks] at seals
  rw [length_wireBytes (numbered_append_iff.mp seals).1,
    length_plaintextOf_of_full fun chunk member => (framing.take_full more chunk member).2, count,
    intermediateSize, Nat.mul_add, Nat.mul_comm 21]

/-- Plaintexts that agree on their first blocks are written alike that far. -/
theorem CanonicalFraming.wires_eq {data data' : Bytes} {chunks chunks' : List StreamChunk}
    {final final' : Process} (framing : CanonicalFraming host session data chunks final)
    (framing' : CanonicalFraming host session data' chunks' final') {blocks : Nat}
    (same : data.take (blocks * chunkSize) = data'.take (blocks * chunkSize))
    (longer : blocks * chunkSize < data.length) (longer' : blocks * chunkSize < data'.length) :
    wireBytes (chunks.take blocks) = wireBytes (chunks'.take blocks) := by
  have wires : (chunks.take blocks).map StreamChunk.wire =
      (chunks'.take blocks).map StreamChunk.wire := by
    apply List.ext_getElem?
    intro i
    rw [List.getElem?_map, List.getElem?_map]
    by_cases inside : i < blocks
    · obtain ⟨chunk, found, tag, plaintext⟩ := framing.front longer inside
      obtain ⟨chunk', found', tag', plaintext'⟩ := framing'.front longer' inside
      rw [List.getElem?_take_of_lt inside, List.getElem?_take_of_lt inside, found, found']
      exact congrArg some (EncryptSession.Seals.wire_eq (framing.seals i chunk found)
        (framing'.seals i chunk' found') (tag.trans tag'.symm)
        (by rw [plaintext, plaintext', same]))
    · simp only [List.getElem?_take, inside, ↓reduceIte]
  have bytes : ∀ chunks : List StreamChunk,
      wireBytes chunks = (chunks.map StreamChunk.wire).flatMap WireChunk.bytes :=
    fun chunks => (List.flatMap_map StreamChunk.wire WireChunk.bytes chunks).symm
  rw [bytes, bytes, wires]

theorem CanonicalFraming.take_stdout {data : Bytes} {chunks : List StreamChunk} {final : Process}
    (framing : CanonicalFraming host session data chunks final) {blocks : Nat}
    (longer : blocks * chunkSize < data.length) :
    final.stdout.take (wireHeaderSize + intermediateSize blocks) =
      (session.header host).toList ++ wireBytes (chunks.take blocks) := by
  obtain ⟨trailer, stdout_eq⟩ := framing.stdout_eq
  have split : wireBytes chunks = wireBytes (chunks.take blocks) ++ wireBytes (chunks.drop blocks) := by
    rw [wireBytes, wireBytes, wireBytes, ← List.flatMap_append, List.take_append_drop]
  rw [stdout_eq, split, List.append_assoc, ← List.append_assoc]
  refine List.take_left' ?_
  rw [List.length_append, FixedBytes.length_toList,
    framing.length_front (framing.blocks_lt longer)]

end Encrypt

/-- The header and the first chunks depend on the blocks they carry alone, given that one more
byte follows: two plaintexts that agree so far are encrypted alike so far. -/
theorem runEncrypt_online (crates : Crates) (host : Host) (rounds : Nat) (args : EncryptArgs)
    (stdin stdin' : Reader) (smooth : Smooth stdin) (smooth' : Smooth stdin')
    (final final' : Process)
    (ran : runEncrypt crates host rounds args (Process.start stdin) = .ok () final)
    (ran' : runEncrypt crates host rounds args (Process.start stdin') = .ok () final')
    (blocks : Nat)
    (same : (content stdin).take (blocks * chunkSize) =
      (content stdin').take (blocks * chunkSize))
    (longer : blocks * chunkSize < (content stdin).length)
    (longer' : blocks * chunkSize < (content stdin').length) :
    final.stdout.take (wireHeaderSize + intermediateSize blocks) =
      final'.stdout.take (wireHeaderSize + intermediateSize blocks) := by
  obtain ⟨session, _, _, _, run, buffered⟩ :=
    (runEncrypt_buffers crates host rounds args stdin).ok ran
  obtain ⟨session', _, _, _, run', buffered'⟩ :=
    (runEncrypt_buffers crates host rounds args stdin').ok ran'
  have sessions : session' = session := Except.ok.inj (run'.session_eq.symm.trans run.session_eq)
  subst sessions
  have framing := run.framing smooth buffered
  have framing' := run'.framing smooth' buffered'
  rw [framing.take_stdout longer, framing'.take_stdout longer',
    framing.wires_eq framing' same longer longer']

open Reference in
/-- One block in common, then one byte here and two other bytes there. -/
theorem runEncrypt_online_sample :
    let block : Bytes := List.replicate chunkSize 0
    ∃ final final',
      runEncrypt packages (keyHost sampleSender sampleEphemeral) 0 (sealArgs false sampleRecipient)
        (Process.start (ofBytes (block ++ [1]))) = .ok () final ∧
      runEncrypt packages (keyHost sampleSender sampleEphemeral) 0 (sealArgs false sampleRecipient)
        (Process.start (ofBytes (block ++ [2, 3]))) = .ok () final' ∧
      final.stdout.take (wireHeaderSize + intermediateSize 1) =
        final'.stdout.take (wireHeaderSize + intermediateSize 1) := by
  intro block
  have width : block.length = chunkSize := List.length_replicate
  have lengths : ∀ tail : Bytes, (block ++ tail).length = chunkSize + tail.length :=
    fun tail => by rw [List.length_append, width]
  have front : ∀ tail : Bytes, (block ++ tail).take (1 * chunkSize) = block :=
    fun tail => List.take_left' (by rw [width, Nat.one_mul])
  obtain ⟨final, ran, _⟩ := @exists_encrypted false sampleSender sampleRecipient sampleEphemeral
    (block ++ [1]) (by rw [lengths]; decide)
  obtain ⟨final', ran', _⟩ := @exists_encrypted false sampleSender sampleRecipient
    sampleEphemeral (block ++ [2, 3]) (by rw [lengths]; decide)
  refine ⟨final, final', ran, ran', runEncrypt_online packages
    (keyHost sampleSender sampleEphemeral) 0 (sealArgs false sampleRecipient) _ _
    (smooth_ofBytes _) (smooth_ofBytes _) final final' ran ran' 1 ?_ ?_ ?_⟩
  · rw [content_ofBytes, content_ofBytes, front, front]
  · rw [content_ofBytes, lengths]
    decide
  · rw [content_ofBytes, lengths]
    decide

/-! ## Refusal -/

section Refusal

variable {args : DecryptArgs}

/-- The errors of a run whose input has ended too early. -/
inductive OutOfInput : Stop → Prop
  | header : OutOfInput (.failed (.wireCorruption
      ("Failed to read 97-byte header: " ++ endInsideBuffer.message)))
  | chunk : OutOfInput (.failed (.wireCorruption "Premature EOF before terminal chunk"))
  | inside : OutOfInput (.failed (.io endInsideBuffer))
  | trailer : OutOfInput (.failed (.wireCorruption
      ("Missing or truncated Mode 1 authenticated trailer: " ++ endInsideBuffer.message)))

/-- Both runs have recorded the same, and the right one has at least as much input left. -/
structure Ahead (left right : Process) : Prop where
  smooth : Smooth left.stdin
  smooth' : Smooth right.stdin
  shorter : content left.stdin <+: content right.stdin
  events : left.events = right.events

/-- The left run may run out of input; otherwise both stop with the same error. -/
def starvedApart : Divergence Stop Process Process where
  left stop _ := OutOfInput stop
  right _ _ := False
  stop stop left stop' right := stop = stop' ∧ left.events = right.events

theorem Ahead.record {left right : Process} (ahead : Ahead left right) (event : Event) :
    Ahead ⟨left.stdin, left.events ++ [event]⟩ ⟨right.stdin, right.events ++ [event]⟩ :=
  { ahead with events := by rw [ahead.events] }

theorem record_ahead (event : Event) : Mirrored Ahead starvedApart (record event) :=
  fun _ _ ahead => .both ⟨rfl, ahead.record event⟩

theorem throw_ahead {α : Type} (stop : Stop) :
    Mirrored Ahead starvedApart (throw stop : Run α) :=
  .throw fun _ _ ahead => ⟨rfl, ahead.events⟩

theorem orStop_ahead {α : Type} (outcome : Except Stop α) :
    Mirrored Ahead starvedApart (orStop outcome) := by
  cases outcome with
  | ok value => exact .pure value
  | error stop => exact throw_ahead stop

theorem readStdin_ahead {convert : IoError → Pipek1Error}
    (starves : OutOfInput (.failed (convert endInsideBuffer))) (width : Nat) :
    Mirrored Ahead starvedApart (readStdin convert width) := by
  intro left right ahead
  by_cases enough : width ≤ (content left.stdin).length
  · obtain ⟨more, longer⟩ := ahead.shorter
    let buffer : FixedBytes width :=
      ⟨(content left.stdin).take width, List.length_take_of_le enough⟩
    have front : content left.stdin = buffer.toList ++ (content left.stdin).drop width :=
      (List.take_append_drop width _).symm
    have front' : content right.stdin =
        buffer.toList ++ ((content left.stdin).drop width ++ more) := by
      rw [← longer, ← List.append_assoc, ← front]
    obtain ⟨rest, reading, dropped, smooth⟩ := readExact_of_smooth ahead.smooth buffer _ front
    obtain ⟨rest', reading', dropped', smooth'⟩ :=
      readExact_of_smooth ahead.smooth' buffer _ front'
    rw [readStdin_of_readExact reading, readStdin_of_readExact reading']
    exact .both ⟨rfl, smooth, smooth', ⟨more, by rw [dropped, dropped']⟩, ahead.events⟩
  · obtain ⟨rest, reading⟩ :=
      readExact_patient_short ahead.smooth.patient (Nat.lt_of_not_le enough)
    rw [readStdin_of_error reading]
    exact .left starves

theorem readChunk_ahead : Mirrored Ahead starvedApart readChunk := by
  refine .bind (readStdin_ahead .chunk chunkHeaderSize) fun chunkHdr => ?_
  dsimp only
  split
  · exact throw_ahead _
  · split
    · exact throw_ahead _
    · split
      · exact throw_ahead _
      · exact .bind (readStdin_ahead .inside _) fun ctBuffer =>
          .bind (readStdin_ahead .inside tagSize) fun tagBytes => .pure _

theorem decryptStep_of_ahead (header : StreamHeader) (state : DecryptState) :
    Mirrored Ahead starvedApart (decryptStep crates args header state) := by
  refine .bind readChunk_ahead fun chunk => ?_
  dsimp only
  split
  · exact throw_ahead _
  · refine .bind (record_ahead _) fun _ => .bind ?_ fun spool => .pure _
    unfold deliverChunk
    split
    · exact .bind (record_ahead _) fun _ => .pure _
    · split
      · exact .pure _
      · exact throw_ahead _

theorem trailerStage_ahead (header : StreamHeader) (hashed : Bytes) :
    Mirrored Ahead starvedApart (trailerStage crates args header hashed) := by
  unfold trailerStage
  split
  · refine .bind (readStdin_ahead .trailer trailerSize) fun trailer =>
      .bind (orStop_ahead _) fun _ => .bind (orStop_ahead _) fun notice =>
      .bind (record_ahead _) fun _ => ?_
    cases notice with
    | none => exact .pure ()
    | some text => exact record_ahead _
  · exact .pure ()

theorem decryptStream_ahead : Mirrored Ahead starvedApart (decryptStream crates host args) := by
  unfold decryptStream
  exact .bind (orStop_ahead _) fun recipPriv => .bind (orStop_ahead _) fun signingKey =>
    .bind (readStdin_ahead .header wireHeaderSize) fun headerBytes =>
    .bind (orStop_ahead _) fun header => .bind (.loop (decryptStep_of_ahead header) _) fun state =>
    .bind (trailerStage_ahead header state.hashed) fun _ => .pure state

theorem assertEndOfInput_of_smooth {process : Process} (smooth : Smooth process.stdin) :
    assertEndOfInput process =
      if content process.stdin = [] then
        .ok () ⟨(read 1 process.stdin).2, process.events ++ [.endOfInput]⟩
      else
        .error (.failed (.wireCorruption
          "Unauthenticated trailing bytes detected after stream termination"))
          ⟨(read 1 process.stdin).2, process.events⟩ := by
  obtain ⟨bytes, rest, reading, content_eq, _, ended⟩ := read_smooth Nat.one_pos smooth
  have read : onStdin (read 1) process =
      .ok (.ok bytes) ⟨(read 1 process.stdin).2, process.events⟩ := by
    change EStateM.Result.ok _ _ = _
    rw [reading]
  rw [assertEndOfInput, bind_of_ok read]
  cases bytes with
  | nil =>
      rw [if_pos (ended rfl)]
      rfl
  | cons byte bytes =>
      rw [if_neg (by rw [content_eq]; exact List.cons_ne_nil _ _)]
      rfl

/-- Behind an accepted stream only the release is left, and a trusted spool does not fail. -/
theorem releasePlaintext_succeeds
    (trusted : args.allowUnverifiedStream = false → SpoolTrusted crates host) {stdin : Reader}
    {stream : Stream} {state : DecryptState} {after : Process}
    (streamRead : StreamRead crates host args stdin stream state after) (process : Process) :
    ∃ final, releasePlaintext crates args state process = .ok () final := by
  unfold releasePlaintext
  cases streaming : args.allowUnverifiedStream with
  | true => exact ⟨process, rfl⟩
  | false => exact ⟨_, streamRead.released streaming (trusted streaming) process⟩

end Refusal

/-- A refusal is final, with a spool that gives back what it took: unless the input has merely ended
too early, every longer input is refused with the same error, after the same record. -/
theorem runDecrypt_refusal_final (crates : Crates) (host : Host) (args : DecryptArgs)
    (trusted : args.allowUnverifiedStream = false → SpoolTrusted crates host)
    (stdin stdin' : Reader) (smooth : Smooth stdin) (smooth' : Smooth stdin')
    (longer : content stdin <+: content stdin') (stop : Stop) (after : Process)
    (refused : runDecrypt crates host args (Process.start stdin) = .error stop after)
    (fed : ¬ OutOfInput stop) :
    ∃ after', runDecrypt crates host args (Process.start stdin') = .error stop after' ∧
      after'.events = after.events := by
  have ahead : Ahead (Process.start stdin) (Process.start stdin') :=
    ⟨smooth, smooth', longer, rfl⟩
  have run := @decryptStream_ahead crates host args _ _ ahead
  rw [runDecrypt_eq] at refused ⊢
  cases read : decryptStream crates host args (Process.start stdin) with
  | error stop₁ after₁ =>
      rw [bind_of_error read] at refused
      cases refused
      rw [read] at run
      cases read' : decryptStream crates host args (Process.start stdin') with
      | ok state' middle' =>
          rw [read'] at run
          cases run with
          | left starved => exact absurd starved fed
      | error stop' after' =>
          rw [read'] at run
          rw [bind_of_error read']
          cases run with
          | left starved => exact absurd starved fed
          | right impossible => exact impossible.elim
          | stop related =>
              obtain ⟨rfl, events⟩ := related
              exact ⟨after', rfl, events.symm⟩
  | ok state middle =>
      obtain ⟨stream, streamRead⟩ := (decryptStream_ends crates host args stdin).ok read
      rw [bind_of_ok read] at refused
      rw [read] at run
      cases read' : decryptStream crates host args (Process.start stdin') with
      | error stop' after' =>
          rw [read'] at run
          cases run with
          | right impossible => exact impossible.elim
      | ok state' middle' =>
          rw [read'] at run
          rw [bind_of_ok read']
          cases run with
          | both related =>
              obtain ⟨rfl, behind⟩ := related
              have ended := assertEndOfInput_of_smooth behind.smooth
              have ended' := assertEndOfInput_of_smooth behind.smooth'
              by_cases exhausted : content middle.stdin = []
              · rw [if_pos exhausted] at ended
                rw [bind_of_ok ended] at refused
                obtain ⟨final, released⟩ := releasePlaintext_succeeds trusted streamRead
                  ⟨(ByteReader.read 1 middle.stdin).2, middle.events ++ [.endOfInput]⟩
                cases released.symm.trans refused
              · have more : content middle'.stdin ≠ [] := by
                  intro empty
                  have shorter := behind.shorter
                  rw [empty] at shorter
                  exact exhausted (List.prefix_nil.mp shorter)
                rw [if_neg exhausted] at ended
                rw [if_neg more] at ended'
                rw [bind_of_error ended] at refused
                rw [bind_of_error ended']
                cases refused
                exact ⟨_, rfl, behind.events.symm⟩

open Reference in
/-- A Mode 1 header that nobody vouches for is refused, whatever comes behind it. -/
theorem runDecrypt_refusal_final_sample :
    ∃ stop after after',
      runDecrypt packages (keyHost sampleRecipient sampleEphemeral) ⟨none, false, false, none, {}⟩
        (Process.start (ofBytes bareHeader.toList)) = .error stop after ∧
      runDecrypt packages (keyHost sampleRecipient sampleEphemeral) ⟨none, false, false, none, {}⟩
        (Process.start (ofBytes (bareHeader.toList ++ sampleData))) = .error stop after' ∧
      after'.events = after.events := by
  have status : exitStatus (runDecrypt packages (keyHost sampleRecipient sampleEphemeral)
      ⟨none, false, false, none, {}⟩ (Process.start (ofBytes bareHeader.toList))) = some 2 :=
    runDecrypt_of_startsUntrusted
      (loadSecretKey_keyHost ChaCha20Poly1305.cipher sampleRecipient sampleEphemeral)
      (signingKey_secretBytes sampleRecipient) (smooth_ofBytes bareHeader.toList).patient
      ⟨bareHeader, [], by rw [content_ofBytes, List.append_nil],
        ⟨by decide, by decide, by decide, rfl, rfl⟩⟩
  cases ran : runDecrypt packages (keyHost sampleRecipient sampleEphemeral)
      ⟨none, false, false, none, {}⟩ (Process.start (ofBytes bareHeader.toList)) with
  | ok value final =>
      rw [ran] at status
      cases status
  | error stop after =>
      rw [ran] at status
      have fed : ¬ OutOfInput stop := by
        intro starved
        cases starved <;> cases status
      obtain ⟨after', refused, events⟩ := runDecrypt_refusal_final packages
        (keyHost sampleRecipient sampleEphemeral) ⟨none, false, false, none, {}⟩
        (fun _ => keyHost_trusted sampleRecipient sampleEphemeral) (ofBytes bareHeader.toList)
        (ofBytes (bareHeader.toList ++ sampleData)) (smooth_ofBytes _) (smooth_ofBytes _)
        (by rw [content_ofBytes, content_ofBytes]; exact List.prefix_append _ _) stop after ran fed
      exact ⟨stop, after, after', rfl, refused, events⟩

/-! ## Unverified output -/

section Growing

variable {args : DecryptArgs}

theorem Authentic.append {header : StreamHeader} {counter : UInt64} {bytes : Bytes}
    {chunks : List StreamChunk} (authentic : Authentic crates header counter bytes chunks)
    (more : Bytes) : Authentic crates header counter (bytes ++ more) chunks := by
  induction authentic with
  | nil => exact .nil
  | last framed opens =>
      rw [List.append_assoc]
      exact .last framed opens
  | cons full opens _ ih =>
      rw [List.append_assoc]
      exact .cons full opens ih

theorem AcceptsHeader.append {input rest : Bytes} {header : StreamHeader}
    (accepts : AcceptsHeader crates host args input header rest) (more : Bytes) :
    AcceptsHeader crates host args (input ++ more) header (rest ++ more) := by
  obtain ⟨recipPriv, signingKey, headerBytes, loaded, valid, front, conforms⟩ := accepts
  exact ⟨recipPriv, signingKey, headerBytes, loaded, valid,
    by rw [front, List.append_assoc], conforms⟩

/-- An input leads to one header and one rest. -/
theorem AcceptsHeader.unique {input rest rest' : Bytes} {header header' : StreamHeader}
    (accepts : AcceptsHeader crates host args input header rest)
    (accepts' : AcceptsHeader crates host args input header' rest') :
    header = header' ∧ rest = rest' := by
  obtain ⟨recipPriv, signingKey, headerBytes, loaded, valid, front, conforms⟩ := accepts
  have checked := accepts'.checked loaded valid front
  rw [checkHeader_eq_ok_iff.mpr conforms] at checked
  obtain ⟨_, _, headerBytes', _, _, front', _⟩ := accepts'
  exact ⟨Except.ok.inj checked, (List.append_inj (front.symm.trans front') (by
    rw [FixedBytes.length_toList, FixedBytes.length_toList])).2⟩

theorem plaintextOf_prefix {early late : List StreamChunk} (shorter : early <+: late) :
    plaintextOf early <+: plaintextOf late := by
  obtain ⟨more, rfl⟩ := shorter
  exact ⟨plaintextOf more, List.flatMap_append.symm⟩

/-- What has been put out for a shorter input stands at the front of what a longer one gives. -/
theorem StreamedOutput.grows {input input' output output' : Bytes} (longer : input <+: input')
    (streamed : StreamedOutput crates host args input output)
    (streamed' : StreamedOutput crates host args input' output') : output <+: output' := by
  obtain ⟨more, rfl⟩ := longer
  rcases streamed with ⟨header, rest, done, accepts, maximal, rfl⟩ | ⟨_, rfl⟩
  · rcases streamed' with ⟨header', rest', done', accepts', maximal', rfl⟩ | ⟨none, _⟩
    · obtain ⟨rfl, rfl⟩ := accepts'.unique (accepts.append more)
      exact plaintextOf_prefix (maximal'.longest done (maximal.authentic.append more))
    · exact absurd (accepts.append more) (none header (rest ++ more))
  · exact List.nil_prefix

/-- With unverified streaming, whatever the two runs end with. -/
theorem stdout_streamed (streaming : args.allowUnverifiedStream = true) {stdin : Reader}
    (smooth : Smooth stdin) :
    StreamedOutput crates host args (content stdin)
      (reported (runDecrypt crates host args (Process.start stdin))).stdout := by
  have written := @runDecrypt_streams crates host args streaming stdin smooth
  rw [stdout_reported]
  cases ran : runDecrypt crates host args (Process.start stdin) with
  | ok value final => exact written.ok ran
  | error stop final => exact written.error ran

end Growing

/-- Unverified streaming puts out nothing that a longer input would take back. -/
theorem runDecrypt_output_grows (crates : Crates) (host : Host) (args : DecryptArgs)
    (streaming : args.allowUnverifiedStream = true) (stdin stdin' : Reader) (smooth : Smooth stdin)
    (smooth' : Smooth stdin') (longer : content stdin <+: content stdin') :
    (reported (runDecrypt crates host args (Process.start stdin))).stdout <+:
      (reported (runDecrypt crates host args (Process.start stdin'))).stdout :=
  (stdout_streamed streaming smooth).grows longer (stdout_streamed streaming smooth')

open Reference in
/-- The first two hundred bytes of a stream, and the whole of it. -/
theorem runDecrypt_output_grows_sample :
    let stream := sealedStream false sampleSender sampleRecipient sampleEphemeral sampleData
    (reported (runDecrypt packages (keyHost sampleRecipient sampleEphemeral)
        (openArgs false sampleSender true)
        (Process.start (ofBytes ((content stream).take 200))))).stdout <+:
      (reported (runDecrypt packages (keyHost sampleRecipient sampleEphemeral)
        (openArgs false sampleSender true) (Process.start (ofBytes (content stream))))).stdout :=
  runDecrypt_output_grows packages (keyHost sampleRecipient sampleEphemeral)
    (openArgs false sampleSender true) rfl _ _ (smooth_ofBytes _) (smooth_ofBytes _)
    (by rw [content_ofBytes, content_ofBytes]; exact List.take_prefix _ _)

/-! ## Cut streams -/

section Cut

variable {args : DecryptArgs} {session : EncryptSession crates}

/-- An input has one maximal prefix of authentic chunks, and so one unverified output. -/
theorem StreamedOutput.of_maximal {input rest output : Bytes} {header : StreamHeader}
    {done : List StreamChunk} (streamed : StreamedOutput crates host args input output)
    (accepts : AcceptsHeader crates host args input header rest)
    (maximal : MaximalPrefix crates header rest done) : output = plaintextOf done := by
  rcases streamed with ⟨header', rest', done', accepts', maximal', rfl⟩ | ⟨none, _⟩
  · obtain ⟨rfl, rfl⟩ := accepts.unique accepts'
    have shorter := maximal.longest done' maximal'.authentic
    have longer := maximal'.longest done maximal.authentic
    rw [shorter.eq_of_length_le longer.length_le]
  · exact absurd accepts (none header rest)

/-- No chunk stands at the front of a chunk that is cut short. -/
theorem stuck_of_cut {chunk other : StreamChunk} {kept : Nat} {later : Bytes}
    (fits : chunk.wire.ciphertext.length ≤ chunkSize) (framed : other.wire.Framed)
    (short : kept < chunk.wire.bytes.length) :
    chunk.wire.bytes.take kept ≠ other.wire.bytes ++ later := by
  intro same
  have whole : other.wire.bytes ++ (later ++ chunk.wire.bytes.drop kept) =
      chunk.wire.bytes ++ [] := by
    rw [← List.append_assoc, ← same, List.take_append_drop, List.append_nil]
  obtain ⟨_, nothing⟩ := WireChunk.bytes_append_inj framed.length_le fits whole
  have dropped := (List.append_eq_nil_iff.mp nothing).2
  rw [List.drop_eq_nil_iff] at dropped
  omega

theorem wireBytes_split {chunks : List StreamChunk} {i : Nat} {chunk : StreamChunk}
    (found : chunks[i]? = some chunk) :
    wireBytes chunks =
      wireBytes (chunks.take i) ++ (chunk.wire.bytes ++ wireBytes (chunks.drop (i + 1))) := by
  obtain ⟨inside, rfl⟩ := List.getElem?_eq_some_iff.mp found
  have split : chunks = chunks.take i ++ (chunks[i] :: chunks.drop (i + 1)) := by
    rw [← List.drop_eq_getElem_cons inside, List.take_append_drop]
  conv => lhs; rw [split]
  simp only [wireBytes, List.flatMap_append, List.flatMap_cons]

theorem CanonicalFraming.plaintextOf_take {data : Bytes} {chunks : List StreamChunk}
    {final : Process} (framing : CanonicalFraming host session data chunks final) {blocks : Nat}
    (more : blocks < chunks.length) :
    plaintextOf (chunks.take blocks) = data.take (chunkSize * blocks) := by
  have count : (chunks.take blocks).length = blocks := List.length_take_of_le (Nat.le_of_lt more)
  have length := length_plaintextOf_of_full fun chunk member =>
    (framing.take_full more chunk member).2
  rw [count, Nat.mul_comm] at length
  have split : data = plaintextOf (chunks.take blocks) ++ plaintextOf (chunks.drop blocks) := by
    rw [← framing.whole, plaintextOf, plaintextOf, plaintextOf, ← List.flatMap_append,
      List.take_append_drop]
  rw [split, List.take_left' length]

/-- A cut inside the chunks keeps the chunks before it and the beginning of the one it hits. -/
theorem CanonicalFraming.take_body {data : Bytes} {chunks : List StreamChunk} {final : Process}
    (framing : CanonicalFraming host session data chunks final) {kept blocks : Nat}
    (short : kept < data.length + 21 * chunks.length) (cut : blocks = kept / (chunkSize + 21))
    (trailer : Bytes) :
    blocks < chunks.length ∧ ∃ chunk : StreamChunk, chunk.wire.ciphertext.length ≤ chunkSize ∧
      kept - intermediateSize blocks < chunk.wire.bytes.length ∧
      (wireBytes chunks ++ trailer).take kept =
        wireBytes (chunks.take blocks) ++
          chunk.wire.bytes.take (kept - intermediateSize blocks) := by
  have count := framing.count
  have inside : blocks < chunks.length := by
    simp only [chunkCount, chunkSize] at count cut
    omega
  have found : chunks[blocks]? = some chunks[blocks] := List.getElem?_eq_getElem inside
  have width := crates.aead.length_encrypt (framing.seals _ _ found)
  have size : chunks[blocks].wire.bytes.length = chunks[blocks].plaintext.length + 21 := by
    simp only [WireChunk.bytes, List.length_append, List.length_cons, FixedBytes.length_toList,
      width, tagSize]
    omega
  have piece := congrArg List.length (framing.piece _ _ found)
  rw [List.length_take, List.length_drop] at piece
  have hit : kept - intermediateSize blocks < chunks[blocks].wire.bytes.length := by
    rw [size, piece]
    simp only [intermediateSize, chunkCount, chunkSize] at count cut ⊢
    omega
  have front := framing.length_front inside
  have before : intermediateSize blocks ≤ kept := by
    rw [cut]
    exact Nat.div_mul_le_self _ _
  refine ⟨inside, chunks[blocks], by rw [width, piece]; exact Nat.min_le_left _ _, hit, ?_⟩
  rw [wireBytes_split found, List.append_assoc, List.append_assoc, List.take_append,
    List.take_of_length_le (front.trans_le before), front,
    List.take_append_of_le_length (Nat.le_of_lt hit)]

theorem maximal_of_cut {header : StreamHeader} {chunks : List StreamChunk}
    (opens : Numbered (StreamChunk.Opens crates header) 0 chunks) {blocks kept : Nat}
    (full : ∀ chunk ∈ chunks.take blocks, chunk.Full) {chunk : StreamChunk}
    (fits : chunk.wire.ciphertext.length ≤ chunkSize) (short : kept < chunk.wire.bytes.length) :
    MaximalPrefix crates header
      (wireBytes (chunks.take blocks) ++ chunk.wire.bytes.take kept) (chunks.take blocks) := by
  rw [← List.take_append_drop blocks chunks] at opens
  exact maximal_of_stuck full (numbered_append_iff.mp opens).1
    fun _ _ same framed _ => stuck_of_cut fits framed short same

end Cut

/-- Unverified decryption of the first `kept` bytes of an encryption puts out the chunks that are
whole, and everything as soon as only the trailer is missing. -/
theorem cut_stream_yields (crates : Crates) [AddCommGroup crates.curve.Point]
    (laws : Lawful crates) (sender recipient : Host) (rounds : Nat) (argsE : EncryptArgs)
    (argsD : DecryptArgs) (recipPriv : FixedBytes 32) (recipKey : crates.curve.SigningKey)
    (agree : Correspondents crates sender recipient rounds argsE argsD recipPriv recipKey)
    (streaming : argsD.allowUnverifiedStream = true) (stdinE stdinD : Reader)
    (smoothE : Smooth stdinE) (smoothD : Smooth stdinD) (finalE : Process)
    (ran : runEncrypt crates sender rounds argsE (Process.start stdinE) = .ok () finalE)
    (kept : Nat) (cut : content stdinD = finalE.stdout.take kept) :
    (reported (runDecrypt crates recipient argsD (Process.start stdinD))).stdout =
      if kept < wireHeaderSize +
          ((content stdinE).length + 21 * chunkCount (content stdinE).length) then
        (content stdinE).take (chunkSize * ((kept - wireHeaderSize) / (chunkSize + 21)))
      else
        content stdinE := by
  obtain ⟨session, full, last, trailer, run, buffered⟩ :=
    (runEncrypt_buffers crates sender rounds argsE stdinE).ok ran
  have framing := run.framing smoothE buffered
  have opens := run.chunks_open laws
  have conforms := agree.conforms laws.toEncryptLaws run (run.allFull smoothE) opens
  have streamed := @stdout_streamed crates recipient argsD streaming stdinD smoothD
  rw [cut, run.stdout_eq] at streamed
  have accepts : wireHeaderSize ≤ kept → AcceptsHeader crates recipient argsD
      (((session.header sender).toList ++ (wireBytes (full ++ [last]) ++ trailer)).take kept)
      (session.streamHeader sender)
      ((wireBytes (full ++ [last]) ++ trailer).take (kept - wireHeaderSize)) := by
    intro whole
    refine ⟨recipPriv, recipKey, session.header sender, agree.loaded, agree.valid, ?_,
      conforms.header⟩
    rw [List.take_append, FixedBytes.length_toList, List.take_of_length_le]
    rw [FixedBytes.length_toList]
    exact whole
  by_cases short : kept < wireHeaderSize +
      ((content stdinE).length + 21 * chunkCount (content stdinE).length)
  · rw [if_pos short]
    by_cases whole : wireHeaderSize ≤ kept
    · have behind : kept - wireHeaderSize <
          (content stdinE).length + 21 * (full ++ [last]).length := by
        rw [framing.count]
        omega
      obtain ⟨more, chunk, fits, hit, body⟩ := framing.take_body behind rfl trailer
      have allFull : ∀ chunk ∈ (full ++ [last]).take ((kept - wireHeaderSize) / (chunkSize + 21)),
          chunk.Full := by
        intro chunk member
        obtain ⟨tag, size⟩ := framing.take_full more chunk member
        obtain ⟨_, sealed⟩ := run.seals.exists_of_mem (List.mem_of_mem_take member)
        exact ⟨tag, (crates.aead.length_encrypt sealed).trans size⟩
      have maximal := maximal_of_cut opens allFull fits hit
      rw [← body] at maximal
      rw [streamed.of_maximal (accepts whole) maximal, framing.plaintextOf_take more]
    · have none : ∀ header rest, ¬ AcceptsHeader crates recipient argsD
          (((session.header sender).toList ++
            (wireBytes (full ++ [last]) ++ trailer)).take kept) header rest := by
        rintro header rest ⟨_, _, headerBytes, _, _, front, _⟩
        have lengths := congrArg List.length front
        simp only [List.length_take, List.length_append, FixedBytes.length_toList] at lengths
        omega
      rcases streamed with ⟨header, rest, _, accepted, _⟩ | ⟨_, nothing⟩
      · exact absurd accepted (none header rest)
      · have zero : (kept - wireHeaderSize) / (chunkSize + 21) = 0 := by
          rw [Nat.sub_eq_zero_of_le (Nat.le_of_not_le whole), Nat.zero_div]
        rw [nothing, zero]
        rfl
  · rw [if_neg short]
    have body : (wireBytes (full ++ [last]) ++ trailer).take (kept - wireHeaderSize) =
        wireBytes (full ++ [last]) ++
          trailer.take (kept - wireHeaderSize - (wireBytes (full ++ [last])).length) := by
      have length := length_wireBytes run.seals
      rw [framing.whole, framing.count] at length
      rw [List.take_append, List.take_of_length_le]
      omega
    have allFull : ∀ chunk ∈ full, chunk.Full := conforms.full
    have terminal : last.Terminal := conforms.last
    have maximal := maximal_of_terminal allFull terminal opens
      (trailer.take (kept - wireHeaderSize - (wireBytes (full ++ [last])).length))
    rw [← body] at maximal
    rw [streamed.of_maximal (accepts (by omega)) maximal, framing.whole]

open Reference in
/-- A block and five bytes more: cut in its second chunk the stream yields the block, and cut in its
trailer all. -/
theorem cut_stream_yields_sample :
    ∃ finalE, runEncrypt packages (keyHost sampleSender sampleEphemeral) 0
        (sealArgs false sampleRecipient)
        (Process.start (ofBytes (List.replicate chunkSize 0x61 ++ sampleData))) = .ok () finalE ∧
      (reported (runDecrypt packages (keyHost sampleRecipient sampleEphemeral)
        (openArgs false sampleSender true)
        (Process.start (ofBytes (finalE.stdout.take 65670))))).stdout =
          List.replicate chunkSize 0x61 ∧
      (reported (runDecrypt packages (keyHost sampleRecipient sampleEphemeral)
        (openArgs false sampleSender true)
        (Process.start (ofBytes (finalE.stdout.take 65690))))).stdout =
          List.replicate chunkSize 0x61 ++ sampleData := by
  have filled : (List.replicate chunkSize (0x61 : UInt8)).length = chunkSize :=
    List.length_replicate
  generalize List.replicate chunkSize (0x61 : UInt8) = block at filled
  have length : (block ++ sampleData).length = chunkSize + 5 := by
    rw [List.length_append, filled]
    rfl
  obtain ⟨finalE, ran, _⟩ := @exists_encrypted false sampleSender sampleRecipient sampleEphemeral
    (block ++ sampleData) (by rw [length]; decide)
  have yields := fun kept => cut_stream_yields packages lawful
    (keyHost sampleSender sampleEphemeral) (keyHost sampleRecipient sampleEphemeral) 0
    (sealArgs false sampleRecipient) (openArgs false sampleSender true)
    (secretBytes sampleRecipient) sampleRecipient
    (correspondents _ sampleSender sampleRecipient sampleEphemeral 0 false true) rfl
    (ofBytes (block ++ sampleData)) (ofBytes (finalE.stdout.take kept)) (smooth_ofBytes _)
    (smooth_ofBytes _) finalE ran kept (content_ofBytes _)
  simp only [content_ofBytes, length] at yields
  refine ⟨finalE, ran, (yields 65670).trans ?_, (yields 65690).trans (if_neg (by decide))⟩
  have one : (65670 - wireHeaderSize) / (chunkSize + 21) = 1 := by decide
  rw [if_pos (by decide), one, Nat.mul_one, List.take_left' filled]

end PipeK1
