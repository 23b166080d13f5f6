import PipeK1.StreamIntegrity

/-!
# The nonces of a stream

The numbers under which an encryption seals its chunks, however it ends; and
the nonce and additional data with which a decryptor opens the chunks of its
output.
-/

set_option autoImplicit false

namespace PipeK1

open ByteData ByteReader Effects Numbering SealedData

/-! ## What a run has sealed -/

def Event.sealing? : Event → Option (Sealing (FixedBytes 12) (FixedBytes 16))
  | .chunkSealed _ sealing => some sealing
  | _ => none

/-- Everything sealed so far, in order. -/
def Process.sealings (process : Process) : List (Sealing (FixedBytes 12) (FixedBytes 16)) :=
  process.events.filterMap Event.sealing?

/-- Sealed under this counter, with some terminal tag. -/
def SealedAt (counter : UInt64) (sealing : Sealing (FixedBytes 12) (FixedBytes 16)) : Prop :=
  ∃ termTag, sealing.nonce = buildNonce counter termTag

theorem nodup_nonces {sealings : List (Sealing (FixedBytes 12) (FixedBytes 16))}
    (numbered : Numbered SealedAt 0 sealings) (few : sealings.length ≤ 2 ^ 64) :
    (sealings.map Sealing.nonce).Nodup := by
  refine numbered.nodup_map few ?_
  rintro number number' entry entry' ⟨termTag, nonce_eq⟩ ⟨termTag', nonce_eq'⟩ same
  rw [nonce_eq, nonce_eq'] at same
  exact (buildNonce_injective same).1

variable {crates : Crates} {host : Host}

/-- One chunk more, sealed under this counter. -/
def SealsNext (counter : UInt64) (before after : Process) : Prop :=
  ∃ sealing, SealedAt counter sealing ∧ after.sealings = before.sealings ++ [sealing]

theorem fillBuffer_sealings (buf : Bytes) (process : Process) :
    Ends (fun _ after => after.sealings = process.sealings)
      (fun stop after => after.sealings = process.sealings ∧
        ∃ error, stop = .failed (.io error)) (fillBuffer buf process) := by
  rw [fillBuffer, ends_bind, onStdin, ends_modifyGet, ends_bind]
  refine ends_orFail ?_ ?_
  · intro bytes filled
    rfl
  · intro error failed
    exact ⟨rfl, error, rfl⟩

def overflowStop : Stop := .failed (.usageError "Chunk counter overflow")

theorem encryptStep_sealings (session : EncryptSession crates) (state : EncryptState)
    (process : Process) :
    Ends (fun outcome after => SealsNext state.chunkCounter process after ∧
        state.chunkCounter.toNat + 1 < 2 ^ 64 ∧
        ∀ next, outcome = .inl next → next.chunkCounter.toNat = state.chunkCounter.toNat + 1)
      (fun stop after => after.sealings = process.sealings ∨
        SealsNext state.chunkCounter process after ∧ state.chunkCounter.toNat + 1 = 2 ^ 64 ∧
          stop = overflowStop)
      (encryptStep session state process) := by
  rw [encryptStep, ends_bind]
  refine (fillBuffer_sealings state.nextBuf process).mono ?_ fun _ _ failed => .inl failed.1
  rintro ⟨nextLen, nextBuf⟩ first same
  rw [ends_bind, ends_writeStdout]
  cases sealed : crates.aead.encrypt session.payloadKey
      (buildNonce state.chunkCounter (lookaheadTag nextLen))
      (streamAad session.mode session.recipX state.curLen state.chunkCounter
        (lookaheadTag nextLen)) (state.curBuf.take state.curLen) with
  | error e =>
      rw [ends_fail]
      refine .inl ?_
      rw [← same]
      simp [Process.sealings, Event.sealing?]
  | ok output =>
      obtain ⟨ct, tag⟩ := output
      let sealing : Sealing (FixedBytes 12) (FixedBytes 16) :=
        ⟨buildNonce state.chunkCounter (lookaheadTag nextLen), streamAad session.mode session.recipX
          state.curLen state.chunkCounter (lookaheadTag nextLen), state.curBuf.take state.curLen,
          ct, tag⟩
      have seals : ∀ after : Process, after.events = first.events ++
          [.stdout ((u32Be (UInt32.ofNat state.curLen)).toList ++ [lookaheadTag nextLen])] ++
          [.chunkSealed session.payloadKey sealing] ++ [.stdout ct] ++ [.stdout tag.toList] →
          SealsNext state.chunkCounter process after := by
        intro after events
        refine ⟨sealing, ⟨lookaheadTag nextLen, rfl⟩, ?_⟩
        rw [← same, Process.sealings, events]
        simp only [List.filterMap_append, List.append_assoc]
        rfl
      simp only [ends_bind, ends_record, ends_writeStdout]
      cases counted : checkedAdd state.chunkCounter 1 with
      | none =>
          rw [ends_fail]
          refine .inr ⟨seals _ rfl, ?_, rfl⟩
          have bound := state.chunkCounter.toNat_lt
          have many : ¬ state.chunkCounter.toNat + (1 : UInt64).toNat < 2 ^ 64 := by
            intro few
            rw [checkedAdd, if_pos few] at counted
            cases counted
          have one : (1 : UInt64).toNat = 1 := rfl
          omega
      | some counter =>
          have next := checkedAdd_one_eq_some_iff.mp counted
          have bound := counter.toNat_lt
          split
          · rw [ends_pure]
            refine ⟨seals _ rfl, by omega, fun _ impossible => absurd impossible Sum.inr_ne_inl⟩
          · rw [ends_pure]
            refine ⟨seals _ rfl, by omega, ?_⟩
            rintro _ ⟨⟩
            exact next

/-- The sealings are numbered from zero, and no number has been used twice. -/
structure SealedInOrder (process : Process) : Prop where
  numbered : Numbered SealedAt 0 process.sealings
  few : process.sealings.length ≤ 2 ^ 64

theorem SealedInOrder.next {counter : UInt64} {before after : Process}
    (inOrder : SealedInOrder before) (seals : SealsNext counter before after)
    (count : before.sealings.length = counter.toNat) :
    SealedInOrder after ∧ after.sealings.length = counter.toNat + 1 := by
  obtain ⟨sealing, sealedAt, sealings_eq⟩ := seals
  have length : after.sealings.length = counter.toNat + 1 := by
    rw [sealings_eq, List.length_append, List.length_singleton, count]
  have bound := counter.toNat_lt
  refine ⟨⟨?_, by rw [length]; exact bound⟩, length⟩
  rw [sealings_eq]
  refine inOrder.numbered.concat ?_
  rwa [count, UInt64.zero_add, UInt64.ofNat_toNat]

theorem encryptChunks_sealings (session : EncryptSession crates) {state : EncryptState}
    {process : Process} (inOrder : SealedInOrder process)
    (count : process.sealings.length = state.chunkCounter.toNat) :
    Ends (fun _ after => SealedInOrder after ∧ after.sealings.length < 2 ^ 64)
      (fun stop after => SealedInOrder after ∧
        (after.sealings.length = 2 ^ 64 → stop = overflowStop))
      (encryptChunks session state process) := by
  unfold encryptChunks
  refine loop_ends (fun state process => SealedInOrder process ∧
    process.sealings.length = state.chunkCounter.toNat) ?_ ⟨inOrder, count⟩
  rintro state process ⟨inOrder, count⟩
  refine (encryptStep_sealings session state process).mono ?_ ?_
  · rintro outcome after ⟨seals, few, counted⟩
    obtain ⟨inOrder', length⟩ := inOrder.next seals count
    cases outcome with
    | inl next => exact ⟨inOrder', length.trans (counted next rfl).symm⟩
    | inr hashed => exact ⟨inOrder', by rw [length]; exact few⟩
  · rintro stop after (same | ⟨seals, _, overflow⟩)
    · have bound := state.chunkCounter.toNat_lt
      have length : after.sealings.length = state.chunkCounter.toNat := by rw [same, count]
      refine ⟨⟨same ▸ inOrder.numbered, same ▸ inOrder.few⟩, fun full => ?_⟩
      rw [length] at full
      omega
    · exact ⟨(inOrder.next seals count).1, fun _ => overflow⟩

theorem writeTrailer_sealings (session : EncryptSession crates) (hashed : Bytes)
    (process : Process) :
    Ends (fun _ after => after.sealings = process.sealings)
      (fun _ after => after.sealings = process.sealings)
      (writeTrailer host session hashed process) := by
  unfold writeTrailer
  cases session.sender with
  | none => rfl
  | some signingKey =>
      simp only [ends_bind]
      refine ends_orFail ?_ ?_
      · intro sig signed
        rw [ends_writeStdout, ends_writeStdout]
        simp [Process.sealings, Event.sealing?]
      · intro error refused
        rfl

theorem runEncrypt_sealings (crates : Crates) (host : Host) (rounds : Nat) (args : EncryptArgs)
    (stdin : Reader) :
    Ends (fun _ final => SealedInOrder final ∧ final.sealings.length < 2 ^ 64)
      (fun stop final => SealedInOrder final ∧
        (final.sealings.length = 2 ^ 64 → stop = overflowStop))
      (runEncrypt crates host rounds args (Process.start stdin)) := by
  have unsealed : ∀ process : Process, process.sealings = [] →
      SealedInOrder process ∧ process.sealings.length < 2 ^ 64 := by
    intro process none
    rw [none]
    exact ⟨⟨by rw [none]; exact numbered_nil, by rw [none]; exact Nat.zero_le _⟩, by decide⟩
  have unfilled : ∀ {length : Nat}, length < 2 ^ 64 → ∀ {stop : Stop},
      length = 2 ^ 64 → stop = overflowStop := fun few _ full => by omega
  rw [runEncrypt, ends_bind]
  refine ends_orStop ?_ ?_
  · intro session session_eq
    rw [ends_bind, ends_writeStdout, ends_bind]
    refine (fillBuffer_sealings _ _).mono ?_ ?_
    · rintro filled first same
      obtain ⟨inOrder, _⟩ := unsealed first same
      rw [ends_bind]
      have count : first.sealings.length = (0 : UInt64).toNat := congrArg List.length same
      refine (encryptChunks_sealings session inOrder count).mono ?_ fun _ _ failed => failed
      rintro hashed second ⟨inOrder, few⟩
      refine (writeTrailer_sealings session hashed second).mono ?_ ?_
      · rintro _ final same
        exact ⟨⟨same ▸ inOrder.numbered, same ▸ inOrder.few⟩, same ▸ few⟩
      · rintro stop final same
        exact ⟨⟨same ▸ inOrder.numbered, same ▸ inOrder.few⟩, unfilled (same ▸ few)⟩
    · rintro stop first ⟨same, _⟩
      obtain ⟨inOrder, few⟩ := unsealed first same
      exact ⟨inOrder, unfilled few⟩
  · intro stop failed
    obtain ⟨inOrder, few⟩ := unsealed (Process.start stdin) rfl
    exact ⟨inOrder, unfilled few⟩

/-! ## The decryptor's counter -/

/-- A decryption stands before the chunk with this number. -/
inductive BeforeChunk (crates : Crates) (host : Host) (args : DecryptArgs) (stdin : Reader) :
    Nat → StreamHeader → DecryptState → Process → Prop
  | first {recipPriv : FixedBytes 32} {signingKey : crates.curve.SigningKey}
      {convert : IoError → Pipek1Error} {headerBytes : FixedBytes wireHeaderSize}
      {header : StreamHeader} {process : Process}
      (loaded : loadSecretKey crates host args.keyArgs = .ok recipPriv)
      (valid : crates.curve.signingKey recipPriv = .ok signingKey)
      (received : readStdin convert wireHeaderSize (Process.start stdin) = .ok headerBytes process)
      (checked : checkHeader crates args recipPriv (crates.curve.publicBytes signingKey)
        headerBytes = .ok header) :
      BeforeChunk crates host args stdin 0 header ⟨0, Spool.start host args.maxSize, []⟩ process
  | next {number : Nat} {header : StreamHeader} {state state' : DecryptState}
      {process process' : Process} (before : BeforeChunk crates host args stdin number header state
        process)
      (stepped : decryptStep crates args header state process = .ok (.inl state') process') :
      BeforeChunk crates host args stdin (number + 1) header state' process'

/-- A chunk that was read is opened as the sealing in its place is: with that one's nonce and
additional data. -/
def OpenedAsSealed (crates : Crates) (host : Host) (args : DecryptArgs) (stdin : Reader)
    (sealings : List (Sealing (FixedBytes 12) (FixedBytes 16))) : Prop :=
  ∀ number header state process chunk after,
    BeforeChunk crates host args stdin number header state process →
    readChunk process = .ok chunk after →
    ∃ sealing, sealings[number]? = some sealing ∧
      openChunk crates header state.chunkCounter chunk = crates.aead.decrypt header.payloadKey
        sealing.nonce sealing.aad sealing.ciphertext sealing.tag ∧
      buildNonce state.chunkCounter chunk.termTag = sealing.nonce ∧
      streamAad header.mode header.recipPub chunk.ciphertext.length state.chunkCounter
        chunk.termTag = sealing.aad ∧
      chunk.ciphertext = sealing.ciphertext ∧ chunk.tag = sealing.tag

section Lockstep

variable {rounds : Nat} {args : EncryptArgs} {stdin : Reader} {session : EncryptSession crates}
  {full : List StreamChunk} {last : StreamChunk} {trailer : Bytes} {final : Process}

/-- The sealings stand in the order of the chunks. -/
theorem EncryptedRun.getElem_sealings
    (run : EncryptedRun crates host rounds args stdin session full last trailer final)
    (inOrder : SealedInOrder final) {i : Nat} {chunk : StreamChunk}
    (found : (full ++ [last])[i]? = some chunk) :
    final.sealings[i]? = some (chunk.sealing session.mode session.recipX (UInt64.ofNat i)) := by
  have recorded := (run.sealings session.payloadKey _).mpr ⟨rfl, i, chunk, found, rfl⟩
  obtain ⟨k, standing⟩ := List.mem_iff_getElem?.mp
    (List.mem_filterMap.mpr ⟨_, recorded, rfl⟩ : _ ∈ final.sealings)
  obtain ⟨termTag, nonce_eq⟩ := inOrder.numbered k _ standing
  rw [UInt64.zero_add] at nonce_eq
  have places := congrArg UInt64.toNat (buildNonce_injective nonce_eq).1
  have few := run.few
  have few' := inOrder.few
  have inside : i < (full ++ [last]).length := (List.getElem?_eq_some_iff.mp found).1
  have inside' : k < final.sealings.length := (List.getElem?_eq_some_iff.mp standing).1
  rw [List.length_append, List.length_singleton] at inside
  rw [UInt64.toNat_ofNat_of_lt' (show i < 2 ^ 64 by omega),
    UInt64.toNat_ofNat_of_lt' (show k < 2 ^ 64 by omega)] at places
  cases places
  exact standing

theorem EncryptedRun.length_ciphertext
    (run : EncryptedRun crates host rounds args stdin session full last trailer final)
    {i : Nat} {chunk : StreamChunk} (found : (full ++ [last])[i]? = some chunk) :
    chunk.wire.ciphertext.length = chunk.plaintext.length ∧
      chunk.wire.ciphertext.length ≤ chunkSize := by
  have width : chunk.wire.ciphertext.length = chunk.plaintext.length :=
    crates.aead.length_encrypt (run.seals i chunk found)
  refine ⟨width, ?_⟩
  rw [width]
  rcases List.mem_append.mp (List.mem_of_getElem? found) with early | late
  · exact (run.intermediate chunk early).2
  · rw [List.mem_singleton.mp late]
    exact run.terminal.2

/-- The decryptor has opened the first chunks and knows what is bound to the others. -/
structure InStep (session : EncryptSession crates) (chunks : List StreamChunk) (trailer : Bytes)
    (number : Nat) (header : StreamHeader) (state : DecryptState) (process : Process) : Prop where
  mode_eq : header.mode = session.mode
  recipPub_eq : header.recipPub = session.recipX
  counter : state.chunkCounter = UInt64.ofNat number
  left : number < chunks.length
  content_eq : content process.stdin = wireBytes (chunks.drop number) ++ trailer

/-- The chunk that is read is the one in its place. -/
theorem InStep.readChunk {number : Nat} {header : StreamHeader} {state : DecryptState}
    {process after : Process} {chunk : WireChunk}
    (run : EncryptedRun crates host rounds args stdin session full last trailer final)
    (inStep : InStep session (full ++ [last]) trailer number header state process)
    (received : readChunk process = .ok chunk after) :
    ∃ sent, (full ++ [last])[number]? = some sent ∧ chunk = sent.wire ∧
      content after.stdin = wireBytes ((full ++ [last]).drop (number + 1)) ++ trailer := by
  obtain ⟨content_eq, _, _, framed⟩ := (readChunk_ends process).ok received
  have left := inStep.left
  have found : (full ++ [last])[number]? = some (full ++ [last])[number] :=
    List.getElem?_eq_getElem left
  refine ⟨_, found, ?_⟩
  rw [inStep.content_eq, List.drop_eq_getElem_cons left, wireBytes, List.flatMap_cons,
    List.append_assoc] at content_eq
  obtain ⟨wires, rests⟩ := WireChunk.bytes_append_inj (run.length_ciphertext found).2
    framed.length_le content_eq
  exact ⟨wires.symm, rests.symm⟩

theorem BeforeChunk.inStep {host' : Host} {args' : DecryptArgs} {stdin' : Reader}
    (run : EncryptedRun crates host rounds args stdin session full last trailer final)
    (produced : content stdin' = final.stdout) {number : Nat} {header : StreamHeader}
    {state : DecryptState} {process : Process}
    (before : BeforeChunk crates host' args' stdin' number header state process) :
    InStep session (full ++ [last]) trailer number header state process := by
  induction before with
  | @first recipPriv signingKey convert headerBytes header process loaded valid received checked =>
      have whole := ((readStdin_ends convert _ _).ok received).1
      change content stdin' = _ at whole
      rw [produced, run.stdout_eq] at whole
      obtain ⟨sent, rest⟩ := List.append_inj whole (by
        rw [FixedBytes.length_toList, FixedBytes.length_toList])
      have conforms := checkHeader_eq_ok_iff.mp checked
      rw [← FixedBytes.ext sent] at conforms
      refine ⟨conforms.mode_eq.trans (wireHeader_mode _ _ _ _ _), ?_, rfl, ?_, rest.symm⟩
      · rw [conforms.recipPub_eq, ← conforms.recipient]
        exact wireHeader_recipPub _ _ _ _ _
      · rw [List.length_append, List.length_singleton]
        exact Nat.succ_pos _
  | @next number header state state' process process' before stepped inStep =>
      have opened : Ends (fun outcome after => ∀ next, outcome = .inl next →
          InStep session (full ++ [last]) trailer (number + 1) header next after) (fun _ _ => True)
          (decryptStep crates args' header state process) := by
        rw [decryptStep, ends_bind]
        cases received : readChunk process with
        | error stop after => trivial
        | ok chunk first =>
            obtain ⟨sent, found, rfl, content_eq⟩ := inStep.readChunk run received
            rw [ends_ok]
            cases openChunk crates header state.chunkCounter sent.wire with
            | error _ => trivial
            | ok plaintext =>
                simp only [ends_bind, ends_record]
                refine (deliverChunk_ends crates args' plaintext state.spool _).mono ?_
                  (fun _ _ _ => trivial)
                rintro spool second ⟨stdin_eq, _⟩
                rw [ends_pure]
                split
                · exact fun _ impossible => absurd impossible Sum.inr_ne_inl
                · next more =>
                    rintro _ ⟨⟩
                    refine ⟨inStep.mode_eq, inStep.recipPub_eq, ?_, ?_, ?_⟩
                    · rw [inStep.counter, UInt64.ofNat_add]
                      rfl
                    · by_contra beyond
                      have place : number = full.length := by
                        have inside := inStep.left
                        rw [List.length_append, List.length_singleton] at inside beyond
                        omega
                      rw [place, List.getElem?_concat_length, Option.some.injEq] at found
                      exact more (by rw [← found]; exact run.terminal.1)
                    · rw [stdin_eq]
                      exact content_eq
      exact opened.ok stepped state' rfl

theorem EncryptedRun.openedAsSealed
    (run : EncryptedRun crates host rounds args stdin session full last trailer final)
    (inOrder : SealedInOrder final) {host' : Host} {args' : DecryptArgs} {stdin' : Reader}
    (produced : content stdin' = final.stdout) :
    OpenedAsSealed crates host' args' stdin' final.sealings := by
  intro number header state process chunk after before received
  have inStep := before.inStep run produced
  obtain ⟨sent, found, rfl, _⟩ := inStep.readChunk run received
  have nonce_eq : buildNonce state.chunkCounter sent.wire.termTag =
      (sent.sealing session.mode session.recipX (UInt64.ofNat number)).nonce := by
    rw [inStep.counter]
    rfl
  have aad_eq : streamAad header.mode header.recipPub sent.wire.ciphertext.length
      state.chunkCounter sent.wire.termTag =
        (sent.sealing session.mode session.recipX (UInt64.ofNat number)).aad := by
    rw [inStep.counter, inStep.mode_eq, inStep.recipPub_eq, (run.length_ciphertext found).1]
    rfl
  refine ⟨_, run.getElem_sealings inOrder found, ?_, nonce_eq, aad_eq, rfl, rfl⟩
  rw [openChunk, nonce_eq, aad_eq]
  rfl

end Lockstep

/-- However an encryption ends, no nonce is used twice, and the last counter ends it; whoever
decrypts what it has written opens each chunk with the nonce and the additional data under
which it was sealed. -/
theorem stream_nonces_in_order (crates : Crates) (host : Host) (rounds : Nat) (args : EncryptArgs)
    (stdin : Reader) :
    Ends (fun _ final => (final.sealings.map Sealing.nonce).Nodup ∧
        final.sealings.length < 2 ^ 64 ∧
        ∀ host' args' stdin', content stdin' = final.stdout →
          OpenedAsSealed crates host' args' stdin' final.sealings)
      (fun stop final => (final.sealings.map Sealing.nonce).Nodup ∧
        final.sealings.length ≤ 2 ^ 64 ∧
        (final.sealings.length = 2 ^ 64 →
          stop = .failed (.usageError "Chunk counter overflow")))
      (runEncrypt crates host rounds args (Process.start stdin)) := by
  refine ((runEncrypt_sealings crates host rounds args stdin).and
    (runEncrypt_ends crates host rounds args stdin)).mono ?_ ?_
  · rintro _ final ⟨⟨inOrder, few⟩, session, full, last, trailer, run⟩
    exact ⟨nodup_nonces inOrder.numbered inOrder.few, few, fun _ _ _ produced =>
      run.openedAsSealed inOrder produced⟩
  · rintro stop final ⟨⟨inOrder, overflow⟩, _⟩
    exact ⟨nodup_nonces inOrder.numbered inOrder.few, inOrder.few, overflow⟩

end PipeK1
