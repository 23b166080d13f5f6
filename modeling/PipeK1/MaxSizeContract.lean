import PipeK1.DecryptExitCodes
import PipeK1.SenderContract
import PipeK1.VerifyContract

/-!
# The size ceiling on the command line

What `--max-size` enforces for `decrypt` and `verify`. A value that is no number
leaves the run without a ceiling, and a stream that is not spooled is not
measured.
-/

set_option autoImplicit false

namespace PipeK1

open ByteData ByteReader Effects Numbering Arguments

variable {crates : Crates} {host : Host} {args : DecryptArgs}

/-! ## What the scanners make of the option -/

def parseMaxSize (value : String) : Option UInt64 := Text.parseU64 value.toList

theorem decryptOptions_maxSize {args : List String} {value : String}
    (given : lastValue "--max-size" (decryptItems args) = some value) :
    (decryptOptions args).maxSize = parseMaxSize value := by
  have changes : ∀ options item, (decryptItem options item).maxSize =
      if item.token = "--max-size" ∧ item.value.isSome then item.value.bind parseMaxSize
      else options.maxSize := by
    intro options item
    obtain ⟨token, taken⟩ := item
    unfold decryptItem
    by_cases sender : token = "--sender"
    · subst sender
      cases taken <;> rfl
    · simp only [sender, false_and, ↓reduceIte]
      split
      · next named =>
          subst named
          rfl
      · split
        · next named =>
            subst named
            rfl
        · split <;> rfl
  rw [decryptOptions, foldl_lastValue_bind "--max-size" changes, ← decryptItems, given]

def verifyItems (args : List String) : List Item := items verifyTakesValue args

theorem verifyOptions_maxSize {args : List String} {value : String}
    (given : lastValue "--max-size" (verifyItems args) = some value) :
    (verifyOptions args).maxSize = parseMaxSize value := by
  have changes : ∀ options item, (verifyItem options item).maxSize =
      if item.token = "--max-size" ∧ item.value.isSome then item.value.bind parseMaxSize
      else options.maxSize := by
    intro options item
    obtain ⟨token, taken⟩ := item
    unfold verifyItem
    by_cases signature : token = "--sig"
    · subst signature
      cases taken <;> rfl
    · by_cases signer : token = "--pub"
      · subst signer
        cases taken <;> rfl
      · simp only [signature, signer, false_and, ↓reduceIte]
        split
        · next named =>
            subst named
            rfl
        · split <;> rfl
  rw [verifyOptions, foldl_lastValue_bind "--max-size" changes, ← verifyItems, given]

/-! ## What is enforced -/

/-- A value that is no number is refused; otherwise it bounds what is written, and a payload that
is `longer` than it is refused. -/
def KeepsMaxSize (value : String) (longer : Nat → Prop) (outcome : Option Nat × Process) : Prop :=
  match parseMaxSize value with
  | none => outcome.1 = some 2 ∧ outcome.2.stdout = []
  | some max => outcome.2.stdout.length ≤ max.toNat ∧ (longer max.toNat → outcome.1 = some 2)

/-- The stream's plaintext is longer than `max`, and authentic up to there. -/
def DecryptsBeyond (crates : Crates) (host : Host) (args : List String) (stdin : Reader)
    (max : Nat) : Prop :=
  Patient stdin ∧ ∃ recipPriv recipKey,
    loadSecretKey crates host (parseKeyIntakeArgs args) = .ok recipPriv ∧
    crates.curve.signingKey recipPriv = .ok recipKey ∧
    ExceedsCeiling crates (decryptArgs args) recipPriv (crates.curve.publicBytes recipKey) max
      (content stdin)

/-- The input to pass through is longer than `max`, and the expected key has signed it. -/
def PassesBeyond (crates : Crates) (host : Host) (args : List String) (stdin : Reader)
    (max : Nat) : Prop :=
  Smooth stdin ∧ (verifyOptions args).passThrough = true ∧ max < (content stdin).length ∧
    ∃ payload exp, loadSignature crates host (verifyOptions args) = .ok payload ∧
      (verifyOptions args).expectedPub = some exp ∧
      parseKeyBytes crates exp = .ok (payload.slice 9 32 payload_signer) ∧
      PayloadVerifies crates payload (crates.digests.sha256 (content stdin))

/-- The key options of a command line are refused on every host. -/
def KeyRefused (crates : Crates) (args : List String) : Prop :=
  ∀ host, (∃ message, loadSecretKey crates host (parseKeyIntakeArgs args) =
      .error (.failed (.usageError message))) ∨
    ∃ recipPriv message, loadSecretKey crates host (parseKeyIntakeArgs args) = .ok recipPriv ∧
      crates.curve.signingKey recipPriv = .error message

/-! ## Standard output along a run -/

/-- What has been written so far. -/
def Wrote (bytes : Bytes) (process : Process) : Prop := process.stdout = bytes

section Wrote

variable {bytes : Bytes}

theorem record_wrote {event : Event} (other : event.stdoutBytes = []) :
    Preserves (Wrote bytes) (record event) := by
  intro process wrote
  rw [ends_record, Wrote, stdout_record, other, List.append_nil]
  exact wrote

theorem onStdin_wrote {α : Type} (operation : Reader → Except IoError α × Reader) :
    Preserves (Wrote bytes) (onStdin operation) :=
  fun _ wrote => wrote

theorem orStop_wrote {α : Type} (outcome : Except Stop α) :
    Preserves (Wrote bytes) (orStop outcome) := by
  cases outcome with
  | ok value => exact .pure value
  | error stop => exact .throw stop

theorem trailerStage_wrote (header : StreamHeader) (hashed : Bytes) :
    Preserves (Wrote bytes) (trailerStage crates args header hashed) := by
  unfold trailerStage
  split
  · unfold authenticateTrailer
    refine .bind (.bind (onStdin_wrote _) fun _ => orStop_wrote _) fun trailer => ?_
    refine .bind (orStop_wrote _) fun _ => .bind (orStop_wrote _) fun notice => ?_
    refine .bind (record_wrote rfl) fun _ => ?_
    cases notice with
    | none => exact .pure ()
    | some text => exact record_wrote rfl
  · exact .pure ()

theorem assertEndOfInput_wrote : Preserves (Wrote bytes) assertEndOfInput := by
  refine .bind (onStdin_wrote _) fun trailing => ?_
  split
  · exact .throw _
  · exact record_wrote rfl
  · exact .throw _

end Wrote

/-! ## Runs that spool -/

/-- A spool that holds the plaintext of `done`, which is within the ceiling. -/
structure Under (crates : Crates) (max : UInt64) (done : List StreamChunk) (spool : Spool) :
    Prop where
  holds : Spool.Holds crates.aead spool (plaintextOf done)
  limited : spool.spooler.maxSize = some max
  honest : spool.disk.Honest
  inverts : crates.aead.Inverts spool.spooler.spoolKey spoolChunkSize
  within : (plaintextOf done).length ≤ max.toNat

section Spooling

variable {max : UInt64} {done : List StreamChunk} {spool : Spool}

theorem under_start (trusted : SpoolTrusted crates host) :
    Under crates max [] (Spool.start host (some max)) where
  holds := Spool.holds_start crates.aead host (some max)
  limited := rfl
  honest := trusted.honest
  inverts := trusted.inverts
  within := Nat.zero_le _

/-- The spool takes a chunk within the ceiling, or the run is refused. -/
theorem deliverChunk_under (spooling : args.allowUnverifiedStream = false)
    (under : Under crates max done spool) (chunk : StreamChunk) (process : Process) :
    Ends (fun after process' => process' = process ∧ Under crates max (done ++ [chunk]) after)
      (fun stop _ => ∃ error, stop = .failed (.usageError error))
      (deliverChunk crates args chunk.plaintext spool process) := by
  have writing := Spool.writeChunk_ends crates.aead chunk.plaintext _ spool under.holds
  rw [deliverChunk, spooling]
  cases written : spool.writeChunk crates.aead chunk.plaintext with
  | error error after => exact ⟨error, rfl⟩
  | ok value after =>
      obtain ⟨holds, continues, ceiling⟩ := writing.ok written
      have honest := continues.honest under.honest
      have within := UInt64.le_iff_toNat_le.mp (ceiling max under.limited)
      rw [UInt64.toNat_ofNat_of_lt' (holds.length_lt honest.capacity_lt)] at within
      rw [← plaintextOf_append_singleton] at holds within
      exact ⟨rfl, holds, continues.maxSize.trans under.limited, honest,
        continues.spoolKey ▸ under.inverts, within⟩

variable (spooling : args.allowUnverifiedStream = false)
include spooling

theorem decryptStep_under {header : StreamHeader} {state : DecryptState} {process : Process}
    {bytes : Bytes} (under : Under crates max done state.spool) (wrote : Wrote bytes process) :
    Ends (fun outcome after => ∃ done next, (outcome = .inl next ∨ outcome = .inr next) ∧
        Under crates max done next.spool ∧ Wrote bytes after)
      (fun _ _ => True) (decryptStep crates args header state process) := by
  rw [decryptStep, ends_bind]
  refine (readChunk_ends process).mono ?_ (fun _ _ _ => trivial)
  rintro wire first ⟨_, events, _, _⟩
  have wrote : Wrote bytes first := by
    rw [Wrote, Process.stdout, events]
    exact wrote
  cases openChunk crates header state.chunkCounter wire with
  | error _ => exact trivial
  | ok plaintext =>
      simp only [ends_bind, ends_record]
      refine (deliverChunk_under spooling under ⟨wire, plaintext⟩ _).mono ?_ (fun _ _ _ => trivial)
      rintro spool second ⟨rfl, under'⟩
      have recorded := @record_wrote _ (.chunkAuthenticated state.chunkCounter wire.termTag
        plaintext) rfl first wrote
      rw [ends_pure]
      split
      · exact ⟨_, _, .inr rfl, under', recorded⟩
      · exact ⟨_, _, .inl rfl, under', recorded⟩

theorem decryptChunks_under {header : StreamHeader} {state : DecryptState} {process : Process}
    {bytes : Bytes} (under : Under crates max done state.spool) (wrote : Wrote bytes process) :
    Ends (fun final after => ∃ done, Under crates max done final.spool ∧ Wrote bytes after)
      (fun _ _ => True) (decryptChunks crates args header state process) := by
  unfold decryptChunks
  refine loop_ends (fun state process => ∃ done, Under crates max done state.spool ∧
    Wrote bytes process) ?_ ⟨done, under, wrote⟩
  rintro state process ⟨done, under, wrote⟩
  refine (decryptStep_under spooling under wrote).mono ?_ (fun _ _ _ => trivial)
  rintro outcome after ⟨done', next, either, under', wrote'⟩
  rcases either with rfl | rfl
  · exact ⟨done', under', wrote'⟩
  · exact ⟨done', under', wrote'⟩

/-- A run that spools releases no more than the ceiling. -/
theorem runDecrypt_bounded (trusted : SpoolTrusted crates host)
    (limited : args.maxSize = some max) (stdin : Reader) :
    Ends (fun _ final => final.stdout.length ≤ max.toNat) (fun _ final => final.stdout = [])
      (runDecrypt crates host args (Process.start stdin)) := by
  have refused := runDecrypt_ends crates host args stdin
  have bounded : Ends (fun _ final => final.stdout.length ≤ max.toNat) (fun _ _ => True)
      (runDecrypt crates host args (Process.start stdin)) := by
    rw [runDecrypt, ends_bind]
    refine ends_orStop (fun recipPriv _ => ?_) (fun _ _ => trivial)
    rw [ends_bind]
    refine ends_orFail (fun signingKey _ => ?_) (fun _ _ => trivial)
    rw [ends_bind]
    refine (readStdin_ends _ _ _).mono ?_ (fun _ _ _ => trivial)
    rintro headerBytes first ⟨_, events, _⟩
    have wrote : Wrote [] first := Process.stdout_of_events_start events
    rw [ends_bind]
    refine ends_orFail (fun header _ => ?_) (fun _ _ => trivial)
    rw [ends_bind, limited]
    refine (decryptChunks_under spooling (under_start trusted) wrote).mono ?_
      (fun _ _ _ => trivial)
    rintro state second ⟨done, under, wrote⟩
    rw [ends_bind]
    refine (trailerStage_wrote header state.hashed second wrote).mono ?_ (fun _ _ _ => trivial)
    intro _ third wrote
    rw [ends_bind]
    refine (assertEndOfInput_wrote third wrote).mono ?_ (fun _ _ _ => trivial)
    intro _ fourth wrote
    have silent : fourth.stdout = [] := wrote
    simp only [spooling, Bool.false_eq_true, ↓reduceIte,
      releaseToStdout_of_holds under.holds under.inverts under.honest, ends_ok]
    rw [Process.stdout_of_events rfl, silent]
    simpa [Event.stdoutBytes] using under.within
  refine (bounded.and refused).mono (fun _ _ both => both.1) ?_
  rintro stop final ⟨_, silent⟩
  exact silent spooling trusted

/-! ### Over the ceiling -/

/-- Where the loop is while `full ++ [chunk]` are still to come, over the ceiling with them. -/
structure LimitAhead (crates : Crates) (header : StreamHeader) (max : UInt64)
    (done full : List StreamChunk) (chunk : StreamChunk) (state : DecryptState)
    (process : Process) : Prop where
  patient : Patient process.stdin
  content_eq : ∃ rest, content process.stdin = wireBytes (full ++ [chunk]) ++ rest
  opens : Numbered (StreamChunk.Opens crates header) state.chunkCounter (full ++ [chunk])
  allFull : ∀ other ∈ full, other.Full
  framed : chunk.wire.Framed
  under : Under crates max done state.spool
  beyond : max.toNat < (plaintextOf (done ++ (full ++ [chunk]))).length

theorem decryptStep_ahead {header : StreamHeader} {chunk : StreamChunk} {state : DecryptState}
    {process : Process} {later : Bytes} (framed : chunk.wire.Framed)
    (opens : StreamChunk.Opens crates header state.chunkCounter chunk)
    (patient : Patient process.stdin)
    (upcoming : content process.stdin = chunk.wire.bytes ++ later)
    (under : Under crates max done state.spool) :
    Ends (fun outcome after => ∃ next : DecryptState,
        outcome = (if chunk.wire.termTag = 0x01 then .inr next else .inl next) ∧
        next.chunkCounter = state.chunkCounter + 1 ∧
        Under crates max (done ++ [chunk]) next.spool ∧ Patient after.stdin ∧
        content after.stdin = later)
      (fun stop _ => ∃ error, stop = .failed (.usageError error))
      (decryptStep crates args header state process) := by
  obtain ⟨rest, reading, content_eq, patient', _⟩ := readChunk_of_framed framed patient upcoming
  have opened : openChunk crates header state.chunkCounter chunk.wire = .ok chunk.plaintext := opens
  rw [decryptStep, bind_of_ok reading]
  simp only [opened, ends_bind, ends_record]
  refine (deliverChunk_under spooling under chunk _).mono ?_ (fun _ _ refused => refused)
  rintro spool second ⟨rfl, under'⟩
  rw [ends_pure]
  exact ⟨_, rfl, rfl, under', patient', content_eq⟩

theorem decryptChunks_of_limitAhead {header : StreamHeader} {full : List StreamChunk}
    {chunk : StreamChunk} {state : DecryptState} {process : Process}
    (ahead : LimitAhead crates header max done full chunk state process) :
    Ends (fun _ _ => False) (fun stop _ => ∃ error, stop = .failed (.usageError error))
      (decryptChunks crates args header state process) := by
  unfold decryptChunks
  induction full generalizing done state process with
  | nil =>
      obtain ⟨rest, upcoming⟩ := ahead.content_eq
      simp only [wireBytes, List.nil_append, List.flatMap_cons, List.flatMap_nil,
        List.append_nil] at upcoming
      have stepping := decryptStep_ahead spooling ahead.framed (numbered_cons_iff.mp ahead.opens).1
        ahead.patient upcoming ahead.under
      cases stepped : decryptStep crates args header state process with
      | error stop after =>
          rw [loop_of_error stepped]
          exact stepping.error stepped
      | ok outcome after =>
          obtain ⟨_, _, _, under, _⟩ := stepping.ok stepped
          exact absurd under.within (Nat.not_le_of_lt ahead.beyond)
  | cons first full ih =>
      obtain ⟨rest, upcoming⟩ := ahead.content_eq
      obtain ⟨opens, opensLater⟩ := numbered_cons_iff.mp ahead.opens
      have isFull := ahead.allFull first List.mem_cons_self
      simp only [wireBytes, List.cons_append, List.flatMap_cons, List.append_assoc] at upcoming
      have stepping :=
        decryptStep_ahead spooling (.inl isFull) opens ahead.patient upcoming ahead.under
      cases stepped : decryptStep crates args header state process with
      | error stop after =>
          rw [loop_of_error stepped]
          exact stepping.error stepped
      | ok outcome after =>
          obtain ⟨next, outcome_eq, counter, under, patient, content_eq⟩ := stepping.ok stepped
          have more : ¬ first.wire.termTag = 0x01 := by
            rw [isFull.1]
            decide
          rw [if_neg more] at outcome_eq
          subst outcome_eq
          rw [loop_of_next stepped]
          refine ih ⟨patient, ⟨rest, content_eq⟩, counter ▸ opensLater,
            fun other member => ahead.allFull other (List.mem_cons_of_mem _ member), ahead.framed,
            under, ?_⟩
          rw [List.append_assoc, List.singleton_append]
          exact ahead.beyond

/-- A plaintext over the ceiling is refused, whatever the disk does. -/
theorem runDecrypt_of_exceeding (trusted : SpoolTrusted crates host)
    (limited : args.maxSize = some max) {recipPriv : FixedBytes 32}
    {signingKey : crates.curve.SigningKey}
    (loaded : loadSecretKey crates host args.keyArgs = .ok recipPriv)
    (valid : crates.curve.signingKey recipPriv = .ok signingKey) {stdin : Reader}
    (patient : Patient stdin)
    (beyond : ExceedsCeiling crates args recipPriv (crates.curve.publicBytes signingKey) max.toNat
      (content stdin)) :
    exitStatus (runDecrypt crates host args (Process.start stdin)) = some 2 := by
  obtain ⟨headerBytes, header, full, chunk, exceeding⟩ := beyond
  obtain ⟨rest, wire⟩ := exceeding.wire
  obtain ⟨after, reading, content₁, patient₁, _⟩ := readExact_patient patient headerBytes _ wire
  have started : readStdin (fun e => .wireCorruption ("Failed to read 97-byte header: " ++
      e.message)) wireHeaderSize (Process.start stdin) = .ok headerBytes ⟨after, []⟩ :=
    readStdin_of_readExact reading
  have checked := checkHeader_eq_ok_iff.mpr exceeding.conforms
  have ahead : LimitAhead crates header max [] full chunk
      ⟨0, Spool.start host args.maxSize, []⟩ ⟨after, []⟩ :=
    ⟨patient₁, ⟨rest, content₁⟩, exceeding.opens, exceeding.allFull, exceeding.framed,
      limited ▸ under_start trusted, exceeding.beyond⟩
  have looping := decryptChunks_of_limitAhead spooling ahead
  rw [runDecrypt, loaded, bind_of_ok (show orStop _ _ = .ok recipPriv _ from rfl), valid,
    bind_of_ok (show orFail _ _ _ = .ok signingKey _ from rfl), bind_of_ok started, checked,
    bind_of_ok (show orFail _ _ _ = .ok header _ from rfl)]
  cases looped : decryptChunks crates args header ⟨0, Spool.start host args.maxSize, []⟩
      ⟨after, []⟩ with
  | ok value final => exact (looping.ok looped).elim
  | error stop final =>
      obtain ⟨error, rfl⟩ := looping.error looped
      rw [bind_of_error looped]
      rfl

end Spooling

/-! ## Runs that do not spool -/

section Streaming

variable {header : StreamHeader}

theorem exists_chunk (inverts : crates.aead.Inverts header.payloadKey chunkSize) (counter : UInt64)
    (termTag : UInt8) {plaintext : Bytes} (fits : plaintext.length ≤ chunkSize) :
    ∃ chunk : StreamChunk, chunk.wire.termTag = termTag ∧ chunk.plaintext = plaintext ∧
      chunk.wire.ciphertext.length = plaintext.length ∧
      StreamChunk.Opens crates header counter chunk := by
  obtain ⟨ciphertext, tag, sealed, opened⟩ := inverts (buildNonce counter termTag)
    (streamAad header.mode header.recipPub plaintext.length counter termTag) plaintext fits
  have width := crates.aead.length_encrypt sealed
  refine ⟨⟨⟨termTag, ciphertext, tag⟩, plaintext⟩, rfl, rfl, width, ?_⟩
  rw [StreamChunk.Opens, width]
  exact opened

theorem exists_full_chunks (inverts : crates.aead.Inverts header.payloadKey chunkSize)
    (count : Nat) (counter : UInt64) :
    ∃ full : List StreamChunk, full.length = count ∧ (∀ chunk ∈ full, chunk.Full) ∧
      Numbered (StreamChunk.Opens crates header) counter full ∧
      (plaintextOf full).length = count * chunkSize := by
  induction count generalizing counter with
  | zero =>
      exact ⟨[], rfl, fun _ none => absurd none List.not_mem_nil, numbered_nil,
        (Nat.zero_mul chunkSize).symm⟩
  | succ count ih =>
      have size : (List.replicate chunkSize (0x00 : UInt8)).length = chunkSize :=
        List.length_replicate
      obtain ⟨first, tag, plaintext, width, opens⟩ :=
        exists_chunk inverts counter 0x00 (Nat.le_of_eq size)
      obtain ⟨full, number, allFull, opensLater, length⟩ := ih (counter + 1)
      refine ⟨first :: full, congrArg (· + 1) number, ?_, numbered_cons_iff.mpr ⟨opens, opensLater⟩,
        ?_⟩
      · intro chunk member
        rcases List.mem_cons.mp member with rfl | later
        · exact ⟨tag, width.trans size⟩
        · exact allFull chunk later
      · have split : plaintextOf (first :: full) = first.plaintext ++ plaintextOf full := rfl
        rw [split, List.length_append, length, plaintext, size, Nat.succ_mul, Nat.add_comm]

/-- For every recipient and every length there is a stream, but for the trailer, whose header the
options let through. -/
theorem Lawful.exists_stream [AddCommGroup crates.curve.Point] (laws : Lawful crates)
    (host : Host) (args : DecryptArgs) {recipPriv : FixedBytes 32}
    {recipKey : crates.curve.SigningKey}
    (valid : crates.curve.signingKey recipPriv = .ok recipKey) (length : Nat) :
    ∃ (headerBytes : FixedBytes wireHeaderSize) (header : StreamHeader) (full : List StreamChunk)
        (last : StreamChunk),
      HeaderConforms crates args recipPriv (crates.curve.publicBytes recipKey) headerBytes header ∧
      (∀ chunk ∈ full, chunk.Full) ∧ last.Terminal ∧
      Numbered (StreamChunk.Opens crates header) 0 (full ++ [last]) ∧
      (plaintextOf (full ++ [last])).length = length := by
  obtain ⟨ikm, shared, _⟩ := laws.prime.ecdhSharedX_agree valid valid
  obtain ⟨headerKey, payloadKey, derived⟩ := exists_deriveKeys laws.expands ikm host.salt
  let session : EncryptSession crates := ⟨if args.expectedSender.isSome then 0x01 else 0x02,
    crates.curve.publicBytes recipKey, crates.curve.publicBytes recipKey, headerKey, payloadKey,
    none⟩
  have permitted : (session.mode = 0x01 ∧
      (args.expectedSender.isSome ∨ args.allowUntrustedSender = true)) ∨
      (session.mode = 0x02 ∧ args.expectedSender = none) := by
    cases expected : args.expectedSender with
    | none => exact .inr ⟨by simp [session, expected], rfl⟩
    | some sender => exact .inl ⟨by simp [session, expected], .inl rfl⟩
  have inverts := laws.inverts payloadKey
  obtain ⟨full, number, allFull, opens, total⟩ :=
    @exists_full_chunks crates (session.streamHeader host) inverts (length / chunkSize) 0
  let rest : Bytes := List.replicate (length % chunkSize) 0x00
  have size : rest.length = length % chunkSize := List.length_replicate
  have fits : rest.length ≤ chunkSize := by
    rw [size]
    exact Nat.le_of_lt (Nat.mod_lt _ (by decide))
  obtain ⟨last, tag, plaintext, width, opensLast⟩ := @exists_chunk crates
    (session.streamHeader host) inverts (0 + UInt64.ofNat full.length) 0x01 rest fits
  refine ⟨session.header host, session.streamHeader host, full, last,
    EncryptSession.headerConforms rfl ⟨ikm, shared, derived⟩ permitted, allFull,
    ⟨tag, width ▸ fits⟩, opens.concat opensLast, ?_⟩
  rw [plaintextOf_append_singleton, List.length_append, total, plaintext, size, Nat.mul_comm]
  exact Nat.div_add_mod length chunkSize

/-- A stream that is not spooled is written out as it comes, whatever follows its chunks. -/
theorem runDecrypt_prints (streaming : args.allowUnverifiedStream = true)
    {recipPriv : FixedBytes 32} {signingKey : crates.curve.SigningKey}
    (loaded : loadSecretKey crates host args.keyArgs = .ok recipPriv)
    (valid : crates.curve.signingKey recipPriv = .ok signingKey)
    {headerBytes : FixedBytes wireHeaderSize} {full : List StreamChunk} {last : StreamChunk}
    (conforms : HeaderConforms crates args recipPriv (crates.curve.publicBytes signingKey)
      headerBytes header) (allFull : ∀ chunk ∈ full, chunk.Full) (terminal : last.Terminal)
    (opens : Numbered (StreamChunk.Opens crates header) 0 (full ++ [last])) {stdin : Reader}
    (smooth : Smooth stdin)
    (content_eq : content stdin = headerBytes.toList ++ (wireBytes (full ++ [last]) ++ [])) :
    Ends (fun _ final => final.stdout = plaintextOf (full ++ [last]))
      (fun _ final => final.stdout = plaintextOf (full ++ [last]))
      (runDecrypt crates host args (Process.start stdin)) := by
  obtain ⟨rest, reading, content₁, smooth₁⟩ := readExact_of_smooth smooth headerBytes _ content_eq
  have started : readStdin (fun e => .wireCorruption ("Failed to read 97-byte header: " ++
      e.message)) wireHeaderSize (Process.start stdin) = .ok headerBytes ⟨rest, []⟩ :=
    readStdin_of_readExact reading
  have spooled : ∀ {P : Prop}, args.allowUnverifiedStream = false → P := by
    intro P impossible
    rw [streaming] at impossible
    cases impossible
  have ahead : DecryptAhead crates args header [] (plaintextOf (full ++ [last])) full last []
      ⟨0, Spool.start host args.maxSize, []⟩ ⟨rest, []⟩ :=
    ⟨smooth₁, content₁, opens, allFull, terminal, rfl, fun _ => rfl, fun impossible =>
      spooled impossible⟩
  have checked := checkHeader_eq_ok_iff.mpr conforms
  obtain ⟨state, second, looped, content₂, _⟩ := decryptChunks_of_ahead ahead
  have begun : DecryptProgress crates args header ⟨rest, []⟩ (Spool.start host args.maxSize) []
      ⟨0, Spool.start host args.maxSize, []⟩ ⟨rest, []⟩ :=
    ⟨rfl, numbered_nil, rfl, by simp [plaintextOf], (List.append_nil _).symm, id,
      fun impossible => spooled impossible⟩
  obtain ⟨full', last', allFull', terminal', progress⟩ := (decryptChunks_ends begun).ok looped
  have same : wireBytes (full' ++ [last']) ++ content second.stdin =
      wireBytes (full ++ [last]) ++ [] := progress.content_eq.symm.trans content₁
  obtain ⟨rfl, rfl, _⟩ := chunks_unique crates progress.opens opens allFull' allFull terminal'
    terminal same
  have wrote : Wrote (plaintextOf (full' ++ [last'])) second := by
    rw [Wrote, Process.stdout_of_events progress.events, stdout_chunkEvents, streaming]
    rfl
  have kept : ∀ {α : Type} {program : Run α}, Preserves (Wrote (plaintextOf (full' ++ [last'])))
      program → ∀ process, Wrote (plaintextOf (full' ++ [last'])) process →
      Ends (fun _ after => Wrote (plaintextOf (full' ++ [last'])) after)
        (fun _ after => Wrote (plaintextOf (full' ++ [last'])) after) (program process) :=
    fun preserves process wrote => preserves process wrote
  rw [runDecrypt, loaded, bind_of_ok (show orStop _ _ = .ok recipPriv _ from rfl), valid,
    bind_of_ok (show orFail _ _ _ = .ok signingKey _ from rfl), bind_of_ok started, checked,
    bind_of_ok (show orFail _ _ _ = .ok header _ from rfl), bind_of_ok looped]
  simp only [streaming, ↓reduceIte]
  exact kept (.bind (trailerStage_wrote header state.hashed) fun _ =>
    .bind assertEndOfInput_wrote fun _ => .pure ()) second wrote

end Streaming

/-! ## `verify` -/

section Verify

theorem absorbStep_refuses {state : AbsorbState} {process : Process}
    (smooth : Smooth process.stdin) :
    Ends (fun outcome after => ∀ next, outcome = .inl next → Smooth after.stdin)
      (fun stop _ => ∃ error, stop = .failed (.usageError error))
      (absorbStep crates state process) := by
  obtain ⟨bytes, rest, reading, _, smooth', _⟩ :=
    read_smooth (by decide : 0 < chunkSize) smooth
  have read : onStdin (read chunkSize) process = .ok (.ok bytes) ⟨rest, process.events⟩ := by
    change EStateM.Result.ok _ _ = _
    rw [reading]
  rw [absorbStep, bind_of_ok read]
  cases bytes with
  | nil => exact fun _ impossible => absurd impossible Sum.inr_ne_inl
  | cons byte bytes =>
      rw [bind_of_ok (show orFail _ _ _ = .ok (byte :: bytes) _ from rfl), ends_bind]
      refine ends_orFail (fun spool _ => ?_) (fun error _ => ⟨error, rfl⟩)
      exact fun _ _ => smooth'

/-- Only the spool stops the loop over input without errors. -/
theorem absorbStdin_refuses (spool : Option Spool) {process : Process}
    (smooth : Smooth process.stdin) :
    Ends (fun _ _ => True) (fun stop _ => ∃ error, stop = .failed (.usageError error))
      (absorbStdin crates spool process) := by
  unfold absorbStdin
  refine loop_ends (fun _ process => Smooth process.stdin) (fun state process smooth => ?_) smooth
  refine (absorbStep_refuses smooth).mono ?_ (fun _ _ refused => refused)
  intro outcome after quiet
  cases outcome with
  | inl next => exact quiet next rfl
  | inr result => trivial

variable {options : VerifyOptions} {payload : SignaturePayload} {max : UInt64}

/-- What a verification writes is no longer than the ceiling. -/
theorem verifyStdin_bounded (trusted : SpoolTrusted crates host)
    (limited : options.maxSize = some max) (stdin : Reader) :
    Ends (fun _ final => final.stdout.length ≤ max.toNat)
      (fun _ final => final.stdout.length ≤ max.toNat)
      (verifyStdin crates host options payload (Process.start stdin)) := by
  have nothing : ∀ {process : Process}, process.stdout = [] →
      process.stdout.length ≤ max.toNat := by
    intro process silent
    rw [silent]
    exact Nat.zero_le _
  rw [verifyStdin, ends_bind]
  refine (absorbStdin_ends (passThroughSpool host options) ?_ (Process.start stdin)).mono ?_ ?_
  · intro spool begun
    unfold passThroughSpool at begun
    split at begun
    · cases begun
      exact Spool.holds_start crates.aead host options.maxSize
    · cases begun
  · rintro absorbed first ⟨reached, _⟩
    have quiet : first.stdout = [] := Process.stdout_of_events_start reached.events
    rw [ends_bind]
    refine ends_orFail (fun signerPk _ => ?_) (fun _ _ => nothing quiet)
    rw [ends_bind]
    refine (checkSigner_ends options signerPk first).mono ?_ ?_
    · rintro _ second ⟨_, stdout_eq, _⟩
      refine (releaseVerified_ends trusted reached.spooled (stdout_eq.trans quiet)).mono ?_
        (fun _ _ impossible => impossible.elim)
      intro _ final released
      split at released
      · rw [released.1]
        exact released.2 max limited
      · exact nothing released
    · rintro _ after ⟨stdout_eq, _⟩
      exact nothing (stdout_eq.trans quiet)
  · rintro _ after ⟨events, _⟩
    exact nothing (Process.stdout_of_events_start events)

/-- Input over the ceiling is refused before its signature is checked. -/
theorem verifyStdin_of_longer (trusted : SpoolTrusted crates host)
    (limited : options.maxSize = some max) (passing : options.passThrough = true)
    {stdin : Reader} (smooth : Smooth stdin) (longer : max.toNat < (content stdin).length) :
    exitStatus (verifyStdin crates host options payload (Process.start stdin)) = some 2 := by
  have begun : ∀ spool, passThroughSpool host options = some spool →
      Spool.Holds crates.aead spool [] := by
    intro spool same
    rw [passThroughSpool, if_pos passing] at same
    cases same
    exact Spool.holds_start crates.aead host options.maxSize
  have absorbing := (absorbStdin_ends (passThroughSpool host options) begun
    (Process.start stdin)).and (absorbStdin_refuses (passThroughSpool host options) smooth)
  rw [verifyStdin]
  change exitStatus ((absorbStdin crates (passThroughSpool host options) >>= _)
    (Process.start stdin)) = _
  cases absorbed : absorbStdin crates (passThroughSpool host options) (Process.start stdin) with
  | error stop final =>
      obtain ⟨_, error, rfl⟩ := absorbing.error absorbed
      rw [bind_of_error absorbed]
      rfl
  | ok state final =>
      obtain ⟨⟨reached, whole⟩, _⟩ := absorbing.ok absorbed
      have took := reached.spooled
      have hashed : state.hashed = content stdin := whole smooth
      rw [hashed, passThroughSpool, if_pos passing] at took
      cases spool_eq : state.spool with
      | none =>
          rw [spool_eq] at took
          cases took
      | some spool =>
          rw [spool_eq] at took
          cases took with
          | some took =>
              obtain ⟨holds, continues, ceiling⟩ := took
              have within := UInt64.le_iff_toNat_le.mp (ceiling max limited)
              rw [UInt64.toNat_ofNat_of_lt'
                (holds.length_lt (continues.honest trusted.honest).capacity_lt)] at within
              exact absurd within (Nat.not_le_of_lt longer)

end Verify

/-! ## The commands -/

/-- When `decrypt` enforces the value: a number for a stream that is spooled, or no key ever; and
what is no number is refused only with the key options. -/
def DecryptEnforces (crates : Crates) (args : List String) (value : String) : Prop :=
  match parseMaxSize value with
  | none => KeyRefused crates args
  | some _ => (decryptOptions args).allowUnverified = false ∨ ¬ KeyLoads crates args

/-- When `verify` enforces the value: every number; and what is no number is refused only with
the other options. -/
def VerifyEnforces (args : List String) (value : String) : Prop :=
  parseMaxSize value = none →
    ((verifyOptions args).passThrough = true ∧ (verifyOptions args).expectedPub = none) ∨
      (verifyOptions args).sigPath = none

/-- Without input the header is missing. -/
theorem runDecrypt_of_no_input {recipPriv : FixedBytes 32} {recipKey : crates.curve.SigningKey}
    (loaded : loadSecretKey crates host args.keyArgs = .ok recipPriv)
    (valid : crates.curve.signingKey recipPriv = .ok recipKey) :
    exitStatus (runDecrypt crates host args (Process.start [])) = some 1 := by
  rw [runDecrypt, loaded, bind_of_ok (show orStop _ _ = .ok recipPriv _ from rfl), valid,
    bind_of_ok (show orFail _ _ _ = .ok recipKey _ from rfl)]
  rw [bind_of_error (readStdin_of_error (show readExact wireHeaderSize (Process.start []).stdin =
    (.error endInsideBuffer, []) from rfl))]
  rfl

theorem runDecrypt_of_unloaded {stop : Stop}
    (unloaded : loadSecretKey crates host args.keyArgs = .error stop) (stdin : Reader) :
    runDecrypt crates host args (Process.start stdin) = .error stop (Process.start stdin) := by
  rw [runDecrypt, unloaded]
  rfl

theorem runDecrypt_of_invalid {recipPriv : FixedBytes 32} {message : String}
    (loaded : loadSecretKey crates host args.keyArgs = .ok recipPriv)
    (invalid : crates.curve.signingKey recipPriv = .error message) (stdin : Reader) :
    runDecrypt crates host args (Process.start stdin) =
      .error (.failed (.usageError ("Invalid secret key: " ++ message))) (Process.start stdin) := by
  rw [runDecrypt, loaded, bind_of_ok (show orStop _ _ = .ok recipPriv _ from rfl), invalid]
  rfl

section Decrypt

variable {args : List String} {value : String} {stdin : Reader}

theorem runDecrypt_without_key (never : ¬ KeyLoads crates args) (host : Host) (stdin : Reader) :
    ∃ stop, runDecrypt crates host (decryptArgs args) (Process.start stdin) =
      .error stop (Process.start stdin) := by
  cases loaded : loadSecretKey crates host (decryptArgs args).keyArgs with
  | error stop => exact ⟨stop, runDecrypt_of_unloaded loaded stdin⟩
  | ok recipPriv =>
      cases valid : crates.curve.signingKey recipPriv with
      | error message => exact ⟨_, runDecrypt_of_invalid loaded valid stdin⟩
      | ok recipKey => exact absurd ⟨host, recipPriv, recipKey, loaded, valid⟩ never

/-- What is no number is refused exactly when the key options are. -/
theorem keyRefused_iff (unparsed : parseMaxSize value = none) :
    (∀ host stdin, host.disk.Honest → KeepsMaxSize value (DecryptsBeyond crates host args stdin)
      (exitStatus (runDecrypt crates host (decryptArgs args) (Process.start stdin)),
        reported (runDecrypt crates host (decryptArgs args) (Process.start stdin)))) ↔
      KeyRefused crates args := by
  simp only [KeepsMaxSize, unparsed, stdout_reported]
  constructor
  · intro keeps host
    let host' : Host := { host with disk := emptyDisk }
    have same : loadSecretKey crates host' (decryptArgs args).keyArgs =
        loadSecretKey crates host (parseKeyIntakeArgs args) := loadSecretKey_withDisk crates host _ _
    have refused := (keeps host' [] emptyDisk_honest).1
    cases loaded : loadSecretKey crates host (parseKeyIntakeArgs args) with
    | error stop =>
        rw [runDecrypt_of_unloaded (same.trans loaded)] at refused
        cases stop with
        | failed error =>
            cases error with
            | usageError message => exact .inl ⟨message, rfl⟩
            | _ => cases refused
        | _ => cases refused
    | ok recipPriv =>
        cases valid : crates.curve.signingKey recipPriv with
        | error message => exact .inr ⟨recipPriv, message, rfl, valid⟩
        | ok recipKey =>
            rw [runDecrypt_of_no_input (same.trans loaded) valid] at refused
            cases refused
  · intro refused host stdin _
    rcases refused host with ⟨message, unloaded⟩ | ⟨recipPriv, message, loaded, invalid⟩
    · rw [runDecrypt_of_unloaded (show loadSecretKey crates host (decryptArgs args).keyArgs = _
        from unloaded)]
      exact ⟨rfl, rfl⟩
    · rw [runDecrypt_of_invalid (show loadSecretKey crates host (decryptArgs args).keyArgs = _
        from loaded) invalid]
      exact ⟨rfl, rfl⟩

theorem decrypt_bounds_iff [AddCommGroup crates.curve.Point] (laws : Lawful crates) {max : UInt64}
    (parsed : parseMaxSize value = some max) (limited : (decryptOptions args).maxSize = some max) :
    (∀ host stdin, host.disk.Honest → KeepsMaxSize value (DecryptsBeyond crates host args stdin)
      (exitStatus (runDecrypt crates host (decryptArgs args) (Process.start stdin)),
        reported (runDecrypt crates host (decryptArgs args) (Process.start stdin)))) ↔
      (decryptOptions args).allowUnverified = false ∨ ¬ KeyLoads crates args := by
  simp only [KeepsMaxSize, parsed, stdout_reported]
  constructor
  · intro keeps
    by_contra neither
    obtain ⟨streaming, loads⟩ := not_or.mp neither
    have streaming : (decryptArgs args).allowUnverifiedStream = true :=
      Bool.eq_true_of_not_eq_false streaming
    obtain ⟨host, recipPriv, recipKey, loaded, valid⟩ := not_not.mp loads
    let host' : Host := { host with disk := emptyDisk }
    have loaded' : loadSecretKey crates host' (decryptArgs args).keyArgs = .ok recipPriv :=
      (loadSecretKey_withDisk crates host emptyDisk _).trans loaded
    obtain ⟨headerBytes, header, full, last, conforms, allFull, terminal, opens, length⟩ :=
      laws.exists_stream host' (decryptArgs args) valid (max.toNat + 1)
    let data := headerBytes.toList ++ (wireBytes (full ++ [last]) ++ [])
    have printing := runDecrypt_prints streaming loaded' valid conforms allFull terminal opens
      (smooth_ofBytes data) (content_ofBytes data)
    have bounded := (keeps host' (ofBytes data) emptyDisk_honest).1
    cases ran : runDecrypt crates host' (decryptArgs args) (Process.start (ofBytes data)) with
    | ok _ final =>
        simp only [ran, printing.ok ran, length] at bounded
        omega
    | error _ final =>
        simp only [ran, printing.error ran, length] at bounded
        omega
  · intro condition host stdin honest
    have trusted : SpoolTrusted crates host := ⟨laws.inverts _, honest⟩
    have bounding : (decryptOptions args).allowUnverified = false →
        Ends (fun _ final => final.stdout.length ≤ max.toNat) (fun _ final => final.stdout = [])
          (runDecrypt crates host (decryptArgs args) (Process.start stdin)) :=
      fun spooling => runDecrypt_bounded spooling trusted limited stdin
    constructor
    · cases ran : runDecrypt crates host (decryptArgs args) (Process.start stdin) with
      | ok _ final =>
          obtain ⟨stream, accepted⟩ := (runDecrypt_ends crates host _ stdin).ok ran
          obtain ⟨recipPriv, recipKey, loaded, valid, _⟩ := accepted.conforms
          exact (bounding (condition.resolve_right fun never =>
            never ⟨host, recipPriv, recipKey, loaded, valid⟩)).ok ran
      | error stop final =>
          dsimp only
          rcases condition with spooling | never
          · rw [(bounding spooling).error ran]
            exact Nat.zero_le _
          · obtain ⟨stop', refused⟩ := runDecrypt_without_key never host stdin
            rw [refused] at ran
            cases ran
            exact Nat.zero_le _
    · rintro ⟨patient, recipPriv, recipKey, loaded, valid, beyond⟩
      have spooling := condition.resolve_right fun never =>
        never ⟨host, recipPriv, recipKey, loaded, valid⟩
      exact runDecrypt_of_exceeding spooling trusted limited loaded valid patient beyond

end Decrypt

theorem realMain_verify {rounds : Nat} {exe : String} {args : List String} {stdin : Reader}
    (direct : isGitInvocation exe "verify" = false) :
    realMain crates host rounds (exe :: "verify" :: args) stdin =
      (exitStatus (verifyCommand crates host args (Process.start stdin)),
        reported (verifyCommand crates host args (Process.start stdin))) := by
  simp only [realMain, runCommand, direct, Bool.false_eq_true, ↓reduceIte, dispatchCommand]

section VerifyCommand

variable {args : List String} {value : String} {stdin : Reader}

theorem verifyCommand_of_refused
    (refused : ((verifyOptions args).passThrough = true ∧
      (verifyOptions args).expectedPub = none) ∨ (verifyOptions args).sigPath = none) :
    ∃ message, verifyCommand crates host args (Process.start stdin) =
      .error (.failed (.usageError message)) (Process.start stdin) := by
  unfold verifyCommand
  by_cases unguarded : (verifyOptions args).passThrough = true ∧
      (verifyOptions args).expectedPub.isNone = true
  · simp only [unguarded, and_self, ↓reduceIte]
    exact ⟨_, rfl⟩
  · have missing : (verifyOptions args).sigPath = none := by
      refine refused.resolve_left fun both => unguarded ⟨both.1, ?_⟩
      rw [both.2]
      rfl
    simp only [unguarded, ↓reduceIte, loadSignature, missing]
    exact ⟨_, rfl⟩

/-- An empty signature file is malformed. -/
theorem verifyCommand_of_empty_signature
    (guarded : ¬ ((verifyOptions args).passThrough = true ∧
      (verifyOptions args).expectedPub = none)) {path : String}
    (given : (verifyOptions args).sigPath = some path)
    (readable : host.fileContents (PathBuf.parse path) = .ok []) :
    exitStatus (verifyCommand crates host args (Process.start stdin)) = some 1 := by
  have guarded : ¬ ((verifyOptions args).passThrough = true ∧
      (verifyOptions args).expectedPub.isNone = true) :=
    fun both => guarded ⟨both.1, Option.isNone_iff_eq_none.mp both.2⟩
  have detached : detachArmor crates [] = .ok [] := detachArmor_raw fun text decoded => by
    cases decoded
    decide
  have loaded : loadSignature crates host (verifyOptions args) =
      .error (.wireCorruption "Signature payload must be exactly 105 bytes (got 0)") :=
    loadSignature_of_detached given readable detached
  unfold verifyCommand
  simp only [guarded, ↓reduceIte, loaded]
  rfl

theorem verify_refuses_iff (unparsed : parseMaxSize value = none) :
    (∀ host stdin, host.disk.Honest → KeepsMaxSize value (PassesBeyond crates host args stdin)
      (exitStatus (verifyCommand crates host args (Process.start stdin)),
        reported (verifyCommand crates host args (Process.start stdin)))) ↔
      ((verifyOptions args).passThrough = true ∧ (verifyOptions args).expectedPub = none) ∨
        (verifyOptions args).sigPath = none := by
  simp only [KeepsMaxSize, unparsed, stdout_reported]
  constructor
  · intro keeps
    by_contra neither
    obtain ⟨guarded, given⟩ := not_or.mp neither
    obtain ⟨path, given⟩ := Option.ne_none_iff_exists'.mp given
    have refused := (keeps (Reference.signatureHost []) [] (Reference.keyHost_disk_honest
      Reference.sampleSender Reference.sampleEphemeral)).1
    rw [verifyCommand_of_empty_signature guarded given rfl] at refused
    cases refused
  · intro refused host stdin _
    obtain ⟨message, result⟩ := @verifyCommand_of_refused crates host args stdin refused
    rw [result]
    exact ⟨rfl, rfl⟩

theorem verify_bounds [AddCommGroup crates.curve.Point] (laws : Lawful crates) {max : UInt64}
    (parsed : parseMaxSize value = some max) (limited : (verifyOptions args).maxSize = some max)
    (host : Host) (honest : host.disk.Honest) :
    KeepsMaxSize value (PassesBeyond crates host args stdin)
      (exitStatus (verifyCommand crates host args (Process.start stdin)),
        reported (verifyCommand crates host args (Process.start stdin))) := by
  have trusted : SpoolTrusted crates host := ⟨laws.inverts _, honest⟩
  simp only [KeepsMaxSize, parsed, stdout_reported]
  constructor
  · have bounded : Ends (fun _ final => final.stdout.length ≤ max.toNat)
        (fun _ final => final.stdout.length ≤ max.toNat)
        (verifyCommand crates host args (Process.start stdin)) := by
      unfold verifyCommand
      by_cases unguarded : (verifyOptions args).passThrough = true ∧
          (verifyOptions args).expectedPub.isNone = true
      · simp only [unguarded, and_self, ↓reduceIte]
        exact Nat.zero_le _
      · simp only [unguarded, ↓reduceIte, ends_bind]
        refine ends_orFail (fun payload _ => ?_) (fun _ _ => Nat.zero_le _)
        exact verifyStdin_bounded trusted limited stdin
    cases ran : verifyCommand crates host args (Process.start stdin) with
    | ok _ final => exact bounded.ok ran
    | error _ final => exact bounded.error ran
  · rintro ⟨smooth, passing, longer, payload, exp, loaded, expected, _⟩
    have guarded : ¬ ((verifyOptions args).passThrough = true ∧
        (verifyOptions args).expectedPub.isNone = true) := by
      rw [expected]
      simp
    unfold verifyCommand
    simp only [guarded, ↓reduceIte, loaded]
    exact verifyStdin_of_longer trusted limited passing smooth longer

end VerifyCommand

/-- On hosts whose disk reads back what was written, the value of the last `--max-size` is
enforced on every input exactly when it is a number and, for `decrypt`, the stream is spooled;
what is no number is enforced only where the rest of the command line is refused. -/
theorem max_size_enforced_iff (crates : Crates) [AddCommGroup crates.curve.Point]
    (laws : Lawful crates) (rounds : Nat) (exe : String) (args : List String) (value : String) :
    (isGitInvocation exe "decrypt" = false →
      lastValue "--max-size" (decryptItems args) = some value →
      ((∀ host stdin, host.disk.Honest → KeepsMaxSize value (DecryptsBeyond crates host args stdin)
        (realMain crates host rounds (exe :: "decrypt" :: args) stdin)) ↔
        DecryptEnforces crates args value)) ∧
    (isGitInvocation exe "verify" = false →
      lastValue "--max-size" (verifyItems args) = some value →
      ((∀ host stdin, host.disk.Honest → KeepsMaxSize value (PassesBeyond crates host args stdin)
        (realMain crates host rounds (exe :: "verify" :: args) stdin)) ↔
        VerifyEnforces args value)) := by
  constructor
  · intro direct given
    have limited := decryptOptions_maxSize given
    simp only [realMain_decrypt direct]
    cases parsed : parseMaxSize value with
    | none =>
        simp only [DecryptEnforces, parsed]
        exact keyRefused_iff parsed
    | some max =>
        simp only [DecryptEnforces, parsed]
        exact decrypt_bounds_iff laws parsed (limited.trans parsed)
  · intro direct given
    have limited := verifyOptions_maxSize given
    simp only [realMain_verify direct]
    cases parsed : parseMaxSize value with
    | none =>
        simp only [VerifyEnforces, parsed, true_implies]
        exact verify_refuses_iff parsed
    | some max =>
        refine iff_of_true (fun host stdin honest => ?_) (fun unparsed => ?_)
        · exact verify_bounds laws parsed (limited.trans parsed) host honest
        · rw [parsed] at unparsed
          cases unparsed

/-- A valid value of the last `--max-size` bounds what `verify` writes, and what `decrypt` writes
of a stream that it spools, and a longer payload is refused. -/
theorem max_size_bounds_payload (crates : Crates) [AddCommGroup crates.curve.Point]
    (laws : Lawful crates) (rounds : Nat) (exe : String) (args : List String) (value : String)
    (max : UInt64) (parsed : parseMaxSize value = some max) (host : Host)
    (honest : host.disk.Honest) (stdin : Reader) :
    (isGitInvocation exe "decrypt" = false →
      lastValue "--max-size" (decryptItems args) = some value →
      (decryptOptions args).allowUnverified = false →
      (realMain crates host rounds (exe :: "decrypt" :: args) stdin).2.stdout.length ≤
          max.toNat ∧
        (DecryptsBeyond crates host args stdin max.toNat →
          (realMain crates host rounds (exe :: "decrypt" :: args) stdin).1 = some 2)) ∧
    (isGitInvocation exe "verify" = false →
      lastValue "--max-size" (verifyItems args) = some value →
      (realMain crates host rounds (exe :: "verify" :: args) stdin).2.stdout.length ≤
          max.toNat ∧
        (PassesBeyond crates host args stdin max.toNat →
          (realMain crates host rounds (exe :: "verify" :: args) stdin).1 = some 2)) := by
  constructor
  · intro direct given spooling
    have kept := (decrypt_bounds_iff laws parsed
      ((decryptOptions_maxSize given).trans parsed)).mpr (.inl spooling) host stdin honest
    rw [KeepsMaxSize, parsed] at kept
    rw [realMain_decrypt direct]
    exact kept
  · intro direct given
    have kept := @verify_bounds crates args value stdin _ laws max parsed
      ((verifyOptions_maxSize given).trans parsed) host honest
    rw [KeepsMaxSize, parsed] at kept
    rw [realMain_verify direct]
    exact kept

/-- The stream of correspondents is over every ceiling that its plaintext is longer than. -/
theorem Correspondents.exceedsCeiling [AddCommGroup crates.curve.Point] (laws : Lawful crates)
    {sender recipient : Host} {rounds : Nat} {argsE : EncryptArgs} {argsD : DecryptArgs}
    {recipPriv : FixedBytes 32} {recipKey : crates.curve.SigningKey}
    (agree : Correspondents crates sender recipient rounds argsE argsD recipPriv recipKey)
    {stdin : Reader} (smooth : Smooth stdin) {max : Nat} (longer : max < (content stdin).length)
    {final : Process}
    (ran : runEncrypt crates sender rounds argsE (Process.start stdin) = .ok () final) :
    ExceedsCeiling crates argsD recipPriv (crates.curve.publicBytes recipKey) max final.stdout := by
  obtain ⟨session, full, last, trailer, run⟩ :=
    (runEncrypt_ends crates sender rounds argsE stdin).ok ran
  have opens : Numbered (StreamChunk.Opens crates (session.streamHeader sender)) 0
      (full ++ [last]) :=
    run.seals.mono fun _ chunk member sealed =>
      sealed.opens (laws.inverts session.payloadKey) (run.length_plaintext_le chunk member)
  have conforms := agree.conforms laws.toEncryptLaws run (run.allFull smooth) opens
  have plaintext : content stdin = plaintextOf (full ++ [last]) := by
    have whole := run.content_eq
    rwa [run.exhausted smooth, List.append_nil] at whole
  have wire : final.stdout = (session.stream sender full last trailer).bytes := run.stdout_eq
  rw [plaintext] at longer
  exact exceedsCeiling_of_beyond conforms.header wire conforms.full (.inr conforms.last)
    conforms.opens longer

open Reference in
/-- A ceiling of three bytes: a stream of five bytes is refused, and so is the signed input of
five bytes that `verify` is to pass through. -/
theorem max_size_bounds_payload_sample :
    ((realMain packages (keyHost sampleRecipient sampleEphemeral) 0
          ["pipe-k1", "decrypt", "--max-size", "3"]
          (sealedStream true sampleSender sampleRecipient sampleEphemeral sampleData)).1 = some 2 ∧
      (realMain packages (keyHost sampleRecipient sampleEphemeral) 0
          ["pipe-k1", "decrypt", "--max-size", "3"]
          (sealedStream true sampleSender sampleRecipient sampleEphemeral
            sampleData)).2.stdout.length ≤ 3) ∧
    ∃ payload : SignaturePayload,
      PayloadVerifies packages payload (packages.digests.sha256 sampleData) ∧
      (realMain packages (signatureHost payload.toList) 0
          ["pipe-k1", "verify", "--sig", "data.sig", "--pub", publicHex sampleSender, "--max-size",
            "3", "--pass-through"] (ofBytes sampleData)).1 = some 2 ∧
      (realMain packages (signatureHost payload.toList) 0
          ["pipe-k1", "verify", "--sig", "data.sig", "--pub", publicHex sampleSender, "--max-size",
            "3", "--pass-through"] (ofBytes sampleData)).2.stdout.length ≤ 3 := by
  have parsed : parseMaxSize "3" = some 3 := by decide
  constructor
  · have known := correspondents ChaCha20Poly1305.cipher sampleSender sampleRecipient
      sampleEphemeral 0 true false
    have agree : Correspondents packages (keyHost sampleSender sampleEphemeral)
        (keyHost sampleRecipient sampleEphemeral) 0 (sealArgs true sampleRecipient)
        (decryptArgs ["--max-size", "3"]) (secretBytes sampleRecipient) sampleRecipient :=
      ⟨known.loaded, known.valid, known.named, known.ephemeral, known.mode⟩
    obtain ⟨final, encrypted, stream⟩ :=
      @exists_encrypted true sampleSender sampleRecipient sampleEphemeral sampleData (by decide)
    obtain ⟨bounded, refused⟩ := (max_size_bounds_payload packages lawful 0 "pipe-k1"
      ["--max-size", "3"] "3" 3 parsed (keyHost sampleRecipient sampleEphemeral)
      (keyHost_disk_honest _ _)
      (sealedStream true sampleSender sampleRecipient sampleEphemeral sampleData)).1 rfl
      (by decide) rfl
    have beyond := agree.exceedsCeiling lawful (smooth_ofBytes sampleData)
      (show (3 : UInt64).toNat < _ by rw [content_ofBytes]; decide) encrypted
    rw [stream] at bounded refused ⊢
    refine ⟨refused ⟨(smooth_ofBytes _).patient, secretBytes sampleRecipient, sampleRecipient,
      agree.loaded, agree.valid, ?_⟩, bounded⟩
    rw [content_ofBytes]
    exact beyond
  · obtain ⟨payload, _, signed, detached⟩ := exists_samplePayload 1700000000
    obtain ⟨bounded, refused⟩ := (max_size_bounds_payload packages lawful 0 "pipe-k1"
      ["--sig", "data.sig", "--pub", publicHex sampleSender, "--max-size", "3", "--pass-through"]
      "3" 3 parsed (signatureHost payload.toList)
      (keyHost_disk_honest sampleSender sampleEphemeral) (ofBytes sampleData)).2 rfl rfl
    refine ⟨payload, signed.verifies, refused ⟨smooth_ofBytes sampleData, rfl, ?_, payload,
      publicHex sampleSender, ?_, rfl, ?_, ?_⟩, bounded⟩
    · rw [content_ofBytes]
      decide
    · exact (loadSignature_of_detached rfl rfl detached).trans (payloadOfBytes_toList payload)
    · rw [signed.signer_eq]
      exact parseKeyBytes_hex _ (publicBytes sampleSender)
    · rw [content_ofBytes]
      exact signed.verifies

open Reference in
/-- With `--allow-unverified-stream` the same ceiling lets five bytes through. -/
theorem max_size_of_unverified_stream :
    ¬ KeepsMaxSize "3" (DecryptsBeyond packages (keyHost sampleRecipient sampleEphemeral)
        ["--max-size", "3", "--allow-unverified-stream"]
        (sealedStream true sampleSender sampleRecipient sampleEphemeral sampleData))
      (realMain packages (keyHost sampleRecipient sampleEphemeral) 0
        ["pipe-k1", "decrypt", "--max-size", "3", "--allow-unverified-stream"]
        (sealedStream true sampleSender sampleRecipient sampleEphemeral sampleData)) := by
  let args := ["--max-size", "3", "--allow-unverified-stream"]
  have options : decryptArgs args = ⟨none, false, true, some 3, {}⟩ := rfl
  have parsed : parseMaxSize "3" = some 3 := by decide
  have known := correspondents ChaCha20Poly1305.cipher sampleSender sampleRecipient sampleEphemeral
    0 true true
  have agree : Correspondents packages (keyHost sampleSender sampleEphemeral)
      (keyHost sampleRecipient sampleEphemeral) 0 (sealArgs true sampleRecipient)
      ⟨none, false, true, some 3, {}⟩ (secretBytes sampleRecipient) sampleRecipient :=
    ⟨known.loaded, known.valid, known.named, known.ephemeral, known.mode⟩
  obtain ⟨finalE, encrypted, stream⟩ :=
    @exists_encrypted true sampleSender sampleRecipient sampleEphemeral sampleData (by decide)
  obtain ⟨finalD, decrypted, output⟩ := agree.decrypts lawful (smooth_ofBytes sampleData)
    (smooth_ofBytes finalE.stdout) (fun spooling => nomatch spooling)
    (fun spooling => nomatch spooling) encrypted (content_ofBytes _)
  rw [KeepsMaxSize, parsed, realMain_decrypt rfl, stream]
  rintro ⟨bounded, _⟩
  rw [show decryptArgs ["--max-size", "3", "--allow-unverified-stream"] = _ from options,
    decrypted] at bounded
  change finalD.stdout.length ≤ 3 at bounded
  rw [output, content_ofBytes] at bounded
  exact absurd bounded (by decide)

end PipeK1
