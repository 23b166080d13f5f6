import PipeK1.Cli
import PipeK1.PairedRuns
import PipeK1.RoundTrip

/-!
# Unverified streaming and spooled decryption

With the same input the two output disciplines read and compute the same. The
streaming run has written what the spooled run holds, chunk by chunk, so that
they end alike, and a streaming run that fails has written the chunks before
the first one that does not authenticate.
-/

set_option autoImplicit false

namespace PipeK1

open ByteData ByteReader Effects Numbering

variable {crates : Crates} {host : Host} {args : DecryptArgs}

/-! ## Authentic chunks -/

/-- Chunks at the front of these bytes that open under consecutive numbers; all but the last
are full ones. -/
inductive Authentic (crates : Crates) (header : StreamHeader) :
    UInt64 → Bytes → List StreamChunk → Prop where
  | nil {counter bytes} : Authentic crates header counter bytes []
  | last {counter chunk rest} :
      chunk.wire.Framed → StreamChunk.Opens crates header counter chunk →
      Authentic crates header counter (chunk.wire.bytes ++ rest) [chunk]
  | cons {counter chunk rest chunks} :
      chunk.Full → StreamChunk.Opens crates header counter chunk →
      Authentic crates header (counter + 1) rest chunks →
      Authentic crates header counter (chunk.wire.bytes ++ rest) (chunk :: chunks)

theorem StreamChunk.Opens.eq {header : StreamHeader} {counter : UInt64}
    {left right : StreamChunk} (opens : StreamChunk.Opens crates header counter left)
    (opens' : StreamChunk.Opens crates header counter right) (same : left.wire = right.wire) :
    left = right := by
  cases left
  cases right
  simp only [StreamChunk.Opens] at opens opens' same
  subst same
  rw [opens] at opens'
  cases opens'
  rfl

theorem StreamChunk.Full.framed {chunk : StreamChunk} (full : chunk.Full) : chunk.wire.Framed :=
  .inl full

/-- The first chunk of authentic chunks, and what follows it. -/
theorem Authentic.first {header : StreamHeader} {counter : UInt64} {bytes : Bytes}
    {chunk : StreamChunk} {chunks : List StreamChunk}
    (authentic : Authentic crates header counter bytes (chunk :: chunks)) :
    ∃ rest, bytes = chunk.wire.bytes ++ rest ∧ chunk.wire.Framed ∧
      StreamChunk.Opens crates header counter chunk ∧
      Authentic crates header (counter + 1) rest chunks ∧ (chunks ≠ [] → chunk.Full) := by
  cases authentic with
  | last framed opens => exact ⟨_, rfl, framed, opens, .nil, fun more => absurd rfl more⟩
  | cons full opens later => exact ⟨_, rfl, full.framed, opens, later, fun _ => full⟩

/-- Of two lists of authentic chunks one is the beginning of the other. -/
theorem Authentic.comparable {header : StreamHeader} {counter : UInt64} {bytes : Bytes}
    {left right : List StreamChunk} (authentic : Authentic crates header counter bytes left)
    (authentic' : Authentic crates header counter bytes right) :
    left <+: right ∨ right <+: left := by
  induction left generalizing counter bytes right with
  | nil => exact .inl List.nil_prefix
  | cons chunk chunks ih =>
      cases right with
      | nil => exact .inr List.nil_prefix
      | cons chunk' chunks' =>
          obtain ⟨rest, bytes_eq, framed, opens, later, _⟩ := authentic.first
          obtain ⟨rest', bytes_eq', framed', opens', later', _⟩ := authentic'.first
          obtain ⟨wires, rests⟩ := WireChunk.bytes_append_inj framed.length_le framed'.length_le
            (bytes_eq.symm.trans bytes_eq')
          rw [← rests] at later'
          rw [opens.eq opens' wires]
          exact (ih later later').imp (List.cons_prefix_cons.mpr ⟨rfl, ·⟩)
            (List.cons_prefix_cons.mpr ⟨rfl, ·⟩)

/-- What stands behind the first of some authentic chunks. -/
theorem Authentic.after {header : StreamHeader} {counter : UInt64} {bytes : Bytes}
    {early late : List StreamChunk}
    (authentic : Authentic crates header counter bytes (early ++ late)) :
    ∃ rest, bytes = wireBytes early ++ rest ∧
      Authentic crates header (counter + UInt64.ofNat early.length) rest late ∧
      (late ≠ [] → ∀ chunk ∈ early, chunk.Full) := by
  induction early generalizing counter bytes with
  | nil =>
      refine ⟨bytes, rfl, ?_, fun _ _ impossible => absurd impossible List.not_mem_nil⟩
      simpa using authentic
  | cons chunk early ih =>
      obtain ⟨rest, rfl, _, _, later, full⟩ := authentic.first
      obtain ⟨rest', rfl, behind, fulls⟩ := ih later
      refine ⟨rest', ?_, ?_, fun more other member => ?_⟩
      · simp [wireBytes]
      · rw [List.length_cons, add_ofNat_succ]
        exact behind
      · rcases List.mem_cons.mp member with rfl | older
        · exact full (List.append_ne_nil_of_right_ne_nil _ more)
        · exact fulls more other older

theorem authentic_of_full {header : StreamHeader} {counter : UInt64} {chunks : List StreamChunk}
    (full : ∀ chunk ∈ chunks, chunk.Full)
    (opens : Numbered (StreamChunk.Opens crates header) counter chunks) (rest : Bytes) :
    Authentic crates header counter (wireBytes chunks ++ rest) chunks := by
  induction chunks generalizing counter with
  | nil => exact .nil
  | cons chunk chunks ih =>
      obtain ⟨opensFirst, opensLater⟩ := numbered_cons_iff.mp opens
      have later := ih (fun other member => full other (List.mem_cons_of_mem _ member)) opensLater
      have bytes : wireBytes (chunk :: chunks) ++ rest =
          chunk.wire.bytes ++ (wireBytes chunks ++ rest) := by
        simp [wireBytes]
      rw [bytes]
      exact .cons (full chunk List.mem_cons_self) opensFirst later

theorem authentic_of_terminal {header : StreamHeader} {counter : UInt64}
    {full : List StreamChunk} {last : StreamChunk} (allFull : ∀ chunk ∈ full, chunk.Full)
    (terminal : last.Terminal)
    (opens : Numbered (StreamChunk.Opens crates header) counter (full ++ [last])) (rest : Bytes) :
    Authentic crates header counter (wireBytes (full ++ [last]) ++ rest) (full ++ [last]) := by
  induction full generalizing counter with
  | nil =>
      have bytes : wireBytes ([] ++ [last]) ++ rest = last.wire.bytes ++ rest := by
        simp [wireBytes]
      rw [bytes]
      exact .last (.inr terminal) (numbered_cons_iff.mp opens).1
  | cons chunk full ih =>
      obtain ⟨opensFirst, opensLater⟩ := numbered_cons_iff.mp opens
      have later := ih (fun other member => allFull other (List.mem_cons_of_mem _ member)) opensLater
      have bytes : wireBytes (chunk :: full ++ [last]) ++ rest =
          chunk.wire.bytes ++ (wireBytes (full ++ [last]) ++ rest) := by
        simp [wireBytes]
      rw [bytes]
      exact .cons (allFull chunk List.mem_cons_self) opensFirst later

/-- The longest list of authentic chunks at the front of these bytes. -/
structure MaximalPrefix (crates : Crates) (header : StreamHeader) (bytes : Bytes)
    (done : List StreamChunk) : Prop where
  authentic : Authentic crates header 0 bytes done
  longest : ∀ other, Authentic crates header 0 bytes other → other <+: done

/-- Full chunks that no chunk continues. -/
theorem maximal_of_stuck {header : StreamHeader} {done : List StreamChunk} {rest : Bytes}
    (full : ∀ chunk ∈ done, chunk.Full)
    (opens : Numbered (StreamChunk.Opens crates header) 0 done)
    (stuck : ∀ chunk later, rest = chunk.wire.bytes ++ later → chunk.wire.Framed →
      ¬ StreamChunk.Opens crates header (UInt64.ofNat done.length) chunk) :
    MaximalPrefix crates header (wireBytes done ++ rest) done where
  authentic := authentic_of_full full opens rest
  longest other authentic := by
    rcases authentic.comparable (authentic_of_full full opens rest) with shorter | ⟨more, rfl⟩
    · exact shorter
    · cases more with
      | nil => rw [List.append_nil]
      | cons chunk more =>
          obtain ⟨rest', bytes_eq, behind, _⟩ := authentic.after
          obtain ⟨later, rest_eq, framed, opensNext, _⟩ := behind.first
          rw [UInt64.zero_add] at opensNext
          exact absurd opensNext
            (stuck chunk later ((List.append_cancel_left bytes_eq).trans rest_eq) framed)

/-- Nothing continues a terminal chunk. -/
theorem maximal_of_terminal {header : StreamHeader} {full : List StreamChunk}
    {last : StreamChunk} (allFull : ∀ chunk ∈ full, chunk.Full) (terminal : last.Terminal)
    (opens : Numbered (StreamChunk.Opens crates header) 0 (full ++ [last])) (rest : Bytes) :
    MaximalPrefix crates header (wireBytes (full ++ [last]) ++ rest) (full ++ [last]) where
  authentic := authentic_of_terminal allFull terminal opens rest
  longest other authentic := by
    rcases authentic.comparable (authentic_of_terminal allFull terminal opens rest) with
      shorter | ⟨more, rfl⟩
    · exact shorter
    · cases more with
      | nil => rw [List.append_nil]
      | cons chunk more =>
          obtain ⟨_, _, _, fulls⟩ := authentic.after
          have whole := fulls (List.cons_ne_nil _ _) last (List.mem_append_right _ List.mem_cons_self)
          have tags := terminal.1
          rw [whole.1] at tags
          exact absurd tags (by decide)

/-! ## Both disciplines side by side -/

/-- The same input ahead, at most `total` bytes; the left run has written `written`, the right
one nothing. -/
structure SameInput (total : Nat) (written : Bytes) (left right : Process) : Prop where
  stdin : left.stdin = right.stdin
  ahead : (content left.stdin).length ≤ total
  output : left.stdout = written
  quiet : right.stdout = []

/-- Both runs stop for the same reason. -/
def sameStop : Divergence Stop Process Process where
  left _ _ := False
  right _ _ := False
  stop reason _ reason' _ := reason = reason'

theorem sameInput_tracks (total : Nat) (written : Bytes) :
    Tracks (SameInput total written) sameStop where
  reads convert width left right _ same := by
    cases reading : readExact width left.stdin with
    | mk outcome rest =>
        have reading' : readExact width right.stdin = (outcome, rest) := same.stdin ▸ reading
        cases outcome with
        | ok buffer =>
            have ahead := same.ahead
            rw [readExact_ok_content reading, List.length_append] at ahead
            rw [readStdin_of_readExact reading, readStdin_of_readExact reading']
            exact .both ⟨rfl, rfl, Nat.le_of_add_left_le ahead, same.output, same.quiet⟩
        | error e =>
            rw [readStdin_of_error reading, readStdin_of_error reading']
            exact .stop rfl
  records same silent := {
    stdin := same.stdin
    ahead := same.ahead
    output := by
      rw [stdout_record, silent, List.append_nil]
      exact same.output
    quiet := by
      rw [stdout_record, silent, List.append_nil]
      exact same.quiet }
  stops _ _ := .inr rfl

/-- The spool of the right run holds what the left one has written, and the disk has room for
what is still to come. -/
structure Paired (crates : Crates) (host : Host) (total : Nat) (state : DecryptState)
    (left : Process) (state' : DecryptState) (right : Process) : Prop where
  counter : state.chunkCounter = state'.chunkCounter
  hashed : state.hashed = state'.hashed
  same : SameInput total left.stdout left right
  holds : Spool.Holds crates.aead state'.spool left.stdout
  continues : Spool.Continues (Spool.start host none) state'.spool
  room : left.stdout.length + (content left.stdin).length ≤ total

theorem decryptStep_paired {total : Nat}
    (seals : crates.aead.SealsUpTo host.spoolKey spoolChunkSize)
    (takes : host.disk.Takes (21 * total)) (header : StreamHeader) {state state' : DecryptState}
    {left right : Process} (paired : Paired crates host total state left state' right) :
    Lockstep (AfterRound (Paired crates host total) (Paired crates host total)) sameStop
      (decryptStep crates { args with allowUnverifiedStream := true } header state left)
      (decryptStep crates { args with allowUnverifiedStream := false } header state' right) := by
  obtain ⟨counter, hashed⟩ := And.intro paired.counter paired.hashed
  refine (((sameInput_tracks _ _).readChunk paired.same).and (readChunk_ends left)
    (readChunk_ends right)).bind ?_
  rintro chunk first _ first' ⟨⟨rfl, same⟩, ⟨content_eq, _, _, _⟩, _⟩
  rw [counter]
  cases opened : openChunk crates header state'.chunkCounter chunk with
  | error e => exact .stop rfl
  | ok plaintext =>
      have width : plaintext.length = chunk.ciphertext.length := crates.aead.length_decrypt opened
      have consumed : chunk.ciphertext.length + (content first.stdin).length ≤
          (content left.stdin).length := by
        rw [content_eq, WireChunk.bytes]
        simp only [List.length_append, List.length_cons]
        omega
      have room := paired.room
      have writing := Spool.writeChunk_ends crates.aead plaintext left.stdout state'.spool
        paired.holds
      cases written : state'.spool.writeChunk crates.aead plaintext with
      | error error spool =>
          exfalso
          rcases writing.error written with ⟨max, ceiling, _⟩ | stuck
          · rw [paired.continues.maxSize] at ceiling
            cases ceiling
          · refine stuck ⟨paired.continues.spoolKey ▸ seals, paired.continues.takes takes ?_⟩
            rw [List.length_append]
            omega
      | ok value spool =>
          obtain ⟨holds, continues, _⟩ := writing.ok written
          let authenticated : Event :=
            .chunkAuthenticated state'.chunkCounter chunk.termTag plaintext
          let later : Process :=
            ⟨first.stdin, first.events ++ [authenticated] ++ [.stdout plaintext]⟩
          have output : later.stdout = left.stdout ++ plaintext := by
            rw [stdout_record, stdout_record, ← same.output]
            simp [authenticated, Event.stdoutBytes]
          have next : Paired crates host total
              ⟨state'.chunkCounter + 1, state.spool,
                if header.mode = 0x01 then state'.hashed ++ plaintext else state'.hashed⟩ later
              ⟨state'.chunkCounter + 1, spool,
                if header.mode = 0x01 then state'.hashed ++ plaintext else state'.hashed⟩
              ⟨first'.stdin, first'.events ++ [authenticated]⟩ :=
            ⟨rfl, rfl, ⟨same.stdin, same.ahead, rfl, ((sameInput_tracks _ _).records same rfl).quiet⟩,
              by rw [output]; exact holds, paired.continues.trans continues, by
                rw [output, List.length_append]
                change _ + (content first.stdin).length ≤ total
                omega⟩
          simp only [deliverChunk, Bool.false_eq_true, ↓reduceIte, written, hashed]
          by_cases terminal : chunk.termTag = 0x01
          · simp only [if_pos terminal]
            exact .both next
          · simp only [if_neg terminal]
            exact .both next

theorem decryptChunks_paired {total : Nat}
    (seals : crates.aead.SealsUpTo host.spoolKey spoolChunkSize)
    (takes : host.disk.Takes (21 * total)) (header : StreamHeader) {state state' : DecryptState}
    {left right : Process} (paired : Paired crates host total state left state' right) :
    Lockstep (Paired crates host total) sameStop
      (decryptChunks crates { args with allowUnverifiedStream := true } header state left)
      (decryptChunks crates { args with allowUnverifiedStream := false } header state' right) := by
  refine lockstep_loop (Paired crates host total) ?_ paired
  intro state left state' right paired
  exact @decryptStep_paired crates host args total seals takes header _ _ _ _ paired

theorem assertEndOfInput_paired {total : Nat} {written : Bytes} {left right : Process}
    (same : SameInput total written left right) :
    Lockstep (fun _ later _ later' =>
        later.stdout = left.stdout ∧ later'.stdout = right.stdout) sameStop
      (assertEndOfInput left) (assertEndOfInput right) := by
  have reading : onStdin (read 1) right =
      .ok (read 1 left.stdin).1 ⟨(read 1 left.stdin).2, right.events⟩ := by
    rw [same.stdin]
    rfl
  rw [assertEndOfInput, bind_of_ok (show onStdin (read 1) left = .ok _ _ from rfl),
    bind_of_ok reading]
  rcases (read 1 left.stdin).1 with _ | _ | ⟨_, _⟩
  · exact .stop rfl
  · refine .both ⟨?_, ?_⟩
    · exact (stdout_record _ _ .endOfInput).trans (List.append_nil _)
    · exact (stdout_record _ _ .endOfInput).trans (List.append_nil _)
  · exact .stop rfl

theorem runDecrypt_paired (trusted : SpoolTrusted crates host) (unlimited : args.maxSize = none)
    {stdin : Reader} (takes : host.disk.Takes (21 * (content stdin).length)) :
    Lockstep (fun _ final _ final' => final.stdout = final'.stdout) sameStop
      (runDecrypt crates host { args with allowUnverifiedStream := true } (Process.start stdin))
      (runDecrypt crates host { args with allowUnverifiedStream := false }
        (Process.start stdin)) := by
  have tracks := sameInput_tracks (content stdin).length []
  have same : SameInput (content stdin).length [] (Process.start stdin) (Process.start stdin) :=
    ⟨rfl, Nat.le_refl _, rfl, rfl⟩
  unfold runDecrypt
  refine (tracks.orStop same).bind ?_
  rintro recipPriv first _ first' ⟨rfl, same⟩
  refine (tracks.orFail same).bind ?_
  rintro signingKey second _ second' ⟨rfl, same⟩
  refine (tracks.reads _ wireHeaderSize rfl same).bind ?_
  rintro headerBytes third _ third' ⟨rfl, same⟩
  refine (tracks.orFail same).bind ?_
  rintro header fourth _ fourth' ⟨rfl, same⟩
  have silent := same.output
  have begun : Paired crates host (content stdin).length
      ⟨0, Spool.start host args.maxSize, []⟩ fourth ⟨0, Spool.start host args.maxSize, []⟩
      fourth' := by
    rw [unlimited]
    refine ⟨rfl, rfl, ?_, ?_, Spool.Continues.refl _, ?_⟩
    · rw [silent]
      exact same
    · rw [silent]
      exact Spool.holds_start crates.aead host none
    · rw [silent, List.length_nil, Nat.zero_add]
      exact same.ahead
  refine (@decryptChunks_paired crates host args _ trusted.inverts.sealsUpTo takes header _ _ _ _
    begun).bind ?_
  rintro state fifth state' fifth' paired
  rw [paired.hashed]
  refine ((sameInput_tracks _ fifth.stdout).trailerStage header state'.hashed paired.same).bind ?_
  rintro _ sixth _ sixth' same
  refine (assertEndOfInput_paired same).bind ?_
  rintro _ seventh _ seventh' ⟨output, quiet⟩
  simp only [Bool.false_eq_true, ↓reduceIte]
  rw [releaseToStdout_of_holds paired.holds (paired.continues.spoolKey ▸ trusted.inverts)
    (paired.continues.honest trusted.honest)]
  refine .both ?_
  rw [output, same.output, stdout_record]
  exact (congrArg (· ++ fifth.stdout) (quiet.trans same.quiet)).symm

/-! ## What a streaming run writes -/

/-- In a streaming round that fails nothing is written, and no chunk ahead opens. -/
theorem decryptStep_stuck (streaming : args.allowUnverifiedStream = true) (header : StreamHeader)
    (state : DecryptState) (process : Process) :
    Ends (fun _ _ => True)
      (fun _ after => after.events = process.events ∧ (Smooth process.stdin →
        ∀ chunk later, content process.stdin = chunk.wire.bytes ++ later → chunk.wire.Framed →
          ¬ StreamChunk.Opens crates header state.chunkCounter chunk))
      (decryptStep crates args header state process) := by
  have unmoved : Ends (fun _ _ => True) (fun _ after => after.events = process.events)
      (decryptStep crates args header state process) := by
    rw [decryptStep, ends_bind]
    refine (readChunk_ends process).mono ?_ (fun _ _ same => same)
    rintro chunk first ⟨_, events_eq, _, _⟩
    cases openChunk crates header state.chunkCounter chunk with
    | error e => exact events_eq
    | ok plaintext =>
        simp only [ends_bind, ends_record]
        refine (deliverChunk_ends crates args plaintext state.spool _).mono
          (fun _ _ _ => trivial) ?_
        rintro _ _ ⟨spooling, _, _⟩
        rw [streaming] at spooling
        cases spooling
  cases stepped : decryptStep crates args header state process with
  | ok outcome after => trivial
  | error stop after =>
      refine ⟨unmoved.error stepped, fun smooth chunk later upcoming framed opens => ?_⟩
      obtain ⟨_, _, succeeded, _⟩ := decryptStep_of_opens framed opens smooth.patient upcoming
        (show [] ++ (chunk.plaintext ++ []) = chunk.plaintext ++ [] from rfl)
        (fun spooling => by rw [streaming] at spooling; cases spooling)
      rw [stepped] at succeeded
      cases succeeded

/-- The chunks that authenticate at the front of the input have been written. -/
def Streamed (crates : Crates) (header : StreamHeader) (before after : Process) : Prop :=
  ∃ done, MaximalPrefix crates header (content before.stdin) done ∧
    after.stdout = before.stdout ++ plaintextOf done

theorem DecryptProgress.streamed {header : StreamHeader} {start process after : Process}
    {startSpool : Spool} {done : List StreamChunk} {state : DecryptState}
    (streaming : args.allowUnverifiedStream = true)
    (progress : DecryptProgress crates args header start startSpool done state process)
    (maximal : MaximalPrefix crates header (content start.stdin) done)
    (unmoved : after.events = process.events) : Streamed crates header start after := by
  refine ⟨done, maximal, ?_⟩
  rw [Process.stdout_of_events (unmoved.trans progress.events), stdout_chunkEvents, streaming]
  rfl

theorem decryptChunks_streams (streaming : args.allowUnverifiedStream = true)
    {header : StreamHeader} {start : Process} {startSpool : Spool} {state : DecryptState}
    (progress : DecryptProgress crates args header start startSpool [] state start)
    (smooth : Smooth start.stdin) :
    Ends (fun _ after => Streamed crates header start after)
      (fun _ after => Streamed crates header start after)
      (decryptChunks crates args header state start) := by
  unfold decryptChunks
  refine loop_ends (fun state process => ∃ done, (∀ chunk ∈ done, StreamChunk.Full chunk) ∧
    DecryptProgress crates args header start startSpool done state process) ?_ ?_
  · rintro state process ⟨done, allFull, reached⟩
    refine ((decryptStep_ends reached).and (decryptStep_stuck streaming header state process)).mono
      ?_ ?_
    · rintro outcome after ⟨⟨chunk, next, framed, advanced, rfl⟩, _⟩
      rcases framed with ⟨tag, width⟩ | ⟨tag, width⟩
      · have more : ¬ chunk.wire.termTag = 0x01 := by
          rw [tag]
          decide
        rw [if_neg more]
        exact ⟨done ++ [chunk], full_concat allFull ⟨tag, width⟩, advanced⟩
      · rw [if_pos tag]
        refine advanced.streamed streaming ?_ rfl
        rw [advanced.content_eq]
        exact maximal_of_terminal allFull ⟨tag, width⟩ advanced.opens _
    · rintro stop after ⟨_, unmoved, stuck⟩
      refine reached.streamed streaming ?_ unmoved
      rw [reached.content_eq]
      refine maximal_of_stuck allFull reached.opens ?_
      rw [← reached.counter]
      exact stuck (reached.smooth smooth)
  · exact ⟨[], fun _ none => absurd none List.not_mem_nil, progress⟩

/-- The key loads, and the input begins with a header that leads to `header`. -/
def AcceptsHeader (crates : Crates) (host : Host) (args : DecryptArgs) (input : Bytes)
    (header : StreamHeader) (rest : Bytes) : Prop :=
  ∃ recipPriv signingKey headerBytes, loadSecretKey crates host args.keyArgs = .ok recipPriv ∧
    crates.curve.signingKey recipPriv = .ok signingKey ∧
    input = FixedBytes.toList headerBytes ++ rest ∧
    HeaderConforms crates args recipPriv (crates.curve.publicBytes signingKey) headerBytes header

/-- The plaintext of the longest authentic prefix; nothing where the header is refused. -/
def StreamedOutput (crates : Crates) (host : Host) (args : DecryptArgs) (input output : Bytes) :
    Prop :=
  (∃ header rest done, AcceptsHeader crates host args input header rest ∧
    MaximalPrefix crates header rest done ∧ output = plaintextOf done) ∨
  ((∀ header rest, ¬ AcceptsHeader crates host args input header rest) ∧ output = [])

theorem afterChunks_silent (streaming : args.allowUnverifiedStream = true)
    {header : StreamHeader} (known : header.mode = 0x01 ∨ header.mode = 0x02)
    (state : DecryptState) (process : Process) :
    Ends (fun _ after => after.stdout = process.stdout)
      (fun _ after => after.stdout = process.stdout)
      ((do
        trailerStage crates args header state.hashed
        assertEndOfInput
        if args.allowUnverifiedStream then pure ()
        else state.spool.releaseToStdout crates.aead : Run Unit) process) := by
  have unmoved : ∀ {after : Process}, after.events = process.events →
      after.stdout = process.stdout := fun same => congrArg (·.flatMap Event.stdoutBytes) same
  rw [ends_bind]
  refine (trailerStage_ends header known (fun _ => rfl) process).mono ?_
    (fun _ _ same => unmoved same)
  rintro _ first ⟨_, events, _, _, recorded, events_eq, _⟩
  have silent : first.stdout = process.stdout := by
    rw [Process.stdout_of_events events_eq, recorded.stdout, List.append_nil]
  rw [ends_bind]
  refine (assertEndOfInput_ends first).mono ?_ ?_
  · rintro _ second ⟨_, _, ended⟩
    rw [streaming]
    change second.stdout = process.stdout
    rw [Process.stdout_of_events ended, silent]
    exact List.append_nil _
  · intro _ second same
    exact (congrArg (·.flatMap Event.stdoutBytes) same).trans silent

/-- The check passes on the only header the input can begin with. -/
theorem AcceptsHeader.checked {input rest rest' : Bytes} {header : StreamHeader}
    {recipPriv : FixedBytes 32} {signingKey : crates.curve.SigningKey}
    {headerBytes : FixedBytes wireHeaderSize}
    (accepts : AcceptsHeader crates host args input header rest')
    (loaded : loadSecretKey crates host args.keyArgs = .ok recipPriv)
    (valid : crates.curve.signingKey recipPriv = .ok signingKey)
    (front : input = headerBytes.toList ++ rest) :
    checkHeader crates args recipPriv (crates.curve.publicBytes signingKey) headerBytes =
      .ok header := by
  obtain ⟨_, _, headerBytes', loaded', valid', front', conforms⟩ := accepts
  rw [loaded] at loaded'
  cases loaded'
  rw [valid] at valid'
  cases valid'
  have same : headerBytes = headerBytes' := by
    refine FixedBytes.ext (List.append_inj_left (front.symm.trans front') ?_)
    rw [headerBytes.length_toList, headerBytes'.length_toList]
  rw [same]
  exact checkHeader_eq_ok_iff.mpr conforms

/-- The header check does not look at the output discipline. -/
theorem acceptsHeader_flag_iff {flag : Bool} {input rest : Bytes} {header : StreamHeader} :
    AcceptsHeader crates host { args with allowUnverifiedStream := flag } input header rest ↔
      AcceptsHeader crates host args input header rest := by
  constructor
  · rintro ⟨recipPriv, signingKey, headerBytes, loaded, valid, front, conforms⟩
    have checked := checkHeader_eq_ok_iff.mpr conforms
    exact ⟨recipPriv, signingKey, headerBytes, loaded, valid, front,
      checkHeader_eq_ok_iff.mp checked⟩
  · rintro ⟨recipPriv, signingKey, headerBytes, loaded, valid, front, conforms⟩
    have checked := checkHeader_eq_ok_iff.mpr conforms
    exact ⟨recipPriv, signingKey, headerBytes, loaded, valid, front,
      checkHeader_eq_ok_iff.mp checked⟩

theorem afterHeader_streams (streaming : args.allowUnverifiedStream = true) {input : Bytes}
    {header : StreamHeader} {process : Process}
    (accepts : AcceptsHeader crates host args input header (content process.stdin))
    (smooth : Smooth process.stdin) (silent : process.stdout = []) :
    Ends (fun _ final => StreamedOutput crates host args input final.stdout)
      (fun _ final => StreamedOutput crates host args input final.stdout)
      ((do
        let state ← decryptChunks crates args header ⟨0, Spool.start host args.maxSize, []⟩
        trailerStage crates args header state.hashed
        assertEndOfInput
        if args.allowUnverifiedStream then pure ()
        else state.spool.releaseToStdout crates.aead : Run Unit) process) := by
  have known : header.mode = 0x01 ∨ header.mode = 0x02 := by
    obtain ⟨_, _, _, _, _, _, conforms⟩ := accepts
    rcases conforms.permitted with ⟨one, _⟩ | ⟨two, _⟩
    · exact .inl one
    · exact .inr two
  have begun : DecryptProgress crates args header process (Spool.start host args.maxSize) []
      ⟨0, Spool.start host args.maxSize, []⟩ process :=
    ⟨rfl, numbered_nil, rfl, by simp [plaintextOf], (List.append_nil _).symm, id,
      fun _ => ⟨Spool.holds_start crates.aead host args.maxSize, Spool.Continues.refl _⟩⟩
  have output : ∀ after : Process, Streamed crates header process after →
      StreamedOutput crates host args input after.stdout := by
    rintro after ⟨done, maximal, written⟩
    rw [silent] at written
    exact .inl ⟨header, content process.stdin, done, accepts, maximal, written⟩
  rw [ends_bind]
  refine (decryptChunks_streams streaming begun smooth).mono ?_ (fun _ after => output after)
  intro state after streamed
  refine (afterChunks_silent streaming known state after).mono ?_ ?_
  · intro _ final unmoved
    rw [unmoved]
    exact output after streamed
  · intro _ final unmoved
    rw [unmoved]
    exact output after streamed

theorem runDecrypt_streams (streaming : args.allowUnverifiedStream = true) {stdin : Reader}
    (smooth : Smooth stdin) :
    Ends (fun _ final => StreamedOutput crates host args (content stdin) final.stdout)
      (fun _ final => StreamedOutput crates host args (content stdin) final.stdout)
      (runDecrypt crates host args (Process.start stdin)) := by
  rw [runDecrypt, ends_bind]
  refine ends_orStop ?_ ?_
  · intro recipPriv loaded
    rw [ends_bind]
    refine ends_orFail ?_ ?_
    · intro signingKey valid
      rw [ends_bind]
      by_cases long : wireHeaderSize ≤ (content stdin).length
      · let headerBytes : FixedBytes wireHeaderSize :=
          ⟨(content stdin).take wireHeaderSize, List.length_take_of_le long⟩
        have front : content stdin =
            headerBytes.toList ++ (content stdin).drop wireHeaderSize :=
          (List.take_append_drop wireHeaderSize _).symm
        obtain ⟨rest, reading, dropped, smooth₁⟩ := readExact_of_smooth smooth headerBytes _ front
        have started : readStdin (fun e => .wireCorruption ("Failed to read 97-byte header: " ++
            e.message)) wireHeaderSize (Process.start stdin) = .ok headerBytes ⟨rest, []⟩ :=
          readStdin_of_readExact reading
        rw [started]
        change Ends _ _ ((orFail id (checkHeader crates args recipPriv _ headerBytes) >>= _) _)
        rw [ends_bind]
        refine ends_orFail ?_ ?_
        · intro header checked
          refine afterHeader_streams streaming ⟨recipPriv, signingKey, headerBytes, loaded, valid,
            ?_, checkHeader_eq_ok_iff.mp checked⟩ smooth₁ rfl
          rw [dropped]
          exact front
        · intro e refused
          refine .inr ⟨fun header rest' accepts => ?_, rfl⟩
          rw [accepts.checked loaded valid front] at refused
          cases refused
      · obtain ⟨rest, reading⟩ :=
          readExact_patient_short smooth.patient (Nat.lt_of_not_le long)
        have refused : readStdin (fun e => .wireCorruption ("Failed to read 97-byte header: " ++
            e.message)) wireHeaderSize (Process.start stdin) = .error _ ⟨rest, []⟩ :=
          readStdin_of_error reading
        rw [refused]
        refine .inr ⟨?_, rfl⟩
        rintro header rest' ⟨_, _, headerBytes, _, _, front, _⟩
        refine long ?_
        rw [front, List.length_append, headerBytes.length_toList]
        exact Nat.le_add_right _ _
    · intro e invalid
      refine .inr ⟨?_, rfl⟩
      rintro header rest' ⟨_, _, _, loaded', valid, _⟩
      rw [loaded] at loaded'
      cases loaded'
      rw [invalid] at valid
      cases valid
  · intro stop failed
    refine .inr ⟨?_, rfl⟩
    rintro header rest' ⟨_, _, _, loaded, _⟩
    rw [failed] at loaded
    cases loaded

/-! ## The refinement -/

/-- Without a ceiling, and with a disk that takes the plaintext, both disciplines end alike.
Accepted runs write the same; a streaming run that fails has written the plaintext of the
longest prefix of chunks that authenticate under consecutive numbers. -/
theorem runDecrypt_streaming_refines_spooled (crates : Crates) (host : Host) (args : DecryptArgs)
    (stdin : Reader) (unlimited : args.maxSize = none) (smooth : Smooth stdin)
    (trusted : SpoolTrusted crates host)
    (takes : host.disk.Takes (21 * (content stdin).length)) :
    let streaming :=
      runDecrypt crates host { args with allowUnverifiedStream := true } (Process.start stdin)
    let spooled :=
      runDecrypt crates host { args with allowUnverifiedStream := false } (Process.start stdin)
    exitStatus streaming = exitStatus spooled ∧
      ((∃ final final', streaming = .ok () final ∧ spooled = .ok () final' ∧
        final.stdout = final'.stdout) ∨
      ∃ stop after after', streaming = .error stop after ∧ spooled = .error stop after' ∧
        StreamedOutput crates host args (content stdin) after.stdout) := by
  have written := @runDecrypt_streams crates host { args with allowUnverifiedStream := true } rfl
    stdin smooth
  rcases (runDecrypt_paired trusted unlimited takes).outcomes (fun _ _ => id)
    (fun _ _ => id) with ⟨_, final, _, final', finished, finished', same⟩ |
      ⟨stop, after, _, after', failed, failed', same⟩
  · dsimp only
    rw [finished, finished']
    exact ⟨rfl, .inl ⟨final, final', rfl, rfl, same⟩⟩
  · cases same
    have output := written.error failed
    simp only [StreamedOutput, acceptsHeader_flag_iff] at output
    dsimp only
    rw [failed, failed']
    exact ⟨rfl, .inr ⟨stop, after, after', rfl, rfl, output⟩⟩

open Reference in
/-- On the first two hundred bytes of a Mode 1 stream, which end inside its trailer. -/
theorem runDecrypt_streaming_refines_spooled_sample :
    let cut := ofBytes ((content (sealedStream false sampleSender sampleRecipient sampleEphemeral
      sampleData)).take 200)
    exitStatus (runDecrypt packages (keyHost sampleRecipient sampleEphemeral)
        (openArgs false sampleSender true) (Process.start cut)) =
      exitStatus (runDecrypt packages (keyHost sampleRecipient sampleEphemeral)
        (openArgs false sampleSender false) (Process.start cut)) := by
  intro cut
  have short : (content cut).length ≤ 200 := by
    rw [content_ofBytes]
    exact List.length_take_le 200 _
  exact (runDecrypt_streaming_refines_spooled packages (keyHost sampleRecipient sampleEphemeral)
    (openArgs false sampleSender false) cut rfl (smooth_ofBytes _)
    (keyHost_trusted sampleRecipient sampleEphemeral)
    (keyHost_takes sampleRecipient sampleEphemeral (by omega))).1

end PipeK1
