import PipeK1.Cli
import PipeK1.DecryptContract

/-!
# The decryptor's exit codes

A run is refused with exit code 2 for two reasons only: an unauthenticated
Mode 1 stream that nobody vouches for, and a plaintext over the ceiling. All
other refusals are reported with exit code 1.
-/

set_option autoImplicit false

namespace PipeK1

open ByteData ByteReader Effects Numbering

variable {crates : Crates} {host : Host} {args : DecryptArgs}

/-! ## The two reasons -/

/-- Mode 1 in a header of this format, with neither a sender nor the flag that trusts any. -/
structure Untrusted (args : DecryptArgs) (bytes : FixedBytes wireHeaderSize) : Prop where
  magic : bytes.slice 0 4 = magicHeader
  version : bytes.byteAt 4 = 0x01
  mode : bytes.byteAt 5 = 0x01
  noSender : args.expectedSender = none
  distrusted : args.allowUntrustedSender = false

/-- The header verifies, and `chunk` is the first of the consecutively authenticated chunks with
which the plaintext is longer than `max`. -/
structure Exceeding (crates : Crates) (args : DecryptArgs) (recipPriv recipPub : FixedBytes 32)
    (max : Nat) (data : Bytes) (headerBytes : FixedBytes wireHeaderSize) (header : StreamHeader)
    (full : List StreamChunk) (chunk : StreamChunk) : Prop where
  conforms : HeaderConforms crates args recipPriv recipPub headerBytes header
  wire : ∃ rest, data = headerBytes.toList ++ (wireBytes (full ++ [chunk]) ++ rest)
  allFull : ∀ other ∈ full, other.Full
  framed : chunk.wire.Framed
  opens : Numbered (StreamChunk.Opens crates header) 0 (full ++ [chunk])
  within : (plaintextOf full).length ≤ max
  beyond : max < (plaintextOf (full ++ [chunk])).length

def ExceedsCeiling (crates : Crates) (args : DecryptArgs) (recipPriv recipPub : FixedBytes 32)
    (max : Nat) (data : Bytes) : Prop :=
  ∃ headerBytes header full chunk,
    Exceeding crates args recipPriv recipPub max data headerBytes header full chunk

theorem exists_first_beyond {max : Nat} {chunks : List StreamChunk}
    (beyond : max < (plaintextOf chunks).length) :
    ∃ early chunk late, chunks = early ++ chunk :: late ∧ (plaintextOf early).length ≤ max ∧
      max < (plaintextOf (early ++ [chunk])).length := by
  induction chunks using List.reverseRecOn with
  | nil => exact absurd beyond (Nat.not_lt_zero max)
  | append_singleton chunks last ih =>
      by_cases sooner : max < (plaintextOf chunks).length
      · obtain ⟨early, chunk, late, rfl, within, crossed⟩ := ih sooner
        refine ⟨early, chunk, late ++ [last], ?_, within, crossed⟩
        rw [List.append_assoc, List.cons_append]
      · exact ⟨chunks, last, [], rfl, Nat.le_of_not_lt sooner, beyond⟩

/-- Authenticated chunks that are over the ceiling together have a first one that crosses it. -/
theorem exceedsCeiling_of_beyond {recipPriv recipPub : FixedBytes 32} {max : Nat} {data rest : Bytes}
    {headerBytes : FixedBytes wireHeaderSize} {header : StreamHeader} {full : List StreamChunk}
    {last : StreamChunk} (conforms : HeaderConforms crates args recipPriv recipPub headerBytes header)
    (wire : data = headerBytes.toList ++ (wireBytes (full ++ [last]) ++ rest))
    (allFull : ∀ chunk ∈ full, chunk.Full) (framed : last.wire.Framed)
    (opens : Numbered (StreamChunk.Opens crates header) 0 (full ++ [last]))
    (beyond : max < (plaintextOf (full ++ [last])).length) :
    ExceedsCeiling crates args recipPriv recipPub max data := by
  obtain ⟨early, chunk, late, split, within, crossed⟩ := exists_first_beyond beyond
  have regrouped : early ++ chunk :: late = (early ++ [chunk]) ++ late := by
    rw [List.append_assoc, List.singleton_append]
  rw [regrouped] at split
  have shapes : (∀ other ∈ early, other.Full) ∧ chunk.wire.Framed := by
    rcases List.eq_nil_or_concat' late with rfl | ⟨late, final, rfl⟩
    · rw [List.append_nil] at split
      obtain ⟨rfl, same⟩ := List.append_inj' split rfl
      cases same
      exact ⟨allFull, framed⟩
    · rw [← List.append_assoc] at split
      obtain ⟨rfl, _⟩ := List.append_inj' split rfl
      refine ⟨fun other member => allFull other ?_, .inl (allFull chunk ?_)⟩
      · exact List.mem_append_left _ (List.mem_append_left _ member)
      · exact List.mem_append_left _ (List.mem_append_right _ List.mem_cons_self)
  refine ⟨headerBytes, header, early, chunk, conforms, ⟨wireBytes late ++ rest, ?_⟩, shapes.1,
    shapes.2, ?_, within, crossed⟩
  · rw [wire, split]
    simp only [wireBytes, List.flatMap_append, List.append_assoc]
  · rw [split] at opens
    exact (numbered_append_iff.mp opens).1

/-! ## Programs whose failures have exit code 1 -/

/-- Whatever stops the program is reported with exit code 1. -/
def StopsWithOne {α : Type} (program : Run α) : Prop :=
  ∀ process, Ends (fun _ _ => True) (fun stop _ => stop.exitCode = some 1) (program process)

namespace StopsWithOne

variable {α β : Type}

theorem pure (value : α) : StopsWithOne (Pure.pure value : Run α) := fun _ => trivial

theorem record (event : Event) : StopsWithOne (record event) := fun _ => trivial

theorem fail {error : Pipek1Error} (code : error.exitCode = 1) :
    StopsWithOne (fail error : Run α) :=
  fun _ => congrArg some code

theorem bind {program : Run β} {next : β → Run α} (first : StopsWithOne program)
    (later : ∀ value, StopsWithOne (next value)) : StopsWithOne (program >>= next) := by
  intro process
  rw [ends_bind]
  exact (first process).mono (fun value after _ => later value after) (fun _ _ code => code)

theorem orFail {ε : Type} {convert : ε → Pipek1Error} {outcome : Except ε α}
    (code : ∀ error, outcome = .error error → (convert error).exitCode = 1) :
    StopsWithOne (orFail convert outcome) :=
  fun _ => ends_orFail (fun _ _ => trivial) (fun error failed => congrArg some (code error failed))

theorem readStdin {convert : IoError → Pipek1Error} {width : Nat}
    (code : ∀ error, (convert error).exitCode = 1) : StopsWithOne (readStdin convert width) :=
  .bind (fun _ => trivial) fun _ => .orFail fun error _ => code error

end StopsWithOne

theorem readChunk_stopsWithOne : StopsWithOne readChunk := by
  unfold readChunk
  refine .bind (.readStdin fun error => ?_) fun chunkHdr => ?_
  · split <;> rfl
  · dsimp only
    split
    · exact .fail rfl
    · split
      · exact .fail rfl
      · split
        · exact .fail rfl
        · exact .bind (.readStdin fun _ => rfl) fun _ =>
            .bind (.readStdin fun _ => rfl) fun _ => .pure _

theorem verifyTrailer_exitCode {hmac16 : FixedBytes 16} {hashed : Bytes}
    {trailer : FixedBytes trailerSize} {error : Pipek1Error}
    (refused : verifyTrailer crates hmac16 hashed trailer = .error error) : error.exitCode = 1 := by
  unfold verifyTrailer at refused
  split at refused
  · cases refused
    rfl
  · split at refused
    · cases refused
      rfl
    · dsimp only at refused
      split at refused
      · cases refused
        rfl
      · cases refused

/-- The expected sender, if there is one, is a key. -/
def SenderParses (crates : Crates) (args : DecryptArgs) : Prop :=
  ∀ exp, args.expectedSender = some exp → ∃ key, parseKeyBytes crates exp = .ok key

theorem compareSender_exitCode (parses : SenderParses crates args) {senderPub : FixedBytes 32}
    {error : Pipek1Error} (refused : compareSender crates args senderPub = .error error) :
    error.exitCode = 1 := by
  unfold compareSender at refused
  cases expected : args.expectedSender with
  | none =>
      rw [expected] at refused
      dsimp only at refused
      split at refused
      · cases refused
      · cases refused
  | some exp =>
      obtain ⟨key, parsed⟩ := parses exp expected
      simp only [expected, parsed] at refused
      split at refused
      · cases refused
        rfl
      · cases refused

theorem trailerStage_stopsWithOne (parses : SenderParses crates args) (header : StreamHeader)
    (hashed : Bytes) : StopsWithOne (trailerStage crates args header hashed) := by
  unfold trailerStage
  split
  · unfold authenticateTrailer
    refine .bind (.readStdin fun _ => rfl) fun trailer => ?_
    refine .bind (.orFail fun error refused => verifyTrailer_exitCode refused) fun _ => ?_
    refine .bind (.orFail fun error refused => compareSender_exitCode parses refused) fun notice => ?_
    refine .bind (.record _) fun _ => ?_
    cases notice with
    | none => exact .pure _
    | some text => exact .record _
  · exact .pure _

theorem assertEndOfInput_stopsWithOne : StopsWithOne assertEndOfInput := by
  unfold assertEndOfInput
  refine .bind (fun _ => trivial) fun trailing => ?_
  match trailing with
  | .error _ => exact .fail rfl
  | .ok [] => exact .record _
  | .ok (_ :: _) => exact .fail rfl

/-! ## The header -/

/-- A refused header has exit code 2 exactly when it is untrusted. -/
theorem checkHeader_exitCode {recipPriv recipPub : FixedBytes 32}
    {bytes : FixedBytes wireHeaderSize} {error : Pipek1Error}
    (refused : checkHeader crates args recipPriv recipPub bytes = .error error) :
    (error.exitCode = 2 ∧ Untrusted args bytes) ∨ (error.exitCode = 1 ∧ ¬ Untrusted args bytes) := by
  unfold checkHeader at refused
  dsimp only at refused
  split at refused
  · next magic =>
      cases refused
      exact .inr ⟨rfl, fun untrusted => magic untrusted.magic⟩
  · next magic =>
      split at refused
      · next version =>
          cases refused
          exact .inr ⟨rfl, fun untrusted => version untrusted.version⟩
      · next version =>
          split at refused
          · next unknown =>
              cases refused
              exact .inr ⟨rfl, fun untrusted => unknown.1 untrusted.mode⟩
          · split at refused
            · next anonymous =>
                cases refused
                refine .inr ⟨rfl, fun untrusted => ?_⟩
                rw [untrusted.noSender] at anonymous
                cases anonymous.1
            · split at refused
              · next distrusted =>
                  cases refused
                  exact .inl ⟨rfl, not_not.mp magic, not_not.mp version, distrusted.1,
                    Option.isNone_iff_eq_none.mp distrusted.2.1, distrusted.2.2⟩
              · next trusted =>
                  have vouched : ¬ Untrusted args bytes := fun untrusted => trusted
                    ⟨untrusted.mode, Option.isNone_iff_eq_none.mpr untrusted.noSender,
                      untrusted.distrusted⟩
                  refine .inr ⟨?_, vouched⟩
                  split at refused
                  · cases refused
                    rfl
                  · split at refused
                    · cases refused
                      rfl
                    · split at refused
                      · cases refused
                        rfl
                      · split at refused
                        · cases refused
                          rfl
                        · cases refused

theorem HeaderConforms.not_untrusted {recipPriv recipPub : FixedBytes 32}
    {bytes : FixedBytes wireHeaderSize} {header : StreamHeader}
    (conforms : HeaderConforms crates args recipPriv recipPub bytes header) :
    ¬ Untrusted args bytes := by
  intro untrusted
  rcases conforms.permitted with ⟨_, vouched | trusted⟩ | ⟨two, _⟩
  · rw [untrusted.noSender] at vouched
    cases vouched
  · rw [untrusted.distrusted] at trusted
    cases trusted
  · rw [conforms.mode_eq, untrusted.mode] at two
    exact absurd two (by decide)

/-! ## What stops the chunk loop -/

/-- Consecutively authenticated chunks at the front of `data` are over the ceiling together. -/
def ChunksBeyond (crates : Crates) (args : DecryptArgs) (header : StreamHeader) (data : Bytes) :
    Prop :=
  ∃ (max : UInt64) (full : List StreamChunk) (last : StreamChunk) (rest : Bytes),
    args.maxSize = some max ∧ data = wireBytes (full ++ [last]) ++ rest ∧
    (∀ chunk ∈ full, chunk.Full) ∧ last.wire.Framed ∧
    Numbered (StreamChunk.Opens crates header) 0 (full ++ [last]) ∧
    max.toNat < (plaintextOf (full ++ [last])).length

/-- Exit code 1, or exit code 2 from the spool's ceiling. -/
def StoppedInLoop (crates : Crates) (args : DecryptArgs) (header : StreamHeader) (data : Bytes)
    (stop : Stop) : Prop :=
  stop.exitCode = some 1 ∨ (stop.exitCode = some 2 ∧ args.allowUnverifiedStream = false ∧
    ChunksBeyond crates args header data)

/-- A spool that can be trusted with all plaintext of `data`. -/
structure SpoolSuffices (crates : Crates) (host : Host) (data : Bytes) : Prop where
  trusted : SpoolTrusted crates host
  takes : host.disk.Takes (21 * data.length)

theorem SpoolSuffices.short {data : Bytes} (room : SpoolSuffices crates host data) :
    data.length < 2 ^ 64 := by
  have fits := room.takes.fits
  have bounded := room.trusted.honest.capacity_lt
  omega

theorem decryptStep_stops {header : StreamHeader} {start process : Process}
    {done : List StreamChunk} {state : DecryptState}
    (progress : DecryptProgress crates args header start (Spool.start host args.maxSize) done state
      process) (allFull : ∀ chunk ∈ done, chunk.Full)
    (room : args.allowUnverifiedStream = false →
      SpoolSuffices crates host (content start.stdin)) :
    Ends (fun _ _ => True)
      (fun stop _ => StoppedInLoop crates args header (content start.stdin) stop)
      (decryptStep crates args header state process) := by
  rw [decryptStep, ends_bind]
  refine ((readChunk_ends process).and (readChunk_stopsWithOne process)).mono ?_
    (fun _ _ stopped => .inl stopped.2)
  rintro wire first ⟨⟨content_eq, _, _, framed⟩, _⟩
  cases opened : openChunk crates header state.chunkCounter wire with
  | error _ => exact .inl rfl
  | ok plaintext =>
      simp only [ends_bind, ends_record]
      refine (deliverChunk_ends crates args plaintext state.spool _).mono
        (fun _ _ _ => trivial) ?_
      rintro stop after ⟨spooling, rfl, error, spool, refused, rfl⟩
      let chunk : StreamChunk := ⟨wire, plaintext⟩
      have opens : Numbered (StreamChunk.Opens crates header) 0 (done ++ [chunk]) := by
        refine progress.opens.concat ?_
        rw [UInt64.zero_add, ← progress.counter]
        exact opened
      have upcoming : content start.stdin =
          wireBytes (done ++ [chunk]) ++ content first.stdin := by
        rw [progress.content_eq, content_eq]
        simp [wireBytes, chunk]
      have length_le : (plaintextOf (done ++ [chunk])).length ≤ (content start.stdin).length := by
        rw [upcoming, List.length_append]
        exact Nat.le_trans (length_plaintextOf_le opens) (Nat.le_add_right _ _)
      obtain ⟨holds, continues⟩ := progress.spooled spooling
      have enough := room spooling
      have short : (plaintextOf (done ++ [chunk])).length < 2 ^ 64 :=
        Nat.lt_of_le_of_lt length_le enough.short
      have whole : plaintextOf done ++ plaintext = plaintextOf (done ++ [chunk]) :=
        (plaintextOf_append_singleton done chunk).symm
      rcases (Spool.writeChunk_ends crates.aead plaintext _ state.spool holds).error refused with
        ⟨max, limited, beyond⟩ | stuck
      · rw [whole, UInt64.lt_iff_toNat_lt, UInt64.toNat_ofNat_of_lt' short] at beyond
        exact .inr ⟨rfl, spooling, max, done, chunk, content first.stdin,
          continues.maxSize.symm.trans limited, upcoming, allFull, framed, opens, beyond⟩
      · refine absurd ⟨continues.spoolKey ▸ enough.trusted.inverts.sealsUpTo,
          continues.takes enough.takes ?_⟩ stuck
        rw [whole]
        exact Nat.mul_le_mul_left 21 length_le

theorem decryptChunks_stops {header : StreamHeader} {start : Process} {state : DecryptState}
    (progress : DecryptProgress crates args header start (Spool.start host args.maxSize) [] state
      start)
    (room : args.allowUnverifiedStream = false →
      SpoolSuffices crates host (content start.stdin)) :
    Ends (fun _ _ => True)
      (fun stop _ => StoppedInLoop crates args header (content start.stdin) stop)
      (decryptChunks crates args header state start) := by
  unfold decryptChunks
  refine loop_ends (fun state process => ∃ done, (∀ chunk ∈ done, StreamChunk.Full chunk) ∧
    DecryptProgress crates args header start (Spool.start host args.maxSize) done state process)
    ?_ ?_
  · rintro state process ⟨done, allFull, reached⟩
    refine ((decryptStep_ends reached).and (decryptStep_stops reached allFull room)).mono ?_
      (fun _ _ stopped => stopped.2)
    rintro outcome after ⟨⟨chunk, next, framed, advanced, rfl⟩, _⟩
    rcases framed with ⟨tag, width⟩ | ⟨tag, _⟩
    · have more : ¬ chunk.wire.termTag = 0x01 := by
        rw [tag]
        decide
      rw [if_neg more]
      exact ⟨done ++ [chunk], full_concat allFull ⟨tag, width⟩, advanced⟩
    · rw [if_pos tag]
      trivial
  · exact ⟨[], fun _ none => absurd none List.not_mem_nil, progress⟩

/-! ## The ceiling stops the loop -/

theorem decryptStep_of_beyond {header : StreamHeader} {chunk : StreamChunk} {state : DecryptState}
    {process : Process} {before later : Bytes} {max : UInt64}
    (spooling : args.allowUnverifiedStream = false) (framed : chunk.wire.Framed)
    (opens : StreamChunk.Opens crates header state.chunkCounter chunk)
    (patient : Patient process.stdin)
    (upcoming : content process.stdin = chunk.wire.bytes ++ later)
    (holds : Spool.Holds crates.aead state.spool before)
    (limited : state.spool.spooler.maxSize = some max)
    (short : (before ++ chunk.plaintext).length < 2 ^ 64)
    (beyond : max.toNat < (before ++ chunk.plaintext).length) :
    ∃ error process', decryptStep crates args header state process =
      .error (.failed (.usageError error)) process' := by
  obtain ⟨rest, reading, _⟩ := readChunk_of_framed framed patient upcoming
  have opened : openChunk crates header state.chunkCounter chunk.wire = .ok chunk.plaintext :=
    opens
  have writing := Spool.writeChunk_ends crates.aead chunk.plaintext before state.spool holds
  rw [decryptStep, bind_of_ok reading]
  simp only [opened]
  rw [bind_of_ok (show record _ _ = .ok () _ from rfl)]
  cases written : state.spool.writeChunk crates.aead chunk.plaintext with
  | ok _ after =>
      have within := (writing.ok written).2.2 max limited
      rw [UInt64.le_iff_toNat_le, UInt64.toNat_ofNat_of_lt' short] at within
      omega
  | error error after =>
      have refused : deliverChunk crates args chunk.plaintext state.spool ⟨rest, process.events ++
          [.chunkAuthenticated state.chunkCounter chunk.wire.termTag chunk.plaintext]⟩ =
          .error (.failed (.usageError error)) ⟨rest, process.events ++
            [.chunkAuthenticated state.chunkCounter chunk.wire.termTag chunk.plaintext]⟩ := by
        rw [deliverChunk, spooling, written]
        rfl
      exact ⟨error, _, bind_of_error refused⟩

/-- Where the loop is while `full ++ [chunk]` are still to come, the last of them too much. -/
structure BeyondAhead (crates : Crates) (header : StreamHeader) (max : UInt64)
    (total before : Bytes) (full : List StreamChunk) (chunk : StreamChunk) (state : DecryptState)
    (process : Process) : Prop where
  patient : Patient process.stdin
  content_eq : ∃ rest, content process.stdin = wireBytes (full ++ [chunk]) ++ rest
  opens : Numbered (StreamChunk.Opens crates header) state.chunkCounter (full ++ [chunk])
  allFull : ∀ other ∈ full, other.Full
  framed : chunk.wire.Framed
  whole : before ++ plaintextOf full = total
  limited : state.spool.spooler.maxSize = some max
  room : SpoolRoom crates state.spool before total
  short : (total ++ chunk.plaintext).length < 2 ^ 64
  beyond : max.toNat < (total ++ chunk.plaintext).length

theorem decryptChunks_of_beyond {header : StreamHeader} {max : UInt64} {total before : Bytes}
    {full : List StreamChunk} {chunk : StreamChunk} {state : DecryptState} {process : Process}
    (spooling : args.allowUnverifiedStream = false)
    (ahead : BeyondAhead crates header max total before full chunk state process) :
    ∃ error process', decryptChunks crates args header state process =
      .error (.failed (.usageError error)) process' := by
  unfold decryptChunks
  induction full generalizing before state process with
  | nil =>
      obtain ⟨rest, upcoming⟩ := ahead.content_eq
      have same : before = total := by
        rw [← ahead.whole]
        exact (List.append_nil before).symm
      subst same
      simp only [wireBytes, List.nil_append, List.flatMap_cons, List.flatMap_nil,
        List.append_nil] at upcoming
      obtain ⟨error, process', stepped⟩ := decryptStep_of_beyond spooling ahead.framed
        (numbered_cons_iff.mp ahead.opens).1 ahead.patient upcoming ahead.room.holds ahead.limited
        ahead.short ahead.beyond
      exact ⟨error, process', loop_of_error stepped⟩
  | cons first full ih =>
      obtain ⟨rest, upcoming⟩ := ahead.content_eq
      obtain ⟨opens, opensLater⟩ := numbered_cons_iff.mp ahead.opens
      have isFull := ahead.allFull first List.mem_cons_self
      simp only [wireBytes, List.cons_append, List.flatMap_cons, List.append_assoc] at upcoming
      have whole : before ++ (first.plaintext ++ plaintextOf full) = total := ahead.whole
      obtain ⟨spool, process', stepped, content', patient', _, room'⟩ :=
        decryptStep_of_opens (.inl isFull) opens ahead.patient upcoming whole fun _ => ahead.room
      have more : ¬ first.wire.termTag = 0x01 := by
        rw [isFull.1]
        decide
      rw [if_neg more] at stepped
      rw [loop_of_next stepped]
      obtain ⟨roomLater, same⟩ := room' spooling
      exact ih ⟨patient', ⟨rest, content'⟩, opensLater,
        fun other member => ahead.allFull other (List.mem_cons_of_mem _ member), ahead.framed,
        by rw [List.append_assoc, whole], same.trans ahead.limited, roomLater, ahead.short,
        ahead.beyond⟩

/-! ## Whole runs -/

/-- Data that starts with an untrusted header. -/
def StartsUntrusted (args : DecryptArgs) (data : Bytes) : Prop :=
  ∃ (headerBytes : FixedBytes wireHeaderSize) (rest : Bytes),
    data = headerBytes.toList ++ rest ∧ Untrusted args headerBytes

/-- Data whose plaintext the spool refuses. -/
def OverCeiling (crates : Crates) (args : DecryptArgs) (recipPriv recipPub : FixedBytes 32)
    (data : Bytes) : Prop :=
  args.allowUnverifiedStream = false ∧ ∃ max, args.maxSize = some max ∧
    ExceedsCeiling crates args recipPriv recipPub max.toNat data

section Run

variable {recipPriv : FixedBytes 32} {signingKey : crates.curve.SigningKey} {stdin : Reader}

theorem runDecrypt_stops (loaded : loadSecretKey crates host args.keyArgs = .ok recipPriv)
    (valid : crates.curve.signingKey recipPriv = .ok signingKey)
    (parses : SenderParses crates args)
    (room : args.allowUnverifiedStream = false → SpoolSuffices crates host (content stdin)) :
    Ends (fun _ _ => True)
      (fun stop _ => stop.exitCode = some 1 ∨ (stop.exitCode = some 2 ∧
        (StartsUntrusted args (content stdin) ∨ OverCeiling crates args recipPriv
          (crates.curve.publicBytes signingKey) (content stdin))))
      (runDecrypt crates host args (Process.start stdin)) := by
  rw [runDecrypt, loaded, bind_of_ok (show orStop _ _ = .ok recipPriv _ from rfl), valid,
    bind_of_ok (show orFail _ _ _ = .ok signingKey _ from rfl), ends_bind]
  refine ((readStdin_ends _ _ _).and (StopsWithOne.readStdin (fun _ => rfl) _)).mono ?_
    (fun _ _ stopped => .inl stopped.2)
  rintro headerBytes first ⟨⟨content₁, _, _⟩, _⟩
  have wire : content stdin = headerBytes.toList ++ content first.stdin := content₁
  rw [ends_bind]
  refine ends_orFail ?_ ?_
  · intro header checked
    rw [ends_bind]
    have begun : DecryptProgress crates args header first (Spool.start host args.maxSize) []
        ⟨0, Spool.start host args.maxSize, []⟩ first :=
      ⟨rfl, numbered_nil, rfl, by simp [plaintextOf], (List.append_nil _).symm, id,
        fun _ => ⟨Spool.holds_start crates.aead host args.maxSize, Spool.Continues.refl _⟩⟩
    have roomLater : args.allowUnverifiedStream = false →
        SpoolSuffices crates host (content first.stdin) := by
      intro spooling
      have enough := room spooling
      refine ⟨enough.trusted, enough.takes.done, Nat.le_trans ?_ enough.takes.fits⟩
      rw [wire, List.length_append]
      exact Nat.mul_le_mul_left 21 (Nat.le_add_left _ _)
    refine ((decryptChunks_ends begun).and (decryptChunks_stops begun roomLater)).mono ?_ ?_
    · rintro state second ⟨⟨full, last, _, _, progress⟩, _⟩
      rw [ends_bind]
      refine (trailerStage_stopsWithOne parses header state.hashed second).mono ?_
        (fun _ _ code => .inl code)
      rintro _ third _
      rw [ends_bind]
      refine (assertEndOfInput_stopsWithOne third).mono ?_ (fun _ _ code => .inl code)
      rintro _ fourth _
      cases spooling : args.allowUnverifiedStream with
      | true => trivial
      | false =>
          obtain ⟨holds, continues⟩ := progress.spooled spooling
          have trusted := (room spooling).trusted
          simp only [Bool.false_eq_true, ↓reduceIte,
            releaseToStdout_of_holds holds (continues.spoolKey ▸ trusted.inverts)
              (continues.honest trusted.honest)]
          trivial
    · rintro stop _ ⟨_, one | ⟨two, spooling, max, full, last, rest, limited, chunks_eq, allFull,
        framed, opens, beyond⟩⟩
      · exact .inl one
      · rw [chunks_eq] at wire
        exact .inr ⟨two, .inr ⟨spooling, max, limited,
          exceedsCeiling_of_beyond (checkHeader_eq_ok_iff.mp checked) wire allFull framed opens
            beyond⟩⟩
  · intro error refused
    rcases checkHeader_exitCode refused with ⟨two, untrusted⟩ | ⟨one, _⟩
    · exact .inr ⟨congrArg some two, .inl ⟨headerBytes, _, wire, untrusted⟩⟩
    · exact .inl (congrArg some one)

theorem runDecrypt_of_startsUntrusted
    (loaded : loadSecretKey crates host args.keyArgs = .ok recipPriv)
    (valid : crates.curve.signingKey recipPriv = .ok signingKey) (patient : Patient stdin)
    (starts : StartsUntrusted args (content stdin)) :
    exitStatus (runDecrypt crates host args (Process.start stdin)) = some 2 := by
  obtain ⟨headerBytes, rest, wire, untrusted⟩ := starts
  obtain ⟨after, reading, _⟩ := readExact_patient patient headerBytes rest wire
  have started : readStdin (fun e => .wireCorruption ("Failed to read 97-byte header: " ++
      e.message)) wireHeaderSize (Process.start stdin) = .ok headerBytes ⟨after, []⟩ :=
    readStdin_of_readExact reading
  rw [runDecrypt, loaded, bind_of_ok (show orStop _ _ = .ok recipPriv _ from rfl), valid,
    bind_of_ok (show orFail _ _ _ = .ok signingKey _ from rfl), bind_of_ok started]
  cases checked : checkHeader crates args recipPriv (crates.curve.publicBytes signingKey)
      headerBytes with
  | ok header => exact absurd untrusted (checkHeader_eq_ok_iff.mp checked).not_untrusted
  | error error =>
      rcases checkHeader_exitCode checked with ⟨two, _⟩ | ⟨_, trusted⟩
      · exact congrArg some two
      · exact absurd untrusted trusted

theorem runDecrypt_of_overCeiling
    (loaded : loadSecretKey crates host args.keyArgs = .ok recipPriv)
    (valid : crates.curve.signingKey recipPriv = .ok signingKey) (patient : Patient stdin)
    (room : args.allowUnverifiedStream = false → SpoolSuffices crates host (content stdin))
    (beyond : OverCeiling crates args recipPriv (crates.curve.publicBytes signingKey)
      (content stdin)) :
    exitStatus (runDecrypt crates host args (Process.start stdin)) = some 2 := by
  obtain ⟨spooling, max, limited, headerBytes, header, full, chunk, exceeding⟩ := beyond
  obtain ⟨rest, wire⟩ := exceeding.wire
  obtain ⟨after, reading, content₁, patient₁, _⟩ := readExact_patient patient headerBytes _ wire
  have started : readStdin (fun e => .wireCorruption ("Failed to read 97-byte header: " ++
      e.message)) wireHeaderSize (Process.start stdin) = .ok headerBytes ⟨after, []⟩ :=
    readStdin_of_readExact reading
  have checked := checkHeader_eq_ok_iff.mpr exceeding.conforms
  have enough := room spooling
  have whole : plaintextOf full ++ chunk.plaintext = plaintextOf (full ++ [chunk]) :=
    (plaintextOf_append_singleton full chunk).symm
  have length_le : (plaintextOf (full ++ [chunk])).length ≤ (content stdin).length := by
    rw [wire, List.length_append, List.length_append]
    have bound := length_plaintextOf_le exceeding.opens
    omega
  have fullLength_le : (plaintextOf full).length ≤ (content stdin).length := by
    refine Nat.le_trans ?_ length_le
    rw [← whole, List.length_append]
    exact Nat.le_add_right _ _
  have ahead : BeyondAhead crates header max (plaintextOf full) [] full chunk
      ⟨0, Spool.start host args.maxSize, []⟩ ⟨after, []⟩ :=
    ⟨patient₁, ⟨rest, content₁⟩, exceeding.opens, exceeding.allFull, exceeding.framed, rfl, limited,
      ⟨Spool.holds_start crates.aead host args.maxSize, enough.trusted.inverts,
        enough.trusted.honest, ⟨enough.takes.done,
          Nat.le_trans (Nat.mul_le_mul_left 21 fullLength_le) enough.takes.fits⟩, fun max' limited' => by
          cases limited.symm.trans limited'
          exact exceeding.within⟩,
      by rw [whole]; exact Nat.lt_of_le_of_lt length_le enough.short,
      by rw [whole]; exact exceeding.beyond⟩
  obtain ⟨error, final, looped⟩ := decryptChunks_of_beyond spooling ahead
  rw [runDecrypt, loaded, bind_of_ok (show orStop _ _ = .ok recipPriv _ from rfl), valid,
    bind_of_ok (show orFail _ _ _ = .ok signingKey _ from rfl), bind_of_ok started, checked,
    bind_of_ok (show orFail _ _ _ = .ok header _ from rfl), bind_of_error looped]
  rfl

end Run

/-- Exit code 2 has two causes, everything else that refuses a stream has exit code 1, and a
stream is accepted when it conforms and its plaintext is within the ceiling. -/
theorem runDecrypt_exit_codes (crates : Crates) (host : Host) (args : DecryptArgs)
    (recipPriv : FixedBytes 32) (signingKey : crates.curve.SigningKey) (stdin : Reader)
    (loaded : loadSecretKey crates host args.keyArgs = .ok recipPriv)
    (valid : crates.curve.signingKey recipPriv = .ok signingKey)
    (parses : SenderParses crates args) (patient : Patient stdin)
    (trusted : args.allowUnverifiedStream = false → SpoolTrusted crates host)
    (takes : args.allowUnverifiedStream = false →
      host.disk.Takes (21 * (content stdin).length)) :
    let status := exitStatus (runDecrypt crates host args (Process.start stdin))
    (status = some 2 ↔ StartsUntrusted args (content stdin) ∨ OverCeiling crates args recipPriv
      (crates.curve.publicBytes signingKey) (content stdin)) ∧
    (status ≠ some 2 → status ≠ some 0 → status = some 1) ∧
    (Smooth stdin → (status = some 0 ↔ ∃ stream : Stream, content stdin = stream.bytes ∧
      stream.Conforms crates args recipPriv (crates.curve.publicBytes signingKey) ∧
      (args.allowUnverifiedStream = false →
        ∀ max, args.maxSize = some max → stream.plaintext.length ≤ max.toNat))) := by
  have room : args.allowUnverifiedStream = false → SpoolSuffices crates host (content stdin) :=
    fun spooling => ⟨trusted spooling, takes spooling⟩
  have stops := runDecrypt_stops loaded valid parses room
  have ceilingStops := runDecrypt_of_overCeiling loaded valid patient room
  refine ⟨⟨fun two => ?_, ?_⟩, fun notTwo notZero => ?_, fun smooth => ⟨fun zero => ?_, ?_⟩⟩
  · cases result : runDecrypt crates host args (Process.start stdin) with
    | ok _ final =>
        rw [result] at two
        cases two
    | error stop final =>
        rw [result, exitStatus] at two
        rcases stops.error result with one | ⟨_, cause⟩
        · rw [one] at two
          cases two
        · exact cause
  · rintro (untrusted | beyond)
    · exact runDecrypt_of_startsUntrusted loaded valid patient untrusted
    · exact ceilingStops beyond
  · cases result : runDecrypt crates host args (Process.start stdin) with
    | ok _ final =>
        rw [result] at notZero
        exact absurd rfl notZero
    | error stop final =>
        rw [result] at notTwo
        rcases stops.error result with one | ⟨two, _⟩
        · exact one
        · exact absurd two notTwo
  · obtain ⟨final, finished⟩ := exitStatus_eq_zero_iff.mp zero
    obtain ⟨stream, accepted⟩ := (runDecrypt_ends crates host args stdin).ok finished
    obtain ⟨recipPriv', signingKey', loaded', valid', conforms⟩ := accepted.conforms
    rw [loaded] at loaded'
    cases loaded'
    rw [valid] at valid'
    cases valid'
    have whole : content stdin = stream.bytes := by
      rw [accepted.content_eq, accepted.exhausted smooth, List.append_nil]
    refine ⟨stream, whole, conforms, fun spooling max limited => ?_⟩
    by_contra longer
    have two := ceilingStops ⟨spooling, max, limited,
      exceedsCeiling_of_beyond conforms.header (whole.trans rfl) conforms.full
        (.inr conforms.last) conforms.opens (Nat.lt_of_not_le longer)⟩
    rw [zero] at two
    cases two
  · rintro ⟨stream, whole, conforms, within⟩
    refine exitStatus_eq_zero_iff.mpr (runDecrypt_of_conforms loaded valid conforms
      (fun spooling => ⟨trusted spooling, ⟨(takes spooling).done, ?_⟩, within spooling⟩) smooth whole)
    have bound := Stream.length_plaintext_le conforms
    have fits := (takes spooling).fits
    rw [whole] at fits
    omega

/-- A Mode 1 header with nothing in its other fields. -/
def bareHeader : FixedBytes wireHeaderSize :=
  (magicHeader.append (FixedBytes.single 0x01)).append
    ((FixedBytes.single 0x01).append (FixedBytes.zeros 91))

open Reference in
/-- Such a header alone, with nobody vouching for its sender. -/
theorem runDecrypt_exit_codes_sample :
    exitStatus (runDecrypt packages (keyHost sampleRecipient sampleEphemeral)
      ⟨none, false, false, none, {}⟩ (Process.start (ofBytes bareHeader.toList))) = some 2 := by
  refine (runDecrypt_exit_codes packages (keyHost sampleRecipient sampleEphemeral)
    ⟨none, false, false, none, {}⟩ (secretBytes sampleRecipient) sampleRecipient
    (ofBytes bareHeader.toList) (loadSecretKey_keyHost _ sampleRecipient sampleEphemeral)
    (signingKey_secretBytes sampleRecipient) (fun _ none => nomatch none)
    (smooth_ofBytes _).patient (fun _ => keyHost_trusted sampleRecipient sampleEphemeral)
    (fun _ => keyHost_takes sampleRecipient sampleEphemeral ?_)).1.mpr (.inl ?_)
  · rw [content_ofBytes, FixedBytes.length_toList]
    decide
  · exact ⟨bareHeader, [], by rw [content_ofBytes, List.append_nil],
      ⟨by decide, by decide, by decide, rfl, rfl⟩⟩

end PipeK1
