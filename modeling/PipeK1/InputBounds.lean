import PipeK1.DecryptProperties
import PipeK1.EncryptContract
import PipeK1.OptionContract
import PipeK1.Reference
import PipeK1.Library.Budget

/-!
# How much input a command takes

`--max-size` bounds what `decrypt` and `verify --pass-through` read, whoever
sends and whatever is sent: the ceiling, a last chunk or buffer, and the frame.
-/

set_option autoImplicit false

namespace PipeK1

open ByteData ByteReader Effects

variable {crates : Crates} {host : Host}

/-! ## Costs -/

theorem onStdin_spends {α : Type} {operation : Reader → Except IoError α × Reader} {cost : Nat}
    (bounded : ∀ reader, (content reader).length ≤ (content (operation reader).2).length + cost) :
    Spends stdinLength cost (onStdin operation) :=
  fun process => bounded process.stdin

theorem orStop_spends {α : Type} (outcome : Except Stop α) :
    Spends stdinLength 0 (orStop outcome) := by
  cases outcome with
  | ok value => exact .pure value
  | error stop => exact .throw stop

theorem record_spends (event : Event) : Spends stdinLength 0 (record event) :=
  fun _ => Nat.le_refl _

theorem readStdin_spends (convert : IoError → Pipek1Error) (width : Nat) :
    Spends stdinLength width (readStdin convert width) :=
  .bind_last (onStdin_spends (readExact_takes_le width)) fun _ => orStop_spends _

/-- A chunk is never longer on the wire than a full one. -/
abbrev wireChunkLimit : Nat := chunkHeaderSize + (chunkSize + tagSize)

theorem readChunk_spends : Spends stdinLength wireChunkLimit readChunk := by
  refine .bind (readStdin_spends _ _) fun chunkHdr => ?_
  dsimp only
  split
  · exact .throw _
  · split
    · exact .throw _
    · split
      · exact .throw _
      · next fits =>
          refine .bind ((readStdin_spends _ _).mono (Nat.le_of_not_lt fits)) fun ctBuffer => ?_
          exact (readStdin_spends _ _).bind_last fun tagBytes => .pure _

theorem trailerStage_spends (args : DecryptArgs) (header : StreamHeader) (hashed : Bytes) :
    Spends stdinLength trailerSize (trailerStage crates args header hashed) := by
  unfold trailerStage
  split
  · unfold authenticateTrailer
    refine (readStdin_spends _ _).bind_last fun trailer =>
      (orStop_spends _).bind_free fun _ => (orStop_spends _).bind_free fun notice =>
      (record_spends _).bind_free fun _ => ?_
    split
    · exact record_spends _
    · exact .pure _
  · exact .pure _

theorem assertEndOfInput_spends : Spends stdinLength 1 assertEndOfInput := by
  refine (onStdin_spends (read_takes_le 1)).bind_last fun trailing => ?_
  split
  · exact .throw _
  · exact record_spends _
  · exact .throw _

theorem releaseToStdout_spends (aead : Cipher) (spool : Spool) :
    Spends stdinLength 0 (spool.releaseToStdout aead) := by
  unfold Spool.releaseToStdout
  split
  · exact record_spends _
  · exact (record_spends _).bind_free fun _ => .throw _

/-! ## Spools with a ceiling -/

/-- Below the last 64 KiB of the 64-bit range the running total cannot wrap before it is
checked. -/
def NoWrap (max : UInt64) : Prop := max.toNat + chunkSize < 2 ^ 64

instance (max : UInt64) : Decidable (NoWrap max) := inferInstanceAs (Decidable (_ < _))

namespace Spool

/-- The running total is within the ceiling. -/
structure Within (aead : Cipher) (max : UInt64) (spool : Spool) : Prop where
  holds : ∃ written, Holds aead spool written
  limited : spool.spooler.maxSize = some max
  total_le : spool.spooler.totalBytes.toNat ≤ max.toNat

theorem within_start (aead : Cipher) (host : Host) (max : UInt64) :
    Within aead max (start host (some max)) :=
  ⟨⟨[], holds_start aead host (some max)⟩, rfl, Nat.zero_le _⟩

/-- What the ceiling leaves. -/
def remaining (max : UInt64) (spool : Spool) : Nat := max.toNat - spool.spooler.totalBytes.toNat

/-- An accepted chunk uses up its length. -/
theorem Within.writeChunk {aead : Cipher} {max : UInt64} {spool after : Spool} {chunk : Bytes}
    (within : Within aead max spool) (noWrap : NoWrap max) (fits : chunk.length ≤ chunkSize)
    (written : spool.writeChunk aead chunk = .ok () after) :
    Within aead max after ∧ remaining max after + chunk.length = remaining max spool := by
  obtain ⟨before, holds⟩ := within.holds
  obtain ⟨holds', continues, under⟩ := (writeChunk_ends aead chunk before spool holds).ok written
  have total : after.spooler.totalBytes = spool.spooler.totalBytes + UInt64.ofNat chunk.length := by
    rw [holds'.total, holds.total, List.length_append, UInt64.ofNat_add]
  have below : after.spooler.totalBytes.toNat ≤ max.toNat := by
    rw [holds'.total]
    exact UInt64.le_iff_toNat_le.mp (under max within.limited)
  have sum : after.spooler.totalBytes.toNat =
      spool.spooler.totalBytes.toNat + chunk.length := by
    have room : max.toNat + chunkSize < 2 ^ 64 := noWrap
    have started := within.total_le
    rw [total, UInt64.toNat_add, UInt64.toNat_ofNat', Nat.mod_eq_of_lt (by omega),
      Nat.mod_eq_of_lt (by omega)]
  refine ⟨⟨⟨_, holds'⟩, continues.maxSize.trans within.limited, below⟩, ?_⟩
  unfold remaining
  omega

end Spool

/-! ## `decrypt` -/

section Decrypt

variable {args : DecryptArgs} {max : UInt64}

/-- What the chunk loop may still take: the full chunks the ceiling leaves room for, and one
more. -/
def chunksLeft (max : UInt64) (state : DecryptState) : Nat :=
  (state.spool.remaining max / chunkSize + 1) * wireChunkLimit

theorem decryptStep_spends (spooling : args.allowUnverifiedStream = false) (noWrap : NoWrap max)
    (header : StreamHeader) (state : DecryptState) (process : Process)
    (within : state.spool.Within crates.aead max) :
    Ends (fun outcome after =>
        match outcome with
        | .inl next => next.spool.Within crates.aead max ∧
            stdinLength process + chunksLeft max next ≤ stdinLength after + chunksLeft max state
        | .inr _ => stdinLength process ≤ stdinLength after + chunksLeft max state)
      (fun _ after => stdinLength process ≤ stdinLength after + chunksLeft max state)
      (decryptStep crates args header state process) := by
  have one : wireChunkLimit ≤ chunksLeft max state :=
    Nat.le_mul_of_pos_left _ (Nat.succ_pos _)
  rw [decryptStep, ends_bind]
  refine ((readChunk_spends process).and (readChunk_ends process)).mono ?_ ?_
  · rintro chunk first ⟨spent, _, _, _, framed⟩
    cases opened : openChunk crates header state.chunkCounter chunk with
    | error _ => exact Nat.le_trans spent (Nat.add_le_add_left one _)
    | ok plaintext =>
        have length_eq : plaintext.length = chunk.ciphertext.length :=
          crates.aead.length_decrypt opened
        simp only [ends_bind, ends_record]
        refine (deliverChunk_ends crates args plaintext state.spool _).mono ?_ ?_
        · rintro spool second ⟨stdin_eq, delivered⟩
          simp only [spooling, Bool.false_eq_true, ↓reduceIte] at delivered
          obtain ⟨within', used⟩ := within.writeChunk noWrap
            (length_eq.trans_le framed.length_le) delivered.1
          have same : stdinLength second = stdinLength first := by
            rw [stdinLength, stdin_eq]
            rfl
          rw [ends_pure]
          by_cases terminal : chunk.termTag = 0x01
          · rw [if_pos terminal]
            change stdinLength process ≤ stdinLength second + chunksLeft max state
            rw [same]
            exact Nat.le_trans spent (Nat.add_le_add_left one _)
          · rw [if_neg terminal]
            refine ⟨within', ?_⟩
            have full : plaintext.length = chunkSize := by
              rcases framed with ⟨_, whole⟩ | ⟨last, _⟩
              · exact length_eq.trans whole
              · exact absurd last terminal
            have shrunk : chunksLeft max state =
                (spool.remaining max / chunkSize + 1) * wireChunkLimit + wireChunkLimit := by
              rw [chunksLeft, ← used, full, Nat.add_div_right _ (by decide), Nat.add_one_mul]
            change stdinLength process + (spool.remaining max / chunkSize + 1) * wireChunkLimit ≤
              stdinLength second + chunksLeft max state
            rw [same, shrunk]
            omega
        · rintro _ after ⟨_, rfl, _⟩
          exact Nat.le_trans spent (Nat.add_le_add_left one _)
  · rintro _ after ⟨spent, _⟩
    exact Nat.le_trans spent (Nat.add_le_add_left one _)

/-- The ceiling, a last chunk, the frame of every chunk, header and trailer, and the byte
that must not be there. -/
def decryptInput (max : UInt64) : Nat :=
  wireHeaderSize + ((max.toNat / chunkSize + 1) * wireChunkLimit + (trailerSize + 1))

theorem decryptChunks_spends (spooling : args.allowUnverifiedStream = false) (noWrap : NoWrap max)
    (header : StreamHeader) :
    Spends stdinLength ((max.toNat / chunkSize + 1) * wireChunkLimit)
      (decryptChunks crates args header ⟨0, Spool.start host (some max), []⟩) := by
  have begun : chunksLeft max ⟨0, Spool.start host (some max), []⟩ =
      (max.toNat / chunkSize + 1) * wireChunkLimit := by
    rw [chunksLeft, Spool.remaining, Spool.start, StreamSpooler.new, UInt64.toNat_zero,
      Nat.sub_zero]
  rw [← begun]
  unfold decryptChunks
  refine Spends.loop (fun state => state.spool.Within crates.aead max) (chunksLeft max) ?_
    (Spool.within_start crates.aead host max)
  intro state process within
  refine (decryptStep_spends spooling noWrap header state process within).mono ?_
    (fun _ _ spent => spent)
  intro outcome after spent
  cases outcome with
  | inl next => exact spent
  | inr final => exact spent

theorem runDecrypt_spends (spooling : args.allowUnverifiedStream = false)
    (limited : args.maxSize = some max) (noWrap : NoWrap max) :
    Spends stdinLength (decryptInput max) (runDecrypt crates host args) := by
  unfold runDecrypt
  refine (orStop_spends _).bind_free fun recipPriv => (orStop_spends _).bind_free fun signingKey =>
    (readStdin_spends _ _).bind fun headerBytes => (orStop_spends _).bind_free fun header => ?_
  rw [limited]
  refine (decryptChunks_spends spooling noWrap header).bind fun state => (trailerStage_spends _ _ _).bind fun _ =>
    assertEndOfInput_spends.bind_last fun _ => ?_
  split
  · exact .pure _
  · exact releaseToStdout_spends _ _

end Decrypt

/-! ## `verify --pass-through` -/

section Verify

variable {max : UInt64}

/-- Standard input is spooled under the ceiling. -/
def Absorbs (crates : Crates) (max : UInt64) (state : AbsorbState) : Prop :=
  ∃ spool, state.spool = some spool ∧ spool.Within crates.aead max

/-- What the reading loop may still take: what the ceiling leaves, and one buffer. -/
def readsLeft (max : UInt64) (state : AbsorbState) : Nat :=
  (state.spool.map (Spool.remaining max)).getD 0 + chunkSize

theorem absorbStep_spends (noWrap : NoWrap max) (state : AbsorbState) (process : Process)
    (absorbs : Absorbs crates max state) :
    Ends (fun outcome after =>
        match outcome with
        | .inl next => Absorbs crates max next ∧
            stdinLength process + readsLeft max next ≤ stdinLength after + readsLeft max state
        | .inr _ => stdinLength process ≤ stdinLength after + readsLeft max state)
      (fun _ after => stdinLength process ≤ stdinLength after + readsLeft max state)
      (absorbStep crates state process) := by
  obtain ⟨spool, spooled, within⟩ := absorbs
  have buffer : ∀ after : Process, stdinLength process ≤ stdinLength after + chunkSize →
      stdinLength process ≤ stdinLength after + readsLeft max state :=
    fun after spent => Nat.le_trans spent (Nat.add_le_add_left (Nat.le_add_left _ _) _)
  have taken := read_takes_le chunkSize process.stdin
  rw [absorbStep, ends_bind, onStdin, ends_modifyGet, ends_bind]
  refine ends_orFail ?_ (fun _ _ => buffer _ taken)
  intro bytes reading
  obtain ⟨content_eq, fits⟩ := read_ok_content (Prod.ext reading rfl)
  cases bytes with
  | nil => exact buffer _ taken
  | cons byte bytes =>
      rw [ends_bind]
      refine ends_orFail ?_ (fun _ _ => buffer _ taken)
      intro stored storing
      rw [spooled, spoolBytes] at storing
      cases written : spool.writeChunk crates.aead (byte :: bytes) with
      | error _ _ =>
          rw [written] at storing
          cases storing
      | ok _ after =>
          rw [written] at storing
          cases storing
          obtain ⟨within', used⟩ := within.writeChunk noWrap fits written
          refine ⟨⟨after, rfl, within'⟩, ?_⟩
          have before : readsLeft max state = spool.remaining max + chunkSize := by
            rw [readsLeft, spooled]
            rfl
          have consumed : (content process.stdin).length = (byte :: bytes).length +
              (content (read chunkSize process.stdin).2).length := by
            rw [← List.length_append]
            exact congrArg List.length content_eq
          change (content process.stdin).length + (after.remaining max + chunkSize) ≤
            (content (read chunkSize process.stdin).2).length + readsLeft max state
          rw [before, ← used, consumed]
          omega

theorem absorbStdin_spends (noWrap : NoWrap max) :
    Spends stdinLength (max.toNat + chunkSize)
      (absorbStdin crates (some (Spool.start host (some max)))) := by
  have begun : readsLeft max ⟨some (Spool.start host (some max)), []⟩ = max.toNat + chunkSize := by
    rw [readsLeft, Option.map_some, Option.getD_some, Spool.remaining, Spool.start,
      StreamSpooler.new, UInt64.toNat_zero, Nat.sub_zero]
  rw [← begun]
  unfold absorbStdin
  refine Spends.loop (Absorbs crates max) (readsLeft max) ?_
    ⟨_, rfl, Spool.within_start crates.aead host max⟩
  intro state process absorbs
  refine (absorbStep_spends noWrap state process absorbs).mono ?_ (fun _ _ spent => spent)
  intro outcome after spent
  cases outcome with
  | inl next => exact spent
  | inr final => exact spent

theorem verifyCommand_spends {args : List String} (passing : (verifyOptions args).passThrough = true)
    (limited : (verifyOptions args).maxSize = some max) (noWrap : NoWrap max) :
    Spends stdinLength (max.toNat + chunkSize) (verifyCommand crates host args) := by
  unfold verifyCommand
  dsimp only
  split
  · exact .throw _
  · refine (orStop_spends _).bind_free fun payload => ?_
    unfold verifyStdin
    rw [if_pos passing, limited]
    refine (absorbStdin_spends noWrap).bind_last fun absorbed =>
      (orStop_spends _).bind_free fun signerPk => .bind_free ?_ fun _ => ?_
    · unfold checkSigner
      split
      · refine (orStop_spends _).bind_free fun expPk => ?_
        split
        · exact .throw _
        · exact .pure _
      · exact record_spends _
    · unfold releaseVerified
      split
      · exact releaseToStdout_spends _ _
      · exact record_spends _

end Verify

/-! ## The program -/

theorem pubkeyCommand_spends (args : List String) :
    Spends stdinLength 0 (pubkeyCommand crates host args) := by
  unfold pubkeyCommand loadSigningKey
  exact .bind_free ((orStop_spends _).bind_free fun _ => orStop_spends _) fun signingKey =>
    (record_spends _).bind_free fun _ => record_spends _

theorem printUsage_spends : Spends stdinLength 0 printUsage :=
  .forM (fun _ => record_spends _) _

theorem inspectHeaderCommand_spends :
    Spends stdinLength wireHeaderSize (inspectHeaderCommand crates) := by
  unfold inspectHeaderCommand
  refine (readStdin_spends _ _).bind_last fun header => ?_
  split
  · exact .throw _
  · iterate 7 refine (record_spends _).bind_free fun _ => ?_
    exact record_spends _

theorem inspectChunkCommand_spends : Spends stdinLength chunkHeaderSize inspectChunkCommand := by
  unfold inspectChunkCommand
  refine (readStdin_spends _ _).bind_last fun chunkHdr => ?_
  iterate 2 refine (record_spends _).bind_free fun _ => ?_
  exact record_spends _

/-- A secret is read from descriptor 0, to its end: standard input itself. -/
def KeyIntakeArgs.FromStdin (args : KeyIntakeArgs) : Prop := some 0 ∈ args.descriptors

instance (args : KeyIntakeArgs) : Decidable args.FromStdin :=
  inferInstanceAs (Decidable (_ ∈ _))

/-- A bound on what a command reads: there is none for the commands that take all of standard
input, for chunks that are passed on unverified, for a secret key on standard input, and
without a ceiling that leaves room for the running total. -/
def inputLimit (command : String) (args : List String) : Option Nat :=
  match command with
  | "decrypt" =>
      if (decryptOptions args).allowUnverified ∨ (parseKeyIntakeArgs args).FromStdin then none
      else ((decryptOptions args).maxSize.filter (NoWrap ·)).map decryptInput
  | "verify" =>
      if (verifyOptions args).passThrough then
        ((verifyOptions args).maxSize.filter (NoWrap ·)).map fun max => max.toNat + chunkSize
      else none
  | "encrypt" | "sign" | "hash" => none
  | "inspect-header" => some wireHeaderSize
  | "inspect-chunk" => some chunkHeaderSize
  | "pubkey" => if (parseKeyIntakeArgs args).FromStdin then none else some 0
  | _ => some 0

theorem dispatchCommand_spends {rounds : Nat} {command : String} {args : List String} {limit : Nat}
    (bounded : inputLimit command args = some limit) :
    Spends stdinLength limit (dispatchCommand crates host rounds command args) := by
  unfold inputLimit at bounded
  unfold dispatchCommand
  split at bounded
  · split at bounded
    · cases bounded
    · next spooling =>
        obtain ⟨max, limited, rfl⟩ := Option.map_eq_some_iff.mp bounded
        obtain ⟨limited, noWrap⟩ := Option.filter_eq_some_iff.mp limited
        exact runDecrypt_spends
          (Bool.eq_false_of_not_eq_true fun unverified => spooling (.inl unverified)) limited
          (of_decide_eq_true noWrap)
  · split at bounded
    · next passing =>
        obtain ⟨max, limited, rfl⟩ := Option.map_eq_some_iff.mp bounded
        obtain ⟨limited, noWrap⟩ := Option.filter_eq_some_iff.mp limited
        exact verifyCommand_spends passing limited (of_decide_eq_true noWrap)
    · cases bounded
  · cases bounded
  · cases bounded
  · cases bounded
  · cases bounded
    exact inspectHeaderCommand_spends
  · cases bounded
    exact inspectChunkCommand_spends
  · split at bounded
    · cases bounded
    · cases bounded
      exact pubkeyCommand_spends args
  · cases bounded
    split
    case h_9 => exact printUsage_spends.bind_free fun _ => .throw _
    all_goals contradiction

theorem reported_stdin (result : EStateM.Result Stop Process Unit) :
    stdinLength (reported result) = match result with
      | .ok _ process => stdinLength process
      | .error _ process => stdinLength process := by
  rcases result with ⟨_, _⟩ | ⟨_ | _ | _, _⟩ <;> rfl

/-- Whatever standard input delivers, and however the run ends, a command takes no more of it
than its limit. What `io::stdin()` has buffered ahead counts as not taken, and no path names
standard input. -/
theorem realMain_input_bounded (crates : Crates) (host : Host) (rounds : Nat)
    (exe command : String) (args : List String) (limit : Nat)
    (direct : isGitInvocation exe command = false)
    (bounded : inputLimit command args = some limit) (stdin : Reader) :
    (content stdin).length ≤ limit +
      (content (realMain crates host rounds (exe :: command :: args) stdin).2.stdin).length := by
  have spent := @dispatchCommand_spends crates host rounds command args limit bounded
    (Process.start stdin)
  rw [realMain_dispatch direct]
  change stdinLength (Process.start stdin) ≤ limit + stdinLength (reported _)
  rw [reported_stdin, Nat.add_comm]
  cases ran : dispatchCommand crates host rounds command args (Process.start stdin) with
  | ok _ final => exact spent.ok ran
  | error stop final => exact spent.error ran

open Reference in
/-- A sender that does not stop: under a ceiling of ten bytes, one chunk is read. -/
theorem realMain_input_bounded_sample :
    (content (List.replicate 4 (.ready (List.replicate chunkSize 0)))).length ≤ 65751 +
      (content (realMain packages (keyHost sampleSender sampleEphemeral) 0
        ["pipe-k1", "decrypt", "--max-size", "10"]
        (List.replicate 4 (.ready (List.replicate chunkSize 0)))).2.stdin).length :=
  realMain_input_bounded packages (keyHost sampleSender sampleEphemeral) 0 "pipe-k1" "decrypt"
    ["--max-size", "10"] 65751 (by decide) (by decide) _

end PipeK1
