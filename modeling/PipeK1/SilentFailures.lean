import PipeK1.CommandRules
import PipeK1.MaxSizeContract
import PipeK1.OptionContract
import PipeK1.RoundTrip
import PipeK1.StreamCompleteness

/-!
# Failed runs are silent

A run that fails has put nothing on standard output, so that a consumer never
sees a part of a result. Encryption, unverified streaming and a status
descriptor of 1 are the exceptions.
-/

set_option autoImplicit false

namespace PipeK1

open ByteData ByteReader Effects

/-- The program writes before it knows whether it succeeds. -/
def WritesAhead (exe command : String) (args : List String) : Prop :=
  if isGitInvocation exe command then (scanShim {} (shimVector command args)).statusFd = some 1
  else command = "encrypt" ∨ command = "decrypt" ∧ (decryptArgs args).allowUnverifiedStream = true

variable {crates : Crates} {host : Host} {bytes : Bytes}

/-! ## Steps -/

theorem orFail_wrote {α ε : Type} (convert : ε → Pipek1Error) (outcome : Except ε α) :
    Preserves (Wrote bytes) (orFail convert outcome) :=
  orStop_wrote _

theorem readStdin_wrote (convert : IoError → Pipek1Error) (width : Nat) :
    Preserves (Wrote bytes) (readStdin convert width) :=
  .bind (onStdin_wrote _) fun _ => orFail_wrote _ _

theorem readAllStdin_wrote : Preserves (Wrote bytes) readAllStdin :=
  .bind (onStdin_wrote _) fun _ => orFail_wrote _ _

theorem absorbStdin_wrote (begun : Option Spool) :
    Preserves (Wrote bytes) (absorbStdin crates begun) := by
  refine .loop (fun state => ?_) _
  refine .bind (onStdin_wrote _) fun _ => .bind (orFail_wrote _ _) fun taken => ?_
  split
  · exact .pure _
  · exact .bind (orFail_wrote _ _) fun _ => .pure _

theorem loadSigningKey_wrote (args : List String) :
    Preserves (Wrote bytes) (loadSigningKey crates host args) :=
  .bind (orStop_wrote _) fun _ => orFail_wrote _ _

theorem currentTimestamp_wrote : Preserves (Wrote bytes) (currentTimestamp host) :=
  .bind (orFail_wrote _ _) fun _ => .pure _

/-! ## Writing last -/

theorem printArmored_infallible (label : String) (payload : SignaturePayload) :
    Infallible (printArmored crates label payload) :=
  .bind (record_infallible _) fun _ => .bind (record_infallible _) fun _ =>
    .bind (record_infallible _) fun _ => record_infallible _

theorem pubkeyCommand_clean (args : List String) :
    FailsClean (Wrote bytes) (pubkeyCommand crates host args) :=
  .bind (loadSigningKey_wrote args) fun _ => .of_infallible <|
    .bind (record_infallible _) fun _ => record_infallible _

theorem signCommand_clean (args : List String) :
    FailsClean (Wrote bytes) (signCommand crates host args) := by
  unfold signCommand
  refine .bind (loadSigningKey_wrote args) fun _ => .bind (absorbStdin_wrote none) fun _ =>
    .bind currentTimestamp_wrote fun _ => .bind (orStop_wrote _) fun _ => .of_infallible ?_
  split
  · exact printArmored_infallible _ _
  · exact record_infallible _

theorem hashCommand_clean (args : List String) :
    FailsClean (Wrote bytes) (hashCommand crates args) :=
  .bind readAllStdin_wrote fun _ => .of_infallible (record_infallible _)

theorem inspectHeaderCommand_clean :
    FailsClean (Wrote bytes) (inspectHeaderCommand crates) := by
  refine .bind (readStdin_wrote _ _) fun header => ?_
  dsimp only
  split
  · exact .throw _
  · refine .of_infallible ?_
    iterate 7 refine .bind (record_infallible _) fun _ => ?_
    exact record_infallible _

theorem inspectChunkCommand_clean : FailsClean (Wrote bytes) inspectChunkCommand :=
  .bind (readStdin_wrote _ _) fun _ => .of_infallible <|
    .bind (record_infallible _) fun _ => .bind (record_infallible _) fun _ => record_infallible _

/-! ## Commands that spool -/

theorem runDecrypt_silent {args : DecryptArgs} (trusted : SpoolTrusted crates host)
    (spooling : args.allowUnverifiedStream = false) (stdin : Reader) :
    Ends (fun _ _ => True) (fun _ after => Wrote [] after)
      (runDecrypt crates host args (Process.start stdin)) :=
  (runDecrypt_ends crates host args stdin).mono (fun _ _ _ => trivial)
    (fun _ _ silent => silent spooling trusted)

/-- Whatever standard input does, a spool gives back all it has taken. -/
theorem verifyStdin_silent {options : VerifyOptions} {payload : SignaturePayload}
    (trusted : SpoolTrusted crates host) (stdin : Reader) :
    Ends (fun _ _ => True) (fun _ after => Wrote [] after)
      (verifyStdin crates host options payload (Process.start stdin)) := by
  rw [verifyStdin, ends_bind]
  refine (absorbStdin_ends (passThroughSpool host options) ?_ (Process.start stdin)).mono ?_ ?_
  · intro spool begun
    unfold passThroughSpool at begun
    split at begun
    · cases begun
      exact Spool.holds_start crates.aead host options.maxSize
    · cases begun
  · rintro absorbed first ⟨reached, _⟩
    have quiet : first.stdout = [] := Process.stdout_of_events_start reached.events
    rw [ends_bind]
    refine ends_orFail (fun signerPk _ => ?_) (fun _ _ => quiet)
    rw [ends_bind]
    refine (checkSigner_ends options signerPk first).mono ?_
      (fun _ _ refused => refused.1.trans quiet)
    rintro _ second ⟨_, stdout_eq, _⟩
    exact (releaseVerified_ends trusted reached.spooled (stdout_eq.trans quiet)).mono
      (fun _ _ _ => trivial) (fun _ _ impossible => impossible.elim)
  · rintro _ after ⟨events_eq, _⟩
    exact Process.stdout_of_events_start events_eq

theorem verifyCommand_silent (trusted : SpoolTrusted crates host) (args : List String)
    (stdin : Reader) :
    Ends (fun _ _ => True) (fun _ after => Wrote [] after)
      (verifyCommand crates host args (Process.start stdin)) := by
  unfold verifyCommand
  by_cases unguarded : (verifyOptions args).passThrough = true ∧
      (verifyOptions args).expectedPub.isNone = true
  · simp only [unguarded, and_self, ↓reduceIte, ends_fail]
    rfl
  · simp only [unguarded, ↓reduceIte, ends_bind]
    exact ends_orFail (fun _ _ => verifyStdin_silent trusted stdin) (fun _ _ => rfl)

/-! ## The git shim -/

section Shim

variable {args : ShimArgs} (elsewhere : args.statusFd ≠ some 1)
include elsewhere

theorem writeStatusFd_wrote (line : String) :
    Preserves (Wrote bytes) (writeStatusFd args.statusFd line) := by
  unfold writeStatusFd
  split
  · exact .pure ()
  · next fd named =>
      split
      · exact .throw _
      · refine record_wrote (if_neg fun one => elsewhere ?_)
        rw [named, one]

/-- Verification reports on standard error and on the status descriptor only. -/
theorem shimVerify_wrote : Preserves (Wrote bytes) (shimVerify crates host args) := by
  have status : ∀ line, Preserves (Wrote bytes) (writeStatusFd args.statusFd line) :=
    writeStatusFd_wrote elsewhere
  have notice : ∀ text, Preserves (Wrote bytes) (eprintln text) := fun _ => record_wrote rfl
  unfold shimVerify
  split
  · exact .throw _
  · refine .bind (orFail_wrote _ _) fun _ => .bind (orFail_wrote _ _) fun sigBytes => ?_
    unfold checkPayload
    split
    · exact .bind (status _) fun _ => .bind (notice _) fun _ => .throw _
    · refine .bind ?_ fun dataBytes => ?_
      · unfold readData
        split
        · exact readAllStdin_wrote
        · exact orFail_wrote _ _
      · split
        · unfold reportGood
          refine .bind (status _) fun _ => ?_
          split
          all_goals
            exact .bind (notice _) fun _ => .bind (notice _) fun _ => .bind (status _) fun _ =>
              .bind (status _) fun _ => status _
        · exact .bind (status _) fun _ => .bind (status _) fun _ => .bind (notice _) fun _ =>
            .throw _

theorem shimSign_clean : FailsClean (Wrote bytes) (shimSign crates host args) := by
  have status : ∀ line, Preserves (Wrote bytes) (writeStatusFd args.statusFd line) :=
    writeStatusFd_wrote elsewhere
  unfold shimSign
  refine .bind (orStop_wrote _) fun _ => .bind (orFail_wrote _ _) fun _ => .bind ?_ fun _ =>
    .bind readAllStdin_wrote fun _ => .bind currentTimestamp_wrote fun _ =>
    .bind (orStop_wrote _) fun _ => .bind (status _) fun _ =>
    .of_infallible (printArmored_infallible _ _)
  unfold checkKeyId
  split
  · exact .pure ()
  · split
    · exact .pure ()
    · split
      · exact .bind (status _) fun _ => .bind (record_wrote rfl) fun _ => .throw _
      · exact .pure ()

end Shim

theorem runGitShim_clean {args : List String} (elsewhere : (scanShim {} args).statusFd ≠ some 1) :
    FailsClean (Wrote bytes) (runGitShim crates host args) := by
  unfold runGitShim
  dsimp only
  split
  · exact .of_preserves (shimVerify_wrote elsewhere)
  · exact shimSign_clean elsewhere

/-! ## The program -/

theorem runCommand_silent (trusted : SpoolTrusted crates host) {rounds : Nat}
    {exe command : String} {args : List String} (later : ¬ WritesAhead exe command args)
    (stdin : Reader) :
    Ends (fun _ _ => True) (fun _ after => Wrote [] after)
      (runCommand crates host rounds exe command args (Process.start stdin)) := by
  have nothing : Wrote [] (Process.start stdin) := rfl
  unfold runCommand
  unfold WritesAhead at later
  by_cases git : isGitInvocation exe command = true
  · rw [if_pos git] at later ⊢
    exact runGitShim_clean later _ nothing
  · rw [if_neg git] at later ⊢
    unfold dispatchCommand
    split
    case h_1 => exact absurd (.inl rfl) later
    case h_2 =>
      exact runDecrypt_silent trusted
        (Bool.eq_false_of_not_eq_true fun streaming => later (.inr ⟨rfl, streaming⟩)) stdin
    case h_3 => exact pubkeyCommand_clean args _ nothing
    case h_4 => exact signCommand_clean args _ nothing
    case h_5 => exact verifyCommand_silent trusted args stdin
    case h_6 => exact hashCommand_clean args _ nothing
    case h_7 => exact inspectHeaderCommand_clean _ nothing
    case h_8 => exact inspectChunkCommand_clean _ nothing
    case h_9 =>
      have usage : ∀ lines : List String, Preserves (Wrote []) (lines.forM eprintln) := by
        intro lines
        induction lines with
        | nil => exact .pure _
        | cons line lines ih => exact .bind (record_wrote rfl) fun _ => ih
      exact FailsClean.bind (usage usageText) (fun _ => .throw _) _ nothing

/-- A run that does not end with exit code 0 has put nothing on standard output, however
standard input behaves, unless its command writes ahead of its verdict. -/
theorem realMain_failure_silent (crates : Crates) (host : Host)
    (trusted : SpoolTrusted crates host) (rounds : Nat) (exe command : String) (args : List String)
    (later : ¬ WritesAhead exe command args) (stdin : Reader)
    (failed : (realMain crates host rounds (exe :: command :: args) stdin).1 ≠ some 0) :
    (realMain crates host rounds (exe :: command :: args) stdin).2.stdout = [] := by
  have silent := @runCommand_silent crates host trusted rounds exe command args later stdin
  simp only [realMain] at failed ⊢
  rw [stdout_reported]
  cases ran : runCommand crates host rounds exe command args (Process.start stdin) with
  | ok _ final =>
      rw [ran] at failed
      exact absurd rfl failed
  | error stop final => exact silent.error ran

open Reference in
/-- A Mode 1 stream without the last byte of its trailer: what the whole stream gives is held back. -/
theorem realMain_failure_silent_sample :
    ∃ stream : Bytes,
      (∃ final, runDecrypt packages (keyHost sampleRecipient sampleEphemeral)
        (openArgs false sampleSender false) (Process.start (ofBytes stream)) = .ok () final ∧
          final.stdout = sampleData) ∧
      (realMain packages (keyHost sampleRecipient sampleEphemeral) 0
        ["pipe-k1", "decrypt", "--sender", publicHex sampleSender]
        (ofBytes stream.dropLast)).1 = some 1 ∧
      (realMain packages (keyHost sampleRecipient sampleEphemeral) 0
        ["pipe-k1", "decrypt", "--sender", publicHex sampleSender]
        (ofBytes stream.dropLast)).2.stdout = [] := by
  obtain ⟨encrypted, _, whole⟩ := @exists_encrypted false sampleSender sampleRecipient
    sampleEphemeral sampleData (by decide)
  obtain ⟨final, accepted, output⟩ := @sealedStream_accepted false false sampleSender
    sampleRecipient sampleEphemeral sampleData (by decide)
  have sixth := @sealedStream_mode false sampleSender sampleRecipient sampleEphemeral sampleData
    (by decide)
  rw [whole] at accepted sixth
  have shorter : encrypted.stdout.dropLast.length ≠ encrypted.stdout.length := by
    rw [content_ofBytes] at sixth
    have nonempty := (List.getElem?_eq_some_iff.mp sixth).1
    rw [List.length_dropLast]
    omega
  have cut : Cut (Process.start (ofBytes encrypted.stdout))
      (Process.start (ofBytes encrypted.stdout.dropLast)) := by
    refine ⟨smooth_ofBytes _, smooth_ofBytes _, .inr ?_, fun same => shorter ?_, rfl⟩
    · simp only [Process.stdin_start, content_ofBytes]
      exact List.dropLast_prefix _
    · simpa only [Process.stdin_start, content_ofBytes] using (congrArg List.length same).symm
  have direct : isGitInvocation "pipe-k1" "decrypt" = false := by decide
  have status : (realMain packages (keyHost sampleRecipient sampleEphemeral) 0
      ["pipe-k1", "decrypt", "--sender", publicHex sampleSender]
      (ofBytes encrypted.stdout.dropLast)).1 = some 1 := by
    rw [realMain_decrypt direct]
    rcases (runDecrypt_cut rfl cut).of_left_ok accepted with
      ⟨_, _, _, impossible⟩ | ⟨stop, after, refused, code, _⟩
    · exact impossible.elim
    · exact (congrArg exitStatus refused).trans code
  refine ⟨encrypted.stdout, ⟨final, accepted, output⟩, status, ?_⟩
  refine realMain_failure_silent packages (keyHost sampleRecipient sampleEphemeral)
    (keyHost_trusted sampleRecipient sampleEphemeral) 0 "pipe-k1" "decrypt"
    ["--sender", publicHex sampleSender] ?_ _ (by rw [status]; decide)
  rw [WritesAhead, direct]
  rintro (encrypts | ⟨_, streaming⟩)
  · exact absurd encrypts (by decide)
  · cases streaming

end PipeK1
