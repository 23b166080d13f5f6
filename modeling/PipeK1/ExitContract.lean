import PipeK1.CommandRules
import PipeK1.Reference

/-!
# How the program ends

Every run ends with exit code 0, 1 or 2, whatever the Unicode arguments, the
environment and the input are, except that a descriptor option of -1 aborts it.
-/

set_option autoImplicit false

namespace PipeK1

open ByteData ByteReader Effects

/-- An error of the program's own; or a panic, for which there must be a reason, or a search that
does not end. -/
def Orderly (reason search : Prop) : Stop → Prop
  | .failed _ => True
  | .panicked _ => reason
  | .unfinished => search

variable {crates : Crates} {host : Host} {reason search : Prop} {α : Type}

/-! ## Steps of a run -/

theorem onStdin_orderly {operation : Reader → Except IoError α × Reader} :
    StopsOnly (Orderly reason search) (onStdin operation) :=
  fun _ => trivial

theorem orStop_orderly {outcome : Except Stop α}
    (fails : FailsOnly (Orderly reason search) outcome) :
    StopsOnly (Orderly reason search) (orStop outcome) := by
  cases outcome with
  | ok value => exact .pure value
  | error stop => exact .throw (fails stop rfl)

theorem orFail_orderly {ε : Type} {convert : ε → Pipek1Error} {outcome : Except ε α} :
    StopsOnly (Orderly reason search) (orFail convert outcome) :=
  orStop_orderly (mapErr_failsOnly fun _ => trivial)

theorem orderly_compositional (reason search : Prop) :
    Compositional (Orderly reason search) (StopsOnly (Orderly reason search)) where
  failed _ := trivial
  pure := .pure
  throw := .throw
  bind := .bind
  record _ _ := trivial
  readStdin _ _ := .bind onStdin_orderly fun _ => orFail_orderly
  readAllStdin := .bind onStdin_orderly fun _ => orFail_orderly

/-! ## Commands with loops -/

section Loops

/-- Behind the session nothing else can happen. -/
theorem runEncrypt_orderly {rounds : Nat} {args : EncryptArgs}
    (session : FailsOnly (Orderly reason search) (encryptSession crates host rounds args)) :
    StopsOnly (Orderly reason search) (runEncrypt crates host rounds args) := by
  have rules := orderly_compositional reason search
  have fills : ∀ buf, StopsOnly (Orderly reason search) (fillBuffer buf) :=
    fun _ => .bind onStdin_orderly fun _ => .bind orFail_orderly fun _ => .pure _
  unfold runEncrypt
  refine rules.orStop_bind session fun session _ => .bind (rules.record _) fun _ =>
    .bind (fills _) fun _ => .bind (.loop (fun state => ?_) _) fun _ => ?_
  · unfold encryptStep
    refine .bind (fills _) fun _ => .bind (rules.record _) fun _ => ?_
    dsimp only
    split
    · exact rules.fail _
    · refine .bind (rules.record _) fun _ => .bind (rules.record _) fun _ =>
        .bind (rules.record _) fun _ => ?_
      split
      · exact rules.fail _
      · split
        · exact .pure _
        · exact .pure _
  · unfold writeTrailer
    split
    · exact .pure _
    · exact .bind orFail_orderly fun _ => .bind (rules.record _) fun _ => rules.record _

theorem readChunk_orderly : StopsOnly (Orderly reason search) readChunk := by
  have rules := orderly_compositional reason search
  refine .bind (rules.readStdin _ _) fun chunkHdr => ?_
  dsimp only
  split
  · exact rules.fail _
  · split
    · exact rules.fail _
    · split
      · exact rules.fail _
      · exact .bind (rules.readStdin _ _) fun _ => .bind (rules.readStdin _ _) fun _ => .pure _

theorem decryptStep_orderly {args : DecryptArgs} {header : StreamHeader} (state : DecryptState) :
    StopsOnly (Orderly reason search) (decryptStep crates args header state) := by
  have rules := orderly_compositional reason search
  refine .bind readChunk_orderly fun chunk => ?_
  dsimp only
  split
  · exact rules.fail _
  · refine .bind (rules.record _) fun _ => .bind ?_ fun _ => .pure _
    unfold deliverChunk
    split
    · exact .bind (rules.record _) fun _ => .pure _
    · split
      · exact .pure _
      · exact rules.fail _

theorem releaseToStdout_orderly {aead : Cipher} (spool : Spool) :
    StopsOnly (Orderly reason search) (spool.releaseToStdout aead) := by
  have rules := orderly_compositional reason search
  unfold Spool.releaseToStdout
  split
  · exact rules.record _
  · exact .bind (rules.record _) fun _ => rules.fail _

theorem runDecrypt_orderly {args : DecryptArgs}
    (given : some (-1) ∈ args.keyArgs.descriptors → reason) :
    StopsOnly (Orderly reason search) (runDecrypt crates host args) := by
  have rules := orderly_compositional reason search
  unfold runDecrypt
  refine rules.orStop_bind (loadSecretKey_failsOnly (fun _ => rules.failed _) fun bad _ => given bad)
    fun _ _ => .bind orFail_orderly fun _ => .bind (rules.readStdin _ _) fun _ =>
    .bind orFail_orderly fun header => .bind (.loop decryptStep_orderly _) fun state =>
    .bind ?_ fun _ => .bind ?_ fun _ => ?_
  · unfold trailerStage
    split
    · refine .bind (rules.readStdin _ _) fun _ => .bind orFail_orderly fun _ =>
        .bind orFail_orderly fun notice => .bind (rules.record _) fun _ => ?_
      split
      · exact rules.record _
      · exact .pure _
    · exact .pure _
  · refine .bind onStdin_orderly fun trailing => ?_
    split
    · exact rules.fail _
    · exact rules.record _
    · exact rules.fail _
  · split
    · exact .pure _
    · exact releaseToStdout_orderly _

theorem absorbStdin_orderly (begun : Option Spool) :
    StopsOnly (Orderly reason search) (absorbStdin crates begun) := by
  refine .loop (fun state => ?_) _
  refine .bind onStdin_orderly fun _ => .bind orFail_orderly fun bytes => ?_
  split
  · exact .pure _
  · exact .bind orFail_orderly fun _ => .pure _

/-- A key that is a key always signs. -/
theorem signStreamPayload_orderly (signs : crates.curve.SignsAndVerifies) {secret : FixedBytes 32}
    {key : crates.curve.SigningKey} (valid : crates.curve.signingKey secret = .ok key)
    (digest : FixedBytes 32) (now : UInt32) :
    FailsOnly (Orderly reason search) (signStreamPayload crates key digest now) := by
  obtain ⟨signature, signed⟩ := signs.signs secret key
    (taggedHash crates tagSign (tsAndDigest now digest).toList) valid
  rw [signStreamPayload, signed]
  exact .ok _

theorem signCommand_orderly (signs : crates.curve.SignsAndVerifies) {args : List String}
    (given : some (-1) ∈ (parseKeyIntakeArgs args).descriptors → reason) :
    StopsOnly (Orderly reason search) (signCommand crates host args) := by
  have rules := orderly_compositional reason search
  unfold signCommand
  refine rules.loadSigningKey_bind (fun bad _ => given bad) fun secret key valid =>
    .bind (absorbStdin_orderly _) fun _ => .bind (.bind orFail_orderly fun _ => .pure _) fun _ =>
    rules.orStop_bind (signStreamPayload_orderly signs valid _ _) fun _ _ => ?_
  split
  · exact rules.printArmored _ _
  · exact rules.record _

theorem verifyCommand_orderly (args : List String) :
    StopsOnly (Orderly reason search) (verifyCommand crates host args) := by
  have rules := orderly_compositional reason search
  unfold verifyCommand
  dsimp only
  split
  · exact rules.fail _
  · refine .bind orFail_orderly fun payload => ?_
    unfold verifyStdin
    refine .bind (absorbStdin_orderly _) fun absorbed => .bind orFail_orderly fun signerPk =>
      .bind ?_ fun _ => ?_
    · unfold checkSigner
      split
      · refine .bind orFail_orderly fun _ => ?_
        split
        · exact rules.fail _
        · exact .pure _
      · exact rules.record _
    · unfold releaseVerified
      split
      · exact releaseToStdout_orderly _
      · exact rules.record _

end Loops

/-! ## The program -/

/-- The descriptors an invocation takes secrets or entropy from, or reports on. -/
def namedDescriptors (exe command : String) (args : List String) : List (Option Int) :=
  if isGitInvocation exe command then [(scanShim {} (shimVector command args)).statusFd]
  else
    match command with
    | "encrypt" => (encryptOptions args).entropyFd :: (parseKeyIntakeArgs args).descriptors
    | "decrypt" | "sign" | "pubkey" => (parseKeyIntakeArgs args).descriptors
    | _ => []

/-- An encryption that mixes in entropy of the caller's. -/
def MixesEntropy (exe command : String) (args : List String) : Prop :=
  isGitInvocation exe command = false ∧ command = "encrypt" ∧
    (encryptOptions args).entropyFd.isSome = true

theorem runCommand_orderly (signs : crates.curve.SignsAndVerifies) {rounds : Nat}
    {exe command : String} {args : List String} :
    StopsOnly (Orderly (some (-1) ∈ namedDescriptors exe command args)
        (MixesEntropy exe command args)) (runCommand crates host rounds exe command args) := by
  have rules := orderly_compositional (some (-1) ∈ namedDescriptors exe command args)
    (MixesEntropy exe command args)
  unfold runCommand
  by_cases git : isGitInvocation exe command = true
  · rw [if_pos git]
    refine rules.runGitShim (fun bad _ => ?_) fun _ _ digest now valid =>
      signStreamPayload_orderly signs valid digest now
    have named : namedDescriptors exe command args =
        [(scanShim {} (shimVector command args)).statusFd] := if_pos git
    change some (-1) ∈ namedDescriptors exe command args
    rw [named]
    exact List.mem_singleton.mpr bad.symm
  · rw [if_neg git]
    have named : namedDescriptors exe command args = _ := if_neg git
    unfold dispatchCommand
    split
    case h_1 =>
      refine .bind orFail_orderly fun recip => runEncrypt_orderly
        (encryptSession_failsOnly (fun _ => trivial) ?_ (ephPrivBytes_failsOnly (fun _ => trivial)
          ?_ fun mixing => ⟨Bool.eq_false_of_not_eq_true git, rfl, mixing⟩))
      · intro bad _
        change some (-1) ∈ namedDescriptors exe "encrypt" args
        rw [named]
        exact List.mem_cons_of_mem _ bad
      · intro bad _
        change some (-1) ∈ namedDescriptors exe "encrypt" args
        rw [named]
        exact List.mem_cons.mpr (.inl bad.symm)
    case h_2 => exact runDecrypt_orderly fun bad => named ▸ bad
    case h_3 => exact rules.pubkeyCommand fun bad _ => named ▸ bad
    case h_4 => exact signCommand_orderly signs fun bad => named ▸ bad
    case h_5 => exact verifyCommand_orderly args
    case h_6 => exact rules.hashCommand args
    case h_7 => exact rules.inspectHeaderCommand
    case h_8 => exact rules.inspectChunkCommand
    case h_9 => exact .bind rules.printUsage fun _ => rules.fail _

/-- Whatever the environment, the disk and standard input do and whatever the arguments are, which
are Unicode by the time the program sees them, a run ends with exit code 0, 1 or 2; it aborts only
over a descriptor of -1, and only a search for an ephemeral key from entropy of the caller's has no
bound. -/
theorem realMain_exit_contract (crates : Crates) (signs : crates.curve.SignsAndVerifies)
    (host : Host) (rounds : Nat) (exe command : String) (args : List String) (stdin : Reader) :
    (∃ code ≤ 2, (realMain crates host rounds (exe :: command :: args) stdin).1 = some code) ∨
    ((realMain crates host rounds (exe :: command :: args) stdin).1 = some 134 ∧
      some (-1) ∈ namedDescriptors exe command args) ∨
    ((realMain crates host rounds (exe :: command :: args) stdin).1 = none ∧
      MixesEntropy exe command args) := by
  have orderly := @runCommand_orderly crates host signs rounds exe command args (Process.start stdin)
  simp only [realMain]
  cases ran : runCommand crates host rounds exe command args (Process.start stdin) with
  | ok _ final => exact .inl ⟨0, Nat.zero_le 2, rfl⟩
  | error stop final =>
      have known := orderly.error ran
      cases stop with
      | failed error =>
          refine .inl ⟨error.exitCode, ?_, rfl⟩
          cases error <;> simp [Pipek1Error.exitCode]
      | panicked message => exact .inr (.inl ⟨rfl, known⟩)
      | unfinished => exact .inr (.inr ⟨rfl, known⟩)

open Reference in
/-- A signing run whose input fails ends with a code; one that takes its key from descriptor -1
aborts. -/
theorem realMain_exit_contract_sample :
    (∃ code ≤ 2, (realMain packages (keyHost sampleSender sampleEphemeral) 0
      ["pipe-k1", "sign", "--armor"] [.ready sampleData, .failed ⟨.other, "broken pipe"⟩]).1 =
        some code) ∧
    (realMain packages (keyHost sampleSender sampleEphemeral) 0
      ["pipe-k1", "sign", "--sec-fd", "-1"] (ofBytes sampleData)).1 = some 134 := by
  constructor
  · refine (realMain_exit_contract packages signs (keyHost sampleSender sampleEphemeral) 0
      "pipe-k1" "sign" ["--armor"] _).resolve_right ?_
    rintro (⟨_, named⟩ | ⟨_, mixing⟩)
    · exact absurd named (by decide)
    · exact absurd mixing.2.1 (by decide)
  · decide +kernel

end PipeK1
