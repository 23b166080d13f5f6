import PipeK1.Cli
import PipeK1.RecipientKeys
import PipeK1.SenderAnonymity
import PipeK1.SignatureContract
import PipeK1.TrustContract

/-!
# What a run takes from its surroundings

Two hosts that agree on what a command line makes the program look at give the
same run. Key sources come in an order, and behind the first one that is there
no other counts. The trust files have no part in a verdict.
-/

set_option autoImplicit false

namespace PipeK1

open ByteData ByteReader Effects

variable {crates : Crates} {host host' : Host} {rounds : Nat}

/-! ## Key sources -/

/-- The passphrase has one source on both hosts. -/
def SamePassphrase (host host' : Host) (args : KeyIntakeArgs) : Prop :=
  match args.passphraseFd with
  | some fd => host.descriptor fd = host'.descriptor fd
  | none => envVarOr host "PIPE_K1_PASSPHRASE" "PIPEK1_PASSPHRASE" =
      envVarOr host' "PIPE_K1_PASSPHRASE" "PIPEK1_PASSPHRASE"

/-- The git key file is the same on both hosts. -/
structure SameGitKey (host host' : Host) : Prop where
  home : host.envVar "HOME" = host'.envVar "HOME"
  path : ∀ home, host.envVar "HOME" = some home → gitKeyPath host home = gitKeyPath host' home
  contents : ∀ home path, host.envVar "HOME" = some home → gitKeyPath host home = some path →
    host.fileContents path = host'.fileContents path

/-- The first key source that is there is the same on both hosts; nothing is said of the others. -/
inductive SameKeySource (host host' : Host) (args : KeyIntakeArgs) : Prop where
  | secFd {fd : Int} : args.secFd = some fd →
      host.descriptor fd = host'.descriptor fd → SameKeySource host host' args
  | secFile {path : String} : args.secFd = none → args.secFile = some path →
      host.fileContents (PathBuf.parse path) = host'.fileContents (PathBuf.parse path) →
      SameKeySource host host' args
  | mnemonicFd {fd : Int} : args.secFd = none → args.secFile = none →
      args.mnemonicFd = some fd → host.descriptor fd = host'.descriptor fd →
      SamePassphrase host host' args → SameKeySource host host' args
  | mnemonic {text : String} : args.secFd = none → args.secFile = none →
      args.mnemonicFd = none →
      envVarOr host "PIPE_K1_MNEMONIC" "PIPEK1_MNEMONIC" = some text →
      envVarOr host' "PIPE_K1_MNEMONIC" "PIPEK1_MNEMONIC" = some text →
      SamePassphrase host host' args → SameKeySource host host' args
  | secKey {text : String} : args.secFd = none → args.secFile = none →
      args.mnemonicFd = none →
      envVarOr host "PIPE_K1_MNEMONIC" "PIPEK1_MNEMONIC" = none →
      envVarOr host' "PIPE_K1_MNEMONIC" "PIPEK1_MNEMONIC" = none →
      envVarOr host "PIPE_K1_SEC_KEY" "PIPEK1_SEC_KEY" = some text →
      envVarOr host' "PIPE_K1_SEC_KEY" "PIPEK1_SEC_KEY" = some text →
      SameKeySource host host' args
  | gitKey : args.secFd = none → args.secFile = none → args.mnemonicFd = none →
      envVarOr host "PIPE_K1_MNEMONIC" "PIPEK1_MNEMONIC" = none →
      envVarOr host' "PIPE_K1_MNEMONIC" "PIPEK1_MNEMONIC" = none →
      envVarOr host "PIPE_K1_SEC_KEY" "PIPEK1_SEC_KEY" = none →
      envVarOr host' "PIPE_K1_SEC_KEY" "PIPEK1_SEC_KEY" = none →
      SameGitKey host host' → SameKeySource host host' args

theorem SamePassphrase.input_eq {args : KeyIntakeArgs} (same : SamePassphrase host host' args) :
    passphraseInput host args = passphraseInput host' args := by
  unfold SamePassphrase at same
  unfold passphraseInput
  cases given : args.passphraseFd with
  | some fd =>
      simp only [given] at same
      simp only [readSecretFd, fromRawFd, same]
  | none =>
      simp only [given] at same
      simp only [same]

theorem SameGitKey.fallback_eq (same : SameGitKey host host') :
    gitFallbackKey crates host = gitFallbackKey crates host' := by
  unfold gitFallbackKey
  rw [← same.home]
  cases home : host.envVar "HOME" with
  | none => rfl
  | some text =>
      simp only [Option.bind_eq_bind, Option.bind_some]
      rw [← same.path text home]
      cases found : gitKeyPath host text with
      | none => rfl
      | some path =>
          simp only [Option.bind_some]
          rw [same.contents text path home found]

theorem SameKeySource.loadSecretKey_eq {args : KeyIntakeArgs}
    (same : SameKeySource host host' args) :
    loadSecretKey crates host args = loadSecretKey crates host' args := by
  unfold loadSecretKey
  cases same with
  | secFd given source => simp only [given, readSecretFd, fromRawFd, source]
  | secFile noFd given source => simp only [noFd, given, source]
  | @mnemonicFd fd noFd noFile given source passphrase =>
      have read : readSecretFd host "--mnemonic-fd" fd = readSecretFd host' "--mnemonic-fd" fd := by
        simp only [readSecretFd, fromRawFd, source]
      simp only [noFd, noFile, mnemonicInput, given, read, passphrase.input_eq]
      cases readSecretFd host' "--mnemonic-fd" fd with
      | error stop => rfl
      | ok text => rfl
  | mnemonic noFd noFile noSeed source source' passphrase =>
      simp only [noFd, noFile, mnemonicInput, noSeed, source, source', passphrase.input_eq]
      rfl
  | secKey noFd noFile noSeed noMnemonic noMnemonic' source source' =>
      simp only [noFd, noFile, mnemonicInput, noSeed, noMnemonic, noMnemonic', source, source']
      rfl
  | gitKey noFd noFile noSeed noMnemonic noMnemonic' noKey noKey' source =>
      simp only [noFd, noFile, mnemonicInput, noSeed, noMnemonic, noMnemonic', noKey, noKey',
        source.fallback_eq]
      rfl

/-! ## Commands -/

/-- What a command, with these arguments, looks at is the same on both hosts. -/
inductive Consults (host host' : Host) (args : List String) : String → Prop where
  | encrypt : SameRandomness host host' (encryptOptions args).entropyFd →
      ((encryptOptions args).mode = 0x01 →
        SameKeySource host host' (parseKeyIntakeArgs args)) →
      Consults host host' args "encrypt"
  | decrypt : SameKeySource host host' (parseKeyIntakeArgs args) → SameSpool host host' →
      Consults host host' args "decrypt"
  | pubkey : SameKeySource host host' (parseKeyIntakeArgs args) →
      Consults host host' args "pubkey"
  | sign : SameKeySource host host' (parseKeyIntakeArgs args) →
      host.unixTime = host'.unixTime → Consults host host' args "sign"
  | verify : (∀ path, (verifyOptions args).sigPath = some path →
        host.fileContents (PathBuf.parse path) = host'.fileContents (PathBuf.parse path)) →
      ((verifyOptions args).passThrough = true → SameSpool host host') →
      Consults host host' args "verify"
  | other {command : String} : command ∉ ["encrypt", "decrypt", "pubkey", "sign", "verify"] →
      Consults host host' args command

theorem encryptSession_surroundings {args : EncryptArgs}
    (random : SameRandomness host host' args.entropyFd)
    (keySource : args.mode = 0x01 → SameKeySource host host' args.keyArgs) :
    encryptSession crates host rounds args = encryptSession crates host' rounds args := by
  have sender : senderSigningKey crates host args.mode args.keyArgs =
      senderSigningKey crates host' args.mode args.keyArgs := by
    unfold senderSigningKey
    by_cases one : args.mode = 0x01
    · rw [if_pos one, if_pos one, (keySource one).loadSecretKey_eq]
    · rw [if_neg one, if_neg one]
  unfold encryptSession
  rw [random.ephPrivBytes_eq, random.salt, sender]

theorem runEncrypt_surroundings {args : EncryptArgs}
    (random : SameRandomness host host' args.entropyFd)
    (keySource : args.mode = 0x01 → SameKeySource host host' args.keyArgs) :
    runEncrypt crates host rounds args = runEncrypt crates host' rounds args := by
  unfold runEncrypt writeTrailer
  simp only [encryptSession_surroundings random keySource, EncryptSession.header,
    EncryptSession.hmac16, random.salt]

theorem runDecrypt_surroundings {args : DecryptArgs}
    (keySource : SameKeySource host host' args.keyArgs)
    (spool : SameSpool host host') :
    runDecrypt crates host args = runDecrypt crates host' args := by
  unfold runDecrypt
  rw [keySource.loadSecretKey_eq, spool.start_eq]

theorem verifyCommand_surroundings {args : List String}
    (signature : ∀ path, (verifyOptions args).sigPath = some path →
      host.fileContents (PathBuf.parse path) = host'.fileContents (PathBuf.parse path))
    (spool : (verifyOptions args).passThrough = true → SameSpool host host') :
    verifyCommand crates host args = verifyCommand crates host' args := by
  have loads : loadSignature crates host (verifyOptions args) =
      loadSignature crates host' (verifyOptions args) := by
    unfold loadSignature
    cases given : (verifyOptions args).sigPath with
    | none => rfl
    | some path =>
        change (host.fileContents (PathBuf.parse path)).mapError _ >>= _ =
          (host'.fileContents (PathBuf.parse path)).mapError _ >>= _
        rw [signature path given]
  have verifies : verifyStdin crates host (verifyOptions args) =
      verifyStdin crates host' (verifyOptions args) := by
    unfold verifyStdin
    cases through : (verifyOptions args).passThrough with
    | false => rfl
    | true => rw [(spool through).start_eq]
  unfold verifyCommand
  simp only [loads, verifies]

theorem Consults.dispatchCommand_eq {command : String} {args : List String}
    (same : Consults host host' args command) :
    dispatchCommand crates host rounds command args =
      dispatchCommand crates host' rounds command args := by
  cases same with
  | encrypt random keySource =>
      simp only [dispatchCommand, encryptCommand]
      refine congrArg _ (funext fun recip => ?_)
      exact runEncrypt_surroundings random keySource
  | decrypt keySource spool => exact runDecrypt_surroundings keySource spool
  | pubkey keySource =>
      simp only [dispatchCommand, pubkeyCommand, loadSigningKey, keySource.loadSecretKey_eq]
  | sign keySource clock =>
      simp only [dispatchCommand, signCommand, loadSigningKey, keySource.loadSecretKey_eq,
        currentTimestamp, clock]
  | verify signature spool => exact verifyCommand_surroundings signature spool
  | other unknown =>
      simp only [List.mem_cons, List.not_mem_nil, or_false, not_or] at unknown
      obtain ⟨encrypt, decrypt, pubkey, sign, verify⟩ := unknown
      unfold dispatchCommand
      split
      · exact absurd rfl encrypt
      · exact absurd rfl decrypt
      · exact absurd rfl pubkey
      · exact absurd rfl sign
      · exact absurd rfl verify
      · rfl
      · rfl
      · rfl
      · rfl

/-! ## The shim -/

/-- The signed data is the same on both hosts. -/
def SameData (host host' : Host) (parsed : ShimArgs) : Prop :=
  ∀ path, parsed.verifyDataPath = some path → path ≠ "-" →
    host.fileContents (PathBuf.parse path) = host'.fileContents (PathBuf.parse path)

theorem SameData.readData_eq {parsed : ShimArgs} (same : SameData host host' parsed) :
    readData host (parsed.verifyDataPath.getD "-") =
      readData host' (parsed.verifyDataPath.getD "-") := by
  unfold readData
  cases given : parsed.verifyDataPath with
  | none => rfl
  | some path =>
      by_cases dash : path = "-"
      · rw [Option.getD_some, if_pos dash, if_pos dash]
      · rw [Option.getD_some, if_neg dash, if_neg dash, same path given dash]

/-- What the shim looks at, the trust files apart, is the same on both hosts. -/
inductive ShimConsults (host host' : Host) (parsed : ShimArgs) : Prop where
  | verify : parsed.isVerify = true →
      (∀ path, parsed.verifySigPath = some path →
        host.fileContents (PathBuf.parse path) = host'.fileContents (PathBuf.parse path)) →
      SameData host host' parsed → ShimConsults host host' parsed
  | sign : parsed.isVerify = false → SameKeySource host host' {} →
      host.unixTime = host'.unixTime → ShimConsults host host' parsed

/-! ### Reports on a good signature -/

/-- Two ends of a run on the two hosts: the same one, or two successes that end with the report on
one good signature, with the name and the level that each host's trust files give the signer. -/
inductive SameButStanding (crates : Crates) (host host' : Host) (statusFd : Option Int) :
    EStateM.Result Stop Process Unit → EStateM.Result Stop Process Unit → Prop where
  | same {result} : SameButStanding crates host host' statusFd result result
  | reports (process : Process) (signer : FixedBytes 32) (timestamp : UInt32) :
      SameButStanding crates host host' statusFd
        (.ok () ⟨process.stdin,
          process.events ++ goodEvents crates host statusFd signer timestamp⟩)
        (.ok () ⟨process.stdin,
          process.events ++ goodEvents crates host' statusFd signer timestamp⟩)

theorem SameButStanding.bind {statusFd : Option Int} {α : Type} {first : Run α}
    {next next' : α → Run Unit} (later : ∀ value process,
      SameButStanding crates host host' statusFd (next value process) (next' value process))
    (process : Process) : SameButStanding crates host host' statusFd ((first >>= next) process)
      ((first >>= next') process) := by
  cases ran : first process with
  | ok value after =>
      rw [bind_of_ok ran, bind_of_ok ran]
      exact later value after
  | error stop after =>
      rw [bind_of_error ran, bind_of_error ran]
      exact .same

theorem reportGood_sameButStanding (statusFd : Option Int) (payload : SignaturePayload)
    (signerPk : FixedBytes 32) (process : Process) :
    SameButStanding crates host host' statusFd
      (reportGood crates host statusFd payload signerPk process)
      (reportGood crates host' statusFd payload signerPk process) := by
  by_cases closed : statusFd = some (-1)
  · -- Both stop at the first line.
    rw [closed]
    exact .same
  · rw [reportGood_ok closed rfl, reportGood_ok closed rfl]
    exact .reports process signerPk _

theorem checkPayload_sameButStanding {parsed : ShimArgs} (data : SameData host host' parsed)
    (sigBytes : Bytes) (process : Process) :
    SameButStanding crates host host' parsed.statusFd
      (checkPayload crates host parsed sigBytes process)
      (checkPayload crates host' parsed sigBytes process) := by
  unfold checkPayload
  cases FixedBytes.ofList? signaturePayloadSize sigBytes with
  | none => exact .same
  | some payload =>
      dsimp only
      rw [data.readData_eq]
      refine SameButStanding.bind (fun dataBytes after => ?_) process
      cases verifyStreamPayload crates payload (crates.digests.sha256 dataBytes) with
      | ok signerPk => exact reportGood_sameButStanding _ _ _ _
      | error e => exact .same

section Shim

variable {args : List String} (same : ShimConsults host host' (scanShim {} args))
include same

/-- Signing reads no trust file. -/
theorem ShimConsults.runGitShim_eq_of_sign (signs : (scanShim {} args).isVerify = false) :
    runGitShim crates host args = runGitShim crates host' args := by
  unfold runGitShim
  simp only [signs, Bool.false_eq_true, ↓reduceIte]
  cases same with
  | verify verifies _ _ =>
      rw [signs] at verifies
      cases verifies
  | sign _ keySource clock =>
      unfold shimSign
      rw [keySource.loadSecretKey_eq]
      simp only [currentTimestamp, clock]

theorem ShimConsults.runGitShim_sameButStanding (process : Process) :
    SameButStanding crates host host' (scanShim {} args).statusFd
      (runGitShim crates host args process) (runGitShim crates host' args process) := by
  cases verifying : (scanShim {} args).isVerify with
  | false =>
      rw [same.runGitShim_eq_of_sign verifying]
      exact .same
  | true =>
      cases same with
      | sign signs _ _ =>
          rw [verifying] at signs
          cases signs
      | verify _ signature data =>
          unfold runGitShim
          simp only [verifying, ↓reduceIte]
          unfold shimVerify
          cases given : (scanShim {} args).verifySigPath with
          | none => exact .same
          | some path =>
              dsimp only
              rw [signature path given]
              exact SameButStanding.bind (fun sigRaw => SameButStanding.bind fun sigBytes =>
                checkPayload_sameButStanding data sigBytes) process

end Shim

namespace SameButStanding

variable {statusFd : Option Int} {left right : EStateM.Result Stop Process Unit}
  (same : SameButStanding crates host host' statusFd left right)
include same

theorem exitStatus_eq : exitStatus left = exitStatus right := by
  cases same with
  | same => rfl
  | reports => rfl

theorem stdin_eq : (reported left).stdin = (reported right).stdin := by
  cases same with
  | same => rfl
  | reports => rfl

/-- With the same trusted signers the reports are the same too. -/
theorem eq_of_trust (trust : exitStatus left = some 0 →
    resolveAllowedSigners crates host = resolveAllowedSigners crates host') : left = right := by
  cases same with
  | same => rfl
  | reports => simp only [goodEvents, trust rfl]

end SameButStanding

/-! ## The program -/

/-- What this command line makes the program look at, the trust files apart, is the same on both
hosts. -/
def SameSurroundings (host host' : Host) (exe command : String) (args : List String) : Prop :=
  if isGitInvocation exe command then
    ShimConsults host host' (scanShim {} (shimVector command args))
  else
    Consults host host' args command

/-- Both runs have found a signature good, and all in which they differ is the name and the level
of trust that the report at their end, by each host's trust files, gives its signer. -/
def DifferInStanding (crates : Crates) (host host' : Host) (parsed : ShimArgs)
    (left right : Option Nat × Process) : Prop :=
  parsed.isVerify = true ∧ ∃ (process : Process) (signer : FixedBytes 32) (timestamp : UInt32),
    left = (some 0, ⟨process.stdin,
      process.events ++ goodEvents crates host parsed.statusFd signer timestamp⟩) ∧
    right = (some 0, ⟨process.stdin,
      process.events ++ goodEvents crates host' parsed.statusFd signer timestamp⟩)

/-- What the program takes from its surroundings: the status and what is left of standard input
are decided by what the command line makes it look at, and so is the rest of the run, but for the
name and the trust level that the trust files give a good signature. -/
theorem realMain_consults (crates : Crates) (host host' : Host) (rounds : Nat)
    (exe command : String) (args : List String) (stdin : Reader)
    (same : SameSurroundings host host' exe command args) :
    (realMain crates host rounds (exe :: command :: args) stdin).1 =
      (realMain crates host' rounds (exe :: command :: args) stdin).1 ∧
    (realMain crates host rounds (exe :: command :: args) stdin).2.stdin =
      (realMain crates host' rounds (exe :: command :: args) stdin).2.stdin ∧
    (realMain crates host rounds (exe :: command :: args) stdin =
        realMain crates host' rounds (exe :: command :: args) stdin ∨
      isGitInvocation exe command = true ∧
        DifferInStanding crates host host' (scanShim {} (shimVector command args))
          (realMain crates host rounds (exe :: command :: args) stdin)
          (realMain crates host' rounds (exe :: command :: args) stdin)) ∧
    ((isGitInvocation exe command = true →
        (realMain crates host rounds (exe :: command :: args) stdin).1 = some 0 →
        resolveAllowedSigners crates host = resolveAllowedSigners crates host') →
      realMain crates host rounds (exe :: command :: args) stdin =
        realMain crates host' rounds (exe :: command :: args) stdin) := by
  unfold SameSurroundings at same
  simp only [realMain, runCommand]
  cases git : isGitInvocation exe command with
  | false =>
      simp only [git, Bool.false_eq_true, ↓reduceIte] at same ⊢
      rw [same.dispatchCommand_eq]
      exact ⟨rfl, rfl, .inl rfl, fun _ => rfl⟩
  | true =>
      have shim : (if command = "git-shim" then args else command :: args) =
          shimVector command args := rfl
      simp only [git, ↓reduceIte, shim] at same ⊢
      have ends := @ShimConsults.runGitShim_sameButStanding crates _ _ _ same (Process.start stdin)
      refine ⟨ends.exitStatus_eq, ends.stdin_eq, ?_, fun trust => ?_⟩
      · cases verifying : (scanShim {} (shimVector command args)).isVerify with
        | false => exact .inl (by rw [same.runGitShim_eq_of_sign verifying])
        | true =>
            generalize runGitShim crates host (shimVector command args) (Process.start stdin) = left
              at ends ⊢
            generalize runGitShim crates host' (shimVector command args) (Process.start stdin) = right
              at ends ⊢
            cases ends with
            | same => exact .inl rfl
            | reports process signer timestamp =>
                exact .inr ⟨trivial, verifying, process, signer, timestamp, rfl, rfl⟩
      · rw [ends.eq_of_trust (trust trivial)]

open Reference in
/-- The sender's host without its variables and files. -/
def bareHost : Host :=
  { keyHost sampleSender sampleEphemeral with
    envVar := fun _ => none
    fileContents := fun _ => .error ⟨.other, "No such file or directory"⟩ }

open Reference in
/-- Where the key comes from a descriptor, no variable and no file counts. The shim signs without a
look at a file, and its verdict is the same whatever the trust files say. -/
theorem realMain_consults_sample :
    realMain packages (keyHost sampleSender sampleEphemeral) 0
        ["pipe-k1", "sign", "--sec-fd", "5"] (ofBytes sampleData) =
      realMain packages bareHost 0 ["pipe-k1", "sign", "--sec-fd", "5"] (ofBytes sampleData) ∧
    realMain packages (keyHost sampleSender sampleEphemeral) 0
        ("git" :: "git-shim" :: signingArgs (publicHex sampleSender)) (ofBytes sampleData) =
      realMain packages (signatureHost (Text.utf8 sampleTrustText)) 0
        ("git" :: "git-shim" :: signingArgs (publicHex sampleSender)) (ofBytes sampleData) ∧
    ∀ sigRaw,
      (realMain packages (trustingHost sigRaw sampleTrustText) 0
        ("git" :: "git-shim" :: sampleShimArgs) (ofBytes sampleData)).1 =
      (realMain packages (trustingHost sigRaw "") 0 ("git" :: "git-shim" :: sampleShimArgs)
        (ofBytes sampleData)).1 := by
  refine ⟨?_, ?_, fun sigRaw => ?_⟩
  · have given : (parseKeyIntakeArgs ["--sec-fd", "5"]).secFd = some 5 := rfl
    have direct : isGitInvocation "pipe-k1" "sign" = false := by decide
    have same : SameSurroundings (keyHost sampleSender sampleEphemeral) bareHost "pipe-k1" "sign"
        ["--sec-fd", "5"] := by
      rw [SameSurroundings, direct]
      exact .sign (.secFd given rfl) rfl
    refine (realMain_consults packages _ bareHost 0 "pipe-k1" "sign" ["--sec-fd", "5"]
      (ofBytes sampleData) same).2.2.2 fun git => ?_
    rw [direct] at git
    cases git
  · have git : isGitInvocation "git" "git-shim" = true := by decide
    have signs : (scanShim {} (signingArgs (publicHex sampleSender))).isVerify = false := by
      rw [scanShim_signingArgs]
    have same : SameSurroundings (keyHost sampleSender sampleEphemeral)
        (signatureHost (Text.utf8 sampleTrustText)) "git" "git-shim"
        (signingArgs (publicHex sampleSender)) := by
      rw [SameSurroundings, git]
      exact .sign signs (.secKey rfl rfl rfl rfl rfl rfl rfl) rfl
    refine (realMain_consults packages _ _ 0 "git" "git-shim" _ (ofBytes sampleData)
      same).2.2.1.resolve_right fun differ => ?_
    exact Bool.false_ne_true (signs.symm.trans differ.2.1)
  · have same : SameSurroundings (trustingHost sigRaw sampleTrustText) (trustingHost sigRaw "")
        "git" "git-shim" sampleShimArgs := by
      have git : isGitInvocation "git" "git-shim" = true := by decide
      rw [SameSurroundings, git]
      refine .verify (by decide) ?_ ?_
      · intro path given
        have named : path = "commit.sig" := Option.some.inj (given.symm.trans (by decide))
        rw [named]
        rfl
      · intro path given other
        exact absurd (Option.some.inj (given.symm.trans (by decide))) other
    exact (realMain_consults packages _ _ 0 "git" "git-shim" sampleShimArgs (ofBytes sampleData)
      same).1

end PipeK1
