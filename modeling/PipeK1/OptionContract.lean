import PipeK1.EncryptContract
import PipeK1.MaxSizeContract
import PipeK1.ModeContract

/-!
# Options without a usable value

An option whose value is missing or does not parse is passed over, and the
command goes on with what is left: another source of the key, the default mode,
the system's entropy alone. When this ends in a usage error all the same.
-/

set_option autoImplicit false

namespace PipeK1

open ByteData ByteReader Effects Arguments

variable {crates : Crates}

/-! ## Options -/

/-- The value is of the option's type. -/
def optionParses (token value : String) : Bool :=
  if token = "--mode" then (Text.parseU8 value.toList).any fun mode => SupportedMode mode
  else if token ∈ ["--sec-fd", "--mnemonic-fd", "--passphrase-fd", "--entropy-fd"] then
    (Text.parseI32 value.toList).isSome
  else if token ∈ ["--bip85-identity", "--bip85-index"] then
    (Text.parseU32 value.toList).isSome
  else true

/-- One of these options stands in option position with a value missing or of no use. -/
def Malformed (tokens : List String) (scanned : List Item) : Prop :=
  ∃ item ∈ scanned, item.token ∈ tokens ∧
    ∀ value, item.value = some value → optionParses item.token value = false

def MalformedOption (command : String) (args : List String) : Prop :=
  Malformed ["--sec-fd", "--sec-file", "--mnemonic-fd", "--passphrase-fd", "--bip85-identity",
      "--bip85-index"] (items keyIntakeTakesValue args) ∨
    command = "encrypt" ∧ Malformed ["--mode", "--entropy-fd"] (items encryptTakesValue args)

/-! ## What is left of them -/

/-- The value an option ends up with, if its last one parses. -/
def remainingValue {α : Type} (parse : List Char → Option α) (token : String)
    (scanned : List Item) : Option α :=
  (lastValue token scanned).bind fun value => parse value.toList

def remainingKeyArgs (scanned : List Item) : KeyIntakeArgs where
  secFd := remainingValue Text.parseI32 "--sec-fd" scanned
  secFile := lastValue "--sec-file" scanned
  mnemonicFd := remainingValue Text.parseI32 "--mnemonic-fd" scanned
  passphraseFd := remainingValue Text.parseI32 "--passphrase-fd" scanned
  bip85Identity := remainingValue Text.parseU32 "--bip85-identity" scanned
  bip85Index := remainingValue Text.parseU32 "--bip85-index" scanned

def remainingOptions (scanned : List Item) : EncryptOptions where
  recipient := lastValue "--recipient" scanned
  mode := (remainingValue Text.parseU8 "--mode" scanned).getD 0x02
  entropyFd := remainingValue Text.parseI32 "--entropy-fd" scanned

def remainingEncryptArgs (args : List String) (recip : String) : EncryptArgs :=
  let options := remainingOptions (items encryptTakesValue args)
  ⟨recip, options.mode, remainingKeyArgs (items keyIntakeTakesValue args), options.entropyFd⟩

theorem remainingValue_concat {α : Type} (parse : List Char → Option α) (token : String)
    (scanned : List Item) (item : Item) :
    remainingValue parse token (scanned ++ [item]) =
      if item.token = token then
        match item.value with
        | some value => parse value.toList
        | none => remainingValue parse token scanned
      else remainingValue parse token scanned := by
  rw [remainingValue, lastValue_concat]
  by_cases named : item.token = token
  · rw [if_pos named, if_pos named]
    cases item.value <;> rfl
  · rw [if_neg named, if_neg named]
    rfl

theorem foldl_keyIntakeItem (scanned : List Item) :
    scanned.foldl keyIntakeItem {} = remainingKeyArgs scanned := by
  induction scanned using List.reverseRecOn with
  | nil => rfl
  | append_singleton scanned item ih =>
      rw [List.foldl_append, List.foldl_cons, List.foldl_nil, ih]
      obtain ⟨token, value⟩ := item
      simp only [remainingKeyArgs, remainingValue_concat, lastValue_concat, keyIntakeItem]
      cases value with
      | none => simp
      | some value => split_ifs <;> simp_all

theorem foldl_encryptItem (scanned : List Item) :
    scanned.foldl encryptItem {} = remainingOptions scanned := by
  induction scanned using List.reverseRecOn with
  | nil => rfl
  | append_singleton scanned item ih =>
      rw [List.foldl_append, List.foldl_cons, List.foldl_nil, ih]
      obtain ⟨token, value⟩ := item
      simp only [remainingOptions, remainingValue_concat, lastValue_concat, encryptItem]
      cases value with
      | none => simp
      | some value => split_ifs <;> simp_all

/-! ## Refused setups -/

/-- What makes `run_encrypt` refuse to start, said of the recipient, the entropy, the sender's key
sources and the agreement. -/
inductive EncryptRefused (crates : Crates) (host : Host) (rounds : Nat) (args : EncryptArgs) : Prop
  | recipient {message : String} (unparsed : parseKeyBytes crates args.recipientHex = .error message)
  | entropy {fd : Int} (given : args.entropyFd = some fd) (descriptor : fd ≠ -1)
      (none : NoEntropy host fd)
  | ephemeral {message : String} (system : args.entropyFd = none)
      (invalid : crates.curve.signingKey host.osEntropy = .error message)
  | sender {ephPriv : FixedBytes 32} (drawn : Drawn crates host rounds args.entropyFd ephPriv)
      (one : args.mode = 0x01) (none : NoUsableKey crates host args.keyArgs)
  | agreement {recipX ephPriv : FixedBytes 32} {message : String}
      (parsed : parseKeyBytes crates args.recipientHex = .ok recipX)
      (drawn : Drawn crates host rounds args.entropyFd ephPriv)
      (loads : args.mode = 0x01 → ∃ secret, loadSecretKey crates host args.keyArgs = .ok secret)
      (failed : ecdhSharedX crates ephPriv recipX = .error message ∨
        ∃ ikm, ecdhSharedX crates ephPriv recipX = .ok ikm ∧
          deriveKeys crates ikm host.salt = .error message)

section Setup

variable {host : Host} {rounds : Nat}

theorem exitCode_of_loadSecretKey {keyArgs : KeyIntakeArgs} {error : Pipek1Error}
    (failed : loadSecretKey crates host keyArgs = .error (.failed error)) : error.exitCode = 2 := by
  have only : FailsOnly (SetupStop True) (loadSecretKey crates host keyArgs) :=
    loadSecretKey_failsOnly .usage fun _ message => .aborted message trivial
  cases only _ failed with
  | usage message => rfl

theorem exitCode_of_encryptSession {args : EncryptArgs} {error : Pipek1Error}
    (failed : encryptSession crates host rounds args = .error (.failed error)) :
    error.exitCode = 2 := by
  cases encryptSession_stops _ failed with
  | usage message => rfl

theorem senderSigningKey_refuses_iff {mode : UInt8} {keyArgs : KeyIntakeArgs} :
    Stop.Refuses (senderSigningKey crates host mode keyArgs) ↔
      mode = 0x01 ∧ NoUsableKey crates host keyArgs := by
  rw [← keyRefusedOn_iff]
  unfold senderSigningKey KeyRefusedOn
  by_cases one : mode = 0x01
  · simp only [one, ↓reduceIte, true_and]
    cases loadSecretKey crates host keyArgs with
    | error stop =>
        cases stop with
        | failed error => exact iff_of_true ⟨_, rfl⟩ (.failed error)
        | panicked message =>
            exact iff_of_false (Stop.not_refuses_panicked _) (not_unusable_panicked message)
        | unfinished =>
            refine iff_of_false ?_ not_unusable_unfinished
            rintro ⟨error, impossible⟩
            cases impossible
    | ok secret =>
        rw [unusable_ok_iff, Stop.refuses_bind_iff, Stop.refuses_mapErr_iff]
        refine or_iff_left ?_
        rintro ⟨key, _, impossible⟩
        exact Stop.not_refuses_ok _ impossible
  · simp only [one, ↓reduceIte, false_and]
    exact iff_of_false (Stop.not_refuses_ok _) id

theorem loads_of_signing {mode : UInt8} {keyArgs : KeyIntakeArgs}
    {sender : Option crates.curve.SigningKey}
    (signing : senderSigningKey crates host mode keyArgs = .ok sender) :
    mode = 0x01 → ∃ secret, loadSecretKey crates host keyArgs = .ok secret := by
  intro one
  rcases senderSigningKey_eq_ok signing with ⟨other, _⟩ | ⟨_, secret, _, loaded, _⟩
  · exact absurd one other
  · exact ⟨secret, loaded⟩

/-- A sender whose key loads signs, or is refused for it. -/
theorem signing_of_loads {mode : UInt8} {keyArgs : KeyIntakeArgs}
    (loads : mode = 0x01 → ∃ secret, loadSecretKey crates host keyArgs = .ok secret) :
    Stop.Refuses (senderSigningKey crates host mode keyArgs) ∨
      ∃ sender, senderSigningKey crates host mode keyArgs = .ok sender := by
  by_cases one : mode = 0x01
  · obtain ⟨secret, loaded⟩ := loads one
    cases valid : crates.curve.signingKey secret with
    | error message =>
        exact .inl (senderSigningKey_refuses_iff.mpr
          ⟨one, keyRefusedOn_iff.mp (.inr ⟨secret, message, loaded, valid⟩)⟩)
    | ok key =>
        rw [one]
        exact .inr ⟨_, senderSigningKey_of_loaded loaded valid⟩
  · exact .inr ⟨none, if_neg one⟩

theorem encryptSession_refuses_iff {args : EncryptArgs} :
    Stop.Refuses (encryptSession crates host rounds args) ↔
      EncryptRefused crates host rounds args := by
  unfold encryptSession
  simp only [Stop.refuses_bind_iff, Stop.refuses_mapErr_iff, Stop.mapErr_eq_ok_iff,
    ephPrivBytes_refuses_iff, ephPrivBytes_eq_ok_iff, senderSigningKey_refuses_iff]
  constructor
  · rintro (⟨message, unparsed⟩ | ⟨recipX, parsed, ⟨fd, given, descriptor, none⟩ |
      ⟨ephPriv, drawn, ⟨message, invalid⟩ | ⟨ephKey, valid, ⟨one, none⟩ |
      ⟨sender, signing, ⟨message, failed⟩ | ⟨ikm, shared, ⟨message, failed⟩ |
      ⟨keys, derived, impossible⟩⟩⟩⟩⟩⟩)
    · exact .recipient unparsed
    · exact .entropy given descriptor none
    · obtain ⟨system, rfl⟩ := drawn.of_invalid invalid
      exact .ephemeral system invalid
    · exact .sender drawn one none
    · exact .agreement parsed drawn (loads_of_signing signing) (.inl failed)
    · exact .agreement parsed drawn (loads_of_signing signing) (.inr ⟨ikm, shared, failed⟩)
    · exact absurd impossible (Stop.not_refuses_ok _)
  · intro refused
    cases given : parseKeyBytes crates args.recipientHex with
    | error message => exact .inl ⟨message, rfl⟩
    | ok recipX =>
        refine .inr ⟨recipX, rfl, ?_⟩
        cases refused with
        | recipient unparsed => cases given.symm.trans unparsed
        | entropy given descriptor none => exact .inl ⟨_, given, descriptor, none⟩
        | ephemeral system invalid =>
            exact .inr ⟨host.osEntropy, system ▸ .system, .inl ⟨_, invalid⟩⟩
        | @sender ephPriv drawn one none =>
            refine .inr ⟨ephPriv, drawn, ?_⟩
            cases crates.curve.signingKey ephPriv with
            | error message => exact .inl ⟨message, rfl⟩
            | ok ephKey => exact .inr ⟨ephKey, rfl, .inl ⟨one, none⟩⟩
        | @agreement _ ephPriv _ parsed drawn loads failed =>
            cases given.symm.trans parsed
            refine .inr ⟨ephPriv, drawn, ?_⟩
            cases crates.curve.signingKey ephPriv with
            | error message => exact .inl ⟨message, rfl⟩
            | ok ephKey =>
                refine .inr ⟨ephKey, rfl, ?_⟩
                rcases signing_of_loads loads with refused | ⟨sender, signing⟩
                · exact .inl (senderSigningKey_refuses_iff.mp refused)
                · refine .inr ⟨sender, signing, ?_⟩
                  rcases failed with failed | ⟨ikm, shared, failed⟩
                  · exact .inl ⟨_, failed⟩
                  · exact .inr ⟨ikm, shared, .inl ⟨_, failed⟩⟩

end Setup

/-! ## Failing closed -/

/-- Code 2, and nothing on standard output. -/
def FailsClosed (outcome : Option Nat × Process) : Prop :=
  outcome.1 = some 2 ∧ outcome.2.stdout = []

section Commands

variable {host : Host} {rounds : Nat} {args : List String}

theorem failsClosed_of_error {error : Pipek1Error} (code : error.exitCode = 2) (stdin : Reader) :
    FailsClosed (exitStatus (.error (.failed error) (Process.start stdin)),
      reported (.error (.failed error) (Process.start stdin))) :=
  ⟨congrArg some code, stdout_reported _⟩

theorem loadSigningKey_of_refused
    (refused : KeyRefusedOn crates host (parseKeyIntakeArgs args)) (process : Process) :
    ∃ error, error.exitCode = 2 ∧
      loadSigningKey crates host args process = .error (.failed error) process := by
  rcases refused with ⟨error, failed⟩ | ⟨secret, message, loaded, invalid⟩
  · refine ⟨error, exitCode_of_loadSecretKey failed, ?_⟩
    rw [loadSigningKey, failed]
    rfl
  · refine ⟨.usageError ("Invalid secp256k1 secret key: " ++ message), rfl, ?_⟩
    rw [loadSigningKey, loaded, bind_of_ok (show orStop _ _ = .ok secret _ from rfl), invalid]
    rfl

/-- Key options that are not refused lead to a key, or to an abort. -/
theorem loadSigningKey_of_not_refused
    (accepted : ¬ KeyRefusedOn crates host (parseKeyIntakeArgs args)) :
    (∃ secret key, loadSecretKey crates host (parseKeyIntakeArgs args) = .ok secret ∧
      crates.curve.signingKey secret = .ok key ∧
      ∀ process, loadSigningKey crates host args process = .ok key process) ∨
    ∃ stop, stop.exitCode ≠ some 2 ∧
      loadSecretKey crates host (parseKeyIntakeArgs args) = .error stop ∧
      ∀ process, loadSigningKey crates host args process = .error stop process := by
  cases loaded : loadSecretKey crates host (parseKeyIntakeArgs args) with
  | error stop =>
      refine .inr ⟨stop, ?_, rfl, ?_⟩
      · cases stop with
        | failed error => exact absurd (.inl ⟨error, loaded⟩) accepted
        | panicked message => exact fun impossible => nomatch impossible
        | unfinished => exact fun impossible => nomatch impossible
      · intro process
        rw [loadSigningKey, loaded]
        rfl
  | ok secret =>
      cases valid : crates.curve.signingKey secret with
      | error message => exact absurd (.inr ⟨secret, message, loaded, valid⟩) accepted
      | ok key =>
          refine .inl ⟨secret, key, rfl, valid, fun process => ?_⟩
          rw [loadSigningKey, loaded, bind_of_ok (show orStop _ _ = .ok secret _ from rfl), valid]
          rfl

theorem pubkey_failsClosed_iff :
    (∀ stdin, FailsClosed (exitStatus (pubkeyCommand crates host args (Process.start stdin)),
      reported (pubkeyCommand crates host args (Process.start stdin)))) ↔
      KeyRefusedOn crates host (parseKeyIntakeArgs args) := by
  constructor
  · intro closed
    by_contra accepted
    have code := (closed []).1
    rcases loadSigningKey_of_not_refused accepted with
      ⟨secret, key, _, _, loads⟩ | ⟨stop, other, _, stops⟩
    · rw [pubkeyCommand, bind_of_ok (loads _)] at code
      cases code
    · rw [pubkeyCommand, bind_of_error (stops _)] at code
      exact other code
  · intro refused stdin
    obtain ⟨error, code, failed⟩ := loadSigningKey_of_refused refused (Process.start stdin)
    rw [pubkeyCommand, bind_of_error failed]
    exact failsClosed_of_error code stdin

/-- A read error that is reported as such. -/
def brokenInput : Reader := [.failed ⟨.other, "Input/output error (os error 5)"⟩]

theorem sign_failsClosed_iff :
    (∀ stdin, FailsClosed (exitStatus (signCommand crates host args (Process.start stdin)),
      reported (signCommand crates host args (Process.start stdin)))) ↔
      KeyRefusedOn crates host (parseKeyIntakeArgs args) := by
  unfold signCommand
  constructor
  · intro closed
    by_contra accepted
    have code := (closed brokenInput).1
    rcases loadSigningKey_of_not_refused accepted with
      ⟨secret, key, _, _, loads⟩ | ⟨stop, other, _, stops⟩
    · have broken : absorbStdin crates none (Process.start brokenInput) =
          .error (.failed (.io ⟨.other, "Input/output error (os error 5)"⟩)) ⟨[], []⟩ :=
        loop_of_error rfl
      rw [bind_of_ok (loads _), bind_of_error broken] at code
      cases code
    · rw [bind_of_error (stops _)] at code
      exact other code
  · intro refused stdin
    obtain ⟨error, code, failed⟩ := loadSigningKey_of_refused refused (Process.start stdin)
    rw [bind_of_error failed]
    exact failsClosed_of_error code stdin

theorem decrypt_failsClosed_iff :
    (∀ stdin, FailsClosed
      (exitStatus (runDecrypt crates host (decryptArgs args) (Process.start stdin)),
        reported (runDecrypt crates host (decryptArgs args) (Process.start stdin)))) ↔
      KeyRefusedOn crates host (parseKeyIntakeArgs args) := by
  constructor
  · intro closed
    by_contra accepted
    have code := (closed []).1
    rcases loadSigningKey_of_not_refused accepted with
      ⟨secret, key, loaded, valid, _⟩ | ⟨stop, other, stopped, _⟩
    · rw [@runDecrypt_of_no_input crates host (decryptArgs args) _ _ loaded valid] at code
      cases code
    · rw [@runDecrypt_of_unloaded crates host (decryptArgs args) _ stopped] at code
      exact other code
  · intro refused stdin
    rcases refused with ⟨error, failed⟩ | ⟨secret, message, loaded, invalid⟩
    · rw [@runDecrypt_of_unloaded crates host (decryptArgs args) _ failed]
      exact failsClosed_of_error (exitCode_of_loadSecretKey failed) stdin
    · rw [@runDecrypt_of_invalid crates host (decryptArgs args) _ _ loaded invalid]
      exact failsClosed_of_error rfl stdin

theorem encrypt_failsClosed_iff {argsE : EncryptArgs} :
    (∀ stdin, FailsClosed (exitStatus (runEncrypt crates host rounds argsE (Process.start stdin)),
      reported (runEncrypt crates host rounds argsE (Process.start stdin)))) ↔
      EncryptRefused crates host rounds argsE := by
  rw [← encryptSession_refuses_iff]
  cases started : encryptSession crates host rounds argsE with
  | error stop =>
      simp only [runEncrypt_of_refused started]
      constructor
      · intro closed
        cases stop with
        | failed error => exact ⟨error, rfl⟩
        | panicked message => cases (closed []).1
        | unfinished => cases (closed []).1
      · rintro ⟨error, failed⟩ stdin
        cases failed
        exact failsClosed_of_error (exitCode_of_encryptSession started) stdin
  | ok session =>
      refine iff_of_false (fun closed => stdout_of_started started [] (closed []).2) ?_
      rintro ⟨error, impossible⟩
      cases impossible

end Commands

/-- What is left of the options is refused: for `encrypt` with every check up to the header, for
the other commands when the key is loaded. -/
def SetupRefused (crates : Crates) (host : Host) (rounds : Nat) (command : String)
    (args : List String) : Prop :=
  if command = "encrypt" then
    ∀ recip, lastValue "--recipient" (items encryptTakesValue args) = some recip →
      EncryptRefused crates host rounds (remainingEncryptArgs args recip)
  else NoUsableKey crates host (remainingKeyArgs (items keyIntakeTakesValue args))

theorem realMain_dispatch {host : Host} {rounds : Nat} {exe command : String}
    {args : List String} {stdin : Reader} (direct : isGitInvocation exe command = false) :
    realMain crates host rounds (exe :: command :: args) stdin =
      (exitStatus (dispatchCommand crates host rounds command args (Process.start stdin)),
        reported (dispatchCommand crates host rounds command args (Process.start stdin))) := by
  simp only [realMain, runCommand, direct, Bool.false_eq_true, ↓reduceIte]

theorem failsClosed_iff {host : Host} {rounds : Nat} {exe command : String} {args : List String}
    (known : command ∈ ["encrypt", "decrypt", "sign", "pubkey"])
    (direct : isGitInvocation exe command = false) :
    (∀ stdin, FailsClosed (realMain crates host rounds (exe :: command :: args) stdin)) ↔
      SetupRefused crates host rounds command args := by
  have keyArgs := foldl_keyIntakeItem (items keyIntakeTakesValue args)
  have options := foldl_encryptItem (items encryptTakesValue args)
  simp only [realMain_dispatch direct]
  simp only [List.mem_cons, List.not_mem_nil, or_false] at known
  rcases known with rfl | rfl | rfl | rfl
  · have recipient : (encryptOptions args).recipient =
        lastValue "--recipient" (items encryptTakesValue args) :=
      congrArg EncryptOptions.recipient options
    rw [SetupRefused, if_pos rfl]
    cases given : lastValue "--recipient" (items encryptTakesValue args) with
    | none =>
        refine iff_of_true (fun stdin => ?_) (fun _ impossible => absurd impossible (Option.some_ne_none _).symm)
        rw [given] at recipient
        simp only [dispatchCommand, encryptCommand, recipient]
        exact failsClosed_of_error rfl stdin
    | some recip =>
        rw [given] at recipient
        have same : remainingEncryptArgs args recip = encryptArgs args recip := by
          rw [remainingEncryptArgs, ← keyArgs, ← options]
          rfl
        simp only [Option.some.injEq, forall_eq', same, ← encrypt_failsClosed_iff, dispatchCommand,
          encryptCommand, recipient]
        rfl
  · rw [SetupRefused, if_neg (by decide), ← keyArgs, ← keyRefusedOn_iff]
    exact decrypt_failsClosed_iff
  · rw [SetupRefused, if_neg (by decide), ← keyArgs, ← keyRefusedOn_iff]
    exact sign_failsClosed_iff
  · rw [SetupRefused, if_neg (by decide), ← keyArgs, ← keyRefusedOn_iff]
    exact pubkey_failsClosed_iff

/-- An option without a usable value makes a command fail closed exactly where what is left of
the options is refused. -/
theorem malformed_options_fail_closed_iff (crates : Crates) (host : Host) (rounds : Nat)
    (exe command : String) (args : List String)
    (known : command ∈ ["encrypt", "decrypt", "sign", "pubkey"])
    (direct : isGitInvocation exe command = false) :
    (MalformedOption command args →
      ∀ stdin, FailsClosed (realMain crates host rounds (exe :: command :: args) stdin)) ↔
    (MalformedOption command args → SetupRefused crates host rounds command args) :=
  imp_congr_right fun _ => failsClosed_iff known direct

open Reference in
/-- The descriptor holds no key, and the command fails. -/
theorem malformed_options_fail_closed_iff_sample :
    MalformedOption "pubkey" ["--sec-fd", "5", "--bip85-index", "-1"] ∧
      ∀ stdin, FailsClosed (realMain packages (keyHost sampleSender sampleEphemeral) 0
        ["pipe-k1", "pubkey", "--sec-fd", "5", "--bip85-index", "-1"] stdin) := by
  have malformed : MalformedOption "pubkey" ["--sec-fd", "5", "--bip85-index", "-1"] :=
    .inl ⟨⟨"--bip85-index", some "-1"⟩, by decide, by decide, fun value given => by
      cases given
      decide⟩
  have unparsed : parseKeyBytes packages "" = .error "Expected 32 bytes of hex, got 0" := by
    rw [parseKeyBytes]
    rfl
  refine ⟨malformed, (malformed_options_fail_closed_iff packages
    (keyHost sampleSender sampleEphemeral) 0 "pipe-k1" "pubkey"
    ["--sec-fd", "5", "--bip85-index", "-1"] (by decide) rfl).mpr (fun _ => ?_) malformed⟩
  rw [SetupRefused, if_neg (by decide)]
  have remaining : remainingKeyArgs (items keyIntakeTakesValue
      ["--sec-fd", "5", "--bip85-index", "-1"]) = { secFd := some 5 } := by decide
  have empty : descriptorText (keyHost sampleSender sampleEphemeral) 5 = .ok "" := rfl
  rw [remaining]
  refine .secFd rfl (by decide) ?_
  rw [empty]
  rintro text same ⟨secret, key, parsed, _⟩
  cases same
  cases unparsed.symm.trans parsed

open Reference in
/-- With a key in the environment, `pubkey --sec-fd abc` shows that one. -/
theorem pubkey_passes_over_sec_fd :
    MalformedOption "pubkey" ["--sec-fd", "abc"] ∧
      (realMain packages (keyHost sampleSender sampleEphemeral) 0
        ["pipe-k1", "pubkey", "--sec-fd", "abc"] []).1 = some 0 ∧
      ¬ ∀ stdin, FailsClosed (realMain packages (keyHost sampleSender sampleEphemeral) 0
        ["pipe-k1", "pubkey", "--sec-fd", "abc"] stdin) := by
  have remaining : parseKeyIntakeArgs ["--sec-fd", "abc"] = {} := by decide
  have loads : ∀ process, loadSigningKey packages (keyHost sampleSender sampleEphemeral)
      ["--sec-fd", "abc"] process = .ok sampleSender process := by
    intro process
    have loaded : loadSecretKey packages (keyHost sampleSender sampleEphemeral) {} =
        .ok (secretBytes sampleSender) := loadSecretKey_keyHost _ sampleSender sampleEphemeral
    have valid : packages.curve.signingKey (secretBytes sampleSender) = .ok sampleSender :=
      signingKey_secretBytes sampleSender
    rw [loadSigningKey, remaining, loaded,
      bind_of_ok (show orStop _ _ = .ok (secretBytes sampleSender) _ from rfl), valid]
    rfl
  have shown : (realMain packages (keyHost sampleSender sampleEphemeral) 0
      ["pipe-k1", "pubkey", "--sec-fd", "abc"] []).1 = some 0 := by
    rw [realMain_dispatch rfl]
    change exitStatus (pubkeyCommand packages (keyHost sampleSender sampleEphemeral)
      ["--sec-fd", "abc"] (Process.start [])) = some 0
    rw [pubkeyCommand, bind_of_ok (loads _)]
    rfl
  refine ⟨.inl ⟨⟨"--sec-fd", some "abc"⟩, by decide, by decide, fun value given => ?_⟩, shown,
    fun closed => ?_⟩
  · cases given
    decide
  · cases shown.symm.trans (closed []).1

end PipeK1
