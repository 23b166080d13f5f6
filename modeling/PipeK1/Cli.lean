import PipeK1.Decrypt
import PipeK1.Encrypt
import PipeK1.GitShim
import PipeK1.Library.Arguments

/-!
# The command line

The argument scanners, the commands of `dispatch_command`, and `real_main`.
-/

set_option autoImplicit false

namespace PipeK1

open ByteData ByteReader Effects Arguments

variable (crates : Crates) (host : Host)

/-! ## Scanners

The arguments of a command start after the program's and the command's name. A
value that does not parse is as good as none. -/

def keyIntakeTakesValue (token : String) : Bool :=
  token ∈ ["--sec-fd", "--sec-file", "--mnemonic-fd", "--passphrase-fd", "--bip85-identity",
    "--bip85-index"]

def keyIntakeItem (keyArgs : KeyIntakeArgs) (item : Item) : KeyIntakeArgs :=
  match item.value with
  | none => keyArgs
  | some value =>
      if item.token = "--sec-fd" then { keyArgs with secFd := Text.parseI32 value.toList }
      else if item.token = "--sec-file" then { keyArgs with secFile := some value }
      else if item.token = "--mnemonic-fd" then
        { keyArgs with mnemonicFd := Text.parseI32 value.toList }
      else if item.token = "--passphrase-fd" then
        { keyArgs with passphraseFd := Text.parseI32 value.toList }
      else if item.token = "--bip85-identity" then
        { keyArgs with bip85Identity := Text.parseU32 value.toList }
      else if item.token = "--bip85-index" then
        { keyArgs with bip85Index := Text.parseU32 value.toList }
      else keyArgs

def parseKeyIntakeArgs (args : List String) : KeyIntakeArgs :=
  (items keyIntakeTakesValue args).foldl keyIntakeItem {}

structure EncryptOptions where
  recipient : Option String := none
  /-- The default is the anonymous mode. -/
  mode : UInt8 := 0x02
  entropyFd : Option Int := none

def encryptTakesValue (token : String) : Bool :=
  token ∈ ["--recipient", "--mode", "--entropy-fd"]

def encryptItem (options : EncryptOptions) (item : Item) : EncryptOptions :=
  match item.value with
  | none => options
  | some value =>
      if item.token = "--recipient" then { options with recipient := some value }
      else if item.token = "--mode" then
        { options with mode := (Text.parseU8 value.toList).getD 2 }
      else if item.token = "--entropy-fd" then
        { options with entropyFd := Text.parseI32 value.toList }
      else options

structure DecryptOptions where
  sender : Option String := none
  allowUntrusted : Bool := false
  allowUnverified : Bool := false
  maxSize : Option UInt64 := none

def decryptTakesValue (token : String) : Bool := token ∈ ["--sender", "--max-size"]

/-- A value option without a value falls through to the arm that does nothing. -/
def decryptItem (options : DecryptOptions) (item : Item) : DecryptOptions :=
  if item.token = "--sender" ∧ item.value.isSome then { options with sender := item.value }
  else if item.token = "--allow-untrusted-sender" then { options with allowUntrusted := true }
  else if item.token = "--allow-unverified-stream" then { options with allowUnverified := true }
  else if item.token = "--max-size" ∧ item.value.isSome then
    { options with maxSize := item.value.bind fun value => Text.parseU64 value.toList }
  else options

structure VerifyOptions where
  sigPath : Option String := none
  expectedPub : Option String := none
  maxSize : Option UInt64 := none
  passThrough : Bool := false

def verifyTakesValue (token : String) : Bool := token ∈ ["--sig", "--pub", "--max-size"]

def verifyItem (options : VerifyOptions) (item : Item) : VerifyOptions :=
  if item.token = "--sig" ∧ item.value.isSome then { options with sigPath := item.value }
  else if item.token = "--pub" ∧ item.value.isSome then { options with expectedPub := item.value }
  else if item.token = "--pass-through" then { options with passThrough := true }
  else if item.token = "--max-size" ∧ item.value.isSome then
    { options with maxSize := item.value.bind fun value => Text.parseU64 value.toList }
  else options

def encryptOptions (args : List String) : EncryptOptions :=
  (items encryptTakesValue args).foldl encryptItem {}

def decryptOptions (args : List String) : DecryptOptions :=
  (items decryptTakesValue args).foldl decryptItem {}

def verifyOptions (args : List String) : VerifyOptions :=
  (items verifyTakesValue args).foldl verifyItem {}

/-! ## Commands -/

/-- A mandatory argument. -/
def required (message : String) : Option String → Except Pipek1Error String
  | some value => .ok value
  | none => .error (.usageError message)

def encryptCommand (rounds : Nat) (args : List String) : Run Unit := do
  let options := encryptOptions args
  let recip ← orFail id
    (required "Missing mandatory argument: --recipient <npub|hex>" options.recipient)
  runEncrypt crates host rounds
    ⟨recip, options.mode, parseKeyIntakeArgs args, options.entropyFd⟩

/-- The arguments of `run_decrypt`. -/
def decryptArgs (args : List String) : DecryptArgs :=
  let options := decryptOptions args
  ⟨options.sender, options.allowUntrusted, options.allowUnverified, options.maxSize,
    parseKeyIntakeArgs args⟩

def decryptCommand (args : List String) : Run Unit := runDecrypt crates host (decryptArgs args)

def loadSigningKey (args : List String) : Run crates.curve.SigningKey := do
  let skBytes ← orStop (loadSecretKey crates host (parseKeyIntakeArgs args))
  orFail (fun e => .usageError ("Invalid secp256k1 secret key: " ++ e))
    (crates.curve.signingKey skBytes)

def pubkeyCommand (args : List String) : Run Unit := do
  let signingKey ← loadSigningKey crates host args
  let pkX := crates.curve.publicBytes signingKey
  println ("Hex:  " ++ crates.encodings.hexEncode pkX.toList)
  println ("Npub: " ++ encodeNpub crates pkX)

/-! ### Reading standard input to its end -/

/-- What the hasher has absorbed, and the spool if there is one. -/
structure AbsorbState where
  spool : Option Spool
  hashed : Bytes

def spoolBytes (bytes : Bytes) : Option Spool → Except String (Option Spool)
  | none => .ok none
  | some spool =>
      match spool.writeChunk crates.aead bytes with
      | .ok () spool => .ok (some spool)
      | .error e _ => .error e

def absorbStep (state : AbsorbState) : Run (AbsorbState ⊕ AbsorbState) := do
  let outcome ← onStdin (read chunkSize)
  let bytes ← orFail .io outcome
  match bytes with
  | [] => return .inr state
  | _ :: _ => do
      let spool ← orFail .usageError (spoolBytes crates bytes state.spool)
      return .inl ⟨spool, state.hashed ++ bytes⟩

theorem absorbStep_shrinks {state next : AbsorbState} {process process' : Process}
    (stepped : absorbStep crates state process = .ok (.inl next) process') :
    stdinLength process' < stdinLength process := by
  have consumed : Ends (fun outcome after => ∀ next, outcome = .inl next →
      stdinLength after < stdinLength process) (fun _ _ => True)
      (absorbStep crates state process) := by
    rw [absorbStep, ends_bind, onStdin, ends_modifyGet, ends_bind]
    refine ends_orFail ?_ ?_
    · intro bytes reading
      have consumed : content process.stdin =
          bytes ++ content (read chunkSize process.stdin).2 :=
        (read_ok_content (Prod.ext reading rfl)).1
      cases bytes with
      | nil =>
          rw [ends_pure]
          intro next impossible
          cases impossible
      | cons byte bytes =>
          rw [ends_bind]
          refine ends_orFail ?_ ?_
          · intro spool _
            rw [ends_pure]
            intro _ _
            change (content (read chunkSize process.stdin).2).length < (content process.stdin).length
            rw [consumed, List.length_append, List.length_cons]
            omega
          · intro _ _
            trivial
    · intro _ _
      trivial
  exact consumed.ok stepped next rfl

/-- `verify`'s loop; `sign` runs the same one without a spooler. -/
def absorbStdin (spool : Option Spool) : Run AbsorbState :=
  loop stdinLength (absorbStep crates) (absorbStep_shrinks crates) ⟨spool, []⟩

@[irreducible] def signCommand (args : List String) : Run Unit := do
  let signingKey ← loadSigningKey crates host args
  let absorbed ← absorbStdin crates none
  let now ← currentTimestamp host
  let sigPayload ← orStop
    (signStreamPayload crates signingKey (crates.digests.sha256 absorbed.hashed) now)
  if "-a" ∈ args ∨ "--armor" ∈ args then
    printArmored crates "PIPE-K1 SIGNATURE" sigPayload
  else
    writeStdout sigPayload.toList

/-! ### `verify` -/

def payloadOfBytes (sigBytes : Bytes) : Except Pipek1Error SignaturePayload :=
  match FixedBytes.ofList? signaturePayloadSize sigBytes with
  | some payload => .ok payload
  | none => .error (.wireCorruption ("Signature payload must be exactly " ++
      toString signaturePayloadSize ++ " bytes (got " ++ toString sigBytes.length ++ ")"))

/-- The signature behind `--sig`. -/
def loadSignature (options : VerifyOptions) : Except Pipek1Error SignaturePayload := do
  let path ← required "Missing mandatory argument: --sig <file>" options.sigPath
  let sigRaw ← (host.fileContents (PathBuf.parse path)).mapError fun e =>
    .usageError ("Failed to read signature file '" ++ path ++ "': " ++ e.message)
  let sigBytes ← detachArmor crates sigRaw
  payloadOfBytes sigBytes

def checkSigner (options : VerifyOptions) (signerPk : FixedBytes 32) : Run Unit :=
  match options.expectedPub with
  | some exp => do
      let expPk ← orFail .usageError (parseKeyBytes crates exp)
      if expPk ≠ signerPk then
        fail (.authFailure ("Signer key " ++ encodeNpub crates signerPk ++
          " does not match expected key " ++ exp))
      else pure ()
  | none => eprintln ("Notice: Verifying against embedded untrusted pubkey " ++
      encodeNpub crates signerPk)

def releaseVerified (signerPk : FixedBytes 32) : Option Spool → Run Unit
  | some spool => spool.releaseToStdout crates.aead
  | none => eprintln ("Notice: Cryptographic verification SUCCESS from " ++
      encodeNpub crates signerPk)

/-- From the first read on. -/
@[irreducible] def verifyStdin (options : VerifyOptions) (payload : SignaturePayload) : Run Unit := do
  let absorbed ← absorbStdin crates
    (if options.passThrough then some (Spool.start host options.maxSize) else none)
  let signerPk ← orFail (fun e => .authFailure ("Verification FAILED: " ++ e))
    (verifyStreamPayload crates payload (crates.digests.sha256 absorbed.hashed))
  checkSigner crates options signerPk
  releaseVerified crates signerPk absorbed.spool

@[irreducible] def verifyCommand (args : List String) : Run Unit :=
  let options := verifyOptions args
  if options.passThrough ∧ options.expectedPub.isNone then
    fail (.usageError "--pub <npub|hex> is mandatory when --pass-through is enabled")
  else do
    let payload ← orFail id (loadSignature crates host options)
    verifyStdin crates host options payload

/-! ### `hash` and the inspectors -/

def hashCommand (args : List String) : Run Unit := do
  let buffer ← readAllStdin
  println (crates.encodings.hexEncode
    (taggedHash crates (args.head?.getD tagSign) buffer).toList)

def inspectHeaderCommand : Run Unit := do
  let header ← readStdin .io wireHeaderSize
  if header.slice 0 4 header_magic ≠ magicHeader then
    fail (.wireCorruption "Invalid magic bytes (expected PK01)")
  else do
    let hex (bytes : Bytes) : String := crates.encodings.hexEncode bytes
    println "Valid pipe-k1 Wire Header (97 bytes):"
    println "  Magic:        PK01"
    println ("  Version:      0x" ++ Text.hexByte (header.byteAt 4 header_version))
    println ("  Mode:         0x" ++ Text.hexByte (header.byteAt 5 header_mode))
    println ("  EphemeralPub: " ++ hex (header.slice 6 32 header_ephemeralPub).toList)
    println ("  RecipientPub: " ++ hex (header.slice 38 32 header_recipientPub).toList)
    println ("  Salt (11B):   " ++ hex (header.slice 70 11 header_salt).toList)
    println ("  HMAC (16B):   " ++ hex (header.slice 81 16 header_hmac).toList)

def inspectChunkCommand : Run Unit := do
  let chunkHdr ← readStdin .io chunkHeaderSize
  let term := chunkHdr.byteAt 4 chunkHeader_tag
  println "Valid pipe-k1 Chunk Header (5 bytes):"
  println ("  Payload Length: " ++
    toString (u32FromBe (chunkHdr.slice 0 4 chunkHeader_length)).toNat ++ " bytes")
  println ("  Terminal Tag:   0x" ++ Text.hexByte term ++ " (" ++
    (if term = 0x01 then "TERMINAL" else "INTERMEDIATE") ++ ")")

/-! ## The program -/

def usageText : List String :=
  ["pipe-k1 v0.1.0 - Stateless secp256k1 UNIX cryptographic stream filter",
    "Usage:",
    "  pipe-k1 encrypt --recipient <npub|hex> [--entropy-fd <N>]  # Authenticated stream encryption",
    "  pipe-k1 decrypt                                           # Spool-and-verify stream decryption",
    "  pipe-k1 sign [-a|--armor]                                 # Sign stdin stream using PIPE_K1_SEC_KEY env",
    "  pipe-k1 verify --sig <file> [--pub <npub|hex>]            # Verify stdin stream against signature file",
    "  pipe-k1 pubkey                                            # Display public key and npub from PIPE_K1_SEC_KEY",
    "  pipe-k1 hash [tag]                                        # Compute BIP-340 tagged hash over stdin",
    "  pipe-k1 inspect-header                                    # Parse 97-byte wire header from stdin",
    "  pipe-k1 inspect-chunk                                     # Parse 5-byte chunk framing header from stdin"]

def printUsage : Run Unit := usageText.forM eprintln

/-- `dispatch_command`; `args` is what follows the command's name. -/
def dispatchCommand (rounds : Nat) (command : String) (args : List String) : Run Unit :=
  match command with
  | "encrypt" => encryptCommand crates host rounds args
  | "decrypt" => decryptCommand crates host args
  | "pubkey" => pubkeyCommand crates host args
  | "sign" => signCommand crates host args
  | "verify" => verifyCommand crates host args
  | "hash" => hashCommand crates args
  | "inspect-header" => inspectHeaderCommand crates
  | "inspect-chunk" => inspectChunkCommand
  | _ => do
      printUsage
      fail (.usageError "Unknown command")

/-- `rsplit('/').next()`. -/
def exeName (path : String) : List Char :=
  (path.toList.reverse.takeWhile (· ≠ '/')).reverse

/-- The name of the program or the first argument says that git is calling. -/
def isGitInvocation (exe command : String) : Bool :=
  Text.contains "git-shim".toList (exeName exe) || command = "git-shim" ||
    "-b".toList.isPrefixOf command.toList || "--status-fd".toList.isPrefixOf command.toList ||
    "--keyid-format".toList.isPrefixOf command.toList || command = "--verify" ||
    "--extra-check-level".toList.isPrefixOf command.toList

def runCommand (rounds : Nat) (exe command : String) (args : List String) : Run Unit :=
  if isGitInvocation exe command then
    runGitShim crates host (if command = "git-shim" then args else command :: args)
  else
    dispatchCommand crates host rounds command args

/-- The status a run ends with; there is none while it is unfinished. -/
def exitStatus : EStateM.Result Stop Process Unit → Option Nat
  | .ok () _ => some 0
  | .error stop _ => stop.exitCode

/-- The process after a run: an error is reported on standard error. -/
def reported : EStateM.Result Stop Process Unit → Process
  | .ok () process => process
  | .error (.failed e) process =>
      { process with events := process.events ++ [.stderr ("Error: " ++ e.display ++ "\n")] }
  | .error _ process => process

/-- `real_main` on the whole argument vector. -/
def realMain (rounds : Nat) (argv : List String) (stdin : Reader) : Option Nat × Process :=
  match argv with
  | exe :: command :: args =>
      let result := runCommand crates host rounds exe command args (Process.start stdin)
      (exitStatus result, reported result)
  | _ => (some 2, ⟨stdin, usageText.map fun line => .stderr (line ++ "\n")⟩)

/-! ### Outcomes -/

theorem exitStatus_eq_zero_iff {result : EStateM.Result Stop Process Unit} :
    exitStatus result = some 0 ↔ ∃ process, result = .ok () process := by
  cases result with
  | ok value process => simp [exitStatus]
  | error stop process => simp [exitStatus, stop.exitCode_ne_zero]

/-- Reporting an error leaves standard output as it is. -/
theorem stdout_reported_error (stop : Stop) (process : Process) :
    (reported (.error stop process)).stdout = process.stdout := by
  cases stop with
  | failed error => simp [reported, Process.stdout, Event.stdoutBytes]
  | panicked message => rfl
  | unfinished => rfl

theorem stdout_reported (result : EStateM.Result Stop Process Unit) :
    (reported result).stdout = match result with
      | .ok _ process => process.stdout
      | .error _ process => process.stdout := by
  cases result with
  | ok value process => rfl
  | error stop process => exact stdout_reported_error stop process

end PipeK1
