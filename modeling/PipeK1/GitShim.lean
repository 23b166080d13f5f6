import PipeK1.Signature
import PipeK1.TrustDb

/-!
# The git shim

`run_git_shim`: the program as git calls it in place of `gpg`, to sign a commit
or to verify one and report on a status descriptor.
-/

set_option autoImplicit false

namespace PipeK1

open ByteData ByteReader

variable (crates : Crates) (host : Host)

/-! ## Arguments -/

structure ShimArgs where
  statusFd : Option Int := none
  keyId : Option String := none
  isVerify : Bool := false
  verifySigPath : Option String := none
  verifyDataPath : Option String := none
deriving DecidableEq

/-- A short-flag cluster with `u` in it, such as `-bsau`. -/
def isUserCluster (arg : List Char) : Bool :=
  arg.contains 'u' && ['-'].isPrefixOf arg && !"--".toList.isPrefixOf arg

/-- The options of `run_git_shim`; a value that is missing leaves its field as it is. -/
def scanShim (parsed : ShimArgs) : List String → ShimArgs
  | [] => parsed
  | arg :: rest =>
      if "--status-fd=".toList.isPrefixOf arg.toList then
        scanShim { parsed with statusFd := Text.parseI32 (arg.toList.drop 12) } rest
      else if arg = "--status-fd" then
        match rest with
        | [] => parsed
        | value :: rest => scanShim { parsed with statusFd := Text.parseI32 value.toList } rest
      else if arg = "--verify" ∨ arg = "-v" then
        match rest with
        | [] => { parsed with isVerify := true }
        | [sigPath] => { parsed with isVerify := true, verifySigPath := some sigPath }
        | sigPath :: dataPath :: rest =>
            scanShim { parsed with
              isVerify := true
              verifySigPath := some sigPath
              verifyDataPath := some dataPath } rest
      else if arg = "-u" then
        match rest with
        | [] => parsed
        | value :: rest => scanShim { parsed with keyId := some value } rest
      else if "-u".toList.isPrefixOf arg.toList then
        scanShim { parsed with keyId := some (String.ofList (arg.toList.drop 2)) } rest
      else if isUserCluster arg.toList then
        match rest with
        | [] => parsed
        | value :: rest => scanShim { parsed with keyId := some value } rest
      else
        scanShim parsed rest

/-! ## Status lines -/

/-- `write_status_fd`: write errors are ignored, but no descriptor is -1. -/
def writeStatusFd (statusFd : Option Int) (line : String) : Run Unit :=
  match statusFd with
  | none => pure ()
  | some fdNum =>
      if fdNum = -1 then throw (.panicked "fd != -1") else record (.status fdNum line)

def newSigLine : String := "[GNUPG:] NEWSIG\n"

def errSigLine : String := "[GNUPG:] ERRSIG 0000000000000000 1 8 00 0000000000 9\n"

def badSigLine (hexPk name : String) : String :=
  "[GNUPG:] BADSIG " ++ hexPk ++ " " ++ name ++ "\n"

def goodSigLine (hexPk name : String) : String :=
  "[GNUPG:] GOODSIG " ++ hexPk ++ " " ++ name ++ "\n"

def validSigLine (hexPk dateStr : String) (timestamp : UInt32) : String :=
  "[GNUPG:] VALIDSIG " ++ hexPk ++ " " ++ dateStr ++ " " ++ toString timestamp.toNat ++
    " 0 4 0 1 8 00 " ++ hexPk ++ "\n"

def trustLine (level : String) : String := "[GNUPG:] TRUST_" ++ level ++ " 0 pgp\n"

/-! ## Dates -/

/-- The date of a Unix time, with the source's machine arithmetic. -/
def civilDate (timestamp : UInt32) : Int × UInt32 × UInt32 :=
  let days := timestamp / 86400
  let z : Int := days.toNat + 719468
  let era := (if z ≥ 0 then z else z - 146096).tdiv 146097
  let doe := UInt32.ofInt (z - era * 146097)
  let yoe := (doe - doe / 1024 + doe / 1461 - doe / 142401) / 365
  let y : Int := yoe.toNat + era * 400
  let doy := doe - (365 * yoe + yoe / 4 - yoe / 100)
  let mp := (5 * doy + 2) / 153
  let d := doy - (153 * mp + 2) / 5 + 1
  let m := if mp < 10 then mp + 3 else mp - 9
  (if m ≤ 2 then y + 1 else y, m, d)

/-- `{:04}` of an `i64`. -/
def padYear (year : Int) : String :=
  if year < 0 then "-" ++ Text.padDecimal 3 year.natAbs else Text.padDecimal 4 year.natAbs

def dateStr (timestamp : UInt32) : String :=
  let (year, month, day) := civilDate timestamp
  padYear year ++ "-" ++ Text.padDecimal 2 month.toNat ++ "-" ++ Text.padDecimal 2 day.toNat

/-! ## Verification -/

/-- `read_to_end` of standard input. -/
def readAllStdin : Run Bytes := do
  let outcome ← onStdin readToEnd
  orFail .io outcome

/-- The signed data: standard input for `-`, else a file. -/
def readData (dataP : String) : Run Bytes :=
  if dataP = "-" then readAllStdin else orFail .io (host.fileContents (PathBuf.parse dataP))

/-- The report on a signature that verifies. -/
def reportGood (statusFd : Option Int) (payload : SignaturePayload) (signerPk : FixedBytes 32) :
    Run Unit := do
  let hexPk := crates.encodings.hexEncode signerPk.toList
  let npub := encodeNpub crates signerPk
  let timestamp := u32FromBe (payload.slice 5 4 payload_timestamp)
  let matchedIdentity := (resolveAllowedSigners crates host).find? fun signer =>
    signer.2 = signerPk
  writeStatusFd statusFd newSigLine
  match matchedIdentity with
  | some (ident, _) => do
      eprintln ("gpg: Signature made " ++ dateStr timestamp ++ " using secp256k1 key " ++ hexPk)
      eprintln ("gpg: Good signature from \"" ++ ident ++ "\" [ultimate]")
      writeStatusFd statusFd (goodSigLine hexPk ident)
      writeStatusFd statusFd (validSigLine hexPk (dateStr timestamp) timestamp)
      writeStatusFd statusFd (trustLine "ULTIMATE")
  | none => do
      eprintln ("gpg: Signature made " ++ dateStr timestamp ++ " using secp256k1 key " ++ hexPk)
      eprintln ("gpg: Good signature from \"" ++ npub ++ "\" [unknown]")
      writeStatusFd statusFd (goodSigLine hexPk npub)
      writeStatusFd statusFd (validSigLine hexPk (dateStr timestamp) timestamp)
      writeStatusFd statusFd (trustLine "UNDEFINED")

/-- The report on a payload of the right length that does not verify. -/
def reportBad (statusFd : Option Int) (payload : SignaturePayload) (error : String) :
    Run Unit := do
  let signerPk := payload.slice 9 32 payload_signer
  let hexPk := crates.encodings.hexEncode signerPk.toList
  let npub := encodeNpub crates signerPk
  writeStatusFd statusFd newSigLine
  writeStatusFd statusFd (badSigLine hexPk npub)
  eprintln ("pipe-k1-git-shim: signature verification failed: " ++ error)
  fail (.authFailure ("signature verification failed: " ++ error))

/-- The report on a file that does not have a payload's length. -/
def reportMalformed (statusFd : Option Int) : Run Unit := do
  writeStatusFd statusFd (newSigLine ++ errSigLine)
  eprintln "pipe-k1-git-shim: error: malformed or unrecognized signature format"
  fail (.wireCorruption "malformed or unrecognized signature format")

/-- What follows once the signature's bytes are there. -/
def checkPayload (args : ShimArgs) (sigBytes : Bytes) : Run Unit :=
  match FixedBytes.ofList? signaturePayloadSize sigBytes with
  | none => reportMalformed args.statusFd
  | some payload => do
      let dataBytes ← readData host (args.verifyDataPath.getD "-")
      match verifyStreamPayload crates payload (crates.digests.sha256 dataBytes) with
      | .ok signerPk => reportGood crates host args.statusFd payload signerPk
      | .error e => reportBad crates args.statusFd payload e

@[irreducible] def shimVerify (args : ShimArgs) : Run Unit :=
  match args.verifySigPath with
  | none => fail (.usageError "Missing signature path for --verify")
  | some sigP => do
      let sigRaw ← orFail (fun e => .usageError ("Cannot read signature: " ++ e.message))
        (host.fileContents (PathBuf.parse sigP))
      let sigBytes ← orFail id (detachArmor crates sigRaw)
      checkPayload crates host args sigBytes

/-! ## Signing -/

/-- A key id that parses must be the configured key; one that does not is passed over. -/
def checkKeyId (args : ShimArgs) (pkX : FixedBytes 32) : Run Unit :=
  match args.keyId with
  | none => pure ()
  | some kid =>
      match parseKeyBytes crates kid with
      | .error _ => pure ()
      | .ok expBytes =>
          if expBytes ≠ pkX then do
            writeStatusFd args.statusFd ("[GNUPG:] INV_SGNR 0 " ++ kid ++ "\n")
            eprintln ("pipe-k1-git-shim: error: signing key " ++ kid ++
              " does not match configured secret key")
            fail (.usageError ("signing key " ++ kid ++ " does not match configured secret key"))
          else pure ()

/-- `as_secs() as u32`. -/
def currentTimestamp : Run UInt32 := do
  let seconds ← orFail (fun e => .usageError ("Clock error: " ++ e)) host.unixTime
  return UInt32.ofNat seconds

@[irreducible] def shimSign (args : ShimArgs) : Run Unit := do
  let skBytes ← orStop (loadSecretKey crates host {})
  let signingKey ← orFail (fun e => .usageError ("Invalid secp256k1 secret key: " ++ e))
    (crates.curve.signingKey skBytes)
  let pkX := crates.curve.publicBytes signingKey
  checkKeyId crates args pkX
  let commitData ← readAllStdin
  let now ← currentTimestamp host
  let sigPayload ← orStop
    (signStreamPayload crates signingKey (crates.digests.sha256 commitData) now)
  writeStatusFd args.statusFd ("[GNUPG:] SIG_CREATED D 1 8 00 " ++ toString now.toNat ++ " " ++
    crates.encodings.hexEncode pkX.toList ++ "\n")
  printArmored crates "PGP SIGNATURE" sigPayload

@[irreducible] def runGitShim (args : List String) : Run Unit :=
  let parsed := scanShim {} args
  if parsed.isVerify then shimVerify crates host parsed else shimSign crates host parsed

end PipeK1
