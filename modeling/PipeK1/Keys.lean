import PipeK1.Host

/-!
# Key parsing and key intake

`parse_key_bytes`, the npub encoding, BIP-85 derivation and the priority chain
of secret-key sources.
-/

set_option autoImplicit false

namespace PipeK1

open ByteData ByteReader

variable (crates : Crates) (host : Host)

/-- `str::trim` on a `String`. -/
def trimmedString (text : String) : String := String.ofList (Text.trim text.toList)

/-- Decodes an nsec/npub Bech32 string or 32 bytes of hex. -/
@[irreducible] def parseKeyBytes (input : String) : Except String (FixedBytes 32) :=
  let trimmed := trimmedString input
  if "nsec1".toList.isPrefixOf trimmed.toList || "npub1".toList.isPrefixOf trimmed.toList then
    match crates.encodings.bech32Decode trimmed with
    | .error e => .error ("Bech32 error: " ++ e)
    | .ok (_hrp, data) =>
        match FixedBytes.ofList? 32 data with
        | none => .error ("Expected 32 bytes in Bech32 data, got " ++ toString data.length)
        | some out => .ok out
  else
    match crates.encodings.hexDecode trimmed with
    | .error e => .error ("Hex decode error: " ++ e)
    | .ok hexBytes =>
        match FixedBytes.ofList? 32 hexBytes with
        | none => .error ("Expected 32 bytes of hex, got " ++ toString hexBytes.length)
        | some out => .ok out

/-- Formats a public key as Bech32 npub. -/
def encodeNpub (pkX : FixedBytes 32) : String :=
  crates.encodings.bech32Encode "npub" pkX.toList

structure KeyIntakeArgs where
  secFd : Option Int := none
  secFile : Option String := none
  mnemonicFd : Option Int := none
  passphraseFd : Option Int := none
  bip85Identity : Option UInt32 := none
  bip85Index : Option UInt32 := none
deriving DecidableEq

/-- BIP-85 application 128002' child key of a BIP-39 mnemonic. -/
def deriveBip85OperationalKey (mnemonicStr passphraseStr : String) (identity index : UInt32) :
    Except Stop (FixedBytes 32) := do
  let mnemonic ← Stop.mapErr (fun e => .usageError ("Invalid BIP-39 mnemonic: " ++ e))
    (crates.bip.mnemonic (trimmedString mnemonicStr))
  let seed := crates.bip.seed mnemonic (trimmedString passphraseStr)
  let rootXprv ← Stop.mapErr (fun e => .usageError ("BIP-32 root key derivation failed: " ++ e))
    (crates.bip.root seed)
  let pathStr := "m/83696968'/128002'/" ++ toString identity.toNat ++ "'/" ++
    toString index.toNat ++ "'"
  let path ← Stop.mapErr
    (fun e => .usageError ("Invalid BIP-85 derivation path '" ++ pathStr ++ "': " ++ e))
    (crates.bip.path pathStr)
  let currentXprv ← path.foldlM (fun xprv childNum =>
    Stop.mapErr (fun e => .usageError ("BIP-85 child derivation failed: " ++ e))
      (crates.bip.deriveChild xprv childNum)) rootXprv
  let childPriv := crates.bip.privateKey currentXprv
  let hmacRes := crates.digests.hmacSha512 (Text.utf8 "bip-entropy-from-k") childPriv.toList
  let operationalSk := hmacRes.slice 0 32
  if operationalSk = FixedBytes.zeros 32 then
    throw (.failed (.usageError "Derived BIP-85 scalar is zero"))
  else
    let _ ← Stop.mapErr
      (fun e => .usageError ("Derived BIP-85 scalar invalid on secp256k1: " ++ e))
      (crates.curve.signingKey operationalSk)
    return operationalSk

/-! ## Sources of the secret key -/

/-- `File::from_raw_fd`, which panics on -1 and takes every other number. -/
def fromRawFd (fd : Int) : Except Stop Reader :=
  if fd = -1 then throw (.panicked "fd != -1") else return host.descriptor fd

/-- The text behind the descriptor that `option` names. -/
def readSecretFd (option : String) (fd : Int) : Except Stop String := do
  let reader ← fromRawFd host fd
  Stop.mapErr (fun e => .usageError ("Failed to read " ++ option ++ ": " ++ e.message))
    (asString (readToEnd reader).1)

/-- The file `~/.config/pipe-k1/git_key`, else `~/.config/pipek1/git_key`. -/
def gitKeyPath (home : String) : Option PathBuf :=
  let p1 := (PathBuf.parse home).join (PathBuf.parse ".config/pipe-k1/git_key")
  let p2 := (PathBuf.parse home).join (PathBuf.parse ".config/pipek1/git_key")
  if host.isFile p1 then some p1 else if host.isFile p2 then some p2 else none

/-- The `git_key` fallback: unreadable or malformed files are passed over. -/
def gitFallbackKey : Option (FixedBytes 32) := do
  let home ← host.envVar "HOME"
  let path ← gitKeyPath host home
  let text ← (asString (host.fileContents path)).toOption
  (parseKeyBytes crates text).toOption

/-- `env::var(name).or_else(|_| env::var(legacy)).ok()`. -/
def envVarOr (name legacy : String) : Option String := (host.envVar name).or (host.envVar legacy)

/-- The mnemonic: behind `--mnemonic-fd`, else in the environment. -/
def mnemonicInput (args : KeyIntakeArgs) : Except Stop (Option String) :=
  match args.mnemonicFd with
  | some fd => return some (← readSecretFd host "--mnemonic-fd" fd)
  | none => return envVarOr host "PIPE_K1_MNEMONIC" "PIPEK1_MNEMONIC"

/-- The passphrase: behind `--passphrase-fd`, else in the environment, else empty. -/
def passphraseInput (args : KeyIntakeArgs) : Except Stop String :=
  match args.passphraseFd with
  | some fd => readSecretFd host "--passphrase-fd" fd
  | none => return (envVarOr host "PIPE_K1_PASSPHRASE" "PIPEK1_PASSPHRASE").getD ""

/-- Resolves the secret key: `--sec-fd`, `--sec-file`, a mnemonic (descriptor or
environment), the environment key, the git key file. -/
@[irreducible] def loadSecretKey (args : KeyIntakeArgs) : Except Stop (FixedBytes 32) :=
  match args.secFd, args.secFile with
  | some fd, _ => do
      let s ← readSecretFd host "--sec-fd" fd
      Stop.mapErr .usageError (parseKeyBytes crates s)
  | none, some path => do
      let s ← Stop.mapErr (fun e => .usageError ("Failed to read --sec-file: " ++ e.message))
        (asString (host.fileContents (PathBuf.parse path)))
      Stop.mapErr .usageError (parseKeyBytes crates s)
  | none, none => do
      match ← mnemonicInput host args with
      | some mnemonic => do
          let passphrase ← passphraseInput host args
          deriveBip85OperationalKey crates mnemonic passphrase
            (args.bip85Identity.getD 0) (args.bip85Index.getD 0)
      | none =>
          match envVarOr host "PIPE_K1_SEC_KEY" "PIPEK1_SEC_KEY", gitFallbackKey crates host with
          | some val, _ => Stop.mapErr .usageError (parseKeyBytes crates val)
          | none, some k => return k
          | none, none => throw (.failed (.usageError ("No secret key provided: set " ++
              "PIPE_K1_SEC_KEY (or PIPEK1_SEC_KEY), pass --sec-fd / --sec-file, or supply " ++
              "--mnemonic-fd / PIPE_K1_MNEMONIC for BIP-85")))

/-- No key comes from the temporary files. -/
theorem loadSecretKey_withDisk (disk : Disk) (args : KeyIntakeArgs) :
    loadSecretKey crates { host with disk := disk } args = loadSecretKey crates host args := by
  unfold loadSecretKey
  rfl

end PipeK1
