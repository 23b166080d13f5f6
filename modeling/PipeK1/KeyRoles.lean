import PipeK1.Cli
import PipeK1.Library.Bech32
import PipeK1.RoundTrip

/-!
# The roles of keys

Public and secret keys are read by one parser. It accepts a Bech32 text of either
kind, and of any kind whose human-readable part only begins like one of the two.
-/

set_option autoImplicit false

namespace PipeK1

open ByteData ByteReader Effects

variable {crates : Crates}

inductive KeyRole where
  | publicKey
  | secretKey
deriving DecidableEq

def KeyRole.hrp : KeyRole → String
  | .publicKey => "npub"
  | .secretKey => "nsec"

/-- The text is a key of this role: 64 hexadecimal digits, or Bech32 with the role's own
human-readable part and a payload of 32 bytes. -/
def KeyText (crates : Crates) (role : KeyRole) (text : String) (key : FixedBytes 32) : Prop :=
  ((trimmedString text).toList.length = 64 ∧
      (∀ c ∈ (trimmedString text).toList, Hex.isDigit c = true) ∧
      crates.encodings.hexDecode (trimmedString text) = .ok key.toList) ∨
    crates.encodings.bech32Decode (trimmedString text) = .ok (role.hrp, key.toList)

/-- An input of this role takes the text as this key. There is one case for each input. -/
inductive TakesKey (crates : Crates) : KeyRole → String → FixedBytes 32 → Prop where
  | recipient {host rounds args session} :
      encryptSession crates host rounds args = .ok session →
      TakesKey crates .publicKey args.recipientHex session.recipX
  | sender {args text senderPub notice} :
      args.expectedSender = some text → compareSender crates args senderPub = .ok notice →
      TakesKey crates .publicKey text senderPub
  | signer {options text signerPk process process'} :
      options.expectedPub = some text →
      checkSigner crates options signerPk process = .ok () process' →
      TakesKey crates .publicKey text signerPk
  | trustEntry {line token signer} :
      (Text.splitWhitespace (Text.trim line)).getLast? = some token →
      parseSignerLine crates line = some signer →
      TakesKey crates .publicKey (String.ofList token) signer.2
  /-- A key id that parses is the only signing key let through. -/
  | gitKeyId {args text key} :
      args.keyId = some text →
      (∀ pkX process, (∃ process', checkKeyId crates args pkX process = .ok () process') ↔
        pkX = key) →
      TakesKey crates .publicKey text key
  | secretDescriptor {host args fd text key} :
      args.secFd = some fd → readSecretFd host "--sec-fd" fd = .ok text →
      loadSecretKey crates host args = .ok key → TakesKey crates .secretKey text key
  | secretFile {host args path text key} :
      args.secFd = none → args.secFile = some path →
      asString (host.fileContents (PathBuf.parse path)) = .ok text →
      loadSecretKey crates host args = .ok key → TakesKey crates .secretKey text key
  | environment {host args text key} :
      args.secFd = none → args.secFile = none → mnemonicInput host args = .ok none →
      envVarOr host "PIPE_K1_SEC_KEY" "PIPEK1_SEC_KEY" = some text →
      loadSecretKey crates host args = .ok key → TakesKey crates .secretKey text key
  | gitKeyFile {host args home path text key} :
      args.secFd = none → args.secFile = none → mnemonicInput host args = .ok none →
      envVarOr host "PIPE_K1_SEC_KEY" "PIPEK1_SEC_KEY" = none →
      host.envVar "HOME" = some home → gitKeyPath host home = some path →
      asString (host.fileContents path) = .ok text →
      loadSecretKey crates host args = .ok key → TakesKey crates .secretKey text key

/-- The parser takes the text for Bech32. -/
def LooksBech32 (text : String) : Prop :=
  "nsec1".toList <+: (trimmedString text).toList ∨ "npub1".toList <+: (trimmedString text).toList

/-- If the text is taken for Bech32 and decodes to 32 bytes, then what stands before its last
`1` is the human-readable part of the role. -/
def OwnPrefix (crates : Crates) (role : KeyRole) (text : String) : Prop :=
  LooksBech32 text → ∀ hrp data,
    crates.encodings.bech32Decode (trimmedString text) = .ok (hrp, data) → data.length = 32 →
      ∃ after, Bech32.splitLast (trimmedString text).toList = some (role.hrp.toList, after)

/-- What `hex` and `bech32` document. -/
structure Encodings.Documented (encodings : Encodings) : Prop where
  hex_digits : ∀ text data, encodings.hexDecode text = .ok data →
    text.toList.length = 2 * data.length ∧ ∀ c ∈ text.toList, Hex.isDigit c = true
  hexEncode_digits : ∀ data, ∀ c ∈ (encodings.hexEncode data).toList, Hex.isDigit c = true
  hexDecode_hexEncode : ∀ data, encodings.hexDecode (encodings.hexEncode data) = .ok data
  bech32_splits : ∀ text hrp data, encodings.bech32Decode text = .ok (hrp, data) →
    ∃ after, Bech32.splitLast text.toList = some (hrp.toList, after)
  bech32Encode_solid : ∀ key : FixedBytes 32,
    ∀ c ∈ (encodings.bech32Encode "npub" key.toList).toList, Text.isWhitespace c = false
  bech32Decode_bech32Encode : ∀ key : FixedBytes 32,
    encodings.bech32Decode (encodings.bech32Encode "npub" key.toList) = .ok ("npub", key.toList)

/-! ## The parser -/

theorem parseKeyBytes_bech32 {text : String} (marked : LooksBech32 text) {key : FixedBytes 32} :
    parseKeyBytes crates text = .ok key ↔
      ∃ hrp, crates.encodings.bech32Decode (trimmedString text) = .ok (hrp, key.toList) := by
  have either : ("nsec1".toList.isPrefixOf (trimmedString text).toList ||
      "npub1".toList.isPrefixOf (trimmedString text).toList) = true := by
    rw [Bool.or_eq_true, List.isPrefixOf_iff_prefix, List.isPrefixOf_iff_prefix]
    exact marked
  constructor
  · intro accepted
    simp only [parseKeyBytes, either, ↓reduceIte] at accepted
    split at accepted
    · cases accepted
    · next hrp data decoded =>
        split at accepted
        · cases accepted
        · next out sized =>
            cases accepted
            rw [FixedBytes.ofList?_eq_some_iff.mp sized]
            exact ⟨hrp, decoded⟩
  · rintro ⟨hrp, decoded⟩
    simp only [parseKeyBytes, either, ↓reduceIte, decoded, FixedBytes.ofList?_toList]

theorem parseKeyBytes_hex_iff {text : String} (unmarked : ¬ LooksBech32 text)
    {key : FixedBytes 32} :
    parseKeyBytes crates text = .ok key ↔
      crates.encodings.hexDecode (trimmedString text) = .ok key.toList := by
  have neither : ("nsec1".toList.isPrefixOf (trimmedString text).toList ||
      "npub1".toList.isPrefixOf (trimmedString text).toList) = false := by
    rw [Bool.eq_false_iff, ne_eq, Bool.or_eq_true, List.isPrefixOf_iff_prefix,
      List.isPrefixOf_iff_prefix]
    exact unmarked
  constructor
  · intro accepted
    simp only [parseKeyBytes, neither, Bool.false_eq_true, ↓reduceIte] at accepted
    split at accepted
    · cases accepted
    · next data decoded =>
        split at accepted
        · cases accepted
        · next out sized =>
            cases accepted
            rw [FixedBytes.ofList?_eq_some_iff.mp sized]
            exact decoded
  · intro decoded
    simp only [parseKeyBytes, neither, Bool.false_eq_true, ↓reduceIte, decoded,
      FixedBytes.ofList?_toList]

/-! ## The inputs -/

theorem orFail_eq_ok {α ε : Type} {convert : ε → Pipek1Error} {outcome : Except ε α}
    {process process' : Process} {value : α}
    (finished : orFail convert outcome process = .ok value process') : outcome = .ok value := by
  cases outcome with
  | ok other =>
      cases finished
      rfl
  | error e => cases finished

theorem checkKeyId_ok_iff {args : ShimArgs} {text : String} (named : args.keyId = some text)
    {key : FixedBytes 32} (parsed : parseKeyBytes crates text = .ok key) (pkX : FixedBytes 32)
    (process : Process) :
    (∃ process', checkKeyId crates args pkX process = .ok () process') ↔ pkX = key := by
  simp only [checkKeyId, named, parsed]
  split
  · next other =>
      refine iff_of_false ?_ fun same => other same.symm
      rintro ⟨process', finished⟩
      obtain ⟨_, _, _, finished⟩ := bind_eq_ok_iff.mp finished
      obtain ⟨_, _, _, finished⟩ := bind_eq_ok_iff.mp finished
      cases finished
  · next same => exact iff_of_true ⟨process, rfl⟩ (not_not.mp same).symm

theorem checkKeyId_of_error {args : ShimArgs} {text error : String}
    (named : args.keyId = some text) (failed : parseKeyBytes crates text = .error error)
    (pkX : FixedBytes 32) (process : Process) :
    checkKeyId crates args pkX process = .ok () process := by
  simp only [checkKeyId, named, failed]
  rfl

theorem parseSignerLine_eq_some {line token : List Char} {signer : Signer}
    (last : (Text.splitWhitespace (Text.trim line)).getLast? = some token)
    (entry : parseSignerLine crates line = some signer) :
    parseKeyBytes crates (String.ofList token) = .ok signer.2 := by
  unfold parseSignerLine at entry
  dsimp only at entry
  split at entry
  · cases entry
  · rw [last] at entry
    dsimp only at entry
    split at entry
    · cases entry
    · next keyBytes parsed =>
        cases entry
        exact parsed

/-- A key from another source than the BIP-85 derivation is what its text parses to. -/
theorem loadSecretKey_parses {host : Host} {args : KeyIntakeArgs} {key : FixedBytes 32}
    (loaded : loadSecretKey crates host args = .ok key) :
    (∀ fd text, args.secFd = some fd → readSecretFd host "--sec-fd" fd = .ok text →
      parseKeyBytes crates text = .ok key) ∧
    (args.secFd = none → ∀ path text, args.secFile = some path →
      asString (host.fileContents (PathBuf.parse path)) = .ok text →
      parseKeyBytes crates text = .ok key) ∧
    (args.secFd = none → args.secFile = none → mnemonicInput host args = .ok none →
      (∀ text, envVarOr host "PIPE_K1_SEC_KEY" "PIPEK1_SEC_KEY" = some text →
        parseKeyBytes crates text = .ok key) ∧
      (envVarOr host "PIPE_K1_SEC_KEY" "PIPEK1_SEC_KEY" = none → ∀ home path text,
        host.envVar "HOME" = some home → gitKeyPath host home = some path →
        asString (host.fileContents path) = .ok text → parseKeyBytes crates text = .ok key)) := by
  refine ⟨fun fd text given read => ?_, fun absent path text given read => ?_,
    fun absent unnamed unset => ⟨fun text given => ?_, fun empty home path text set found read => ?_⟩⟩
  · simp only [loadSecretKey, given, read, bind, Except.bind] at loaded
    exact Stop.mapErr_eq_ok_iff.mp loaded
  · simp only [loadSecretKey, absent, given, read, Stop.mapErr_ok, bind, Except.bind] at loaded
    exact Stop.mapErr_eq_ok_iff.mp loaded
  · simp only [loadSecretKey, absent, unnamed, unset, given, bind, Except.bind] at loaded
    exact Stop.mapErr_eq_ok_iff.mp loaded
  · have fallback : gitFallbackKey crates host = (parseKeyBytes crates text).toOption := by
      simp only [gitFallbackKey, set, found, read, bind, Option.bind, Except.toOption]
    simp only [loadSecretKey, absent, unnamed, unset, empty, fallback, bind, Except.bind] at loaded
    cases parsed : parseKeyBytes crates text with
    | error e =>
        rw [parsed] at loaded
        cases loaded
    | ok other =>
        rw [parsed] at loaded
        cases loaded
        rfl

/-- Every input uses the one parser. -/
theorem TakesKey.parses {role : KeyRole} {text : String} {key : FixedBytes 32}
    (taken : TakesKey crates role text key) : parseKeyBytes crates text = .ok key := by
  cases taken with
  | recipient accepted =>
      obtain ⟨_, _, keys⟩ := encryptSession_eq_ok accepted
      exact keys.recipient
  | sender expected compared =>
      simp only [compareSender, expected] at compared
      split at compared
      · cases compared
      · next expBytes parsed =>
          split at compared
          · cases compared
          · next same =>
              rw [not_not.mp same] at parsed
              exact parsed
  | signer expected checked =>
      simp only [checkSigner, expected] at checked
      obtain ⟨expPk, middle, parsed, compared⟩ := bind_eq_ok_iff.mp checked
      split at compared
      · cases compared
      · next same =>
          rw [← not_not.mp same]
          exact orFail_eq_ok parsed
  | trustEntry last entry => exact parseSignerLine_eq_some last entry
  | gitKeyId named names =>
      cases parsed : parseKeyBytes crates text with
      | error e =>
          -- A key id that does not parse would let every signing key through.
          have every : ∀ pkX, pkX = key := fun pkX =>
            (names pkX (Process.start [])).mp ⟨_, checkKeyId_of_error named parsed pkX _⟩
          have same := (every (FixedBytes.zeros 32)).trans
            (every ⟨List.replicate 32 1, List.length_replicate⟩).symm
          cases same
      | ok other =>
          rw [(names other (Process.start [])).mp
            ((checkKeyId_ok_iff named parsed other _).mpr rfl)]
  | secretDescriptor given read loaded => exact (loadSecretKey_parses loaded).1 _ _ given read
  | secretFile absent given read loaded =>
      exact (loadSecretKey_parses loaded).2.1 absent _ _ given read
  | environment absent unnamed none given loaded =>
      exact ((loadSecretKey_parses loaded).2.2 absent unnamed none).1 _ given
  | gitKeyFile absent unnamed none unset set found read loaded =>
      exact ((loadSecretKey_parses loaded).2.2 absent unnamed none).2 unset _ _ _ set found read

/-- The environment holds one variable. -/
def environmentHost (text : String) : Host where
  envVar name := if name = "PIPE_K1_SEC_KEY" then some text else none
  descriptor _ := []
  fileContents _ := .error ⟨.other, "No such file or directory (os error 2)"⟩
  isFile _ := false
  isDir _ := false
  pathExists _ := false
  canonicalize _ := none
  currentDir := none
  gitOutput _ := none
  unixTime := .ok 0
  osEntropy := FixedBytes.zeros 32
  salt := FixedBytes.zeros 11
  spoolKey := FixedBytes.zeros 32
  disk := ⟨[], 0, ofBytes⟩

/-- Whatever parses is taken by an input of either role. -/
theorem exists_takesKey (role : KeyRole) {text : String} {key : FixedBytes 32}
    (parsed : parseKeyBytes crates text = .ok key) : TakesKey crates role text key := by
  cases role with
  | publicKey =>
      exact @TakesKey.gitKeyId crates { keyId := some text } text key rfl
        fun pkX process => checkKeyId_ok_iff rfl parsed pkX process
  | secretKey =>
      have given : envVarOr (environmentHost text) "PIPE_K1_SEC_KEY" "PIPEK1_SEC_KEY" =
          some text := rfl
      have mnemonic : mnemonicInput (environmentHost text) {} = .ok none := rfl
      refine @TakesKey.environment crates (environmentHost text) {} text key rfl rfl mnemonic given ?_
      simp only [loadSecretKey, mnemonic, given, parsed]
      rfl

/-! ## Texts -/

theorem isDigit_spec {c : Char} (digit : Hex.isDigit c = true) :
    Text.isWhitespace c = false ∧ c ≠ 'n' := by
  have bound : c.toNat < 128 := by
    simp only [Hex.isDigit, Bool.or_eq_true, Bool.and_eq_true, decide_eq_true_eq] at digit
    rcases digit with (⟨_, high⟩ | ⟨_, high⟩) | ⟨_, high⟩
    · exact Nat.lt_of_le_of_lt high (by decide)
    · exact Nat.lt_of_le_of_lt high (by decide)
    · exact Nat.lt_of_le_of_lt high (by decide)
  have all : ∀ n < 128, Hex.isDigit (Char.ofNat n) = true →
      Text.isWhitespace (Char.ofNat n) = false ∧ Char.ofNat n ≠ 'n' := by
    decide
  have here := all c.toNat bound
  rw [Char.ofNat_toNat] at here
  exact here digit

theorem trimmedString_of_solid {text : String}
    (solid : ∀ c ∈ text.toList, Text.isWhitespace c = false) : trimmedString text = text := by
  rw [trimmedString, Text.trim_of_solid solid, String.ofList_toList]

theorem LooksBech32.mem {text : String} (marked : LooksBech32 text) :
    'n' ∈ (trimmedString text).toList := by
  rcases marked with nsec | npub
  · exact nsec.subset (by decide)
  · exact npub.subset (by decide)

/-- Hexadecimal digits are not taken for Bech32. -/
theorem not_looksBech32 {text : String}
    (digits : ∀ c ∈ (trimmedString text).toList, Hex.isDigit c = true) : ¬ LooksBech32 text :=
  fun marked => (isDigit_spec (digits 'n' marked.mem)).2 rfl

section Roles

variable (documented : crates.encodings.Documented)
include documented

/-- Of the texts that parse, those with the role's prefix are keys of that role. -/
theorem keyText_iff_of_parses (role : KeyRole) {text : String} {key : FixedBytes 32}
    (parsed : parseKeyBytes crates text = .ok key) :
    KeyText crates role text key ↔ OwnPrefix crates role text := by
  by_cases marked : LooksBech32 text
  · obtain ⟨hrp, decoded⟩ := (parseKeyBytes_bech32 marked).mp parsed
    obtain ⟨after, splits⟩ := documented.bech32_splits _ _ _ decoded
    constructor
    · rintro (⟨_, digits, _⟩ | own) _ hrp' data decoded' _
      · exact absurd marked (not_looksBech32 digits)
      · rw [own] at decoded
        cases decoded
        exact ⟨after, splits⟩
    · intro own
      obtain ⟨after', splits'⟩ := own marked hrp key.toList decoded key.length_toList
      rw [splits, Option.some.injEq, Prod.mk.injEq, String.toList_inj] at splits'
      rw [splits'.1] at decoded
      exact .inr decoded
  · refine iff_of_true ?_ fun impossible => absurd impossible marked
    have decoded := (parseKeyBytes_hex_iff marked).mp parsed
    obtain ⟨length, digits⟩ := documented.hex_digits _ _ decoded
    rw [key.length_toList] at length
    exact .inl ⟨length, digits, decoded⟩

theorem parseKeyBytes_encodeNpub (key : FixedBytes 32) :
    parseKeyBytes crates (encodeNpub crates key) = .ok key := by
  have trimmed := trimmedString_of_solid (documented.bech32Encode_solid key)
  have decoded := documented.bech32Decode_bech32Encode key
  obtain ⟨after, splits⟩ := documented.bech32_splits _ _ _ decoded
  have marked : LooksBech32 (encodeNpub crates key) := by
    refine .inr ?_
    rw [encodeNpub, trimmed, Bech32.eq_of_splitLast splits]
    exact ⟨after, rfl⟩
  refine (parseKeyBytes_bech32 marked).mpr ⟨"npub", ?_⟩
  rw [encodeNpub, trimmed, decoded]

theorem parseKeyBytes_hexEncode (key : FixedBytes 32) :
    parseKeyBytes crates (crates.encodings.hexEncode key.toList) = .ok key := by
  have digits := documented.hexEncode_digits key.toList
  have trimmed := trimmedString_of_solid fun c member => (isDigit_spec (digits c member)).1
  have unmarked := @not_looksBech32 (crates.encodings.hexEncode key.toList) (by rwa [trimmed])
  rw [parseKeyBytes_hex_iff unmarked, trimmed, documented.hexDecode_hexEncode]

end Roles

/-- A stream that was begun names, in its header, a key that the text is a public key of. -/
def RecipientNamed (crates : Crates) (text : String) (final : Process) : Prop :=
  final.stdout = [] ∨ ∃ key, KeyText crates .publicKey text key ∧
    (final.stdout.drop 38).take 32 = key.toList

theorem Recorded.recipient {host : Host} {session : EncryptSession crates} {final : Process}
    (begun : Recorded [.stdout (session.header host).toList] final) :
    (final.stdout.drop 38).take 32 = session.recipX.toList := by
  obtain ⟨later, events⟩ := begun
  have field : (session.header host).slice 38 32 = session.recipX :=
    wireHeader_recipPub session.mode session.ephPubX session.recipX host.salt
      (session.hmac16 host)
  have written : final.stdout =
      (session.header host).toList ++ later.flatMap Event.stdoutBytes := by
    rw [Process.stdout, ← events]
    rfl
  have width : (session.header host).toList.length = 97 := FixedBytes.length_toList _
  rw [← field, FixedBytes.toList_slice _ 38 32 (by decide), written,
    List.drop_append_of_le_length (by omega),
    List.take_append_of_le_length (by rw [List.length_drop]; omega)]

theorem recipient_of_encrypted {host : Host} {rounds : Nat} {args : EncryptArgs}
    {key : FixedBytes 32} {stdin : Reader} {final : Process}
    (encrypted : runEncrypt crates host rounds args (Process.start stdin) = .ok () final)
    (named : parseKeyBytes crates args.recipientHex = .ok key) :
    (final.stdout.drop 38).take 32 = key.toList := by
  obtain ⟨session, _, _, _, run⟩ := (runEncrypt_ends crates host rounds args stdin).ok encrypted
  obtain ⟨_, _, keys⟩ := encryptSession_eq_ok run.session_eq
  have begun := (runEncrypt_header run.session_eq stdin).ok encrypted
  rw [begun.recipient, Except.ok.inj (keys.recipient.symm.trans named)]

theorem runEncrypt_names_recipient (documented : crates.encodings.Documented) (host : Host)
    (rounds : Nat) (args : EncryptArgs) (own : OwnPrefix crates .publicKey args.recipientHex)
    (stdin : Reader) :
    Ends (fun _ final => RecipientNamed crates args.recipientHex final)
      (fun _ final => RecipientNamed crates args.recipientHex final)
      (runEncrypt crates host rounds args (Process.start stdin)) := by
  cases accepted : encryptSession crates host rounds args with
  | error stop =>
      rw [runEncrypt, accepted]
      exact .inl rfl
  | ok session =>
      obtain ⟨_, _, keys⟩ := encryptSession_eq_ok accepted
      have named : ∀ final, Recorded [.stdout (session.header host).toList] final →
          RecipientNamed crates args.recipientHex final := fun final begun =>
        .inr ⟨session.recipX, (keyText_iff_of_parses documented .publicKey keys.recipient).mpr own,
          begun.recipient⟩
      exact (runEncrypt_header accepted stdin).mono (fun _ final begun => named final begun)
        (fun _ final begun => named final begun)

/-- An input takes only keys of its own role exactly when the text that is given to it does not
decode under another human-readable part. Own keys are always read back, and with such a text
the encryptor puts nothing but a public key into its header. -/
theorem inputs_keep_roles_iff (crates : Crates) (documented : crates.encodings.Documented) :
    (∀ role text, (∀ key, TakesKey crates role text key → KeyText crates role text key) ↔
      OwnPrefix crates role text) ∧
    (∀ key : FixedBytes 32, parseKeyBytes crates (encodeNpub crates key) = .ok key ∧
      parseKeyBytes crates (crates.encodings.hexEncode key.toList) = .ok key) ∧
    ∀ host rounds args stdin, OwnPrefix crates .publicKey args.recipientHex →
      Ends (fun _ final => RecipientNamed crates args.recipientHex final)
        (fun _ final => RecipientNamed crates args.recipientHex final)
        (runEncrypt crates host rounds args (Process.start stdin)) := by
  refine ⟨fun role text => ⟨fun kept => ?_, fun own key taken => ?_⟩,
    fun key => ⟨parseKeyBytes_encodeNpub documented key, parseKeyBytes_hexEncode documented key⟩,
    fun host rounds args stdin own =>
      runEncrypt_names_recipient documented host rounds args own stdin⟩
  · intro marked hrp data decoded length
    have parsed : parseKeyBytes crates text = .ok ⟨data, length⟩ :=
      (parseKeyBytes_bech32 marked).mpr ⟨hrp, decoded⟩
    have own := (keyText_iff_of_parses documented role parsed).mp
      (kept _ (exists_takesKey role parsed))
    exact own marked hrp data decoded length
  · exact (keyText_iff_of_parses documented role taken.parses).mpr own

/-! ## On the reference crates -/

namespace Reference

theorem bech32Decode_eq : packages.encodings.bech32Decode = Bech32.decode := rfl

theorem bech32Encode_eq : packages.encodings.bech32Encode = Bech32.encode := rfl

theorem encodings_documented : packages.encodings.Documented where
  hex_digits _ _ decoded := Hex.decode_digits decoded
  hexEncode_digits data c member := by
    have digits : ∀ value < 16, Hex.isDigit (Hex.digit value) = true := by decide
    obtain ⟨value, small, rfl⟩ := Hex.exists_digit member
    exact digits value small
  hexDecode_hexEncode := Hex.decode_encode
  bech32_splits _ _ _ decoded := Bech32.splitLast_of_decode decoded
  bech32Encode_solid key c member := by
    rw [bech32Encode_eq, Bech32.toList_encode, List.mem_append, List.mem_cons] at member
    rcases member with front | rfl | symbol
    · exact @Text.solid_of_all "npub".toList (by decide) c front
    · decide
    · obtain ⟨value, small, rfl⟩ := Bech32.mem_symbols symbol
      exact (Bech32.symbol_spec value small).2.2.1
  bech32Decode_bech32Encode key := by
    have readable : Bech32.Readable "npub".toList :=
      Bech32.readable_of_all (by decide) (by decide) (by decide)
    have small : key.toList.length ≤ 500 := by
      rw [key.length_toList]
      decide
    rw [bech32Decode_eq, bech32Encode_eq]
    exact Bech32.decode_encode readable small

/-- Bytes in the shape of a secret key. -/
def nsecText (key : FixedBytes 32) : String := Bech32.encode "nsec" key.toList

theorem nsecText_parses (key : FixedBytes 32) :
    parseKeyBytes packages (nsecText key) = .ok key ∧
      ¬ KeyText packages .publicKey (nsecText key) key := by
  have readable : Bech32.Readable "nsec".toList :=
    Bech32.readable_of_all (by decide) (by decide) (by decide)
  have small : key.toList.length ≤ 500 := by
    rw [key.length_toList]
    decide
  have decoded : Bech32.decode (nsecText key) = .ok ("nsec", key.toList) :=
    Bech32.decode_encode readable small
  have text : (nsecText key).toList = "nsec1".toList ++ Bech32.symbols "nsec".toList key.toList :=
    (Bech32.toList_encode "nsec" key.toList).trans rfl
  have trimmed : trimmedString (nsecText key) = nsecText key := by
    refine trimmedString_of_solid fun c member => ?_
    rw [text, List.mem_append] at member
    rcases member with front | symbol
    · exact @Text.solid_of_all "nsec1".toList (by decide) c front
    · obtain ⟨value, small, rfl⟩ := Bech32.mem_symbols symbol
      exact (Bech32.symbol_spec value small).2.2.1
  have marked : LooksBech32 (nsecText key) := by
    refine .inl ?_
    rw [trimmed, text]
    exact List.prefix_append _ _
  constructor
  · refine (parseKeyBytes_bech32 marked).mpr ⟨"nsec", ?_⟩
    rw [trimmed, bech32Decode_eq, decoded]
  · rintro (⟨_, digits, _⟩ | own)
    · exact not_looksBech32 digits marked
    · rw [trimmed, bech32Decode_eq] at own
      exact absurd (Prod.mk.inj (Except.ok.inj (decoded.symm.trans own))).1 (by decide)

end Reference

open Reference in
/-- The key of the sample recipient is read from its npub, but not only from that. -/
theorem inputs_keep_roles_iff_sample :
    parseKeyBytes packages (encodeNpub packages (publicBytes sampleRecipient)) =
        .ok (publicBytes sampleRecipient) ∧
      ¬ OwnPrefix packages .publicKey (nsecText (publicBytes sampleRecipient)) := by
  obtain ⟨roles, back, _⟩ := inputs_keep_roles_iff packages encodings_documented
  obtain ⟨parsed, other⟩ := nsecText_parses (publicBytes sampleRecipient)
  exact ⟨(back _).1, fun own => other ((roles _ _).mpr own _ (exists_takesKey .publicKey parsed))⟩

open Reference in
/-- An nsec text after `--recipient` is taken, and its payload goes into the header. -/
theorem encrypt_copies_nsec :
    TakesKey packages .publicKey (nsecText (publicBytes sampleRecipient))
        (publicBytes sampleRecipient) ∧
      ¬ KeyText packages .publicKey (nsecText (publicBytes sampleRecipient))
        (publicBytes sampleRecipient) ∧
      ∃ final, runEncrypt packages (keyHost sampleSender sampleEphemeral) 0
          ⟨nsecText (publicBytes sampleRecipient), 0x02, {}, none⟩
          (Process.start (ofBytes sampleData)) = .ok () final ∧
        (final.stdout.drop 38).take 32 = (publicBytes sampleRecipient).toList := by
  obtain ⟨parsed, other⟩ := nsecText_parses (publicBytes sampleRecipient)
  have agree : Correspondents packages (keyHost sampleSender sampleEphemeral)
      (keyHost sampleRecipient sampleEphemeral) 0
      ⟨nsecText (publicBytes sampleRecipient), 0x02, {}, none⟩
      (openArgs true sampleSender false) (secretBytes sampleRecipient) sampleRecipient :=
    { correspondents ChaCha20Poly1305.cipher sampleSender sampleRecipient sampleEphemeral 0 true
        false with
      named := parsed
      mode := .inl ⟨rfl, rfl⟩ }
  obtain ⟨final, encrypted⟩ := agree.encrypts lawful.toEncryptLaws (smooth_ofBytes sampleData)
    (by decide)
  exact ⟨exists_takesKey .publicKey parsed, other, final, encrypted,
    recipient_of_encrypted encrypted parsed⟩

end PipeK1
