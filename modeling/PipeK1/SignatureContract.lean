import PipeK1.VerifyContract
import PipeK1.ShimContract

/-!
# Detached signatures end to end

What `sign` and the git shim print is accepted by `verify` and by the shim on
the same data, and they report the key that signed. The timestamp is reported
by the shim alone.
-/

set_option autoImplicit false

namespace PipeK1

open ByteData ByteReader Effects

variable {crates : Crates} {host : Host}

/-! ## Signature files -/

/-- A file that either reader unpacks to a payload of this signer. -/
def SignatureFile (crates : Crates) (sigRaw data : Bytes) (signer : FixedBytes 32)
    (timestamp : UInt32) : Prop :=
  ∃ payload, detachArmor crates sigRaw = .ok payload.toList ∧
    SignedBy crates signer (crates.digests.sha256 data) timestamp payload

theorem signatureFile_armor (base64 : Base64Laws crates.encodings) {label : String}
    (printed : label ∈ printedLabels) {before : List (List Char)}
    (outside : ∀ line ∈ before, OutsideArmor line) {data : Bytes} {signer : FixedBytes 32}
    {timestamp : UInt32} {payload : SignaturePayload}
    (signed : SignedBy crates signer (crates.digests.sha256 data) timestamp payload) :
    SignatureFile crates (linesText (before ++
      armorLines label (crates.encodings.base64Encode payload.toList))) data signer timestamp :=
  ⟨payload, detachArmor_armorLines base64 printed outside payload.toList, signed⟩

theorem signatureFile_armor_only (base64 : Base64Laws crates.encodings) {label : String}
    (printed : label ∈ printedLabels) {data : Bytes} {signer : FixedBytes 32}
    {timestamp : UInt32} {payload : SignaturePayload}
    (signed : SignedBy crates signer (crates.digests.sha256 data) timestamp payload) :
    SignatureFile crates (linesText
      (armorLines label (crates.encodings.base64Encode payload.toList))) data signer timestamp := by
  have nothing : ∀ line ∈ ([] : List (List Char)), OutsideArmor line := fun _ impossible =>
    absurd impossible List.not_mem_nil
  exact signatureFile_armor base64 printed nothing signed

theorem signatureFile_raw {data : Bytes} {signer : FixedBytes 32} {timestamp : UInt32}
    {payload : SignaturePayload}
    (signed : SignedBy crates signer (crates.digests.sha256 data) timestamp payload)
    (unmarked : ∀ text, Text.fromUtf8 payload.toList = some text → beginsArmor text = false) :
    SignatureFile crates payload.toList data signer timestamp :=
  ⟨payload, detachArmor_raw unmarked, signed⟩

/-! ## Signing runs -/

/-- A host from which this secret key is loaded, and its clock. -/
structure SigningHost (crates : Crates) (host : Host) (keyArgs : KeyIntakeArgs)
    (secret : FixedBytes 32) (timestamp : UInt32) : Prop where
  loaded : loadSecretKey crates host keyArgs = .ok secret
  clock : ∃ seconds, host.unixTime = .ok seconds ∧ UInt32.ofNat seconds = timestamp

theorem orStop_ok {α : Type} (value : α) (process : Process) :
    orStop (.ok value) process = .ok value process := rfl

theorem orFail_ok {α ε : Type} (convert : ε → Pipek1Error) (value : α) (process : Process) :
    orFail convert (.ok value) process = .ok value process := rfl

theorem absorbStdin_smooth {start : Process} (smooth : Smooth start.stdin) :
    ∃ absorbed after, absorbStdin crates none start = .ok absorbed after ∧
      absorbed.hashed = content start.stdin ∧ absorbed.spool = none ∧
      after.events = start.events := by
  have absorbing := @absorbStdin_ends crates none (fun _ begun => nomatch begun) start
  cases outcome : absorbStdin crates none start with
  | ok absorbed after =>
      obtain ⟨reached, whole⟩ := absorbing.ok outcome
      have unspooled : absorbed.spool = none := by
        have took := reached.spooled
        cases spooled : absorbed.spool with
        | none => rfl
        | some spool =>
            rw [spooled] at took
            cases took
      exact ⟨absorbed, after, rfl, whole smooth, unspooled, reached.events⟩
  | error stop after =>
      exact absurd ⟨smooth, fun _ begun => nomatch begun⟩ (absorbing.error outcome).2

theorem currentTimestamp_ok {keyArgs : KeyIntakeArgs} {secret : FixedBytes 32}
    {timestamp : UInt32} (signing : SigningHost crates host keyArgs secret timestamp)
    (process : Process) : currentTimestamp host process = .ok timestamp process := by
  obtain ⟨seconds, clock, rfl⟩ := signing.clock
  rw [currentTimestamp, clock, bind_of_ok (orFail_ok _ seconds process)]
  rfl

theorem linesText_four (first second third fourth : String) :
    Text.utf8 (first ++ "\n") ++ Text.utf8 (second ++ "\n") ++ Text.utf8 (third ++ "\n") ++
        Text.utf8 (fourth ++ "\n") =
      linesText [first.toList, second.toList, third.toList, fourth.toList] := by
  rw [utf8_newline, utf8_newline, utf8_newline, utf8_newline, ← linesText_append,
    ← linesText_append, ← linesText_append]
  rfl

theorem printArmored_ends (label : String) (payload : SignaturePayload) (process : Process) :
    Ends (fun _ after => after.stdout = process.stdout ++
        linesText (armorLines label (crates.encodings.base64Encode payload.toList)))
      (fun _ _ => False) (printArmored crates label payload process) := by
  have lines := linesText_four ("-----BEGIN " ++ label ++ "-----") ""
    (crates.encodings.base64Encode payload.toList) ("-----END " ++ label ++ "-----")
  simp only [printArmored, println, ends_bind, ends_writeStdout, stdout_record, Event.stdoutBytes]
  rw [List.append_assoc, List.append_assoc, List.append_assoc, ← List.append_assoc (Text.utf8 _),
    ← List.append_assoc (_ ++ _), lines]
  rfl

/-- The payload that a signing run makes of its input. -/
theorem signStdin_ends {keyArgs : KeyIntakeArgs} {secret : FixedBytes 32}
    {signingKey : crates.curve.SigningKey} {timestamp : UInt32}
    (signs : crates.curve.SignsAndVerifies)
    (valid : crates.curve.signingKey secret = .ok signingKey)
    (signing : SigningHost crates host keyArgs secret timestamp) (data : Bytes)
    {next : UInt32 → SignaturePayload → Run Unit} {process : Process}
    {post : Unit → Process → Prop} {failure : Stop → Process → Prop}
    (continues : ∀ payload,
      SignedBy crates (crates.curve.publicBytes signingKey) (crates.digests.sha256 data) timestamp
        payload → Ends post failure (next timestamp payload process)) :
    Ends post failure ((do
      let now ← currentTimestamp host
      let payload ← orStop
        (signStreamPayload crates signingKey (crates.digests.sha256 data) now)
      next now payload) process) := by
  obtain ⟨payload, made, signed⟩ :=
    signStreamPayload_exists signs valid (crates.digests.sha256 data) timestamp
  rw [bind_of_ok (currentTimestamp_ok signing process), made,
    bind_of_ok (orStop_ok payload process)]
  exact continues payload signed

/-- `-a` or `--armor`. -/
def AsksArmor (args : List String) : Prop := "-a" ∈ args ∨ "--armor" ∈ args

theorem signCommand_ends (signs : crates.curve.SignsAndVerifies)
    (base64 : Base64Laws crates.encodings) {args : List String} {secret : FixedBytes 32}
    {signingKey : crates.curve.SigningKey} {timestamp : UInt32}
    (valid : crates.curve.signingKey secret = .ok signingKey)
    (signing : SigningHost crates host (parseKeyIntakeArgs args) secret timestamp)
    {stdin : Reader} (smooth : Smooth stdin) :
    Ends (fun _ final => (AsksArmor args → SignatureFile crates final.stdout (content stdin)
          (crates.curve.publicBytes signingKey) timestamp) ∧
        (¬ AsksArmor args → final.stdout.length = signaturePayloadSize ∧
          ((∀ text, Text.fromUtf8 final.stdout = some text → beginsArmor text = false) →
            SignatureFile crates final.stdout (content stdin)
              (crates.curve.publicBytes signingKey) timestamp)))
      (fun _ _ => False) (signCommand crates host args (Process.start stdin)) := by
  have key : loadSigningKey crates host args (Process.start stdin) =
      .ok signingKey (Process.start stdin) := by
    rw [loadSigningKey, signing.loaded, bind_of_ok (orStop_ok secret _), valid]
    rfl
  obtain ⟨absorbed, after, absorbing, hashed, _, quiet⟩ :=
    @absorbStdin_smooth crates (Process.start stdin) smooth
  have silent : after.stdout = [] := Process.stdout_of_events_start quiet
  rw [signCommand, bind_of_ok key, bind_of_ok absorbing, hashed]
  apply signStdin_ends signs valid signing (content stdin)
  intro payload signed
  by_cases armor : AsksArmor args
  · have asked : "-a" ∈ args ∨ "--armor" ∈ args := armor
    simp only [asked, ↓reduceIte]
    refine (printArmored_ends "PIPE-K1 SIGNATURE" payload after).mono ?_ (fun _ _ => id)
    intro _ final written
    rw [silent, List.nil_append] at written
    refine ⟨fun _ => ?_, fun plain => absurd armor plain⟩
    rw [written]
    exact signatureFile_armor_only base64 (by decide) signed
  · have unasked : ¬ ("-a" ∈ args ∨ "--armor" ∈ args) := armor
    simp only [unasked, ↓reduceIte, ends_writeStdout, stdout_record]
    change _ ∧ (_ → (after.stdout ++ payload.toList).length = _ ∧ _)
    rw [silent, List.nil_append]
    exact ⟨fun wanted => absurd wanted armor,
      fun _ => ⟨payload.length_toList, signatureFile_raw signed⟩⟩

/-- A signing run of the shim, for a key that it is not told to reject. -/
structure ShimSigns (crates : Crates) (args : ShimArgs) (signer : FixedBytes 32) : Prop where
  isVerify : args.isVerify = false
  status : args.statusFd ≠ some (-1)
  keyId : ∀ kid, args.keyId = some kid → ∀ named, parseKeyBytes crates kid = .ok named →
    named = signer

/-- A key id that names no other key is let through. -/
theorem checkKeyId_of_matches {args : ShimArgs} {signer : FixedBytes 32}
    (matching : ∀ kid, args.keyId = some kid → ∀ named, parseKeyBytes crates kid = .ok named →
      named = signer) (process : Process) :
    checkKeyId crates args signer process = .ok () process := by
  unfold checkKeyId
  cases wanted : args.keyId with
  | none => rfl
  | some kid =>
      cases parsed : parseKeyBytes crates kid with
      | error e => simp only [parsed]; rfl
      | ok named =>
          have same := matching kid wanted named parsed
          simp only [parsed, same, ne_eq, not_true_eq_false, ↓reduceIte]
          rfl

theorem checkKeyId_ok {args : ShimArgs} {signer : FixedBytes 32}
    (signing : ShimSigns crates args signer) (process : Process) :
    checkKeyId crates args signer process = .ok () process :=
  checkKeyId_of_matches signing.keyId process

/-- What writing a status line records. -/
def statusEvents (statusFd : Option Int) (line : String) : List Event :=
  (statusFd.map fun fd => Event.status fd line).toList

theorem writeStatusFd_ok {statusFd : Option Int} (opened : statusFd ≠ some (-1)) (line : String)
    (process : Process) :
    writeStatusFd statusFd line process =
      .ok () ⟨process.stdin, process.events ++ statusEvents statusFd line⟩ := by
  cases statusFd with
  | none =>
      rw [statusEvents, Option.map_none, Option.toList_none, List.append_nil]
      rfl
  | some fd =>
      have valid : fd ≠ -1 := fun same => opened (congrArg some same)
      rw [writeStatusFd_some valid]
      rfl

/-- A status line is on standard output only when the descriptor is that one. -/
theorem stdout_statusEvents (stdin : Reader) (statusFd : Option Int) (line : String) :
    Process.stdout ⟨stdin, statusEvents statusFd line⟩ =
      if statusFd = some 1 then Text.utf8 line else [] := by
  cases statusFd with
  | none => rfl
  | some fd =>
      simp only [Process.stdout, statusEvents, Option.map_some, Option.toList_some,
        List.flatMap_singleton, Event.stdoutBytes, Option.some.injEq]

theorem shimSign_ends (signs : crates.curve.SignsAndVerifies)
    (base64 : Base64Laws crates.encodings) (hex : HexDigits crates.encodings) {args : ShimArgs}
    {secret : FixedBytes 32} {signingKey : crates.curve.SigningKey} {timestamp : UInt32}
    (valid : crates.curve.signingKey secret = .ok signingKey)
    (signing : SigningHost crates host {} secret timestamp)
    (wanted : ShimSigns crates args (crates.curve.publicBytes signingKey))
    {stdin : Reader} (smooth : Smooth stdin) :
    Ends (fun _ final => SignatureFile crates final.stdout (content stdin)
        (crates.curve.publicBytes signingKey) timestamp)
      (fun _ _ => False) (shimSign crates host args (Process.start stdin)) := by
  let start := Process.start stdin
  have whole : readToEnd stdin = (.ok (content stdin), []) := readToEnd_smooth smooth
  have reading : readAllStdin start = .ok (content stdin) ⟨[], []⟩ := by
    have read : onStdin readToEnd start = .ok (.ok (content stdin)) ⟨[], []⟩ := by
      change EStateM.Result.ok _ _ = _
      rw [Process.stdin_start, whole]
      rfl
    rw [readAllStdin, bind_of_ok read]
    rfl
  rw [shimSign, signing.loaded, bind_of_ok (orStop_ok secret start), valid,
    bind_of_ok (orFail_ok _ signingKey start)]
  change Ends _ _ ((checkKeyId crates args (crates.curve.publicBytes signingKey) >>= _) start)
  rw [bind_of_ok (checkKeyId_ok wanted start), bind_of_ok reading]
  apply signStdin_ends signs valid signing (content stdin)
  intro payload signed
  rw [bind_of_ok (writeStatusFd_ok wanted.status _ _)]
  refine (printArmored_ends "PGP SIGNATURE" payload _).mono ?_ (fun _ _ => id)
  intro _ final written
  rw [List.nil_append, stdout_statusEvents] at written
  rw [written]
  split
  · have line := utf8_newline (createdLine crates timestamp (crates.curve.publicBytes signingKey))
    change SignatureFile crates (Text.utf8 (createdLine crates timestamp
      (crates.curve.publicBytes signingKey) ++ "\n") ++ _) _ _ _
    rw [line, ← linesText_append]
    refine signatureFile_armor base64 (by decide) ?_ signed
    intro line member
    rw [List.mem_singleton.mp member]
    exact outsideArmor_createdLine hex timestamp _
  · exact signatureFile_armor_only base64 (by decide) signed

/-! ## Verifying runs -/

/-- What `verify` says on standard error about a signer. -/
def verifyNotices (crates : Crates) (expectedPub : Option String) (signer : FixedBytes 32) :
    List Event :=
  (if expectedPub.isNone then
    [.stderr ("Notice: Verifying against embedded untrusted pubkey " ++ encodeNpub crates signer ++
      "\n")]
  else []) ++
  [.stderr ("Notice: Cryptographic verification SUCCESS from " ++ encodeNpub crates signer ++ "\n")]

/-- `verify --sig` on this file, with no expected key or with the signer's. -/
structure AsksVerify (crates : Crates) (host : Host) (args : List String) (sigRaw : Bytes)
    (signer : FixedBytes 32) : Prop where
  signature : ∃ path, (verifyOptions args).sigPath = some path ∧
    host.fileContents (PathBuf.parse path) = .ok sigRaw
  expected : ∀ exp, (verifyOptions args).expectedPub = some exp →
    parseKeyBytes crates exp = .ok signer
  passThrough : (verifyOptions args).passThrough = false

theorem checkSigner_ok {options : VerifyOptions} {signer : FixedBytes 32}
    (expected : ∀ exp, options.expectedPub = some exp → parseKeyBytes crates exp = .ok signer)
    (process : Process) :
    (checkSigner crates options signer >>= fun _ => releaseVerified crates signer none) process =
      .ok () ⟨process.stdin,
        process.events ++ verifyNotices crates options.expectedPub signer⟩ := by
  cases named : options.expectedPub with
  | none =>
      have noticed : checkSigner crates options signer process = .ok () ⟨process.stdin,
          process.events ++ [.stderr ("Notice: Verifying against embedded untrusted pubkey " ++
            encodeNpub crates signer ++ "\n")]⟩ := by
        rw [checkSigner, named]
        rfl
      rw [bind_of_ok noticed, verifyNotices, Option.isNone_none, if_pos rfl, ← List.append_assoc]
      rfl
  | some exp =>
      have matched : checkSigner crates options signer process = .ok () process := by
        simp only [checkSigner, named]
        rw [expected exp named, bind_of_ok (orFail_ok _ signer process)]
        simp only [ne_eq, not_true_eq_false, ↓reduceIte]
        rfl
      rw [bind_of_ok matched]
      rfl

theorem verifyCommand_accepts {args : List String} {sigRaw : Bytes} {signer : FixedBytes 32}
    {timestamp : UInt32} {stdin : Reader}
    (file : SignatureFile crates sigRaw (content stdin) signer timestamp)
    (asks : AsksVerify crates host args sigRaw signer) (smooth : Smooth stdin) :
    Ends (fun _ final =>
        final.events = verifyNotices crates (verifyOptions args).expectedPub signer)
      (fun _ _ => False) (verifyCommand crates host args (Process.start stdin)) := by
  obtain ⟨payload, detached, signed⟩ := file
  obtain ⟨path, sigPath, readable⟩ := asks.signature
  have loaded : loadSignature crates host (verifyOptions args) = .ok payload :=
    (loadSignature_of_detached sigPath readable detached).trans (payloadOfBytes_toList payload)
  obtain ⟨absorbed, after, absorbing, hashed, unspooled, quiet⟩ :=
    @absorbStdin_smooth crates (Process.start stdin) smooth
  have accepted : verifyStreamPayload crates payload (crates.digests.sha256 (content stdin)) =
      .ok signer :=
    (verifyStreamPayload_eq_ok_iff crates).mpr ⟨signed.verifies, signed.signer_eq.symm⟩
  rw [Process.stdin_start] at hashed
  simp only [verifyCommand, asks.passThrough, Bool.false_eq_true, false_and, ↓reduceIte]
  rw [loaded, bind_of_ok (orFail_ok _ payload _), verifyStdin, asks.passThrough]
  simp only [Bool.false_eq_true, ↓reduceIte]
  rw [bind_of_ok absorbing, hashed, accepted, bind_of_ok (orFail_ok _ signer after), unspooled,
    checkSigner_ok asks.expected after, ends_ok, quiet]
  rfl

/-- The report on a good signature of a signer known by this name, with this level of trust. -/
def trustEvents (crates : Crates) (statusFd : Option Int) (signer : FixedBytes 32)
    (timestamp : UInt32) (name bracket level : String) : List Event :=
  let hexPk := crates.encodings.hexEncode signer.toList
  statusEvents statusFd newSigLine ++
    [.stderr ("gpg: Signature made " ++ dateStr timestamp ++ " using secp256k1 key " ++ hexPk ++
        "\n"),
      .stderr ("gpg: Good signature from \"" ++ name ++ bracket ++ "\n")] ++
    statusEvents statusFd (goodSigLine hexPk name) ++
    statusEvents statusFd (validSigLine hexPk (dateStr timestamp) timestamp) ++
    statusEvents statusFd (trustLine level)

/-- What the shim says about a good signature, on standard error and on the status descriptor. -/
def goodEvents (crates : Crates) (host : Host) (statusFd : Option Int) (signer : FixedBytes 32)
    (timestamp : UInt32) : List Event :=
  match (resolveAllowedSigners crates host).find? fun known => known.2 = signer with
  | some (ident, _) =>
      trustEvents crates statusFd signer timestamp ident "\" [ultimate]" "ULTIMATE"
  | none =>
      trustEvents crates statusFd signer timestamp (encodeNpub crates signer) "\" [unknown]"
        "UNDEFINED"

/-- `--verify` of the shim on this file and these data. -/
structure AsksShim (host : Host) (args : ShimArgs) (stdin : Reader) (sigRaw data : Bytes) :
    Prop where
  isVerify : args.isVerify = true
  status : args.statusFd ≠ some (-1)
  signature : ∃ path, args.verifySigPath = some path ∧
    host.fileContents (PathBuf.parse path) = .ok sigRaw
  data : ∃ process, readData host (args.verifyDataPath.getD "-") (Process.start stdin) =
    .ok data process

theorem reportGood_ok {statusFd : Option Int} (opened : statusFd ≠ some (-1))
    {payload : SignaturePayload} {signer : FixedBytes 32} {timestamp : UInt32}
    (time : u32FromBe (payload.slice 5 4) = timestamp) (process : Process) :
    reportGood crates host statusFd payload signer process = .ok ()
      ⟨process.stdin, process.events ++ goodEvents crates host statusFd signer timestamp⟩ := by
  have said : ∀ (text : String) (process : Process), eprintln text process =
      .ok () ⟨process.stdin, process.events ++ [.stderr (text ++ "\n")]⟩ := fun _ _ => rfl
  rw [reportGood, bind_of_ok (writeStatusFd_ok opened _ process), goodEvents]
  cases (resolveAllowedSigners crates host).find? fun known => known.2 = signer with
  | some known =>
      simp only [time]
      rw [bind_of_ok (said _ _), bind_of_ok (said _ _), bind_of_ok (writeStatusFd_ok opened _ _),
        bind_of_ok (writeStatusFd_ok opened _ _), writeStatusFd_ok opened]
      simp only [trustEvents, List.append_assoc, List.cons_append, List.nil_append]
  | none =>
      simp only [time]
      rw [bind_of_ok (said _ _), bind_of_ok (said _ _), bind_of_ok (writeStatusFd_ok opened _ _),
        bind_of_ok (writeStatusFd_ok opened _ _), writeStatusFd_ok opened]
      simp only [trustEvents, List.append_assoc, List.cons_append, List.nil_append]

theorem runGitShim_accepts {args : List String} {sigRaw data : Bytes} {signer : FixedBytes 32}
    {timestamp : UInt32} {stdin : Reader} (file : SignatureFile crates sigRaw data signer timestamp)
    (asks : AsksShim host (scanShim {} args) stdin sigRaw data) :
    Ends (fun _ final =>
        final.events = goodEvents crates host (scanShim {} args).statusFd signer timestamp)
      (fun _ _ => False) (runGitShim crates host args (Process.start stdin)) := by
  obtain ⟨payload, detached, signed⟩ := file
  obtain ⟨path, sigPath, readable⟩ := asks.signature
  obtain ⟨after, reading⟩ := asks.data
  have accepted : verifyStreamPayload crates payload (crates.digests.sha256 data) = .ok signer :=
    (verifyStreamPayload_eq_ok_iff crates).mpr ⟨signed.verifies, signed.signer_eq.symm⟩
  simp only [runGitShim, asks.isVerify, ↓reduceIte, shimVerify, sigPath, readable]
  rw [bind_of_ok (orFail_ok _ sigRaw _), detached, bind_of_ok (orFail_ok _ payload.toList _)]
  simp only [checkPayload, FixedBytes.ofList?_toList]
  rw [bind_of_ok reading, accepted]
  change Ends _ _ (reportGood crates host _ payload signer after)
  rw [reportGood_ok asks.status signed.timestamp_eq, ends_ok, readData_events reading]
  rfl

/-! ## The program -/

theorem realMain_of_ends {rounds : Nat} {exe command : String} {args : List String}
    {stdin : Reader} {post : Process → Prop}
    (ends : Ends (fun _ final => post final) (fun _ _ => False)
      (runCommand crates host rounds exe command args (Process.start stdin))) :
    ∃ final, realMain crates host rounds (exe :: command :: args) stdin = (some 0, final) ∧
      post final := by
  obtain ⟨_, final, ran, after⟩ := ends.succeeds
  refine ⟨final, ?_, after⟩
  rw [realMain, ran]
  rfl

theorem runCommand_direct {exe command : String} (direct : isGitInvocation exe command = false)
    (rounds : Nat) (args : List String) :
    runCommand crates host rounds exe command args =
      dispatchCommand crates host rounds command args := by
  rw [runCommand, direct]
  rfl

/-- The arguments that reach the shim. -/
def shimVector (command : String) (args : List String) : List String :=
  if command = "git-shim" then args else command :: args

theorem runCommand_shim {exe command : String} (shim : isGitInvocation exe command = true)
    (rounds : Nat) (args : List String) :
    runCommand crates host rounds exe command args =
      runGitShim crates host (shimVector command args) := by
  rw [runCommand, shim]
  rfl

/-- Both verifiers accept this file for these data; `verify` names the signer and the shim the
signer and the timestamp. -/
structure AcceptedByBoth (crates : Crates) (sigRaw data : Bytes) (signer : FixedBytes 32)
    (timestamp : UInt32) : Prop where
  verify : ∀ host rounds exe args stdin, isGitInvocation exe "verify" = false →
    AsksVerify crates host args sigRaw signer → Smooth stdin → content stdin = data →
    ∃ final, realMain crates host rounds (exe :: "verify" :: args) stdin = (some 0, final) ∧
      final.events = verifyNotices crates (verifyOptions args).expectedPub signer
  shim : ∀ host rounds exe command args stdin, isGitInvocation exe command = true →
    AsksShim host (scanShim {} (shimVector command args)) stdin sigRaw data →
    ∃ final, realMain crates host rounds (exe :: command :: args) stdin = (some 0, final) ∧
      final.events = goodEvents crates host (scanShim {} (shimVector command args)).statusFd signer
        timestamp

theorem SignatureFile.accepted {sigRaw data : Bytes} {signer : FixedBytes 32} {timestamp : UInt32}
    (file : SignatureFile crates sigRaw data signer timestamp) :
    AcceptedByBoth crates sigRaw data signer timestamp where
  verify host rounds exe args stdin direct asks smooth covered := by
    subst covered
    apply realMain_of_ends
    rw [runCommand_direct direct]
    exact verifyCommand_accepts file asks smooth
  shim host rounds exe command args stdin shim asks := by
    apply realMain_of_ends
    rw [runCommand_shim shim]
    exact runGitShim_accepts file asks

/-- The shim signs whatever it can read to the end. -/
theorem realMain_shim_signs (signs : crates.curve.SignsAndVerifies)
    (base64 : Base64Laws crates.encodings) (hex : HexDigits crates.encodings)
    {secret : FixedBytes 32} {signingKey : crates.curve.SigningKey}
    (valid : crates.curve.signingKey secret = .ok signingKey) {timestamp : UInt32}
    (signing : SigningHost crates host {} secret timestamp) {rounds : Nat} {exe command : String}
    {args : List String} (shim : isGitInvocation exe command = true)
    (wanted : ShimSigns crates (scanShim {} (shimVector command args))
      (crates.curve.publicBytes signingKey)) {stdin : Reader} (smooth : Smooth stdin) :
    ∃ final, realMain crates host rounds (exe :: command :: args) stdin = (some 0, final) ∧
      SignatureFile crates final.stdout (content stdin) (crates.curve.publicBytes signingKey)
        timestamp := by
  apply realMain_of_ends
  rw [runCommand_shim shim, runGitShim]
  simp only [wanted.isVerify, Bool.false_eq_true, ↓reduceIte]
  exact shimSign_ends signs base64 hex valid signing wanted smooth

/-- What `sign` and the signing shim write for a valid key is accepted by both verifiers on the
same data, from raw output when no armor begins in it. -/
theorem detached_signature_end_to_end (crates : Crates) (signs : crates.curve.SignsAndVerifies)
    (base64 : Base64Laws crates.encodings) (hex : HexDigits crates.encodings)
    (secret : FixedBytes 32) (signingKey : crates.curve.SigningKey)
    (valid : crates.curve.signingKey secret = .ok signingKey) (timestamp : UInt32)
    (host : Host) (rounds : Nat) (exe : String) (args : List String) (stdin : Reader)
    (smooth : Smooth stdin) :
    (isGitInvocation exe "sign" = false →
      SigningHost crates host (parseKeyIntakeArgs args) secret timestamp →
      ∃ final, realMain crates host rounds (exe :: "sign" :: args) stdin = (some 0, final) ∧
        (AsksArmor args → AcceptedByBoth crates final.stdout (content stdin)
          (crates.curve.publicBytes signingKey) timestamp) ∧
        (¬ AsksArmor args → final.stdout.length = signaturePayloadSize ∧
          ((∀ text, Text.fromUtf8 final.stdout = some text → beginsArmor text = false) →
            AcceptedByBoth crates final.stdout (content stdin)
              (crates.curve.publicBytes signingKey) timestamp))) ∧
    (∀ command, isGitInvocation exe command = true →
      SigningHost crates host {} secret timestamp →
      ShimSigns crates (scanShim {} (shimVector command args))
        (crates.curve.publicBytes signingKey) →
      ∃ final, realMain crates host rounds (exe :: command :: args) stdin = (some 0, final) ∧
        AcceptedByBoth crates final.stdout (content stdin) (crates.curve.publicBytes signingKey)
          timestamp) := by
  constructor
  · intro direct signing
    apply realMain_of_ends
    rw [runCommand_direct direct]
    refine (signCommand_ends signs base64 valid signing smooth).mono ?_ (fun _ _ => id)
    rintro _ final ⟨armored, raw⟩
    refine ⟨fun asked => (armored asked).accepted, fun unasked => ?_⟩
    exact ⟨(raw unasked).1, fun unmarked => ((raw unasked).2 unmarked).accepted⟩
  · intro command shim signing wanted
    obtain ⟨final, ran, file⟩ :=
      realMain_shim_signs signs base64 hex valid signing shim wanted smooth
    exact ⟨final, ran, file.accepted⟩

section Sample

open Reference

theorem sampleSigningHost :
    SigningHost packages (keyHost sampleSender sampleEphemeral) {} (secretBytes sampleSender)
      1700000000 :=
  ⟨loadSecretKey_keyHost _ sampleSender sampleEphemeral, 1700000000, rfl, by decide⟩

theorem asksVerify_sample (sigRaw : Bytes) :
    AsksVerify packages (signatureHost sigRaw) ["--sig", "data.sig"] sigRaw
      (publicBytes sampleSender) where
  signature := ⟨"data.sig", rfl, rfl⟩
  expected _ named := nomatch named
  passThrough := rfl

theorem asksShim_sample (sigRaw : Bytes) :
    AsksShim (signatureHost sigRaw) (scanShim {} (shimVector "git-shim" sampleShimArgs))
      (ofBytes sampleData) sigRaw sampleData where
  isVerify := by decide
  status := by decide
  signature := ⟨"commit.sig", by decide, rfl⟩
  data := (sampleRun sigRaw sampleData).data

/-- Git asks the key 3 for a signature under its own key id. -/
theorem shimSigns_sample :
    ShimSigns packages
      (scanShim {} (shimVector "git-shim" (signingArgs (publicHex sampleSender))))
      (publicBytes sampleSender) := by
  rw [shimVector, if_pos rfl, scanShim_signingArgs]
  refine ⟨rfl, by decide, fun kid given named parsed => ?_⟩
  have parsable : parseKeyBytes packages (publicHex sampleSender) =
      .ok (publicBytes sampleSender) := parseKeyBytes_hex _ _
  rw [← Option.some.inj given, parsable] at parsed
  exact (Except.ok.inj parsed).symm

end Sample

open Reference in
/-- Five bytes signed with the key 3, by `sign --armor` and by the shim: either signature is
accepted by `verify` without an expected key, and by the shim. -/
theorem detached_signature_end_to_end_sample :
    (∃ signed verified : Process,
      realMain packages (keyHost sampleSender sampleEphemeral) 0 ["pipe-k1", "sign", "--armor"]
        (ofBytes sampleData) = (some 0, signed) ∧
      realMain packages (signatureHost signed.stdout) 0 ["pipe-k1", "verify", "--sig", "data.sig"]
        (ofBytes sampleData) = (some 0, verified) ∧
      verified.events = verifyNotices packages none (publicBytes sampleSender)) ∧
    ∃ signed reported : Process,
      realMain packages (keyHost sampleSender sampleEphemeral) 0
        ("git" :: "git-shim" :: signingArgs (publicHex sampleSender)) (ofBytes sampleData) =
          (some 0, signed) ∧
      realMain packages (signatureHost signed.stdout) 0 ("git" :: "git-shim" :: sampleShimArgs)
        (ofBytes sampleData) = (some 0, reported) ∧
      reported.events = goodEvents packages (signatureHost signed.stdout) (some 2)
        (publicBytes sampleSender) 1700000000 := by
  obtain ⟨direct, _⟩ := detached_signature_end_to_end packages signs base64Laws
    hexDigits (secretBytes sampleSender) sampleSender (signingKey_secretBytes sampleSender)
    1700000000 (keyHost sampleSender sampleEphemeral) 0 "pipe-k1" ["--armor"] (ofBytes sampleData)
    (smooth_ofBytes sampleData)
  obtain ⟨_, shim⟩ := detached_signature_end_to_end packages signs base64Laws
    hexDigits (secretBytes sampleSender) sampleSender (signingKey_secretBytes sampleSender)
    1700000000 (keyHost sampleSender sampleEphemeral) 0 "git"
    (signingArgs (publicHex sampleSender)) (ofBytes sampleData) (smooth_ofBytes sampleData)
  constructor
  · obtain ⟨signed, ran, armored, _⟩ := direct (by decide) sampleSigningHost
    obtain ⟨verified, accepted, noticed⟩ := (armored (.inr (by decide))).verify
      (signatureHost signed.stdout) 0 "pipe-k1" ["--sig", "data.sig"] (ofBytes sampleData)
      (by decide) (asksVerify_sample signed.stdout) (smooth_ofBytes sampleData) rfl
    exact ⟨signed, verified, ran, accepted, noticed⟩
  · obtain ⟨signed, ran, accepted⟩ :=
      shim "git-shim" (by decide) sampleSigningHost shimSigns_sample
    obtain ⟨reported, verified, good⟩ := accepted.shim (signatureHost signed.stdout) 0 "git"
      "git-shim" sampleShimArgs (ofBytes sampleData) (by decide) (asksShim_sample signed.stdout)
    exact ⟨signed, reported, ran, verified, good⟩

open Reference in
/-- `verify` says the same of signatures made a second apart. -/
theorem verify_does_not_report_timestamp :
    ∃ (early late : SignaturePayload) (first second : Process),
      signStreamPayload packages sampleSender (packages.digests.sha256 sampleData) 1700000000 =
        .ok early ∧
      signStreamPayload packages sampleSender (packages.digests.sha256 sampleData) 1700000001 =
        .ok late ∧
      realMain packages (signatureHost early.toList) 0 ["pipe-k1", "verify", "--sig", "data.sig"]
        (ofBytes sampleData) = (some 0, first) ∧
      realMain packages (signatureHost late.toList) 0 ["pipe-k1", "verify", "--sig", "data.sig"]
        (ofBytes sampleData) = (some 0, second) ∧
      first.events = second.events ∧
      u32FromBe (early.slice 5 4) ≠ u32FromBe (late.slice 5 4) := by
  have accepts : ∀ timestamp payload, SignedBy packages (publicBytes sampleSender)
      (packages.digests.sha256 sampleData) timestamp payload →
      detachArmor packages payload.toList = .ok payload.toList →
      ∃ final, realMain packages (signatureHost payload.toList) 0
        ["pipe-k1", "verify", "--sig", "data.sig"] (ofBytes sampleData) = (some 0, final) ∧
        final.events = verifyNotices packages none (publicBytes sampleSender) := by
    intro timestamp payload signed detached
    have file : SignatureFile packages payload.toList sampleData (publicBytes sampleSender)
        timestamp := ⟨payload, detached, signed⟩
    exact file.accepted.verify (signatureHost payload.toList) 0 "pipe-k1" ["--sig", "data.sig"]
      (ofBytes sampleData) (by decide) (asksVerify_sample payload.toList)
      (smooth_ofBytes sampleData) (content_ofBytes sampleData)
  obtain ⟨early, made, signed, detached⟩ := exists_samplePayload 1700000000
  obtain ⟨late, made', signed', detached'⟩ := exists_samplePayload 1700000001
  obtain ⟨first, ran, noticed⟩ := accepts _ early signed detached
  obtain ⟨second, ran', noticed'⟩ := accepts _ late signed' detached'
  refine ⟨early, late, first, second, made, made', ran, ran', noticed.trans noticed'.symm, ?_⟩
  rw [signed.timestamp_eq, signed'.timestamp_eq]
  decide

end PipeK1
