import PipeK1.CanonicalFraming
import PipeK1.SenderContract
import PipeK1.SetupFailures

/-!
# The mode option

`encrypt` writes any byte that `--mode` gives it into the header; `decrypt`
reads two of them. Which successful encryptions can be decrypted, and which
modes are refused before the header.
-/

set_option autoImplicit false

namespace PipeK1

open ByteData ByteReader Effects Numbering SealedData Arguments

variable {crates : Crates}

/-- The modes that `decrypt` reads. -/
def SupportedMode (mode : UInt8) : Prop := mode = 0x01 ∨ mode = 0x02

instance (mode : UInt8) : Decidable (SupportedMode mode) := inferInstanceAs (Decidable (_ ∨ _))

theorem runDecrypt_supportedMode {host : Host} {args : DecryptArgs} {stdin : Reader}
    {final : Process} (finished : runDecrypt crates host args (Process.start stdin) = .ok () final) :
    ∃ mode, (content stdin)[5]? = some mode ∧ SupportedMode mode := by
  obtain ⟨stream, accepted⟩ := (runDecrypt_ends crates host args stdin).ok finished
  obtain ⟨recipPriv, recipKey, _, _, conforms⟩ := accepted.conforms
  refine ⟨stream.header.mode, ?_, ?_⟩
  · rw [accepted.content_eq]
    exact conforms.mode_of_bytes crates _
  · rcases conforms.header.permitted with ⟨one, _⟩ | ⟨two, _⟩
    · exact .inl one
    · exact .inr two

/-! ## The command line of `encrypt` -/

/-- What `run_encrypt` is called with for this recipient. -/
def encryptArgs (args : List String) (recip : String) : EncryptArgs :=
  ⟨recip, (encryptOptions args).mode, parseKeyIntakeArgs args, (encryptOptions args).entropyFd⟩

/-- Nothing fails before the first wire byte. -/
def EncryptStarts (crates : Crates) (host : Host) (rounds : Nat) (args : List String) : Prop :=
  ∃ recip session, (encryptOptions args).recipient = some recip ∧
    encryptSession crates host rounds (encryptArgs args recip) = .ok session

/-- What keeps an encryption without a sender from starting: no recipient, or a text that names no
point; or nothing that the ephemeral key can be made from. -/
inductive StartRefused (crates : Crates) (host : Host) (rounds : Nat) (args : List String) : Prop
  | unnamed (missing : (encryptOptions args).recipient = none)
  | recipient {recip message : String} (given : (encryptOptions args).recipient = some recip)
      (unparsed : parseKeyBytes crates recip = .error message)
  | point {recip message : String} {recipX : FixedBytes 32}
      (given : (encryptOptions args).recipient = some recip)
      (parsed : parseKeyBytes crates recip = .ok recipX)
      (lifts : liftX crates recipX = .error message)
  | ephemeral {message : String} (system : (encryptOptions args).entropyFd = none)
      (invalid : crates.curve.signingKey host.osEntropy = .error message)
  | descriptor (given : (encryptOptions args).entropyFd = some (-1))
  | entropy {fd : Int} (given : (encryptOptions args).entropyFd = some fd)
      (none : NoEntropy host fd)
  | search {start : FixedBytes 32}
      (begins : SearchStart crates host (encryptOptions args).entropyFd start)
      (endless : ∀ count < rounds, ¬ Usable crates (Nat.iterate (remix crates) count start))

section Start

variable {host : Host} {rounds : Nat} {args : List String}

theorem EncryptStarts.not_refused (starts : EncryptStarts crates host rounds args) :
    ¬ StartRefused crates host rounds args := by
  obtain ⟨recip, session, named, accepted⟩ := starts
  obtain ⟨ephPriv, ephKey, keys⟩ := encryptSession_eq_ok accepted
  have made : ephPrivBytes crates host rounds (encryptOptions args).entropyFd = .ok ephPriv :=
    keys.ephemeral
  obtain ⟨ikm, shared, _⟩ := keys.derived
  intro refused
  cases refused with
  | unnamed missing => cases named.symm.trans missing
  | recipient given unparsed =>
      cases named.symm.trans given
      cases keys.recipient.symm.trans unparsed
  | point given parsed lifts =>
      cases named.symm.trans given
      cases keys.recipient.symm.trans parsed
      obtain ⟨point, lifted⟩ := ecdhSharedX_liftable shared
      cases lifts.symm.trans lifted
  | ephemeral system invalid =>
      rw [system] at made
      cases made
      cases keys.valid.symm.trans invalid
  | descriptor given =>
      rw [given] at made
      cases made
  | @entropy fd given none =>
      rw [given] at made
      rcases @entropy_cases crates host fd with rfl | ⟨descriptor, _⟩ | ⟨start, begins⟩
      · cases made
      · obtain ⟨message, refused⟩ := @ephPrivBytes_of_noEntropy crates host fd descriptor none
        cases (refused rounds).symm.trans made
      · exact not_searchStart_of_noEntropy none begins
  | search begins endless =>
      rw [begins.ephPrivBytes, Search.search_eq_none_iff.mpr endless] at made
      cases made

/-- The ephemeral key is made unless something refuses. -/
theorem exists_ephemeral (possible : ¬ StartRefused crates host rounds args) :
    ∃ ephPriv ephKey,
      ephPrivBytes crates host rounds (encryptOptions args).entropyFd = .ok ephPriv ∧
      crates.curve.signingKey ephPriv = .ok ephKey := by
  have drawn : ∃ ephPriv,
      ephPrivBytes crates host rounds (encryptOptions args).entropyFd = .ok ephPriv := by
    cases given : (encryptOptions args).entropyFd with
    | none => exact ⟨host.osEntropy, rfl⟩
    | some fd =>
        rcases @entropy_cases crates host fd with rfl | ⟨descriptor, none⟩ | ⟨start, begins⟩
        · exact absurd (.descriptor given) possible
        · exact absurd (.entropy given none) possible
        · rw [begins.ephPrivBytes]
          cases hit : Search.search (Usable crates) (remix crates) rounds start with
          | none =>
              exact absurd (.search (given ▸ begins) (Search.search_eq_none_iff.mp hit)) possible
          | some key => exact ⟨key, rfl⟩
  obtain ⟨ephPriv, made⟩ := drawn
  cases valid : crates.curve.signingKey ephPriv with
  | ok ephKey => exact ⟨ephPriv, ephKey, made, valid⟩
  | error message =>
      obtain ⟨system, rfl⟩ := (ephPrivBytes_eq_ok_iff.mp made).of_invalid valid
      exact absurd (.ephemeral system valid) possible

/-- Without a sender, what a start needs is said of the recipient and the entropy alone. -/
theorem encryptStarts_iff [AddCommGroup crates.curve.Point] (laws : EncryptLaws crates)
    (anonymous : (encryptOptions args).mode ≠ 0x01) :
    EncryptStarts crates host rounds args ↔ ¬ StartRefused crates host rounds args := by
  refine ⟨EncryptStarts.not_refused, fun possible => ?_⟩
  cases given : (encryptOptions args).recipient with
  | none => exact absurd (.unnamed given) possible
  | some recip =>
      cases parsed : parseKeyBytes crates recip with
      | error message => exact absurd (.recipient given parsed) possible
      | ok recipX =>
          cases lifts : liftX crates recipX with
          | error message => exact absurd (.point given parsed lifts) possible
          | ok point =>
              obtain ⟨ephPriv, ephKey, made, valid⟩ := exists_ephemeral possible
              have started : ∃ session,
                  encryptSession crates host rounds (encryptArgs args recip) = .ok session :=
                laws.exists_session parsed lifts made valid (if_neg anonymous)
              obtain ⟨session, accepted⟩ := started
              exact ⟨recip, session, given, accepted⟩

end Start

section CommandLine

variable {host : Host} {rounds : Nat} {exe : String} {args : List String} {stdin : Reader}

theorem realMain_encrypt (direct : isGitInvocation exe "encrypt" = false) {recip : String}
    (given : (encryptOptions args).recipient = some recip) :
    realMain crates host rounds (exe :: "encrypt" :: args) stdin =
      (exitStatus (runEncrypt crates host rounds (encryptArgs args recip) (Process.start stdin)),
        reported (runEncrypt crates host rounds (encryptArgs args recip)
          (Process.start stdin))) := by
  simp only [realMain, runCommand, direct, Bool.false_eq_true, ↓reduceIte, dispatchCommand,
    encryptCommand, given]
  rfl

theorem realMain_encrypt_without_recipient (direct : isGitInvocation exe "encrypt" = false)
    (missing : (encryptOptions args).recipient = none) :
    ∃ error, realMain crates host rounds (exe :: "encrypt" :: args) stdin =
      (some 2, reported (.error (.failed error) (Process.start stdin))) := by
  simp only [realMain, runCommand, direct, Bool.false_eq_true, ↓reduceIte, dispatchCommand,
    encryptCommand, missing]
  exact ⟨_, rfl⟩

/-- A successful command is a successful `run_encrypt`. -/
theorem realMain_encrypt_succeeds (direct : isGitInvocation exe "encrypt" = false)
    {final : Process}
    (exited : realMain crates host rounds (exe :: "encrypt" :: args) stdin = (some 0, final)) :
    ∃ recip, (encryptOptions args).recipient = some recip ∧
      runEncrypt crates host rounds (encryptArgs args recip) (Process.start stdin) =
        .ok () final := by
  cases given : (encryptOptions args).recipient with
  | none =>
      obtain ⟨error, refused⟩ :=
        @realMain_encrypt_without_recipient crates host rounds exe args stdin direct given
      rw [refused] at exited
      cases exited
  | some recip =>
      rw [realMain_encrypt direct given, Prod.mk.injEq, exitStatus_eq_zero_iff] at exited
      obtain ⟨⟨process, finished⟩, final_eq⟩ := exited
      rw [finished] at final_eq
      cases final_eq
      exact ⟨recip, rfl, finished⟩

/-- Once there is a session, the header is written. -/
theorem stdout_of_started {argsE : EncryptArgs} {session : EncryptSession crates}
    (started : encryptSession crates host rounds argsE = .ok session) (stdin : Reader) :
    (reported (runEncrypt crates host rounds argsE (Process.start stdin))).stdout ≠ [] := by
  have written : ∀ process, Recorded [.stdout (session.header host).toList] process →
      process.stdout ≠ [] := by
    rintro process ⟨later, events⟩ none
    rw [Process.stdout, ← events] at none
    have size := congrArg List.length (List.append_eq_nil_iff.mp none).1
    rw [Event.stdoutBytes, FixedBytes.length_toList] at size
    cases size
  have header := runEncrypt_header started stdin
  rw [stdout_reported]
  cases ran : runEncrypt crates host rounds argsE (Process.start stdin) with
  | ok value process => exact written process (header.ok ran)
  | error stop process => exact written process (header.error ran)

/-- Refused before the first wire byte. -/
def Refused (outcome : Option Nat × Process) : Prop :=
  outcome.1 ≠ some 0 ∧ outcome.2.stdout = []

theorem refused_iff_not_starts (direct : isGitInvocation exe "encrypt" = false) :
    Refused (realMain crates host rounds (exe :: "encrypt" :: args) stdin) ↔
      ¬ EncryptStarts crates host rounds args := by
  cases given : (encryptOptions args).recipient with
  | none =>
      obtain ⟨error, refused⟩ :=
        @realMain_encrypt_without_recipient crates host rounds exe args stdin direct given
      rw [refused]
      refine iff_of_true ⟨(fun impossible => nomatch impossible), stdout_reported _⟩ ?_
      rintro ⟨recip, _, named, _⟩
      cases given.symm.trans named
  | some recip =>
      rw [realMain_encrypt direct given]
      cases accepted : encryptSession crates host rounds (encryptArgs args recip) with
      | error stop =>
          rw [runEncrypt_of_refused accepted]
          refine iff_of_true ⟨stop.exitCode_ne_zero, stdout_reported _⟩ ?_
          rintro ⟨recip', session, named, started⟩
          cases given.symm.trans named
          cases accepted.symm.trans started
      | ok session =>
          exact iff_of_false (fun refused => stdout_of_started accepted stdin refused.2)
            (not_not.mpr ⟨recip, session, given, accepted⟩)

end CommandLine
/-! ## What the recipient can read -/

/-- The one whom a command line of `encrypt` names, on a host where the secret key loads. -/
structure Recipient (crates : Crates) (args : List String) where
  host : Host
  keyArgs : KeyIntakeArgs
  secret : FixedBytes 32
  key : crates.curve.SigningKey
  name : String
  loaded : loadSecretKey crates host keyArgs = .ok secret
  valid : crates.curve.signingKey secret = .ok key
  given : (encryptOptions args).recipient = some name
  named : parseKeyBytes crates name = .ok (crates.curve.publicBytes key)
  honest : host.disk.Honest

/-- `decrypt --allow-untrusted-sender` with the recipient's key. -/
def Recipient.decryptArgs {args : List String} (recipient : Recipient crates args) : DecryptArgs :=
  ⟨none, true, false, none, recipient.keyArgs⟩

/-- The stream is in a supported mode, and the recipient gets back what was read. -/
structure Decryptable {args : List String} (recipient : Recipient crates args) (stdin : Reader)
    (final : Process) : Prop where
  mode : ∃ mode, final.stdout[5]? = some mode ∧ SupportedMode mode
  accepted : ∀ stdinD, Smooth stdinD → content stdinD = final.stdout →
    ∃ finalD, runDecrypt crates recipient.host recipient.decryptArgs (Process.start stdinD) =
        .ok () finalD ∧
      content stdin = finalD.stdout ++ content final.stdin

section Run

variable {host : Host} {rounds : Nat} {args : List String} {stdin : Reader}
  {recipient : Recipient crates args} {session : EncryptSession crates}
  {full : List StreamChunk} {last : StreamChunk} {trailer : Bytes} {final : Process}

/-- A sender in a supported mode and the recipient are correspondents. -/
theorem Recipient.correspondents (supported : SupportedMode (encryptOptions args).mode)
    (started : encryptSession crates host rounds (encryptArgs args recipient.name) =
      .ok session) :
    Correspondents crates host recipient.host rounds (encryptArgs args recipient.name)
      recipient.decryptArgs recipient.secret recipient.key := by
  obtain ⟨ephPriv, ephKey, keys⟩ := encryptSession_eq_ok started
  refine ⟨recipient.loaded, recipient.valid, recipient.named,
    ⟨ephPriv, ephKey, keys.ephemeral, keys.valid⟩, ?_⟩
  rcases supported with one | two
  · rcases senderSigningKey_eq_ok keys.sender with
      ⟨other, _⟩ | ⟨_, senderPriv, senderKey, loaded, valid, _⟩
    · exact absurd one other
    · exact .inr ⟨one, senderPriv, senderKey, loaded, valid, .inr rfl,
        fun _ expected => nomatch expected⟩
  · exact .inl ⟨two, rfl⟩

/-- The wire chunks of an accepted stream are all full but the last. -/
theorem EncryptedRun.full_of_accepted {argsE : EncryptArgs} {argsD : DecryptArgs}
    {hostD : Host} {stdinD : Reader} {finalD : Process}
    (run : EncryptedRun crates host rounds argsE stdin session full last trailer final)
    (carried : content stdinD = final.stdout)
    (finished : runDecrypt crates hostD argsD (Process.start stdinD) = .ok () finalD) :
    FullUpToLast (full ++ [last]) := by
  obtain ⟨stream, accepted⟩ := (runDecrypt_ends crates hostD argsD stdinD).ok finished
  obtain ⟨recipPriv, recipKey, _, _, conforms⟩ := accepted.conforms
  have width : ∀ chunk ∈ full ++ [last],
      chunk.wire.ciphertext.length = chunk.plaintext.length := by
    intro chunk member
    obtain ⟨counter, sealed⟩ := run.seals.exists_of_mem member
    exact crates.aead.length_encrypt sealed
  have bytes := accepted.content_eq
  rw [carried, run.stdout_eq, Stream.bytes, List.append_assoc] at bytes
  obtain ⟨_, rest⟩ := List.append_inj bytes (by
    rw [FixedBytes.length_toList, FixedBytes.length_toList])
  rw [List.append_assoc] at rest
  obtain ⟨wires, _, _⟩ := wires_unique (fun chunk member => (run.intermediate chunk member).1)
    (fun chunk member => (conforms.full chunk member).1) run.terminal.1 conforms.last.1
    (fun chunk member => by
      rw [width chunk member]
      exact run.length_plaintext_le chunk member)
    (length_ciphertext_le conforms.full conforms.last) rest
  refine run.fullUpToLast_iff.mpr fun chunk member => ?_
  have wire := List.mem_map_of_mem (f := StreamChunk.wire) member
  rw [wires] at wire
  obtain ⟨read, known, same⟩ := List.mem_map.mp wire
  rw [← width chunk (List.mem_append_left _ member), ← same]
  exact (conforms.full read known).2

theorem EncryptedRun.decryptable_iff [AddCommGroup crates.curve.Point] (laws : Lawful crates)
    (run : EncryptedRun crates host rounds (encryptArgs args recipient.name) stdin session full
      last trailer final)
    (buffered : BufferedUp stdin (full ++ [last]) final.stdin)
    (mode : final.stdout[5]? = some (encryptOptions args).mode)
    (takes : recipient.host.disk.Takes (21 * (content stdin).length)) :
    Decryptable recipient stdin final ↔
      SupportedMode (encryptOptions args).mode ∧ ¬ ResumesInside chunkSize stdin := by
  rw [← run.full_iff_not_resumesInside buffered]
  constructor
  · intro decryptable
    obtain ⟨written, here, supported⟩ := decryptable.mode
    cases mode.symm.trans here
    obtain ⟨finalD, finished, _⟩ := decryptable.accepted (ofBytes final.stdout)
      (smooth_ofBytes final.stdout) (content_ofBytes final.stdout)
    exact ⟨supported, run.full_of_accepted (content_ofBytes final.stdout) finished⟩
  · rintro ⟨supported, framed⟩
    refine ⟨⟨_, mode, supported⟩, fun stdinD smoothD carried => ?_⟩
    have agree := Recipient.correspondents supported run.session_eq
    have shorter : (plaintextOf (full ++ [last])).length ≤ (content stdin).length := by
      rw [run.content_eq, List.length_append]
      exact Nat.le_add_right _ _
    obtain ⟨finalD, finished, output⟩ := agree.decrypts_of_full laws smoothD run
      (run.fullUpToLast_iff.mp framed)
      (fun _ => ⟨recipient.honest, takes.done,
        Nat.le_trans (Nat.mul_le_mul_left 21 shorter) takes.fits⟩)
      (fun _ _ unlimited => nomatch unlimited) carried
    exact ⟨finalD, finished, by rw [run.content_eq, output]⟩

end Run

/-- A mode that `decrypt` does not read is refused only where the recipient or the entropy is. A
successful run can be decrypted by its recipient exactly when its mode is supported and its
input did not resume inside a chunk. -/
theorem encrypt_decryptable_iff (crates : Crates) [AddCommGroup crates.curve.Point]
    (laws : Lawful crates) (host : Host) (rounds : Nat) (exe : String) (args : List String)
    (direct : isGitInvocation exe "encrypt" = false) (stdin : Reader) :
    ((¬ SupportedMode (encryptOptions args).mode →
        Refused (realMain crates host rounds (exe :: "encrypt" :: args) stdin)) ↔
      SupportedMode (encryptOptions args).mode ∨ StartRefused crates host rounds args) ∧
    ∀ final, realMain crates host rounds (exe :: "encrypt" :: args) stdin = (some 0, final) →
      ∀ recipient : Recipient crates args,
        recipient.host.disk.Takes (21 * (content stdin).length) →
          (Decryptable recipient stdin final ↔
            SupportedMode (encryptOptions args).mode ∧ ¬ ResumesInside chunkSize stdin) := by
  constructor
  · rw [refused_iff_not_starts direct, imp_iff_not_or, not_not]
    by_cases supported : SupportedMode (encryptOptions args).mode
    · exact iff_of_true (.inl supported) (.inl supported)
    · rw [encryptStarts_iff laws.toEncryptLaws fun one => supported (.inl one), not_not]
  · intro final exited recipient takes
    obtain ⟨recip, given, ran⟩ := realMain_encrypt_succeeds direct exited
    cases given.symm.trans recipient.given
    obtain ⟨session, full, last, trailer, run, buffered⟩ :=
      (runEncrypt_buffers crates host rounds _ stdin).ok ran
    exact run.decryptable_iff laws buffered (runEncrypt_mode ran) takes

namespace Reference

/-- The key 1, with its public key given in hex. -/
def sampleAddressee (args : List String)
    (given : (encryptOptions args).recipient = some (publicHex sampleRecipient)) :
    Recipient packages args :=
  ⟨keyHost sampleRecipient sampleEphemeral, {}, secretBytes sampleRecipient, sampleRecipient,
    publicHex sampleRecipient, loadSecretKey_keyHost _ sampleRecipient sampleEphemeral,
    signingKey_secretBytes sampleRecipient, given, parseKeyBytes_hex _ (publicBytes sampleRecipient),
    keyHost_disk_honest sampleRecipient sampleEphemeral⟩

/-- Every mode but the first starts without a sender. -/
theorem exists_session (mode : UInt8) (other : mode ≠ 0x01) :
    ∃ session, encryptSession packages (keyHost sampleSender sampleEphemeral) 0
      ⟨publicHex sampleRecipient, mode, {}, none⟩ = .ok session := by
  have valid : packages.curve.signingKey (secretBytes sampleRecipient) = .ok sampleRecipient :=
    signingKey_secretBytes sampleRecipient
  obtain ⟨scalar, _, finite, coordinate⟩ := lawful.prime.exists_scalar valid
  obtain ⟨point, lifts, _⟩ := lawful.prime.liftX_of_xCoordinate finite coordinate
  exact lawful.toEncryptLaws.exists_session (parseKeyBytes_hex _ _) lifts rfl
    (signingKey_secretBytes sampleEphemeral) (if_neg other)

theorem exists_encrypted_in_mode (mode : UInt8) (other : mode ≠ 0x01) :
    ∃ final, runEncrypt packages (keyHost sampleSender sampleEphemeral) 0
      ⟨publicHex sampleRecipient, mode, {}, none⟩ (Process.start (ofBytes sampleData)) =
        .ok () final := by
  obtain ⟨session, accepted⟩ := exists_session mode other
  refine runEncrypt_succeeds_of_quiet accepted (lawful.seals _) (fun _ _ _ => ⟨_, rfl⟩) ?_
    (by decide)
  intro error member
  rcases (smooth_ofBytes sampleData).patient _ member with ⟨_, _, impossible⟩ | ⟨_, kind, same⟩
  · cases impossible
  · cases same
    exact kind

end Reference

open Reference in
/-- Without a mode the stream is anonymous and can be read. -/
theorem encrypt_decryptable_iff_sample :
    ∃ final, realMain packages (keyHost sampleSender sampleEphemeral) 0
        ["pipe-k1", "encrypt", "--recipient", publicHex sampleRecipient] (ofBytes sampleData) =
          (some 0, final) ∧
      Decryptable (sampleAddressee ["--recipient", publicHex sampleRecipient] rfl)
        (ofBytes sampleData) final := by
  obtain ⟨final, ran⟩ := exists_encrypted_in_mode 0x02 (by decide)
  have exited : realMain packages (keyHost sampleSender sampleEphemeral) 0
      ["pipe-k1", "encrypt", "--recipient", publicHex sampleRecipient] (ofBytes sampleData) =
        (some 0, final) := by
    rw [@realMain_encrypt packages _ _ _ ["--recipient", publicHex sampleRecipient] _ rfl _ rfl]
    change (exitStatus (runEncrypt packages _ 0 ⟨publicHex sampleRecipient, 0x02, {}, none⟩ _),
      reported (runEncrypt packages _ 0 ⟨publicHex sampleRecipient, 0x02, {}, none⟩ _)) = _
    rw [ran]
    rfl
  refine ⟨final, exited, ((encrypt_decryptable_iff packages lawful
    (keyHost sampleSender sampleEphemeral) 0 "pipe-k1" ["--recipient", publicHex sampleRecipient]
    rfl (ofBytes sampleData)).2 final exited (sampleAddressee _ rfl)
    (keyHost_takes sampleRecipient sampleEphemeral (by decide))).mpr
      ⟨.inr rfl, (smooth_ofBytes sampleData).patient.not_resumesInside⟩⟩

open Reference in
/-- `encrypt --mode 3` succeeds, and nobody can read what it wrote. -/
theorem encrypt_in_mode_three :
    ∃ final, realMain packages (keyHost sampleSender sampleEphemeral) 0
        ["pipe-k1", "encrypt", "--mode", "3", "--recipient", publicHex sampleRecipient]
        (ofBytes sampleData) = (some 0, final) ∧
      final.stdout[5]? = some 0x03 ∧
      ¬ Decryptable (sampleAddressee
          ["--mode", "3", "--recipient", publicHex sampleRecipient] rfl)
        (ofBytes sampleData) final ∧
      ∀ host args stdin finalD, content stdin = final.stdout →
        runDecrypt packages host args (Process.start stdin) ≠ .ok () finalD := by
  obtain ⟨final, ran⟩ := exists_encrypted_in_mode 0x03 (by decide)
  have three : final.stdout[5]? = some 0x03 := runEncrypt_mode ran
  have unsupported : ¬ SupportedMode 0x03 := by decide
  refine ⟨final, ?_, three, ?_, ?_⟩
  · rw [@realMain_encrypt packages _ _ _ ["--mode", "3", "--recipient", publicHex sampleRecipient]
      _ rfl _ rfl]
    change (exitStatus (runEncrypt packages _ 0 ⟨publicHex sampleRecipient, 0x03, {}, none⟩ _),
      reported (runEncrypt packages _ 0 ⟨publicHex sampleRecipient, 0x03, {}, none⟩ _)) = _
    rw [ran]
    rfl
  · intro decryptable
    obtain ⟨mode, written, supported⟩ := decryptable.mode
    cases three.symm.trans written
    exact unsupported supported
  · intro host args stdin finalD carried finished
    obtain ⟨mode, read, supported⟩ := runDecrypt_supportedMode finished
    rw [carried] at read
    cases three.symm.trans read
    exact unsupported supported

end PipeK1
