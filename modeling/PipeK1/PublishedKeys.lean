import PipeK1.KeyRoles
import PipeK1.ModeContract
import PipeK1.SenderContract

/-!
# Published keys

What `pubkey` prints for two parties is what `--recipient` and `--sender` take:
with these names, what the one encrypts the other decrypts.
-/

set_option autoImplicit false

namespace PipeK1

open ByteData ByteReader Effects

variable {crates : Crates}

/-! ## Publishing -/

/-- The two forms of a key. -/
structure Names where
  hex : String
  npub : String

/-- The two lines of `pubkey`. -/
def Names.publication (names : Names) : Bytes :=
  Text.utf8 ("Hex:  " ++ names.hex ++ "\n") ++ Text.utf8 ("Npub: " ++ names.npub ++ "\n")

def Names.Has (names : Names) (name : String) : Prop := name = names.hex ∨ name = names.npub

variable (crates) in
def namesOf (key : FixedBytes 32) : Names :=
  ⟨crates.encodings.hexEncode key.toList, encodeNpub crates key⟩

theorem Names.Has.parses (documented : crates.encodings.Documented) {key : FixedBytes 32}
    {name : String} (has : (namesOf crates key).Has name) : parseKeyBytes crates name = .ok key := by
  rcases has with rfl | rfl
  · exact parseKeyBytes_hexEncode documented key
  · exact parseKeyBytes_encodeNpub documented key

/-- The program is not called as git's shim. -/
def Direct (exe : String) : Prop := Text.contains "git-shim".toList (exeName exe) = false

theorem Direct.not_git {exe command : String} (direct : Direct exe)
    (known : command ∈ ["pubkey", "encrypt", "decrypt", "inspect-header", "inspect-chunk"]) :
    isGitInvocation exe command = false := by
  unfold isGitInvocation
  rw [direct]
  fin_cases known <;> decide

section Run

variable {host : Host} {rounds : Nat} {exe : String} {args : List String}

theorem pubkeyCommand_ends (process : Process) :
    Ends (fun _ final => ∃ secret key,
        loadSecretKey crates host (parseKeyIntakeArgs args) = .ok secret ∧
        crates.curve.signingKey secret = .ok key ∧
        final.stdout =
          process.stdout ++ (namesOf crates (crates.curve.publicBytes key)).publication)
      (fun _ _ => True) (pubkeyCommand crates host args process) := by
  simp only [pubkeyCommand, loadSigningKey, bind_assoc, ends_bind]
  refine ends_orStop (fun secret loaded => ?_) (fun _ _ => trivial)
  refine ends_orFail (fun key valid => ?_) (fun _ _ => trivial)
  refine ⟨secret, key, loaded, valid, ?_⟩
  simp only [Process.stdout, List.flatMap_append, List.append_assoc, List.flatMap_singleton]
  rfl

theorem realMain_pubkey (direct : Direct exe) {stdin : Reader}
    (exited : (realMain crates host rounds (exe :: "pubkey" :: args) stdin).1 = some 0) :
    ∃ secret key, loadSecretKey crates host (parseKeyIntakeArgs args) = .ok secret ∧
      crates.curve.signingKey secret = .ok key ∧
      (realMain crates host rounds (exe :: "pubkey" :: args) stdin).2.stdout =
        (namesOf crates (crates.curve.publicBytes key)).publication := by
  have not_git := @Direct.not_git exe "pubkey" direct (by decide)
  simp only [realMain, runCommand, not_git, Bool.false_eq_true, ↓reduceIte] at exited ⊢
  obtain ⟨final, ran⟩ := exitStatus_eq_zero_iff.mp exited
  rw [ran]
  exact (pubkeyCommand_ends (Process.start stdin)).ok ran

/-- A key that loads is published. -/
theorem realMain_pubkey_of_loaded (direct : Direct exe) {secret : FixedBytes 32}
    {key : crates.curve.SigningKey}
    (loaded : loadSecretKey crates host (parseKeyIntakeArgs args) = .ok secret)
    (valid : crates.curve.signingKey secret = .ok key) (stdin : Reader) :
    (realMain crates host rounds (exe :: "pubkey" :: args) stdin).1 = some 0 := by
  have not_git := @Direct.not_git exe "pubkey" direct (by decide)
  simp only [realMain, runCommand, not_git, Bool.false_eq_true, ↓reduceIte]
  refine exitStatus_eq_zero_iff.mpr ?_
  simp only [dispatchCommand, pubkeyCommand, loadSigningKey, loaded, bind_assoc]
  rw [bind_of_ok (show orStop _ _ = .ok secret _ from rfl), valid]
  exact ⟨_, rfl⟩

end Run

/-! ## Using what was published -/

/-- The command lines of an exchange: the sender's and the recipient's keys are the ones they
published, and each names the other. -/
structure Exchange (recipient sender : Names) (argsR argsS argsE argsD : List String) : Prop where
  senderKey : parseKeyIntakeArgs argsE = parseKeyIntakeArgs argsS
  recipientKey : parseKeyIntakeArgs argsD = parseKeyIntakeArgs argsR
  addressed : ∃ name, recipient.Has name ∧ (encryptOptions argsE).recipient = some name
  unlimited : (decryptOptions argsD).maxSize = none
  mode : ((encryptOptions argsE).mode = 0x02 ∧ (decryptOptions argsD).sender = none) ∨
    ((encryptOptions argsE).mode = 0x01 ∧
      ∃ name, sender.Has name ∧ (decryptOptions argsD).sender = some name)

variable (crates) in
/-- The random bytes for the ephemeral key are a key. -/
def DrawsKey (host : Host) (rounds : Nat) (entropyFd : Option Int) : Prop :=
  ∃ ephPriv ephKey, ephPrivBytes crates host rounds entropyFd = .ok ephPriv ∧
    crates.curve.signingKey ephPriv = .ok ephKey

/-- Two parties that have published their keys: what one encrypts under the other's published
name is accepted, and decrypts to what was read, under either form of either key, in both modes
and over every delivery. -/
theorem published_keys_round_trip (crates : Crates) [AddCommGroup crates.curve.Point]
    (laws : Lawful crates) (documented : crates.encodings.Documented) (recipient sender : Host)
    (rounds : Nat) (exe : String) (direct : Direct exe) (argsR argsS : List String)
    (publishes : (realMain crates recipient rounds (exe :: "pubkey" :: argsR) []).1 = some 0)
    (publishes' : (realMain crates sender rounds (exe :: "pubkey" :: argsS) []).1 = some 0) :
    ∃ names names' : Names,
      (realMain crates recipient rounds (exe :: "pubkey" :: argsR) []).2.stdout =
        names.publication ∧
      (realMain crates sender rounds (exe :: "pubkey" :: argsS) []).2.stdout =
        names'.publication ∧
      ∀ argsE argsD stdinE, Exchange names names' argsR argsS argsE argsD →
        DrawsKey crates sender rounds (encryptOptions argsE).entropyFd → Smooth stdinE →
        (content stdinE).length < (2 ^ 64 - 1) * chunkSize → recipient.disk.Honest →
        recipient.disk.Takes (21 * (content stdinE).length) →
        ∃ finalE, realMain crates sender rounds (exe :: "encrypt" :: argsE) stdinE =
            (some 0, finalE) ∧
          ∀ stdinD, Smooth stdinD → content stdinD = finalE.stdout →
            (realMain crates recipient rounds (exe :: "decrypt" :: argsD) stdinD).1 = some 0 ∧
            (realMain crates recipient rounds (exe :: "decrypt" :: argsD) stdinD).2.stdout =
              content stdinE := by
  obtain ⟨secret, key, loaded, valid, output⟩ := realMain_pubkey direct publishes
  obtain ⟨secret', key', loaded', valid', output'⟩ := realMain_pubkey direct publishes'
  refine ⟨_, _, output, output', ?_⟩
  intro argsE argsD stdinE exchange draws smooth short honest takes
  obtain ⟨name, has, given⟩ := exchange.addressed
  have agree : Correspondents crates sender recipient rounds (encryptArgs argsE name)
      (decryptArgs argsD) secret key := by
    refine ⟨?_, valid, has.parses documented, draws, ?_⟩
    · rw [← loaded, ← exchange.recipientKey]
      rfl
    · rcases exchange.mode with ⟨two, none⟩ | ⟨one, name', has', expected⟩
      · exact .inl ⟨two, none⟩
      · refine .inr ⟨one, secret', key', ?_, valid', .inl ?_, ?_⟩
        · rw [← loaded', ← exchange.senderKey]
          rfl
        · exact Option.isSome_iff_exists.mpr ⟨name', expected⟩
        · intro exp given
          cases expected.symm.trans given
          exact has'.parses documented
  obtain ⟨finalE, ran⟩ := agree.encrypts laws.toEncryptLaws smooth short
  refine ⟨finalE, ?_, ?_⟩
  · rw [realMain_encrypt (@Direct.not_git exe "encrypt" direct (by decide)) given, ran]
    rfl
  · intro stdinD smoothD carried
    obtain ⟨finalD, finished, plaintext⟩ := agree.decrypts laws smooth smoothD
      (fun _ => ⟨honest, takes⟩) (fun _ max limited => by
        cases exchange.unlimited.symm.trans limited) ran carried
    rw [realMain_decrypt (@Direct.not_git exe "decrypt" direct (by decide)), finished]
    exact ⟨rfl, plaintext⟩

open Reference in
/-- The keys 3 and 1, each under its other name. -/
theorem published_keys_round_trip_sample :
    ∃ (names names' : Names) (finalE : Process),
      (realMain packages (keyHost sampleRecipient sampleEphemeral) 0 ["pipe-k1", "pubkey"]
        []).2.stdout = names.publication ∧
      (realMain packages (keyHost sampleSender sampleEphemeral) 0 ["pipe-k1", "pubkey"]
        []).2.stdout = names'.publication ∧
      realMain packages (keyHost sampleSender sampleEphemeral) 0
        ["pipe-k1", "encrypt", "--mode", "1", "--recipient", names.npub] (ofBytes sampleData) =
          (some 0, finalE) ∧
      (realMain packages (keyHost sampleRecipient sampleEphemeral) 0
        ["pipe-k1", "decrypt", "--sender", names'.hex] (ofBytes finalE.stdout)).2.stdout =
          sampleData := by
  have direct : Direct "pipe-k1" := by
    unfold Direct
    decide
  obtain ⟨names, names', output, output', trips⟩ :=
    published_keys_round_trip packages lawful encodings_documented
      (keyHost sampleRecipient sampleEphemeral) (keyHost sampleSender sampleEphemeral) 0 "pipe-k1"
      direct [] []
      (realMain_pubkey_of_loaded direct (loadSecretKey_keyHost _ sampleRecipient sampleEphemeral)
        (signingKey_secretBytes sampleRecipient) [])
      (realMain_pubkey_of_loaded direct (loadSecretKey_keyHost _ sampleSender sampleEphemeral)
        (signingKey_secretBytes sampleSender) [])
  obtain ⟨finalE, ran, decrypts⟩ := trips ["--mode", "1", "--recipient", names.npub]
    ["--sender", names'.hex] (ofBytes sampleData)
    ⟨rfl, rfl, ⟨names.npub, .inr rfl, rfl⟩, rfl, .inr ⟨rfl, names'.hex, .inl rfl, rfl⟩⟩
    ⟨secretBytes sampleEphemeral, sampleEphemeral, rfl, signingKey_secretBytes sampleEphemeral⟩
    (smooth_ofBytes _) (by decide) (keyHost_disk_honest sampleRecipient sampleEphemeral)
    (keyHost_takes sampleRecipient sampleEphemeral (by decide))
  have whole : content (ofBytes sampleData) = sampleData := content_ofBytes _
  rw [whole] at decrypts
  exact ⟨names, names', finalE, output, output', ran,
    (decrypts (ofBytes finalE.stdout) (smooth_ofBytes _) (content_ofBytes _)).2⟩

end PipeK1
