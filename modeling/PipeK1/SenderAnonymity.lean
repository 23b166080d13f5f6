import PipeK1.Encodings

/-!
# Where the sender shows

Under the same randomness two senders write the same bytes up to the trailer, and
in Mode 2, which has no trailer, they make the same run.
-/

set_option autoImplicit false

namespace PipeK1

open ByteData ByteReader Effects Numbering SealedData

variable {crates : Crates} {host host' : Host} {rounds : Nat} {args : EncryptArgs}
  {keyArgs' : KeyIntakeArgs}

/-- Hosts that hand out the same random bytes to an encryption. -/
structure SameRandomness (host host' : Host) (entropyFd : Option Int) : Prop where
  osEntropy : host.osEntropy = host'.osEntropy
  salt : host.salt = host'.salt
  descriptor : ∀ fd, entropyFd = some fd → host.descriptor fd = host'.descriptor fd

/-! ## Sessions -/

theorem SameRandomness.ephPrivBytes_eq {entropyFd : Option Int}
    (same : SameRandomness host host' entropyFd) :
    ephPrivBytes crates host rounds entropyFd = ephPrivBytes crates host' rounds entropyFd := by
  cases entropyFd with
  | none => exact congrArg Except.ok same.osEntropy
  | some fd => simp only [ephPrivBytes, fromRawFd, same.descriptor fd rfl, same.osEntropy]

theorem SameRandomness.encryptSession_anonymous (same : SameRandomness host host' args.entropyFd)
    (anonymous : args.mode ≠ 0x01) :
    encryptSession crates host rounds args =
      encryptSession crates host' rounds { args with keyArgs := keyArgs' } := by
  unfold encryptSession
  simp only [same.ephPrivBytes_eq, same.salt, senderSigningKey, if_neg anonymous]

/-- Two sessions differ in the sender's key only. -/
theorem SameRandomness.sessions_eq (same : SameRandomness host host' args.entropyFd)
    {session session' : EncryptSession crates}
    (accepted : encryptSession crates host rounds args = .ok session)
    (accepted' : encryptSession crates host' rounds { args with keyArgs := keyArgs' } =
      .ok session') :
    session' = { session with sender := session'.sender } := by
  obtain ⟨ephPriv, ephKey, keys⟩ := encryptSession_eq_ok accepted
  obtain ⟨ephPriv', ephKey', keys'⟩ := encryptSession_eq_ok accepted'
  have recipients : session'.recipX = session.recipX :=
    Except.ok.inj (keys'.recipient.symm.trans keys.recipient)
  have ephemerals : ephPriv' = ephPriv :=
    Except.ok.inj (keys'.ephemeral.symm.trans (same.ephPrivBytes_eq.symm.trans keys.ephemeral))
  subst ephemerals
  have signing : ephKey' = ephKey := Except.ok.inj (keys'.valid.symm.trans keys.valid)
  obtain ⟨ikm, shared, derived⟩ := keys.derived
  obtain ⟨ikm', shared', derived'⟩ := keys'.derived
  have shares : ikm' = ikm := by
    rw [recipients, shared] at shared'
    exact (Except.ok.inj shared').symm
  rw [shares, ← same.salt, derived] at derived'
  obtain ⟨headerKeys, payloadKeys⟩ := Prod.mk.inj (Except.ok.inj derived')
  have modes : session'.mode = session.mode := keys'.mode_eq.trans keys.mode_eq.symm
  have publics : session'.ephPubX = session.ephPubX := by
    rw [keys'.ephPubX_eq, keys.ephPubX_eq, signing]
  obtain ⟨mode, recipX, ephPubX, headerKey, payloadKey, sender⟩ := session'
  simp only at recipients headerKeys payloadKeys modes publics
  simp only [modes, recipients, publics, headerKeys, payloadKeys]

/-! ## Runs -/

theorem orStop_eq_ok {α : Type} {outcome : Except Stop α} {value : α} {process after : Process}
    (succeeded : orStop outcome process = .ok value after) :
    outcome = .ok value ∧ process = after := by
  cases outcome with
  | ok value =>
      cases succeeded
      exact ⟨rfl, rfl⟩
  | error stop => cases succeeded

/-- `run_encrypt` between the session and the trailer. -/
def encryptBody (host : Host) (session : EncryptSession crates) : Run Bytes := do
  writeStdout (session.header host).toList
  let filled ← fillBuffer zeroBuffer
  encryptChunks session ⟨filled.2, zeroBuffer, filled.1, 0, []⟩

theorem runEncrypt_eq (crates : Crates) (host : Host) (rounds : Nat) (args : EncryptArgs) :
    runEncrypt crates host rounds args = (do
      let session ← orStop (encryptSession crates host rounds args)
      let hashed ← encryptBody host session
      writeTrailer host session hashed) := by
  simp only [runEncrypt, encryptBody, bind_assoc]

theorem encryptBody_sender (salts : host.salt = host'.salt) (session : EncryptSession crates)
    (sender : Option crates.curve.SigningKey) :
    encryptBody host' { session with sender := sender } = encryptBody host session := by
  have header : ({ session with sender := sender } : EncryptSession crates).header host' =
      session.header host := by
    simp only [EncryptSession.header, EncryptSession.hmac16, salts]
  unfold encryptBody
  rw [header]
  rfl

/-- A run that has passed the trailer has added nothing but it. -/
theorem writeTrailer_adds {session : EncryptSession crates} {ephPriv : FixedBytes 32}
    {ephKey : crates.curve.SigningKey} (keys : SessionKeys crates host rounds args session ephPriv
      ephKey) {hashed : Bytes} {process final : Process}
    (wrote : writeTrailer host session hashed process = .ok () final) :
    final.stdin = process.stdin ∧ final.stdout.length =
        process.stdout.length + trailerLength args.mode ∧
      final.stdout.take (final.stdout.length - trailerLength args.mode) = process.stdout := by
  obtain ⟨trailer, events, signed, stdin_eq, events_eq, output, _⟩ :=
    (writeTrailer_ends (fun _ => rfl) process).ok wrote
  have stdout_eq : final.stdout = process.stdout ++ trailer := by
    rw [Process.stdout, events_eq, List.flatMap_append, output]
    rfl
  have width : trailer.length = trailerLength args.mode := by
    rw [signed.length keys, keys.mode_eq]
    rfl
  refine ⟨stdin_eq, ?_, ?_⟩
  · rw [stdout_eq, List.length_append, width]
  · rw [stdout_eq, List.length_append, width, Nat.add_sub_cancel]
    exact List.take_left

/-- Under the same randomness the sender's key, and where it comes from, makes no difference to a
run in another mode than 1, and in Mode 1 none to what is read and written before the trailer. -/
theorem sender_shows_in_trailer_only (crates : Crates) (host host' : Host) (rounds : Nat)
    (args : EncryptArgs) (keyArgs' : KeyIntakeArgs)
    (same : SameRandomness host host' args.entropyFd) (stdin : Reader) :
    (args.mode ≠ 0x01 →
      runEncrypt crates host rounds args (Process.start stdin) =
        runEncrypt crates host' rounds { args with keyArgs := keyArgs' } (Process.start stdin)) ∧
    ∀ final final',
      runEncrypt crates host rounds args (Process.start stdin) = .ok () final →
      runEncrypt crates host' rounds { args with keyArgs := keyArgs' } (Process.start stdin) =
        .ok () final' →
      final.stdin = final'.stdin ∧ final.stdout.length = final'.stdout.length ∧
        final.stdout.take (final.stdout.length - trailerLength args.mode) =
          final'.stdout.take (final'.stdout.length - trailerLength args.mode) := by
  constructor
  · intro anonymous
    rw [runEncrypt_eq, runEncrypt_eq, ← same.encryptSession_anonymous anonymous]
    refine bind_eq_of_ends (ends_orStop (fun session accepted => ?_) (fun _ _ => trivial))
    obtain ⟨ephPriv, ephKey, keys⟩ := encryptSession_eq_ok accepted
    have none : session.sender = none := by
      rcases senderSigningKey_eq_ok keys.sender with ⟨_, none⟩ | ⟨one, _⟩
      · exact none
      · exact absurd one anonymous
    have bodies : encryptBody host' session = encryptBody host session :=
      encryptBody_sender same.salt session session.sender
    simp only [bodies, writeTrailer, none]
  · intro final final' ran ran'
    rw [runEncrypt_eq] at ran ran'
    obtain ⟨session, _, opened, ran⟩ := bind_eq_ok_iff.mp ran
    obtain ⟨session', _, opened', ran'⟩ := bind_eq_ok_iff.mp ran'
    obtain ⟨accepted, rfl⟩ := orStop_eq_ok opened
    obtain ⟨accepted', rfl⟩ := orStop_eq_ok opened'
    obtain ⟨hashed, before, body, wrote⟩ := bind_eq_ok_iff.mp ran
    obtain ⟨hashed', before', body', wrote'⟩ := bind_eq_ok_iff.mp ran'
    have bodies : encryptBody host' session' = encryptBody host session := by
      rw [same.sessions_eq accepted accepted']
      exact encryptBody_sender same.salt session session'.sender
    rw [bodies, body] at body'
    cases body'
    obtain ⟨ephPriv, ephKey, keys⟩ := encryptSession_eq_ok accepted
    obtain ⟨ephPriv', ephKey', keys'⟩ := encryptSession_eq_ok accepted'
    obtain ⟨stdin_eq, length_eq, take_eq⟩ := writeTrailer_adds keys wrote
    obtain ⟨stdin_eq', length_eq', take_eq'⟩ := writeTrailer_adds keys' wrote'
    exact ⟨stdin_eq.trans stdin_eq'.symm, length_eq.trans length_eq'.symm,
      take_eq.trans take_eq'.symm⟩

open Reference in
/-- Two senders, with one ephemeral key. -/
theorem sender_shows_in_trailer_only_sample :
    ∃ final final',
      runEncrypt packages (keyHost sampleSender sampleEphemeral) 0 (sealArgs false sampleRecipient)
        (Process.start (ofBytes sampleData)) = .ok () final ∧
      runEncrypt packages (keyHost sampleRecipient sampleEphemeral) 0
        (sealArgs false sampleRecipient) (Process.start (ofBytes sampleData)) = .ok () final' ∧
      final.stdout.length = final'.stdout.length ∧
      final.stdout.take (final.stdout.length - 96) =
        final'.stdout.take (final'.stdout.length - 96) := by
  obtain ⟨final, ran, _⟩ := @exists_encrypted false sampleSender sampleRecipient sampleEphemeral
    sampleData (by decide)
  obtain ⟨final', ran', _⟩ := @exists_encrypted false sampleRecipient sampleRecipient
    sampleEphemeral sampleData (by decide)
  obtain ⟨_, length_eq, take_eq⟩ := (sender_shows_in_trailer_only packages
    (keyHost sampleSender sampleEphemeral) (keyHost sampleRecipient sampleEphemeral) 0
    (sealArgs false sampleRecipient) {} ⟨rfl, rfl, fun _ _ => rfl⟩ (ofBytes sampleData)).2
    final final' ran ran'
  exact ⟨final, final', ran, ran', length_eq, take_eq⟩

end PipeK1
