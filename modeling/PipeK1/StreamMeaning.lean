import PipeK1.Delivery
import PipeK1.KeyRoles
import PipeK1.RecipientKeys

/-!
# What a stream says

To everyone who accepts it a stream says the same: one plaintext, one recipient, and one
sender if it has any. And only one plaintext can have been encrypted to it.
-/

set_option autoImplicit false

namespace PipeK1

open ByteData ByteReader Effects Numbering

variable {crates : Crates}

/-! ## Acceptance -/

/-- Flags that turn no stream away. -/
def openToAll : DecryptArgs := ⟨none, true, false, none, {}⟩

section Accepting

variable {args : DecryptArgs} {recipPriv recipPriv' recipPub : FixedBytes 32} {stream : Stream}

theorem Stream.Conforms.toAll (conforms : stream.Conforms crates args recipPriv recipPub) :
    stream.Conforms crates openToAll recipPriv recipPub where
  header := { conforms.header with
    permitted := conforms.header.permitted.imp
      (fun signed => ⟨signed.1, .inr rfl⟩) (fun anonymous => ⟨anonymous.1, rfl⟩) }
  full := conforms.full
  last := conforms.last
  opens := conforms.opens
  trailer := conforms.trailer.imp_right fun signed => by
    obtain ⟨one, array, same, verifies⟩ := signed
    exact ⟨one, array, same, verifies.authentic, fun _ expected => by cases expected⟩

theorem Stream.Conforms.of_ecdh (conforms : stream.Conforms crates args recipPriv recipPub)
    (agree : ∀ pubX, ecdhSharedX crates recipPriv pubX = ecdhSharedX crates recipPriv' pubX) :
    stream.Conforms crates args recipPriv' recipPub where
  header := { conforms.header with
    authentic := by
      obtain ⟨ikm, headerKey, shared, derived⟩ := conforms.header.authentic
      rw [agree] at shared
      exact ⟨ikm, headerKey, shared, derived⟩ }
  full := conforms.full
  last := conforms.last
  opens := conforms.opens
  trailer := conforms.trailer

/-- The sender of a stream is the one that was expected. -/
theorem Stream.Conforms.sender_eq (conforms : stream.Conforms crates args recipPriv recipPub)
    {sender : String} (expected : args.expectedSender = some sender) :
    ∃ array : FixedBytes trailerSize, stream.trailer = array.toList ∧
      parseKeyBytes crates sender = .ok (array.slice 0 32) := by
  rcases conforms.trailer with ⟨two, _⟩ | ⟨_, array, same, verifies⟩
  · rcases conforms.header.permitted with ⟨one, _⟩ | ⟨_, none⟩
    · rw [two] at one
      exact absurd one (by decide)
    · cases expected.symm.trans none
  · exact ⟨array, same, verifies.sender sender expected⟩

end Accepting

/-- Whoever accepts a stream, with whatever key, options and deliveries: it is for one key, it has
one plaintext, and those who expect a sender expect the same one. -/
theorem stream_has_one_meaning (crates : Crates) [AddCommGroup crates.curve.Point]
    (prime : crates.curve.PrimeOrder) (host host' : Host) (args args' : DecryptArgs)
    (stdin stdin' : Reader) (patient : Patient stdin) (patient' : Patient stdin')
    (same : content stdin = content stdin')
    (trusted : args.allowUnverifiedStream = false → SpoolTrusted crates host)
    (trusted' : args'.allowUnverifiedStream = false → SpoolTrusted crates host')
    (final final' : Process)
    (ran : runDecrypt crates host args (Process.start stdin) = .ok () final)
    (ran' : runDecrypt crates host' args' (Process.start stdin') = .ok () final') :
    final.stdout = final'.stdout ∧
    (∃ pub, RunsAs crates host args.keyArgs pub ∧ RunsAs crates host' args'.keyArgs pub) ∧
    ∀ sender sender', args.expectedSender = some sender → args'.expectedSender = some sender' →
      parseKeyBytes crates sender = parseKeyBytes crates sender' := by
  obtain ⟨stream, accepted⟩ := (runDecrypt_ends crates host args stdin).ok ran
  obtain ⟨stream', accepted'⟩ := (runDecrypt_ends crates host' args' stdin').ok ran'
  obtain ⟨secret, key, loaded, valid, conforms⟩ := accepted.conforms
  obtain ⟨secret', key', loaded', valid', conforms'⟩ := accepted'.conforms
  have whole := accepted.content_eq
  have whole' := accepted'.content_eq
  rw [runDecrypt_exhausts patient ran, List.append_nil] at whole
  rw [runDecrypt_exhausts patient' ran', List.append_nil] at whole'
  have bytes : stream.bytes = stream'.bytes := by rw [← whole, ← whole', same]
  -- The recipient field is read before any key is used.
  obtain ⟨headers, _⟩ := List.append_inj bytes (by
    rw [FixedBytes.length_toList, FixedBytes.length_toList])
  have publics : crates.curve.publicBytes key = crates.curve.publicBytes key' := by
    rw [← conforms.header.recipient, ← conforms'.header.recipient, FixedBytes.ext headers]
  have transferred := conforms'.toAll.of_ecdh
    (prime.ecdhSharedX_of_publicBytes valid' valid publics.symm)
  rw [← publics] at transferred
  have one : stream = stream' := conforms.toAll.unique crates transferred bytes
  refine ⟨?_, ⟨_, ⟨secret, key, loaded, valid, rfl⟩, ⟨secret', key', loaded', valid', publics.symm⟩⟩,
    ?_⟩
  · rw [accepted.stdout trusted, accepted'.stdout trusted', one]
  · intro sender sender' expected expected'
    obtain ⟨array, trailer, parsed⟩ := conforms.sender_eq expected
    obtain ⟨array', trailer', parsed'⟩ := conforms'.sender_eq expected'
    have arrays : array = array' := FixedBytes.ext (by rw [← trailer, ← trailer', one])
    rw [parsed, parsed', arrays]

open Reference in
/-- One recipient, spooling and streaming. -/
theorem stream_has_one_meaning_sample :
    ∃ final final',
      runDecrypt packages (keyHost sampleRecipient sampleEphemeral)
        (openArgs false sampleSender false) (Process.start (sealedStream false sampleSender
          sampleRecipient sampleEphemeral sampleData)) = .ok () final ∧
      runDecrypt packages (keyHost sampleRecipient sampleEphemeral)
        (openArgs false sampleSender true) (Process.start (sealedStream false sampleSender
          sampleRecipient sampleEphemeral sampleData)) = .ok () final' ∧
      final.stdout = final'.stdout := by
  obtain ⟨final, finished, _⟩ :=
    @sealedStream_accepted false false sampleSender sampleRecipient sampleEphemeral sampleData
      (by decide)
  obtain ⟨final', finished', _⟩ :=
    @sealedStream_accepted false true sampleSender sampleRecipient sampleEphemeral sampleData
      (by decide)
  have patient := (@smooth_sealedStream false sampleSender sampleRecipient sampleEphemeral
    sampleData (by decide)).patient
  exact ⟨final, final', finished, finished', (stream_has_one_meaning packages prime _ _ _ _ _ _
    patient patient rfl (fun _ => keyHost_trusted sampleRecipient sampleEphemeral)
    (fun _ => keyHost_trusted sampleRecipient sampleEphemeral) final final' finished
    finished').1⟩

/-! ## Encryptions -/

section Sessions

variable {sender sender' : Host} {rounds rounds' : Nat} {args args' : EncryptArgs}
  {session session' : EncryptSession crates}

/-- The fields of a header, from its bytes. -/
theorem wireHeader_inj {mode mode' : UInt8} {ephPubX ephPubX' recipX recipX' : FixedBytes 32}
    {salt salt' : FixedBytes 11} {hmac hmac' : FixedBytes 16}
    (same : wireHeader mode ephPubX recipX salt hmac =
      wireHeader mode' ephPubX' recipX' salt' hmac') :
    mode = mode' ∧ ephPubX = ephPubX' ∧ recipX = recipX' ∧ salt = salt' ∧ hmac = hmac' := by
  have modes := wireHeader_mode mode ephPubX recipX salt hmac
  have ephemerals := wireHeader_ephPub mode ephPubX recipX salt hmac
  have recipients := wireHeader_recipPub mode ephPubX recipX salt hmac
  have salts := wireHeader_salt mode ephPubX recipX salt hmac
  have hmacs := wireHeader_hmac mode ephPubX recipX salt hmac
  rw [same] at modes ephemerals recipients salts hmacs
  rw [wireHeader_mode] at modes
  rw [wireHeader_ephPub] at ephemerals
  rw [wireHeader_recipPub] at recipients
  rw [wireHeader_salt] at salts
  rw [wireHeader_hmac] at hmacs
  exact ⟨modes.symm, ephemerals.symm, recipients.symm, salts.symm, hmacs.symm⟩

variable [AddCommGroup crates.curve.Point]

/-- Sessions with one header have one payload key. -/
theorem EncryptSession.streamHeader_eq (prime : crates.curve.PrimeOrder)
    (accepted : encryptSession crates sender rounds args = .ok session)
    (accepted' : encryptSession crates sender' rounds' args' = .ok session')
    (same : session.header sender = session'.header sender') :
    session.streamHeader sender = session'.streamHeader sender' := by
  obtain ⟨modes, ephemerals, recipients, salts, hmacs⟩ := wireHeader_inj same
  obtain ⟨ephPriv, ephKey, keys⟩ := encryptSession_eq_ok accepted
  obtain ⟨ephPriv', ephKey', keys'⟩ := encryptSession_eq_ok accepted'
  obtain ⟨ikm, shared, derived⟩ := keys.derived
  obtain ⟨ikm', shared', derived'⟩ := keys'.derived
  have publics : crates.curve.publicBytes ephKey = crates.curve.publicBytes ephKey' := by
    rw [← keys.ephPubX_eq, ← keys'.ephPubX_eq, ephemerals]
  have shares : ikm = ikm' := by
    rw [prime.ecdhSharedX_of_publicBytes keys.valid keys'.valid publics, recipients,
      shared'] at shared
    exact (Except.ok.inj shared).symm
  rw [shares, salts, derived'] at derived
  obtain ⟨_, payloads⟩ := Prod.mk.inj (Except.ok.inj derived)
  simp only [EncryptSession.streamHeader, modes, recipients, hmacs, payloads]

end Sessions

section Runs

variable {host : Host} {rounds : Nat} {args : EncryptArgs} {stdin : Reader}
  {session : EncryptSession crates} {full : List StreamChunk} {last : StreamChunk}
  {trailer : Bytes} {final : Process}

theorem EncryptedRun.ciphertexts_fit
    (run : EncryptedRun crates host rounds args stdin session full last trailer final) :
    ∀ chunk ∈ full ++ [last], chunk.wire.ciphertext.length ≤ chunkSize := by
  intro chunk member
  obtain ⟨_, sealed⟩ := run.seals.exists_of_mem member
  exact (Nat.le_of_eq (crates.aead.length_encrypt sealed)).trans
    (run.length_plaintext_le chunk member)

/-- A trailer begins with its sender's key. -/
theorem EncryptedRun.signs_as
    (run : EncryptedRun crates host rounds args stdin session full last trailer final)
    (one : args.mode = 0x01) :
    ∃ pub, RunsAs crates host args.keyArgs pub ∧ trailer.take 32 = pub.toList := by
  obtain ⟨ephPriv, ephKey, keys⟩ := encryptSession_eq_ok run.session_eq
  rcases senderSigningKey_eq_ok keys.sender with
    ⟨other, _⟩ | ⟨_, secret, key, loaded, valid, signing⟩
  · exact absurd one other
  · have signed := run.signed
    simp only [TrailerSigned, signing] at signed
    obtain ⟨sig, _, rfl⟩ := signed
    exact ⟨_, ⟨secret, key, loaded, valid, rfl⟩, List.take_left' (FixedBytes.length_toList _)⟩

end Runs

/-- A stream that has been written twice: by whoever, with whatever keys and randomness, the same
was read, for the same recipient, in the same mode, and in Mode 1 under the same sender's key. -/
theorem encryption_commits (crates : Crates) [AddCommGroup crates.curve.Point]
    (laws : Lawful crates) (sender sender' : Host) (rounds rounds' : Nat)
    (args args' : EncryptArgs) (stdin stdin' : Reader) (final final' : Process)
    (ran : runEncrypt crates sender rounds args (Process.start stdin) = .ok () final)
    (ran' : runEncrypt crates sender' rounds' args' (Process.start stdin') = .ok () final')
    (same : final.stdout = final'.stdout) :
    (∃ data, content stdin = data ++ content final.stdin ∧
      content stdin' = data ++ content final'.stdin) ∧
    args.mode = args'.mode ∧
    parseKeyBytes crates args.recipientHex = parseKeyBytes crates args'.recipientHex ∧
    (args.mode = 0x01 → ∃ pub, RunsAs crates sender args.keyArgs pub ∧
      RunsAs crates sender' args'.keyArgs pub) := by
  obtain ⟨session, full, last, trailer, run⟩ :=
    (runEncrypt_ends crates sender rounds args stdin).ok ran
  obtain ⟨session', full', last', trailer', run'⟩ :=
    (runEncrypt_ends crates sender' rounds' args' stdin').ok ran'
  obtain ⟨ephPriv, ephKey, keys⟩ := encryptSession_eq_ok run.session_eq
  obtain ⟨ephPriv', ephKey', keys'⟩ := encryptSession_eq_ok run'.session_eq
  rw [run.stdout_eq, run'.stdout_eq] at same
  obtain ⟨headers, bodies⟩ := List.append_inj same (by
    rw [FixedBytes.length_toList, FixedBytes.length_toList])
  have header := FixedBytes.ext headers
  obtain ⟨modes, _, recipients, _, _⟩ := wireHeader_inj header
  have opens := run.chunks_open laws
  have opens' := run'.chunks_open laws
  rw [EncryptSession.streamHeader_eq laws.prime run.session_eq run'.session_eq header] at opens
  obtain ⟨fulls, lasts, trailers⟩ := wires_unique
    (fun chunk member => (run.intermediate chunk member).1)
    (fun chunk member => (run'.intermediate chunk member).1) run.terminal.1 run'.terminal.1
    run.ciphertexts_fit run'.ciphertexts_fit bodies
  have chunks : full ++ [last] = full' ++ [last'] := by
    refine opens_unique crates opens opens' ?_
    rw [List.map_append, List.map_append, fulls, List.map_singleton, List.map_singleton, lasts]
  refine ⟨⟨_, run.content_eq, ?_⟩, ?_, ?_, ?_⟩
  · rw [chunks]
    exact run'.content_eq
  · rw [← keys.mode_eq, modes, keys'.mode_eq]
  · rw [keys.recipient, keys'.recipient, recipients]
  · intro one
    have one' : args'.mode = 0x01 := by rw [← keys'.mode_eq, ← modes, keys.mode_eq, one]
    obtain ⟨key, runs, front⟩ := run.signs_as one
    obtain ⟨key', runs', front'⟩ := run'.signs_as one'
    rw [trailers, front'] at front
    exact ⟨key, runs, FixedBytes.ext front ▸ runs'⟩

open Reference in
/-- The same five bytes twice: once for a name in hex digits, once for its other name and cut. -/
theorem encryption_commits_sample :
    ∃ final final' : Process,
      runEncrypt packages (keyHost sampleSender sampleEphemeral) 0 (sealArgs false sampleRecipient)
        (Process.start (ofBytes sampleData)) = .ok () final ∧
      runEncrypt packages (keyHost sampleSender sampleEphemeral) 0
        ⟨encodeNpub packages (publicBytes sampleRecipient), 0x01, {}, none⟩
        (Process.start [.ready (Text.utf8 "he"), .ready (Text.utf8 "llo")]) = .ok () final' ∧
      final.stdout = final'.stdout ∧
      (∃ data, content (ofBytes sampleData) = data ++ content final.stdin ∧
        content [.ready (Text.utf8 "he"), .ready (Text.utf8 "llo")] =
          data ++ content final'.stdin) ∧
      parseKeyBytes packages (publicHex sampleRecipient) =
        parseKeyBytes packages (encodeNpub packages (publicBytes sampleRecipient)) := by
  obtain ⟨final, ran, _⟩ :=
    @exists_encrypted false sampleSender sampleRecipient sampleEphemeral sampleData (by decide)
  have cut : Smooth [.ready (Text.utf8 "he"), .ready (Text.utf8 "llo")] :=
    smooth_cons_iff.mpr ⟨by decide, smooth_cons_iff.mpr ⟨by decide, Smooth.nil⟩⟩
  have alike : Alike (Process.start (ofBytes sampleData))
      (Process.start [.ready (Text.utf8 "he"), .ready (Text.utf8 "llo")]) :=
    alike_start (smooth_ofBytes _).patient cut.patient (by decide)
  have names : parseKeyBytes packages (encodeNpub packages (publicBytes sampleRecipient)) =
      parseKeyBytes packages (publicHex sampleRecipient) :=
    (parseKeyBytes_encodeNpub encodings_documented _).trans (parseKeyBytes_hex _ _).symm
  have renamed : runEncrypt packages (keyHost sampleSender sampleEphemeral) 0
      ⟨encodeNpub packages (publicBytes sampleRecipient), 0x01, {}, none⟩ =
        runEncrypt packages (keyHost sampleSender sampleEphemeral) 0
          (sealArgs false sampleRecipient) := by
    unfold runEncrypt encryptSession
    rw [names]
    rfl
  rcases (runEncrypt_mirrored _ 0 (sealArgs false sampleRecipient) _ _ alike).outcomes
      (fun _ _ => id) (fun _ _ => id) with
    ⟨_, later, _, final', ran₁, ran', _, alike'⟩ | ⟨_, _, _, _, stopped, _, _, _⟩
  · cases ran.symm.trans ran₁
    have same : final.stdout = final'.stdout := by
      rw [Process.stdout, alike'.events, Process.stdout]
    rw [← renamed] at ran'
    obtain ⟨data, _, recipients, _⟩ := encryption_commits packages lawful _ _ 0 0 _ _ _ _
      final final' ran ran' same
    exact ⟨final, final', ran, ran', same, data, recipients⟩
  · cases ran.symm.trans stopped

end PipeK1
