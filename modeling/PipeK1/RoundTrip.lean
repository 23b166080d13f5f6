import PipeK1.DecryptCompleteness
import PipeK1.EncryptProperties
import PipeK1.KeyAgreement
import PipeK1.Reference

/-!
# Encryption and decryption

The decryptor reads back what the encryptor wrote: the header's fields, the key
schedule on both sides, and from these the stream as a whole.
-/

set_option autoImplicit false

namespace PipeK1

open ByteData ByteReader Effects Numbering SealedData

variable {crates : Crates}

/-! ## Header fields -/

section Fields

variable (mode : UInt8) (ephPubX recipX : FixedBytes 32) (salt : FixedBytes 11)
  (hmac : FixedBytes 16)

/-- The header as a decryptor reads it. -/
def wireHeader : FixedBytes wireHeaderSize :=
  (header81 mode ephPubX recipX salt).append hmac

theorem wireHeader_header81 :
    (wireHeader mode ephPubX recipX salt hmac).slice 0 81 =
      header81 mode ephPubX recipX salt :=
  (FixedBytes.slice_append_left _ hmac 0 81 (by decide) (by decide)).trans
    (FixedBytes.slice_whole _ (by decide))

theorem wireHeader_hmac : (wireHeader mode ephPubX recipX salt hmac).slice 81 16 = hmac :=
  FixedBytes.slice_append_right (header81 mode ephPubX recipX salt) hmac (by decide)

theorem wireHeader_salt : (wireHeader mode ephPubX recipX salt hmac).slice 70 11 = salt :=
  (FixedBytes.slice_append_left _ hmac 70 11 (by decide) (by decide)).trans
    (FixedBytes.slice_append_right ((((magicHeader.append (FixedBytes.single 0x01)).append
      (FixedBytes.single mode)).append ephPubX).append recipX) salt (by decide))

theorem wireHeader_recipPub : (wireHeader mode ephPubX recipX salt hmac).slice 38 32 = recipX :=
  ((FixedBytes.slice_append_left _ hmac 38 32 (by decide) (by decide)).trans
    (FixedBytes.slice_append_left _ salt 38 32 (by decide) (by decide))).trans
    (FixedBytes.slice_append_right (((magicHeader.append (FixedBytes.single 0x01)).append
      (FixedBytes.single mode)).append ephPubX) recipX (by decide))

theorem wireHeader_ephPub : (wireHeader mode ephPubX recipX salt hmac).slice 6 32 = ephPubX :=
  (((FixedBytes.slice_append_left _ hmac 6 32 (by decide) (by decide)).trans
    (FixedBytes.slice_append_left _ salt 6 32 (by decide) (by decide))).trans
    (FixedBytes.slice_append_left _ recipX 6 32 (by decide) (by decide))).trans
    (FixedBytes.slice_append_right ((magicHeader.append (FixedBytes.single 0x01)).append
      (FixedBytes.single mode)) ephPubX (by decide))

/-- Magic, version and mode stand before everything that varies in length. -/
theorem wireHeader_mode : (wireHeader mode ephPubX recipX salt hmac).byteAt 5 = mode :=
  Option.some.inj ((FixedBytes.getElem?_eq_byteAt
    (wireHeader mode ephPubX recipX salt hmac) 5 (by decide)).symm)

theorem wireHeader_version : (wireHeader mode ephPubX recipX salt hmac).byteAt 4 = 0x01 :=
  Option.some.inj ((FixedBytes.getElem?_eq_byteAt
    (wireHeader mode ephPubX recipX salt hmac) 4 (by decide)).symm)

theorem wireHeader_magic : (wireHeader mode ephPubX recipX salt hmac).slice 0 4 = magicHeader :=
  FixedBytes.ext rfl

end Fields

/-! ## The written stream -/

namespace EncryptSession

variable (host : Host) (session : EncryptSession crates)

/-- The header as the recipient's checks see it. -/
def streamHeader : StreamHeader :=
  ⟨session.mode, session.recipX, session.hmac16 host, session.payloadKey⟩

/-- The stream with these chunks. -/
def stream (full : List StreamChunk) (last : StreamChunk) (trailer : Bytes) : Stream :=
  ⟨session.header host, session.streamHeader host, full, last, trailer⟩

end EncryptSession

variable {host : Host} {rounds : Nat} {argsE : EncryptArgs} {argsD : DecryptArgs}
  {session : EncryptSession crates}

/-- The recipient reaches the keys of the session. -/
theorem SessionKeys.recipient_derives [AddCommGroup crates.curve.Point]
    (prime : crates.curve.PrimeOrder) {ephPriv recipPriv : FixedBytes 32}
    {ephKey recipKey : crates.curve.SigningKey}
    (keys : SessionKeys crates host rounds argsE session ephPriv ephKey)
    (valid : crates.curve.signingKey recipPriv = .ok recipKey)
    (recipient : session.recipX = crates.curve.publicBytes recipKey) :
    ∃ ikm, ecdhSharedX crates recipPriv session.ephPubX = .ok ikm ∧
      deriveKeys crates ikm host.salt = .ok (session.headerKey, session.payloadKey) := by
  obtain ⟨ikm, shared, derived⟩ := keys.derived
  obtain ⟨ikm', shared', sharedRecipient⟩ := prime.ecdhSharedX_agree keys.valid valid
  rw [recipient, shared'] at shared
  cases shared
  exact ⟨ikm, by rw [keys.ephPubX_eq, sharedRecipient], derived⟩

theorem EncryptSession.headerConforms {recipPriv : FixedBytes 32}
    {recipKey : crates.curve.SigningKey}
    (recipient : session.recipX = crates.curve.publicBytes recipKey)
    (derives : ∃ ikm, ecdhSharedX crates recipPriv session.ephPubX = .ok ikm ∧
      deriveKeys crates ikm host.salt = .ok (session.headerKey, session.payloadKey))
    (permitted : (session.mode = 0x01 ∧
        (argsD.expectedSender.isSome ∨ argsD.allowUntrustedSender = true)) ∨
      (session.mode = 0x02 ∧ argsD.expectedSender = none)) :
    HeaderConforms crates argsD recipPriv (crates.curve.publicBytes recipKey)
      (session.header host) (session.streamHeader host) := by
  obtain ⟨ikm, shared, derived⟩ := derives
  have ephPub : (session.header host).slice 6 32 = session.ephPubX :=
    wireHeader_ephPub session.mode session.ephPubX session.recipX host.salt (session.hmac16 host)
  have salt : (session.header host).slice 70 11 = host.salt :=
    wireHeader_salt session.mode session.ephPubX session.recipX host.salt (session.hmac16 host)
  have covered : (session.header host).slice 0 81 =
      header81 session.mode session.ephPubX session.recipX host.salt :=
    wireHeader_header81 session.mode session.ephPubX session.recipX host.salt
      (session.hmac16 host)
  exact {
    magic := wireHeader_magic _ _ _ _ _
    version := wireHeader_version _ _ _ _ _
    mode_eq := (wireHeader_mode _ _ _ _ _).symm
    permitted := permitted
    recipient := (wireHeader_recipPub _ _ _ _ _).trans recipient
    recipPub_eq := recipient
    hmac_eq := (wireHeader_hmac _ _ _ _ _).symm
    liftable := by
      rw [ephPub]
      exact ecdhSharedX_liftable shared
    authentic := by
      rw [ephPub, salt, covered]
      exact ⟨ikm, session.headerKey, shared, derived, rfl⟩ }

/-- A recipient that accepts a session's header reads it as the session meant it. -/
theorem HeaderConforms.of_session [AddCommGroup crates.curve.Point]
    (prime : crates.curve.PrimeOrder) {ephPriv recipPriv : FixedBytes 32}
    {ephKey recipKey : crates.curve.SigningKey} {header : StreamHeader}
    (keys : SessionKeys crates host rounds argsE session ephPriv ephKey)
    (valid : crates.curve.signingKey recipPriv = .ok recipKey)
    (conforms : HeaderConforms crates argsD recipPriv (crates.curve.publicBytes recipKey)
      (session.header host) header) : header = session.streamHeader host := by
  have named : session.recipX = crates.curve.publicBytes recipKey :=
    (wireHeader_recipPub _ _ _ _ _).symm.trans conforms.recipient
  have permitted := conforms.permitted
  rw [conforms.mode_eq.trans (wireHeader_mode _ _ _ _ _)] at permitted
  exact conforms.unique crates (EncryptSession.headerConforms named
    (keys.recipient_derives prime valid named) permitted)

theorem EncryptSession.Seals.opens {counter : UInt64} {chunk : StreamChunk}
    (seals : session.Seals counter chunk)
    (inverts : crates.aead.Inverts session.payloadKey chunkSize)
    (fits : chunk.plaintext.length ≤ chunkSize) :
    StreamChunk.Opens crates (session.streamHeader host) counter chunk := by
  have width : chunk.wire.ciphertext.length = chunk.plaintext.length :=
    crates.aead.length_encrypt seals
  rw [StreamChunk.Opens, width]
  exact inverts.decrypt_encrypt fits seals

/-- A signed trailer, as the recipient checks it. -/
theorem TrailerSigned.conforms (signs : crates.curve.SignsAndVerifies)
    {plaintext trailer : Bytes} (signed : TrailerSigned host session plaintext trailer)
    (permitted : (session.mode = 0x02 ∧ session.sender = none) ∨
      (session.mode = 0x01 ∧ ∃ senderPriv senderKey,
        crates.curve.signingKey senderPriv = .ok senderKey ∧ session.sender = some senderKey ∧
        ∀ exp, argsD.expectedSender = some exp →
          parseKeyBytes crates exp = .ok (crates.curve.publicBytes senderKey))) :
    TrailerConforms crates argsD (session.streamHeader host) plaintext trailer := by
  rcases permitted with ⟨two, anonymous⟩ | ⟨one, senderPriv, senderKey, valid, sender, expected⟩
  · simp only [TrailerSigned, anonymous] at signed
    exact .inl ⟨two, signed⟩
  · simp only [TrailerSigned, sender] at signed
    obtain ⟨sig, signing, rfl⟩ := signed
    obtain ⟨senderVk, decoded, key, framed, verified⟩ :=
      signs.verifies senderPriv senderKey _ sig valid signing
    let array : FixedBytes trailerSize :=
      (crates.curve.publicBytes senderKey).append (crates.curve.signatureBytes sig)
    have pub : array.slice 0 32 = crates.curve.publicBytes senderKey :=
      (FixedBytes.slice_append_left _ _ 0 32 (by decide) (by decide)).trans
        (FixedBytes.slice_whole _ (by decide))
    have sigBytes : array.slice 32 64 = crates.curve.signatureBytes sig :=
      FixedBytes.slice_append_right _ _ (by decide)
    refine .inr ⟨one, array, rfl, ⟨senderVk, decoded, ?_, ?_, verified⟩, ?_⟩
    · rw [pub, key]
    · rw [sigBytes, framed]
    · rw [pub]
      exact expected

/-- The sixth byte written is the mode asked for. -/
theorem runEncrypt_mode {stdin : Reader} {final : Process}
    (ran : runEncrypt crates host rounds argsE (Process.start stdin) = .ok () final) :
    final.stdout[5]? = some argsE.mode := by
  obtain ⟨session, full, last, trailer, run⟩ :=
    (runEncrypt_ends crates host rounds argsE stdin).ok ran
  obtain ⟨ephPriv, ephKey, keys⟩ := encryptSession_eq_ok run.session_eq
  have inside : 5 < (session.header host).toList.length := by
    rw [FixedBytes.length_toList]
    decide
  have field : (session.header host).byteAt 5 = session.mode := wireHeader_mode _ _ _ _ _
  rw [run.stdout_eq, List.getElem?_append_left inside,
    FixedBytes.getElem?_eq_byteAt _ 5 (by decide), field, keys.mode_eq]

/-! ## Correspondents -/

/-- A sender and a recipient whose keys load and who name each other correctly. -/
structure Correspondents (crates : Crates) (sender recipient : Host) (rounds : Nat)
    (argsE : EncryptArgs) (argsD : DecryptArgs) (recipPriv : FixedBytes 32)
    (recipKey : crates.curve.SigningKey) : Prop where
  loaded : loadSecretKey crates recipient argsD.keyArgs = .ok recipPriv
  valid : crates.curve.signingKey recipPriv = .ok recipKey
  named : parseKeyBytes crates argsE.recipientHex = .ok (crates.curve.publicBytes recipKey)
  ephemeral : ∃ ephPriv ephKey,
    ephPrivBytes crates sender rounds argsE.entropyFd = .ok ephPriv ∧
    crates.curve.signingKey ephPriv = .ok ephKey
  mode : (argsE.mode = 0x02 ∧ argsD.expectedSender = none) ∨
    (argsE.mode = 0x01 ∧ ∃ senderPriv senderKey,
      loadSecretKey crates sender argsE.keyArgs = .ok senderPriv ∧
      crates.curve.signingKey senderPriv = .ok senderKey ∧
      (argsD.expectedSender.isSome ∨ argsD.allowUntrustedSender = true) ∧
      ∀ exp, argsD.expectedSender = some exp →
        parseKeyBytes crates exp = .ok (crates.curve.publicBytes senderKey))

section

variable {sender recipient : Host} {recipPriv : FixedBytes 32}
  {recipKey : crates.curve.SigningKey}

theorem senderSigningKey_of_loaded {keyArgs : KeyIntakeArgs} {senderPriv : FixedBytes 32}
    {senderKey : crates.curve.SigningKey}
    (loaded : loadSecretKey crates host keyArgs = .ok senderPriv)
    (valid : crates.curve.signingKey senderPriv = .ok senderKey) :
    senderSigningKey crates host 0x01 keyArgs = .ok (some senderKey) := by
  simp only [senderSigningKey, ↓reduceIte, loaded, valid]
  rfl

/-- Every check of the setup passes where the recipient's text names a point. -/
theorem EncryptLaws.exists_session [AddCommGroup crates.curve.Point] (laws : EncryptLaws crates)
    {recipX ephPriv : FixedBytes 32} {point : crates.curve.Point}
    {ephKey : crates.curve.SigningKey} {senderKey : Option crates.curve.SigningKey}
    (named : parseKeyBytes crates argsE.recipientHex = .ok recipX)
    (lifts : liftX crates recipX = .ok point)
    (ephemeral : ephPrivBytes crates sender rounds argsE.entropyFd = .ok ephPriv)
    (valid : crates.curve.signingKey ephPriv = .ok ephKey)
    (signing : senderSigningKey crates sender argsE.mode argsE.keyArgs = .ok senderKey) :
    ∃ session, encryptSession crates sender rounds argsE = .ok session := by
  obtain ⟨scalar, decoded, _⟩ := laws.prime.exists_scalar valid
  obtain ⟨x, _, shared⟩ :=
    laws.prime.ecdhSharedX_eq decoded lifts (laws.prime.ne_zero_of_liftX lifts)
  obtain ⟨headerKey, payloadKey, derived⟩ :=
    exists_deriveKeys laws.expands (crates.digests.sha256 x.toList) sender.salt
  refine ⟨⟨argsE.mode, recipX, crates.curve.publicBytes ephKey, headerKey, payloadKey,
    senderKey⟩, ?_⟩
  simp only [encryptSession, named, ephemeral, valid, signing, shared, derived, bind,
    Except.bind, Stop.mapErr_ok]
  rfl

/-- The sender of correspondents can start. -/
theorem Correspondents.session_exists [AddCommGroup crates.curve.Point]
    (laws : EncryptLaws crates)
    (agree : Correspondents crates sender recipient rounds argsE argsD recipPriv recipKey) :
    ∃ session, encryptSession crates sender rounds argsE = .ok session := by
  obtain ⟨ephPriv, ephKey, ephemeral, ephValid⟩ := agree.ephemeral
  obtain ⟨scalar, _, finite, coordinate⟩ := laws.prime.exists_scalar agree.valid
  obtain ⟨point, lifts, _⟩ := laws.prime.liftX_of_xCoordinate finite coordinate
  have signing : ∃ senderKey,
      senderSigningKey crates sender argsE.mode argsE.keyArgs = .ok senderKey := by
    rcases agree.mode with ⟨two, _⟩ | ⟨one, senderPriv, senderKey, loaded, valid, _⟩
    · rw [two]
      exact ⟨none, rfl⟩
    · rw [one]
      exact ⟨_, senderSigningKey_of_loaded loaded valid⟩
  obtain ⟨senderKey, signing⟩ := signing
  exact laws.exists_session agree.named lifts ephemeral ephValid signing

theorem EncryptedRun.length_plaintext_le {stdin : Reader} {full : List StreamChunk}
    {last : StreamChunk} {trailer : Bytes} {final : Process}
    (run : EncryptedRun crates sender rounds argsE stdin session full last trailer final) :
    ∀ chunk ∈ full ++ [last], chunk.plaintext.length ≤ chunkSize := by
  intro chunk member
  rcases List.mem_append.mp member with early | late
  · exact (run.intermediate chunk early).2
  · rw [List.mem_singleton.mp late]
    exact run.terminal.2

/-- The sender's chunks open under its payload key. -/
theorem EncryptedRun.chunks_open [AddCommGroup crates.curve.Point] (laws : Lawful crates)
    {stdin : Reader} {full : List StreamChunk} {last : StreamChunk} {trailer : Bytes}
    {final : Process}
    (run : EncryptedRun crates sender rounds argsE stdin session full last trailer final) :
    Numbered (StreamChunk.Opens crates (session.streamHeader sender)) 0 (full ++ [last]) :=
  run.seals.mono fun _ chunk member sealed =>
    sealed.opens (laws.inverts session.payloadKey) (run.length_plaintext_le chunk member)

/-- What the sender wrote conforms to the recipient's grammar when its chunks open. -/
theorem Correspondents.conforms [AddCommGroup crates.curve.Point] (laws : EncryptLaws crates)
    (agree : Correspondents crates sender recipient rounds argsE argsD recipPriv recipKey)
    {stdin : Reader} {full : List StreamChunk} {last : StreamChunk} {trailer : Bytes}
    {final : Process}
    (run : EncryptedRun crates sender rounds argsE stdin session full last trailer final)
    (allFull : ∀ chunk ∈ full, chunk.plaintext.length = chunkSize)
    (opens : Numbered (StreamChunk.Opens crates (session.streamHeader sender)) 0
      (full ++ [last])) :
    (session.stream sender full last trailer).Conforms crates argsD recipPriv
      (crates.curve.publicBytes recipKey) := by
  obtain ⟨ephPriv, ephKey, keys⟩ := encryptSession_eq_ok run.session_eq
  have named : session.recipX = crates.curve.publicBytes recipKey :=
    Except.ok.inj (keys.recipient.symm.trans agree.named)
  have width : ∀ chunk ∈ full ++ [last],
      chunk.wire.ciphertext.length = chunk.plaintext.length := by
    intro chunk member
    obtain ⟨counter, sealed⟩ := run.seals.exists_of_mem member
    exact crates.aead.length_encrypt sealed
  have loaded := keys.sender
  refine ⟨EncryptSession.headerConforms named
    (keys.recipient_derives laws.prime agree.valid named) ?_, ?_, ?_, opens, ?_⟩
  · rw [keys.mode_eq]
    rcases agree.mode with ⟨two, none⟩ | ⟨one, _, _, _, _, allowed, _⟩
    · exact .inr ⟨two, none⟩
    · exact .inl ⟨one, allowed⟩
  · intro chunk member
    refine ⟨(run.intermediate chunk member).1, ?_⟩
    rw [width chunk (List.mem_append_left _ member)]
    exact allFull chunk member
  · refine ⟨run.terminal.1, ?_⟩
    rw [EncryptSession.stream, width last (List.mem_append_right _ (List.mem_singleton_self _))]
    exact run.terminal.2
  · refine run.signed.conforms laws.signs ?_
    rw [keys.mode_eq]
    rcases agree.mode with ⟨two, _⟩ | ⟨one, senderPriv, senderKey, known, valid, _, expected⟩
    · rw [two] at loaded
      exact .inl ⟨two, (Except.ok.inj loaded).symm⟩
    · rw [one, senderSigningKey_of_loaded known valid] at loaded
      exact .inr ⟨one, senderPriv, senderKey, valid, (Except.ok.inj loaded).symm, expected⟩

end

section Runs

variable [AddCommGroup crates.curve.Point] {sender recipient : Host} {recipPriv : FixedBytes 32}
  {recipKey : crates.curve.SigningKey}

/-- Only the chunk counter can stop the sender of correspondents. -/
theorem Correspondents.encrypts (laws : EncryptLaws crates)
    (agree : Correspondents crates sender recipient rounds argsE argsD recipPriv recipKey)
    {stdin : Reader} (smooth : Smooth stdin)
    (short : (content stdin).length < (2 ^ 64 - 1) * chunkSize) :
    ∃ final, runEncrypt crates sender rounds argsE (Process.start stdin) = .ok () final := by
  obtain ⟨session, session_eq⟩ := agree.session_exists laws
  obtain ⟨ephPriv, ephKey, keys⟩ := encryptSession_eq_ok session_eq
  cases ran : runEncrypt crates sender rounds argsE (Process.start stdin) with
  | ok value final => exact ⟨final, rfl⟩
  | error stop final =>
      rcases (runEncrypt_ends crates sender rounds argsE stdin).error ran session session_eq with
        stuck | ⟨signingKey, hash, error, signer, failed⟩
      · exact absurd ⟨smooth, laws.seals _, short⟩ stuck
      · rcases senderSigningKey_eq_ok keys.sender with
          ⟨_, anonymous⟩ | ⟨_, senderPriv, senderKey, _, valid, sender_eq⟩
        · rw [anonymous] at signer
          cases signer
        · rw [sender_eq] at signer
          cases signer
          obtain ⟨signature, works⟩ := laws.signs.signs senderPriv signingKey hash valid
          rw [works] at failed
          cases failed

/-- A stream whose intermediate chunks are full gives the recipient its plaintext. -/
theorem Correspondents.decrypts_of_full (laws : Lawful crates)
    (agree : Correspondents crates sender recipient rounds argsE argsD recipPriv recipKey)
    {stdinE stdinD : Reader} (smoothD : Smooth stdinD) {full : List StreamChunk}
    {last : StreamChunk} {trailer : Bytes} {finalE : Process}
    (run : EncryptedRun crates sender rounds argsE stdinE session full last trailer finalE)
    (allFull : ∀ chunk ∈ full, chunk.plaintext.length = chunkSize)
    (disk : argsD.allowUnverifiedStream = false →
      recipient.disk.Honest ∧ recipient.disk.Takes (21 * (plaintextOf (full ++ [last])).length))
    (ceiling : argsD.allowUnverifiedStream = false → ∀ max, argsD.maxSize = some max →
      (plaintextOf (full ++ [last])).length ≤ max.toNat)
    (carried : content stdinD = finalE.stdout) :
    ∃ finalD, runDecrypt crates recipient argsD (Process.start stdinD) = .ok () finalD ∧
      finalD.stdout = plaintextOf (full ++ [last]) := by
  have opens : Numbered (StreamChunk.Opens crates (session.streamHeader sender)) 0
      (full ++ [last]) :=
    run.seals.mono fun _ chunk member sealed =>
      sealed.opens (laws.inverts session.payloadKey) (run.length_plaintext_le chunk member)
  have conforms := agree.conforms laws.toEncryptLaws run allFull opens
  have bytes : content stdinD = (session.stream sender full last trailer).bytes := by
    rw [carried, run.stdout_eq]
    rfl
  have trusted : argsD.allowUnverifiedStream = false → SpoolTrusted crates recipient :=
    fun spooling => ⟨laws.inverts _, (disk spooling).1⟩
  obtain ⟨finalD, finished⟩ := runDecrypt_of_conforms agree.loaded agree.valid conforms
    (fun spooling => ⟨trusted spooling, (disk spooling).2, ceiling spooling⟩) smoothD bytes
  obtain ⟨stream, accepted⟩ := (runDecrypt_ends crates recipient argsD stdinD).ok finished
  obtain ⟨recipPriv', recipKey', loaded', valid', conforms'⟩ := accepted.conforms
  rw [agree.loaded] at loaded'
  cases loaded'
  rw [agree.valid] at valid'
  cases valid'
  have same : stream = session.stream sender full last trailer := by
    refine conforms'.unique crates conforms ?_
    rw [← bytes, accepted.content_eq, accepted.exhausted smoothD, List.append_nil]
  refine ⟨finalD, finished, ?_⟩
  rw [accepted.stdout trusted, same]
  rfl

/-- The recipient of correspondents gets back what the sender read. -/
theorem Correspondents.decrypts (laws : Lawful crates)
    (agree : Correspondents crates sender recipient rounds argsE argsD recipPriv recipKey)
    {stdinE stdinD : Reader} (smoothE : Smooth stdinE) (smoothD : Smooth stdinD)
    (disk : argsD.allowUnverifiedStream = false →
      recipient.disk.Honest ∧ recipient.disk.Takes (21 * (content stdinE).length))
    (ceiling : argsD.allowUnverifiedStream = false →
      ∀ max, argsD.maxSize = some max → (content stdinE).length ≤ max.toNat)
    {finalE : Process}
    (ran : runEncrypt crates sender rounds argsE (Process.start stdinE) = .ok () finalE)
    (carried : content stdinD = finalE.stdout) :
    ∃ finalD, runDecrypt crates recipient argsD (Process.start stdinD) = .ok () finalD ∧
      finalD.stdout = content stdinE := by
  obtain ⟨session, full, last, trailer, run⟩ :=
    (runEncrypt_ends crates sender rounds argsE stdinE).ok ran
  have plaintext : content stdinE = plaintextOf (full ++ [last]) := by
    have whole := run.content_eq
    rwa [run.exhausted smoothE, List.append_nil] at whole
  rw [plaintext] at disk ceiling ⊢
  exact agree.decrypts_of_full laws smoothD run (run.allFull smoothE) disk ceiling carried

/-- A Mode 2 stream proves nothing about its sender: there is one for every recipient. -/
theorem Lawful.exists_anonymous_stream (laws : Lawful crates) (host : Host)
    (valid : crates.curve.signingKey recipPriv = .ok recipKey)
    (unexpected : argsD.expectedSender = none) :
    ∃ stream : Stream,
      stream.Conforms crates argsD recipPriv (crates.curve.publicBytes recipKey) ∧
      stream.plaintext = [] ∧ stream.header.mode = 0x02 := by
  obtain ⟨ikm, shared, _⟩ := laws.prime.ecdhSharedX_agree valid valid
  obtain ⟨headerKey, payloadKey, derived⟩ := exists_deriveKeys laws.expands ikm host.salt
  obtain ⟨ciphertext, tag, sealed, _⟩ := laws.inverts payloadKey (buildNonce 0 0x01)
    (streamAad 0x02 (crates.curve.publicBytes recipKey) 0 0 0x01) [] (Nat.zero_le _)
  let session : EncryptSession crates := ⟨0x02, crates.curve.publicBytes recipKey,
    crates.curve.publicBytes recipKey, headerKey, payloadKey, none⟩
  let last : StreamChunk := ⟨⟨0x01, ciphertext, tag⟩, []⟩
  have seals : session.Seals 0 last := sealed
  refine ⟨session.stream host [] last [], ⟨?_, ?_, ⟨rfl, ?_⟩, ?_, .inl ⟨rfl, rfl⟩⟩, rfl, rfl⟩
  · exact EncryptSession.headerConforms rfl ⟨ikm, shared, derived⟩ (.inr ⟨rfl, unexpected⟩)
  · exact fun _ none => absurd none List.not_mem_nil
  · exact (Nat.le_of_eq (crates.aead.length_encrypt sealed)).trans (Nat.zero_le _)
  · exact numbered_singleton_iff.mpr (seals.opens (laws.inverts payloadKey) (Nat.zero_le _))

end Runs

/-! ## On the reference crates -/

namespace Reference

def publicHex (key : Scalar) : String := Hex.encode (publicBytes key).toList

def sealArgs (anonymous : Bool) (recipient : Scalar) : EncryptArgs :=
  ⟨publicHex recipient, if anonymous then 0x02 else 0x01, {}, none⟩

def openArgs (anonymous : Bool) (sender : Scalar) (unverified : Bool) : DecryptArgs :=
  ⟨if anonymous then none else some (publicHex sender), false, unverified, none, {}⟩

/-- In Mode 1 with the sender expected, in Mode 2 with none. -/
theorem correspondents (aead : Cipher) (sender recipient ephemeral : Scalar) (rounds : Nat)
    (anonymous unverified : Bool) :
    Correspondents (packagesWith aead) (keyHost sender ephemeral) (keyHost recipient ephemeral)
      rounds (sealArgs anonymous recipient) (openArgs anonymous sender unverified)
      (secretBytes recipient) recipient where
  loaded := loadSecretKey_keyHost aead recipient ephemeral
  valid := signingKey_secretBytes recipient
  named := parseKeyBytes_hex aead (publicBytes recipient)
  ephemeral := ⟨secretBytes ephemeral, ephemeral, rfl, signingKey_secretBytes ephemeral⟩
  mode := by
    cases anonymous with
    | true => exact .inl ⟨rfl, rfl⟩
    | false =>
        refine .inr ⟨rfl, secretBytes sender, sender, loadSecretKey_keyHost aead sender ephemeral,
          signingKey_secretBytes sender, .inl rfl, ?_⟩
        intro exp named
        rw [← Option.some.inj named]
        exact parseKeyBytes_hex aead (publicBytes sender)

theorem keyHost_takes (secret ephemeral : Scalar) {size : Nat} (fits : size ≤ 2 ^ 40) :
    (keyHost secret ephemeral).disk.Takes size :=
  ⟨fun _ none => absurd none List.not_mem_nil, fits⟩

theorem keyHost_trusted (secret ephemeral : Scalar) :
    SpoolTrusted packages (keyHost secret ephemeral) :=
  ⟨lawful.inverts _, keyHost_disk_honest secret ephemeral⟩

def writtenBy : EStateM.Result Stop Process Unit → Reader
  | .ok _ final => ofBytes final.stdout
  | .error _ _ => []

/-- The stream that the sender makes of `data`. -/
def sealedStream (anonymous : Bool) (sender recipient ephemeral : Scalar) (data : Bytes) :
    Reader :=
  writtenBy (runEncrypt packages (keyHost sender ephemeral) 0 (sealArgs anonymous recipient)
    (Process.start (ofBytes data)))

section Sealed

variable (anonymous unverified : Bool) (sender recipient ephemeral : Scalar) {data : Bytes}
  (short : data.length ≤ 2 ^ 32)
include short

theorem exists_encrypted :
    ∃ final, runEncrypt packages (keyHost sender ephemeral) 0 (sealArgs anonymous recipient)
        (Process.start (ofBytes data)) = .ok () final ∧
      sealedStream anonymous sender recipient ephemeral data = ofBytes final.stdout := by
  have agree := correspondents ChaCha20Poly1305.cipher sender recipient ephemeral 0 anonymous true
  obtain ⟨final, encrypted⟩ := agree.encrypts lawful.toEncryptLaws (smooth_ofBytes data) (by
    rw [content_ofBytes]
    exact Nat.lt_of_le_of_lt short (by decide))
  exact ⟨final, encrypted, congrArg writtenBy encrypted⟩

theorem sealedStream_mode :
    (content (sealedStream anonymous sender recipient ephemeral data))[5]? =
      some (if anonymous then 0x02 else 0x01) := by
  obtain ⟨final, encrypted, stream⟩ := exists_encrypted anonymous sender recipient ephemeral short
  rw [stream, content_ofBytes]
  exact runEncrypt_mode encrypted

theorem smooth_sealedStream : Smooth (sealedStream anonymous sender recipient ephemeral data) := by
  obtain ⟨final, _, stream⟩ := exists_encrypted anonymous sender recipient ephemeral short
  rw [stream]
  exact smooth_ofBytes final.stdout

/-- It is accepted and gives `data` back. -/
theorem sealedStream_accepted :
    ∃ final, runDecrypt packages (keyHost recipient ephemeral)
        (openArgs anonymous sender unverified)
        (Process.start (sealedStream anonymous sender recipient ephemeral data)) = .ok () final ∧
      final.stdout = data := by
  have agree := correspondents ChaCha20Poly1305.cipher sender recipient ephemeral 0 anonymous
    unverified
  obtain ⟨finalE, encrypted, stream⟩ :=
    exists_encrypted anonymous sender recipient ephemeral short
  have whole : (content (ofBytes data)).length ≤ 2 ^ 32 := by rwa [content_ofBytes]
  obtain ⟨finalD, decrypted, output⟩ := agree.decrypts lawful (smooth_ofBytes data)
    (smooth_ofBytes finalE.stdout)
    (fun _ => ⟨keyHost_disk_honest recipient ephemeral, keyHost_takes recipient ephemeral (by omega)⟩)
    (fun _ _ unlimited => nomatch unlimited) encrypted (content_ofBytes _)
  refine ⟨finalD, ?_, by rw [output, content_ofBytes]⟩
  rw [stream]
  exact decrypted

end Sealed

end Reference

/-- Whatever the plaintext, the mode and the way both inputs are cut into short reads, the
recipient gets back what the sender read. -/
theorem runDecrypt_runEncrypt (crates : Crates) [AddCommGroup crates.curve.Point]
    (laws : Lawful crates) (sender recipient : Host) (rounds : Nat) (argsE : EncryptArgs)
    (argsD : DecryptArgs) (recipPriv : FixedBytes 32) (recipKey : crates.curve.SigningKey)
    (agree : Correspondents crates sender recipient rounds argsE argsD recipPriv recipKey)
    (stdinE : Reader) (smoothE : Smooth stdinE)
    (disk : argsD.allowUnverifiedStream = false →
      recipient.disk.Honest ∧ recipient.disk.Takes (21 * (content stdinE).length))
    (ceiling : ∀ max, argsD.maxSize = some max → (content stdinE).length ≤ max.toNat) :
    ((content stdinE).length < (2 ^ 64 - 1) * chunkSize →
      ∃ finalE, runEncrypt crates sender rounds argsE (Process.start stdinE) = .ok () finalE) ∧
    ∀ finalE, runEncrypt crates sender rounds argsE (Process.start stdinE) = .ok () finalE →
      ∀ stdinD, Smooth stdinD → content stdinD = finalE.stdout →
        ∃ finalD, runDecrypt crates recipient argsD (Process.start stdinD) = .ok () finalD ∧
          finalD.stdout = content stdinE :=
  ⟨agree.encrypts laws.toEncryptLaws smoothE,
    fun _ ran _ smoothD carried => agree.decrypts laws smoothE smoothD disk (fun _ => ceiling) ran carried⟩

open Reference in
/-- Five bytes from the key 3 to the key 1, in Mode 1, spooled. -/
theorem runDecrypt_runEncrypt_sample :
    ∃ finalE, runEncrypt packages (keyHost sampleSender sampleEphemeral) 0
        (sealArgs false sampleRecipient) (Process.start (ofBytes sampleData)) = .ok () finalE ∧
      ∃ finalD, runDecrypt packages (keyHost sampleRecipient sampleEphemeral)
          (openArgs false sampleSender false) (Process.start (ofBytes finalE.stdout)) =
            .ok () finalD ∧
        finalD.stdout = content (ofBytes sampleData) := by
  obtain ⟨encrypts, decrypts⟩ := runDecrypt_runEncrypt packages lawful
    (keyHost sampleSender sampleEphemeral) (keyHost sampleRecipient sampleEphemeral) 0
    (sealArgs false sampleRecipient) (openArgs false sampleSender false)
    (secretBytes sampleRecipient) sampleRecipient
    (correspondents _ sampleSender sampleRecipient sampleEphemeral 0 false false)
    (ofBytes sampleData) (smooth_ofBytes sampleData)
    (fun _ => ⟨keyHost_disk_honest sampleRecipient sampleEphemeral,
      keyHost_takes sampleRecipient sampleEphemeral (by decide)⟩)
    (fun _ unlimited => nomatch unlimited)
  obtain ⟨finalE, encrypted⟩ := encrypts (by decide)
  exact ⟨finalE, encrypted,
    decrypts finalE encrypted _ (smooth_ofBytes finalE.stdout) (content_ofBytes _)⟩

end PipeK1
