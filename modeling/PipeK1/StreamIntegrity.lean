import PipeK1.CanonicalFraming

/-!
# Stream integrity

Among the streams of finitely many honest runs with distinct payload keys, an
accepted byte string with the header of one of them is that run's stream.
-/

set_option autoImplicit false

namespace PipeK1

open ByteData ByteReader Effects Numbering SealedData

/-- A finished encryption. -/
structure HonestRun (crates : Crates) where
  host : Host
  rounds : Nat
  args : EncryptArgs
  stdin : Reader
  session : EncryptSession crates
  final : Process
  session_eq : encryptSession crates host rounds args = .ok session
  finished : runEncrypt crates host rounds args (Process.start stdin) = .ok () final

variable {crates : Crates}

/-- What the event sealed under `key`. -/
def Event.sealedUnder (key : FixedBytes 32) :
    Event → Option (Sealing (FixedBytes 12) (FixedBytes 16))
  | .chunkSealed key' sealing => if key' = key then some sealing else none
  | _ => none

/-- Everything the runs have sealed under `key`. -/
def honestSealings (runs : List (HonestRun crates)) (key : FixedBytes 32) :
    List (Sealing (FixedBytes 12) (FixedBytes 16)) :=
  runs.flatMap fun run => run.final.events.filterMap (Event.sealedUnder key)

theorem mem_honestSealings {runs : List (HonestRun crates)} {key : FixedBytes 32}
    {sealing : Sealing (FixedBytes 12) (FixedBytes 16)}
    (member : sealing ∈ honestSealings runs key) :
    ∃ run ∈ runs, .chunkSealed key sealing ∈ run.final.events := by
  obtain ⟨run, honest, sealedHere⟩ := List.mem_flatMap.mp member
  obtain ⟨event, recorded, found⟩ := List.mem_filterMap.mp sealedHere
  cases event with
  | chunkSealed key' sealing' =>
      simp only [Event.sealedUnder, Option.ite_none_right_eq_some, Option.some.injEq] at found
      obtain ⟨rfl, rfl⟩ := found
      exact ⟨run, honest, recorded⟩
  | _ => simp [Event.sealedUnder] at found

theorem HonestRun.encrypted (run : HonestRun crates) :
    ∃ full last trailer, EncryptedRun crates run.host run.rounds run.args run.stdin run.session
      full last trailer run.final := by
  obtain ⟨session, full, last, trailer, encrypted⟩ :=
    (runEncrypt_ends crates run.host run.rounds run.args run.stdin).ok run.finished
  have same : session = run.session :=
    Except.ok.inj (encrypted.session_eq.symm.trans run.session_eq)
  subst same
  exact ⟨full, last, trailer, encrypted⟩

/-! ## Nonces -/

/-- Counter and terminal tag can be read off a nonce. -/
theorem buildNonce_injective {counter counter' : UInt64} {termTag termTag' : UInt8}
    (same : buildNonce counter termTag = buildNonce counter' termTag') :
    counter = counter' ∧ termTag = termTag' := by
  have lists : ((u64Be counter).toList ++ (FixedBytes.zeros 3).toList) ++ [termTag] =
      ((u64Be counter').toList ++ (FixedBytes.zeros 3).toList) ++ [termTag'] :=
    congrArg FixedBytes.toList same
  obtain ⟨fields, tags⟩ := List.append_inj' lists rfl
  exact ⟨u64Be_injective (FixedBytes.ext (List.append_cancel_right fields)),
    (List.cons.inj tags).1⟩

/-- A sealing determines the chunk and, below the counter's range, its place. -/
theorem StreamChunk.sealing_injective {mode mode' : UInt8} {recipPub recipPub' : FixedBytes 32}
    {i j : Nat} (small : i < 2 ^ 64) (small' : j < 2 ^ 64) {chunk chunk' : StreamChunk}
    (same : chunk.sealing mode recipPub (UInt64.ofNat i) =
      chunk'.sealing mode' recipPub' (UInt64.ofNat j)) : i = j ∧ chunk = chunk' := by
  simp only [StreamChunk.sealing, Sealing.mk.injEq] at same
  obtain ⟨nonces, _, plaintexts, ciphertexts, tags⟩ := same
  obtain ⟨counters, termTags⟩ := buildNonce_injective nonces
  have places := congrArg UInt64.toNat counters
  rw [UInt64.toNat_ofNat_of_lt' small, UInt64.toNat_ofNat_of_lt' small'] at places
  refine ⟨places, ?_⟩
  obtain ⟨⟨termTag, ciphertext, tag⟩, plaintext⟩ := chunk
  obtain ⟨⟨termTag', ciphertext', tag'⟩, plaintext'⟩ := chunk'
  simp only at plaintexts ciphertexts tags termTags
  subst plaintexts ciphertexts tags termTags
  rfl

/-! ## Chunks -/

section Chunks

variable {runs : List (HonestRun crates)} {run : HonestRun crates}

/-- Under an honest payload key every chunk that opens is the run's own, in its own place. -/
theorem HonestRun.chunk_of_opens (honest : run ∈ runs)
    (distinct : (runs.map fun run => run.session.payloadKey).Nodup)
    (ideal : crates.aead.OpensOnly run.session.payloadKey
      (honestSealings runs run.session.payloadKey))
    {full : List StreamChunk} {last : StreamChunk} {trailer : Bytes}
    (encrypted : EncryptedRun crates run.host run.rounds run.args run.stdin run.session full last
      trailer run.final) {i : Nat} (small : i < 2 ^ 64) {chunk : StreamChunk}
    (opens : StreamChunk.Opens crates (run.session.streamHeader run.host) (UInt64.ofNat i)
      chunk) : (full ++ [last])[i]? = some chunk := by
  have width : chunk.plaintext.length = chunk.wire.ciphertext.length :=
    crates.aead.length_decrypt opens
  obtain ⟨sealer, honest', recorded⟩ := mem_honestSealings (ideal _ _ _ _ _ opens)
  have itself : sealer = run := by
    obtain ⟨_, _, _, encrypted'⟩ := sealer.encrypted
    exact List.inj_on_of_nodup_map distinct honest' honest
      ((encrypted'.sealings _ _).mp recorded).1.symm
  rw [itself] at recorded
  obtain ⟨_, j, chunk', found, same⟩ := (encrypted.sealings _ _).mp recorded
  have few := encrypted.few
  have bound : j < (full ++ [last]).length := (List.getElem?_eq_some_iff.mp found).1
  rw [List.length_append, List.length_singleton] at bound
  have opened : chunk.sealing run.session.mode run.session.recipX (UInt64.ofNat i) =
      chunk'.sealing run.session.mode run.session.recipX (UInt64.ofNat j) := by
    rw [← same, StreamChunk.sealing, width]
    rfl
  obtain ⟨rfl, rfl⟩ := StreamChunk.sealing_injective small (by omega) opened
  exact found

/-- The chunks of an accepted stream with an honest payload key are the run's. -/
theorem HonestRun.chunks_of_opens (honest : run ∈ runs)
    (distinct : (runs.map fun run => run.session.payloadKey).Nodup)
    (ideal : crates.aead.OpensOnly run.session.payloadKey
      (honestSealings runs run.session.payloadKey))
    {full full' : List StreamChunk} {last last' : StreamChunk} {trailer : Bytes}
    (encrypted : EncryptedRun crates run.host run.rounds run.args run.stdin run.session full last
      trailer run.final)
    (opens : Numbered (StreamChunk.Opens crates (run.session.streamHeader run.host)) 0
      (full' ++ [last']))
    (allFull : ∀ chunk ∈ full', chunk.Full) (terminal : last'.Terminal) :
    full' ++ [last'] = full ++ [last] := by
  have few := encrypted.few
  have intermediate : ∀ {chunk : StreamChunk}, chunk.wire.termTag = 0x00 →
      ¬ chunk.wire.termTag = 0x01 := by
    intro chunk tag
    rw [tag]
    decide
  refine eq_of_marked_last (fun chunk : StreamChunk => chunk.wire.termTag = 0x01)
    (fun chunk member => intermediate (encrypted.intermediate chunk member).1)
    (fun chunk member => intermediate (allFull chunk member).1) encrypted.terminal.1 terminal.1 ?_
  intro i chunk inside found
  have opened := opens i chunk found
  rw [UInt64.zero_add] at opened
  exact run.chunk_of_opens honest distinct ideal encrypted (by omega) opened

end Chunks

/-! ## Streams -/

section Trailers

variable {session : EncryptSession crates} {plaintext trailer : Bytes}

theorem TrailerConforms.length {args : DecryptArgs} {header : StreamHeader}
    (conforms : TrailerConforms crates args header plaintext trailer) :
    trailer.length = if header.mode = 0x01 then trailerSize else 0 := by
  rcases conforms with ⟨two, rfl⟩ | ⟨one, array, rfl, _⟩
  · rw [two]
    rfl
  · rw [if_pos one, array.length_toList]

theorem TrailerSigned.length {host : Host} {rounds : Nat} {args : EncryptArgs}
    {ephPriv : FixedBytes 32} {ephKey : crates.curve.SigningKey}
    (signed : TrailerSigned host session plaintext trailer)
    (keys : SessionKeys crates host rounds args session ephPriv ephKey) :
    trailer.length = if session.mode = 0x01 then trailerSize else 0 := by
  rw [keys.mode_eq]
  rcases senderSigningKey_eq_ok keys.sender with ⟨other, anonymous⟩ | ⟨one, _, key, _, _, sender⟩
  · simp only [TrailerSigned, anonymous] at signed
    rw [if_neg other, signed, List.length_nil]
  · simp only [TrailerSigned, sender] at signed
    obtain ⟨sig, _, rfl⟩ := signed
    rw [if_pos one, List.length_append, FixedBytes.length_toList, FixedBytes.length_toList]

end Trailers

/-! ## On the reference crates -/

/-- What an uninterrupted run has written, from what it was given. -/
theorem HonestRun.length_stdout (run : HonestRun crates) (smooth : Smooth run.stdin) :
    run.final.stdout.length = wireHeaderSize + (content run.stdin).length +
      21 * chunkCount (content run.stdin).length +
        if run.session.mode = 0x01 then trailerSize else 0 := by
  obtain ⟨session, full, last, trailer, encrypted, buffered⟩ :=
    (runEncrypt_buffers crates run.host run.rounds run.args run.stdin).ok run.finished
  have same : session = run.session :=
    Except.ok.inj (encrypted.session_eq.symm.trans run.session_eq)
  subst same
  have framing := encrypted.framing smooth buffered
  rw [framing.length_stdout, framing.count]

/-- Two uninterrupted streams, the second behind the first one's header. -/
def HonestRun.splice (run other : HonestRun crates) : Bytes :=
  run.final.stdout.take wireHeaderSize ++ other.final.stdout.drop wireHeaderSize

section Splice

variable {run other : HonestRun crates} (smooth : Smooth run.stdin)
include smooth

theorem HonestRun.length_header : (run.final.stdout.take wireHeaderSize).length = wireHeaderSize := by
  have length := run.length_stdout smooth
  exact List.length_take_of_le (by omega)

theorem HonestRun.take_splice :
    (run.splice other).take wireHeaderSize = run.final.stdout.take wireHeaderSize :=
  List.take_left' (HonestRun.length_header smooth)

theorem HonestRun.length_splice (smooth' : Smooth other.stdin) :
    (run.splice other).length = other.final.stdout.length := by
  have length := other.length_stdout smooth'
  rw [HonestRun.splice, List.length_append, HonestRun.length_header smooth, List.length_drop]
  omega

end Splice

namespace Reference

def payloadKeyFrom : Except String (FixedBytes 32) → FixedBytes 32
  | .ok ikm => Sha256.hkdf (FixedBytes.zeros 11).toList ikm.toList infoStream
  | .error _ => FixedBytes.zeros 32

/-- The payload key of a stream to `recipient` with this ephemeral key. -/
def streamKey (recipient ephemeral : Scalar) : FixedBytes 32 :=
  payloadKeyFrom (ecdhSharedX packages (secretBytes ephemeral) (publicBytes recipient))

/-- Key agreement does not touch the cipher. -/
theorem ecdhSharedX_packagesWith (aead : Cipher) (privScalar pubX : FixedBytes 32) :
    ecdhSharedX (packagesWith aead) privScalar pubX = ecdhSharedX packages privScalar pubX := by
  dsimp only [ecdhSharedX, liftX, packages, packagesWith]
  cases curve.nonZeroScalar privScalar with
  | error e => rfl
  | ok sk =>
      cases curve.fromSec1 (Secp256k1.evenSec1 pubX) with
      | error e => rfl
      | ok point => dsimp only

theorem deriveKeys_packagesWith (aead : Cipher) (ikm : FixedBytes 32) (salt : FixedBytes 11) :
    deriveKeys (packagesWith aead) ikm salt =
      .ok (Sha256.hkdf salt.toList ikm.toList infoHeader,
        Sha256.hkdf salt.toList ikm.toList infoStream) := rfl

section Session

variable {recipient ephemeral : Scalar}

theorem session_of_anonymous {aead : Cipher} {sender : Scalar}
    {session : EncryptSession (packagesWith aead)}
    (session_eq : encryptSession (packagesWith aead) (keyHost sender ephemeral) 0
      (sealArgs true recipient) = .ok session) :
    session.payloadKey = streamKey recipient ephemeral ∧ session.mode = 0x02 ∧
      session.recipX = publicBytes recipient := by
  obtain ⟨ephPriv, ephKey, keys⟩ := encryptSession_eq_ok session_eq
  have recipX : session.recipX = publicBytes recipient :=
    Except.ok.inj (keys.recipient.symm.trans (parseKeyBytes_hex aead (publicBytes recipient)))
  have drawn : secretBytes ephemeral = ephPriv := Except.ok.inj keys.ephemeral
  obtain ⟨ikm, shared, derived⟩ := keys.derived
  rw [recipX, ← drawn, ecdhSharedX_packagesWith] at shared
  rw [deriveKeys_packagesWith, Except.ok.injEq, Prod.mk.injEq] at derived
  refine ⟨?_, keys.mode_eq, recipX⟩
  rw [streamKey, shared, ← derived.2]
  rfl

theorem opens_packagesWith {aead : Cipher} {header : StreamHeader} {counter : UInt64}
    {chunk : StreamChunk} :
    StreamChunk.Opens (packagesWith aead) header counter chunk ↔
      aead.decrypt header.payloadKey (buildNonce counter chunk.wire.termTag)
        (streamAad header.mode header.recipPub chunk.wire.ciphertext.length counter
          chunk.wire.termTag) chunk.wire.ciphertext chunk.wire.tag = .ok chunk.plaintext :=
  Iff.rfl

end Session

/-! ### Runs under another cipher -/

def sessionUnder (aead : Cipher) (session : EncryptSession packages) :
    EncryptSession (packagesWith aead) :=
  ⟨session.mode, session.recipX, session.ephPubX, session.headerKey, session.payloadKey,
    session.sender⟩

section Setup

variable (aead : Cipher) (host : Host)

theorem parseKeyBytes_packagesWith :
    parseKeyBytes (packagesWith aead) = parseKeyBytes packages := by
  have encodings : (packagesWith aead).encodings = packages.encodings := rfl
  unfold parseKeyBytes
  rw [encodings]

theorem loadSecretKey_packagesWith (keyArgs : KeyIntakeArgs) :
    loadSecretKey (packagesWith aead) host keyArgs = loadSecretKey packages host keyArgs := by
  have derived : deriveBip85OperationalKey (packagesWith aead) =
      deriveBip85OperationalKey packages := by
    unfold deriveBip85OperationalKey
    rfl
  unfold loadSecretKey gitFallbackKey
  rw [parseKeyBytes_packagesWith, derived]

theorem senderSigningKey_packagesWith (mode : UInt8) (keyArgs : KeyIntakeArgs) :
    senderSigningKey (packagesWith aead) host mode keyArgs =
      senderSigningKey packages host mode keyArgs := by
  unfold senderSigningKey
  rw [loadSecretKey_packagesWith]
  rfl

theorem ephPrivBytes_packagesWith (rounds : Nat) (entropyFd : Option Int) :
    ephPrivBytes (packagesWith aead) host rounds entropyFd =
      ephPrivBytes packages host rounds entropyFd := by
  have searched : ∀ rounds, rehash (packagesWith aead) rounds = rehash packages rounds := by
    intro rounds
    induction rounds with
    | zero => rfl
    | succ rounds ih =>
        funext mixed
        rw [rehash, rehash, ih]
        rfl
  unfold ephPrivBytes
  rw [searched]
  rfl

theorem encryptSession_packagesWith (rounds : Nat) (args : EncryptArgs) :
    encryptSession (packagesWith aead) host rounds args =
      sessionUnder aead <$> encryptSession packages host rounds args := by
  unfold encryptSession
  simp only [map_bind, map_pure, parseKeyBytes_packagesWith, ephPrivBytes_packagesWith,
    senderSigningKey_packagesWith, ecdhSharedX_packagesWith]
  rfl

theorem header_sessionUnder (session : EncryptSession packages) :
    (sessionUnder aead session).header host = session.header host := rfl

theorem writeTrailer_sessionUnder (session : EncryptSession packages) :
    writeTrailer host (sessionUnder aead session) = writeTrailer host session := by
  funext hashed
  have signer : (sessionUnder aead session).sender = session.sender := rfl
  unfold writeTrailer
  rw [signer]
  cases session.sender <;> rfl

end Setup

section Sealing

variable {aead : Cipher} (sealer : aead.encrypt = ChaCha20Poly1305.cipher.encrypt)
include sealer

theorem encryptChunks_sessionUnder (session : EncryptSession packages) :
    encryptChunks (sessionUnder aead session) = encryptChunks session := by
  have stepped : encryptStep (sessionUnder aead session) = encryptStep session := by
    funext state
    have sealer' : (packagesWith aead).aead.encrypt = packages.aead.encrypt := sealer
    unfold encryptStep
    rw [sealer']
    rfl
  funext state
  change loop _ (encryptStep (sessionUnder aead session)) _ state =
    loop _ (encryptStep session) _ state
  congr 1

/-- Encryption does not depend on what the cipher opens. -/
theorem runEncrypt_packagesWith (host : Host) (rounds : Nat) (args : EncryptArgs) :
    runEncrypt (packagesWith aead) host rounds args = runEncrypt packages host rounds args := by
  unfold runEncrypt
  rw [encryptSession_packagesWith]
  cases encryptSession packages host rounds args with
  | error stop => rfl
  | ok session =>
      change (do
        writeStdout ((sessionUnder aead session).header host).toList
        let filled ← fillBuffer zeroBuffer
        let hashed ← encryptChunks (sessionUnder aead session)
          ⟨filled.2, zeroBuffer, filled.1, 0, []⟩
        writeTrailer host (sessionUnder aead session) hashed) = _
      simp only [header_sessionUnder, encryptChunks_sessionUnder sealer,
        writeTrailer_sessionUnder]
      rfl

def runUnder (run : HonestRun packages) : HonestRun (packagesWith aead) where
  host := run.host
  rounds := run.rounds
  args := run.args
  stdin := run.stdin
  session := sessionUnder aead run.session
  final := run.final
  session_eq := by
    rw [encryptSession_packagesWith, run.session_eq]
    rfl
  finished := by
    rw [runEncrypt_packagesWith sealer]
    exact run.finished

end Sealing

/-! ### The cipher that is ideal for given runs -/

section Ideal

variable (runs : List (HonestRun packages))

/-- ChaCha20-Poly1305, which under the keys of these runs opens only what they sealed. -/
def idealCipher : Cipher :=
  ChaCha20Poly1305.cipher.restrictEach (honestSealings runs)
    (runs.map fun run => run.session.payloadKey)

theorem idealCipher_encrypt :
    (idealCipher runs).encrypt = ChaCha20Poly1305.cipher.encrypt :=
  Aead.restrictEach_encrypt _ _

/-- A run, made with that cipher. -/
def idealRun (run : HonestRun packages) : HonestRun (packagesWith (idealCipher runs)) :=
  runUnder (idealCipher_encrypt runs) run

theorem honestSealings_idealRun (key : FixedBytes 32) :
    honestSealings (runs.map (idealRun runs)) key = honestSealings runs key := by
  rw [honestSealings, List.flatMap_map]
  rfl

variable {runs} {run : HonestRun packages} (member : run ∈ runs)
include member

theorem idealCipher_opensOnly :
    (idealCipher runs).OpensOnly (idealRun runs run).session.payloadKey
      (honestSealings (runs.map (idealRun runs)) (idealRun runs run).session.payloadKey) := by
  rw [honestSealings_idealRun]
  exact Aead.restrictEach_opensOnly _ _ (List.mem_map_of_mem member)

/-- The runs' own chunks still open. -/
theorem idealRun_chunks_open {full : List StreamChunk} {last : StreamChunk} {trailer : Bytes}
    (encrypted : EncryptedRun (packagesWith (idealCipher runs)) run.host run.rounds run.args
      run.stdin (idealRun runs run).session full last trailer run.final) :
    Numbered (StreamChunk.Opens (packagesWith (idealCipher runs))
      ((idealRun runs run).session.streamHeader run.host)) 0 (full ++ [last]) := by
  intro i chunk found
  have sealed := encrypted.seals i chunk found
  have width : chunk.wire.ciphertext.length = chunk.plaintext.length :=
    (idealCipher runs).length_encrypt sealed
  change (idealCipher runs).encrypt _ _ _ _ = _ at sealed
  rw [idealCipher_encrypt] at sealed
  have opened := (cipher_inverts _).decrypt_encrypt
    (encrypted.length_plaintext_le chunk (List.mem_of_getElem? found)) sealed
  rw [← width] at opened
  refine opens_packagesWith.mpr ((Aead.restrictEach_decrypt_iff _ _).mpr ⟨opened, fun _ => ?_⟩)
  refine List.mem_flatMap.mpr ⟨run, member, List.mem_filterMap.mpr
    ⟨_, (encrypted.sealings _ _).mpr ⟨rfl, i, chunk, found, rfl⟩, ?_⟩⟩
  rw [Event.sealedUnder, StreamChunk.sealing, UInt64.zero_add, width]
  exact if_pos rfl

/-- The recipient of a run's stream accepts it when unverified chunks are allowed. -/
theorem idealRun_accepted {recipient : Host} {args : DecryptArgs} {recipPriv : FixedBytes 32}
    {recipKey : Scalar}
    (agree : Correspondents (packagesWith (idealCipher runs)) run.host recipient run.rounds
      run.args args recipPriv recipKey) (smooth : Smooth run.stdin)
    (unverified : args.allowUnverifiedStream = true) :
    ∃ final, runDecrypt (packagesWith (idealCipher runs)) recipient args
      (Process.start (ofBytes run.final.stdout)) = .ok () final := by
  obtain ⟨full, last, trailer, encrypted⟩ := (idealRun runs run).encrypted
  have seals : ∀ key, (idealCipher runs).SealsUpTo key chunkSize := by
    intro key
    rw [Aead.SealsUpTo, idealCipher_encrypt]
    exact (cipher_inverts key).sealsUpTo
  have conforms := agree.conforms (encryptLaws seals) encrypted (encrypted.allFull smooth)
    (idealRun_chunks_open member encrypted)
  refine runDecrypt_of_conforms agree.loaded agree.valid conforms (fun spooling => ?_)
    (smooth_ofBytes _) ((content_ofBytes _).trans encrypted.stdout_eq)
  rw [unverified] at spooling
  cases spooling

end Ideal

/-- An anonymous run of the reference crates on `data`, and its payload key. -/
theorem exists_honestRun (sender recipient ephemeral : Scalar) {data : Bytes}
    (short : data.length ≤ 2 ^ 32) :
    ∃ run : HonestRun packages, run.host = keyHost sender ephemeral ∧ run.rounds = 0 ∧
      run.args = sealArgs true recipient ∧ run.stdin = ofBytes data ∧
      run.session.mode = 0x02 ∧ run.session.payloadKey = streamKey recipient ephemeral := by
  have agree := correspondents ChaCha20Poly1305.cipher sender recipient ephemeral 0 true true
  obtain ⟨session, session_eq⟩ := agree.session_exists lawful.toEncryptLaws
  obtain ⟨key, two, _⟩ := session_of_anonymous session_eq
  obtain ⟨final, finished, _⟩ := exists_encrypted true sender recipient ephemeral short
  exact ⟨⟨_, 0, _, _, session, final, session_eq, finished⟩, rfl, rfl, rfl, rfl, two, key⟩

end Reference

/-- An accepted byte string with the header of one of finitely many honest streams under
distinct payload keys agrees with that stream up to the trailer and gives its plaintext. -/
theorem runDecrypt_stream_integrity (crates : Crates) [AddCommGroup crates.curve.Point]
    (prime : crates.curve.PrimeOrder) (runs : List (HonestRun crates)) (run : HonestRun crates)
    (honest : run ∈ runs)
    (distinct : (runs.map fun run => run.session.payloadKey).Nodup)
    (ideal : crates.aead.OpensOnly run.session.payloadKey
      (honestSealings runs run.session.payloadKey))
    (host : Host) (args : DecryptArgs) (stdin : Reader) (final : Process)
    (trusted : args.allowUnverifiedStream = false → SpoolTrusted crates host)
    (header : (content stdin).take wireHeaderSize = run.final.stdout.take wireHeaderSize)
    (finished : runDecrypt crates host args (Process.start stdin) = .ok () final) :
    (∃ body trailer signed,
      content stdin = body ++ trailer ++ content final.stdin ∧
      run.final.stdout = body ++ signed ∧
      trailer.length = (if run.session.mode = 0x01 then trailerSize else 0) ∧
      signed.length = (if run.session.mode = 0x01 then trailerSize else 0)) ∧
    (run.session.mode = 0x02 → content stdin = run.final.stdout ++ content final.stdin) ∧
    content run.stdin = final.stdout ++ content run.final.stdin ∧
    (Smooth stdin → content final.stdin = []) ∧
    (Smooth run.stdin → content run.final.stdin = []) := by
  obtain ⟨full, last, trailer, encrypted⟩ := run.encrypted
  obtain ⟨stream, accepted⟩ := (runDecrypt_ends crates host args stdin).ok finished
  obtain ⟨recipPriv, recipKey, _, valid, conforms⟩ := accepted.conforms
  obtain ⟨ephPriv, ephKey, keys⟩ := encryptSession_eq_ok run.session_eq
  have headerBytes : stream.headerBytes = run.session.header run.host := by
    rw [accepted.content_eq, Stream.bytes, List.append_assoc,
      List.take_left' stream.headerBytes.length_toList, encrypted.stdout_eq,
      List.take_left' (FixedBytes.length_toList _)] at header
    exact FixedBytes.ext header
  have conformsHeader := conforms.header
  rw [headerBytes] at conformsHeader
  have mode_eq : stream.header.mode = run.session.mode :=
    conformsHeader.mode_eq.trans (wireHeader_mode _ _ _ _ _)
  have named : run.session.recipX = crates.curve.publicBytes recipKey :=
    (wireHeader_recipPub _ _ _ _ _).symm.trans conformsHeader.recipient
  have permitted := conformsHeader.permitted
  rw [mode_eq] at permitted
  have same : stream.header = run.session.streamHeader run.host :=
    conformsHeader.unique crates (EncryptSession.headerConforms named
      (keys.recipient_derives prime valid named) permitted)
  have opens := conforms.opens
  rw [same] at opens
  have chunks : stream.chunks = full ++ [last] :=
    run.chunks_of_opens honest distinct ideal encrypted opens conforms.full conforms.last
  let body := stream.headerBytes.toList ++ wireBytes stream.chunks
  have accepted_eq : content stdin = body ++ stream.trailer ++ content final.stdin := by
    rw [accepted.content_eq, Stream.bytes]
    simp only [body, List.append_assoc]
  have honest_eq : run.final.stdout = body ++ trailer := by
    rw [encrypted.stdout_eq, ← headerBytes, ← chunks]
    simp only [body, List.append_assoc]
  have trailerLength := conforms.trailer.length
  rw [mode_eq] at trailerLength
  have signedLength := encrypted.signed.length keys
  refine ⟨⟨body, stream.trailer, trailer, accepted_eq, honest_eq, trailerLength, signedLength⟩,
    ?_, ?_, accepted.exhausted, encrypted.exhausted⟩
  · intro two
    rw [two] at trailerLength signedLength
    have none : stream.trailer = [] := List.length_eq_zero_iff.mp trailerLength
    have none' : trailer = [] := List.length_eq_zero_iff.mp signedLength
    rw [accepted_eq, honest_eq, none, none']
  · rw [accepted.stdout trusted, Stream.plaintext, chunks]
    exact encrypted.content_eq

open Reference in
/-- Two anonymous streams of two chunks each under the cipher that is ideal for both: the first is
accepted as it is, and not with the second one's chunks behind its header. -/
theorem runDecrypt_stream_integrity_sample :
    ∃ (aead : Cipher) (run other : HonestRun (packagesWith aead)) (final : Process),
      content run.stdin = List.replicate (chunkSize + 5) 0x61 ∧
      content other.stdin = List.replicate (2 * chunkSize) 0x62 ∧
      run.session.payloadKey ≠ other.session.payloadKey ∧
      runDecrypt (packagesWith aead) (keyHost sampleRecipient sampleEphemeral)
        (openArgs true sampleSender true) (Process.start (ofBytes run.final.stdout)) =
          .ok () final ∧
      final.stdout = content run.stdin ∧
      ∀ final', runDecrypt (packagesWith aead) (keyHost sampleRecipient sampleEphemeral)
        (openArgs true sampleSender true) (Process.start (ofBytes (run.splice other))) ≠
          .ok () final' := by
  obtain ⟨run, host, rounds, args, stdin, two, key⟩ :=
    exists_honestRun sampleSender sampleRecipient sampleEphemeral
      (show (List.replicate (chunkSize + 5) 0x61).length ≤ 2 ^ 32 by
        rw [List.length_replicate]
        decide)
  obtain ⟨other, _, _, _, stdin', two', key'⟩ :=
    exists_honestRun sampleSender sampleRecipient ⟨4, by decide⟩
      (show (List.replicate (2 * chunkSize) 0x62).length ≤ 2 ^ 32 by
        rw [List.length_replicate]
        decide)
  have different : run.session.payloadKey ≠ other.session.payloadKey := by
    rw [key, key']
    decide +kernel
  have smooth : Smooth run.stdin := stdin ▸ smooth_ofBytes _
  have smooth' : Smooth other.stdin := stdin' ▸ smooth_ofBytes _
  have content_run : content run.stdin = List.replicate (chunkSize + 5) 0x61 := by
    rw [stdin, content_ofBytes]
  have content_other : content other.stdin = List.replicate (2 * chunkSize) 0x62 := by
    rw [stdin', content_ofBytes]
  have lengths : run.final.stdout.length ≠ other.final.stdout.length := by
    rw [run.length_stdout smooth, other.length_stdout smooth', content_run, content_other, two,
      two', List.length_replicate, List.length_replicate]
    decide
  let runs := [run, other]
  have member : run ∈ runs := List.mem_cons_self
  have agree : Correspondents (packagesWith (idealCipher runs)) run.host
      (keyHost sampleRecipient sampleEphemeral) run.rounds run.args
      (openArgs true sampleSender true) (secretBytes sampleRecipient) sampleRecipient := by
    rw [host, rounds, args]
    exact correspondents _ _ _ _ _ _ _
  have distinct : ((runs.map (idealRun runs)).map fun run => run.session.payloadKey).Nodup :=
    List.nodup_cons.mpr ⟨fun repeated => different (List.mem_singleton.mp repeated),
      List.nodup_singleton _⟩
  have integrity := fun stdin final =>
    runDecrypt_stream_integrity (packagesWith (idealCipher runs)) prime
      (runs.map (idealRun runs)) (idealRun runs run) (List.mem_map_of_mem member) distinct
      (idealCipher_opensOnly member) (keyHost sampleRecipient sampleEphemeral)
      (openArgs true sampleSender true) stdin final (fun spooling => nomatch spooling)
  obtain ⟨final, finished⟩ := idealRun_accepted member agree smooth rfl
  refine ⟨idealCipher runs, idealRun runs run, idealRun runs other, final, content_run,
    content_other, different, finished, ?_, ?_⟩
  · obtain ⟨_, _, plaintext, _, exhausted⟩ :=
      integrity _ final (congrArg (List.take wireHeaderSize) (content_ofBytes _)) finished
    rw [plaintext, exhausted smooth, List.append_nil]
  · intro final' spliced
    have smooth_ideal : Smooth (idealRun runs run).stdin := smooth
    obtain ⟨_, whole, _, nothing, _⟩ := integrity _ final'
      (by rw [content_ofBytes, HonestRun.take_splice smooth_ideal]) spliced
    have same := whole two
    rw [nothing (smooth_ofBytes _), content_ofBytes, List.append_nil] at same
    refine lengths ?_
    calc run.final.stdout.length
        = ((idealRun runs run).splice (idealRun runs other)).length :=
          (congrArg List.length same).symm
      _ = other.final.stdout.length := HonestRun.length_splice smooth_ideal smooth'

end PipeK1
