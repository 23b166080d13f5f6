import PipeK1.RoundTrip

/-!
# What `decrypt` knows of its key

A run depends on the secret key through the x-only public key alone: the two
scalars behind one public key decrypt alike, and under any other key what was
accepted is refused at the recipient field.
-/

set_option autoImplicit false

namespace PipeK1

open ByteData ByteReader Effects XOnly

variable {crates : Crates}

/-! ## Scalars behind one key -/

namespace Secp256k1.PrimeOrder

variable [AddCommGroup crates.curve.Point]

theorem ecdhSharedX_of_publicBytes (prime : crates.curve.PrimeOrder)
    {secret secret' : FixedBytes 32} {key key' : crates.curve.SigningKey}
    (valid : crates.curve.signingKey secret = .ok key)
    (valid' : crates.curve.signingKey secret' = .ok key')
    (same : crates.curve.publicBytes key = crates.curve.publicBytes key')
    (pubX : FixedBytes 32) :
    ecdhSharedX crates secret pubX = ecdhSharedX crates secret' pubX := by
  obtain ⟨scalar, decoded, finite, coordinate⟩ := prime.exists_scalar valid
  obtain ⟨scalar', decoded', finite', coordinate'⟩ := prime.exists_scalar valid'
  have generated : SameUpToSign (prime.scalarValue scalar • prime.generator)
      (prime.scalarValue scalar' • prime.generator) :=
    prime.xCoordinate_inj _ _ finite finite' (by rw [coordinate, coordinate', same])
  cases lifts : liftX crates pubX with
  | error e => simp only [ecdhSharedX, decoded, decoded', lifts]
  | ok lifted =>
      have nonzero : lifted ≠ 0 := prime.ne_zero_of_liftX lifts
      obtain ⟨x, product, shared⟩ := prime.ecdhSharedX_eq decoded lifts nonzero
      obtain ⟨x', product', shared'⟩ := prime.ecdhSharedX_eq decoded' lifts nonzero
      have products := generated.nsmul_of_generator prime.order_prime prime.annihilates
        prime.generator_ne_zero (prime.scalarValue_lt scalar) (prime.scalarValue_lt scalar') lifted
      have agree : some x = some x' := by
        rw [← product, ← product']
        rcases products with equal | opposite
        · rw [equal]
        · rw [opposite, prime.xCoordinate_neg]
      cases agree
      rw [shared, shared']

end Secp256k1.PrimeOrder

/-! ## Headers -/

section Header

variable {args : DecryptArgs} {bytes : FixedBytes wireHeaderSize}

theorem checkHeader_congr {recipPriv recipPriv' recipPub : FixedBytes 32}
    (agree : ∀ pubX, ecdhSharedX crates recipPriv pubX = ecdhSharedX crates recipPriv' pubX)
    (bytes : FixedBytes wireHeaderSize) :
    checkHeader crates args recipPriv recipPub bytes =
      checkHeader crates args recipPriv' recipPub bytes := by
  simp only [checkHeader, agree]

/-- Every check before the recipient field is blind to the key. -/
theorem HeaderConforms.checkHeader_of_stranger {recipPriv recipPub : FixedBytes 32}
    {header : StreamHeader} (conforms : HeaderConforms crates args recipPriv recipPub bytes header)
    {other otherPub : FixedBytes 32} (stranger : recipPub ≠ otherPub) :
    checkHeader crates args other otherPub bytes =
      .error (.wireCorruption "Recipient public key mismatch on wire") := by
  have accepted := checkHeader_eq_ok_iff.mpr conforms
  simp only [checkHeader, Stop.guard_eq_ok_iff, ne_eq, not_not] at accepted
  obtain ⟨magic, version, known, anonymous, untrusted, _⟩ := accepted
  have misaddressed : bytes.slice 38 32 ≠ otherPub := conforms.recipient ▸ stranger
  simp only [checkHeader, magic, version, known, anonymous, untrusted, misaddressed, ne_eq,
    not_true_eq_false, not_false_eq_true, ↓reduceIte]

end Header

/-! ## Runs -/

/-- The x-only public key of the secret key a run loads. -/
def RunsAs (crates : Crates) (host : Host) (keyArgs : KeyIntakeArgs) (pub : FixedBytes 32) : Prop :=
  ∃ secret key, loadSecretKey crates host keyArgs = .ok secret ∧
    crates.curve.signingKey secret = .ok key ∧ crates.curve.publicBytes key = pub

/-- Hosts that differ in their key sources only, as far as `decrypt` looks. -/
structure SameSpool (host host' : Host) : Prop where
  spoolKey : host.spoolKey = host'.spoolKey
  disk : host.disk = host'.disk

theorem SameSpool.start_eq {host host' : Host} (same : SameSpool host host')
    (maxSize : Option UInt64) : Spool.start host maxSize = Spool.start host' maxSize := by
  rw [Spool.start, Spool.start, same.spoolKey, same.disk]

section Runs

variable {host host' : Host} {args : DecryptArgs} {keyArgs : KeyIntakeArgs}
  {pub pub' : FixedBytes 32}

/-- Equal public keys: the runs are the same, whatever is read. -/
theorem runDecrypt_of_samePublic [AddCommGroup crates.curve.Point] (prime : crates.curve.PrimeOrder)
    (runs : RunsAs crates host args.keyArgs pub) (runs' : RunsAs crates host' keyArgs pub)
    (same : SameSpool host host') (process : Process) :
    runDecrypt crates host args process =
      runDecrypt crates host' { args with keyArgs := keyArgs } process := by
  obtain ⟨secret, key, loaded, valid, rfl⟩ := runs
  obtain ⟨secret', key', loaded', valid', public_eq⟩ := runs'
  have headers : ∀ bytes, checkHeader crates args secret (crates.curve.publicBytes key) bytes =
      checkHeader crates { args with keyArgs := keyArgs } secret' (crates.curve.publicBytes key')
        bytes := by
    intro bytes
    rw [public_eq]
    exact checkHeader_congr (prime.ecdhSharedX_of_publicBytes valid valid' public_eq.symm) bytes
  unfold runDecrypt
  rw [loaded, loaded', bind_of_ok (show orStop _ _ = .ok secret _ from rfl),
    bind_of_ok (show orStop _ _ = .ok secret' _ from rfl), valid, valid',
    bind_of_ok (show orFail _ _ _ = .ok key _ from rfl),
    bind_of_ok (show orFail _ _ _ = .ok key' _ from rfl)]
  simp only [headers, same.start_eq]
  rfl

/-- Another public key: what one key accepts is refused under the other at the recipient
field, before a chunk is read. -/
theorem runDecrypt_of_otherPublic (runs : RunsAs crates host args.keyArgs pub)
    (runs' : RunsAs crates host' keyArgs pub') (differ : pub ≠ pub') {process final : Process}
    (accepted : runDecrypt crates host args process = .ok () final) :
    ∃ rest, runDecrypt crates host' { args with keyArgs := keyArgs } process =
      .error (.failed (.wireCorruption "Recipient public key mismatch on wire"))
        ⟨rest, process.events⟩ := by
  obtain ⟨secret, key, loaded, valid, rfl⟩ := runs
  obtain ⟨secret', key', loaded', valid', rfl⟩ := runs'
  unfold runDecrypt at accepted ⊢
  rw [loaded, bind_of_ok (show orStop _ _ = .ok secret _ from rfl), valid,
    bind_of_ok (show orFail _ _ _ = .ok key _ from rfl)] at accepted
  rw [loaded', bind_of_ok (show orStop _ _ = .ok secret' _ from rfl), valid',
    bind_of_ok (show orFail _ _ _ = .ok key' _ from rfl)]
  obtain ⟨headerBytes, middle, read, checked⟩ := bind_eq_ok_iff.mp accepted
  have unrecorded := ((readStdin_ends _ _ process).ok read).2.1
  rw [bind_of_ok read]
  cases found : checkHeader crates args secret (crates.curve.publicBytes key) headerBytes with
  | error error =>
      rw [found] at checked
      cases checked
  | ok header =>
      have refused : checkHeader crates { args with keyArgs := keyArgs } secret'
          (crates.curve.publicBytes key') headerBytes =
            .error (.wireCorruption "Recipient public key mismatch on wire") :=
        (checkHeader_eq_ok_iff.mp found).checkHeader_of_stranger differ
      refine ⟨middle.stdin, ?_⟩
      rw [refused, ← unrecorded]
      rfl

end Runs

/-- A stream is for one x-only key: the runs under two keys are the same for every input if the
public keys are, and otherwise no input that one accepts gets past the other's header check. -/
theorem runDecrypt_knows_public_key (crates : Crates) [AddCommGroup crates.curve.Point]
    (prime : crates.curve.PrimeOrder) (host host' : Host) (args : DecryptArgs)
    (keyArgs : KeyIntakeArgs) (pub pub' : FixedBytes 32)
    (runs : RunsAs crates host args.keyArgs pub) (runs' : RunsAs crates host' keyArgs pub')
    (same : SameSpool host host') :
    (pub = pub' → ∀ process, runDecrypt crates host args process =
      runDecrypt crates host' { args with keyArgs := keyArgs } process) ∧
    (pub ≠ pub' → ∀ process final, runDecrypt crates host args process = .ok () final →
      ∃ rest, runDecrypt crates host' { args with keyArgs := keyArgs } process =
        .error (.failed (.wireCorruption "Recipient public key mismatch on wire"))
          ⟨rest, process.events⟩) := by
  constructor
  · rintro rfl process
    exact runDecrypt_of_samePublic prime runs runs' same process
  · intro differ process final accepted
    exact runDecrypt_of_otherPublic runs runs' differ accepted

open Reference in
/-- The other scalar behind the public key of 3. -/
def sampleNegated : Scalar := ⟨10, by decide⟩

open Reference in
theorem publicBytes_sampleNegated : publicBytes sampleNegated = publicBytes sampleSender := by
  have opposite : sampleNegated.val • (1 : Point) = -(sampleSender.val • (1 : Point)) := by decide
  rw [publicBytes, opposite, pointX_neg, publicBytes]

open Reference in
theorem runsAs_sample (key : Scalar) {pub : FixedBytes 32} (public_eq : publicBytes key = pub) :
    RunsAs packages (keyHost key sampleEphemeral) {} pub :=
  ⟨secretBytes key, key, loadSecretKey_keyHost _ key sampleEphemeral, signingKey_secretBytes key,
    public_eq⟩

open Reference in
/-- A stream for the key 3: it opens under the key -3, and under the key 1 it is refused. -/
theorem runDecrypt_knows_public_key_sample :
    (∃ final, runDecrypt packages (keyHost sampleNegated sampleEphemeral)
        (openArgs true sampleRecipient false)
        (Process.start (sealedStream true sampleRecipient sampleSender sampleEphemeral
          sampleData)) = .ok () final ∧ final.stdout = sampleData) ∧
    ∃ rest, runDecrypt packages (keyHost sampleRecipient sampleEphemeral)
        (openArgs true sampleRecipient false)
        (Process.start (sealedStream true sampleRecipient sampleSender sampleEphemeral
          sampleData)) =
      .error (.failed (.wireCorruption "Recipient public key mismatch on wire")) ⟨rest, []⟩ := by
  obtain ⟨final, accepted, output⟩ := @sealedStream_accepted true false sampleRecipient
    sampleSender sampleEphemeral sampleData (by decide)
  have known := fun host' pub' => runDecrypt_knows_public_key packages prime
    (keyHost sampleSender sampleEphemeral) host' (openArgs true sampleRecipient false) {}
    (publicBytes sampleSender) pub' (runsAs_sample sampleSender rfl)
  constructor
  · have negated := (known (keyHost sampleNegated sampleEphemeral) _
      (runsAs_sample sampleNegated publicBytes_sampleNegated) ⟨rfl, rfl⟩).1 rfl
    exact ⟨final, (negated _).symm.trans accepted, output⟩
  · have stranger := (known (keyHost sampleRecipient sampleEphemeral) _
      (runsAs_sample sampleRecipient rfl) ⟨rfl, rfl⟩).2 (by decide)
    exact stranger _ final accepted

end PipeK1
