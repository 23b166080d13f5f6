import PipeK1.KeyAgreement
import PipeK1.Reference

/-!
# Key agreement for every pair of secrets

Each scalar from 1 up to the order of the curve is a key pair, and any two of
them agree on a shared secret, whichever parity their points have.
-/

set_option autoImplicit false

namespace PipeK1

open ByteData XOnly

/-- A big-endian scalar other than zero and below the order of the curve. -/
def Secp256k1.PrimeOrder.Below {curve : Secp256k1} [AddCommGroup curve.Point]
    (prime : curve.PrimeOrder) (secret : FixedBytes 32) : Prop :=
  0 < beNat secret.toList ∧ beNat secret.toList < prime.order

/-- `k256` reads scalars and signing keys from 32 big-endian bytes. -/
structure Secp256k1.PrimeOrder.Decodes {curve : Secp256k1} [AddCommGroup curve.Point]
    (prime : curve.PrimeOrder) : Prop where
  scalar : ∀ secret, prime.Below secret → ∃ scalar, curve.nonZeroScalar secret = .ok scalar ∧
    prime.scalarValue scalar = beNat secret.toList
  signingKey : ∀ secret, prime.Below secret → ∃ key, curve.signingKey secret = .ok key

/-- Of a finite point and its negation one has an even y-coordinate, and it is the one that
decompression with the prefix 0x02 gives. -/
structure Secp256k1.LiftsEven (curve : Secp256k1) [AddCommGroup curve.Point]
    (evenY : curve.Point → Prop) : Prop where
  neg_iff : ∀ point, point ≠ 0 → (evenY (-point) ↔ ¬ evenY point)
  lifted : ∀ x point, curve.fromSec1 (Secp256k1.evenSec1 x) = .ok point → evenY point

variable {crates : Crates} [AddCommGroup crates.curve.Point]

/-- What the parties `a` and `b` multiply, with `A` and `B` the public points: the same point
when the parities of `A` and `B` are the same, and opposite points when they are not. -/
structure MultipliesUpToSign (crates : Crates) [AddCommGroup crates.curve.Point]
    (prime : crates.curve.PrimeOrder) (evenY : crates.curve.Point → Prop) (a b : Nat)
    (pubA pubB : FixedBytes 32) : Prop where
  points : ∃ liftedA liftedB, liftX crates pubA = .ok liftedA ∧ liftX crates pubB = .ok liftedB ∧
    ((evenY (a • prime.generator) ↔ evenY (b • prime.generator)) →
      a • liftedB = b • liftedA) ∧
    (¬ (evenY (a • prime.generator) ↔ evenY (b • prime.generator)) →
      a • liftedB = -(b • liftedA))

namespace Secp256k1.PrimeOrder

omit [AddCommGroup crates.curve.Point] in
theorem fromSec1_of_liftX {x : FixedBytes 32} {point : crates.curve.Point}
    (lifts : liftX crates x = .ok point) :
    crates.curve.fromSec1 (evenSec1 x) = .ok point := by
  unfold liftX at lifts
  split at lifts
  · cases lifts
  · next found =>
      cases lifts
      exact found

/-- The branch for the point at infinity is never taken. -/
theorem mul_finite (prime : crates.curve.PrimeOrder) {pubX : FixedBytes 32}
    {point : crates.curve.Point} (lifts : liftX crates pubX = .ok point)
    (scalar : crates.curve.Scalar) :
    crates.curve.isIdentity (crates.curve.mul point scalar) = false := by
  have nonzero : point ≠ 0 := prime.ne_zero_of_liftX lifts
  rw [Bool.eq_false_iff, ne_eq, prime.isIdentity_iff, prime.mul_eq]
  exact nsmul_ne_zero prime.order_prime (prime.annihilates point) nonzero
    (prime.scalarValue_pos scalar) (prime.scalarValue_lt scalar)

/-- A scalar in range is a signing key whose point is that multiple of the generator. -/
theorem exists_key (prime : crates.curve.PrimeOrder) (decodes : prime.Decodes)
    {secret : FixedBytes 32} (below : prime.Below secret) :
    ∃ key, crates.curve.signingKey secret = .ok key ∧
      beNat secret.toList • prime.generator ≠ 0 ∧
      crates.curve.xCoordinate (beNat secret.toList • prime.generator) =
        some (crates.curve.publicBytes key) := by
  obtain ⟨key, valid⟩ := decodes.signingKey secret below
  obtain ⟨scalar, decoded, finite, coordinate⟩ := prime.exists_scalar valid
  obtain ⟨scalar', decoded', value⟩ := decodes.scalar secret below
  cases decoded.symm.trans decoded'
  rw [value] at finite coordinate
  exact ⟨key, valid, finite, coordinate⟩

theorem multipliesUpToSign (prime : crates.curve.PrimeOrder)
    {evenY : crates.curve.Point → Prop} (liftsEven : crates.curve.LiftsEven evenY) {a b : Nat}
    {pubA pubB : FixedBytes 32} (finiteA : a • prime.generator ≠ 0)
    (finiteB : b • prime.generator ≠ 0)
    (coordinateA : crates.curve.xCoordinate (a • prime.generator) = some pubA)
    (coordinateB : crates.curve.xCoordinate (b • prime.generator) = some pubB) :
    MultipliesUpToSign crates prime evenY a b pubA pubB := by
  obtain ⟨liftedA, liftsA, _, signA⟩ := prime.liftX_of_xCoordinate finiteA coordinateA
  obtain ⟨liftedB, liftsB, _, signB⟩ := prime.liftX_of_xCoordinate finiteB coordinateB
  exact ⟨liftedA, liftedB, liftsA, liftsB, shared_point_by_parity
    (fun point nonzero => (liftsEven.neg_iff point nonzero).mp) finiteA finiteB signA signB
    (liftsEven.lifted _ _ (fromSec1_of_liftX liftsA))
    (liftsEven.lifted _ _ (fromSec1_of_liftX liftsB))⟩

end Secp256k1.PrimeOrder

/-- Any two secrets below the order agree, whatever the parities of their points, and no
multiplication reaches the point at infinity. -/
theorem ecdh_agrees_for_every_parity (crates : Crates) [AddCommGroup crates.curve.Point]
    (prime : crates.curve.PrimeOrder) (decodes : prime.Decodes) (a b : FixedBytes 32)
    (belowA : prime.Below a) (belowB : prime.Below b) :
    ∃ keyA keyB ikm, crates.curve.signingKey a = .ok keyA ∧ crates.curve.signingKey b = .ok keyB ∧
      ecdhSharedX crates a (crates.curve.publicBytes keyB) = .ok ikm ∧
      ecdhSharedX crates b (crates.curve.publicBytes keyA) = .ok ikm ∧
      (∀ evenY, crates.curve.LiftsEven evenY →
        MultipliesUpToSign crates prime evenY (beNat a.toList) (beNat b.toList)
          (crates.curve.publicBytes keyA) (crates.curve.publicBytes keyB)) ∧
      ∀ pubX point scalar, liftX crates pubX = .ok point →
        crates.curve.isIdentity (crates.curve.mul point scalar) = false := by
  obtain ⟨keyA, validA, finiteA, coordinateA⟩ := prime.exists_key decodes belowA
  obtain ⟨keyB, validB, finiteB, coordinateB⟩ := prime.exists_key decodes belowB
  obtain ⟨ikm, shared, shared'⟩ := prime.ecdhSharedX_agree validA validB
  exact ⟨keyA, keyB, ikm, validA, validB, shared, shared', fun _ liftsEven =>
    prime.multipliesUpToSign liftsEven finiteA finiteB coordinateA coordinateB,
    fun _ _ scalar lifts => prime.mul_finite lifts scalar⟩

namespace Reference

theorem scalar_of_below {secret : FixedBytes 32} (below : prime.Below secret) :
    scalar secret = some ⟨beNat secret.toList, below⟩ := dif_pos below

theorem prime_decodes : prime.Decodes where
  scalar _ below := ⟨_, decode_eq_ok.mpr (scalar_of_below below), rfl⟩
  signingKey _ below := ⟨_, decode_eq_ok.mpr (scalar_of_below below)⟩

theorem below_secretBytes (key : Scalar) : prime.Below (secretBytes key) := by
  have value : beNat (secretBytes key).toList = key.val :=
    beNat_beList (Nat.lt_trans key.property.2 (by decide))
  rw [Secp256k1.PrimeOrder.Below, value]
  exact key.property

theorem liftsEven : curve.LiftsEven fun point => evenY point = true where
  neg_iff := by
    change ∀ point : Point, point ≠ 0 → (evenY (-point) = true ↔ ¬ evenY point = true)
    decide
  lifted x point decoded := by
    change fromSec1 (Secp256k1.evenSec1 x) = .ok point at decoded
    unfold fromSec1 at decoded
    split at decoded
    · next found matched =>
        cases decoded
        have compressed : compress point = Secp256k1.evenSec1 x := by
          simpa using List.find?_some matched
        have first := (List.cons.inj (congrArg FixedBytes.toList compressed)).1
        by_contra odd
        rw [Bool.not_eq_true] at odd
        rw [odd] at first
        exact absurd first (by decide)
    · cases decoded

/-- The sixth multiple of the generator has an odd y-coordinate, the third an even one. -/
theorem ecdh_agrees_for_every_parity_sample :
    let odd : Scalar := ⟨6, by decide⟩
    let even : Scalar := ⟨3, by decide⟩
    evenY (odd.val • 1) = false ∧ evenY (even.val • 1) = true ∧
      (∃ ikm, ecdhSharedX packages (secretBytes odd) (publicBytes even) = .ok ikm ∧
        ecdhSharedX packages (secretBytes even) (publicBytes odd) = .ok ikm) ∧
      MultipliesUpToSign packages prime (fun point => evenY point = true)
        (beNat (secretBytes odd).toList) (beNat (secretBytes even).toList) (publicBytes odd)
        (publicBytes even) := by
  intro odd even
  obtain ⟨keyA, keyB, ikm, validA, validB, shared, shared', opposite, _⟩ :=
    ecdh_agrees_for_every_parity packages prime prime_decodes (secretBytes odd)
      (secretBytes even) (below_secretBytes odd) (below_secretBytes even)
  cases (signingKey_secretBytes odd).symm.trans validA
  cases (signingKey_secretBytes even).symm.trans validB
  exact ⟨by decide, by decide, ⟨ikm, shared, shared'⟩, opposite _ liftsEven⟩

end Reference

end PipeK1
