import PipeK1.Wire

/-!
# Key agreement

Two parties that know each other's x-only key compute the same shared secret,
whatever the parity of the two points.
-/

set_option autoImplicit false

namespace PipeK1

open ByteData XOnly

variable {crates : Crates} [AddCommGroup crates.curve.Point]

omit [AddCommGroup crates.curve.Point] in
theorem exists_deriveKeys (expands : crates.digests.Expands) (ikm : FixedBytes 32)
    (salt : FixedBytes 11) :
    ∃ headerKey payloadKey, deriveKeys crates ikm salt = .ok (headerKey, payloadKey) := by
  obtain ⟨headerKey, header⟩ := expands salt ikm infoHeader
  obtain ⟨payloadKey, payload⟩ := expands salt ikm infoStream
  exact ⟨headerKey, payloadKey, by simp only [deriveKeys, header, payload]⟩

namespace Secp256k1.PrimeOrder

/-- The point of a signing key, known through its x-coordinate. -/
theorem exists_scalar (prime : crates.curve.PrimeOrder) {secret : FixedBytes 32} {key : crates.curve.SigningKey}
    (valid : crates.curve.signingKey secret = .ok key) :
    ∃ scalar, crates.curve.nonZeroScalar secret = .ok scalar ∧
      prime.scalarValue scalar • prime.generator ≠ 0 ∧
      crates.curve.xCoordinate (prime.scalarValue scalar • prime.generator) =
        some (crates.curve.publicBytes key) := by
  obtain ⟨scalar, decoded, coordinate⟩ := prime.signingKey_ok secret key valid
  exact ⟨scalar, decoded, nsmul_ne_zero prime.order_prime (prime.annihilates _)
    prime.generator_ne_zero (prime.scalarValue_pos scalar) (prime.scalarValue_lt scalar),
    coordinate⟩

theorem ne_zero_of_liftX (prime : crates.curve.PrimeOrder) {x : FixedBytes 32}
    {point : crates.curve.Point} (lifts : liftX crates x = .ok point) : point ≠ 0 := by
  unfold liftX at lifts
  split at lifts
  · cases lifts
  · next found =>
      cases lifts
      exact (prime.fromSec1_ok x _ found).1

/-- Lifting an x-only key gives its point up to sign. -/
theorem liftX_of_xCoordinate (prime : crates.curve.PrimeOrder) {x : FixedBytes 32}
    {point : crates.curve.Point} (nonzero : point ≠ 0) (coordinate : crates.curve.xCoordinate point = some x) :
    ∃ lifted, liftX crates x = .ok lifted ∧ lifted ≠ 0 ∧ SameUpToSign lifted point := by
  obtain ⟨lifted, decoded⟩ := prime.fromSec1_complete x point nonzero coordinate
  obtain ⟨nonzero', coordinate'⟩ := prime.fromSec1_ok x lifted decoded
  refine ⟨lifted, ?_, nonzero',
    prime.xCoordinate_inj lifted point nonzero' nonzero (coordinate'.trans coordinate.symm)⟩
  rw [liftX, decoded]

/-- Multiplying a lifted point never reaches the point at infinity. -/
theorem ecdhSharedX_eq (prime : crates.curve.PrimeOrder) {secret pubX : FixedBytes 32}
    {scalar : crates.curve.Scalar} {lifted : crates.curve.Point}
    (decoded : crates.curve.nonZeroScalar secret = .ok scalar)
    (lifts : liftX crates pubX = .ok lifted) (nonzero : lifted ≠ 0) :
    ∃ x, crates.curve.xCoordinate (prime.scalarValue scalar • lifted) = some x ∧
      ecdhSharedX crates secret pubX = .ok (crates.digests.sha256 x.toList) := by
  have finite : prime.scalarValue scalar • lifted ≠ 0 :=
    nsmul_ne_zero prime.order_prime (prime.annihilates lifted) nonzero
      (prime.scalarValue_pos scalar) (prime.scalarValue_lt scalar)
  obtain ⟨x, coordinate⟩ := Option.isSome_iff_exists.mp (prime.xCoordinate_isSome _ finite)
  have ordinary : crates.curve.isIdentity (prime.scalarValue scalar • lifted) = false := by
    rw [Bool.eq_false_iff, ne_eq, prime.isIdentity_iff]
    exact finite
  refine ⟨x, coordinate, ?_⟩
  simp only [ecdhSharedX, decoded, lifts, ordinary, Bool.false_eq_true, ↓reduceIte, prime.mul_eq,
    coordinate]

theorem ecdhSharedX_agree (prime : crates.curve.PrimeOrder) {a b : FixedBytes 32} {keyA keyB : crates.curve.SigningKey}
    (validA : crates.curve.signingKey a = .ok keyA)
    (validB : crates.curve.signingKey b = .ok keyB) :
    ∃ ikm, ecdhSharedX crates a (crates.curve.publicBytes keyB) = .ok ikm ∧
      ecdhSharedX crates b (crates.curve.publicBytes keyA) = .ok ikm := by
  obtain ⟨scalarA, decodedA, nonzeroA, coordinateA⟩ := prime.exists_scalar validA
  obtain ⟨scalarB, decodedB, nonzeroB, coordinateB⟩ := prime.exists_scalar validB
  obtain ⟨liftedA, liftsA, finiteA, signA⟩ := prime.liftX_of_xCoordinate nonzeroA coordinateA
  obtain ⟨liftedB, liftsB, finiteB, signB⟩ := prime.liftX_of_xCoordinate nonzeroB coordinateB
  obtain ⟨x, coordinate, shared⟩ := prime.ecdhSharedX_eq decodedA liftsB finiteB
  obtain ⟨x', coordinate', shared'⟩ := prime.ecdhSharedX_eq decodedB liftsA finiteA
  have same : some x = some x' := by
    rw [← coordinate, ← coordinate']
    rcases shared_point signA signB with equal | negated
    · rw [equal]
    · rw [negated, prime.xCoordinate_neg]
  cases same
  exact ⟨_, shared, shared'⟩

end Secp256k1.PrimeOrder

end PipeK1
