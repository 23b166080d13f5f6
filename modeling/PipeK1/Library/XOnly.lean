import Mathlib.GroupTheory.OrderOfElement

/-!
# Diffie–Hellman on x-coordinates

In a group of prime order whose points are known only up to sign, two parties
that multiply each other's point by their own scalar reach the same point up to
sign, whatever sign each lifted point was given.
-/

set_option autoImplicit false

namespace XOnly

variable {Point : Type} [AddCommGroup Point]

/-- Equal up to sign. -/
def SameUpToSign (left right : Point) : Prop := left = right ∨ left = -right

theorem SameUpToSign.refl (point : Point) : SameUpToSign point point := .inl rfl

theorem SameUpToSign.symm {left right : Point} (same : SameUpToSign left right) :
    SameUpToSign right left := by
  rcases same with rfl | rfl
  · exact .inl rfl
  · exact .inr (neg_neg right).symm

theorem SameUpToSign.trans {first second third : Point} (left : SameUpToSign first second)
    (right : SameUpToSign second third) : SameUpToSign first third := by
  rcases left with rfl | rfl
  · exact right
  · rcases right with rfl | rfl
    · exact .inr rfl
    · exact .inl (neg_neg third)

theorem SameUpToSign.nsmul {left right : Point} (same : SameUpToSign left right) (scalar : Nat) :
    SameUpToSign (scalar • left) (scalar • right) := by
  rcases same with rfl | rfl
  · exact .inl rfl
  · exact .inr (smul_neg scalar right)

/-- Both parties' products agree up to sign, for every choice of the lifted signs. -/
theorem shared_point {generator liftedA liftedB : Point} {a b : Nat}
    (liftA : SameUpToSign liftedA (a • generator)) (liftB : SameUpToSign liftedB (b • generator)) :
    SameUpToSign (a • liftedB) (b • liftedA) := by
  have left : SameUpToSign (a • liftedB) (a • b • generator) := liftB.nsmul a
  have right : SameUpToSign (b • a • generator) (b • liftedA) := (liftA.nsmul b).symm
  rw [smul_comm b a] at right
  exact left.trans right

/-- When every lifted point has a property that no nonzero point shares with its negation, the
products are equal if both public points have it or neither has, and opposite otherwise. -/
theorem shared_point_by_parity {generator liftedA liftedB : Point} {a b : Nat}
    {even : Point → Prop} (one : ∀ point, point ≠ 0 → even (-point) → ¬ even point)
    (finiteA : a • generator ≠ 0) (finiteB : b • generator ≠ 0)
    (liftA : SameUpToSign liftedA (a • generator)) (liftB : SameUpToSign liftedB (b • generator))
    (evenA : even liftedA) (evenB : even liftedB) :
    ((even (a • generator) ↔ even (b • generator)) → a • liftedB = b • liftedA) ∧
      (¬ (even (a • generator) ↔ even (b • generator)) → a • liftedB = -(b • liftedA)) := by
  have swapped : a • b • generator = b • a • generator := smul_comm a b generator
  rcases liftA with rfl | rfl <;> rcases liftB with rfl | rfl
  · exact ⟨fun _ => swapped, fun differ => absurd (iff_of_true evenA evenB) differ⟩
  · refine ⟨fun same => absurd (same.mp evenA) (one _ finiteB evenB), fun _ => ?_⟩
    rw [smul_neg, swapped]
  · refine ⟨fun same => absurd (same.mpr evenB) (one _ finiteA evenA), fun _ => ?_⟩
    rw [smul_neg, neg_neg, swapped]
  · refine ⟨fun _ => ?_, fun differ => absurd
      (iff_of_false (one _ finiteA evenA) (one _ finiteB evenB)) differ⟩
    rw [smul_neg, smul_neg, swapped]

/-- A nonzero scalar below the prime order never takes a nonzero point to zero. -/
theorem nsmul_ne_zero {order : Nat} (prime : order.Prime) {point : Point}
    (annihilated : order • point = 0) (nonzero : point ≠ 0) {scalar : Nat}
    (positive : 0 < scalar) (below : scalar < order) : scalar • point ≠ 0 := by
  intro zero
  have divides : addOrderOf point ∣ order := addOrderOf_dvd_of_nsmul_eq_zero annihilated
  have exact_order : addOrderOf point = order := by
    rcases (Nat.dvd_prime prime).mp divides with one | whole
    · exact absurd (AddMonoid.addOrderOf_eq_one_iff.mp one) nonzero
    · exact whole
  have multiple : addOrderOf point ∣ scalar := addOrderOf_dvd_of_nsmul_eq_zero zero
  rw [exact_order] at multiple
  exact absurd (Nat.le_of_dvd positive multiple) (Nat.not_le_of_lt below)

/-- Scalars that agree up to sign on one nonzero point agree up to sign on every point. -/
theorem SameUpToSign.nsmul_of_generator {order : Nat} (prime : order.Prime) {generator : Point}
    (annihilates : ∀ point : Point, order • point = 0) (nonzero : generator ≠ 0) {a b : Nat}
    (belowA : a < order) (belowB : b < order)
    (same : SameUpToSign (a • generator) (b • generator)) (point : Point) :
    SameUpToSign (a • point) (b • point) := by
  have : Fact order.Prime := ⟨prime⟩
  have exact_order : addOrderOf generator = order :=
    addOrderOf_eq_prime (annihilates generator) nonzero
  rcases same with equal | opposite
  · have congruent : a ≡ b [MOD order] := by
      rw [← exact_order]
      exact nsmul_eq_nsmul_iff_modEq.mp equal
    rw [Nat.ModEq.eq_of_lt_of_lt congruent belowA belowB]
    exact .refl _
  · have sum_zero : (a + b) • generator = 0 := by
      rw [add_nsmul, opposite, neg_add_cancel]
    obtain ⟨multiple, sum_eq⟩ : order ∣ a + b := by
      rw [← exact_order]
      exact addOrderOf_dvd_of_nsmul_eq_zero sum_zero
    have opposed : a • point + b • point = 0 := by
      rw [← add_nsmul, sum_eq, mul_comm, mul_nsmul, annihilates]
    exact .inr (eq_neg_of_add_eq_zero_left opposed)

end XOnly
