import PipeK1.Library.Effects

/-!
# Budgets

Programs that take at most so much from their state, whether they succeed or
stop. Costs add up along a sequence, and a loop costs at most what its variables
have left when it starts.
-/

set_option autoImplicit false

namespace Effects

variable {ε σ α β : Type} {amount : σ → Nat}

/-- The program takes at most `cost` from the amount its state has. -/
def Spends (amount : σ → Nat) (cost : Nat) (program : EStateM ε σ α) : Prop :=
  ∀ state, Ends (fun _ after => amount state ≤ amount after + cost)
    (fun _ after => amount state ≤ amount after + cost) (program state)

namespace Spends

variable {cost later : Nat}

theorem mono {program : EStateM ε σ α} (spends : Spends amount cost program)
    (enough : cost ≤ later) : Spends amount later program :=
  fun state => (spends state).mono
    (fun _ _ spent => Nat.le_trans spent (Nat.add_le_add_left enough _))
    (fun _ _ spent => Nat.le_trans spent (Nat.add_le_add_left enough _))

theorem pure (value : α) : Spends amount cost (Pure.pure value : EStateM ε σ α) :=
  fun _ => Nat.le_add_right _ _

theorem throw (error : ε) : Spends amount cost (MonadExcept.throw error : EStateM ε σ α) :=
  fun _ => Nat.le_add_right _ _

theorem bind {program : EStateM ε σ β} {next : β → EStateM ε σ α}
    (first : Spends amount cost program) (rest : ∀ value, Spends amount later (next value)) :
    Spends amount (cost + later) (program >>= next) := by
  intro state
  rw [ends_bind]
  refine (first state).mono (fun value middle spent => ?_) (fun _ _ spent => by omega)
  refine (rest value middle).mono (fun _ _ spentLater => ?_) (fun _ _ spentLater => ?_)
  · omega
  · omega

/-- A free first part. -/
theorem bind_free {program : EStateM ε σ β} {next : β → EStateM ε σ α}
    (first : Spends amount 0 program) (rest : ∀ value, Spends amount cost (next value)) :
    Spends amount cost (program >>= next) := by
  have sum := first.bind rest
  rwa [Nat.zero_add] at sum

/-- A free rest. -/
theorem bind_last {program : EStateM ε σ β} {next : β → EStateM ε σ α}
    (first : Spends amount cost program) (rest : ∀ value, Spends amount 0 (next value)) :
    Spends amount cost (program >>= next) :=
  first.bind rest

theorem forM {action : α → EStateM ε σ PUnit} (free : ∀ item, Spends amount 0 (action item))
    (items : List α) : Spends amount 0 (items.forM action) := by
  induction items with
  | nil => exact .pure _
  | cons item items ih => exact (free item).bind_free fun _ => ih

/-- The potential rule: a round that goes on pays out of what its variables had left, and
the last one may use it up. -/
theorem loop {size : σ → Nat} {step : α → EStateM ε σ (α ⊕ β)}
    {shrinks : ∀ {locals next state state'},
      step locals state = .ok (.inl next) state' → size state' < size state}
    (invariant : α → Prop) (left : α → Nat)
    (round : ∀ locals state, invariant locals →
      Ends (fun outcome after =>
        match outcome with
        | .inl next => invariant next ∧ amount state + left next ≤ amount after + left locals
        | .inr _ => amount state ≤ amount after + left locals)
        (fun _ after => amount state ≤ amount after + left locals) (step locals state))
    {locals : α} (holds : invariant locals) :
    Spends amount (left locals) (Effects.loop size step shrinks locals) := by
  intro start
  refine loop_ends (fun current state => invariant current ∧
    amount start + left current ≤ amount state + left locals) ?_ ⟨holds, Nat.le_refl _⟩
  rintro current state ⟨holds, paid⟩
  refine (round current state holds).mono ?_ (fun _ _ spent => by omega)
  intro outcome after spent
  cases outcome with
  | inl next =>
      obtain ⟨holds', spent⟩ := spent
      exact ⟨holds', by omega⟩
  | inr result =>
      have spent : amount state ≤ amount after + left current := spent
      change amount start ≤ amount after + left locals
      omega

end Spends

end Effects
