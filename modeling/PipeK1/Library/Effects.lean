import Mathlib.Logic.Basic

/-!
# Outcomes of stateful programs

Pre- and postconditions for programs that change a state and may stop with an
error, and a loop whose termination is carried by a measure on that state.
`Ends` is the weakest precondition read at one start state: the simp rules
below compute it through `bind`, and `loop_ends` is the invariant rule.
-/

set_option autoImplicit false

namespace Effects

open EStateM (Result)

variable {ε σ α β : Type}

/-- A result meets its postcondition, or its error condition when it failed. -/
def Ends (post : α → σ → Prop) (failure : ε → σ → Prop) : Result ε σ α → Prop
  | .ok value state => post value state
  | .error error state => failure error state

variable {post : α → σ → Prop} {failure : ε → σ → Prop}

@[simp] theorem ends_ok (value : α) (state : σ) :
    Ends post failure (.ok value state : Result ε σ α) ↔ post value state := Iff.rfl

@[simp] theorem ends_error (error : ε) (state : σ) :
    Ends post failure (.error error state : Result ε σ α) ↔ failure error state := Iff.rfl

@[simp] theorem ends_pure (value : α) (state : σ) :
    Ends post failure ((pure value : EStateM ε σ α) state) ↔ post value state := Iff.rfl

@[simp] theorem ends_throw (error : ε) (state : σ) :
    Ends post failure ((throw error : EStateM ε σ α) state) ↔ failure error state := Iff.rfl

@[simp] theorem ends_get {post : σ → σ → Prop} (state : σ) :
    Ends post failure ((get : EStateM ε σ σ) state) ↔ post state state := Iff.rfl

@[simp] theorem ends_set {post : Unit → σ → Prop} (new state : σ) :
    Ends post failure ((set new : EStateM ε σ Unit) state) ↔ post () new := Iff.rfl

@[simp] theorem ends_modify {post : Unit → σ → Prop} (change : σ → σ) (state : σ) :
    Ends post failure ((modify change : EStateM ε σ Unit) state) ↔ post () (change state) :=
  Iff.rfl

@[simp] theorem ends_modifyGet (change : σ → α × σ) (state : σ) :
    Ends post failure ((modifyGet change : EStateM ε σ α) state) ↔
      post (change state).1 (change state).2 :=
  Iff.rfl

@[simp] theorem ends_adaptExcept {ε' : Type} {failure : ε' → σ → Prop} (convert : ε → ε')
    (program : EStateM ε σ α) (state : σ) :
    Ends post failure (EStateM.adaptExcept convert program state) ↔
      Ends post (fun error later => failure (convert error) later) (program state) := by
  unfold EStateM.adaptExcept
  cases program state <;> rfl

@[simp] theorem ends_bind (program : EStateM ε σ β) (next : β → EStateM ε σ α) (state : σ) :
    Ends post failure ((program >>= next) state) ↔
      Ends (fun value later => Ends post failure (next value later)) failure (program state) := by
  change Ends post failure (EStateM.bind program next state) ↔ _
  unfold EStateM.bind
  cases program state <;> rfl

theorem Ends.mono {weaker : α → σ → Prop} {weakerFailure : ε → σ → Prop}
    {result : Result ε σ α} (ends : Ends post failure result)
    (onSuccess : ∀ value state, post value state → weaker value state)
    (onFailure : ∀ error state, failure error state → weakerFailure error state) :
    Ends weaker weakerFailure result := by
  cases result with
  | ok value state => exact onSuccess value state ends
  | error error state => exact onFailure error state ends

theorem Ends.and {other : α → σ → Prop} {otherFailure : ε → σ → Prop} {result : Result ε σ α}
    (first : Ends post failure result) (second : Ends other otherFailure result) :
    Ends (fun value state => post value state ∧ other value state)
      (fun error state => failure error state ∧ otherFailure error state) result := by
  cases result with
  | ok value state => exact ⟨first, second⟩
  | error error state => exact ⟨first, second⟩

theorem Ends.ok {result : Result ε σ α} {value : α} {state : σ} (ends : Ends post failure result)
    (succeeded : result = .ok value state) : post value state := by
  subst succeeded
  exact ends

theorem Ends.error {result : Result ε σ α} {error : ε} {state : σ}
    (ends : Ends post failure result) (failed : result = .error error state) :
    failure error state := by
  subst failed
  exact ends

theorem Ends.succeeds {result : Result ε σ α}
    (ends : Ends post (fun _ _ => False) result) :
    ∃ value state, result = .ok value state ∧ post value state := by
  cases result with
  | ok value state => exact ⟨value, state, rfl, ends⟩
  | error error state => exact absurd ends id

/-- A successful sequence is a successful first part and a successful rest. -/
theorem bind_eq_ok_iff {program : EStateM ε σ β} {next : β → EStateM ε σ α} {state final : σ}
    {value : α} :
    (program >>= next) state = .ok value final ↔
      ∃ intermediate middle, program state = .ok intermediate middle ∧
        next intermediate middle = .ok value final := by
  change EStateM.bind program next state = _ ↔ _
  unfold EStateM.bind
  cases program state with
  | ok intermediate middle =>
      constructor
      · intro finished
        exact ⟨intermediate, middle, rfl, finished⟩
      · rintro ⟨_, _, same, finished⟩
        cases same
        exact finished
  | error error middle =>
      constructor
      · intro impossible
        cases impossible
      · rintro ⟨_, _, impossible, _⟩
        cases impossible

theorem bind_of_ok {program : EStateM ε σ β} {next : β → EStateM ε σ α} {state middle : σ}
    {value : β} (first : program state = .ok value middle) :
    (program >>= next) state = next value middle := by
  change EStateM.bind program next state = _
  unfold EStateM.bind
  rw [first]

theorem bind_of_error {program : EStateM ε σ β} {next : β → EStateM ε σ α} {state middle : σ}
    {error : ε} (first : program state = .error error middle) :
    (program >>= next) state = .error error middle := by
  change EStateM.bind program next state = _
  unfold EStateM.bind
  rw [first]

/-- Two sequences with one first part are the same where their rests are. -/
theorem bind_eq_of_ends {program : EStateM ε σ β} {next next' : β → EStateM ε σ α} {state : σ}
    (ends : Ends (fun value later => next value later = next' value later) (fun _ _ => True)
      (program state)) : (program >>= next) state = (program >>= next') state := by
  cases ran : program state with
  | ok value later =>
      rw [bind_of_ok ran, bind_of_ok ran]
      exact ends.ok ran
  | error error later => rw [bind_of_error ran, bind_of_error ran]

/-! ## Loops -/

/-- Run `step` until it stops the loop with `inr`; `inl` carries the loop's
variables to the next round, which must start from a smaller state. -/
def loop (size : σ → Nat) (step : α → EStateM ε σ (α ⊕ β))
    (shrinks : ∀ {locals next state state'},
      step locals state = .ok (.inl next) state' → size state' < size state)
    (locals : α) (state : σ) : Result ε σ β :=
  match _stepped : step locals state with
  | .error error state' => .error error state'
  | .ok (.inr result) state' => .ok result state'
  | .ok (.inl next) state' => loop size step shrinks next state'
termination_by size state
decreasing_by exact shrinks _stepped

section LoopRules

variable {size : σ → Nat} {step : α → EStateM ε σ (α ⊕ β)}
  {shrinks : ∀ {locals next state state'},
    step locals state = .ok (.inl next) state' → size state' < size state}
  {locals : α} {state : σ}

theorem loop_of_error {error : ε} {state' : σ}
    (stepped : step locals state = .error error state') :
    loop size step shrinks locals state = .error error state' := by
  rw [loop]
  split <;> simp_all

theorem loop_of_done {result : β} {state' : σ}
    (stepped : step locals state = .ok (.inr result) state') :
    loop size step shrinks locals state = .ok result state' := by
  rw [loop]
  split <;> simp_all

theorem loop_of_next {next : α} {state' : σ}
    (stepped : step locals state = .ok (.inl next) state') :
    loop size step shrinks locals state = loop size step shrinks next state' := by
  conv => lhs; rw [loop]
  split <;> simp_all

/-- The invariant rule: what every round keeps holds at every exit. -/
theorem loop_ends (invariant : α → σ → Prop) {post : β → σ → Prop} {failure : ε → σ → Prop}
    (keeps : ∀ locals state, invariant locals state →
      Ends (fun outcome state' =>
        match outcome with
        | .inl next => invariant next state'
        | .inr result => post result state') failure (step locals state))
    (start : invariant locals state) :
    Ends post failure (loop size step shrinks locals state) := by
  induction locals, state using loop.induct size step shrinks with
  | case1 locals state error state' stepped =>
      rw [loop_of_error stepped]
      exact (keeps locals state start).error stepped
  | case2 locals state result state' stepped =>
      rw [loop_of_done stepped]
      exact (keeps locals state start).ok stepped
  | case3 locals state next state' stepped ih =>
      rw [loop_of_next stepped]
      exact ih ((keeps locals state start).ok stepped)

end LoopRules

/-! ## Invariants -/

/-- The program keeps what holds of its state, also when it fails. -/
def Preserves (invariant : σ → Prop) (program : EStateM ε σ α) : Prop :=
  ∀ state, invariant state →
    Ends (fun _ after => invariant after) (fun _ after => invariant after) (program state)

namespace Preserves

variable {invariant : σ → Prop}

theorem pure (value : α) : Preserves invariant (Pure.pure value : EStateM ε σ α) :=
  fun _ holds => holds

theorem throw (error : ε) : Preserves invariant (MonadExcept.throw error : EStateM ε σ α) :=
  fun _ holds => holds

theorem bind {program : EStateM ε σ β} {next : β → EStateM ε σ α}
    (first : Preserves invariant program) (later : ∀ value, Preserves invariant (next value)) :
    Preserves invariant (program >>= next) := by
  intro state holds
  rw [ends_bind]
  exact (first state holds).mono (fun value after kept => later value after kept)
    (fun _ _ kept => kept)

theorem loop {size : σ → Nat} {step : α → EStateM ε σ (α ⊕ β)}
    {shrinks : ∀ {locals next state state'},
      step locals state = .ok (.inl next) state' → size state' < size state}
    (round : ∀ locals, Preserves invariant (step locals)) (locals : α) :
    Preserves invariant (Effects.loop size step shrinks locals) := by
  intro state holds
  refine loop_ends (fun _ => invariant) (fun locals state holds => ?_) holds
  refine (round locals state holds).mono (fun outcome after kept => ?_) (fun _ _ kept => kept)
  cases outcome with
  | inl next => exact kept
  | inr result => exact kept

end Preserves

end Effects
