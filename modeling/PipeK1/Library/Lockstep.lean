import PipeK1.Library.Effects

/-!
# Two runs side by side

A relational postcondition for a pair of results, with the rules that carry it
through sequences and loops. The two runs go on together, or one of them stops
in a way that settles the comparison, or both stop.
-/

set_option autoImplicit false

namespace Effects

open EStateM (Result)

variable {ε σ τ α β γ δ : Type}

/-- `left` and `right` say when one run's stop settles the comparison whatever the other does;
`stop` relates two stops. -/
structure Divergence (ε σ τ : Type) where
  left : ε → σ → Prop
  right : ε → τ → Prop
  stop : ε → σ → ε → τ → Prop

/-- The runs stop together, with one error in one state. -/
def identical : Divergence ε σ σ where
  left _ _ := False
  right _ _ := False
  stop error state error' state' := error = error' ∧ state = state'

inductive Lockstep (together : α → σ → β → τ → Prop) (apart : Divergence ε σ τ) :
    Result ε σ α → Result ε τ β → Prop where
  | both {value state value' state'} (related : together value state value' state') :
      Lockstep together apart (.ok value state) (.ok value' state')
  | left {error state other} (settled : apart.left error state) :
      Lockstep together apart (.error error state) other
  | right {other error state} (settled : apart.right error state) :
      Lockstep together apart other (.error error state)
  | stop {error state error' state'} (related : apart.stop error state error' state') :
      Lockstep together apart (.error error state) (.error error' state')

variable {together : α → σ → β → τ → Prop} {apart : Divergence ε σ τ}

namespace Lockstep

theorem mono {weaker : α → σ → β → τ → Prop} {weakerApart : Divergence ε σ τ}
    {left : Result ε σ α} {right : Result ε τ β} (run : Lockstep together apart left right)
    (onBoth : ∀ value state value' state', together value state value' state' →
      weaker value state value' state')
    (onLeft : ∀ error state, apart.left error state → weakerApart.left error state)
    (onRight : ∀ error state, apart.right error state → weakerApart.right error state)
    (onStop : ∀ error state error' state', apart.stop error state error' state' →
      weakerApart.stop error state error' state') :
    Lockstep weaker weakerApart left right := by
  cases run with
  | both related => exact .both (onBoth _ _ _ _ related)
  | left settled => exact .left (onLeft _ _ settled)
  | right settled => exact .right (onRight _ _ settled)
  | stop related => exact .stop (onStop _ _ _ _ related)

/-- What the two runs do while they go on together may be weakened alone. -/
theorem imp {weaker : α → σ → β → τ → Prop} {left : Result ε σ α} {right : Result ε τ β}
    (run : Lockstep together apart left right)
    (onBoth : ∀ value state value' state', together value state value' state' →
      weaker value state value' state') :
    Lockstep weaker apart left right :=
  run.mono onBoth (fun _ _ => id) (fun _ _ => id) (fun _ _ _ _ => id)

/-- Sequences: the rests are compared where the first parts go on together. -/
theorem bind {after : γ → σ → δ → τ → Prop} {program : EStateM ε σ α} {program' : EStateM ε τ β}
    {next : α → EStateM ε σ γ} {next' : β → EStateM ε τ δ} {state : σ} {state' : τ}
    (first : Lockstep together apart (program state) (program' state'))
    (rest : ∀ value state value' state', together value state value' state' →
      Lockstep after apart (next value state) (next' value' state')) :
    Lockstep after apart ((program >>= next) state) ((program' >>= next') state') := by
  cases ran : program state with
  | ok value later =>
      cases ran' : program' state' with
      | ok value' later' =>
          rw [ran, ran'] at first
          cases first with
          | both related =>
              rw [bind_of_ok ran, bind_of_ok ran']
              exact rest _ _ _ _ related
      | error error' later' =>
          rw [ran, ran'] at first
          cases first with
          | right settled =>
              rw [bind_of_error ran']
              exact .right settled
  | error error later =>
      rw [bind_of_error ran]
      cases ran' : program' state' with
      | ok value' later' =>
          rw [ran, ran'] at first
          cases first with
          | left settled => exact .left settled
      | error error' later' =>
          rw [ran, ran'] at first
          rw [bind_of_error ran']
          cases first with
          | left settled => exact .left settled
          | right settled => exact .right settled
          | stop related => exact .stop related

/-- What each run does by itself may be added to a comparison of runs that stop together. -/
theorem and {left : Result ε σ α} {right : Result ε τ β} {post : α → σ → Prop}
    {post' : β → τ → Prop} {failure : ε → σ → Prop} {failure' : ε → τ → Prop}
    (run : Lockstep together apart left right) (ends : Ends post failure left)
    (ends' : Ends post' failure' right) :
    Lockstep (fun value state value' state' =>
        together value state value' state' ∧ post value state ∧ post' value' state') apart
      left right := by
  cases run with
  | both related => exact .both ⟨related, ends, ends'⟩
  | left settled => exact .left settled
  | right settled => exact .right settled
  | stop related => exact .stop related

/-- A left run that ends well is matched, unless the right run settles the comparison. -/
theorem of_left_ok {left : Result ε σ α} {right : Result ε τ β} {value : α} {state : σ}
    (run : Lockstep together apart left right) (ended : left = .ok value state) :
    (∃ value' state', right = .ok value' state' ∧ together value state value' state') ∨
      ∃ error state', right = .error error state' ∧ apart.right error state' := by
  subst ended
  cases run with
  | both related => exact .inl ⟨_, _, rfl, related⟩
  | right settled => exact .inr ⟨_, _, rfl, settled⟩

/-- Where neither run settles the comparison alone, they end alike. -/
theorem outcomes {left : Result ε σ α} {right : Result ε τ β}
    (run : Lockstep together apart left right) (noLeft : ∀ error state, ¬ apart.left error state)
    (noRight : ∀ error state, ¬ apart.right error state) :
    (∃ value state value' state', left = .ok value state ∧ right = .ok value' state' ∧
      together value state value' state') ∨
    ∃ error state error' state', left = .error error state ∧ right = .error error' state' ∧
      apart.stop error state error' state' := by
  cases run with
  | both related => exact .inl ⟨_, _, _, _, rfl, rfl, related⟩
  | left settled => exact absurd settled (noLeft _ _)
  | right settled => exact absurd settled (noRight _ _)
  | stop related => exact .inr ⟨_, _, _, _, rfl, rfl, related⟩

/-- A result beside itself. -/
theorem refl {result : Result ε σ α} {post : α → σ → Prop} {failure : ε → σ → Prop}
    (ends : Ends post failure result) :
    Lockstep (fun value state value' state' => value = value' ∧ state = state' ∧ post value state)
      identical result result := by
  cases result with
  | ok value state => exact .both ⟨rfl, rfl, ends⟩
  | error error state => exact .stop ⟨rfl, rfl⟩

theorem of_eq {left right : Result ε σ α} (same : left = right) :
    Lockstep (fun value state value' state' => value = value' ∧ state = state') identical
      left right := by
  subst same
  cases left with
  | ok value state => exact .both ⟨rfl, rfl⟩
  | error error state => exact .stop ⟨rfl, rfl⟩

theorem eq_of_identical {left right : Result ε σ α}
    (run : Lockstep (fun value state value' state' => value = value' ∧ state = state') identical
      left right) : left = right := by
  cases run with
  | both related => rw [related.1, related.2]
  | left settled => exact settled.elim
  | right settled => exact settled.elim
  | stop related => rw [related.1, related.2]

end Lockstep

/-! ## Loops -/

/-- After one round both loops go on, or both are done. -/
def AfterRound (invariant : α → σ → β → τ → Prop) (post : γ → σ → δ → τ → Prop) :
    α ⊕ γ → σ → β ⊕ δ → τ → Prop
  | .inl next, later, .inl next', later' => invariant next later next' later'
  | .inr result, later, .inr result', later' => post result later result' later'
  | _, _, _, _ => False

section LoopRule

variable {size : σ → Nat} {size' : τ → Nat} {step : α → EStateM ε σ (α ⊕ γ)}
  {step' : β → EStateM ε τ (β ⊕ δ)}
  {shrinks : ∀ {locals next state state'},
    step locals state = .ok (.inl next) state' → size state' < size state}
  {shrinks' : ∀ {locals next state state'},
    step' locals state = .ok (.inl next) state' → size' state' < size' state}

/-- Two loops whose rounds are related, round by round. -/
theorem lockstep_loop (invariant : α → σ → β → τ → Prop) {post : γ → σ → δ → τ → Prop}
    (keeps : ∀ locals state locals' state', invariant locals state locals' state' →
      Lockstep (AfterRound invariant post) apart (step locals state) (step' locals' state'))
    {locals : α} {state : σ} {locals' : β} {state' : τ}
    (start : invariant locals state locals' state') :
    Lockstep post apart (loop size step shrinks locals state)
      (loop size' step' shrinks' locals' state') := by
  induction locals, state using loop.induct size step shrinks generalizing locals' state' with
  | case1 locals state error later stepped =>
      have round := keeps locals state locals' state' start
      rw [loop_of_error stepped]
      rw [stepped] at round
      cases stepped' : step' locals' state' with
      | ok outcome' later' =>
          rw [stepped'] at round
          cases round with
          | left settled => exact .left settled
      | error error' later' =>
          rw [stepped'] at round
          rw [loop_of_error stepped']
          cases round with
          | left settled => exact .left settled
          | right settled => exact .right settled
          | stop related => exact .stop related
  | case2 locals state result later stepped =>
      have round := keeps locals state locals' state' start
      rw [loop_of_done stepped]
      rw [stepped] at round
      cases stepped' : step' locals' state' with
      | ok outcome' later' =>
          rw [stepped'] at round
          cases round with
          | both related =>
              cases outcome' with
              | inl next' => exact related.elim
              | inr result' =>
                  rw [loop_of_done stepped']
                  exact .both related
      | error error' later' =>
          rw [stepped'] at round
          rw [loop_of_error stepped']
          cases round with
          | right settled => exact .right settled
  | case3 locals state next later stepped ih =>
      have round := keeps locals state locals' state' start
      rw [loop_of_next stepped]
      rw [stepped] at round
      cases stepped' : step' locals' state' with
      | ok outcome' later' =>
          rw [stepped'] at round
          cases round with
          | both related =>
              cases outcome' with
              | inl next' =>
                  rw [loop_of_next stepped']
                  exact ih related
              | inr result' => exact related.elim
      | error error' later' =>
          rw [stepped'] at round
          rw [loop_of_error stepped']
          cases round with
          | right settled => exact .right settled

end LoopRule

/-! ## One program from two states -/

/-- From related states the program gives equal values and related states again. -/
def Mirrored (related : σ → σ → Prop) (apart : Divergence ε σ σ) (program : EStateM ε σ α) :
    Prop :=
  ∀ left right, related left right →
    Lockstep (fun value later value' later' => value = value' ∧ related later later') apart
      (program left) (program right)

namespace Mirrored

variable {related : σ → σ → Prop} {apart : Divergence ε σ σ}

theorem pure (value : α) : Mirrored related apart (Pure.pure value : EStateM ε σ α) :=
  fun _ _ alike => .both ⟨rfl, alike⟩

theorem throw {error : ε}
    (stops : ∀ left right, related left right → apart.stop error left error right) :
    Mirrored related apart (MonadExcept.throw error : EStateM ε σ α) :=
  fun left right alike => .stop (stops left right alike)

theorem bind {program : EStateM ε σ β} {next : β → EStateM ε σ α}
    (first : Mirrored related apart program)
    (later : ∀ value, Mirrored related apart (next value)) :
    Mirrored related apart (program >>= next) := by
  intro left right alike
  refine (first left right alike).bind ?_
  rintro value middle _ middle' ⟨rfl, alike'⟩
  exact later value middle middle' alike'

theorem loop {size : σ → Nat} {step : α → EStateM ε σ (α ⊕ β)}
    {shrinks : ∀ {locals next state state'},
      step locals state = .ok (.inl next) state' → size state' < size state}
    (round : ∀ locals, Mirrored related apart (step locals)) (locals : α) :
    Mirrored related apart (Effects.loop size step shrinks locals) := by
  intro left right alike
  refine lockstep_loop (fun locals left locals' right => locals = locals' ∧ related left right)
    ?_ ⟨rfl, alike⟩
  rintro locals left _ right ⟨rfl, alike⟩
  refine (round locals left right alike).imp ?_
  rintro outcome later _ later' ⟨rfl, alike'⟩
  cases outcome with
  | inl next => exact ⟨rfl, alike'⟩
  | inr result => exact ⟨rfl, alike'⟩

end Mirrored

end Effects
