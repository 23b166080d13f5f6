import PipeK1.Library.Effects

/-!
# Ways to stop

What the errors of a computation can be, for results and for stateful programs:
one rule for each way to compose them.
-/

set_option autoImplicit false

namespace Effects

variable {ε σ α β : Type} {allowed : ε → Prop}

/-- Every error of `outcome` is allowed. -/
def FailsOnly (allowed : ε → Prop) (outcome : Except ε α) : Prop :=
  ∀ error, outcome = .error error → allowed error

namespace FailsOnly

theorem ok (value : α) : FailsOnly allowed (.ok value) := by
  intro error impossible
  cases impossible

theorem error {error : ε} (known : allowed error) :
    FailsOnly allowed (.error error : Except ε α) := by
  intro _ same
  cases same
  exact known

theorem bind {outcome : Except ε α} {next : α → Except ε β} (first : FailsOnly allowed outcome)
    (later : ∀ value, FailsOnly allowed (next value)) : FailsOnly allowed (outcome >>= next) := by
  intro error failed
  cases outcome with
  | error other =>
      cases failed
      exact first _ rfl
  | ok value => exact later value error failed

theorem foldlM {step : β → α → Except ε β}
    (round : ∀ state item, FailsOnly allowed (step state item)) (items : List α) (start : β) :
    FailsOnly allowed (items.foldlM step start) := by
  induction items generalizing start with
  | nil => exact ok start
  | cons item items ih =>
      rw [List.foldlM_cons]
      exact (round start item).bind ih

end FailsOnly

/-- Every error the program stops with is allowed. -/
def StopsOnly (allowed : ε → Prop) (program : EStateM ε σ α) : Prop :=
  ∀ state, Ends (fun _ _ => True) (fun error _ => allowed error) (program state)

namespace StopsOnly

theorem pure (value : α) : StopsOnly allowed (Pure.pure value : EStateM ε σ α) := fun _ => trivial

theorem throw {error : ε} (known : allowed error) :
    StopsOnly allowed (MonadExcept.throw error : EStateM ε σ α) :=
  fun _ => known

theorem bind {program : EStateM ε σ β} {next : β → EStateM ε σ α}
    (first : StopsOnly allowed program) (later : ∀ value, StopsOnly allowed (next value)) :
    StopsOnly allowed (program >>= next) := by
  intro state
  rw [ends_bind]
  exact (first state).mono (fun value after _ => later value after) (fun _ _ known => known)

theorem loop {size : σ → Nat} {step : α → EStateM ε σ (α ⊕ β)}
    {shrinks : ∀ {locals next state state'},
      step locals state = .ok (.inl next) state' → size state' < size state}
    (round : ∀ locals, StopsOnly allowed (step locals)) (locals : α) :
    StopsOnly allowed (Effects.loop size step shrinks locals) := by
  intro state
  refine loop_ends (fun _ _ => True) (fun locals state _ => ?_) trivial
  refine (round locals state).mono (fun outcome _ _ => ?_) (fun _ _ known => known)
  cases outcome <;> trivial

end StopsOnly

/-- The program never stops by itself. -/
abbrev Infallible (program : EStateM ε σ α) : Prop := StopsOnly (fun _ => False) program

/-- The program keeps what holds of its state unless it succeeds. -/
def FailsClean (invariant : σ → Prop) (program : EStateM ε σ α) : Prop :=
  ∀ state, invariant state → Ends (fun _ _ => True) (fun _ after => invariant after) (program state)

namespace FailsClean

variable {invariant : σ → Prop}

theorem throw (error : ε) : FailsClean invariant (MonadExcept.throw error : EStateM ε σ α) :=
  fun _ holds => holds

theorem of_infallible {program : EStateM ε σ α} (infallible : Infallible program) :
    FailsClean invariant program :=
  fun state _ => (infallible state).mono (fun _ _ => id) (fun _ _ impossible => impossible.elim)

theorem of_preserves {program : EStateM ε σ α} (keeps : Preserves invariant program) :
    FailsClean invariant program :=
  fun state holds => (keeps state holds).mono (fun _ _ _ => trivial) (fun _ _ => id)

/-- What may change the state comes last. -/
theorem bind {program : EStateM ε σ β} {next : β → EStateM ε σ α}
    (first : Preserves invariant program) (later : ∀ value, FailsClean invariant (next value)) :
    FailsClean invariant (program >>= next) := by
  intro state holds
  rw [ends_bind]
  exact (first state holds).mono (fun value after kept => later value after kept)
    (fun _ _ kept => kept)

end FailsClean

end Effects
