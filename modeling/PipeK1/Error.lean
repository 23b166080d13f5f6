import PipeK1.Library.ByteReader

/-! The error type of the program, the exit code each error is reported with, and
the two ways a run can stop early. -/

set_option autoImplicit false

namespace PipeK1

open ByteData ByteReader

inductive Pipek1Error where
  /-- Wire tampering or cryptographic verification failure. -/
  | wireCorruption (message : String)
  /-- Signature or authentication verification failure. -/
  | authFailure (message : String)
  /-- CLI argument, configuration, or environment parameter error. -/
  | usageError (message : String)
  | io (error : IoError)
deriving DecidableEq

namespace Pipek1Error

/-- The `Display` text. -/
def display : Pipek1Error → String
  | .wireCorruption message => "Wire corruption: " ++ message
  | .authFailure message => "Authentication failure: " ++ message
  | .usageError message => "Usage error: " ++ message
  | .io error => "I/O error: " ++ error.message

def exitCode : Pipek1Error → Nat
  | .usageError _ => 2
  | .wireCorruption _ | .authFailure _ | .io _ => 1

theorem exitCode_ne_zero (error : Pipek1Error) : error.exitCode ≠ 0 := by
  cases error <;> simp [exitCode]

end Pipek1Error

/-- How a run stops before its end: with an error of the program's own, by a
panic (which aborts the process), or not at all, when a loop without a bound
has used up the rounds the model was given. -/
inductive Stop where
  | failed (error : Pipek1Error)
  | panicked (message : String)
  | unfinished
deriving DecidableEq

namespace Stop

/-- The status the process ends with; an abort is reported as signal 6. -/
def exitCode : Stop → Option Nat
  | .failed error => some error.exitCode
  | .panicked _ => some 134
  | .unfinished => none

theorem exitCode_ne_zero (stop : Stop) : stop.exitCode ≠ some 0 := by
  cases stop with
  | failed error => simpa [exitCode] using error.exitCode_ne_zero
  | panicked message => simp [exitCode]
  | unfinished => simp [exitCode]

/-- `map_err(|e| ..)?`. -/
def mapErr {α ε : Type} (convert : ε → Pipek1Error) : Except ε α → Except Stop α
  | .ok value => .ok value
  | .error error => .error (.failed (convert error))

@[simp] theorem mapErr_ok {α ε : Type} (convert : ε → Pipek1Error) (value : α) :
    mapErr convert (.ok value) = .ok value := rfl

@[simp] theorem mapErr_error {α ε : Type} (convert : ε → Pipek1Error) (error : ε) :
    (mapErr convert (.error error) : Except Stop α) = .error (.failed (convert error)) := rfl

theorem mapErr_eq_ok_iff {α ε : Type} {convert : ε → Pipek1Error} {outcome : Except ε α}
    {value : α} : mapErr convert outcome = .ok value ↔ outcome = .ok value := by
  cases outcome <;> simp

theorem bind_eq_ok {α β : Type} {outcome : Except Stop α} {next : α → Except Stop β} {value : β}
    (succeeded : (outcome >>= next) = .ok value) :
    ∃ first, outcome = .ok first ∧ next first = .ok value := by
  cases outcome with
  | error error => cases succeeded
  | ok first => exact ⟨first, rfl, succeeded⟩

/-- An error of the program's own ends it. -/
def Refuses {α : Type} (outcome : Except Stop α) : Prop := ∃ error, outcome = .error (.failed error)

theorem refuses_failed {α : Type} (error : Pipek1Error) :
    Refuses (.error (.failed error) : Except Stop α) := ⟨error, rfl⟩

theorem not_refuses_ok {α : Type} (value : α) : ¬ Refuses (.ok value) := by
  rintro ⟨error, impossible⟩
  cases impossible

theorem not_refuses_panicked {α : Type} (message : String) :
    ¬ Refuses (.error (.panicked message) : Except Stop α) := by
  rintro ⟨error, impossible⟩
  cases impossible

theorem refuses_bind_iff {α β : Type} {outcome : Except Stop α} {next : α → Except Stop β} :
    Refuses (outcome >>= next) ↔
      Refuses outcome ∨ ∃ value, outcome = .ok value ∧ Refuses (next value) := by
  cases outcome with
  | ok value =>
      refine ⟨fun later => .inr ⟨value, rfl, later⟩, ?_⟩
      rintro (impossible | ⟨_, same, later⟩)
      · exact absurd impossible (not_refuses_ok value)
      · cases same
        exact later
  | error stop =>
      constructor
      · rintro ⟨error, same⟩
        cases same
        exact .inl (refuses_failed error)
      · rintro (⟨error, same⟩ | ⟨_, impossible, _⟩)
        · cases same
          exact refuses_failed error
        · cases impossible

theorem refuses_mapErr_iff {α ε : Type} {convert : ε → Pipek1Error} {outcome : Except ε α} :
    Refuses (mapErr convert outcome) ↔ ∃ error, outcome = .error error := by
  cases outcome with
  | ok value =>
      refine iff_of_false (not_refuses_ok value) ?_
      rintro ⟨error, impossible⟩
      cases impossible
  | error error => exact iff_of_true (refuses_failed _) ⟨error, rfl⟩

/-- A guard that was passed. -/
theorem guard_eq_ok_iff {α ε : Type} {condition : Prop} [Decidable condition] {error : ε}
    {rest : Except ε α} {value : α} :
    (if condition then .error error else rest) = .ok value ↔
      ¬ condition ∧ rest = .ok value := by
  by_cases met : condition <;> simp [met]

end Stop

end PipeK1
