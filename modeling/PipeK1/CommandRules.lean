import PipeK1.EncryptContract
import PipeK1.SignatureContract
import PipeK1.Library.Stops

/-!
# Rules for commands

A property of programs that single steps have and sequences keep is a property
of the commands that read through retrying buffers: one traversal of their code
for all such properties.
-/

set_option autoImplicit false

namespace PipeK1

open ByteData ByteReader Effects

/-- A property that steps have and sequences keep; `allowed` says which stops it admits. -/
structure Compositional (allowed : Stop → Prop) (holds : ∀ {α : Type}, Run α → Prop) : Prop where
  failed : ∀ error, allowed (.failed error)
  pure : ∀ {α : Type} (value : α), holds (Pure.pure value : Run α)
  throw : ∀ {α : Type} {stop : Stop}, allowed stop → holds (throw stop : Run α)
  bind : ∀ {α β : Type} {program : Run β} {next : β → Run α}, holds program →
    (∀ value, holds (next value)) → holds (program >>= next)
  record : ∀ event, holds (record event)
  readStdin : ∀ convert width, holds (readStdin convert width)
  readAllStdin : holds readAllStdin

variable {crates : Crates} {host : Host} {allowed : Stop → Prop}
  {holds : ∀ {α : Type}, Run α → Prop}

theorem record_infallible (event : Event) : Infallible (record event) :=
  fun _ => trivial

theorem mapErr_failsOnly {α ε : Type} (failed : ∀ error, allowed (.failed error))
    {convert : ε → Pipek1Error} {outcome : Except ε α} :
    FailsOnly allowed (Stop.mapErr convert outcome) := by
  cases outcome with
  | ok value => exact .ok value
  | error error => exact .error (failed _)

namespace Compositional

variable (rules : Compositional allowed holds)
include rules

/-! ## Steps -/

theorem fail {α : Type} (error : Pipek1Error) : holds (PipeK1.fail error : Run α) :=
  rules.throw (rules.failed error)

/-- What follows a result may rely on it. -/
theorem orStop_bind {α β : Type} {outcome : Except Stop β} {next : β → Run α}
    (fails : FailsOnly allowed outcome) (later : ∀ value, outcome = .ok value → holds (next value)) :
    holds (orStop outcome >>= next) := by
  cases outcome with
  | ok value =>
      rw [show orStop (.ok value) = (Pure.pure value : Run β) from rfl, pure_bind]
      exact later value rfl
  | error stop =>
      change holds (MonadExcept.throw stop : Run α)
      exact rules.throw (fails stop rfl)

theorem orFail_bind {α β ε : Type} {convert : ε → Pipek1Error} {outcome : Except ε β}
    {next : β → Run α} (later : ∀ value, outcome = .ok value → holds (next value)) :
    holds (orFail convert outcome >>= next) := by
  refine rules.orStop_bind (mapErr_failsOnly rules.failed) fun value mapped => later value ?_
  cases outcome with
  | ok value => exact congrArg Except.ok (Except.ok.inj mapped)
  | error error => cases mapped

theorem orFail {α ε : Type} {convert : ε → Pipek1Error} {outcome : Except ε α} :
    holds (PipeK1.orFail convert outcome) := by
  cases outcome with
  | ok value => exact rules.pure value
  | error error => exact rules.fail _

theorem forM {α : Type} {action : α → Run PUnit} (each : ∀ item, holds (action item))
    (items : List α) : holds (items.forM action) := by
  induction items with
  | nil => exact rules.pure _
  | cons item items ih => exact rules.bind (each item) fun _ => ih

theorem loadSigningKey_bind {α : Type} {args : List String}
    {next : crates.curve.SigningKey → Run α}
    (given : some (-1) ∈ (parseKeyIntakeArgs args).descriptors →
      ∀ message, allowed (.panicked message))
    (later : ∀ secret key, crates.curve.signingKey secret = .ok key → holds (next key)) :
    holds (loadSigningKey crates host args >>= next) := by
  rw [loadSigningKey, bind_assoc]
  exact rules.orStop_bind (loadSecretKey_failsOnly (fun _ => rules.failed _) given) fun secret _ =>
    rules.orFail_bind fun key valid => later secret key valid

/-! ## The git shim -/

section Shim

variable {args : ShimArgs}

theorem writeStatusFd {statusFd : Option Int}
    (given : statusFd = some (-1) → ∀ message, allowed (.panicked message)) (line : String) :
    holds (writeStatusFd statusFd line) := by
  unfold PipeK1.writeStatusFd
  split
  · exact rules.pure ()
  · split
    · next fd minus => exact rules.throw (given (congrArg some minus) _)
    · exact rules.record _

theorem printArmored (label : String) (payload : SignaturePayload) :
    holds (printArmored crates label payload) :=
  rules.bind (rules.record _) fun _ => rules.bind (rules.record _) fun _ =>
    rules.bind (rules.record _) fun _ => rules.record _

theorem shimVerify (given : args.statusFd = some (-1) → ∀ message, allowed (.panicked message)) :
    holds (shimVerify crates host args) := by
  have status : ∀ line, holds (PipeK1.writeStatusFd args.statusFd line) :=
    rules.writeStatusFd given
  have good : ∀ payload signerPk, holds (reportGood crates host args.statusFd payload signerPk) := by
    intro payload signerPk
    unfold reportGood
    refine rules.bind (status _) fun _ => ?_
    split
    all_goals
      exact rules.bind (rules.record _) fun _ => rules.bind (rules.record _) fun _ =>
        rules.bind (status _) fun _ => rules.bind (status _) fun _ => status _
  unfold PipeK1.shimVerify
  split
  · exact rules.fail _
  · refine rules.bind rules.orFail fun sigRaw => rules.bind rules.orFail fun sigBytes => ?_
    unfold checkPayload
    split
    · exact rules.bind (status _) fun _ => rules.bind (rules.record _) fun _ => rules.fail _
    · refine rules.bind ?_ fun dataBytes => ?_
      · unfold readData
        split
        · exact rules.readAllStdin
        · exact rules.orFail
      · split
        · exact good _ _
        · exact rules.bind (status _) fun _ => rules.bind (status _) fun _ =>
            rules.bind (rules.record _) fun _ => rules.fail _

theorem shimSign (given : args.statusFd = some (-1) → ∀ message, allowed (.panicked message))
    (signs : ∀ secret key digest now, crates.curve.signingKey secret = .ok key →
      FailsOnly allowed (signStreamPayload crates key digest now)) :
    holds (shimSign crates host args) := by
  have status : ∀ line, holds (PipeK1.writeStatusFd args.statusFd line) :=
    rules.writeStatusFd given
  unfold PipeK1.shimSign
  refine rules.orStop_bind (loadSecretKey_failsOnly (fun _ => rules.failed _) ?_) fun skBytes _ =>
    rules.orFail_bind fun signingKey valid => rules.bind ?_ fun _ =>
    rules.bind rules.readAllStdin fun commitData => rules.bind ?_ fun now =>
    rules.orStop_bind (signs skBytes signingKey _ now valid) fun sigPayload _ =>
    rules.bind (status _) fun _ => rules.printArmored _ _
  · exact fun absent => absurd absent (by decide)
  · unfold checkKeyId
    split
    · exact rules.pure ()
    · split
      · exact rules.pure ()
      · split
        · exact rules.bind (status _) fun _ => rules.bind (rules.record _) fun _ => rules.fail _
        · exact rules.pure ()
  · exact rules.bind rules.orFail fun seconds => rules.pure _

theorem runGitShim {args : List String}
    (given : (scanShim {} args).statusFd = some (-1) → ∀ message, allowed (.panicked message))
    (signs : ∀ secret key digest now, crates.curve.signingKey secret = .ok key →
      FailsOnly allowed (signStreamPayload crates key digest now)) :
    holds (runGitShim crates host args) := by
  unfold PipeK1.runGitShim
  dsimp only
  split
  · exact rules.shimVerify given
  · exact rules.shimSign given signs

end Shim

/-! ## The small commands -/

theorem pubkeyCommand {args : List String}
    (given : some (-1) ∈ (parseKeyIntakeArgs args).descriptors →
      ∀ message, allowed (.panicked message)) :
    holds (pubkeyCommand crates host args) :=
  rules.loadSigningKey_bind given fun _ _ _ => rules.bind (rules.record _) fun _ => rules.record _

theorem hashCommand (args : List String) : holds (hashCommand crates args) :=
  rules.bind rules.readAllStdin fun _ => rules.record _

theorem inspectHeaderCommand : holds (inspectHeaderCommand crates) := by
  unfold PipeK1.inspectHeaderCommand
  refine rules.bind (rules.readStdin _ _) fun header => ?_
  split
  · exact rules.fail _
  · iterate 7 refine rules.bind (rules.record _) fun _ => ?_
    exact rules.record _

theorem inspectChunkCommand : holds inspectChunkCommand :=
  rules.bind (rules.readStdin _ _) fun _ => rules.bind (rules.record _) fun _ =>
    rules.bind (rules.record _) fun _ => rules.record _

theorem printUsage : holds printUsage :=
  rules.forM (fun _ => rules.record _) _

end Compositional

end PipeK1
