import PipeK1.CommandRules
import PipeK1.DeliveryContract

/-!
# Commands that retry

Every command but `decrypt`, `sign` and `verify`, and all of the git shim, reads
through buffers that retry what was interrupted: no schedule of an input shows
in what they do.
-/

set_option autoImplicit false

namespace PipeK1

open ByteData ByteReader Effects

variable {crates : Crates} {host : Host}

/-! ## Reading -/

theorem readStdin_mirrored (convert : IoError → Pipek1Error) (width : Nat) :
    Mirrored Alike alikeStop (readStdin convert width) := by
  intro left right alike
  refine (readStdin_alike ⟨alike, Iff.rfl, Iff.rfl⟩).imp ?_
  rintro buffer later buffer' later' ⟨same, alike'⟩
  exact ⟨same, alike'.toAlike⟩

theorem readAllStdin_mirrored : Mirrored Alike alikeStop readAllStdin := by
  intro left right alike
  have read : onStdin readToEnd left =
      .ok (.ok (content left.stdin)) ⟨[], left.events⟩ := by
    change EStateM.Result.ok _ _ = _
    rw [readToEnd_patient alike.patient]
  have read' : onStdin readToEnd right =
      .ok (.ok (content left.stdin)) ⟨[], right.events⟩ := by
    change EStateM.Result.ok _ _ = _
    rw [readToEnd_patient alike.patient', alike.content_eq]
  rw [readAllStdin, bind_of_ok read, bind_of_ok read']
  exact .both ⟨rfl, Smooth.nil.patient, Smooth.nil.patient, rfl, alike.events⟩

/-- Sequences of such reads keep two runs alike, and so does every way to stop. -/
theorem alike_compositional : Compositional (fun _ => True) (Mirrored Alike alikeStop) where
  failed _ := trivial
  pure := .pure
  throw _ := keepsRecords_alike.stop _
  bind := .bind
  record := keepsRecords_alike.record
  readStdin := readStdin_mirrored
  readAllStdin := readAllStdin_mirrored

/-! ## The program -/

/-- The invocations that never read outside a retrying buffer. -/
def Retries (exe command : String) : Prop :=
  isGitInvocation exe command = true ∨ command ∉ ["decrypt", "sign", "verify"]

theorem dispatchCommand_mirrored {rounds : Nat} {command : String} {args : List String}
    (retries : command ∉ ["decrypt", "sign", "verify"]) :
    Mirrored Alike alikeStop (dispatchCommand crates host rounds command args) := by
  unfold dispatchCommand
  split
  case h_1 => exact encryptCommand_mirrored rounds args
  case h_3 => exact alike_compositional.pubkeyCommand fun _ _ => trivial
  case h_6 => exact alike_compositional.hashCommand args
  case h_7 => exact alike_compositional.inspectHeaderCommand
  case h_8 => exact alike_compositional.inspectChunkCommand
  case h_9 => exact .bind alike_compositional.printUsage fun _ => alike_compositional.fail _
  all_goals exact absurd retries (by decide)

theorem runGitShim_mirrored (args : List String) :
    Mirrored Alike alikeStop (runGitShim crates host args) :=
  alike_compositional.runGitShim (fun _ _ => trivial) fun _ _ _ _ _ _ _ => trivial

theorem runCommand_mirrored {rounds : Nat} {exe command : String} {args : List String}
    (retries : Retries exe command) :
    Mirrored Alike alikeStop (runCommand crates host rounds exe command args) := by
  unfold runCommand
  rcases retries with git | reads
  · rw [if_pos git]
    exact runGitShim_mirrored _
  · split
    · exact runGitShim_mirrored _
    · exact dispatchCommand_mirrored reads

/-- However its input is cut and interrupted, a retrying command ends with the same exit code after
the same record: what it put on standard output, standard error and the status descriptor. -/
theorem retrying_delivery_independent (crates : Crates) (host : Host) (rounds : Nat)
    (exe command : String) (args : List String) (retries : Retries exe command)
    (left right : Reader) (patient : Patient left) (patient' : Patient right)
    (same : content left = content right) :
    (realMain crates host rounds (exe :: command :: args) left).1 =
        (realMain crates host rounds (exe :: command :: args) right).1 ∧
      (realMain crates host rounds (exe :: command :: args) left).2.events =
        (realMain crates host rounds (exe :: command :: args) right).2.events := by
  have run := @runCommand_mirrored crates host rounds exe command args retries _ _
    (alike_start patient patient' same)
  simp only [realMain]
  rcases run.outcomes (fun _ _ => id) (fun _ _ => id) with
    ⟨_, later, _, later', ran, ran', _, alike⟩ | ⟨stop, later, _, later', ran, ran', rfl, events⟩
  · rw [ran, ran']
    exact ⟨rfl, alike.events⟩
  · rw [ran, ran']
    refine ⟨rfl, ?_⟩
    cases stop with
    | failed error => exact congrArg (· ++ _) events
    | panicked message => exact events
    | unfinished => exact events

open Reference in
/-- The git shim signs the same five bytes, cut and interrupted or not. -/
theorem retrying_delivery_independent_sample :
    (realMain packages (keyHost sampleSender sampleEphemeral) 0
        ("git" :: "git-shim" :: signingArgs (publicHex sampleSender)) interruptedInput).1 = some 0 ∧
      (realMain packages (keyHost sampleSender sampleEphemeral) 0
        ("git" :: "git-shim" :: signingArgs (publicHex sampleSender)) interruptedInput).2.events =
      (realMain packages (keyHost sampleSender sampleEphemeral) 0
        ("git" :: "git-shim" :: signingArgs (publicHex sampleSender))
        (ofBytes sampleData)).2.events := by
  obtain ⟨status, events⟩ := retrying_delivery_independent packages
    (keyHost sampleSender sampleEphemeral) 0 "git" "git-shim" (signingArgs (publicHex sampleSender))
    (.inl (by decide)) interruptedInput (ofBytes sampleData) patient_interruptedInput
    (smooth_ofBytes sampleData).patient (by decide)
  have git : isGitInvocation "git" "git-shim" = true := by decide
  obtain ⟨final, signed, _⟩ := realMain_shim_signs signs base64Laws hexDigits
    (signingKey_secretBytes sampleSender) sampleSigningHost git shimSigns_sample
    (smooth_ofBytes sampleData)
  refine ⟨status.trans ?_, events⟩
  rw [signed]

end PipeK1
