import PipeK1.Delivery
import PipeK1.DecryptCompleteness
import PipeK1.OptionContract

/-!
# Independence of the delivery

When two schedules of one input lead a command to the same standard output and
exit code. Reads that retry do not see the schedule; the single read after a
stream and the loops of `sign` and `verify` do.
-/

set_option autoImplicit false

namespace PipeK1

open ByteData ByteReader Effects

variable {crates : Crates} {host : Host}

/-! ## Outcomes -/

/-- The same exit code, and the same bytes on standard output. -/
structure SameOutcome (left right : Option Nat × Process) : Prop where
  status : left.1 = right.1
  stdout : left.2.stdout = right.2.stdout

/-- What the program makes of a run. -/
def outcomeOf (result : EStateM.Result Stop Process Unit) : Option Nat × Process :=
  (exitStatus result, reported result)

theorem stdout_outcomeOf_error (stop : Stop) (process : Process) :
    (outcomeOf (.error stop process)).2.stdout = process.stdout :=
  stdout_reported_error stop process

theorem sameOutcome_of_stops {stop stop' : Stop} {left right : Process}
    (code : stop.exitCode = stop'.exitCode) (events : left.events = right.events) :
    SameOutcome (outcomeOf (.error stop left)) (outcomeOf (.error stop' right)) where
  status := code
  stdout := by
    rw [stdout_outcomeOf_error, stdout_outcomeOf_error, Process.stdout, events, Process.stdout]

/-- A program that reads through buffers only ends the same on both schedules. -/
theorem sameOutcome_of_mirrored {program : Run Unit} (mirrored : Mirrored Alike alikeStop program)
    {left right : Process} (alike : Alike left right) :
    SameOutcome (outcomeOf (program left)) (outcomeOf (program right)) := by
  rcases (mirrored left right alike).outcomes (fun _ _ => id) (fun _ _ => id) with
    ⟨_, later, _, later', ran, ran', _, alike'⟩ | ⟨_, _, _, _, ran, ran', rfl, events⟩
  · rw [ran, ran']
    refine ⟨rfl, ?_⟩
    change later.stdout = later'.stdout
    rw [Process.stdout, alike'.events, Process.stdout]
  · rw [ran, ran']
    exact sameOutcome_of_stops rfl events

/-! ## `encrypt` -/

theorem encryptCommand_mirrored (rounds : Nat) (args : List String) :
    Mirrored Alike alikeStop (encryptCommand crates host rounds args) := by
  unfold encryptCommand
  exact .bind (keepsRecords_alike.orStop _) fun recip => runEncrypt_mirrored host rounds _

/-! ## `decrypt` -/

/-- The data is a stream that conforms, and the spool takes its plaintext. -/
def CarriesAccepted (crates : Crates) (host : Host) (args : DecryptArgs) (data : Bytes) : Prop :=
  ∃ recipPriv signingKey stream, loadSecretKey crates host args.keyArgs = .ok recipPriv ∧
    crates.curve.signingKey recipPriv = .ok signingKey ∧
    stream.Conforms crates args recipPriv (crates.curve.publicBytes signingKey) ∧
    data = stream.bytes ∧
    (args.allowUnverifiedStream = false → SpoolTakes crates host args.maxSize stream)

section Decrypt

variable {args : DecryptArgs} {stdin : Reader}

theorem decryptStream_of_accepted (patient : Patient stdin)
    (accepted : CarriesAccepted crates host args (content stdin)) :
    Ends (fun _ after => content after.stdin = []) (fun _ _ => False)
      (decryptStream crates host args (Process.start stdin)) := by
  obtain ⟨recipPriv, signingKey, stream, loaded, valid, conforms, whole, takes⟩ := accepted
  refine (decryptStream_of_conforms loaded valid conforms patient whole).mono
    (fun _ _ ended => ended.1) ?_
  rintro _ _ ⟨spooling, refused⟩
  exact refused (takes spooling)

/-- A run through the trailer with no byte left has read an accepted stream. -/
theorem carriesAccepted_of_ended (patient : Patient stdin) {state : DecryptState}
    {after : Process}
    (ran : decryptStream crates host args (Process.start stdin) = .ok state after)
    (ended : content after.stdin = []) : CarriesAccepted crates host args (content stdin) := by
  obtain ⟨stream, streamRead⟩ := (decryptStream_ends crates host args stdin).ok ran
  obtain ⟨recipPriv, signingKey, loaded, valid, conforms⟩ := streamRead.conforms
  have whole : content stdin = stream.bytes := by
    rw [streamRead.content_eq, ended, List.append_nil]
  have taken := (decryptStream_of_conforms loaded valid conforms patient whole).ok ran
  exact ⟨recipPriv, signingKey, stream, loaded, valid, conforms, whole, taken.2.2⟩

/-- A run that has reached the end of input succeeds; one interrupted there ends with 1. -/
theorem runDecrypt_after_stream (trusted : args.allowUnverifiedStream = false →
      SpoolTrusted crates host) {state : DecryptState} {after : Process}
    (patient : Patient after.stdin)
    (ran : decryptStream crates host args (Process.start stdin) = .ok state after) :
    if after.stdin = [] then
      ∃ final, runDecrypt crates host args (Process.start stdin) = .ok () final
    else
      ∃ error rest, runDecrypt crates host args (Process.start stdin) =
        .error (.failed error) ⟨rest, after.events⟩ ∧ error.exitCode = 1 := by
  rw [runDecrypt_eq, bind_of_ok ran]
  split
  · next empty =>
      rw [bind_of_ok (assertEndOfInput_of_empty empty), releasePlaintext]
      cases spooling : args.allowUnverifiedStream with
      | true => exact ⟨_, rfl⟩
      | false =>
          obtain ⟨stream, streamRead⟩ := (decryptStream_ends crates host args stdin).ok ran
          exact ⟨_, streamRead.released spooling (trusted spooling) _⟩
  · next more =>
      obtain ⟨error, rest, stopped, code⟩ := assertEndOfInput_of_more patient more
      exact ⟨error, rest, bind_of_error stopped, code⟩

/-- Where the trailer is reached with nothing left, the read after it tells schedules apart. -/
theorem runDecrypt_sameOutcome_of_ended (trusted : args.allowUnverifiedStream = false →
      SpoolTrusted crates host) {left right : Reader} {state : DecryptState}
    {later later' : Process} (patient : Patient later.stdin) (patient' : Patient later'.stdin)
    (events : later.events = later'.events)
    (ran : decryptStream crates host args (Process.start left) = .ok state later)
    (ran' : decryptStream crates host args (Process.start right) = .ok state later') :
    SameOutcome (outcomeOf (runDecrypt crates host args (Process.start left)))
        (outcomeOf (runDecrypt crates host args (Process.start right))) ↔
      (later.stdin = [] ↔ later'.stdin = []) := by
  have ends := runDecrypt_after_stream trusted patient ran
  have ends' := runDecrypt_after_stream trusted patient' ran'
  by_cases empty : later.stdin = []
  · by_cases empty' : later'.stdin = []
    · have identical : later = later' := by
        cases later
        cases later'
        rw [Process.mk.injEq]
        exact ⟨empty.trans empty'.symm, events⟩
      rw [runDecrypt_eq, bind_of_ok ran, bind_of_ok ran', identical]
      exact iff_of_true ⟨rfl, rfl⟩ Iff.rfl
    · rw [if_pos empty] at ends
      rw [if_neg empty'] at ends'
      obtain ⟨final, ended⟩ := ends
      obtain ⟨error, rest, stopped, code⟩ := ends'
      refine iff_of_false (fun same => ?_) (fun same => empty' (same.mp empty))
      rw [ended, stopped] at same
      exact error.exitCode_ne_zero (Option.some.inj same.status).symm
  · rw [if_neg empty] at ends
    obtain ⟨error, rest, stopped, code⟩ := ends
    by_cases empty' : later'.stdin = []
    · rw [if_pos empty'] at ends'
      obtain ⟨final, ended⟩ := ends'
      refine iff_of_false (fun same => ?_) (fun same => empty (same.mpr empty'))
      rw [ended, stopped] at same
      exact error.exitCode_ne_zero (Option.some.inj same.status)
    · rw [if_neg empty'] at ends'
      obtain ⟨error', rest', stopped', code'⟩ := ends'
      rw [stopped, stopped']
      refine iff_of_true (sameOutcome_of_stops ?_ events) (iff_of_false empty empty')
      exact congrArg some (code.trans code'.symm)

/-- Two schedules of an accepted stream must agree on whether an interruption follows the last
byte. -/
theorem runDecrypt_sameOutcome_iff (trusted : args.allowUnverifiedStream = false →
      SpoolTrusted crates host) {left right : Reader} (patient : Patient left)
    (patient' : Patient right) (same : content left = content right) :
    SameOutcome (outcomeOf (runDecrypt crates host args (Process.start left)))
        (outcomeOf (runDecrypt crates host args (Process.start right))) ↔
      (CarriesAccepted crates host args (content left) →
        (EndsInterrupted left ↔ EndsInterrupted right)) := by
  have alike : AlikeUpTo (EndsInterrupted left) (EndsInterrupted right) (Process.start left)
      (Process.start right) := ⟨alike_start patient patient' same, Iff.rfl, Iff.rfl⟩
  have accepting := @decryptStream_of_accepted crates host args left patient
  rcases (decryptStream_mirrored _ _ alike).outcomes (fun _ _ => id) (fun _ _ => id) with
    ⟨state, later, _, later', ran, ran', rfl, alike'⟩ | ⟨stop, _, _, _, ran, ran', rfl, events⟩
  · by_cases empty : content later.stdin = []
    · rw [forall_prop_of_true (carriesAccepted_of_ended patient ran empty), ← alike'.left_iff,
        ← alike'.right_iff, alike'.patient.endsInterrupted_iff empty,
        alike'.patient'.endsInterrupted_iff (alike'.content_eq ▸ empty), ne_eq, ne_eq, not_iff_not]
      exact runDecrypt_sameOutcome_of_ended trusted alike'.patient alike'.patient' alike'.events
        ran ran'
    · refine iff_of_true ?_ (fun accepted => absurd ((accepting accepted).ok ran) empty)
      have more : later.stdin ≠ [] := by
        intro none
        exact empty (congrArg content none)
      have more' : later'.stdin ≠ [] := by
        intro none
        exact empty (alike'.content_eq.trans (congrArg content none))
      exact (runDecrypt_sameOutcome_of_ended trusted alike'.patient alike'.patient' alike'.events
        ran ran').mpr (iff_of_false more more')
  · refine iff_of_true ?_ (fun accepted => ((accepting accepted).error ran).elim)
    rw [runDecrypt_eq, bind_of_error ran, bind_of_error ran']
    exact sameOutcome_of_stops rfl events

end Decrypt

/-! ## Reading to the end of input -/

/-- Where the loop of `sign` and `verify` stops. -/
inductive Reading where
  | refused
  | interrupted
  | whole
deriving DecidableEq

/-- The spool is given what single reads deliver up to the first failure. -/
def spoolPieces (crates : Crates) (begun : Option Spool) (stdin : Reader) :
    Except String (Option Spool) :=
  (pieces chunkSize (by decide) stdin).foldlM
    (fun spool bytes => spoolBytes crates bytes spool) begun

def readingOf (crates : Crates) (begun : Option Spool) (stdin : Reader) : Reading :=
  match spoolPieces crates begun stdin with
  | .error _ => .refused
  | .ok _ => if interrupts stdin then .interrupted else .whole

/-- Where the loop is: the pieces still to come decide how it stops. -/
structure Reaches (crates : Crates) (start : Process) (reading : Reading) (state : AbsorbState)
    (process : Process) : Prop where
  patient : Patient process.stdin
  content_eq : content start.stdin = state.hashed ++ content process.stdin
  events : process.events = start.events
  reading_eq : readingOf crates state.spool process.stdin = reading

theorem absorbStep_reaches {start process : Process} {reading : Reading} {state : AbsorbState}
    (reaches : Reaches crates start reading state process) :
    Ends (fun outcome after =>
        match outcome with
        | .inl next => Reaches crates start reading next after
        | .inr final => reading = .whole ∧ final.hashed = content start.stdin ∧
            after = ⟨[], start.events⟩)
      (fun stop after => after.events = start.events ∧
        (reading = .refused ∧ stop.exitCode = some 2 ∨
          reading = .interrupted ∧ stop.exitCode = some 1))
      (absorbStep crates state process) := by
  have reads : ∀ {outcome : Except IoError Bytes} {rest : Reader},
      read chunkSize process.stdin = (outcome, rest) →
      onStdin (read chunkSize) process = .ok outcome ⟨rest, process.events⟩ := by
    intro outcome rest found
    change EStateM.Result.ok _ _ = _
    rw [found]
  have reading_eq := reaches.reading_eq
  cases reaches.patient.singleRead (by decide : 0 < chunkSize) with
  | ended empty =>
      have found : read chunkSize process.stdin = (.ok [], []) := by
        rw [empty]
        rfl
      rw [absorbStep, bind_of_ok (reads found)]
      rw [empty] at reading_eq
      refine ⟨reading_eq.symm, ?_, ?_⟩
      · rw [reaches.content_eq, empty, content_nil, List.append_nil]
      · rw [reaches.events]
  | @interrupted error rest found restless stopped =>
      have unquiet : interrupts process.stdin = true := by
        by_contra quiet
        exact restless (reaches.patient.smooth_iff.mpr (Bool.eq_false_of_not_eq_true quiet))
      rw [absorbStep, bind_of_ok (reads found)]
      rw [readingOf, spoolPieces, stopped, unquiet] at reading_eq
      exact ⟨reaches.events, .inr ⟨reading_eq.symm, rfl⟩⟩
  | @delivered bytes rest found nonempty content_eq patient smooth_iff pieces_eq =>
      obtain ⟨byte, bytes, rfl⟩ := List.exists_cons_of_ne_nil nonempty
      have quiet : interrupts rest = interrupts process.stdin := by
        rw [Bool.eq_iff_iff, ← not_iff_not, Bool.not_eq_true, Bool.not_eq_true,
          ← patient.smooth_iff, ← reaches.patient.smooth_iff]
        exact smooth_iff.symm
      rw [absorbStep, bind_of_ok (reads found),
        bind_of_ok (show orFail _ _ _ = .ok (byte :: bytes) _ from rfl), ends_bind]
      rw [readingOf, spoolPieces, pieces_eq, List.foldlM_cons] at reading_eq
      cases spooled : spoolBytes crates (byte :: bytes) state.spool with
      | error error =>
          rw [spooled] at reading_eq
          exact ⟨reaches.events, .inl ⟨reading_eq.symm, rfl⟩⟩
      | ok spool =>
          rw [spooled] at reading_eq
          refine ⟨patient, ?_, reaches.events, ?_⟩
          · rw [reaches.content_eq, content_eq, List.append_assoc]
          · rw [readingOf, quiet]
            exact reading_eq

/-- The loop stops as the pieces say, and past the end of input it leaves nothing to read. -/
theorem absorbStdin_reaches {stdin : Reader} (patient : Patient stdin) (begun : Option Spool) :
    Ends (fun final after => readingOf crates begun stdin = .whole ∧
        final.hashed = content stdin ∧ after = Process.start [])
      (fun stop after => after.events = [] ∧
        (readingOf crates begun stdin = .refused ∧ stop.exitCode = some 2 ∨
          readingOf crates begun stdin = .interrupted ∧ stop.exitCode = some 1))
      (absorbStdin crates begun (Process.start stdin)) := by
  unfold absorbStdin
  refine loop_ends (Reaches crates (Process.start stdin) (readingOf crates begun stdin)) ?_
    ⟨patient, rfl, rfl, rfl⟩
  intro state process reaches
  refine (absorbStep_reaches reaches).mono ?_ (fun _ _ stopped => stopped)
  intro outcome after advanced
  cases outcome with
  | inl next => exact advanced
  | inr final => exact advanced

/-! ## `sign` -/

def KeyUsable (crates : Crates) (host : Host) (keyArgs : KeyIntakeArgs) : Prop :=
  ∃ secret key, loadSecretKey crates host keyArgs = .ok secret ∧
    crates.curve.signingKey secret = .ok key

/-- Without a spool nothing is refused. -/
theorem readingOf_none (stdin : Reader) :
    readingOf crates none stdin = if interrupts stdin then .interrupted else .whole := by
  have accepted : ∀ blocks : List Bytes, blocks.foldlM
      (fun spool bytes => spoolBytes crates bytes spool) none = .ok none := by
    intro blocks
    induction blocks with
    | nil => rfl
    | cons block blocks ih => exact ih
  rw [readingOf, spoolPieces, accepted]

theorem loadSigningKey_cases (args : List String) :
    (KeyUsable crates host (parseKeyIntakeArgs args) ∧
      ∃ key, ∀ process, loadSigningKey crates host args process = .ok key process) ∨
    ¬ KeyUsable crates host (parseKeyIntakeArgs args) ∧
      ∃ stop, ∀ process, loadSigningKey crates host args process = .error stop process := by
  cases loaded : loadSecretKey crates host (parseKeyIntakeArgs args) with
  | error stop =>
      refine .inr ⟨?_, stop, fun process => ?_⟩
      · rintro ⟨secret, key, loaded', _⟩
        rw [loaded] at loaded'
        cases loaded'
      · rw [loadSigningKey, loaded]
        rfl
  | ok secret =>
      cases valid : crates.curve.signingKey secret with
      | error message =>
          refine .inr ⟨?_, .failed (.usageError ("Invalid secp256k1 secret key: " ++ message)),
            fun process => ?_⟩
          · rintro ⟨secret', key, loaded', valid'⟩
            rw [loaded] at loaded'
            cases loaded'
            rw [valid] at valid'
            cases valid'
          · rw [loadSigningKey, loaded, bind_of_ok (show orStop _ _ = .ok secret _ from rfl), valid]
            rfl
      | ok key =>
          refine .inl ⟨⟨secret, key, loaded, valid⟩, key, fun process => ?_⟩
          rw [loadSigningKey, loaded, bind_of_ok (show orStop _ _ = .ok secret _ from rfl), valid]
          rfl

/-- `sign` after the last read. -/
def signHashed (crates : Crates) (host : Host) (args : List String)
    (signingKey : crates.curve.SigningKey) (hashed : Bytes) : Run Unit := do
  let now ← currentTimestamp host
  let sigPayload ← orStop
    (signStreamPayload crates signingKey (crates.digests.sha256 hashed) now)
  if "-a" ∈ args ∨ "--armor" ∈ args then
    printArmored crates "PIPE-K1 SIGNATURE" sigPayload
  else
    writeStdout sigPayload.toList

/-- `sign` from the first read on. -/
def signStdin (crates : Crates) (host : Host) (args : List String)
    (signingKey : crates.curve.SigningKey) : Run Unit := do
  let absorbed ← absorbStdin crates none
  signHashed crates host args signingKey absorbed.hashed

theorem signCommand_eq (args : List String) :
    signCommand crates host args = (do
      let signingKey ← loadSigningKey crates host args
      signStdin crates host args signingKey) := by
  rw [signCommand]
  rfl

/-- Once everything is read, `sign` does not end with an interruption's exit code. -/
theorem signHashed_exitStatus (args : List String) (signingKey : crates.curve.SigningKey)
    (hashed : Bytes) (process : Process) :
    exitStatus (signHashed crates host args signingKey hashed process) ≠ some 1 := by
  have ends : Ends (fun _ _ => True) (fun stop _ => stop.exitCode ≠ some 1)
      (signHashed crates host args signingKey hashed process) := by
    rw [signHashed, ends_bind, currentTimestamp, ends_bind]
    refine ends_orFail ?_ (fun _ _ impossible => by cases impossible)
    intro seconds _
    rw [ends_pure, ends_bind, signStreamPayload]
    refine ends_orStop (fun payload _ => ?_) (fun stop refused => ?_)
    · split
      · trivial
      · trivial
    · split at refused
      · cases refused
        intro impossible
        cases impossible
      · cases refused
  intro code
  cases ran : signHashed crates host args signingKey hashed process with
  | ok _ after =>
      rw [ran] at code
      cases code
  | error stop after =>
      rw [ran] at code
      exact ends.error ran code

/-- One interruption anywhere ends `sign` with exit code 1. -/
theorem signStdin_of_patient {args : List String} {signingKey : crates.curve.SigningKey}
    {stdin : Reader} (patient : Patient stdin) :
    (interrupts stdin = true ∧
      ∃ stop after, signStdin crates host args signingKey (Process.start stdin) =
        .error stop after ∧ stop.exitCode = some 1 ∧ after.events = []) ∨
    (interrupts stdin = false ∧ signStdin crates host args signingKey (Process.start stdin) =
      signHashed crates host args signingKey (content stdin) (Process.start [])) := by
  have reached := @absorbStdin_reaches crates stdin patient none
  rw [readingOf_none] at reached
  cases restless : interrupts stdin with
  | true =>
      rw [restless] at reached
      cases ran : absorbStdin crates none (Process.start stdin) with
      | ok final after => cases (reached.ok ran).1
      | error stop after =>
          obtain ⟨events, ⟨refused, _⟩ | ⟨_, code⟩⟩ := reached.error ran
          · cases refused
          · exact .inl ⟨rfl, stop, after, bind_of_error ran, code, events⟩
  | false =>
      rw [restless] at reached
      cases ran : absorbStdin crates none (Process.start stdin) with
      | ok final after =>
          obtain ⟨_, hashed, rfl⟩ := reached.ok ran
          refine .inr ⟨rfl, ?_⟩
          rw [signStdin, bind_of_ok ran, hashed]
      | error stop after =>
          obtain ⟨_, ⟨refused, _⟩ | ⟨interrupted, _⟩⟩ := reached.error ran
          · cases refused
          · cases interrupted

theorem signCommand_sameOutcome_iff {args : List String} {left right : Reader}
    (patient : Patient left) (patient' : Patient right) (same : content left = content right) :
    SameOutcome (outcomeOf (signCommand crates host args (Process.start left)))
        (outcomeOf (signCommand crates host args (Process.start right))) ↔
      (KeyUsable crates host (parseKeyIntakeArgs args) → interrupts left = interrupts right) := by
  rw [signCommand_eq]
  rcases loadSigningKey_cases args with ⟨usable, key, loads⟩ | ⟨unusable, stop, stops⟩
  · rw [forall_prop_of_true usable, bind_of_ok (loads _), bind_of_ok (loads _)]
    have other := @signHashed_exitStatus crates host args key (content left) (Process.start [])
    rcases signStdin_of_patient patient with ⟨restless, stop, after, ran, code, events⟩ | ⟨quiet, ran⟩
    · rcases signStdin_of_patient patient' with
        ⟨restless', stop', after', ran', code', events'⟩ | ⟨quiet', ran'⟩
      · rw [ran, ran', restless, restless']
        exact iff_of_true (sameOutcome_of_stops (code.trans code'.symm)
          (events.trans events'.symm)) rfl
      · rw [ran, ran', restless, quiet', ← same]
        refine iff_of_false (fun alike => other ?_) Bool.noConfusion
        exact alike.status.symm.trans code
    · rcases signStdin_of_patient patient' with
        ⟨restless', stop', after', ran', code', events'⟩ | ⟨quiet', ran'⟩
      · rw [ran, ran', quiet, restless']
        refine iff_of_false (fun alike => other ?_) Bool.noConfusion
        exact alike.status.trans code'
      · rw [ran, ran', quiet, quiet', same]
        exact iff_of_true ⟨rfl, rfl⟩ rfl
  · rw [bind_of_error (stops _), bind_of_error (stops _)]
    exact iff_of_true (sameOutcome_of_stops rfl rfl) (fun usable => absurd usable unusable)

/-! ## `verify` -/

/-- What the signature file and the options make of the data. -/
inductive Verdict where
  | accepted
  | rejected
  | unparsed
deriving DecidableEq

def verdictOf (crates : Crates) (options : VerifyOptions) (payload : SignaturePayload)
    (data : Bytes) : Verdict :=
  match verifyStreamPayload crates payload (crates.digests.sha256 data) with
  | .error _ => .rejected
  | .ok signerPk =>
      match options.expectedPub with
      | none => .accepted
      | some exp =>
          match parseKeyBytes crates exp with
          | .error _ => .unparsed
          | .ok expPk => if expPk = signerPk then .accepted else .rejected

/-- The exit codes of `verify` from the first read on. -/
def verifyCode : Reading → Verdict → Nat
  | .refused, _ => 2
  | .interrupted, _ => 1
  | .whole, .accepted => 0
  | .whole, .rejected => 1
  | .whole, .unparsed => 2

/-- The loops stop in the same way, or where they stop shares its exit code with the verdict. -/
def EndAlike (left right : Reading) (verdict : Verdict) : Prop :=
  left = right ∨ (left ≠ .refused ∧ right ≠ .refused ∧ verdict = .rejected) ∨
    (left ≠ .interrupted ∧ right ≠ .interrupted ∧ verdict = .unparsed)

theorem verifyCode_eq_iff (left right : Reading) (verdict : Verdict) :
    verifyCode left verdict = verifyCode right verdict ↔ EndAlike left right verdict := by
  cases left <;> cases right <;> cases verdict <;> simp [verifyCode, EndAlike]

section Verify

variable {options : VerifyOptions} {payload : SignaturePayload} {stdin : Reader}

/-- The verdict decides how the check of the signer ends. -/
theorem checkSigner_verdict {data : Bytes} {signerPk : FixedBytes 32}
    (verified : verifyStreamPayload crates payload (crates.digests.sha256 data) = .ok signerPk)
    (process : Process) :
    Ends (fun _ after => verdictOf crates options payload data = .accepted ∧
        after.stdin = process.stdin ∧ after.stdout = process.stdout)
      (fun stop after => after.stdout = process.stdout ∧
        (verdictOf crates options payload data = .rejected ∧ stop.exitCode = some 1 ∨
          verdictOf crates options payload data = .unparsed ∧ stop.exitCode = some 2))
      (checkSigner crates options signerPk process) := by
  rw [verdictOf, verified]
  dsimp only
  unfold checkSigner
  cases options.expectedPub with
  | none =>
      rw [ends_eprintln]
      exact ⟨rfl, rfl, (Process.stdout_of_events rfl).trans (List.append_nil _)⟩
  | some exp =>
      simp only [ends_bind]
      cases parseKeyBytes crates exp with
      | error error => exact ⟨rfl, .inr ⟨rfl, rfl⟩⟩
      | ok expPk =>
          change Ends _ _ ((if expPk ≠ signerPk then _ else _ : Run Unit) process)
          by_cases same : expPk = signerPk
          · rw [if_neg (not_not.mpr same), ends_pure]
            exact ⟨if_pos same, rfl, rfl⟩
          · rw [if_pos same, ends_fail]
            exact ⟨rfl, .inl ⟨if_neg same, rfl⟩⟩

/-- In pass-through mode a trusted spool gives back what it took. -/
theorem releaseVerified_took {signerPk : FixedBytes 32} {data : Bytes} {spool : Option Spool}
    (trusted : options.passThrough = true → SpoolTrusted crates host)
    (took : Option.Rel (SpoolTook crates data) (passThroughSpool host options) spool)
    {process : Process} (quiet : process.stdout = []) :
    Ends (fun _ final => final.stdout = if options.passThrough then data else [])
      (fun _ _ => False) (releaseVerified crates signerPk spool process) := by
  cases passing : options.passThrough with
  | true =>
      refine (releaseVerified_ends (trusted passing) took quiet).mono ?_ (fun _ _ => id)
      intro _ final released
      rw [if_pos passing] at released
      exact released.1
  | false =>
      rw [passThroughSpool, passing] at took
      cases took
      rw [releaseVerified, ends_eprintln]
      rw [Process.stdout_of_events rfl, quiet]
      rfl

/-- Where reading stops and what the signature is worth decide the exit code and the output. -/
theorem verifyStdin_code (trusted : options.passThrough = true → SpoolTrusted crates host)
    (patient : Patient stdin) :
    Ends (fun _ final => verifyCode (readingOf crates (passThroughSpool host options) stdin)
          (verdictOf crates options payload (content stdin)) = 0 ∧
        final.stdout = if options.passThrough then content stdin else [])
      (fun stop final => stop.exitCode = some (verifyCode
          (readingOf crates (passThroughSpool host options) stdin)
          (verdictOf crates options payload (content stdin))) ∧ final.stdout = [])
      (verifyStdin crates host options payload (Process.start stdin)) := by
  have begun : ∀ spool, passThroughSpool host options = some spool →
      Spool.Holds crates.aead spool [] := by
    intro spool begun
    unfold passThroughSpool at begun
    split at begun
    · cases begun
      exact Spool.holds_start crates.aead host options.maxSize
    · cases begun
  rw [verifyStdin, ends_bind]
  refine ((absorbStdin_reaches patient (passThroughSpool host options)).and
    (absorbStdin_ends (passThroughSpool host options) begun (Process.start stdin))).mono ?_ ?_
  · rintro absorbed first ⟨⟨whole, hashed, rfl⟩, reached, _⟩
    have took := reached.spooled
    rw [hashed] at took
    rw [whole, hashed, ends_bind]
    refine ends_orFail ?_ ?_
    · intro signerPk verified
      rw [ends_bind]
      refine (checkSigner_verdict verified _).mono ?_ ?_
      · rintro _ second ⟨accepted, _, stdout_eq⟩
        refine (releaseVerified_took trusted took stdout_eq).mono ?_ (fun _ _ => False.elim)
        intro _ final released
        rw [accepted]
        exact ⟨rfl, released⟩
      · rintro stop after ⟨stdout_eq, ⟨rejected, code⟩ | ⟨unparsed, code⟩⟩
        · rw [rejected]
          exact ⟨code, stdout_eq⟩
        · rw [unparsed]
          exact ⟨code, stdout_eq⟩
    · intro error refused
      rw [verdictOf, refused]
      exact ⟨rfl, rfl⟩
  · rintro stop after ⟨⟨_, ⟨refused, code⟩ | ⟨interrupted, code⟩⟩, events, _⟩
    · rw [refused]
      exact ⟨code, Process.stdout_of_events_start events⟩
    · rw [interrupted]
      exact ⟨code, Process.stdout_of_events_start events⟩

theorem verifyStdin_outcome (trusted : options.passThrough = true → SpoolTrusted crates host)
    (patient : Patient stdin) {code : Nat} (known : code = verifyCode
      (readingOf crates (passThroughSpool host options) stdin)
      (verdictOf crates options payload (content stdin))) :
    (outcomeOf (verifyStdin crates host options payload (Process.start stdin))).1 = some code ∧
      (outcomeOf (verifyStdin crates host options payload (Process.start stdin))).2.stdout =
        if code = 0 ∧ options.passThrough = true then content stdin else [] := by
  have ends := @verifyStdin_code crates host options payload stdin trusted patient
  rw [← known] at ends
  cases ran : verifyStdin crates host options payload (Process.start stdin) with
  | ok _ final =>
      obtain ⟨zero, written⟩ := ends.ok ran
      refine ⟨congrArg some zero.symm, ?_⟩
      simp only [zero, true_and]
      exact written
  | error stop final =>
      obtain ⟨status, silent⟩ := ends.error ran
      have positive : code ≠ 0 := by
        rintro rfl
        exact stop.exitCode_ne_zero status
      refine ⟨status, ?_⟩
      rw [stdout_outcomeOf_error, silent, if_neg (fun accepted => positive accepted.1)]

theorem verifyStdin_sameOutcome_iff
    (trusted : options.passThrough = true → SpoolTrusted crates host) {left right : Reader}
    (patient : Patient left) (patient' : Patient right) (same : content left = content right) :
    SameOutcome (outcomeOf (verifyStdin crates host options payload (Process.start left)))
        (outcomeOf (verifyStdin crates host options payload (Process.start right))) ↔
      EndAlike (readingOf crates (passThroughSpool host options) left)
        (readingOf crates (passThroughSpool host options) right)
        (verdictOf crates options payload (content left)) := by
  obtain ⟨status, written⟩ := @verifyStdin_outcome crates host options payload left trusted patient
    _ rfl
  obtain ⟨status', written'⟩ := @verifyStdin_outcome crates host options payload right trusted
    patient' _ rfl
  rw [← same] at status' written'
  rw [← verifyCode_eq_iff]
  constructor
  · intro alike
    exact Option.some.inj (status.symm.trans (alike.status.trans status'))
  · intro code
    refine ⟨?_, ?_⟩
    · rw [status, status', code]
    · rw [written, written', code]

theorem verifyCommand_sameOutcome_iff {args : List String}
    (trusted : (verifyOptions args).passThrough = true → SpoolTrusted crates host)
    {left right : Reader} (patient : Patient left) (patient' : Patient right)
    (same : content left = content right) :
    SameOutcome (outcomeOf (verifyCommand crates host args (Process.start left)))
        (outcomeOf (verifyCommand crates host args (Process.start right))) ↔
      ∀ payload, ((verifyOptions args).passThrough = true → (verifyOptions args).expectedPub ≠ none) →
        loadSignature crates host (verifyOptions args) = .ok payload →
        EndAlike (readingOf crates (passThroughSpool host (verifyOptions args)) left)
          (readingOf crates (passThroughSpool host (verifyOptions args)) right)
          (verdictOf crates (verifyOptions args) payload (content left)) := by
  unfold verifyCommand
  by_cases unguarded : (verifyOptions args).passThrough = true ∧
      (verifyOptions args).expectedPub.isNone = true
  · simp only [unguarded, and_self, ↓reduceIte]
    refine iff_of_true (sameOutcome_of_stops rfl rfl) (fun payload guarded => ?_)
    exact absurd (Option.isNone_iff_eq_none.mp unguarded.2) (guarded trivial)
  · simp only [unguarded, ↓reduceIte]
    have guarded : (verifyOptions args).passThrough = true →
        (verifyOptions args).expectedPub ≠ none :=
      fun passing missing => unguarded ⟨passing, Option.isNone_iff_eq_none.mpr missing⟩
    cases loaded : loadSignature crates host (verifyOptions args) with
    | error error =>
        refine iff_of_true (sameOutcome_of_stops rfl rfl) (fun payload _ impossible => ?_)
        cases impossible
    | ok payload =>
        rw [bind_of_ok (show orFail _ _ _ = .ok payload _ from rfl),
          bind_of_ok (show orFail _ _ _ = .ok payload _ from rfl),
          verifyStdin_sameOutcome_iff trusted patient patient' same]
        constructor
        · rintro alike _ _ ⟨⟩
          exact alike
        · exact fun alike => alike payload guarded rfl

end Verify

/-! ## The program -/

/-- What two schedules of one input must have in common for a command to end the same on both. -/
def SchedulesAgree (crates : Crates) (host : Host) (command : String) (args : List String)
    (left right : Reader) : Prop :=
  (command = "decrypt" → CarriesAccepted crates host (decryptArgs args) (content left) →
    (EndsInterrupted left ↔ EndsInterrupted right)) ∧
  (command = "sign" → KeyUsable crates host (parseKeyIntakeArgs args) →
    interrupts left = interrupts right) ∧
  (command = "verify" → ∀ payload,
    ((verifyOptions args).passThrough = true → (verifyOptions args).expectedPub ≠ none) →
    loadSignature crates host (verifyOptions args) = .ok payload →
    EndAlike (readingOf crates (passThroughSpool host (verifyOptions args)) left)
      (readingOf crates (passThroughSpool host (verifyOptions args)) right)
      (verdictOf crates (verifyOptions args) payload (content left)))

/-- With a spool that gives back what it took, `encrypt` never shows its schedule, and `decrypt` and
`sign` show of it no more than an interruption, in the single read after an accepted stream and in
the loop over the data. The loop of `verify` shows where it stops, unless the verdict has the same
exit code; in pass-through mode the spool can stop it too, which on a disk that fills up depends
on the cuts. -/
theorem delivery_independent_iff (crates : Crates) (host : Host) (rounds : Nat)
    (exe command : String) (args : List String)
    (known : command ∈ ["encrypt", "decrypt", "sign", "verify"])
    (direct : isGitInvocation exe command = false) (trusted : SpoolTrusted crates host)
    (left right : Reader) (patient : Patient left) (patient' : Patient right)
    (same : content left = content right) :
    SameOutcome (realMain crates host rounds (exe :: command :: args) left)
        (realMain crates host rounds (exe :: command :: args) right) ↔
      SchedulesAgree crates host command args left right := by
  rw [realMain_dispatch direct, realMain_dispatch direct]
  simp only [List.mem_cons, List.not_mem_nil, or_false] at known
  rcases known with rfl | rfl | rfl | rfl
  · refine iff_of_true ?_ ⟨?_, ?_, ?_⟩
    · exact sameOutcome_of_mirrored (encryptCommand_mirrored rounds args)
        (alike_start patient patient' same)
    all_goals exact fun other => absurd other (by decide)
  · refine (runDecrypt_sameOutcome_iff (fun _ => trusted) patient patient' same).trans ?_
    simp [SchedulesAgree]
  · refine (signCommand_sameOutcome_iff patient patient' same).trans ?_
    simp [SchedulesAgree]
  · refine (verifyCommand_sameOutcome_iff (fun _ => trusted) patient patient' same).trans ?_
    simp [SchedulesAgree]

section Sample

/-- The five bytes in two deliveries. -/
def cutInput : Reader := [.ready (Text.utf8 "he"), .ready (Text.utf8 "llo")]

/-- With an interruption between the two. -/
def interruptedInput : Reader :=
  [.ready (Text.utf8 "he"), .failed ⟨.interrupted, "Interrupted system call"⟩,
    .ready (Text.utf8 "llo")]

theorem smooth_cutInput : Smooth cutInput :=
  smooth_cons_iff.mpr ⟨by decide, smooth_cons_iff.mpr ⟨by decide, Smooth.nil⟩⟩

theorem patient_interruptedInput : Patient interruptedInput :=
  patient_cons_iff.mpr ⟨.inl ⟨_, by decide, rfl⟩, patient_cons_iff.mpr ⟨.inr ⟨_, rfl, rfl⟩,
    patient_cons_iff.mpr ⟨.inl ⟨_, by decide, rfl⟩, patient_nil⟩⟩⟩

end Sample

open Reference in
/-- To `encrypt` the interruption does not show. To `sign` it does, and the cut alone does not. -/
theorem delivery_independent_iff_sample :
    SameOutcome
      (realMain packages (keyHost sampleSender sampleEphemeral) 0
        ["pipe-k1", "encrypt", "--recipient", publicHex sampleRecipient] interruptedInput)
      (realMain packages (keyHost sampleSender sampleEphemeral) 0
        ["pipe-k1", "encrypt", "--recipient", publicHex sampleRecipient] (ofBytes sampleData)) ∧
    ¬ SameOutcome
      (realMain packages (keyHost sampleSender sampleEphemeral) 0 ["pipe-k1", "sign"]
        interruptedInput)
      (realMain packages (keyHost sampleSender sampleEphemeral) 0 ["pipe-k1", "sign"]
        cutInput) ∧
    SameOutcome
      (realMain packages (keyHost sampleSender sampleEphemeral) 0 ["pipe-k1", "sign"] cutInput)
      (realMain packages (keyHost sampleSender sampleEphemeral) 0 ["pipe-k1", "sign"]
        (ofBytes sampleData)) := by
  have single := (smooth_ofBytes sampleData).patient
  have cut := smooth_cutInput.patient
  have trusted := keyHost_trusted sampleSender sampleEphemeral
  refine ⟨?_, fun alike => ?_, ?_⟩
  · refine (delivery_independent_iff packages (keyHost sampleSender sampleEphemeral) 0 "pipe-k1"
      "encrypt" ["--recipient", publicHex sampleRecipient] (by decide) (by decide) trusted
      interruptedInput (ofBytes sampleData) patient_interruptedInput single (by decide)).mpr
      ⟨?_, ?_, ?_⟩
    all_goals exact fun other => absurd other (by decide)
  · have agree := (delivery_independent_iff packages (keyHost sampleSender sampleEphemeral) 0
      "pipe-k1" "sign" [] (by decide) (by decide) trusted interruptedInput cutInput
      patient_interruptedInput cut (by decide)).mp alike
    have shown := agree.2.1 rfl ⟨_, _, loadSecretKey_keyHost _ sampleSender sampleEphemeral,
      signingKey_secretBytes sampleSender⟩
    exact absurd shown (by decide)
  · refine (delivery_independent_iff packages (keyHost sampleSender sampleEphemeral) 0 "pipe-k1"
      "sign" [] (by decide) (by decide) trusted cutInput (ofBytes sampleData) cut single
      (by decide)).mpr ⟨?_, fun _ _ => by decide, ?_⟩
    all_goals exact fun other => absurd other (by decide)

end PipeK1
