import PipeK1.Encrypt
import PipeK1.PairedRuns
import PipeK1.Library.Interruptions

/-!
# One input on two schedules

Two runs whose standard inputs deliver the same bytes, cut and interrupted in
different ways. Reading through buffers that retry, both do the same; the single
read after a stream and the read loops of `sign` and `verify` see the schedule.
-/

set_option autoImplicit false

namespace PipeK1

open ByteData ByteReader Effects

/-! ## Related processes -/

/-- Both runs have recorded the same, and the same bytes are still to come. -/
structure Alike (left right : Process) : Prop where
  patient : Patient left.stdin
  patient' : Patient right.stdin
  content_eq : content left.stdin = content right.stdin
  events : left.events = right.events

theorem alike_start {left right : Reader} (patient : Patient left) (patient' : Patient right)
    (same : content left = content right) : Alike (Process.start left) (Process.start right) :=
  ⟨patient, patient', same, rfl⟩

/-- Both runs stop with the same error. -/
def alikeStop : Divergence Stop Process Process where
  left _ _ := False
  right _ _ := False
  stop stop left stop' right := stop = stop' ∧ left.events = right.events

/-- The runs know of each other whether their schedules end with an interruption. -/
structure AlikeUpTo (ending ending' : Prop) (left right : Process) : Prop
    extends Alike left right where
  left_iff : EndsInterrupted left.stdin ↔ ending
  right_iff : EndsInterrupted right.stdin ↔ ending'

/-- What recording needs of a relation. -/
structure KeepsRecords (related : Process → Process → Prop) : Prop where
  events : ∀ left right, related left right → left.events = right.events
  records : ∀ left right event, related left right →
    related ⟨left.stdin, left.events ++ [event]⟩ ⟨right.stdin, right.events ++ [event]⟩

theorem keepsRecords_alike : KeepsRecords Alike where
  events _ _ alike := alike.events
  records _ _ _ alike :=
    ⟨alike.patient, alike.patient', alike.content_eq, by rw [alike.events]⟩

theorem keepsRecords_alikeUpTo (ending ending' : Prop) :
    KeepsRecords (AlikeUpTo ending ending') where
  events _ _ alike := alike.events
  records left right event alike :=
    ⟨keepsRecords_alike.records left right event alike.toAlike, alike.left_iff, alike.right_iff⟩

namespace KeepsRecords

variable {related : Process → Process → Prop} {α : Type} (keeps : KeepsRecords related)
include keeps

theorem record (event : Event) : Mirrored related alikeStop (PipeK1.record event) :=
  fun left right alike => .both ⟨rfl, keeps.records left right event alike⟩

theorem stop (stop : Stop) : Mirrored related alikeStop (throw stop : Run α) :=
  .throw fun left right alike => ⟨rfl, keeps.events left right alike⟩

theorem orStop (outcome : Except Stop α) : Mirrored related alikeStop (PipeK1.orStop outcome) := by
  cases outcome with
  | ok value => exact .pure value
  | error error => exact keeps.stop error

end KeepsRecords

/-! ## The encryptor -/

section Encrypt

variable {crates : Crates} (host : Host) (session : EncryptSession crates)

theorem fillBuffer_mirrored (buf : Bytes) : Mirrored Alike alikeStop (fillBuffer buf) := by
  intro left right alike
  obtain ⟨rest, filled, dropped, patient, _⟩ := fill_patient buf.length alike.patient
  obtain ⟨rest', filled', dropped', patient', _⟩ := fill_patient buf.length alike.patient'
  have read : onStdin (fill buf.length) left =
      .ok (.ok ((content left.stdin).take buf.length)) ⟨rest, left.events⟩ := by
    change EStateM.Result.ok _ _ = _
    rw [filled]
  have read' : onStdin (fill buf.length) right =
      .ok (.ok ((content left.stdin).take buf.length)) ⟨rest', right.events⟩ := by
    change EStateM.Result.ok _ _ = _
    rw [filled', alike.content_eq]
  rw [fillBuffer, bind_of_ok read, bind_of_ok read']
  exact .both ⟨rfl, patient, patient', by rw [dropped, dropped', alike.content_eq], alike.events⟩

theorem encryptStep_mirrored (state : EncryptState) :
    Mirrored Alike alikeStop (encryptStep session state) := by
  have keeps := keepsRecords_alike
  refine .bind (fillBuffer_mirrored _) fun filled => .bind (keeps.record _) fun _ => ?_
  dsimp only
  split
  · exact keeps.stop _
  · refine .bind (keeps.record _) fun _ => .bind (keeps.record _) fun _ => .bind (keeps.record _) fun _ => ?_
    split
    · exact keeps.stop _
    · split
      · exact .pure _
      · exact .pure _

theorem writeTrailer_mirrored (hashed : Bytes) :
    Mirrored Alike alikeStop (writeTrailer host session hashed) := by
  have keeps := keepsRecords_alike
  unfold writeTrailer
  split
  · exact .pure ()
  · exact .bind (keeps.orStop _) fun _ => .bind (keeps.record _) fun _ => keeps.record _

theorem runEncrypt_mirrored (rounds : Nat) (args : EncryptArgs) :
    Mirrored Alike alikeStop (runEncrypt crates host rounds args) := by
  have keeps := keepsRecords_alike
  unfold runEncrypt
  exact .bind (keeps.orStop _) fun session =>
    .bind (keeps.record _) fun _ => .bind (fillBuffer_mirrored _) fun _ =>
    .bind (.loop (encryptStep_mirrored session) _) fun _ => writeTrailer_mirrored host session _

end Encrypt

/-! ## The decryptor up to the end of input -/

section Decrypt

variable {crates : Crates} {host : Host} {args : DecryptArgs} {ending ending' : Prop}

theorem readStdin_alike {convert : IoError → Pipek1Error} {width : Nat} {left right : Process}
    (alike : AlikeUpTo ending ending' left right) :
    Lockstep (fun buffer later buffer' later' =>
        buffer = buffer' ∧ AlikeUpTo ending ending' later later') alikeStop
      (readStdin convert width left) (readStdin convert width right) := by
  by_cases short : (content left.stdin).length < width
  · obtain ⟨rest, failed⟩ := readExact_patient_short alike.patient short
    rw [alike.content_eq] at short
    obtain ⟨rest', failed'⟩ := readExact_patient_short alike.patient' short
    rw [readStdin_of_error failed, readStdin_of_error failed']
    exact .stop ⟨rfl, alike.events⟩
  · let buffer : FixedBytes width := ⟨(content left.stdin).take width, by
      rw [List.length_take]
      omega⟩
    have split : content left.stdin = buffer.toList ++ (content left.stdin).drop width :=
      (List.take_append_drop width _).symm
    obtain ⟨rest, reading, content₁, patient, _⟩ :=
      readExact_patient alike.patient buffer _ split
    rw [alike.content_eq] at split
    obtain ⟨rest', reading', content₁', patient', _⟩ :=
      readExact_patient alike.patient' buffer _ split
    rw [readStdin_of_readExact reading, readStdin_of_readExact reading']
    exact .both ⟨rfl, ⟨patient, patient', content₁.trans (content₁'.trans
        (by rw [alike.content_eq])).symm, alike.events⟩,
      (readExact_endsInterrupted reading).trans alike.left_iff,
      (readExact_endsInterrupted reading').trans alike.right_iff⟩

theorem tracks_alike (ending ending' : Prop) : Tracks (AlikeUpTo ending ending') alikeStop where
  reads _ _ _ _ _ alike := readStdin_alike alike
  records alike _ := (keepsRecords_alikeUpTo ending ending').records _ _ _ alike
  stops _ alike := .inr ⟨rfl, alike.events⟩

theorem decryptStep_mirrored (header : StreamHeader) (state : DecryptState) :
    Mirrored (AlikeUpTo ending ending') alikeStop (decryptStep crates args header state) := by
  have keeps := keepsRecords_alikeUpTo ending ending'
  have reads : Mirrored (AlikeUpTo ending ending') alikeStop readChunk :=
    fun _ _ alike => (tracks_alike ending ending').readChunk alike
  refine .bind reads fun chunk => ?_
  dsimp only
  split
  · exact keeps.stop _
  · refine .bind (keeps.record _) fun _ => .bind ?_ fun spool => .pure _
    unfold deliverChunk
    split
    · exact .bind (keeps.record _) fun _ => .pure _
    · split
      · exact .pure _
      · exact keeps.stop _

theorem decryptStream_mirrored :
    Mirrored (AlikeUpTo ending ending') alikeStop (decryptStream crates host args) := by
  have keeps := keepsRecords_alikeUpTo ending ending'
  have tracks := tracks_alike ending ending'
  unfold decryptStream
  exact .bind (keeps.orStop _) fun recipPriv => .bind (keeps.orStop _) fun signingKey =>
    .bind (fun _ _ alike => readStdin_alike alike) fun headerBytes =>
    .bind (keeps.orStop _) fun header =>
    .bind (.loop (decryptStep_mirrored header) _) fun state =>
    .bind (fun _ _ alike => (tracks.trailerStage header state.hashed alike).imp
      fun _ _ _ _ alike => ⟨rfl, alike⟩) fun _ => .pure state

/-- Anything the read after the stream finds, a byte or an interruption, ends the run. -/
theorem assertEndOfInput_of_more {process : Process} (patient : Patient process.stdin)
    (more : process.stdin ≠ []) :
    ∃ error rest, assertEndOfInput process = .error (.failed error) ⟨rest, process.events⟩ ∧
      error.exitCode = 1 := by
  have reads : ∀ {outcome : Except IoError Bytes} {rest : Reader},
      read 1 process.stdin = (outcome, rest) →
      onStdin (read 1) process = .ok outcome ⟨rest, process.events⟩ := by
    intro outcome rest reading
    change EStateM.Result.ok _ _ = _
    rw [reading]
  cases patient.singleRead Nat.one_pos with
  | ended empty => exact absurd empty more
  | @interrupted error rest reading _ _ =>
      refine ⟨.io error, rest, ?_, rfl⟩
      rw [assertEndOfInput, bind_of_ok (reads reading)]
      rfl
  | @delivered bytes rest reading nonempty _ _ _ _ =>
      obtain ⟨byte, bytes, rfl⟩ := List.exists_cons_of_ne_nil nonempty
      refine ⟨.wireCorruption "Unauthenticated trailing bytes detected after stream termination",
        rest, ?_, rfl⟩
      rw [assertEndOfInput, bind_of_ok (reads reading)]
      rfl

/-- An accepted input has been read to its end. -/
theorem runDecrypt_exhausts {stdin : Reader} (patient : Patient stdin) {final : Process}
    (ran : runDecrypt crates host args (Process.start stdin) = .ok () final) :
    content final.stdin = [] := by
  have alike : AlikeUpTo (EndsInterrupted stdin) (EndsInterrupted stdin) (Process.start stdin)
      (Process.start stdin) := ⟨alike_start patient patient rfl, Iff.rfl, Iff.rfl⟩
  rw [runDecrypt_eq] at ran
  obtain ⟨state, later, streamed, ended⟩ := bind_eq_ok_iff.mp ran
  rcases (decryptStream_mirrored _ _ alike).outcomes (fun _ _ => id) (fun _ _ => id) with
    ⟨_, _, _, _, ran', _, _, alike'⟩ | ⟨_, _, _, _, stopped, _, _, _⟩
  · cases streamed.symm.trans ran'
    by_cases empty : later.stdin = []
    · obtain ⟨_, middle, asserted, released⟩ := bind_eq_ok_iff.mp ended
      have kept := ((assertEndOfInput_ends later).ok asserted).1
      rw [empty, content_nil] at kept
      rw [releasePlaintext] at released
      split at released
      · cases released
        exact kept.symm
      · rw [((releaseToStdout_ends _ _ _).ok released).1, ← kept]
    · obtain ⟨_, _, refused, _⟩ := assertEndOfInput_of_more alike'.patient empty
      rw [bind_of_error refused] at ended
      cases ended
  · cases streamed.symm.trans stopped

end Decrypt

end PipeK1
