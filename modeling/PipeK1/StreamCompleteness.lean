import PipeK1.Cli
import PipeK1.PairedRuns
import PipeK1.RoundTrip

/-!
# Cut and extended streams

Two runs of the decryptor, of which one reads a proper prefix of the other's
input, read and compute the same until the shorter input ends. An accepted
input is therefore refused as soon as bytes are missing or left over.
-/

set_option autoImplicit false

namespace PipeK1

open ByteData ByteReader Effects

variable {crates : Crates} {host : Host} {args : DecryptArgs}

/-! ## Reading -/

/-- One of two inputs is a proper prefix of the other, and the right run has written nothing. -/
structure Cut (left right : Process) : Prop where
  smooth : Smooth left.stdin
  smooth' : Smooth right.stdin
  comparable : content left.stdin <+: content right.stdin ∨
    content right.stdin <+: content left.stdin
  differs : content left.stdin ≠ content right.stdin
  quiet : right.stdout = []

/-- The left run may stop for any reason; the right one with exit code 1 and no output. -/
def cutApart : Divergence Stop Process Process where
  left _ _ := True
  right stop after := stop.exitCode = some 1 ∧ after.stdout = []
  stop _ _ _ _ := False

/-- The first bytes of comparable inputs agree, and the rests are comparable. -/
theorem comparable_split {left right : Bytes} {width : Nat} (long : width ≤ left.length)
    (long' : width ≤ right.length) (comparable : left <+: right ∨ right <+: left) :
    left.take width = right.take width ∧
      (left.drop width <+: right.drop width ∨ right.drop width <+: left.drop width) := by
  rcases comparable with ⟨rest, rfl⟩ | ⟨rest, rfl⟩
  · exact ⟨(List.take_append_of_le_length long).symm,
      .inl ⟨rest, (List.drop_append_of_le_length long).symm⟩⟩
  · exact ⟨List.take_append_of_le_length long',
      .inr ⟨rest, (List.drop_append_of_le_length long').symm⟩⟩

theorem readStdin_cut {convert : IoError → Pipek1Error}
    (short : (convert endInsideBuffer).exitCode = 1) (width : Nat) {left right : Process}
    (cut : Cut left right) :
    Lockstep (fun buffer later buffer' later' => buffer = buffer' ∧ Cut later later') cutApart
      (readStdin convert width left) (readStdin convert width right) := by
  by_cases enough : width ≤ (content left.stdin).length
  · by_cases enough' : width ≤ (content right.stdin).length
    · obtain ⟨same, comparable⟩ := comparable_split enough enough' cut.comparable
      let buffer : FixedBytes width :=
        ⟨(content left.stdin).take width, List.length_take_of_le enough⟩
      obtain ⟨rest, reading, dropped, smooth⟩ := readExact_of_smooth cut.smooth buffer
        ((content left.stdin).drop width) (List.take_append_drop width _).symm
      obtain ⟨rest', reading', dropped', smooth'⟩ := readExact_of_smooth cut.smooth' buffer
        ((content right.stdin).drop width) (by
          rw [show buffer.toList = (content right.stdin).take width from same,
            List.take_append_drop])
      rw [readStdin_of_readExact reading, readStdin_of_readExact reading']
      refine .both ⟨rfl, smooth, smooth', ?_, ?_, cut.quiet⟩
      · rw [dropped, dropped']
        exact comparable
      · rw [dropped, dropped']
        intro rests
        refine cut.differs ?_
        rw [← List.take_append_drop width (content left.stdin),
          ← List.take_append_drop width (content right.stdin), same, rests]
    · obtain ⟨rest, reading⟩ :=
        readExact_patient_short cut.smooth'.patient (Nat.lt_of_not_le enough')
      rw [readStdin_of_error reading]
      exact .right ⟨congrArg some short, cut.quiet⟩
  · obtain ⟨rest, reading⟩ :=
      readExact_patient_short cut.smooth.patient (Nat.lt_of_not_le enough)
    rw [readStdin_of_error reading]
    exact .left trivial

theorem cut_tracks : Tracks Cut cutApart where
  reads convert width _ _ short cut := readStdin_cut short width cut
  records cut silent := {
    cut with
    quiet := by
      rw [stdout_record, silent, List.append_nil]
      exact cut.quiet }
  stops _ _ := .inl trivial

/-! ## The run up to the release -/

theorem decryptStep_cut (spooling : args.allowUnverifiedStream = false) (header : StreamHeader)
    (state : DecryptState) {left right : Process} (cut : Cut left right) :
    Lockstep (fun outcome later outcome' later' => outcome = outcome' ∧ Cut later later') cutApart
      (decryptStep crates args header state left)
      (decryptStep crates args header state right) := by
  refine (cut_tracks.readChunk cut).bind ?_
  rintro chunk first _ first' ⟨rfl, cut₁⟩
  cases openChunk crates header state.chunkCounter chunk with
  | error e => exact .left trivial
  | ok plaintext =>
      have cut₂ := @Tracks.records _ _ cut_tracks _ _
        (.chunkAuthenticated state.chunkCounter chunk.termTag plaintext) cut₁ rfl
      simp only [deliverChunk, spooling, Bool.false_eq_true, ↓reduceIte]
      cases state.spool.writeChunk crates.aead plaintext with
      | ok value spool => exact .both ⟨rfl, cut₂⟩
      | error error spool => exact .left trivial

theorem decryptChunks_cut (spooling : args.allowUnverifiedStream = false) (header : StreamHeader)
    (state : DecryptState) {left right : Process} (cut : Cut left right) :
    Lockstep (fun final later final' later' => final = final' ∧ Cut later later') cutApart
      (decryptChunks crates args header state left)
      (decryptChunks crates args header state right) := by
  refine lockstep_loop (fun state process state' process' => state = state' ∧ Cut process process')
    ?_ ⟨rfl, cut⟩
  rintro state left _ right ⟨rfl, cut⟩
  refine (decryptStep_cut spooling header state cut).imp ?_
  rintro outcome later _ later' ⟨rfl, cut'⟩
  cases outcome with
  | inl next => exact ⟨rfl, cut'⟩
  | inr final => exact ⟨rfl, cut'⟩

/-- Where the left input has ended, the right one has not. -/
theorem assertEndOfInput_cut {left right : Process} (cut : Cut left right) :
    Lockstep (fun _ _ _ _ => False) cutApart (assertEndOfInput left) (assertEndOfInput right) := by
  cases outcome : assertEndOfInput left with
  | error stop later => exact .left trivial
  | ok value later =>
      have ended := ((assertEndOfInput_ends left).ok outcome).2.1 cut.smooth
      have more : content right.stdin ≠ [] := fun empty => cut.differs (ended.trans empty.symm)
      obtain ⟨bytes, rest, reading, _, _, exhausted⟩ := read_smooth Nat.one_pos cut.smooth'
      have read : onStdin (read 1) right = .ok (.ok bytes) ⟨rest, right.events⟩ := by
        change EStateM.Result.ok _ _ = _
        rw [reading]
      rw [assertEndOfInput, bind_of_ok read]
      cases bytes with
      | nil => exact absurd (exhausted rfl) more
      | cons byte bytes => exact .right ⟨rfl, cut.quiet⟩

theorem runDecrypt_cut (spooling : args.allowUnverifiedStream = false) {stdin stdin' : Reader}
    (cut : Cut (Process.start stdin) (Process.start stdin')) :
    Lockstep (fun _ _ _ _ => False) cutApart (runDecrypt crates host args (Process.start stdin))
      (runDecrypt crates host args (Process.start stdin')) := by
  unfold runDecrypt
  refine (cut_tracks.orStop cut).bind ?_
  rintro recipPriv _ _ _ ⟨rfl, cut⟩
  refine (cut_tracks.orFail cut).bind ?_
  rintro signingKey _ _ _ ⟨rfl, cut⟩
  refine (readStdin_cut rfl wireHeaderSize cut).bind ?_
  rintro headerBytes _ _ _ ⟨rfl, cut⟩
  refine (cut_tracks.orFail cut).bind ?_
  rintro header _ _ _ ⟨rfl, cut⟩
  refine (decryptChunks_cut spooling header _ cut).bind ?_
  rintro state _ _ _ ⟨rfl, cut⟩
  refine (cut_tracks.trailerStage header state.hashed cut).bind ?_
  rintro _ _ _ _ cut
  refine (assertEndOfInput_cut cut).bind ?_
  rintro _ _ _ _ impossible
  exact impossible.elim

/-! ## Completeness -/

/-- With default spooling, what is accepted is refused as soon as bytes are missing at its end
or follow it: exit code 1, and nothing on standard output. -/
theorem runDecrypt_refuses_cut_or_extended (crates : Crates) (host : Host) (args : DecryptArgs)
    (spooling : args.allowUnverifiedStream = false) (stdin stdin' : Reader) (final : Process)
    (smooth : Smooth stdin) (smooth' : Smooth stdin')
    (accepted : runDecrypt crates host args (Process.start stdin) = .ok () final)
    (comparable : content stdin' <+: content stdin ∨ content stdin <+: content stdin')
    (differs : content stdin' ≠ content stdin) :
    exitStatus (runDecrypt crates host args (Process.start stdin')) = some 1 ∧
      (reported (runDecrypt crates host args (Process.start stdin'))).stdout = [] := by
  have cut : Cut (Process.start stdin) (Process.start stdin') :=
    ⟨smooth, smooth', comparable.symm, fun same => differs same.symm, rfl⟩
  rcases (runDecrypt_cut spooling cut).of_left_ok accepted with
    ⟨_, _, _, impossible⟩ | ⟨stop, after, refused, code, quiet⟩
  · exact impossible.elim
  · rw [refused]
    exact ⟨code, (stdout_reported_error stop after).trans quiet⟩

open Reference in
/-- A complete stream followed by itself. -/
theorem runDecrypt_refuses_cut_or_extended_sample :
    ∃ stream : Bytes,
      (∃ final, runDecrypt packages (keyHost sampleRecipient sampleEphemeral)
        (openArgs false sampleSender false) (Process.start (ofBytes stream)) = .ok () final) ∧
      exitStatus (runDecrypt packages (keyHost sampleRecipient sampleEphemeral)
        (openArgs false sampleSender false) (Process.start (ofBytes (stream ++ stream)))) =
          some 1 ∧
      (reported (runDecrypt packages (keyHost sampleRecipient sampleEphemeral)
        (openArgs false sampleSender false)
        (Process.start (ofBytes (stream ++ stream))))).stdout = [] := by
  obtain ⟨encrypted, _, whole⟩ := @exists_encrypted false sampleSender sampleRecipient
    sampleEphemeral sampleData (by decide)
  obtain ⟨final, accepted, _⟩ := @sealedStream_accepted false false sampleSender sampleRecipient
    sampleEphemeral sampleData (by decide)
  have sixth := @sealedStream_mode false sampleSender sampleRecipient sampleEphemeral sampleData
    (by decide)
  rw [whole] at accepted
  rw [whole, content_ofBytes] at sixth
  have some : encrypted.stdout ≠ [] := by
    intro none
    rw [none] at sixth
    cases sixth
  obtain ⟨code, quiet⟩ := runDecrypt_refuses_cut_or_extended packages
    (keyHost sampleRecipient sampleEphemeral) (openArgs false sampleSender false) rfl
    (ofBytes encrypted.stdout) (ofBytes (encrypted.stdout ++ encrypted.stdout)) final
    (smooth_ofBytes _) (smooth_ofBytes _) accepted
    (.inr (by rw [content_ofBytes, content_ofBytes]; exact List.prefix_append _ _))
    (by
      rw [content_ofBytes, content_ofBytes]
      intro same
      exact some (List.append_right_eq_self.mp same))
  exact ⟨encrypted.stdout, ⟨final, accepted⟩, code, quiet⟩

end PipeK1
