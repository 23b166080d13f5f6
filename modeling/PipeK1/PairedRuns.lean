import PipeK1.DecryptProperties
import PipeK1.Library.Lockstep

/-!
# Two runs of the decryptor

What two runs do alike for any relation of processes that reading and silent
events keep: the readings of a chunk and the trailer stage.
-/

set_option autoImplicit false

namespace PipeK1

open ByteData ByteReader Effects

/-- Related processes read alike, stay related over silent events, and may stop together. -/
structure Tracks (related : Process → Process → Prop) (apart : Divergence Stop Process Process) :
    Prop where
  reads : ∀ (convert : IoError → Pipek1Error) (width : Nat) {left right : Process},
    (convert endInsideBuffer).exitCode = 1 → related left right →
    Lockstep (fun buffer later buffer' later' => buffer = buffer' ∧ related later later') apart
      (readStdin convert width left) (readStdin convert width right)
  records : ∀ {left right : Process} {event : Event}, related left right →
    event.stdoutBytes = [] →
    related ⟨left.stdin, left.events ++ [event]⟩ ⟨right.stdin, right.events ++ [event]⟩
  stops : ∀ {left right : Process} (stop : Stop), related left right →
    apart.left stop left ∨ apart.stop stop left stop right

namespace Tracks

variable {crates : Crates} {args : DecryptArgs} {related : Process → Process → Prop}
  {apart : Divergence Stop Process Process} {left right : Process}

theorem throws {α β : Type} {together : α → Process → β → Process → Prop}
    (tracks : Tracks related apart) (stop : Stop) (alike : related left right) :
    Lockstep together apart ((throw stop : Run α) left) ((throw stop : Run β) right) := by
  rcases tracks.stops stop alike with settled | both
  · exact .left settled
  · exact .stop both

theorem fails {α β : Type} {together : α → Process → β → Process → Prop}
    (tracks : Tracks related apart) (error : Pipek1Error) (alike : related left right) :
    Lockstep together apart (fail error left) (fail error right) :=
  tracks.throws (.failed error) alike

theorem orStop {α : Type} (tracks : Tracks related apart) {outcome : Except Stop α}
    (alike : related left right) :
    Lockstep (fun value later value' later' => value = value' ∧ related later later') apart
      (PipeK1.orStop outcome left) (PipeK1.orStop outcome right) := by
  cases outcome with
  | ok value => exact .both ⟨rfl, alike⟩
  | error stop => exact tracks.throws stop alike

theorem orFail {α ε : Type} (tracks : Tracks related apart) {convert : ε → Pipek1Error}
    {outcome : Except ε α} (alike : related left right) :
    Lockstep (fun value later value' later' => value = value' ∧ related later later') apart
      (PipeK1.orFail convert outcome left) (PipeK1.orFail convert outcome right) :=
  tracks.orStop alike

theorem readChunk (tracks : Tracks related apart) (alike : related left right) :
    Lockstep (fun chunk later chunk' later' => chunk = chunk' ∧ related later later') apart
      (PipeK1.readChunk left) (PipeK1.readChunk right) := by
  refine (tracks.reads _ chunkHeaderSize rfl alike).bind ?_
  rintro chunkHdr first _ first' ⟨rfl, alike₁⟩
  dsimp only
  split
  · exact tracks.fails _ alike₁
  · split
    · exact tracks.fails _ alike₁
    · split
      · exact tracks.fails _ alike₁
      · refine (tracks.reads _ _ rfl alike₁).bind ?_
        rintro ctBuffer second _ second' ⟨rfl, alike₂⟩
        refine (tracks.reads _ tagSize rfl alike₂).bind ?_
        rintro tagBytes third _ third' ⟨rfl, alike₃⟩
        exact .both ⟨rfl, alike₃⟩

theorem trailerStage (tracks : Tracks related apart) (header : StreamHeader) (hashed : Bytes)
    (alike : related left right) :
    Lockstep (fun _ later _ later' => related later later') apart
      (PipeK1.trailerStage crates args header hashed left)
      (PipeK1.trailerStage crates args header hashed right) := by
  unfold PipeK1.trailerStage
  split
  · refine (tracks.reads _ trailerSize rfl alike).bind ?_
    rintro trailer first _ first' ⟨rfl, alike₁⟩
    refine (tracks.orFail alike₁).bind ?_
    rintro _ second _ second' ⟨_, alike₂⟩
    refine (tracks.orFail alike₂).bind ?_
    rintro notice third _ third' ⟨rfl, alike₃⟩
    have authenticated : related
        ⟨third.stdin, third.events ++ [.trailerAuthenticated (trailer.slice 0 32)]⟩
        ⟨third'.stdin, third'.events ++ [.trailerAuthenticated (trailer.slice 0 32)]⟩ :=
      tracks.records alike₃ rfl
    cases notice with
    | none => exact .both authenticated
    | some text =>
        have noticed := @Tracks.records _ _ tracks _ _ (.stderr (text ++ "\n")) authenticated rfl
        exact .both noticed
  · exact .both alike

end Tracks

end PipeK1
