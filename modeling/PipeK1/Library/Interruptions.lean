import PipeK1.Library.ByteReader
import PipeK1.Library.Chunking

/-!
# Interrupted schedules

A patient reader may interrupt a read anywhere. A loop that retries passes over
the interruptions up to the byte that fills its buffer; a single read does not.
-/

set_option autoImplicit false

namespace ByteReader

open ByteData

/-! ## Interruptions after the last byte -/

/-- The last thing the reader reports is an interruption. -/
def EndsInterrupted (reader : Reader) : Prop := ∃ error, reader.getLast? = some (.failed error)

theorem not_endsInterrupted_nil : ¬ EndsInterrupted [] := by
  rintro ⟨error, impossible⟩
  cases impossible

theorem endsInterrupted_cons_iff {delivery : Delivery} {rest : Reader} (more : rest ≠ []) :
    EndsInterrupted (delivery :: rest) ↔ EndsInterrupted rest := by
  cases rest with
  | nil => exact absurd rfl more
  | cons next rest => rw [EndsInterrupted, List.getLast?_cons_cons, EndsInterrupted]

theorem endsInterrupted_ready_iff {bytes : Bytes} {rest : Reader} :
    EndsInterrupted (.ready bytes :: rest) ↔ EndsInterrupted rest := by
  cases rest with
  | nil =>
      refine iff_of_false ?_ not_endsInterrupted_nil
      rintro ⟨error, impossible⟩
      cases impossible
  | cons next rest => exact endsInterrupted_cons_iff (List.cons_ne_nil next rest)

/-- A buffer that is filled leaves the interruptions after the last byte where they are. -/
theorem fill_full_endsInterrupted {limit : Nat} {reader rest : Reader} {bytes : Bytes}
    (filled : fill limit reader = (.ok bytes, rest)) (full : bytes.length = limit) :
    EndsInterrupted rest ↔ EndsInterrupted reader := by
  induction limit, reader using fill.induct generalizing bytes rest with
  | case1 reader =>
      rw [fill_zero] at filled
      cases filled
      exact Iff.rfl
  | case2 =>
      cases filled
      cases full
  | case3 limit error later interrupted ih =>
      simp only [fill, interrupted, ↓reduceIte] at filled
      cases later with
      | nil =>
          cases filled
          cases full
      | cons next later =>
          rw [ih filled full, endsInterrupted_cons_iff (List.cons_ne_nil next later)]
  | case4 limit error later fatal =>
      simp only [fill, fatal, ↓reduceIte] at filled
      cases filled
  | case5 limit later =>
      cases filled
      cases full
  | case6 limit byte first later fits ih =>
      simp only [fill, fits, ↓reduceIte] at filled
      cases tail : fill (limit + 1 - (byte :: first).length) later with
      | mk outcome remaining =>
          rw [tail] at filled
          cases outcome with
          | error error => cases filled
          | ok more =>
              cases filled
              rw [List.length_append] at full
              rw [ih tail (by omega), endsInterrupted_ready_iff]
  | case7 limit byte first later overfull =>
      simp only [fill, overfull, ↓reduceIte] at filled
      cases filled
      rw [endsInterrupted_ready_iff, endsInterrupted_ready_iff]

theorem readExact_endsInterrupted {width : Nat} {reader rest : Reader} {buffer : FixedBytes width}
    (reading : readExact width reader = (.ok buffer, rest)) :
    EndsInterrupted rest ↔ EndsInterrupted reader := by
  unfold readExact at reading
  cases filled : fill width reader with
  | mk outcome remaining =>
      rw [filled] at reading
      cases outcome with
      | error error => cases reading
      | ok bytes =>
          cases whole : FixedBytes.ofList? width bytes with
          | none => simp only [whole, Prod.mk.injEq, reduceCtorEq, false_and] at reading
          | some array =>
              simp only [whole, Prod.mk.injEq] at reading
              obtain ⟨_, rfl⟩ := reading
              refine fill_full_endsInterrupted filled ?_
              rw [← FixedBytes.ofList?_eq_some_iff.mp whole, FixedBytes.length_toList]

/-- With no byte left, a patient reader only interrupts. -/
theorem Patient.endsInterrupted_iff {reader : Reader} (patient : Patient reader)
    (empty : content reader = []) : EndsInterrupted reader ↔ reader ≠ [] := by
  induction reader with
  | nil => exact iff_of_false not_endsInterrupted_nil (fun more => more rfl)
  | cons delivery rest ih =>
      refine iff_of_true ?_ (List.cons_ne_nil delivery rest)
      rcases patient delivery List.mem_cons_self with ⟨bytes, nonempty, rfl⟩ | ⟨error, _, rfl⟩
      · rw [content_ready] at empty
        exact absurd (List.append_eq_nil_iff.mp empty).1 nonempty
      · by_cases last : rest = []
        · exact ⟨error, by rw [last]; rfl⟩
        · rw [endsInterrupted_cons_iff last]
          refine (ih (fun other member => patient other (List.mem_cons_of_mem _ member)) ?_).mpr last
          rwa [content_failed] at empty

/-! ## Single reads -/

/-- Some read fails. -/
def interrupts (reader : Reader) : Bool :=
  reader.any fun
    | .ready _ => false
    | .failed _ => true

theorem Patient.smooth_iff {reader : Reader} (patient : Patient reader) :
    Smooth reader ↔ interrupts reader = false := by
  rw [interrupts, List.any_eq_false]
  constructor
  · intro smooth delivery member
    obtain ⟨bytes, _, rfl⟩ := smooth delivery member
    exact Bool.false_ne_true
  · intro quiet delivery member
    rcases patient delivery member with delivered | ⟨error, _, rfl⟩
    · exact delivered
    · exact absurd rfl (quiet _ member)

/-- What single reads of this size deliver up to the first failure. -/
def pieces (limit : Nat) (positive : 0 < limit) : Reader → List Bytes
  | .ready bytes :: rest => Chunking.chunks limit positive bytes ++ pieces limit positive rest
  | _ => []

/-- What one read of a patient reader finds. -/
inductive SingleRead (limit : Nat) (positive : 0 < limit) (reader : Reader) : Prop
  | ended (empty : reader = [])
  | interrupted {error : IoError} {rest : Reader}
      (reading : read limit reader = (.error error, rest)) (restless : ¬ Smooth reader)
      (stopped : pieces limit positive reader = [])
  | delivered {bytes : Bytes} {rest : Reader}
      (reading : read limit reader = (.ok bytes, rest)) (nonempty : bytes ≠ [])
      (content_eq : content reader = bytes ++ content rest) (patient : Patient rest)
      (smooth_iff : Smooth reader ↔ Smooth rest)
      (pieces_eq : pieces limit positive reader = bytes :: pieces limit positive rest)

theorem Patient.singleRead {limit : Nat} (positive : 0 < limit) {reader : Reader}
    (patient : Patient reader) : SingleRead limit positive reader := by
  cases reader with
  | nil => exact .ended rfl
  | cons delivery rest =>
      have patient' : Patient rest :=
        fun other member => patient other (List.mem_cons_of_mem _ member)
      rcases patient delivery List.mem_cons_self with ⟨bytes, nonempty, rfl⟩ | ⟨error, _, rfl⟩
      · by_cases fits : bytes.length ≤ limit
        · have reading : read limit (.ready bytes :: rest) = (.ok bytes, rest) := by
            simp only [read, fits, ↓reduceIte]
          refine .delivered reading nonempty (content_ready _ _) patient' ?_ ?_
          · rw [smooth_cons_iff, and_iff_right nonempty]
          · rw [pieces, Chunking.chunks_of_fits nonempty fits, List.singleton_append]
        · have more : bytes.drop limit ≠ [] := by
            intro none
            exact fits (List.drop_eq_nil_iff.mp none)
          have some : bytes.take limit ≠ [] := by
            intro none
            rcases List.take_eq_nil_iff.mp none with zero | empty
            · omega
            · exact nonempty empty
          have reading : read limit (.ready bytes :: rest) =
              (.ok (bytes.take limit), .ready (bytes.drop limit) :: rest) := by
            simp only [read, fits, ↓reduceIte]
          refine .delivered reading some ?_ ?_ ?_ ?_
          · rw [content_ready, content_ready, ← List.append_assoc, List.take_append_drop]
          · intro other member
            rcases List.mem_cons.mp member with rfl | later
            · exact .inl ⟨_, more, rfl⟩
            · exact patient' other later
          · rw [smooth_cons_iff, smooth_cons_iff, and_iff_right nonempty, and_iff_right more]
          · rw [pieces, pieces, Chunking.chunks_of_ne_nil nonempty, List.cons_append]
      · exact .interrupted rfl not_smooth_failed rfl

end ByteReader
