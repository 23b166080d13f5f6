import PipeK1.Library.ByteData

/-!
# Readers that deliver in pieces

A reader is the list of results its `read` calls are going to give: bytes (an
empty delivery is `Ok(0)`, an end of input that later deliveries may follow) or
an error. Past the list every call reports end of input. Short reads are
deliveries shorter than the caller's buffer; a delivery longer than the buffer
is handed out in parts, so a list of deliveries is one segmentation of a byte
string whatever buffer sizes the caller uses.
-/

set_option autoImplicit false

namespace ByteReader

open ByteData

inductive IoErrorKind where
  | interrupted
  | unexpectedEof
  | invalidData
  | other
deriving DecidableEq

structure IoError where
  kind : IoErrorKind
  message : String
deriving DecidableEq

/-- What one `read` call reports. -/
inductive Delivery where
  | ready (bytes : Bytes)
  | failed (error : IoError)
deriving DecidableEq

abbrev Reader := List Delivery

/-- One `read` call with a buffer of `limit` bytes. -/
def read (limit : Nat) : Reader → Except IoError Bytes × Reader
  | [] => (.ok [], [])
  | .failed error :: rest => (.error error, rest)
  | .ready bytes :: rest =>
      if bytes.length ≤ limit then (.ok bytes, rest)
      else (.ok (bytes.take limit), .ready (bytes.drop limit) :: rest)

/-- The loop `read_exact` and hand-written fill loops share: call `read` on the
rest of the buffer until it is full; `Ok(0)` ends the loop, an interruption is
retried, any other error is returned. -/
def fill : Nat → Reader → Except IoError Bytes × Reader
  | 0, reader => (.ok [], reader)
  | _ + 1, [] => (.ok [], [])
  | limit + 1, .failed error :: rest =>
      if error.kind = .interrupted then fill (limit + 1) rest else (.error error, rest)
  | _ + 1, .ready [] :: rest => (.ok [], rest)
  | limit + 1, .ready (byte :: bytes) :: rest =>
      if (byte :: bytes).length ≤ limit + 1 then
        let later := fill (limit + 1 - (byte :: bytes).length) rest
        (later.1.map ((byte :: bytes) ++ ·), later.2)
      else
        (.ok ((byte :: bytes).take (limit + 1)), .ready ((byte :: bytes).drop (limit + 1)) :: rest)

/-- `read_exact`'s error when the input ends inside the buffer. -/
def endInsideBuffer : IoError := ⟨.unexpectedEof, "failed to fill whole buffer"⟩

/-- `read_exact` into a buffer of `width` bytes. -/
def readExact (width : Nat) (reader : Reader) : Except IoError (FixedBytes width) × Reader :=
  match fill width reader with
  | (.error error, rest) => (.error error, rest)
  | (.ok bytes, rest) =>
      match FixedBytes.ofList? width bytes with
      | some buffer => (.ok buffer, rest)
      | none => (.error endInsideBuffer, rest)

/-- `read_to_end`: everything up to the first `Ok(0)`. -/
def readToEnd : Reader → Except IoError Bytes × Reader
  | [] => (.ok [], [])
  | .failed error :: rest =>
      if error.kind = .interrupted then readToEnd rest else (.error error, rest)
  | .ready [] :: rest => (.ok [], rest)
  | .ready (byte :: bytes) :: rest =>
      let later := readToEnd rest
      (later.1.map ((byte :: bytes) ++ ·), later.2)

/-- All bytes the reader is going to deliver, in order. -/
def content (reader : Reader) : Bytes :=
  reader.flatMap fun delivery =>
    match delivery with
    | .ready bytes => bytes
    | .failed _ => []

@[simp] theorem content_nil : content [] = [] := rfl

@[simp] theorem content_ready (bytes : Bytes) (rest : Reader) :
    content (.ready bytes :: rest) = bytes ++ content rest := rfl

@[simp] theorem content_failed (error : IoError) (rest : Reader) :
    content (.failed error :: rest) = content rest := rfl

/-! ## Schedules -/

/-- Short reads only: no error, and no end of input before the last byte. -/
def Smooth (reader : Reader) : Prop :=
  ∀ delivery ∈ reader, ∃ bytes, bytes ≠ [] ∧ delivery = .ready bytes

/-- Short reads and interruptions. -/
def Patient (reader : Reader) : Prop :=
  ∀ delivery ∈ reader, (∃ bytes, bytes ≠ [] ∧ delivery = .ready bytes) ∨
    ∃ error : IoError, error.kind = .interrupted ∧ delivery = .failed error

theorem Smooth.patient {reader : Reader} (smooth : Smooth reader) : Patient reader :=
  fun delivery member => .inl (smooth delivery member)

theorem Smooth.nil : Smooth [] := by
  intro delivery member
  cases member

theorem smooth_cons_iff {bytes : Bytes} {rest : Reader} :
    Smooth (.ready bytes :: rest) ↔ bytes ≠ [] ∧ Smooth rest := by
  simp [Smooth]

theorem not_smooth_failed {error : IoError} {rest : Reader} :
    ¬ Smooth (.failed error :: rest) := by
  simp [Smooth]

/-- A smooth reader with nothing left to deliver is the empty one. -/
theorem Smooth.eq_nil {reader : Reader} (smooth : Smooth reader)
    (empty : content reader = []) : reader = [] := by
  cases reader with
  | nil => rfl
  | cons delivery rest =>
      obtain ⟨bytes, nonempty, rfl⟩ := smooth delivery (List.mem_cons_self)
      rw [content_ready, List.append_eq_nil_iff] at empty
      exact absurd empty.1 nonempty

/-- The whole byte string in one delivery. -/
def ofBytes (bytes : Bytes) : Reader := if bytes = [] then [] else [.ready bytes]

@[simp] theorem content_ofBytes (bytes : Bytes) : content (ofBytes bytes) = bytes := by
  unfold ofBytes
  split
  · next empty => rw [empty, content_nil]
  · simp

theorem smooth_ofBytes (bytes : Bytes) : Smooth (ofBytes bytes) := by
  unfold ofBytes
  split
  · exact Smooth.nil
  · next nonempty => exact smooth_cons_iff.mpr ⟨nonempty, Smooth.nil⟩

/-! ## What the loops deliver -/

@[simp] theorem fill_zero (reader : Reader) : fill 0 reader = (.ok [], reader) := by
  rw [fill]

/-- Whatever the schedule, a successful `fill` consumes exactly what it returns. -/
theorem fill_ok_content {limit : Nat} {reader rest : Reader} {bytes : Bytes}
    (filled : fill limit reader = (.ok bytes, rest)) :
    content reader = bytes ++ content rest ∧ bytes.length ≤ limit := by
  induction limit, reader using fill.induct generalizing bytes rest with
  | case1 reader =>
      rw [fill_zero] at filled
      cases filled
      exact ⟨rfl, Nat.le_refl _⟩
  | case2 =>
      cases filled
      exact ⟨rfl, Nat.zero_le _⟩
  | case3 limit error later interrupted ih =>
      simp only [fill, interrupted, ↓reduceIte] at filled
      exact ih filled
  | case4 limit error later fatal =>
      simp [fill, fatal] at filled
  | case5 limit later =>
      cases filled
      exact ⟨rfl, Nat.zero_le _⟩
  | case6 limit byte first later fits ih =>
      simp only [fill, fits, ↓reduceIte] at filled
      cases tail : fill (limit + 1 - (byte :: first).length) later with
      | mk outcome remaining =>
          rw [tail] at filled
          cases outcome with
          | error error => simp [Except.map] at filled
          | ok more =>
              simp only [Except.map, Prod.mk.injEq, Except.ok.injEq] at filled
              obtain ⟨rfl, rfl⟩ := filled
              obtain ⟨split, bound⟩ := ih tail
              refine ⟨by rw [content_ready, split, List.append_assoc], ?_⟩
              rw [List.length_append]
              omega
  | case7 limit byte first later overfull =>
      simp only [fill, overfull, ↓reduceIte, Prod.mk.injEq, Except.ok.injEq] at filled
      obtain ⟨rfl, rfl⟩ := filled
      refine ⟨?_, List.length_take_le _ _⟩
      rw [content_ready, content_ready, ← List.append_assoc, List.take_append_drop]

/-- The error that stops a `fill` is one the reader reported. -/
theorem fill_error {limit : Nat} {reader rest : Reader} {error : IoError}
    (stopped : fill limit reader = (.error error, rest)) :
    .failed error ∈ reader ∧ error.kind ≠ .interrupted := by
  induction limit, reader using fill.induct generalizing rest with
  | case1 reader =>
      rw [fill_zero] at stopped
      cases stopped
  | case2 => cases stopped
  | case3 limit other later interrupted ih =>
      simp only [fill, interrupted, ↓reduceIte] at stopped
      obtain ⟨member, fatal⟩ := ih stopped
      exact ⟨List.mem_cons_of_mem _ member, fatal⟩
  | case4 limit other later fatal =>
      simp only [fill, fatal, ↓reduceIte] at stopped
      cases stopped
      exact ⟨List.mem_cons_self, fatal⟩
  | case5 limit later => cases stopped
  | case6 limit byte first later fits ih =>
      simp only [fill, fits, ↓reduceIte] at stopped
      cases tail : fill (limit + 1 - (byte :: first).length) later with
      | mk outcome remaining =>
          rw [tail] at stopped
          cases outcome with
          | ok more => cases stopped
          | error other =>
              cases stopped
              obtain ⟨member, fatal⟩ := ih tail
              exact ⟨List.mem_cons_of_mem _ member, fatal⟩
  | case7 limit byte first later overfull =>
      simp only [fill, overfull, ↓reduceIte] at stopped
      cases stopped

/-- What a `fill` leaves reports no new errors. -/
theorem fill_leaves_errors {limit : Nat} {reader rest : Reader} {bytes : Bytes}
    (filled : fill limit reader = (.ok bytes, rest)) {error : IoError}
    (member : .failed error ∈ rest) : .failed error ∈ reader := by
  induction limit, reader using fill.induct generalizing bytes rest with
  | case1 reader =>
      rw [fill_zero] at filled
      cases filled
      exact member
  | case2 =>
      cases filled
      exact member
  | case3 limit other later interrupted ih =>
      simp only [fill, interrupted, ↓reduceIte] at filled
      exact List.mem_cons_of_mem _ (ih filled member)
  | case4 limit other later fatal =>
      simp only [fill, fatal, ↓reduceIte] at filled
      cases filled
  | case5 limit later =>
      cases filled
      exact List.mem_cons_of_mem _ member
  | case6 limit byte first later fits ih =>
      simp only [fill, fits, ↓reduceIte] at filled
      cases tail : fill (limit + 1 - (byte :: first).length) later with
      | mk outcome remaining =>
          rw [tail] at filled
          cases outcome with
          | error other => cases filled
          | ok more =>
              cases filled
              exact List.mem_cons_of_mem _ (ih tail member)
  | case7 limit byte first later overfull =>
      simp only [fill, overfull, ↓reduceIte] at filled
      cases filled
      rcases List.mem_cons.mp member with impossible | older
      · cases impossible
      · exact List.mem_cons_of_mem _ older

/-- With interruptions retried, `fill` returns the next bytes, as many as there are. -/
theorem fill_patient (limit : Nat) {reader : Reader} (patient : Patient reader) :
    ∃ rest, fill limit reader = (.ok ((content reader).take limit), rest) ∧
      content rest = (content reader).drop limit ∧ Patient rest ∧
      (Smooth reader → Smooth rest) := by
  induction limit, reader using fill.induct with
  | case1 reader => exact ⟨reader, fill_zero reader, rfl, patient, id⟩
  | case2 => exact ⟨[], rfl, rfl, patient, id⟩
  | case3 limit error later interrupted ih =>
      obtain ⟨rest, filled, dropped, quiet, _⟩ :=
        ih fun delivery member => patient delivery (List.mem_cons_of_mem _ member)
      refine ⟨rest, ?_, dropped, quiet, fun smooth => absurd smooth not_smooth_failed⟩
      simpa only [fill, interrupted, ↓reduceIte, content_failed] using filled
  | case4 limit error later fatal =>
      rcases patient _ List.mem_cons_self with ⟨_, _, impossible⟩ | ⟨other, interrupted, same⟩
      · cases impossible
      · cases same
        exact absurd interrupted fatal
  | case5 limit later =>
      rcases patient _ List.mem_cons_self with ⟨_, nonempty, same⟩ | ⟨_, _, impossible⟩
      · cases same
        exact absurd rfl nonempty
      · cases impossible
  | case6 limit byte first later fits ih =>
      obtain ⟨rest, filled, dropped, quiet, smooth⟩ :=
        ih fun delivery member => patient delivery (List.mem_cons_of_mem _ member)
      refine ⟨rest, ?_, ?_, quiet, fun whole => smooth (smooth_cons_iff.mp whole).2⟩
      · simp only [fill, fits, ↓reduceIte, filled, Except.map, content_ready]
        rw [List.take_append, List.take_of_length_le fits]
      · rw [dropped, content_ready, List.drop_append, List.drop_of_length_le fits,
          List.nil_append]
  | case7 limit byte first later overfull =>
      have short : limit + 1 ≤ (byte :: first).length := by omega
      have remaining : (byte :: first).drop (limit + 1) ≠ [] := by
        intro empty
        rw [List.drop_eq_nil_iff] at empty
        omega
      refine ⟨.ready ((byte :: first).drop (limit + 1)) :: later, ?_, ?_, ?_, ?_⟩
      · simp only [fill, overfull, ↓reduceIte, content_ready]
        rw [List.take_append_of_le_length short]
      · rw [content_ready, content_ready, List.drop_append_of_le_length short]
      · intro delivery member
        rcases List.mem_cons.mp member with rfl | older
        · exact .inl ⟨_, remaining, rfl⟩
        · exact patient delivery (List.mem_cons_of_mem _ older)
      · intro smooth
        exact smooth_cons_iff.mpr ⟨remaining, (smooth_cons_iff.mp smooth).2⟩

/-- Whatever the outcome, `fill` takes no more than its buffer holds. -/
theorem fill_takes_le (limit : Nat) (reader : Reader) :
    (content reader).length ≤ (content (fill limit reader).2).length + limit := by
  induction limit, reader using fill.induct with
  | case1 reader =>
      rw [fill_zero]
      exact Nat.le_add_right _ _
  | case2 => exact Nat.zero_le _
  | case3 limit error later interrupted ih =>
      simpa only [fill, interrupted, ↓reduceIte, content_failed] using ih
  | case4 limit error later fatal =>
      simp only [fill, fatal, ↓reduceIte, content_failed]
      exact Nat.le_add_right _ _
  | case5 limit later => exact Nat.le_add_right _ _
  | case6 limit byte first later fits ih =>
      simp only [fill, fits, ↓reduceIte, content_ready, List.length_append]
      omega
  | case7 limit byte first later overfull =>
      simp only [fill, overfull, ↓reduceIte, content_ready, List.length_append, List.length_drop]
      omega

/-! ## `read_exact` -/

theorem readExact_ok_content {width : Nat} {reader rest : Reader} {buffer : FixedBytes width}
    (accepted : readExact width reader = (.ok buffer, rest)) :
    content reader = buffer.toList ++ content rest := by
  unfold readExact at accepted
  cases filled : fill width reader with
  | mk outcome remaining =>
      rw [filled] at accepted
      cases outcome with
      | error error => simp at accepted
      | ok bytes =>
          cases whole : FixedBytes.ofList? width bytes with
          | none => simp [whole] at accepted
          | some array =>
              simp only [whole, Prod.mk.injEq, Except.ok.injEq] at accepted
              obtain ⟨rfl, rfl⟩ := accepted
              rw [FixedBytes.ofList?_eq_some_iff.mp whole]
              exact (fill_ok_content filled).1

/-- A patient reader with the bytes still to come gives exactly them. -/
theorem readExact_patient {width : Nat} {reader : Reader} (patient : Patient reader)
    (buffer : FixedBytes width) (later : Bytes)
    (upcoming : content reader = buffer.toList ++ later) :
    ∃ rest, readExact width reader = (.ok buffer, rest) ∧ content rest = later ∧
      Patient rest ∧ (Smooth reader → Smooth rest) := by
  obtain ⟨rest, filled, dropped, quiet, smooth⟩ := fill_patient width patient
  rw [upcoming, List.take_left' buffer.length_toList] at filled
  rw [upcoming, List.drop_left' buffer.length_toList] at dropped
  refine ⟨rest, ?_, dropped, quiet, smooth⟩
  simp only [readExact, filled, FixedBytes.ofList?_toList]

theorem readExact_of_smooth {width : Nat} {reader : Reader} (smooth : Smooth reader)
    (buffer : FixedBytes width) (later : Bytes)
    (upcoming : content reader = buffer.toList ++ later) :
    ∃ rest, readExact width reader = (.ok buffer, rest) ∧ content rest = later ∧
      Smooth rest := by
  obtain ⟨rest, reading, content_eq, _, quiet⟩ :=
    readExact_patient smooth.patient buffer later upcoming
  exact ⟨rest, reading, content_eq, quiet smooth⟩

/-- A patient reader that ends inside the buffer is reported as such. -/
theorem readExact_patient_short {width : Nat} {reader : Reader} (patient : Patient reader)
    (short : (content reader).length < width) :
    ∃ rest, readExact width reader = (.error endInsideBuffer, rest) := by
  obtain ⟨rest, filled, _⟩ := fill_patient width patient
  refine ⟨rest, ?_⟩
  have misfit : FixedBytes.ofList? width ((content reader).take width) = none := by
    rw [FixedBytes.ofList?_eq_none_iff, List.length_take]
    omega
  simp only [readExact, filled, misfit]

theorem readExact_smooth (width : Nat) {reader : Reader} (smooth : Smooth reader) :
    Smooth (readExact width reader).2 := by
  obtain ⟨rest, filled, _, _, quiet⟩ := fill_patient width smooth.patient
  have remaining : (readExact width reader).2 = rest := by
    simp only [readExact, filled]
    split <;> rfl
  rw [remaining]
  exact quiet smooth

theorem readExact_takes_le (width : Nat) (reader : Reader) :
    (content reader).length ≤ (content (readExact width reader).2).length + width := by
  have taken := fill_takes_le width reader
  have remaining : (readExact width reader).2 = (fill width reader).2 := by
    unfold readExact
    split
    · next filled => rw [filled]
    · next filled => split <;> rw [filled]
  rwa [remaining]

/-! ## Single reads and reading to the end -/

theorem read_ok_content {limit : Nat} {reader rest : Reader} {bytes : Bytes}
    (accepted : read limit reader = (.ok bytes, rest)) :
    content reader = bytes ++ content rest ∧ bytes.length ≤ limit := by
  match reader with
  | [] =>
      cases accepted
      exact ⟨rfl, Nat.zero_le _⟩
  | .failed error :: later => cases accepted
  | .ready delivered :: later =>
      by_cases fits : delivered.length ≤ limit
      · simp only [read, fits, ↓reduceIte] at accepted
        cases accepted
        exact ⟨rfl, fits⟩
      · simp only [read, fits, ↓reduceIte] at accepted
        cases accepted
        refine ⟨?_, List.length_take_le _ _⟩
        rw [content_ready, content_ready, ← List.append_assoc, List.take_append_drop]

theorem read_takes_le (limit : Nat) (reader : Reader) :
    (content reader).length ≤ (content (read limit reader).2).length + limit := by
  match reader with
  | [] => exact Nat.zero_le _
  | .failed error :: later => exact Nat.le_add_right _ _
  | .ready delivered :: later =>
      by_cases fits : delivered.length ≤ limit
      · simp only [read, fits, ↓reduceIte, content_ready, List.length_append]
        omega
      · simp only [read, fits, ↓reduceIte, content_ready, List.length_append, List.length_drop]
        omega

/-- A smooth reader answers a read with bytes until there are none left. -/
theorem read_smooth {limit : Nat} (positive : 0 < limit) {reader : Reader}
    (smooth : Smooth reader) :
    ∃ bytes rest, read limit reader = (.ok bytes, rest) ∧
      content reader = bytes ++ content rest ∧ Smooth rest ∧
      (bytes = [] → content reader = []) := by
  match reader with
  | [] => exact ⟨[], [], rfl, rfl, Smooth.nil, fun _ => rfl⟩
  | .failed error :: later => exact absurd smooth not_smooth_failed
  | .ready delivered :: later =>
      obtain ⟨nonempty, quiet⟩ := smooth_cons_iff.mp smooth
      by_cases fits : delivered.length ≤ limit
      · exact ⟨delivered, later, by simp only [read, fits, ↓reduceIte], rfl, quiet,
          fun empty => absurd empty nonempty⟩
      · refine ⟨delivered.take limit, .ready (delivered.drop limit) :: later,
          by simp only [read, fits, ↓reduceIte], ?_, ?_, ?_⟩
        · rw [content_ready, content_ready, ← List.append_assoc, List.take_append_drop]
        · refine smooth_cons_iff.mpr ⟨?_, quiet⟩
          intro empty
          rw [List.drop_eq_nil_iff] at empty
          exact fits empty
        · intro empty
          rcases List.take_eq_nil_iff.mp empty with zero | none
          · omega
          · exact absurd none nonempty

/-- Reading to the end retries what was interrupted. -/
theorem readToEnd_patient {reader : Reader} (patient : Patient reader) :
    readToEnd reader = (.ok (content reader), []) := by
  induction reader with
  | nil => rfl
  | cons delivery rest ih =>
      have later := ih fun delivery member => patient delivery (List.mem_cons_of_mem _ member)
      rcases patient delivery List.mem_cons_self with ⟨bytes, nonempty, rfl⟩ |
        ⟨error, interrupted, rfl⟩
      · obtain ⟨byte, bytes, rfl⟩ := List.exists_cons_of_ne_nil nonempty
        simp [readToEnd, later, Except.map]
      · simp only [readToEnd, interrupted, ↓reduceIte, later, content_failed]

theorem readToEnd_smooth {reader : Reader} (smooth : Smooth reader) :
    readToEnd reader = (.ok (content reader), []) :=
  readToEnd_patient smooth.patient

end ByteReader
