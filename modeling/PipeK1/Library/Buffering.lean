import PipeK1.Library.ByteReader

/-!
# Reading through buffers of a fixed size

Successive fills cut what a reader delivers into buffers. With short reads and
interruptions only, the cuts fall at the multiples of the buffer size. An end of
input that more bytes follow cuts a buffer short; where it does is read off the
schedule.
-/

set_option autoImplicit false

namespace ByteReader

open ByteData

/-- What successive fills of a buffer deliver, and the reader they leave. -/
def Fills (width : Nat) : Reader → List Bytes → Reader → Prop
  | reader, [], later => later = reader
  | reader, bytes :: fills, later =>
      ∃ rest, fill width reader = (.ok bytes, rest) ∧ Fills width rest fills later

variable {width : Nat}

theorem Fills.concat {reader rest later : Reader} {fills : List Bytes} {bytes : Bytes}
    (delivered : Fills width reader fills rest) (filled : fill width rest = (.ok bytes, later)) :
    Fills width reader (fills ++ [bytes]) later := by
  induction fills generalizing reader with
  | nil =>
      cases delivered
      exact ⟨later, filled, rfl⟩
  | cons first fills ih =>
      obtain ⟨next, taken, delivered⟩ := delivered
      exact ⟨next, taken, ih delivered⟩

/-- What successive fills leave reports no new errors. -/
theorem Fills.leaves_errors {reader later : Reader} {fills : List Bytes}
    (delivered : Fills width reader fills later) {error : IoError}
    (member : .failed error ∈ later) : .failed error ∈ reader := by
  induction fills generalizing reader with
  | nil =>
      cases delivered
      exact member
  | cons first fills ih =>
      obtain ⟨next, taken, delivered⟩ := delivered
      exact fill_leaves_errors taken (ih delivered)

/-- Fills that all deliver something are no more than the bytes there are. -/
theorem Fills.length_le {reader later : Reader} {fills : List Bytes}
    (delivered : Fills width reader fills later) (nonempty : ∀ bytes ∈ fills, bytes ≠ []) :
    fills.length ≤ (content reader).length := by
  induction fills generalizing reader with
  | nil => exact Nat.zero_le _
  | cons first fills ih =>
      obtain ⟨next, taken, delivered⟩ := delivered
      have later := ih delivered fun bytes member => nonempty bytes (List.mem_cons_of_mem _ member)
      have here := List.length_pos_iff.mpr (nonempty first List.mem_cons_self)
      rw [(fill_ok_content taken).1, List.length_append, List.length_cons]
      omega

/-! ## Patient readers -/

/-- The buffers are the pieces at the multiples of their size. -/
theorem Fills.getElem?_patient {reader later : Reader} {fills : List Bytes}
    (delivered : Fills width reader fills later) (patient : Patient reader) {i : Nat}
    {bytes : Bytes} (found : fills[i]? = some bytes) :
    bytes = ((content reader).drop (width * i)).take width := by
  induction fills generalizing reader i with
  | nil => cases found
  | cons first fills ih =>
      obtain ⟨next, taken, delivered⟩ := delivered
      obtain ⟨rest, filled, dropped, quiet, _⟩ := fill_patient width patient
      rw [filled] at taken
      cases taken
      cases i with
      | zero =>
          cases found
          rfl
      | succ i =>
          rw [ih delivered quiet found, dropped, List.drop_drop, Nat.mul_succ, Nat.add_comm]

/-! ## The first end of input -/

/-- The next read that is not interrupted gives bytes. -/
def Delivers : Reader → Prop
  | [] => False
  | .failed error :: rest => error.kind = .interrupted ∧ Delivers rest
  | .ready bytes :: _ => bytes ≠ []

/-- A read that is not interrupted ends the input or fails. -/
def Pauses (reader : Reader) : Prop :=
  reader = [] ∨ (∃ rest, reader = .ready [] :: rest) ∨
    ∃ error rest, error.kind ≠ .interrupted ∧ reader = .failed error :: rest

/-- The first end of input that the reader reports falls inside a buffer, the empty one at the
start included, and bytes follow it. -/
def ResumesInside (width : Nat) (reader : Reader) : Prop :=
  ∃ before rest, reader = before ++ .ready [] :: rest ∧ Patient before ∧
    (content before = [] ∨ ¬ width ∣ (content before).length) ∧ Delivers rest

theorem Patient.not_resumesInside {width : Nat} {reader : Reader} (patient : Patient reader) :
    ¬ ResumesInside width reader := by
  rintro ⟨before, rest, rfl, _⟩
  rcases patient _ (List.mem_append_right before List.mem_cons_self) with
    ⟨bytes, nonempty, same⟩ | ⟨error, _, impossible⟩
  · cases same
    exact nonempty rfl
  · cases impossible

theorem patient_nil : Patient [] := fun _ none => absurd none List.not_mem_nil

theorem patient_cons_iff {delivery : Delivery} {rest : Reader} :
    Patient (delivery :: rest) ↔
      ((∃ bytes, bytes ≠ [] ∧ delivery = .ready bytes) ∨
        ∃ error : IoError, error.kind = .interrupted ∧ delivery = .failed error) ∧
      Patient rest := by
  rw [Patient, List.forall_mem_cons]
  rfl

/-- Everything before the first end of input or failure. -/
theorem exists_patient_prefix (reader : Reader) :
    ∃ before tail, reader = before ++ tail ∧ Patient before ∧ Pauses tail := by
  induction reader with
  | nil => exact ⟨[], [], rfl, patient_nil, .inl rfl⟩
  | cons delivery rest ih =>
      obtain ⟨before, tail, rfl, quiet, pauses⟩ := ih
      match delivery with
      | .ready [] => exact ⟨[], _, rfl, patient_nil, .inr (.inl ⟨_, rfl⟩)⟩
      | .ready (byte :: bytes) =>
          refine ⟨.ready (byte :: bytes) :: before, tail, rfl, ?_, pauses⟩
          exact patient_cons_iff.mpr ⟨.inl ⟨_, List.cons_ne_nil byte bytes, rfl⟩, quiet⟩
      | .failed error =>
          by_cases retried : error.kind = .interrupted
          · refine ⟨.failed error :: before, tail, rfl, ?_, pauses⟩
            exact patient_cons_iff.mpr ⟨.inr ⟨error, retried, rfl⟩, quiet⟩
          · exact ⟨[], _, rfl, patient_nil, .inr (.inr ⟨error, _, retried, rfl⟩)⟩

/-- With enough bytes before the pause, a buffer is filled from them. -/
theorem fill_before_pause (limit : Nat) {before tail : Reader} (patient : Patient before)
    (enough : limit ≤ (content before).length) :
    ∃ rest, fill limit (before ++ tail) = (.ok ((content before).take limit), rest ++ tail) ∧
      content rest = (content before).drop limit ∧ Patient rest := by
  induction limit, before using fill.induct with
  | case1 before => exact ⟨before, fill_zero _, rfl, patient⟩
  | case2 limit => cases enough
  | case3 limit error later interrupted ih =>
      obtain ⟨rest, filled, dropped, quiet⟩ := ih (patient_cons_iff.mp patient).2 enough
      refine ⟨rest, ?_, dropped, quiet⟩
      simpa only [List.cons_append, fill, interrupted, ↓reduceIte, content_failed] using filled
  | case4 limit error later fatal =>
      rcases (patient_cons_iff.mp patient).1 with ⟨_, _, impossible⟩ | ⟨_, interrupted, same⟩
      · cases impossible
      · cases same
        exact absurd interrupted fatal
  | case5 limit later =>
      rcases (patient_cons_iff.mp patient).1 with ⟨_, nonempty, same⟩ | ⟨_, _, impossible⟩
      · cases same
        exact absurd rfl nonempty
      · cases impossible
  | case6 limit byte first later fits ih =>
      rw [content_ready, List.length_append] at enough
      obtain ⟨rest, filled, dropped, quiet⟩ := ih (patient_cons_iff.mp patient).2 (by omega)
      refine ⟨rest, ?_, ?_, quiet⟩
      · rw [content_ready, List.take_append, List.take_of_length_le fits]
        simp only [List.cons_append, fill, fits, ↓reduceIte, filled, Except.map]
      · rw [dropped, content_ready, List.drop_append, List.drop_of_length_le fits,
          List.nil_append]
  | case7 limit byte first later overfull =>
      have short : limit + 1 ≤ (byte :: first).length := by omega
      have remaining : (byte :: first).drop (limit + 1) ≠ [] := by
        intro empty
        rw [List.drop_eq_nil_iff] at empty
        omega
      refine ⟨.ready ((byte :: first).drop (limit + 1)) :: later, ?_, ?_, ?_⟩
      · rw [content_ready, List.take_append_of_le_length short]
        simp only [List.cons_append, fill, overfull, ↓reduceIte]
      · rw [content_ready, content_ready, List.drop_append_of_le_length short]
      · exact patient_cons_iff.mpr ⟨.inl ⟨_, remaining, rfl⟩, (patient_cons_iff.mp patient).2⟩

/-- With too few, the pause ends the fill. -/
theorem fill_up_to_pause {before tail rest : Reader} {bytes : Bytes} (patient : Patient before)
    (pauses : Pauses tail) (short : (content before).length < width)
    (filled : fill width (before ++ tail) = (.ok bytes, rest)) :
    bytes = content before ∧ (tail = [] ∧ rest = [] ∨ tail = .ready [] :: rest) := by
  induction before generalizing width bytes with
  | nil =>
      obtain ⟨limit, rfl⟩ : ∃ limit, width = limit + 1 := ⟨width - 1, by omega⟩
      rcases pauses with rfl | ⟨later, rfl⟩ | ⟨error, later, fatal, rfl⟩
      · cases filled
        exact ⟨rfl, .inl ⟨rfl, rfl⟩⟩
      · cases filled
        exact ⟨rfl, .inr rfl⟩
      · simp [fill, fatal] at filled
  | cons delivery before ih =>
      obtain ⟨limit, rfl⟩ : ∃ limit, width = limit + 1 := ⟨width - 1, by omega⟩
      obtain ⟨first, quiet⟩ := patient_cons_iff.mp patient
      rcases first with ⟨delivered, nonempty, rfl⟩ | ⟨error, interrupted, rfl⟩
      · rw [content_ready, List.length_append] at short
        have fits : delivered.length ≤ limit + 1 := by omega
        cases delivered with
        | nil => exact absurd rfl nonempty
        | cons byte delivered =>
            simp only [List.cons_append, fill, fits, ↓reduceIte] at filled
            cases tailFill : fill (limit + 1 - (byte :: delivered).length) (before ++ tail) with
            | mk outcome remaining =>
                rw [tailFill] at filled
                cases outcome with
                | error error => simp [Except.map] at filled
                | ok more =>
                    simp only [Except.map, Prod.mk.injEq, Except.ok.injEq] at filled
                    obtain ⟨rfl, rfl⟩ := filled
                    obtain ⟨rfl, ended⟩ := ih quiet (by omega) tailFill
                    exact ⟨rfl, ended⟩
      · simp only [List.cons_append, fill, interrupted, ↓reduceIte] at filled
        exact ih quiet short filled

/-- A buffer is full, or the pause has cut it short. -/
theorem fill_at_pause {before tail rest : Reader} {bytes : Bytes} (patient : Patient before)
    (pauses : Pauses tail) (filled : fill width (before ++ tail) = (.ok bytes, rest)) :
    (bytes.length = width ∧ ∃ remaining, rest = remaining ++ tail ∧ Patient remaining ∧
        content before = bytes ++ content remaining) ∨
      (bytes.length < width ∧ bytes = content before ∧
        (tail = [] ∧ rest = [] ∨ tail = .ready [] :: rest)) := by
  rcases Nat.lt_or_ge (content before).length width with short | enough
  · obtain ⟨rfl, ended⟩ := fill_up_to_pause patient pauses short filled
    exact .inr ⟨short, rfl, ended⟩
  · obtain ⟨remaining, taken, dropped, quiet⟩ := @fill_before_pause width before tail patient enough
    rw [taken] at filled
    cases filled
    exact .inl ⟨List.length_take_of_le enough, remaining, rfl, quiet, by
      rw [dropped, List.take_append_drop]⟩

theorem delivers_iff {reader rest : Reader} {bytes : Bytes} (positive : 0 < width)
    (filled : fill width reader = (.ok bytes, rest)) : Delivers reader ↔ bytes ≠ [] := by
  obtain ⟨limit, rfl⟩ : ∃ limit, width = limit + 1 := ⟨width - 1, by omega⟩
  induction reader with
  | nil =>
      cases filled
      exact ⟨False.elim, fun nonempty => nonempty rfl⟩
  | cons delivery later ih =>
      match delivery with
      | .failed error =>
          by_cases interrupted : error.kind = .interrupted
          · simp only [fill, interrupted, ↓reduceIte] at filled
            rw [Delivers, ih filled, and_iff_right interrupted]
          · simp [fill, interrupted] at filled
      | .ready [] =>
          cases filled
          exact Iff.rfl
      | .ready (byte :: delivered) =>
          have first : bytes ≠ [] := by
            by_cases fits : (byte :: delivered).length ≤ limit + 1
            · simp only [fill, fits, ↓reduceIte] at filled
              cases tail : fill (limit + 1 - (byte :: delivered).length) later with
              | mk outcome remaining =>
                  rw [tail] at filled
                  cases outcome with
                  | error error => cases filled
                  | ok more =>
                      cases filled
                      exact List.cons_ne_nil _ _
            · simp only [fill, fits, ↓reduceIte] at filled
              cases filled
              exact List.cons_ne_nil _ _
          exact ⟨fun _ => first, fun _ => List.cons_ne_nil byte delivered⟩

/-! ## When every buffer but the last is full -/

/-- A pause inside a buffer that bytes follow. -/
def PausesInside (width : Nat) (before tail : Reader) : Prop :=
  (content before = [] ∨ ¬ width ∣ (content before).length) ∧
    ∃ rest, tail = .ready [] :: rest ∧ Delivers rest

/-- A full buffer moves the pause no further into its own. -/
theorem pausesInside_of_full {before remaining tail : Reader} {bytes : Bytes}
    (positive : 0 < width) (full : bytes.length = width)
    (split : content before = bytes ++ content remaining) (more : content remaining ≠ []) :
    PausesInside width before tail ↔ PausesInside width remaining tail := by
  have nonempty : content before ≠ [] := by
    intro empty
    rw [empty] at split
    have none := (List.append_eq_nil_iff.mp split.symm).1
    rw [← full, none] at positive
    exact absurd positive (Nat.lt_irrefl 0)
  have residue : width ∣ (content before).length ↔ width ∣ (content remaining).length := by
    rw [split, List.length_append, full, Nat.dvd_add_right (Nat.dvd_refl width)]
  rw [PausesInside, PausesInside, residue, or_iff_right nonempty, or_iff_right more]

/-- The buffers up to one that stays empty, read across a pause. -/
theorem Fills.full_iff_not_pausesInside {before tail later : Reader} {full : List Bytes}
    {last : Bytes} (positive : 0 < width) (patient : Patient before) (pauses : Pauses tail)
    (delivered : Fills width (before ++ tail) (full ++ [last, []]) later)
    (more : ∀ bytes ∈ (full ++ [last]).tail, bytes ≠ []) :
    (∀ bytes ∈ full, bytes.length = width) ↔ ¬ PausesInside width before tail := by
  induction full generalizing before with
  | nil =>
      refine ⟨fun _ => ?_, fun _ _ none => absurd none List.not_mem_nil⟩
      rintro ⟨inside, rest, rfl, resumes⟩
      obtain ⟨next, first, final, second, _⟩ := delivered
      rcases fill_at_pause patient pauses first with
        ⟨whole, remaining, rfl, quiet, split⟩ | ⟨_, _, ⟨impossible, _⟩ | same⟩
      · -- The empty buffer after a full one found the pause at once.
        rcases fill_at_pause quiet pauses second with ⟨zero, _⟩ | ⟨_, exhausted, _⟩
        · rw [← zero] at positive
          cases positive
        · rw [← exhausted, List.append_nil] at split
          rw [split, whole] at inside
          rcases inside with empty | uneven
          · rw [empty] at whole
            rw [← whole] at positive
            cases positive
          · exact uneven (Nat.dvd_refl width)
      · cases impossible
      · cases same
        exact (delivers_iff positive second).mp resumes rfl
  | cons first full ih =>
      obtain ⟨next, filled, delivered⟩ := delivered
      have later_more : ∀ bytes ∈ full ++ [last], bytes ≠ [] := more
      have head_more : ∃ bytes rest, fill width next = (.ok bytes, rest) ∧ bytes ≠ [] := by
        cases full with
        | nil =>
            obtain ⟨rest, filled, _⟩ := delivered
            exact ⟨last, rest, filled, more last List.mem_cons_self⟩
        | cons second full =>
            obtain ⟨rest, filled, _⟩ := delivered
            exact ⟨second, rest, filled, more second List.mem_cons_self⟩
      obtain ⟨second, rest, refilled, nonempty⟩ := head_more
      rcases fill_at_pause patient pauses filled with
        ⟨whole, remaining, rfl, quiet, split⟩ | ⟨short, exhausted, ended⟩
      · have left : content remaining ≠ [] := by
          intro empty
          rcases fill_at_pause quiet pauses refilled with ⟨same, _, _, _, parts⟩ | ⟨_, same, _⟩
          · rw [empty] at parts
            exact nonempty (List.append_eq_nil_iff.mp parts.symm).1
          · exact nonempty (same.trans empty)
        rw [List.forall_mem_cons, and_iff_right whole,
          pausesInside_of_full positive whole split left]
        exact ih quiet delivered fun bytes member => later_more bytes (List.mem_of_mem_tail member)
      · refine ⟨fun whole => absurd (whole first List.mem_cons_self) (Nat.ne_of_lt short),
          fun unbroken => absurd ?_ unbroken⟩
        rcases ended with ⟨_, rfl⟩ | resumed
        · exact ((delivers_iff positive refilled).mpr nonempty).elim
        · refine ⟨?_, next, resumed, (delivers_iff positive refilled).mpr nonempty⟩
          rw [← exhausted]
          rcases List.eq_nil_or_concat first with empty | ⟨_, _, some⟩
          · exact .inl empty
          · exact .inr (Nat.not_dvd_of_pos_of_lt (by rw [some]; simp) short)

/-- All buffers but the last are full exactly when the input does not resume inside one. -/
theorem Fills.full_iff {reader later : Reader} {full : List Bytes} {last : Bytes}
    (delivered : Fills width reader (full ++ [last, []]) later) (positive : 0 < width)
    (more : ∀ bytes ∈ (full ++ [last]).tail, bytes ≠ []) :
    (∀ bytes ∈ full, bytes.length = width) ↔ ¬ ResumesInside width reader := by
  constructor
  · rintro whole ⟨before, rest, rfl, patient, inside, resumes⟩
    have pauses : Pauses (.ready [] :: rest) := .inr (.inl ⟨rest, rfl⟩)
    exact (delivered.full_iff_not_pausesInside positive patient pauses more).mp whole
      ⟨inside, rest, rfl, resumes⟩
  · intro unbroken
    obtain ⟨before, tail, rfl, patient, pauses⟩ := exists_patient_prefix reader
    refine (delivered.full_iff_not_pausesInside positive patient pauses more).mpr ?_
    rintro ⟨inside, rest, rfl, resumes⟩
    exact unbroken ⟨before, rest, rfl, patient, inside, resumes⟩

end ByteReader
