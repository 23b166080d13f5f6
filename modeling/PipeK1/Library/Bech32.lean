import PipeK1.Library.TextCodecs

/-!
# Decoding inverts Bech32 encoding

The checksum polynomial is linear in what the last six symbols add, so that the
computed checksum makes it one; and the five-bit digits of a byte string give
the byte string back.
-/

set_option autoImplicit false

namespace Bech32

open ByteData

/-! ## The checksum -/

/-- What the five bits that leave the register feed back. -/
def feedback (top : Nat) : Nat :=
  ([0x3b6a57b2, 0x26508e6d, 0x1ea119fa, 0x3d4233dd, 0x2a1462b3].zipIdx).foldl
    (fun chk (generator, i) => if (top >>> i) &&& 1 = 1 then chk ^^^ generator else chk) 0

def step (chk value : Nat) : Nat :=
  ((chk &&& 0x1ffffff) <<< 5) ^^^ value ^^^ feedback (chk >>> 25)

theorem polymod_eq_foldl (values : List Nat) : polymod values = values.foldl step 1 := by
  have shifted : ∀ (generators : List (Nat × Nat)) (top start : Nat),
      generators.foldl
        (fun chk (generator, i) => if (top >>> i) &&& 1 = 1 then chk ^^^ generator else chk)
        start =
      start ^^^ generators.foldl
        (fun chk (generator, i) => if (top >>> i) &&& 1 = 1 then chk ^^^ generator else chk) 0 := by
    intro generators top start
    induction generators generalizing start with
    | nil => exact (Nat.xor_zero start).symm
    | cons pair generators ih =>
        obtain ⟨generator, i⟩ := pair
        simp only [List.foldl_cons]
        split
        · rw [ih (start ^^^ generator), ih (0 ^^^ generator), Nat.zero_xor, Nat.xor_assoc]
        · exact ih start
  unfold polymod
  congr 1
  funext chk value
  exact shifted _ _ _

theorem feedback_lt (top : Nat) : feedback top < 2 ^ 30 := by
  have bounded : ∀ (generators : List (Nat × Nat)) (start : Nat), start < 2 ^ 30 →
      (∀ pair ∈ generators, pair.1 < 2 ^ 30) →
      generators.foldl
        (fun chk (generator, i) => if (top >>> i) &&& 1 = 1 then chk ^^^ generator else chk)
        start < 2 ^ 30 := by
    intro generators
    induction generators with
    | nil => exact fun start small _ => small
    | cons pair generators ih =>
        intro start small all
        have later := fun other member => all other (List.mem_cons_of_mem pair member)
        have here := all pair List.mem_cons_self
        obtain ⟨generator, i⟩ := pair
        simp only [List.foldl_cons]
        split
        · exact ih _ (Nat.xor_lt_two_pow small here) later
        · exact ih _ small later
  exact bounded _ 0 (by decide) (by decide)

theorem step_lt {value : Nat} (small : value < 32) (chk : Nat) : step chk value < 2 ^ 30 := by
  have low : chk &&& 0x1ffffff < 2 ^ 25 := Nat.and_lt_two_pow _ (by decide)
  have register : (chk &&& 0x1ffffff) <<< 5 < 2 ^ 30 := by
    rw [Nat.shiftLeft_eq]
    omega
  exact Nat.xor_lt_two_pow (Nat.xor_lt_two_pow register (by omega)) (feedback_lt _)

theorem foldl_step_lt {values : List Nat} (small : ∀ value ∈ values, value < 32) {chk : Nat}
    (start : chk < 2 ^ 30) : values.foldl step chk < 2 ^ 30 := by
  induction values generalizing chk with
  | nil => exact start
  | cons value values ih =>
      exact ih (fun other member => small other (List.mem_cons_of_mem _ member))
        (step_lt (small value List.mem_cons_self) chk)

/-- A difference that does not reach the top five bits is only shifted. -/
theorem step_xor {difference : Nat} (low : difference < 2 ^ 25) (chk value : Nat) :
    step (chk ^^^ difference) value = step chk 0 ^^^ (difference <<< 5 ^^^ value) := by
  have kept : difference &&& 0x1ffffff = difference := by
    have mask := Nat.and_two_pow_sub_one_eq_mod difference 25
    rw [Nat.mod_eq_of_lt low] at mask
    exact mask
  have gone : difference >>> 25 = 0 := by
    rw [Nat.shiftRight_eq_div_pow, Nat.div_eq_of_lt low]
  unfold step
  rw [Nat.and_xor_distrib_right, kept, Nat.shiftLeft_xor_distrib, Nat.shiftRight_xor_distrib, gone,
    Nat.xor_zero, Nat.xor_zero]
  ac_rfl

/-- A five-bit digit in the free places behind a number. -/
theorem shiftLeft_xor_digit {digit : Nat} (small : digit < 32) (number : Nat) :
    number <<< 5 ^^^ digit = number * 32 + digit := by
  refine Nat.eq_of_testBit_eq fun i => ?_
  rw [Nat.testBit_xor, Nat.testBit_shiftLeft, Nat.mul_comm,
    show 32 * number + digit = 2 ^ 5 * number + digit from rfl,
    Nat.testBit_two_pow_mul_add number (show digit < 2 ^ 5 from small)]
  by_cases inside : i < 5
  · simp [inside, Nat.not_le_of_lt inside]
  · have wide : digit < 2 ^ i :=
      Nat.lt_of_lt_of_le small (show 2 ^ 5 ≤ 2 ^ i from
        Nat.pow_le_pow_right (by decide) (Nat.le_of_not_lt inside))
    simp [inside, Nat.testBit_lt_two_pow wide, Nat.le_of_not_lt inside]

/-- Five-bit digits as one number, the first one in front. -/
def pack (start : Nat) (digits : List Nat) : Nat :=
  digits.foldl (fun packed digit => packed * 32 + digit) start

theorem foldl_step_xor {values : List Nat} (small : ∀ value ∈ values, value < 32) (chk : Nat)
    {difference places : Nat} (low : difference < 2 ^ (5 * places))
    (few : places + values.length ≤ 6) :
    values.foldl step (chk ^^^ difference) =
      (List.replicate values.length 0).foldl step chk ^^^ pack difference values := by
  induction values generalizing chk difference places with
  | nil => rfl
  | cons value values ih =>
      have here := small value List.mem_cons_self
      rw [List.length_cons] at few
      have within : difference < 2 ^ 25 :=
        Nat.lt_of_lt_of_le low (Nat.pow_le_pow_right (by decide) (by omega))
      have low' : difference * 32 + value < 2 ^ (5 * (places + 1)) := by
        have power : 2 ^ (5 * (places + 1)) = 2 ^ (5 * places) * 32 := by
          rw [Nat.mul_add, Nat.pow_add]
        omega
      rw [List.foldl_cons, step_xor within, shiftLeft_xor_digit here,
        ih (fun other member => small other (List.mem_cons_of_mem _ member)) (step chk 0) low'
          (by omega)]
      rfl

/-- The residue's six digits. -/
def residueDigits (residue : Nat) : List Nat :=
  (List.range 6).map fun i => (residue >>> (5 * (5 - i))) &&& 31

theorem residueDigits_lt (residue : Nat) : ∀ digit ∈ residueDigits residue, digit < 32 := by
  intro digit member
  obtain ⟨i, _, rfl⟩ := List.mem_map.mp member
  exact Nat.and_lt_two_pow _ (by decide : 31 < 2 ^ 5)

theorem pack_residueDigits {residue : Nat} (small : residue < 2 ^ 30) :
    pack 0 (residueDigits residue) = residue := by
  have digit : ∀ places, (residue >>> places) &&& 31 = residue / 2 ^ places % 32 := by
    intro places
    rw [show 31 = 2 ^ 5 - 1 from rfl, Nat.and_two_pow_sub_one_eq_mod, Nat.shiftRight_eq_div_pow]
  have digits : residueDigits residue = [residue / 2 ^ 25 % 32, residue / 2 ^ 20 % 32,
      residue / 2 ^ 15 % 32, residue / 2 ^ 10 % 32, residue / 2 ^ 5 % 32, residue / 2 ^ 0 % 32] := by
    simp only [residueDigits, digit]
    rfl
  rw [digits]
  simp only [pack, List.foldl_cons, List.foldl_nil]
  omega

/-- A code word with its computed checksum leaves one. -/
theorem polymod_checksum {hrp : List Char} {data : List Nat}
    (small : ∀ value ∈ expandHrp hrp ++ data, value < 32) :
    polymod (expandHrp hrp ++ data ++ checksum hrp data) = 1 := by
  let chk := (expandHrp hrp ++ data).foldl step 1
  have padded : polymod (expandHrp hrp ++ data ++ List.replicate 6 0) =
      (List.replicate 6 0).foldl step chk := by
    rw [polymod_eq_foldl, List.foldl_append]
  let residue := (List.replicate 6 0).foldl step chk ^^^ 1
  have digits : checksum hrp data = residueDigits residue := by
    rw [checksum, padded]
    rfl
  have bounded : residue < 2 ^ 30 := by
    refine Nat.xor_lt_two_pow (foldl_step_lt ?_ (foldl_step_lt small (by decide))) (by decide)
    intro value member
    rw [List.eq_of_mem_replicate member]
    decide
  rw [digits, polymod_eq_foldl, List.foldl_append]
  have fed := @foldl_step_xor (residueDigits residue) (residueDigits_lt residue) chk 0 0
    Nat.one_pos (by simp [residueDigits])
  rw [Nat.xor_zero, pack_residueDigits bounded] at fed
  change (residueDigits residue).foldl step chk = 1
  rw [fed]
  change (List.replicate 6 0).foldl step chk ^^^ residue = 1
  rw [← Nat.xor_assoc, Nat.xor_self, Nat.zero_xor]

/-! ## Five-bit digits -/

theorem pack_append_singleton (start digit : Nat) (digits : List Nat) :
    pack start (digits ++ [digit]) = pack start digits * 32 + digit := by
  rw [pack, List.foldl_append]
  rfl

theorem pack_digits (value count : Nat) :
    pack 0 ((List.range count).map fun i => value / 2 ^ (5 * (count - 1 - i)) % 32) =
      value % 2 ^ (5 * count) := by
  induction count generalizing value with
  | zero => simp [pack, Nat.mod_one]
  | succ count ih =>
      have front : ((List.range count).map fun i => value / 2 ^ (5 * (count + 1 - 1 - i)) % 32) =
          (List.range count).map fun i => value / 32 / 2 ^ (5 * (count - 1 - i)) % 32 := by
        refine List.map_congr_left fun i member => ?_
        have inside := List.mem_range.mp member
        have power : 2 ^ (5 * (count + 1 - 1 - i)) = 32 * 2 ^ (5 * (count - 1 - i)) := by
          rw [show 5 * (count + 1 - 1 - i) = 5 + 5 * (count - 1 - i) by omega, Nat.pow_add]
        rw [power, Nat.div_div_eq_div_mul]
      have last : value / 2 ^ (5 * (count + 1 - 1 - count)) % 32 = value % 32 := by
        simp
      have power : 2 ^ (5 * (count + 1)) = 32 * 2 ^ (5 * count) := by
        rw [Nat.mul_add, Nat.pow_add, Nat.mul_comm]
      rw [List.range_succ, List.map_append, List.map_singleton, front, last,
        pack_append_singleton, ih, power, Nat.mod_mul]
      omega

theorem fiveBits_lt (bytes : Bytes) : ∀ digit ∈ fiveBits bytes, digit < 32 := by
  intro digit member
  obtain ⟨i, _, rfl⟩ := List.mem_map.mp member
  exact Nat.mod_lt _ (by decide)

theorem length_fiveBits (bytes : Bytes) :
    (fiveBits bytes).length = (8 * bytes.length + 4) / 5 := by
  rw [fiveBits, List.length_map, List.length_range]

theorem bytesOf_fiveBits (bytes : Bytes) : bytesOf (fiveBits bytes) = bytes := by
  let count := (8 * bytes.length + 4) / 5
  have padding : 8 * bytes.length + (5 * count - 8 * bytes.length) = 5 * count := by omega
  have fits : beNat bytes * 2 ^ (5 * count - 8 * bytes.length) < 2 ^ (5 * count) := by
    have bound := beNat_lt bytes
    rw [show 256 = 2 ^ 8 from rfl, ← Nat.pow_mul] at bound
    calc beNat bytes * 2 ^ (5 * count - 8 * bytes.length)
        < 2 ^ (8 * bytes.length) * 2 ^ (5 * count - 8 * bytes.length) :=
          Nat.mul_lt_mul_of_pos_right bound (Nat.two_pow_pos _)
      _ = 2 ^ (5 * count) := by rw [← Nat.pow_add, padding]
  have packed : pack 0 (fiveBits bytes) = beNat bytes * 2 ^ (5 * count - 8 * bytes.length) := by
    rw [fiveBits, pack_digits, Nat.mod_eq_of_lt fits]
  have whole : 5 * (fiveBits bytes).length / 8 = bytes.length := by
    rw [length_fiveBits]
    omega
  have spare : 5 * (fiveBits bytes).length - 8 * bytes.length = 5 * count - 8 * bytes.length := by
    rw [length_fiveBits]
  change beList (5 * (fiveBits bytes).length / 8) (pack 0 (fiveBits bytes) /
    2 ^ (5 * (fiveBits bytes).length - 8 * (5 * (fiveBits bytes).length / 8))) = bytes
  rw [whole, spare, packed, Nat.mul_div_cancel _ (Nat.two_pow_pos _), beList_beNat]

/-! ## Decoding what was encoded -/

/-- A human-readable part without capital letters. -/
structure Readable (hrp : List Char) : Prop where
  nonempty : hrp ≠ []
  short : hrp.length ≤ 83
  plain : ∀ c ∈ hrp, 33 ≤ c.toNat ∧ c.toNat ≤ 126 ∧ isUpper c = false

theorem readable_of_all {hrp : List Char} (nonempty : hrp ≠ []) (short : hrp.length ≤ 83)
    (plain : (hrp.all fun c => 33 ≤ c.toNat && c.toNat ≤ 126 && !isUpper c) = true) :
    Readable hrp := by
  refine ⟨nonempty, short, fun c member => ?_⟩
  have here := List.all_eq_true.mp plain c member
  simp only [Bool.and_eq_true, decide_eq_true_eq, Bool.not_eq_true'] at here
  exact ⟨here.1.1, here.1.2, here.2⟩

def symbols (hrp : List Char) (bytes : Bytes) : List Char :=
  (fiveBits bytes ++ checksum hrp (fiveBits bytes)).map fun value => alphabet.getD value 'q'

theorem toList_encode (hrp : String) (bytes : Bytes) :
    (encode hrp bytes).toList = hrp.toList ++ '1' :: symbols hrp.toList bytes := by
  simp [encode, symbols]

theorem values_lt (hrp : List Char) (bytes : Bytes) :
    ∀ value ∈ fiveBits bytes ++ checksum hrp (fiveBits bytes), value < 32 := by
  intro value member
  rcases List.mem_append.mp member with data | sum
  · exact fiveBits_lt bytes value data
  · exact residueDigits_lt _ value sum

theorem symbol_spec : ∀ value < 32, alphabet.getD value 'q' ≠ '1' ∧
    isUpper (alphabet.getD value 'q') = false ∧
    Text.isWhitespace (alphabet.getD value 'q') = false ∧
    alphabet.findIdx? (· = alphabet.getD value 'q') = some value := by
  decide

theorem mem_symbols {hrp : List Char} {bytes : Bytes} {c : Char}
    (member : c ∈ symbols hrp bytes) : ∃ value < 32, c = alphabet.getD value 'q' := by
  obtain ⟨value, inside, rfl⟩ := List.mem_map.mp member
  exact ⟨value, values_lt hrp bytes value inside, rfl⟩

theorem toLower_of_not_upper {c : Char} (lower : isUpper c = false) : toLower c = c := by
  rw [toLower, if_neg (by rw [lower]; exact Bool.false_ne_true)]

theorem splitLast_of_solid {hrp after : List Char} (solid : '1' ∉ after) :
    splitLast (hrp ++ '1' :: after) = some (hrp, after) := by
  have taken : (hrp ++ '1' :: after).reverse.takeWhile (· ≠ '1') = after.reverse := by
    rw [List.reverse_append, List.reverse_cons, List.append_assoc,
      List.takeWhile_append_of_pos]
    · simp
    · intro c member
      simp only [decide_eq_true_eq]
      rintro rfl
      exact solid (List.mem_reverse.mp member)
  have lengths : (hrp ++ '1' :: after).length - after.length - 1 = hrp.length := by
    simp
    omega
  unfold splitLast
  simp only [taken, List.length_reverse, List.reverse_reverse, lengths]
  rw [if_pos (by simp; omega), List.take_left]

theorem mapM_findIdx {values : List Nat} (small : ∀ value ∈ values, value < 32) :
    ((values.map fun value => alphabet.getD value 'q').map toLower).mapM
      (fun c => alphabet.findIdx? (· = c)) = some values := by
  induction values with
  | nil => rfl
  | cons value values ih =>
      obtain ⟨_, lower, _, found⟩ := symbol_spec value (small value List.mem_cons_self)
      rw [List.map_cons, List.map_cons, List.mapM_cons, toLower_of_not_upper lower, found,
        ih fun other member => small other (List.mem_cons_of_mem _ member)]
      rfl

theorem expandHrp_lt {hrp : List Char} (readable : Readable hrp) :
    ∀ value ∈ expandHrp hrp, value < 32 := by
  intro value member
  simp only [expandHrp, List.mem_append, List.mem_map, List.mem_singleton] at member
  rcases member with (⟨c, inside, rfl⟩ | rfl) | ⟨c, _, rfl⟩
  · have bound := (readable.plain c inside).2.1
    rw [Nat.shiftRight_eq_div_pow]
    omega
  · decide
  · exact Nat.and_lt_two_pow _ (by decide : 31 < 2 ^ 5)

/-- Encoding with a lower-case human-readable part is inverted. -/
theorem decode_encode {hrp : String} (readable : Readable hrp.toList) {bytes : Bytes}
    (short : bytes.length ≤ 500) : decode (encode hrp bytes) = .ok (hrp, bytes) := by
  have solid : '1' ∉ symbols hrp.toList bytes := by
    intro member
    obtain ⟨value, small, same⟩ := mem_symbols member
    exact (symbol_spec value small).1 same.symm
  have split := @splitLast_of_solid hrp.toList _ solid
  have values : ((symbols hrp.toList bytes).map toLower).mapM
      (fun c => alphabet.findIdx? (· = c)) =
        some (fiveBits bytes ++ checksum hrp.toList (fiveBits bytes)) :=
    mapM_findIdx (values_lt hrp.toList bytes)
  have lower : hrp.toList.map toLower = hrp.toList := by
    conv => rhs; rw [← List.map_id hrp.toList]
    exact List.map_congr_left fun c member =>
      toLower_of_not_upper (readable.plain c member).2.2
  have residue : polymod (expandHrp (hrp.toList.map toLower) ++
      (fiveBits bytes ++ checksum hrp.toList (fiveBits bytes))) = 1 := by
    rw [lower, ← List.append_assoc]
    refine polymod_checksum fun value member => ?_
    rcases List.mem_append.mp member with front | data
    · exact expandHrp_lt readable value front
    · exact fiveBits_lt bytes value data
  have visible : hrp.toList.all (fun c => 33 ≤ c.toNat ∧ c.toNat ≤ 126) = true := by
    rw [List.all_eq_true]
    intro c member
    obtain ⟨low, high, _⟩ := readable.plain c member
    exact decide_eq_true ⟨low, high⟩
  have unmixed : (encode hrp bytes).toList.any isUpper = false := by
    rw [List.any_eq_false, toList_encode]
    intro c member
    rcases List.mem_append.mp member with front | behind
    · rw [(readable.plain c front).2.2]
      exact Bool.false_ne_true
    · rcases List.mem_cons.mp behind with rfl | symbol
      · decide
      · obtain ⟨value, small, rfl⟩ := mem_symbols symbol
        rw [(symbol_spec value small).2.1]
        exact Bool.false_ne_true
  have sum : (checksum hrp.toList (fiveBits bytes)).length = 6 := by
    rw [checksum, List.length_map, List.length_range]
  have length : (encode hrp bytes).toList.length ≤ 1023 := by
    have most := readable.short
    rw [toList_encode, List.length_append, List.length_cons, symbols, List.length_map,
      List.length_append, sum, length_fiveBits]
    omega
  have readableHrp : ¬ (hrp.toList = [] ∨ 83 < hrp.toList.length ∨
      hrp.toList.all (fun c => 33 ≤ c.toNat ∧ c.toNat ≤ 126) = false ∨
      ((encode hrp bytes).toList.any isUpper && (encode hrp bytes).toList.any isLower) = true) := by
    rw [visible, unmixed]
    simp [readable.nonempty, readable.short]
  unfold decode
  rw [toList_encode] at *
  have accepted : ¬ ((fiveBits bytes ++ checksum hrp.toList (fiveBits bytes)).length < 6 ∨
      1023 < (hrp.toList ++ '1' :: symbols hrp.toList bytes).length ∨
      ((1 : Nat) ≠ 1 ∧ (1 : Nat) ≠ 0x2bc830a3)) := by
    rw [@List.length_append _ (fiveBits bytes), sum]
    omega
  have data : (fiveBits bytes ++ checksum hrp.toList (fiveBits bytes)).take
      ((fiveBits bytes ++ checksum hrp.toList (fiveBits bytes)).length - 6) = fiveBits bytes := by
    rw [List.length_append, sum, Nat.add_sub_cancel, List.take_left]
  simp only [split, values, readableHrp, ↓reduceIte, residue, accepted, data, bytesOf_fiveBits,
    String.ofList_toList]

/-! ## What decodes -/

theorem eq_of_splitLast {text hrp after : List Char} (found : splitLast text = some (hrp, after)) :
    text = hrp ++ '1' :: after := by
  unfold splitLast at found
  dsimp only at found
  split at found
  · next inside =>
      simp only [Option.some.injEq, Prod.mk.injEq] at found
      obtain ⟨rfl, rfl⟩ := found
      have whole := @List.takeWhile_append_dropWhile _ (· ≠ '1') text.reverse
      have nonempty : text.reverse.dropWhile (· ≠ '1') ≠ [] := by
        intro none
        rw [none, List.append_nil] at whole
        rw [whole, List.length_reverse] at inside
        exact Nat.lt_irrefl _ inside
      obtain ⟨c, rest, dropped⟩ := List.exists_cons_of_ne_nil nonempty
      have separator : c = '1' := by
        have head := List.head?_dropWhile_not (· ≠ '1') text.reverse
        rw [dropped] at head
        simpa using head
      subst separator
      have front : text = rest.reverse ++ '1' :: (text.reverse.takeWhile (· ≠ '1')).reverse := by
        rw [dropped] at whole
        conv => lhs; rw [← List.reverse_reverse text, ← whole]
        simp
      generalize text.reverse.takeWhile (· ≠ '1') = after at front
      subst front
      have kept : (rest.reverse ++ '1' :: after.reverse).length - after.length - 1 =
          rest.reverse.length := by
        simp
        omega
      rw [kept, List.take_left]
  · cases found

/-- The human-readable part of a decoded text is what stands before its last separator. -/
theorem splitLast_of_decode {text hrp : String} {data : Bytes}
    (decoded : decode text = .ok (hrp, data)) :
    ∃ after, splitLast text.toList = some (hrp.toList, after) := by
  unfold decode at decoded
  split at decoded
  · cases decoded
  · next front after found =>
      refine ⟨after, ?_⟩
      dsimp only at decoded
      split at decoded
      · cases decoded
      · split at decoded
        · cases decoded
        · split at decoded
          · cases decoded
          · cases decoded
            rw [found, String.toList_ofList]

end Bech32
