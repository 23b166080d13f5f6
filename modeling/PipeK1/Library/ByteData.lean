import Mathlib.Algebra.Group.Nat.Defs
import Mathlib.Data.List.Induction

/-!
# Byte strings and big-endian integers

Unbounded byte strings are lists; a byte array carries the proof of its width,
so a field of the wrong width cannot be built.
Big-endian encoding is defined on natural numbers and inherited by the
fixed-width integers.
-/

set_option autoImplicit false

namespace ByteData

abbrev Bytes := List UInt8

/-- A byte array of exactly `width` bytes. -/
structure FixedBytes (width : Nat) where
  toList : Bytes
  length_toList : toList.length = width
deriving DecidableEq

namespace FixedBytes

variable {width : Nat}

attribute [simp] length_toList

@[ext] theorem ext {left right : FixedBytes width} (same : left.toList = right.toList) :
    left = right := by
  cases left
  cases right
  cases same
  rfl

/-- The sub-array `[start .. start + length]`. -/
def slice (bytes : FixedBytes width) (start length : Nat)
    (fits : start + length ≤ width := by decide) : FixedBytes length where
  toList := (bytes.toList.drop start).take length
  length_toList := by
    rw [List.length_take, List.length_drop, bytes.length_toList]
    omega

@[simp] theorem toList_slice (bytes : FixedBytes width) (start length : Nat)
    (fits : start + length ≤ width) :
    (bytes.slice start length fits).toList = (bytes.toList.drop start).take length := rfl

def byteAt (bytes : FixedBytes width) (index : Nat) (inside : index < width := by decide) :
    UInt8 :=
  bytes.toList.get ⟨index, bytes.length_toList.symm ▸ inside⟩

theorem getElem?_eq_byteAt (bytes : FixedBytes width) (index : Nat) (inside : index < width) :
    bytes.toList[index]? = some (bytes.byteAt index inside) :=
  List.getElem?_eq_getElem (bytes.length_toList.symm ▸ inside)

/-- A one-byte array. -/
def single (byte : UInt8) : FixedBytes 1 := ⟨[byte], rfl⟩

@[simp] theorem toList_single (byte : UInt8) : (single byte).toList = [byte] := rfl

/-- An array of zero bytes. -/
def zeros (width : Nat) : FixedBytes width := ⟨List.replicate width 0, List.length_replicate⟩

/-- Concatenation, widths included. -/
def append {left right : Nat} (first : FixedBytes left) (second : FixedBytes right) :
    FixedBytes (left + right) where
  toList := first.toList ++ second.toList
  length_toList := by rw [List.length_append, first.length_toList, second.length_toList]

@[simp] theorem toList_append {left right : Nat} (first : FixedBytes left)
    (second : FixedBytes right) :
    (first.append second).toList = first.toList ++ second.toList := rfl

/-! ### Taking arrays apart -/

theorem toList_slice_add (bytes : FixedBytes width) (start first second : Nat)
    (fits : start + (first + second) ≤ width) :
    (bytes.slice start (first + second) fits).toList =
      (bytes.slice start first (by omega)).toList ++
        (bytes.slice (start + first) second (by omega)).toList := by
  rw [toList_slice, toList_slice, toList_slice, List.take_add, List.drop_drop]

theorem toList_slice_one (bytes : FixedBytes width) (index : Nat) (inside : index < width) :
    (bytes.slice index 1 inside).toList = [bytes.byteAt index inside] := by
  have found := @List.getElem_cons_drop _ bytes.toList index
    (bytes.length_toList.symm ▸ inside)
  rw [toList_slice, ← found]
  rfl

theorem slice_whole (bytes : FixedBytes width) (fits : 0 + width ≤ width) :
    bytes.slice 0 width fits = bytes := by
  apply ext
  rw [toList_slice, List.drop_zero, List.take_of_length_le (Nat.le_of_eq bytes.length_toList)]

section Append

variable {left right : Nat} (first : FixedBytes left) (second : FixedBytes right)

theorem slice_append_left (start length : Nat) (fits : start + length ≤ left)
    (fits' : start + length ≤ left + right) :
    (first.append second).slice start length fits' = first.slice start length fits := by
  apply ext
  rw [toList_slice, toList_slice, toList_append,
    List.drop_append_of_le_length (by rw [first.length_toList]; omega),
    List.take_append_of_le_length (by rw [List.length_drop, first.length_toList]; omega)]

theorem slice_append_right (fits : left + right ≤ left + right) :
    (first.append second).slice left right fits = second := by
  apply ext
  rw [toList_slice, toList_append, List.drop_left' first.length_toList,
    List.take_of_length_le (Nat.le_of_eq second.length_toList)]

theorem byteAt_append_single (byte : UInt8) (inside : left < left + 1) :
    (first.append (single byte)).byteAt left inside = byte := by
  have found := getElem?_eq_byteAt (first.append (single byte)) left inside
  rw [toList_append, List.getElem?_append_right (Nat.le_of_eq first.length_toList),
    first.length_toList, Nat.sub_self] at found
  exact (Option.some.inj found).symm

end Append

/-- A list of the right length, as an array. -/
def ofList? (width : Nat) (bytes : Bytes) : Option (FixedBytes width) :=
  if fits : bytes.length = width then some ⟨bytes, fits⟩ else none

theorem ofList?_eq_some_iff {bytes : Bytes} {array : FixedBytes width} :
    ofList? width bytes = some array ↔ array.toList = bytes := by
  constructor
  · intro accepted
    unfold ofList? at accepted
    split at accepted
    · cases accepted
      rfl
    · cases accepted
  · rintro rfl
    exact dif_pos array.length_toList

theorem ofList?_eq_none_iff {bytes : Bytes} :
    ofList? width bytes = none ↔ bytes.length ≠ width := by
  unfold ofList?
  split <;> simp_all

@[simp] theorem ofList?_toList (array : FixedBytes width) :
    ofList? width array.toList = some array :=
  ofList?_eq_some_iff.mpr rfl

end FixedBytes

/-! ## Big-endian numbers -/

/-- The `width` low-order base-256 digits of `value`, most significant first. -/
def beList : Nat → Nat → Bytes
  | 0, _ => []
  | width + 1, value => beList width (value / 256) ++ [UInt8.ofNat value]

/-- The number a big-endian byte string denotes. -/
def beNat (bytes : Bytes) : Nat :=
  bytes.foldl (fun value byte => value * 256 + byte.toNat) 0

@[simp] theorem length_beList (width value : Nat) : (beList width value).length = width := by
  induction width generalizing value with
  | zero => rfl
  | succ width ih => simp [beList, ih]

theorem beNat_append_singleton (bytes : Bytes) (byte : UInt8) :
    beNat (bytes ++ [byte]) = beNat bytes * 256 + byte.toNat := by
  simp [beNat]

theorem beNat_lt (bytes : Bytes) : beNat bytes < 256 ^ bytes.length := by
  induction bytes using List.reverseRecOn with
  | nil => simp [beNat]
  | append_singleton bytes byte ih =>
      have small : byte.toNat < 256 := byte.toNat_lt
      rw [beNat_append_singleton, List.length_append, List.length_singleton, Nat.pow_succ]
      omega

theorem beNat_beList {width value : Nat} (fits : value < 256 ^ width) :
    beNat (beList width value) = value := by
  induction width generalizing value with
  | zero =>
      have zero : value = 0 := by simpa using fits
      simp [beList, beNat, zero]
  | succ width ih =>
      have smaller : value / 256 < 256 ^ width := by
        rw [Nat.div_lt_iff_lt_mul (by decide)]
        simpa [Nat.pow_succ] using fits
      rw [beList, beNat_append_singleton, ih smaller, UInt8.toNat_ofNat']
      have digits := Nat.div_add_mod value 256
      omega

theorem beList_beNat (bytes : Bytes) : beList bytes.length (beNat bytes) = bytes := by
  induction bytes using List.reverseRecOn with
  | nil => rfl
  | append_singleton bytes byte ih =>
      have small : byte.toNat < 256 := byte.toNat_lt
      have quotient : (beNat bytes * 256 + byte.toNat) / 256 = beNat bytes := by omega
      have digit : UInt8.ofNat (beNat bytes * 256 + byte.toNat) = byte := by
        apply UInt8.toNat_inj.mp
        rw [UInt8.toNat_ofNat']
        omega
      rw [beNat_append_singleton, List.length_append, List.length_singleton, beList, quotient,
        ih, digit]

theorem beList_injective {width left right : Nat} (leftFits : left < 256 ^ width)
    (rightFits : right < 256 ^ width) (same : beList width left = beList width right) :
    left = right := by
  rw [← beNat_beList leftFits, same, beNat_beList rightFits]

/-- `u32::to_be_bytes`. -/
def u32Be (value : UInt32) : FixedBytes 4 := ⟨beList 4 value.toNat, length_beList 4 _⟩

/-- `u64::to_be_bytes`. -/
def u64Be (value : UInt64) : FixedBytes 8 := ⟨beList 8 value.toNat, length_beList 8 _⟩

/-- `u32::from_be_bytes`. -/
def u32FromBe (bytes : FixedBytes 4) : UInt32 := UInt32.ofNat (beNat bytes.toList)

@[simp] theorem toList_u32Be (value : UInt32) : (u32Be value).toList = beList 4 value.toNat :=
  rfl

@[simp] theorem toList_u64Be (value : UInt64) : (u64Be value).toList = beList 8 value.toNat :=
  rfl

theorem toNat_u32FromBe (bytes : FixedBytes 4) :
    (u32FromBe bytes).toNat = beNat bytes.toList := by
  have bound : beNat bytes.toList < 256 ^ 4 := by
    simpa only [FixedBytes.length_toList] using beNat_lt bytes.toList
  rw [u32FromBe, UInt32.toNat_ofNat']
  exact Nat.mod_eq_of_lt bound

@[simp] theorem u32FromBe_u32Be (value : UInt32) : u32FromBe (u32Be value) = value := by
  apply UInt32.toNat_inj.mp
  rw [toNat_u32FromBe]
  exact beNat_beList value.toNat_lt

theorem u32Be_u32FromBe (bytes : FixedBytes 4) : u32Be (u32FromBe bytes) = bytes := by
  apply FixedBytes.ext
  rw [toList_u32Be, toNat_u32FromBe]
  simpa only [FixedBytes.length_toList] using beList_beNat bytes.toList

theorem u64Be_injective {left right : UInt64} (same : u64Be left = u64Be right) :
    left = right := by
  apply UInt64.toNat_inj.mp
  exact beList_injective left.toNat_lt right.toNat_lt (congrArg FixedBytes.toList same)

theorem u32Be_injective {left right : UInt32} (same : u32Be left = u32Be right) :
    left = right := by
  rw [← u32FromBe_u32Be left, same, u32FromBe_u32Be]

end ByteData
