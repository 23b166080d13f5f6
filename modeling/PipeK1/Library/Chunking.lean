import Mathlib.Data.List.Basic

/-!
# Cutting a list into chunks

Consecutive pieces of a fixed size, the last one possibly shorter.
-/

set_option autoImplicit false

namespace Chunking

variable {α : Type}

/-- `slice::chunks`. -/
def chunks (size : Nat) (positive : 0 < size) : List α → List (List α)
  | [] => []
  | item :: items =>
      (item :: items).take size :: chunks size positive ((item :: items).drop size)
termination_by items => items.length
decreasing_by
  simp only [List.length_drop, List.length_cons]
  omega

variable {size : Nat} {positive : 0 < size}

@[simp] theorem chunks_nil : chunks size positive ([] : List α) = [] := by
  rw [chunks]

theorem chunks_of_ne_nil {items : List α} (nonempty : items ≠ []) :
    chunks size positive items = items.take size :: chunks size positive (items.drop size) := by
  cases items with
  | nil => exact absurd rfl nonempty
  | cons item items => rw [chunks]

@[simp] theorem flatten_chunks (items : List α) :
    (chunks size positive items).flatten = items := by
  induction items using chunks.induct size positive with
  | case1 => simp
  | case2 item items ih =>
      rw [chunks, List.flatten_cons, ih, List.take_append_drop]

theorem chunks_bounds {items chunk : List α} (member : chunk ∈ chunks size positive items) :
    0 < chunk.length ∧ chunk.length ≤ size := by
  induction items using chunks.induct size positive with
  | case1 => simp at member
  | case2 item items ih =>
      rw [chunks, List.mem_cons] at member
      rcases member with rfl | later
      · rw [List.length_take, List.length_cons]
        omega
      · exact ih later

/-- The whole list is one chunk when it fits. -/
theorem chunks_of_fits {items : List α} (nonempty : items ≠ []) (fits : items.length ≤ size) :
    chunks size positive items = [items] := by
  rw [chunks_of_ne_nil nonempty, List.take_of_length_le fits, List.drop_of_length_le fits,
    chunks_nil]

/-! ## Pieces of one length -/

/-- Pieces of exactly `size` items, and a last one that may be shorter, make up `items`. -/
structure Pieces (size : Nat) (items : List α) (full : List (List α)) (last : List α) : Prop where
  whole : full.flatten ++ last = items
  exact : ∀ piece ∈ full, piece.length = size
  fits : last.length ≤ size

variable {items last last' : List α} {full full' : List (List α)}

theorem Pieces.length_flatten (pieces : Pieces size items full last) :
    full.flatten.length = full.length * size := by
  rw [List.length_flatten, List.map_congr_left pieces.exact, List.map_const',
    List.sum_replicate_nat]

/-- What a full last piece can be followed by is an empty one. -/
theorem Pieces.singleton_of_cons {piece : List α} (positive : 0 < size)
    (fits : last.length ≤ size) (other : Pieces size last (piece :: full) last') :
    piece = last ∧ full = [] ∧ last' = [] := by
  have here : piece.length = size := other.exact piece List.mem_cons_self
  have whole := other.whole
  have lengths := congrArg List.length whole
  rw [List.length_append, other.length_flatten, List.length_cons, Nat.succ_mul] at lengths
  have none : full.length * size = 0 ∧ last'.length = 0 := by omega
  have empty : full = [] := by
    rcases Nat.mul_eq_zero.mp none.1 with nothing | impossible
    · exact List.length_eq_zero_iff.mp nothing
    · omega
  have nothing : last' = [] := List.length_eq_zero_iff.mp none.2
  subst empty nothing
  exact ⟨by simpa using whole, rfl, rfl⟩

/-- A list has the same pieces always, but for an empty one that may follow a full last one. -/
theorem Pieces.unique_or_padded (positive : 0 < size) (left : Pieces size items full last)
    (right : Pieces size items full' last') :
    (full = full' ∧ last = last') ∨ (full' = full ++ [last] ∧ last' = []) ∨
      (full = full' ++ [last'] ∧ last = []) := by
  induction full generalizing items full' with
  | nil =>
      have whole : last = items := left.whole
      subst whole
      cases full' with
      | nil => exact .inl ⟨rfl, right.whole.symm⟩
      | cons piece full' =>
          obtain ⟨rfl, rfl, rfl⟩ := right.singleton_of_cons positive left.fits
          exact .inr (.inl ⟨rfl, rfl⟩)
  | cons piece full ih =>
      cases full' with
      | nil =>
          have whole : last' = items := right.whole
          subst whole
          obtain ⟨rfl, rfl, rfl⟩ := left.singleton_of_cons positive right.fits
          exact .inr (.inr ⟨rfl, rfl⟩)
      | cons piece' full' =>
          have same := left.whole.trans right.whole.symm
          rw [List.flatten_cons, List.flatten_cons, List.append_assoc, List.append_assoc] at same
          obtain ⟨first, later⟩ := List.append_inj same
            ((left.exact piece List.mem_cons_self).trans
              (right.exact piece' List.mem_cons_self).symm)
          rcases ih ⟨rfl, fun other member => left.exact other (List.mem_cons_of_mem _ member),
              left.fits⟩ ⟨later.symm, fun other member =>
                right.exact other (List.mem_cons_of_mem _ member), right.fits⟩ with
            ⟨rfl, rfl⟩ | ⟨rfl, rfl⟩ | ⟨rfl, rfl⟩
          · exact .inl ⟨by rw [first], rfl⟩
          · exact .inr (.inl ⟨by rw [first, List.cons_append], rfl⟩)
          · exact .inr (.inr ⟨by rw [first, List.cons_append], rfl⟩)

end Chunking
