import Mathlib.Algebra.Group.Nat.Defs
import Mathlib.Data.List.Basic

/-!
# Lists numbered by a wrapping counter

A property of each entry together with its number, for entries numbered
consecutively by a 64-bit counter.
-/

set_option autoImplicit false

namespace Numbering

variable {α : Type}

/-- Every entry has the property at its own number, the first one at `start`. -/
def Numbered (property : UInt64 → α → Prop) (start : UInt64) (entries : List α) : Prop :=
  ∀ i entry, entries[i]? = some entry → property (start + UInt64.ofNat i) entry

variable {property : UInt64 → α → Prop} {start : UInt64}

theorem numbered_nil : Numbered property start [] := by
  intro i entry found
  simp at found

theorem add_ofNat_succ (start : UInt64) (i : Nat) :
    start + UInt64.ofNat (i + 1) = start + 1 + UInt64.ofNat i := by
  rw [UInt64.ofNat_add, UInt64.add_assoc, UInt64.add_comm (UInt64.ofNat i)]
  rfl

theorem numbered_cons_iff {entry : α} {entries : List α} :
    Numbered property start (entry :: entries) ↔
      property start entry ∧ Numbered property (start + 1) entries := by
  constructor
  · intro numbered
    refine ⟨by simpa using numbered 0 entry rfl, ?_⟩
    intro i other found
    rw [← add_ofNat_succ]
    exact numbered (i + 1) other found
  · rintro ⟨first, later⟩ i other found
    cases i with
    | zero =>
        cases found
        simpa using first
    | succ i =>
        rw [add_ofNat_succ]
        exact later i other found

theorem numbered_append_iff {early late : List α} :
    Numbered property start (early ++ late) ↔
      Numbered property start early ∧
        Numbered property (start + UInt64.ofNat early.length) late := by
  induction early generalizing start with
  | nil => simp [numbered_nil]
  | cons entry early ih =>
      rw [List.cons_append, numbered_cons_iff, ih, numbered_cons_iff, List.length_cons,
        add_ofNat_succ, and_assoc]

theorem numbered_singleton_iff {entry : α} :
    Numbered property start [entry] ↔ property start entry := by
  rw [numbered_cons_iff]
  exact and_iff_left numbered_nil

theorem Numbered.concat {entries : List α} {entry : α} (numbered : Numbered property start entries)
    (last : property (start + UInt64.ofNat entries.length) entry) :
    Numbered property start (entries ++ [entry]) :=
  numbered_append_iff.mpr ⟨numbered, numbered_singleton_iff.mpr last⟩

theorem Numbered.mono {weaker : UInt64 → α → Prop} {entries : List α}
    (numbered : Numbered property start entries)
    (weaken : ∀ number entry, entry ∈ entries → property number entry → weaker number entry) :
    Numbered weaker start entries := by
  intro i entry found
  exact weaken _ entry (List.mem_of_getElem? found) (numbered i entry found)

/-- A property that holds at some number of each entry. -/
theorem Numbered.exists_of_mem {entries : List α} (numbered : Numbered property start entries)
    {entry : α} (member : entry ∈ entries) : ∃ number, property number entry := by
  obtain ⟨i, found⟩ := List.mem_iff_getElem?.mp member
  exact ⟨_, numbered i entry found⟩

/-- Names from which the number can be read are distinct, as long as the counter has not
wrapped. -/
theorem Numbered.nodup_map {β : Type} {name : α → β} {entries : List α}
    (numbered : Numbered property 0 entries) (few : entries.length ≤ 2 ^ 64)
    (determines : ∀ number number' entry entry', property number entry →
      property number' entry' → name entry = name entry' → number = number') :
    (entries.map name).Nodup := by
  rw [List.Nodup, List.pairwise_iff_getElem]
  intro i j inside inside' earlier same
  rw [List.length_map] at inside inside'
  rw [List.getElem_map, List.getElem_map] at same
  have numbers := determines _ _ _ _ (numbered i _ (List.getElem?_eq_getElem inside))
    (numbered j _ (List.getElem?_eq_getElem inside')) same
  rw [UInt64.zero_add, UInt64.zero_add] at numbers
  have places := congrArg UInt64.toNat numbers
  rw [UInt64.toNat_ofNat_of_lt' (show i < 2 ^ 64 by omega),
    UInt64.toNat_ofNat_of_lt' (show j < 2 ^ 64 by omega)] at places
  omega

/-! ## Lists that end at their marked entry -/

/-- Two lists of which only the last entry is marked are equal when every entry of the
second one stands, as long as it can, at its own place in the first. -/
theorem eq_of_marked_last (marked : α → Prop) {early early' : List α} {last last' : α}
    (unmarked : ∀ entry ∈ early, ¬ marked entry) (unmarked' : ∀ entry ∈ early', ¬ marked entry)
    (ends : marked last) (ends' : marked last')
    (stands : ∀ i entry, i ≤ early.length → (early' ++ [last'])[i]? = some entry →
      (early ++ [last])[i]? = some entry) :
    early' ++ [last'] = early ++ [last] := by
  have final : (early ++ [last])[early.length]? = some last := by simp
  have final' : (early' ++ [last'])[early'.length]? = some last' := by simp
  have same : early'.length = early.length := by
    rcases Nat.lt_trichotomy early'.length early.length with shorter | same | longer
    · have found := stands early'.length last' (Nat.le_of_lt shorter) final'
      rw [List.getElem?_append_left shorter] at found
      exact absurd ends' (unmarked last' (List.mem_of_getElem? found))
    · exact same
    · have inside : (early' ++ [last'])[early.length]? = some early'[early.length] := by
        rw [List.getElem?_append_left longer, List.getElem?_eq_getElem longer]
      have found := stands early.length _ (Nat.le_refl _) inside
      rw [final] at found
      have member : last ∈ early' := by
        rw [Option.some.inj found]
        exact List.getElem_mem longer
      exact absurd ends (unmarked' last member)
  apply List.ext_getElem?
  intro i
  rcases Nat.lt_or_ge early.length i with outside | inside
  · rw [List.getElem?_eq_none (by simp; omega), List.getElem?_eq_none (by simp; omega)]
  · have found : (early' ++ [last'])[i]? = some ((early' ++ [last']).get ⟨i, by simp; omega⟩) :=
      List.getElem?_eq_getElem _
    rw [stands i _ inside found, found]

end Numbering
