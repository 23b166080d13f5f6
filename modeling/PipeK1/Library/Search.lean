import Mathlib.Logic.Function.Iterate

/-!
# Search by iteration

The first usable of `start`, `step start`, `step (step start)`, …, within a bound
on the rounds. A search that ends is not changed by a larger bound.
-/

set_option autoImplicit false

namespace Search

variable {α : Type} (usable : α → Prop) [DecidablePred usable] (step : α → α)

def search : Nat → α → Option α
  | 0, _ => none
  | rounds + 1, candidate =>
      if usable candidate then some candidate else search rounds (step candidate)

/-- `found` is the first usable candidate, after `count` steps. -/
structure FirstUsable (start : α) (count : Nat) (found : α) : Prop where
  reached : Nat.iterate step count start = found
  good : usable found
  first : ∀ earlier < count, ¬ usable (Nat.iterate step earlier start)

variable {usable step}

theorem search_eq_some_iff {rounds : Nat} {start found : α} :
    search usable step rounds start = some found ↔
      ∃ count < rounds, FirstUsable usable step start count found := by
  induction rounds generalizing start with
  | zero => simp [search]
  | succ rounds ih =>
      rw [search]
      by_cases good : usable start
      · rw [if_pos good]
        constructor
        · intro same
          cases same
          exact ⟨0, Nat.succ_pos _, rfl, good, fun _ none => absurd none (Nat.not_lt_zero _)⟩
        · rintro ⟨count, _, reached, _, first⟩
          cases count with
          | zero => exact congrArg some reached
          | succ count => exact absurd good (first 0 (Nat.succ_pos _))
      · rw [if_neg good, ih]
        constructor
        · rintro ⟨count, inside, reached, found, first⟩
          refine ⟨count + 1, Nat.succ_lt_succ inside, reached, found, fun earlier before => ?_⟩
          cases earlier with
          | zero => exact good
          | succ earlier => exact first earlier (Nat.lt_of_succ_lt_succ before)
        · rintro ⟨count, inside, reached, found, first⟩
          cases count with
          | zero =>
              cases reached
              exact absurd found good
          | succ count =>
              exact ⟨count, Nat.lt_of_succ_lt_succ inside, reached, found,
                fun earlier before => first (earlier + 1) (Nat.succ_lt_succ before)⟩

theorem search_eq_none_iff {rounds : Nat} {start : α} :
    search usable step rounds start = none ↔
      ∀ count < rounds, ¬ usable (Nat.iterate step count start) := by
  induction rounds generalizing start with
  | zero => simp [search]
  | succ rounds ih =>
      rw [search]
      by_cases good : usable start
      · rw [if_pos good]
        exact iff_of_false (Option.some_ne_none _) fun never => never 0 (Nat.succ_pos _) good
      · rw [if_neg good, ih]
        constructor
        · intro never count inside
          cases count with
          | zero => exact good
          | succ count => exact never count (Nat.lt_of_succ_lt_succ inside)
        · intro never count inside
          exact never (count + 1) (Nat.succ_lt_succ inside)

theorem search_mono {rounds rounds' : Nat} {start found : α} (more : rounds ≤ rounds')
    (ended : search usable step rounds start = some found) :
    search usable step rounds' start = some found := by
  obtain ⟨count, inside, first⟩ := search_eq_some_iff.mp ended
  exact search_eq_some_iff.mpr ⟨count, Nat.lt_of_lt_of_le inside more, first⟩

end Search
