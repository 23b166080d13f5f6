import Mathlib.Logic.Function.Iterate
import Mathlib.Tactic.IntervalCases

/-!
# The Gregorian calendar

Dates counted day by day from 1970-01-01, and the years that begin in March.
`dateOfDay` says what the date of a day is; `dateOfDay_marchDate` is the rule
that a formula for it is checked against.
-/

set_option autoImplicit false

namespace Gregorian

/-! ## Dates -/

def IsLeap (year : Nat) : Prop := year % 4 = 0 ∧ (year % 100 ≠ 0 ∨ year % 400 = 0)

instance (year : Nat) : Decidable (IsLeap year) := inferInstanceAs (Decidable (_ ∧ _))

def daysInMonth (year : Nat) : Nat → Nat
  | 2 => if IsLeap year then 29 else 28
  | 4 | 6 | 9 | 11 => 30
  | 1 | 3 | 5 | 7 | 8 | 10 | 12 => 31
  | _ => 0

structure Date where
  year : Nat
  month : Nat
  day : Nat
deriving DecidableEq

namespace Date

structure Valid (date : Date) : Prop where
  month_pos : 1 ≤ date.month
  month_le : date.month ≤ 12
  day_pos : 1 ≤ date.day
  day_le : date.day ≤ daysInMonth date.year date.month

/-- The date of the next day. -/
def next (date : Date) : Date :=
  if date.day < daysInMonth date.year date.month then { date with day := date.day + 1 }
  else if date.month < 12 then ⟨date.year, date.month + 1, 1⟩
  else ⟨date.year + 1, 1, 1⟩

end Date

def unixEpoch : Date := ⟨1970, 1, 1⟩

/-- The date `day` days after 1970-01-01. -/
def dateOfDay (day : Nat) : Date := Date.next^[day] unixEpoch

/-! ## Day numbers -/

def daysInYear (year : Nat) : Nat := if IsLeap year then 366 else 365

def daysBeforeYear : Nat → Nat
  | 0 => 0
  | year + 1 => daysBeforeYear year + daysInYear year

def daysBeforeMonth (year : Nat) : Nat → Nat
  | 0 => 0
  | month + 1 => daysBeforeMonth year month + daysInMonth year month

/-- The day of a date, counted from the beginning of year 0. -/
def Date.number (date : Date) : Nat :=
  daysBeforeYear date.year + daysBeforeMonth date.year date.month + date.day

theorem daysInYear_eq (year : Nat) : daysInYear year = daysBeforeMonth year 13 := by
  simp only [daysInYear, daysBeforeMonth, daysInMonth]
  split <;> rfl

theorem daysInMonth_pos (year : Nat) {month : Nat} (pos : 1 ≤ month) (le : month ≤ 12) :
    1 ≤ daysInMonth year month := by
  interval_cases month <;> simp only [daysInMonth, Nat.one_le_ofNat]
  split <;> decide

theorem daysInMonth_le (year month : Nat) : daysInMonth year month ≤ 31 := by
  unfold daysInMonth
  repeat' split
  all_goals decide

theorem daysBeforeYear_eq (year : Nat) : daysBeforeYear year =
    365 * year + (year + 3) / 4 - (year + 99) / 100 + (year + 399) / 400 := by
  induction year with
  | zero => rfl
  | succ year ih =>
      rw [daysBeforeYear, ih, daysInYear]
      by_cases leap : IsLeap year
      · rw [if_pos leap]
        unfold IsLeap at leap
        omega
      · rw [if_neg leap]
        unfold IsLeap at leap
        omega

namespace Date

variable {date : Date}

theorem valid_next (valid : date.Valid) : date.next.Valid := by
  obtain ⟨month_pos, month_le, day_pos, day_le⟩ := valid
  unfold next
  split
  · next inside => exact ⟨month_pos, month_le, Nat.le_add_left _ _, inside⟩
  · split
    · next more =>
        exact ⟨Nat.le_add_left _ _, more, Nat.le_refl 1,
          daysInMonth_pos _ (Nat.le_add_left _ _) more⟩
    · exact ⟨Nat.le_refl 1, Nat.le_add_left 1 11, Nat.le_refl 1, by simp [daysInMonth]⟩

theorem number_next (valid : date.Valid) : date.next.number = date.number + 1 := by
  obtain ⟨month_pos, month_le, day_pos, day_le⟩ := valid
  unfold next
  split
  · rfl
  · next last =>
      have last : date.day = daysInMonth date.year date.month := by omega
      split
      · simp only [number, daysBeforeMonth, last, Nat.add_assoc]
      · have december : date.month = 12 := by omega
        have length : daysInYear date.year =
            daysBeforeMonth date.year 12 + daysInMonth date.year 12 := daysInYear_eq date.year
        have january : daysBeforeMonth (date.year + 1) 1 = 0 := rfl
        simp only [number, last, december, daysBeforeYear, length, january, Nat.add_assoc,
          Nat.zero_add]

end Date

theorem dateOfDay_spec (day : Nat) :
    (dateOfDay day).Valid ∧ (dateOfDay day).number = unixEpoch.number + day := by
  induction day with
  | zero =>
      have first : dateOfDay 0 = unixEpoch := rfl
      rw [first, Nat.add_zero]
      exact ⟨⟨by decide, by decide, by decide, by decide⟩, rfl⟩
  | succ day ih =>
      obtain ⟨valid, number⟩ := ih
      have later : dateOfDay (day + 1) = (dateOfDay day).next :=
        Function.iterate_succ_apply' _ _ _
      rw [later, Date.number_next valid, number]
      exact ⟨Date.valid_next valid, Nat.add_assoc _ _ _⟩

/-! ### A day number has one date -/

theorem daysBeforeYear_mono {first second : Nat} (earlier : first ≤ second) :
    daysBeforeYear first ≤ daysBeforeYear second := by
  induction earlier with
  | refl => exact Nat.le_refl _
  | step _ ih => exact Nat.le_trans ih (Nat.le_add_right _ _)

theorem daysBeforeMonth_mono (year : Nat) {first second : Nat} (earlier : first ≤ second) :
    daysBeforeMonth year first ≤ daysBeforeMonth year second := by
  induction earlier with
  | refl => exact Nat.le_refl _
  | step _ ih => exact Nat.le_trans ih (Nat.le_add_right _ _)

namespace Date

variable {date other : Date}

/-- A date stands before the beginning of the next month. -/
theorem number_le_month (valid : date.Valid) :
    date.number ≤ daysBeforeYear date.year + daysBeforeMonth date.year (date.month + 1) := by
  have inside := valid.day_le
  rw [number, daysBeforeMonth]
  omega

theorem number_le_year (valid : date.Valid) : date.number ≤ daysBeforeYear (date.year + 1) := by
  have inside := number_le_month valid
  have december : daysBeforeMonth date.year (date.month + 1) ≤ daysBeforeMonth date.year 13 :=
    daysBeforeMonth_mono date.year (Nat.succ_le_succ valid.month_le)
  rw [daysBeforeYear, daysInYear_eq]
  omega

theorem year_le_of_number_eq (valid : date.Valid) (valid' : other.Valid)
    (same : date.number = other.number) : other.year ≤ date.year := by
  by_contra later
  have before := number_le_year valid
  have sorted : daysBeforeYear (date.year + 1) ≤ daysBeforeYear other.year :=
    daysBeforeYear_mono (Nat.lt_of_not_le later)
  have day := valid'.day_pos
  have number : other.number = daysBeforeYear other.year +
    daysBeforeMonth other.year other.month + other.day := rfl
  omega

theorem month_le_of_number_eq (valid : date.Valid) (valid' : other.Valid)
    (years : date.year = other.year) (same : date.number = other.number) :
    other.month ≤ date.month := by
  by_contra later
  have before := number_le_month valid
  have sorted : daysBeforeMonth date.year (date.month + 1) ≤ daysBeforeMonth date.year other.month :=
    daysBeforeMonth_mono date.year (Nat.lt_of_not_le later)
  have day := valid'.day_pos
  have number : other.number = daysBeforeYear other.year +
    daysBeforeMonth other.year other.month + other.day := rfl
  rw [years] at before sorted
  omega

theorem eq_of_number_eq (valid : date.Valid) (valid' : other.Valid)
    (same : date.number = other.number) : date = other := by
  have years : date.year = other.year := Nat.le_antisymm
    (year_le_of_number_eq valid' valid same.symm) (year_le_of_number_eq valid valid' same)
  have months : date.month = other.month := Nat.le_antisymm
    (month_le_of_number_eq valid' valid years.symm same.symm)
    (month_le_of_number_eq valid valid' years same)
  have days : date.day = other.day := by
    simp only [number, years, months] at same
    exact Nat.add_left_cancel same
  cases date
  cases other
  simp only at years months days
  rw [years, months, days]

end Date

/-! ## Years that begin in March -/

/-- The number of days from 0000-03-01 to the first of March of `year`. -/
def marchStart (year : Nat) : Nat := 365 * year + year / 4 - year / 100 + year / 400

/-- The date of a day of the year that begins in March of `year`. -/
def marchDate (year dayOfYear : Nat) : Date :=
  let month := (5 * dayOfYear + 2) / 153
  let day := dayOfYear - (153 * month + 2) / 5 + 1
  if month < 10 then ⟨year, month + 3, day⟩ else ⟨year + 1, month - 9, day⟩

theorem daysBeforeYear_march (year : Nat) : daysBeforeYear (year + 1) = marchStart year + 366 := by
  rw [daysBeforeYear_eq, marchStart]
  omega

theorem month_marchDate (year dayOfYear : Nat) :
    (marchDate year dayOfYear).month = (marchDate 0 dayOfYear).month := by
  unfold marchDate
  dsimp only
  split <;> rfl

theorem marchStart_succ (year : Nat) :
    marchStart (year + 1) = marchStart year + daysInYear (year + 1) := by
  have current := daysBeforeYear_march year
  have following := daysBeforeYear_march (year + 1)
  rw [daysBeforeYear] at following
  omega

theorem marchStart_mono {first second : Nat} (earlier : first ≤ second) :
    marchStart first ≤ marchStart second := by
  induction earlier with
  | refl => exact Nat.le_refl _
  | step _ ih =>
      rw [marchStart_succ]
      exact Nat.le_trans ih (Nat.le_add_right _ _)

/-- Every day falls into one year that begins in March. -/
theorem exists_marchYear (day : Nat) : ∃ year, marchStart year ≤ day ∧ day < marchStart (year + 1) := by
  induction day with
  | zero => exact ⟨0, Nat.le_refl 0, by decide⟩
  | succ day ih =>
      obtain ⟨year, begun, before⟩ := ih
      by_cases last : day + 1 < marchStart (year + 1)
      · exact ⟨year, by omega, last⟩
      · have longer := marchStart_succ (year + 1)
        have days : 365 ≤ daysInYear (year + 1 + 1) := by
          unfold daysInYear
          split <;> decide
        exact ⟨year + 1, by omega, by omega⟩

theorem marchStart_cycle (cycles year : Nat) :
    marchStart (400 * cycles + year) = 146097 * cycles + marchStart year := by
  unfold marchStart
  omega

/-- The months from March on, `month` counted from there. -/
theorem marchMonth_spec {dayOfYear month : Nat} (small : dayOfYear < 366)
    (month_eq : month = (5 * dayOfYear + 2) / 153) :
    (153 * month + 2) / 5 ≤ dayOfYear ∧ month ≤ 11 ∧
      (month < 10 → dayOfYear - (153 * month + 2) / 5 + 1 ≤ daysInMonth 0 (month + 3) ∧
        (153 * month + 2) / 5 + 60 = daysBeforeMonth 0 (month + 3)) ∧
      (¬ month < 10 → dayOfYear - (153 * month + 2) / 5 + 1 ≤ daysInMonth 0 (month - 9) ∧
        (153 * month + 2) / 5 = daysBeforeMonth 0 (month - 9) + 306) := by
  have last : month ≤ 11 := by omega
  refine ⟨by omega, last, fun early => ?_, fun late => ?_⟩
  · have start : (153 * month + 2) / 5 + 60 = daysBeforeMonth 0 (month + 3) := by
      interval_cases month <;> rfl
    have length : (153 * (month + 1) + 2) / 5 = (153 * month + 2) / 5 + daysInMonth 0 (month + 3) := by
      interval_cases month <;> rfl
    exact ⟨by omega, start⟩
  · have winter : month = 10 ∨ month = 11 := by omega
    rcases winter with rfl | rfl
    · have january : daysInMonth 0 (10 - 9) = 31 := rfl
      exact ⟨by omega, rfl⟩
    · have february : daysInMonth 0 (11 - 9) = 29 := rfl
      exact ⟨by omega, rfl⟩

/-- Only February depends on the year. -/
theorem daysInMonth_of_ne (year : Nat) {month : Nat} (other : month ≠ 2) :
    daysInMonth year month = daysInMonth 0 month := by
  unfold daysInMonth
  split
  case h_1 => contradiction
  all_goals rfl

theorem daysBeforeMonth_march (year : Nat) {month : Nat} (march : 3 ≤ month) :
    daysBeforeMonth year month + 366 = daysBeforeMonth 0 month + daysInYear year := by
  induction month, march using Nat.le_induction with
  | base =>
      simp only [daysBeforeMonth, daysInMonth, daysInYear]
      split <;> rfl
  | succ month march ih =>
      have other : month ≠ 2 := by omega
      rw [daysBeforeMonth, daysBeforeMonth, daysInMonth_of_ne year other]
      omega

theorem daysBeforeMonth_winter (year : Nat) {month : Nat} (winter : month ≤ 2) :
    daysBeforeMonth year month = daysBeforeMonth 0 month := by
  interval_cases month <;> rfl

theorem marchDate_spec (year : Nat) {dayOfYear : Nat} (inside : dayOfYear < daysInYear (year + 1)) :
    (marchDate year dayOfYear).Valid ∧
      (marchDate year dayOfYear).number = marchStart year + dayOfYear + 61 := by
  have small : dayOfYear < 366 := by
    unfold daysInYear at inside
    split at inside <;> omega
  have years := daysBeforeYear_march year
  rw [marchDate]
  generalize month_eq : (5 * dayOfYear + 2) / 153 = month
  obtain ⟨before, last, autumn, winter⟩ := marchMonth_spec small month_eq.symm
  split
  · next early =>
      obtain ⟨days, offset⟩ := autumn early
      have march := daysBeforeMonth_march year (show 3 ≤ month + 3 by omega)
      have length := daysInMonth_of_ne year (show month + 3 ≠ 2 by omega)
      rw [daysBeforeYear] at years
      refine ⟨⟨by simp, by simp; omega, by simp, by simp only [length]; exact days⟩, ?_⟩
      simp only [Date.number]
      omega
  · next late =>
      obtain ⟨days, offset⟩ := winter late
      have january := daysBeforeMonth_winter (year + 1) (show month - 9 ≤ 2 by omega)
      have length : dayOfYear - (153 * month + 2) / 5 + 1 ≤ daysInMonth (year + 1) (month - 9) := by
        by_cases february : month - 9 = 2
        · rw [february, daysInMonth]
          rw [daysInYear] at inside
          by_cases leap : IsLeap (year + 1)
          · rw [if_pos leap] at inside ⊢
            omega
          · rw [if_neg leap] at inside ⊢
            omega
        · rw [daysInMonth_of_ne _ february]
          exact days
      refine ⟨⟨by simp; omega, by simp; omega, by simp, length⟩, ?_⟩
      simp only [Date.number, january]
      omega

theorem dateOfDay_marchDate {day year dayOfYear : Nat}
    (inside : dayOfYear < daysInYear (year + 1))
    (number : marchStart year + dayOfYear = day + 719468) :
    dateOfDay day = marchDate year dayOfYear := by
  obtain ⟨valid, number'⟩ := marchDate_spec year inside
  obtain ⟨valid', number''⟩ := dateOfDay_spec day
  refine Date.eq_of_number_eq valid' valid ?_
  have epoch : unixEpoch.number = 719529 := by
    simp only [unixEpoch, Date.number, daysBeforeYear_eq, daysBeforeMonth, daysInMonth]
  omega

end Gregorian
