import PipeK1.Library.Gregorian
import PipeK1.ShimContract

/-!
# The date of a signature

The date on the `VALIDSIG` line against the calendar. The divisors that turn a
day of a 400-year cycle into a year are off, so the last days of a year that
ends in February can count as the next year.
-/

set_option autoImplicit false

namespace PipeK1

open ByteData ByteReader Effects Gregorian

variable {crates : Crates} {host : Host}

/-! ## The computation, step by step -/

def eraOf (timestamp : UInt32) : Int :=
  let z : Int := (timestamp / 86400).toNat + 719468
  (if z ≥ 0 then z else z - 146096).tdiv 146097

def dayOfEra (timestamp : UInt32) : UInt32 :=
  UInt32.ofInt ((timestamp / 86400).toNat + 719468 - eraOf timestamp * 146097)

def yearOfEra (doe : UInt32) : UInt32 := (doe - doe / 1024 + doe / 1461 - doe / 142401) / 365

def dayOfYear (doe : UInt32) : UInt32 :=
  doe - (365 * yearOfEra doe + yearOfEra doe / 4 - yearOfEra doe / 100)

/-- The month, counted from March. -/
def monthIndex (doe : UInt32) : UInt32 := (5 * dayOfYear doe + 2) / 153

theorem civilDate_eq (timestamp : UInt32) :
    civilDate timestamp =
      (let doe := dayOfEra timestamp
       let year : Int := (yearOfEra doe).toNat + eraOf timestamp * 400
       let day := dayOfYear doe - (153 * monthIndex doe + 2) / 5 + 1
       let month := if monthIndex doe < 10 then monthIndex doe + 3 else monthIndex doe - 9
       (if month ≤ 2 then year + 1 else year, month, day)) := rfl

/-- No unsigned subtraction of the computation goes below zero. -/
structure NoUnderflow (doe : UInt32) : Prop where
  quadrennia : doe / 1024 ≤ doe
  cycles : doe / 142401 ≤ doe - doe / 1024 + doe / 1461
  centuries : yearOfEra doe / 100 ≤ 365 * yearOfEra doe + yearOfEra doe / 4
  year : 365 * yearOfEra doe + yearOfEra doe / 4 - yearOfEra doe / 100 ≤ doe
  month : (153 * monthIndex doe + 2) / 5 ≤ dayOfYear doe
  winter : ¬ monthIndex doe < 10 → 9 ≤ monthIndex doe

/-! ## The year of a day -/

/-- The days of a 400-year cycle less those of February 29, as the source counts them. -/
def commonDays (day : Nat) : Nat := day - day / 1024 + day / 1461 - day / 142401

/-- The day of a 400-year cycle that begins on the first of March. -/
def cycleDay (day : Nat) : Nat := (day + 719468) % 146097

/-- The source's count says of every first of March whether it has come. -/
def Punctual (day : Nat) : Prop :=
  ∀ years, cycleDay day < marchStart years ↔ commonDays (cycleDay day) < 365 * years

theorem commonDays_succ {day : Nat} (small : day < 146096) :
    commonDays day ≤ commonDays (day + 1) := by
  have quadrennia : (day + 1) / 1024 ≤ day / 1024 + 1 := by omega
  have leapYears : day / 1461 ≤ (day + 1) / 1461 := by omega
  have cycles : (day + 1) / 142401 = day / 142401 ∨ day = 142400 := by omega
  unfold commonDays
  rcases cycles with same | rfl
  · generalize (day + 1) / 1024 = later at *
    generalize (day + 1) / 1461 = later' at *
    omega
  · decide

theorem commonDays_mono {first second : Nat} (earlier : first ≤ second) (small : second < 146097) :
    commonDays first ≤ commonDays second := by
  induction earlier with
  | refl => exact Nat.le_refl _
  | @step second _ ih =>
      have inside : second < 146096 := Nat.lt_of_succ_lt_succ small
      exact Nat.le_trans (ih (Nat.lt_succ_of_lt inside)) (commonDays_succ inside)

theorem commonDays_marchStart : ∀ years < 400, years ≠ 3 →
    365 * years ≤ commonDays (marchStart years) := by
  decide +kernel

/-- Only one first of March is counted a day late. -/
theorem eq_of_late {day years : Nat} (small : day < 146097) (begun : marchStart years ≤ day)
    (late : commonDays day < 365 * years) : day = 1095 := by
  have early : years < 400 := by
    by_contra last
    have cycle : marchStart 400 ≤ marchStart years := marchStart_mono (Nat.le_of_not_lt last)
    have length : marchStart 400 = 146097 := rfl
    omega
  by_cases third : years = 3
  · subst third
    by_contra other
    have next : 1096 ≤ day := by
      have start : marchStart 3 = 1095 := rfl
      omega
    have counted : 1095 ≤ commonDays day := commonDays_mono next small
    omega
  · have counted := commonDays_marchStart years early third
    have later := commonDays_mono begun small
    omega

theorem yearStart_mono {first second : Nat} (earlier : first ≤ second) :
    365 * first + first / 4 - first / 100 ≤ 365 * second + second / 4 - second / 100 := by
  induction earlier with
  | refl => exact Nat.le_refl _
  | step _ ih => omega

/-- A year that has not begun starts after the day, except on the last day of a cycle. -/
theorem eq_of_early {day years counted : Nat} (small : day < 146097)
    (before : day < marchStart years) (early : years ≤ counted)
    (begun : 365 * counted + counted / 4 - counted / 100 ≤ day) : day = 146096 := by
  have sorted := yearStart_mono early
  unfold marchStart at before
  have last : 400 ≤ years := by omega
  have cycle := yearStart_mono last
  omega

/-- The count is punctual on the days whose year it gets right. -/
theorem punctual_iff {day year : Nat} (begun : marchStart year ≤ cycleDay day)
    (before : cycleDay day < marchStart (year + 1)) :
    Punctual day ↔ commonDays (cycleDay day) / 365 = year := by
  constructor
  · intro punctual
    have lower : ¬ commonDays (cycleDay day) < 365 * year := fun late =>
      Nat.not_lt_of_le begun ((punctual year).mpr late)
    have upper := (punctual (year + 1)).mp before
    omega
  · rintro rfl years
    constructor
    · intro ahead
      by_contra counted
      have sorted := marchStart_mono (show years ≤ commonDays (cycleDay day) / 365 by omega)
      omega
    · intro counted
      have sorted := marchStart_mono (show commonDays (cycleDay day) / 365 + 1 ≤ years by omega)
      omega

/-! ## Machine arithmetic -/

theorem toNat_dayOfEra (timestamp : UInt32) :
    (dayOfEra timestamp).toNat = cycleDay (timestamp.toNat / 86400) ∧
      eraOf timestamp = ((timestamp.toNat / 86400 + 719468) / 146097 : Nat) := by
  have days : (timestamp / 86400).toNat = timestamp.toNat / 86400 := UInt32.toNat_div _ _
  have era : eraOf timestamp = ((timestamp.toNat / 86400 + 719468) / 146097 : Nat) := by
    have nonneg : ((timestamp.toNat / 86400 : Nat) : Int) + 719468 ≥ 0 := by omega
    unfold eraOf
    rw [days]
    dsimp only
    rw [if_pos nonneg, Int.tdiv_eq_ediv_of_nonneg nonneg]
    omega
  refine ⟨?_, era⟩
  have offset : ((timestamp.toNat / 86400 : Nat) : Int) + 719468 - eraOf timestamp * 146097 =
      (cycleDay (timestamp.toNat / 86400) : Nat) := by
    rw [era, cycleDay]
    omega
  have small : cycleDay (timestamp.toNat / 86400) < 2 ^ 32 :=
    Nat.lt_trans (Nat.mod_lt _ (by decide)) (by decide)
  have whole : ((cycleDay (timestamp.toNat / 86400) : Int) % 2 ^ 32).toNat =
      cycleDay (timestamp.toNat / 86400) := by omega
  rw [dayOfEra, days, offset, UInt32.ofInt, whole]
  exact UInt32.toNat_ofNat_of_lt' small

section Machine

variable {doe : UInt32} (small : doe.toNat < 146097)
include small

/-- The subtractions on the way to the year do not underflow. -/
theorem yearOfEra_spec :
    doe / 1024 ≤ doe ∧ doe / 142401 ≤ doe - doe / 1024 + doe / 1461 ∧
      (yearOfEra doe).toNat = commonDays doe.toNat / 365 := by
  have quadrennia : doe / 1024 ≤ doe := by
    rw [UInt32.le_iff_toNat_le, UInt32.toNat_div]
    exact Nat.div_le_self _ _
  have first : (doe - doe / 1024).toNat = doe.toNat - doe.toNat / 1024 := by
    rw [UInt32.toNat_sub_of_le _ _ quadrennia, UInt32.toNat_div]
    rfl
  have second : (doe - doe / 1024 + doe / 1461).toNat =
      doe.toNat - doe.toNat / 1024 + doe.toNat / 1461 := by
    rw [UInt32.toNat_add, first, UInt32.toNat_div]
    change (doe.toNat - doe.toNat / 1024 + doe.toNat / 1461) % 2 ^ 32 = _
    omega
  have third : (doe / 142401).toNat = doe.toNat / 142401 := UInt32.toNat_div _ _
  have cycles : doe / 142401 ≤ doe - doe / 1024 + doe / 1461 := by
    rw [UInt32.le_iff_toNat_le, second, third]
    omega
  refine ⟨quadrennia, cycles, ?_⟩
  rw [yearOfEra, UInt32.toNat_div, UInt32.toNat_sub_of_le _ _ cycles, second, third]
  rfl

theorem startOfYear_spec :
    yearOfEra doe / 100 ≤ 365 * yearOfEra doe + yearOfEra doe / 4 ∧
      (365 * yearOfEra doe + yearOfEra doe / 4 - yearOfEra doe / 100).toNat =
        365 * (yearOfEra doe).toNat + (yearOfEra doe).toNat / 4 -
          (yearOfEra doe).toNat / 100 := by
  have bound : (yearOfEra doe).toNat ≤ 401 := by
    rw [(yearOfEra_spec small).2.2, commonDays]
    omega
  generalize yearOfEra doe = year at *
  have days : (365 * year).toNat = 365 * year.toNat := by
    rw [UInt32.toNat_mul]
    change 365 * year.toNat % 2 ^ 32 = _
    omega
  have leap : (365 * year + year / 4).toNat = 365 * year.toNat + year.toNat / 4 := by
    rw [UInt32.toNat_add, days, UInt32.toNat_div]
    change (365 * year.toNat + year.toNat / 4) % 2 ^ 32 = _
    omega
  have century : (year / 100).toNat = year.toNat / 100 := UInt32.toNat_div _ _
  have centuries : year / 100 ≤ 365 * year + year / 4 := by
    rw [UInt32.le_iff_toNat_le, leap, century]
    omega
  exact ⟨centuries, by rw [UInt32.toNat_sub_of_le _ _ centuries, leap, century]⟩

end Machine

/-! ## Dates -/

theorem dateOfDay_cycle {day year : Nat} (begun : marchStart year ≤ cycleDay day)
    (before : cycleDay day < marchStart (year + 1)) :
    dateOfDay day = marchDate (400 * ((day + 719468) / 146097) + year)
      (cycleDay day - marchStart year) := by
  have position : cycleDay day + 146097 * ((day + 719468) / 146097) = day + 719468 :=
    Nat.mod_add_div _ _
  generalize (day + 719468) / 146097 = cycles at position ⊢
  have current := marchStart_cycle cycles year
  have following := marchStart_cycle cycles (year + 1)
  have length := marchStart_succ (400 * cycles + year)
  rw [← Nat.add_assoc] at following
  exact dateOfDay_marchDate (by omega) (by omega)

/-- The computed date is that of the day, and no subtraction on the way underflows. -/
structure DatesDay (timestamp : UInt32) : Prop where
  year : (civilDate timestamp).1 = (dateOfDay (timestamp.toNat / 86400)).year
  month : (civilDate timestamp).2.1.toNat = (dateOfDay (timestamp.toNat / 86400)).month
  day : (civilDate timestamp).2.2.toNat = (dateOfDay (timestamp.toNat / 86400)).day
  noUnderflow : NoUnderflow (dayOfEra timestamp)

/-- The month and the day of a date, for the machine's numbers. -/
theorem monthIndex_spec {doe : UInt32} {dayInYear : Nat} (days : (dayOfYear doe).toNat = dayInYear)
    (small : dayInYear < 366) :
    (monthIndex doe).toNat = (5 * dayInYear + 2) / 153 ∧
      (153 * monthIndex doe + 2) / 5 ≤ dayOfYear doe ∧
      (dayOfYear doe - (153 * monthIndex doe + 2) / 5 + 1).toNat =
        dayInYear - (153 * ((5 * dayInYear + 2) / 153) + 2) / 5 + 1 := by
  have month : (monthIndex doe).toNat = (5 * dayInYear + 2) / 153 := by
    rw [monthIndex, UInt32.toNat_div, UInt32.toNat_add, UInt32.toNat_mul, days]
    change (5 * dayInYear % 2 ^ 32 + 2) % 2 ^ 32 / 153 = _
    omega
  have start : ((153 * monthIndex doe + 2) / 5).toNat =
      (153 * ((5 * dayInYear + 2) / 153) + 2) / 5 := by
    rw [UInt32.toNat_div, UInt32.toNat_add, UInt32.toNat_mul, month]
    change (153 * ((5 * dayInYear + 2) / 153) % 2 ^ 32 + 2) % 2 ^ 32 / 5 = _
    omega
  have before : (153 * monthIndex doe + 2) / 5 ≤ dayOfYear doe := by
    rw [UInt32.le_iff_toNat_le, start, days]
    omega
  refine ⟨month, before, ?_⟩
  rw [UInt32.toNat_add, UInt32.toNat_sub_of_le _ _ before, start, days]
  change (dayInYear - (153 * ((5 * dayInYear + 2) / 153) + 2) / 5 + 1) % 2 ^ 32 = _
  omega

/-- With the right year the whole date is right. -/
theorem datesDay_of_year {timestamp : UInt32} {year : Nat}
    (begun : marchStart year ≤ cycleDay (timestamp.toNat / 86400))
    (before : cycleDay (timestamp.toNat / 86400) < marchStart (year + 1))
    (counted : (yearOfEra (dayOfEra timestamp)).toNat = year) : DatesDay timestamp := by
  have date := dateOfDay_cycle begun before
  obtain ⟨position, era⟩ := toNat_dayOfEra timestamp
  have small : (dayOfEra timestamp).toNat < 146097 := by
    rw [position]
    exact Nat.mod_lt _ (by decide)
  obtain ⟨quadrennia, cycles, _⟩ := yearOfEra_spec small
  obtain ⟨centuries, start⟩ := startOfYear_spec small
  generalize cycleDay (timestamp.toNat / 86400) = day at *
  have early : year < 400 := by
    by_contra last
    have cycle : marchStart 400 ≤ marchStart year := marchStart_mono (Nat.le_of_not_lt last)
    have length : marchStart 400 = 146097 := rfl
    omega
  have common : marchStart year = 365 * year + year / 4 - year / 100 := by
    unfold marchStart
    omega
  rw [counted, ← common] at start
  have yearStart : 365 * yearOfEra (dayOfEra timestamp) + yearOfEra (dayOfEra timestamp) / 4 -
      yearOfEra (dayOfEra timestamp) / 100 ≤ dayOfEra timestamp := by
    rw [UInt32.le_iff_toNat_le, start, position]
    exact begun
  have days : (dayOfYear (dayOfEra timestamp)).toNat = day - marchStart year := by
    rw [dayOfYear, UInt32.toNat_sub_of_le _ _ yearStart, start, position]
  have inside : day - marchStart year < 366 := by
    have length := marchStart_succ year
    have long : daysInYear (year + 1) ≤ 366 := by
      unfold daysInYear
      split <;> decide
    omega
  obtain ⟨month, monthStart, dayOfMonth⟩ := monthIndex_spec days inside
  have winter : ¬ monthIndex (dayOfEra timestamp) < 10 → 9 ≤ monthIndex (dayOfEra timestamp) := by
    intro late
    rw [UInt32.lt_iff_toNat_lt] at late
    rw [UInt32.le_iff_toNat_le]
    exact Nat.le_trans (by decide) (Nat.le_of_not_lt late)
  have noUnderflow : NoUnderflow (dayOfEra timestamp) :=
    ⟨quadrennia, cycles, centuries, yearStart, monthStart, winter⟩
  have years : ((yearOfEra (dayOfEra timestamp)).toNat : Int) + eraOf timestamp * 400 =
      (400 * ((timestamp.toNat / 86400 + 719468) / 146097) + year : Nat) := by
    rw [counted, era]
    omega
  rw [marchDate] at date
  by_cases early : (5 * (day - marchStart year) + 2) / 153 < 10
  · have spring : monthIndex (dayOfEra timestamp) < 10 := by
      rw [UInt32.lt_iff_toNat_lt, month]
      exact early
    have number : (monthIndex (dayOfEra timestamp) + 3).toNat =
        (5 * (day - marchStart year) + 2) / 153 + 3 := by
      rw [UInt32.toNat_add, month]
      exact Nat.mod_eq_of_lt (show (5 * (day - marchStart year) + 2) / 153 + 3 < 2 ^ 32 by omega)
    have afterFebruary : ¬ monthIndex (dayOfEra timestamp) + 3 ≤ 2 := by
      rw [UInt32.le_iff_toNat_le, number]
      exact Nat.not_le_of_lt (Nat.lt_of_lt_of_le (by decide) (Nat.le_add_left 3 _))
    rw [if_pos early] at date
    refine ⟨?_, ?_, ?_, noUnderflow⟩
    all_goals rw [civilDate_eq, date]
    · simp only [spring, afterFebruary, ↓reduceIte, years]
    · simp only [spring, ↓reduceIte, number]
    · exact dayOfMonth
  · have notSpring : ¬ monthIndex (dayOfEra timestamp) < 10 := by
      rw [UInt32.lt_iff_toNat_lt, month]
      exact early
    have number : (monthIndex (dayOfEra timestamp) - 9).toNat =
        (5 * (day - marchStart year) + 2) / 153 - 9 := by
      rw [UInt32.toNat_sub_of_le _ _ (winter notSpring), month]
      rfl
    have january : monthIndex (dayOfEra timestamp) - 9 ≤ 2 := by
      rw [UInt32.le_iff_toNat_le, number]
      change _ ≤ 2
      omega
    rw [if_neg early] at date
    refine ⟨?_, ?_, ?_, noUnderflow⟩
    all_goals rw [civilDate_eq, date]
    · simp only [notSpring, january, ↓reduceIte, years]
      rfl
    · simp only [notSpring, ↓reduceIte, number]
    · exact dayOfMonth

/-- With another year the date is wrong, or a subtraction underflows. -/
theorem not_datesDay_of_year {timestamp : UInt32} {year : Nat}
    (begun : marchStart year ≤ cycleDay (timestamp.toNat / 86400))
    (before : cycleDay (timestamp.toNat / 86400) < marchStart (year + 1))
    (miscounted : (yearOfEra (dayOfEra timestamp)).toNat ≠ year) : ¬ DatesDay timestamp := by
  intro dated
  have date := dateOfDay_cycle begun before
  have month := dated.month
  obtain ⟨position, era⟩ := toNat_dayOfEra timestamp
  have small : (dayOfEra timestamp).toNat < 146097 := by
    rw [position]
    exact Nat.mod_lt _ (by decide)
  have start := dated.noUnderflow.year
  rw [UInt32.le_iff_toNat_le, (startOfYear_spec small).2, position] at start
  have counted := (yearOfEra_spec small).2.2
  rw [position] at small counted
  rw [civilDate_eq, date] at month
  -- Only two days of a cycle are dated without an underflow.
  rcases Nat.lt_or_gt_of_ne miscounted with late | early
  · have last : cycleDay (timestamp.toNat / 86400) = 1095 := eq_of_late small begun (by omega)
    have doe : dayOfEra timestamp = 1095 := UInt32.toNat_inj.mp (position.trans last)
    have third : year = 3 := by
      rw [last] at begun before
      unfold marchStart at begun before
      omega
    rw [doe, last, third, month_marchDate] at month
    dsimp only at month
    exact absurd month (by decide)
  · have last : cycleDay (timestamp.toNat / 86400) = 146096 := eq_of_early small before early start
    have doe : dayOfEra timestamp = 146096 := UInt32.toNat_inj.mp (position.trans last)
    have final : year = 399 := by
      rw [last] at begun before
      unfold marchStart at begun before
      omega
    rw [doe, last, final, month_marchDate] at month
    dsimp only at month
    exact absurd month (by decide)

/-- The date is right, without underflow, exactly on the days that are counted to their year. -/
theorem datesDay_iff (timestamp : UInt32) :
    DatesDay timestamp ↔ Punctual (timestamp.toNat / 86400) := by
  obtain ⟨year, begun, before⟩ := exists_marchYear (cycleDay (timestamp.toNat / 86400))
  have position := (toNat_dayOfEra timestamp).1
  have counted : (yearOfEra (dayOfEra timestamp)).toNat =
      commonDays (cycleDay (timestamp.toNat / 86400)) / 365 := by
    rw [← position]
    refine (yearOfEra_spec ?_).2.2
    rw [position]
    exact Nat.mod_lt _ (by decide)
  rw [punctual_iff begun before, ← counted]
  constructor
  · intro dated
    by_contra miscounted
    exact not_datesDay_of_year begun before miscounted dated
  · intro right
    exact datesDay_of_year begun before right

/-! ## The status line -/

/-- `YYYY-MM-DD` -/
def isoDate (date : Date) : String :=
  Text.padDecimal 4 date.year ++ "-" ++ Text.padDecimal 2 date.month ++ "-" ++
    Text.padDecimal 2 date.day

theorem DatesDay.dateStr_eq {timestamp : UInt32} (dated : DatesDay timestamp) :
    dateStr timestamp = isoDate (dateOfDay (timestamp.toNat / 86400)) := by
  have notNegative : ¬ (civilDate timestamp).1 < 0 := by
    rw [dated.year]
    omega
  change padYear (civilDate timestamp).1 ++ "-" ++
    Text.padDecimal 2 (civilDate timestamp).2.1.toNat ++ "-" ++
    Text.padDecimal 2 (civilDate timestamp).2.2.toNat = _
  rw [padYear, if_neg notNegative, dated.year, dated.month, dated.day]
  rfl

/-- The report on a good signature, with this date on the `VALIDSIG` line. -/
def datedReport (crates : Crates) (host : Host) (payload : SignaturePayload) (date : Date) :
    String :=
  let signerPk := payload.slice 9 32 payload_signer
  let hexPk := crates.encodings.hexEncode signerPk.toList
  let timestamp := u32FromBe (payload.slice 5 4 payload_timestamp)
  let trust := signerTrust crates host signerPk
  newSigLine ++ (goodSigLine hexPk trust.1 ++
    (validSigLine hexPk (isoDate date) timestamp ++ trustLine trust.2))

/-- The `VALIDSIG` line has the date of the signature's day, a month from 1 to 12 and a day from
1 to 31, and the computation of the date does not underflow. -/
structure DatesSignature (crates : Crates) (host : Host) (payload : SignaturePayload)
    (report : String) : Prop where
  reported : report = datedReport crates host payload
    (dateOfDay ((u32FromBe (payload.slice 5 4)).toNat / 86400))
  dated : DatesDay (u32FromBe (payload.slice 5 4))
  ranges : let (_, month, day) := civilDate (u32FromBe (payload.slice 5 4))
    (1 ≤ month ∧ month ≤ 12) ∧ 1 ≤ day ∧ day ≤ 31

theorem DatesDay.ranges {timestamp : UInt32} (dated : DatesDay timestamp) :
    (1 ≤ (civilDate timestamp).2.1 ∧ (civilDate timestamp).2.1 ≤ 12) ∧
      1 ≤ (civilDate timestamp).2.2 ∧ (civilDate timestamp).2.2 ≤ 31 := by
  obtain ⟨valid, _⟩ := dateOfDay_spec (timestamp.toNat / 86400)
  have long := Nat.le_trans valid.day_le (daysInMonth_le _ _)
  simp only [UInt32.le_iff_toNat_le, dated.month, dated.day]
  exact ⟨⟨valid.month_pos, valid.month_le⟩, valid.day_pos, long⟩

/-- A verification of a good signature dates it right exactly on the days that the source's count
of days assigns to their year. -/
theorem validSig_date_iff (crates : Crates) (host : Host) (args : List String) (stdin : Reader)
    (sigRaw data : Bytes) (run : ReadableRun host args stdin sigRaw data)
    (payload : SignaturePayload) (detached : detachArmor crates sigRaw = .ok payload.toList)
    (verifies : PayloadVerifies crates payload (crates.digests.sha256 data)) :
    DatesSignature crates host payload
        (reported (runGitShim crates host args (Process.start stdin))).statusOutput ↔
      Punctual ((u32FromBe (payload.slice 5 4)).toNat / 86400) := by
  rw [← datesDay_iff]
  constructor
  · exact fun dates => dates.dated
  · intro dated
    obtain ⟨fd, statusFd, opened⟩ := run.status
    have checking :=
      @checkPayload_ends crates host _ fd payload.toList data stdin statusFd opened run.data
    have good : (reported (runGitShim crates host args (Process.start stdin))).statusOutput =
        goodReport crates host payload := by
      rw [run.runGitShim_eq, detached, bind_of_ok (show orFail id (.ok payload.toList) _ =
        .ok payload.toList _ from rfl)]
      cases outcome : checkPayload crates host (scanShim {} args) payload.toList
          (Process.start stdin) with
      | ok value process =>
          obtain ⟨payload', same, _, report⟩ := checking.ok outcome
          rw [FixedBytes.ext same] at report
          exact report
      | error stop process =>
          obtain ⟨_, ⟨misfit, _⟩ | ⟨payload', same, refuted, _⟩⟩ := checking.error outcome
          · exact absurd payload.length_toList misfit
          · rw [FixedBytes.ext same] at refuted
            exact absurd verifies refuted
    refine ⟨?_, dated, dated.ranges⟩
    rw [good, datedReport, ← dated.dateStr_eq]
    rfl

section Sample

open Reference

/-- A signature of the key 3 over five bytes with this timestamp. -/
theorem exists_datedPayload (timestamp : UInt32) :
    ∃ payload : SignaturePayload, u32FromBe (payload.slice 5 4) = timestamp ∧
      detachArmor packages payload.toList = .ok payload.toList ∧
      PayloadVerifies packages payload (packages.digests.sha256 sampleData) := by
  obtain ⟨payload, _, signed, detached⟩ := exists_samplePayload timestamp
  exact ⟨payload, signed.timestamp_eq, detached, signed.verifies⟩

end Sample

open Reference in
/-- 14 November 2023 -/
theorem validSig_date_iff_sample :
    ∃ payload : SignaturePayload, u32FromBe (payload.slice 5 4) = 1700000000 ∧
      DatesSignature packages (signatureHost payload.toList) payload
        (reported (runGitShim packages (signatureHost payload.toList) sampleShimArgs
          (Process.start (ofBytes sampleData)))).statusOutput := by
  obtain ⟨payload, timestamp, detached, verifies⟩ := exists_datedPayload 1700000000
  refine ⟨payload, timestamp, (validSig_date_iff packages (signatureHost payload.toList)
    sampleShimArgs (ofBytes sampleData) payload.toList sampleData
    (sampleRun payload.toList sampleData) payload detached verifies).mpr ?_⟩
  rw [timestamp]
  exact (@punctual_iff _ 23 (by decide) (by decide)).mpr (by decide)

open Reference in
/-- 10 January 1970 counts as a day of the year that begins in March. -/
theorem validSig_date_underflows :
    ∃ payload : SignaturePayload, u32FromBe (payload.slice 5 4) = 777600 ∧
      PayloadVerifies packages payload (packages.digests.sha256 sampleData) ∧
      ¬ DatesSignature packages (signatureHost payload.toList) payload
        (reported (runGitShim packages (signatureHost payload.toList) sampleShimArgs
          (Process.start (ofBytes sampleData)))).statusOutput := by
  obtain ⟨payload, timestamp, _, verifies⟩ := exists_datedPayload 777600
  refine ⟨payload, timestamp, verifies, fun dates => ?_⟩
  have dated := dates.dated
  rw [timestamp] at dated
  exact absurd dated.noUnderflow.year (by decide)

end PipeK1
