import Mathlib.Tactic.IntervalCases
import JobGrid.Time.Calendar

/-!
# Days and dates

Every day has a date on the calendar, and the date has the number of that day. Within an era the
year of a day is found by one division; it never decreases from day to day, so that the first
and the last day of each year decide.
-/

namespace JobGrid

namespace Date

/-- The year that a day of an era belongs to. -/
def yearOfEra (day : Nat) : Nat := (day - day / 1460 + day / 36524 - day / 146096) / 365

/-- The first day of a year of an era. -/
def yearStart (year : Nat) : Nat := year * 365 + year / 4 - year / 100 + year / 400

theorem yearOfEra_mono {earlier later : Nat} (ordered : earlier ≤ later)
    (bound : later < 146097) : yearOfEra earlier ≤ yearOfEra later := by
  apply Nat.div_le_div_right
  omega

theorem yearOfEra_ends {year : Nat} (bound : year < 400) :
    yearOfEra (yearStart year) = year ∧ yearOfEra (yearStart (year + 1) - 1) = year := by
  have every : ∀ year : Fin 400, yearOfEra (yearStart year) = year ∧
      yearOfEra (yearStart (year + 1) - 1) = year := by decide +kernel
  exact every ⟨year, bound⟩

theorem yearStart_succ_le (year : Nat) : yearStart (year + 1) ≤ yearStart year + 366 := by
  unfold yearStart
  omega

/-- A day of an era lies in its year. -/
theorem yearStart_bounds {day : Nat} (bound : day < 146097) :
    yearOfEra day < 400 ∧ yearStart (yearOfEra day) ≤ day ∧
      day < yearStart (yearOfEra day + 1) := by
  have last : yearOfEra 146096 = 399 := by decide
  have small : yearOfEra day < 400 := by
    have ordered := yearOfEra_mono (by omega : day ≤ 146096) (by decide)
    omega
  refine ⟨small, ?_, ?_⟩
  · apply Nat.le_of_not_lt
    intro early
    have positive : yearOfEra day ≠ 0 := by
      intro zero
      simp [zero, yearStart] at early
    obtain ⟨before, next⟩ := Nat.exists_eq_add_one_of_ne_zero positive
    have ends := (yearOfEra_ends (by omega : before < 400)).2
    rw [next] at early
    have inside : yearStart (before + 1) ≤ 146097 := by
      unfold yearStart
      omega
    have ordered := yearOfEra_mono (by omega : day ≤ yearStart (before + 1) - 1) (by omega)
    omega
  · apply Nat.lt_of_not_le
    intro late
    by_cases final : yearOfEra day = 399
    · have whole : yearStart (399 + 1) = 146097 := by decide
      rw [final, whole] at late
      omega
    · have starts := (yearOfEra_ends (by omega : yearOfEra day + 1 < 400)).1
      have ordered := yearOfEra_mono late bound
      omega

/-- The months of a year that begins in March. Its last month, February, has a 29th day only
in a year of 366 days. -/
theorem monthOfYear_bounds {day : Nat} (bound : day < 366) :
    (5 * day + 2) / 153 ≤ 11 ∧ (153 * ((5 * day + 2) / 153) + 2) / 5 ≤ day ∧
      day - (153 * ((5 * day + 2) / 153) + 2) / 5 + 1 ≤
        if (5 * day + 2) / 153 = 11 then (if day = 365 then 29 else 28)
        else if (5 * day + 2) / 153 ∈ [1, 3, 6, 8] then 30 else 31 := by
  have every : ∀ day : Fin 366,
      (5 * day.val + 2) / 153 ≤ 11 ∧ (153 * ((5 * day.val + 2) / 153) + 2) / 5 ≤ day.val ∧
        day.val - (153 * ((5 * day.val + 2) / 153) + 2) / 5 + 1 ≤
          if (5 * day.val + 2) / 153 = 11 then (if day.val = 365 then 29 else 28)
          else if (5 * day.val + 2) / 153 ∈ [1, 3, 6, 8] then 30 else 31 := by decide +kernel
  exact every ⟨day, bound⟩

/-- A day by its era, its year of the era, its month of a year that begins in March, and its
day of the month. -/
structure Position where
  era : Int
  year : Nat
  month : Nat
  day : Nat

namespace Position

/-- The date at a position. -/
def date (position : Position) : Date where
  year := position.year + position.era * 400 + if position.month < 10 then 0 else 1
  month := if position.month < 10 then position.month + 3 else position.month - 9
  day := position.day + 1

/-- Whether a position is on the calendar. -/
structure Valid (position : Position) : Prop where
  year : position.year < 400
  month : position.month ≤ 11
  day : position.day + 1 ≤
    if position.month = 11 then
      (if yearStart (position.year + 1) - yearStart position.year = 366 then 29 else 28)
    else if position.month ∈ [1, 3, 6, 8] then 30 else 31

variable {position : Position}

/-- The number of the date at a position. -/
theorem dayNumber_date (valid : position.Valid) :
    @Eq Int position.date.dayNumber (position.era * 146097 + yearStart position.year +
      (153 * position.month + 2) / 5 + position.day - 719468) := by
  obtain ⟨era, year, month, day⟩ := position
  have small : year < 400 := valid.year
  have short : month ≤ 11 := valid.month
  have starts : (yearStart year : Int) = year * 365 + year / 4 - year / 100 := by
    unfold yearStart
    omega
  have sameEra : ((year : Int) + era * 400) / 400 = era := by omega
  have sameYear : ((year : Int) + era * 400) % 400 = year := by omega
  have march : ∃ shown : Nat, Position.date ⟨era, year, month, day⟩ =
      ⟨year + era * 400 + (if month < 10 then 0 else 1), shown, day + 1⟩ ∧
      (shown ≤ 2 ↔ ¬ month < 10) ∧ ((shown : Int) + 9) % 12 = month := by
    refine ⟨if month < 10 then month + 3 else month - 9, rfl, ?_, ?_⟩
    · split <;> omega
    · split <;> omega
  obtain ⟨shown, date, winter, shifted⟩ := march
  have inYear : (if shown ≤ 2 then
      ((year : Int) + era * 400 + if month < 10 then 0 else 1) - 1
      else (year : Int) + era * 400 + if month < 10 then 0 else 1) = year + era * 400 := by
    by_cases spring : month < 10
    · rw [if_neg (by omega), if_pos spring, Int.add_zero]
    · rw [if_pos (by omega), if_neg spring]
      omega
  rw [date]
  simp only [Date.dayNumber]
  rw [inYear]
  simp only [shifted, sameEra, sameYear,
    Int.fdiv_eq_ediv_of_nonneg _ (by decide : (0 : Int) ≤ 400),
    Int.fdiv_eq_ediv_of_nonneg _ (by decide : (0 : Int) ≤ 4),
    Int.fdiv_eq_ediv_of_nonneg _ (by decide : (0 : Int) ≤ 100),
    Int.fdiv_eq_ediv_of_nonneg _ (by decide : (0 : Int) ≤ 5),
    Int.fmod_eq_emod_of_nonneg _ (by decide : (0 : Int) ≤ 400),
    Int.fmod_eq_emod_of_nonneg _ (by decide : (0 : Int) ≤ 12)]
  rw [starts]
  omega

end Position

/-- The position of a day. -/
def position (number : DayNumber) : Position :=
  let day := (Int.fmod (number + 719468) 146097).toNat
  let year := yearOfEra day
  let ofYear := day - yearStart year
  let month := (5 * ofYear + 2) / 153
  ⟨Int.fdiv (number + 719468) 146097, year, month, ofYear - (153 * month + 2) / 5⟩

theorem ofDayNumber_eq_date (number : DayNumber) :
    ofDayNumber number = (position number).date := by
  have bound : 0 ≤ Int.fmod (number + 719468) 146097 ∧
      Int.fmod (number + 719468) 146097 < 146097 :=
    ⟨Int.fmod_nonneg_of_pos _ (by decide), Int.fmod_lt_of_pos _ (by decide)⟩
  obtain ⟨day, dayOfEra⟩ : ∃ day : Nat, Int.fmod (number + 719468) 146097 = day :=
    ⟨_, (Int.toNat_of_nonneg bound.1).symm⟩
  rw [dayOfEra] at bound
  obtain ⟨small, starts, ends⟩ := yearStart_bounds (by omega : day < 146097)
  have year : ((day : Int) - day / 1460 + day / 36524 - day / 146096) / 365 = yearOfEra day := by
    unfold yearOfEra
    omega
  have first : (365 * (yearOfEra day : Int) + yearOfEra day / 4 - yearOfEra day / 100) =
      yearStart (yearOfEra day) := by
    unfold yearStart
    omega
  have ofYear : (day : Int) - yearStart (yearOfEra day) =
      (day - yearStart (yearOfEra day) : Nat) := by
    omega
  have short : day - yearStart (yearOfEra day) < 366 := by
    have length := yearStart_succ_le (yearOfEra day)
    omega
  obtain ⟨lastMonth, firstDay, -⟩ := monthOfYear_bounds short
  simp only [ofDayNumber, position, Position.date, dayOfEra,
    Int.fdiv_eq_ediv_of_nonneg _ (by decide : (0 : Int) ≤ 1460),
    Int.fdiv_eq_ediv_of_nonneg _ (by decide : (0 : Int) ≤ 36524),
    Int.fdiv_eq_ediv_of_nonneg _ (by decide : (0 : Int) ≤ 146096),
    Int.fdiv_eq_ediv_of_nonneg _ (by decide : (0 : Int) ≤ 365),
    Int.fdiv_eq_ediv_of_nonneg _ (by decide : (0 : Int) ≤ 4),
    Int.fdiv_eq_ediv_of_nonneg _ (by decide : (0 : Int) ≤ 100),
    Int.fdiv_eq_ediv_of_nonneg _ (by decide : (0 : Int) ≤ 153),
    Int.fdiv_eq_ediv_of_nonneg _ (by decide : (0 : Int) ≤ 5), year, first, ofYear,
    Int.toNat_natCast]
  generalize yearOfEra day = inEra at *
  generalize day - yearStart inEra = inYear at *
  have month : (5 * (inYear : Int) + 2) / 153 = ((5 * inYear + 2) / 153 : Nat) := by omega
  rw [month]
  generalize (5 * inYear + 2) / 153 = inEraYear at *
  rw [Date.mk.injEq]
  by_cases spring : inEraYear < 10
  · have before : (inEraYear : Int) < 10 := by omega
    have later : ¬ (inEraYear : Int) + 3 ≤ 2 := by omega
    simp only [if_pos before, if_neg later, if_pos spring]
    exact ⟨trivial, by omega, by omega⟩
  · have after : ¬ (inEraYear : Int) < 10 := by omega
    have winter : (inEraYear : Int) - 9 ≤ 2 := by omega
    simp only [if_neg after, if_pos winter, if_neg spring]
    exact ⟨trivial, by omega, by omega⟩

theorem valid_of_dayOfYear {year day : Nat} (era : Int) (small : year < 400) (short : day < 366)
    (leap : day = 365 → yearStart (year + 1) - yearStart year = 366) :
    Position.Valid ⟨era, year, (5 * day + 2) / 153,
      day - (153 * ((5 * day + 2) / 153) + 2) / 5⟩ := by
  obtain ⟨lastMonth, -, lastDay⟩ := monthOfYear_bounds short
  refine ⟨small, lastMonth, Nat.le_trans lastDay ?_⟩
  by_cases february : (5 * day + 2) / 153 = 11
  · simp only [if_pos february]
    by_cases last : day = 365
    · rw [if_pos last, if_pos (leap last)]
    · rw [if_neg last]
      split <;> decide
  · simp only [if_neg february]
    exact Nat.le_refl _

/-- Every day is at a position on the calendar. -/
theorem valid_position (number : DayNumber) : (position number).Valid := by
  have lower : 0 ≤ Int.fmod (number + 719468) 146097 := Int.fmod_nonneg_of_pos _ (by decide)
  have upper : Int.fmod (number + 719468) 146097 < 146097 := Int.fmod_lt_of_pos _ (by decide)
  obtain ⟨small, starts, ends⟩ := yearStart_bounds
    (by omega : (Int.fmod (number + 719468) 146097).toNat < 146097)
  have length := yearStart_succ_le (yearOfEra (Int.fmod (number + 719468) 146097).toNat)
  exact valid_of_dayOfYear _ small (by omega) (by omega)

/-- A day is found again by its date. -/
theorem dayNumber_ofDayNumber (number : DayNumber) :
    (ofDayNumber number).dayNumber = number := by
  have lower : 0 ≤ Int.fmod (number + 719468) 146097 := Int.fmod_nonneg_of_pos _ (by decide)
  have upper : Int.fmod (number + 719468) 146097 < 146097 := Int.fmod_lt_of_pos _ (by decide)
  have whole : @Eq Int _ _ := Int.mul_fdiv_add_fmod (number + 719468) 146097
  rw [ofDayNumber_eq_date]
  apply Eq.trans (Position.dayNumber_date (valid_position number))
  simp only [position]
  obtain ⟨day, dayOfEra⟩ : ∃ day : Nat, Int.fmod (number + 719468) 146097 = day :=
    ⟨_, (Int.toNat_of_nonneg lower).symm⟩
  simp only [dayOfEra, Int.toNat_natCast] at upper whole ⊢
  obtain ⟨-, starts, ends⟩ := yearStart_bounds (by omega : day < 146097)
  have length := yearStart_succ_le (yearOfEra day)
  obtain ⟨-, firstDay, -⟩ :=
    monthOfYear_bounds (by omega : day - yearStart (yearOfEra day) < 366)
  generalize (5 * (day - yearStart (yearOfEra day)) + 2) / 153 = month at *
  generalize yearStart (yearOfEra day) = start at *
  generalize Int.fdiv (number + 719468) 146097 = era at *
  have shown : (153 * (month : Int) + 2) / 5 = ((153 * month + 2) / 5 : Nat) := by omega
  rw [shown]
  generalize (153 * month + 2) / 5 = before at firstDay ⊢
  omega

/-- A year that begins in March has 366 days when February belongs to a leap year. -/
theorem isLeapYear_of_length {year : Nat} (era : Int) (small : year < 400)
    (length : yearStart (year + 1) - yearStart year = 366) :
    isLeapYear (year + era * 400 + 1) = true := by
  have rule : (year + 1) % 4 = 0 ∧ ((year + 1) % 100 ≠ 0 ∨ (year + 1) % 400 = 0) := by
    unfold yearStart at length
    omega
  have fourth : ((year : Int) + era * 400 + 1) % 4 = ((year + 1) % 4 : Nat) := by omega
  have century : ((year : Int) + era * 400 + 1) % 100 = ((year + 1) % 100 : Nat) := by omega
  have eraYear : ((year : Int) + era * 400 + 1) % 400 = ((year + 1) % 400 : Nat) := by omega
  simp only [isLeapYear, fourth, century, eraYear, Bool.and_eq_true, Bool.or_eq_true, beq_iff_eq,
    bne_iff_ne]
  omega

/-- The months of a year that begins in March have their usual lengths. -/
theorem monthLength_shifted (year : Int) {month : Nat} (short : month ≤ 11) :
    monthLength year (if month < 10 then month + 3 else month - 9) =
      if month = 11 then (if isLeapYear year then 29 else 28)
      else if month ∈ [1, 3, 6, 8] then 30 else 31 := by
  interval_cases month <;> rfl

theorem isValid_date {position : Position} (valid : position.Valid) :
    position.date.isValid = true := by
  obtain ⟨era, year, month, day⟩ := position
  obtain ⟨small, short, inMonth⟩ := valid
  simp only at small short inMonth
  have length := monthLength_shifted (year + era * 400 + if month < 10 then 0 else 1) short
  have last : day + 1 ≤ monthLength (year + era * 400 + if month < 10 then 0 else 1)
      (if month < 10 then month + 3 else month - 9) := by
    rw [length]
    by_cases february : month = 11
    · rw [if_pos february] at inMonth ⊢
      rw [if_neg (by omega : ¬ month < 10)]
      by_cases full : yearStart (year + 1) - yearStart year = 366
      · rw [if_pos full] at inMonth
        rw [if_pos (isLeapYear_of_length era small full)]
        exact inMonth
      · rw [if_neg full] at inMonth
        split <;> omega
    · rw [if_neg february] at inMonth ⊢
      exact inMonth
  have shown : 1 ≤ (if month < 10 then month + 3 else month - 9) ∧
      (if month < 10 then month + 3 else month - 9) ≤ 12 := by
    split <;> omega
  simp [isValid, Position.date, shown, last]

/-- Every day has a date on the calendar. -/
theorem isValid_ofDayNumber (number : DayNumber) : (ofDayNumber number).isValid = true := by
  rw [ofDayNumber_eq_date]
  exact isValid_date (valid_position number)

/-- Days since the start of 1970 are in years after the year zero. -/
theorem year_nonneg {number : DayNumber} (since : 0 ≤ number) :
    0 ≤ (ofDayNumber number).year := by
  rw [ofDayNumber_eq_date]
  have era : 0 ≤ (position number).era := by
    rw [position, Int.fdiv_eq_ediv_of_nonneg _ (by decide)]
    exact Int.ediv_nonneg (Int.add_nonneg since (by decide)) (by decide)
  rw [Position.date]
  simp only
  split <;> omega

end Date

end JobGrid
