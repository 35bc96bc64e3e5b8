/-!
# Calendar days

Days of the proleptic Gregorian calendar are known by their number, counted from the first day
of 1970. Eras of 400 years have the same length, and a year that begins in March ends with its
leap day, so that both conversions are plain arithmetic.
-/

namespace JobGrid

/-- A day by its number: day zero is the first day of 1970. -/
abbrev DayNumber := Int

/-- A calendar date. -/
structure Date where
  year : Int
  month : Nat
  day : Nat
  deriving DecidableEq, Repr

namespace Date

def isLeapYear (year : Int) : Bool :=
  year % 4 == 0 && (year % 100 != 0 || year % 400 == 0)

/-- The number of days of a month. -/
def monthLength (year : Int) (month : Nat) : Nat :=
  if month == 2 then (if isLeapYear year then 29 else 28)
  else if month == 4 || month == 6 || month == 9 || month == 11 then 30
  else 31

/-- Whether a date is on the calendar. -/
def isValid (date : Date) : Bool :=
  1 ≤ date.month && date.month ≤ 12 && 1 ≤ date.day && date.day ≤ monthLength date.year date.month

/-- The number of a date. -/
def dayNumber (date : Date) : DayNumber :=
  let year := if date.month ≤ 2 then date.year - 1 else date.year
  let era := Int.fdiv year 400
  let yearOfEra := Int.fmod year 400
  let month : Int := Int.fmod ((date.month : Int) + 9) 12
  let dayOfYear := Int.fdiv (153 * month + 2) 5 + date.day - 1
  let dayOfEra :=
    yearOfEra * 365 + Int.fdiv yearOfEra 4 - Int.fdiv yearOfEra 100 + dayOfYear
  era * 146097 + dayOfEra - 719468

/-- The date of a day. -/
def ofDayNumber (number : DayNumber) : Date :=
  let shifted := number + 719468
  let era := Int.fdiv shifted 146097
  let dayOfEra := Int.fmod shifted 146097
  let yearOfEra := Int.fdiv (dayOfEra - Int.fdiv dayOfEra 1460 + Int.fdiv dayOfEra 36524 -
    Int.fdiv dayOfEra 146096) 365
  let dayOfYear := dayOfEra -
    (365 * yearOfEra + Int.fdiv yearOfEra 4 - Int.fdiv yearOfEra 100)
  let shiftedMonth := Int.fdiv (5 * dayOfYear + 2) 153
  let day := dayOfYear - Int.fdiv (153 * shiftedMonth + 2) 5 + 1
  let month := if shiftedMonth < 10 then shiftedMonth + 3 else shiftedMonth - 9
  let year := yearOfEra + era * 400 + (if month ≤ 2 then 1 else 0)
  ⟨year, month.toNat, day.toNat⟩

example : dayNumber ⟨1970, 1, 1⟩ = 0 := by decide
example : dayNumber ⟨2000, 3, 1⟩ = 11017 := by decide
example : ofDayNumber 11016 = ⟨2000, 2, 29⟩ := by decide
example : ofDayNumber (-1) = ⟨1969, 12, 31⟩ := by decide

end Date

end JobGrid
