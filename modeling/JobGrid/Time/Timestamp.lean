import JobGrid.Text.Blank
import JobGrid.Text.Digits
import JobGrid.Time.Calendar

/-!
# Time stamps

An instant in coordinated universal time is given to the nanosecond. The text from which it is
read is more liberal than the one in which it is written: a date, a time of day and an offset,
with blanks allowed between the parts.
-/

namespace JobGrid

/-- An instant: whole seconds since the start of 1970, and nanoseconds, of which a leap
second has up to two billion. -/
structure Timestamp where
  seconds : Int
  nanos : Nat
  deriving DecidableEq, Repr

namespace Timestamp

/-- The number of nanoseconds of a second. -/
def second : Nat := 1000000000

/-- The text of a year: four digits, with a sign outside of the four-digit years. -/
def yearText (year : Int) : String :=
  if 0 ≤ year ∧ year ≤ 9999 then Digits.paddedText 4 year.toNat
  else
    let digits := Digits.decimalText year.natAbs
    let zeros := String.ofList (List.replicate (4 - digits.length) '0')
    (if year < 0 then "-" else "+") ++ zeros ++ digits

/-- The fraction of a second in 0, 3, 6 or 9 digits, as few as needed. -/
def fractionText (nanos : Nat) : String :=
  if nanos = 0 then ""
  else if nanos % 1000000 = 0 then "." ++ Digits.paddedText 3 (nanos / 1000000)
  else if nanos % 1000 = 0 then "." ++ Digits.paddedText 6 (nanos / 1000)
  else "." ++ Digits.paddedText 9 nanos

/-- The text of an instant, in universal time. A leap second is second 60. -/
def text (stamp : Timestamp) : String :=
  let date := Date.ofDayNumber (Int.fdiv stamp.seconds 86400)
  let clock := (Int.fmod stamp.seconds 86400).toNat
  let leap := second ≤ stamp.nanos
  let nanos := if leap then stamp.nanos - second else stamp.nanos
  yearText date.year ++ "-" ++ Digits.paddedText 2 date.month ++ "-" ++
    Digits.paddedText 2 date.day ++ "T" ++ Digits.paddedText 2 (clock / 3600) ++ ":" ++
    Digits.paddedText 2 (clock / 60 % 60) ++ ":" ++
    Digits.paddedText 2 (clock % 60 + if leap then 1 else 0) ++ fractionText nanos ++ "Z"

/-- Takes decimal digits, at most so many. -/
def takeDigits : Nat → List Char → List Nat × List Char
  | 0, chars => ([], chars)
  | _ + 1, [] => ([], [])
  | limit + 1, char :: rest =>
      match Digits.decimal? char with
      | some digit =>
          let taken := takeDigits limit rest
          (digit :: taken.1, taken.2)
      | none => ([], char :: rest)

/-- Reads a number of at least one digit. -/
def readNumber (limit : Nat) (chars : List Char) : Option (Nat × List Char) :=
  match takeDigits limit chars with
  | ([], _) => none
  | (digits, rest) => some (Digits.value 10 digits, rest)

/-- Reads a number of one or two digits behind blanks. -/
def readField (chars : List Char) : Option (Nat × List Char) := readNumber 2 (trimStart chars)

/-- Reads a year behind blanks: up to four digits, or any number of them behind a sign. -/
def readYear (chars : List Char) : Option (Int × List Char) :=
  match trimStart chars with
  | '-' :: rest => (readNumber rest.length rest).map fun found => (-(found.1 : Int), found.2)
  | '+' :: rest => (readNumber rest.length rest).map fun found => (found.1, found.2)
  | rest => (readNumber 4 rest).map fun found => (found.1, found.2)

/-- Reads a mark behind blanks. -/
def readMark (mark : Char) (chars : List Char) : Option (List Char) :=
  match trimStart chars with
  | char :: rest => if char = mark then some rest else none
  | [] => none

/-- Reads a date. -/
def readDate (chars : List Char) : Option (Date × List Char) := do
  let (year, rest) ← readYear chars
  let (month, rest) ← readField (← readMark '-' rest)
  let (day, rest) ← readField (← readMark '-' rest)
  let date : Date := ⟨year, month, day⟩
  if date.isValid then some (date, rest) else none

/-- Reads the mark between date and time. -/
def readSeparator : List Char → Option (List Char)
  | 'T' :: rest | 't' :: rest | ' ' :: rest => some rest
  | _ => none

/-- Reads a fraction of a second: nine digits count, further ones are skipped. -/
def readFraction : List Char → Option (Nat × List Char)
  | '.' :: chars =>
      match takeDigits 9 chars with
      | ([], _) => none
      | (digits, rest) =>
          some (Digits.value 10 digits * 10 ^ (9 - digits.length),
            rest.dropWhile fun char => (Digits.decimal? char).isSome)
  | chars => some (0, chars)

/-- Reads a time of day as its second and nanoseconds; second 60 is a leap second. -/
def readClock (chars : List Char) : Option ((Nat × Nat) × List Char) := do
  let (hour, rest) ← readField chars
  let (minute, rest) ← readField (← readMark ':' rest)
  let (count, rest) ← readField (← readMark ':' rest)
  let (fraction, rest) ← readFraction rest
  if 23 < hour ∨ 59 < minute ∨ 60 < count then none
  else
    let clock := hour * 3600 + minute * 60 + min count 59
    some ((clock, fraction + if count = 60 then second else 0), rest)

/-- Reads the hours and minutes of an offset as seconds. -/
def readOffsetAmount : List Char → Option (Nat × List Char)
  | first :: second :: rest => do
      let hour := (← Digits.decimal? first) * 10 + (← Digits.decimal? second)
      match rest.dropWhile fun char => char == ':' || isBlank char with
      | tens :: ones :: rest => do
          let minute := (← Digits.decimal? tens) * 10 + (← Digits.decimal? ones)
          if 59 < minute ∨ 23 < hour then none
          else some (hour * 3600 + minute * 60, rest)
      | _ => none
  | _ => none

/-- Reads an offset from universal time, in seconds. -/
def readOffset : List Char → Option (Int × List Char)
  | 'Z' :: rest | 'z' :: rest => some (0, rest)
  | '+' :: rest => (readOffsetAmount rest).map fun found => (found.1, found.2)
  | '-' :: rest | '\u2212' :: rest =>
      (readOffsetAmount rest).map fun found => (-(found.1 : Int), found.2)
  | u :: t :: c :: rest =>
      if u.toUpper = 'U' ∧ t.toUpper = 'T' ∧ c.toUpper = 'C' then some (0, rest) else none
  | _ => none

/-- The first and the last year that have instants. -/
def firstYear : Int := -262143

def lastYear : Int := 262142

/-- Whether a day is in a year that has instants. -/
def inRange (day : DayNumber) : Bool :=
  Date.dayNumber ⟨firstYear, 1, 1⟩ ≤ day && day ≤ Date.dayNumber ⟨lastYear, 12, 31⟩

/-- Reads an instant. -/
def ofChars? (chars : List Char) : Option Timestamp := do
  let (date, rest) ← readDate chars
  let ((clock, nanos), rest) ← readClock (← readSeparator rest)
  let (offset, rest) ← readOffset (trimStart rest)
  let seconds := date.dayNumber * 86400 + clock - offset
  if trimStart rest = [] ∧ inRange date.dayNumber ∧ inRange (Int.fdiv seconds 86400) then
    some ⟨seconds, nanos⟩
  else none

/-- Reads an instant from a text. -/
def ofText? (text : String) : Option Timestamp := ofChars? text.toList

end Timestamp

/-- A moment of the grid's clock, in milliseconds since the start of 1970. -/
abbrev Moment := Nat

namespace Moment

/-- The instant of a moment. -/
def timestamp (moment : Moment) : Timestamp :=
  ⟨(moment / 1000 : Nat), moment % 1000 * 1000000⟩

/-- The time since an earlier moment, in milliseconds. -/
def since (now earlier : Moment) : Nat := now - earlier

end Moment

end JobGrid
