import JobGrid.Text.Digits

/-!
# Shortest decimal text of a double

The decimal text of a double has the fewest significant digits that read back as the same
double, among those the nearest to it, and is written without an exponent.
-/

namespace JobGrid

namespace Decimal

/-- The non-negative number `digits * 10 ^ power`. -/
structure Scaled where
  digits : Nat
  power : Int
  deriving DecidableEq, Repr

/-- The numbers that round to one positive double, as quotients over one denominator. -/
structure Interval where
  low : Nat
  value : Nat
  high : Nat
  denominator : Nat
  /-- Whether the two ends round to the double as well. -/
  closed : Bool

namespace Interval

/-- The rounding interval of `mantissa * 2 ^ exponent`; below a power of two the doubles are
twice as dense, unless they are the smallest ones. -/
def ofDyadic (mantissa : Nat) (exponent : Int) (smallest : Bool) : Interval :=
  let up := 2 ^ exponent.toNat
  let below := if mantissa = 2 ^ 52 ∧ ¬ smallest then 1 else 2
  { low := (4 * mantissa - below) * up
    value := 4 * mantissa * up
    high := (4 * mantissa + 2) * up
    denominator := 4 * 2 ^ (-exponent).toNat
    closed := mantissa % 2 = 0 }

/-- Whether a decimal number lies in the interval. -/
def holds (interval : Interval) (number : Scaled) : Bool :=
  let point := number.digits * 10 ^ number.power.toNat * interval.denominator
  let down := 10 ^ (-number.power).toNat
  if interval.closed then interval.low * down ≤ point ∧ point ≤ interval.high * down
  else interval.low * down < point ∧ point < interval.high * down

/-- The least power of ten, up to a bound, that brings a quotient to one or more. -/
def liftToOne (value denominator : Nat) : Nat → Nat
  | 0 => 0
  | fuel + 1 => if denominator ≤ value then 0 else liftToOne (value * 10) denominator fuel + 1

/-- The exponent of the leading decimal digit of the value. -/
def leading (interval : Interval) : Int :=
  if interval.denominator ≤ interval.value then
    ((Digits.ofNat 10 (interval.value / interval.denominator)).length : Int) - 1
  else -(liftToOne interval.value interval.denominator 400 : Int)

/-- The nearest of the two neighbours of the value on a decimal grid that lie in the
interval. -/
def onGrid? (interval : Interval) (power : Int) : Option Scaled :=
  let up := 10 ^ power.toNat * interval.denominator
  let value := interval.value * 10 ^ (-power).toNat
  let floor := value / up
  let lower : Scaled := ⟨floor, power⟩
  let upper : Scaled := ⟨floor + 1, power⟩
  match interval.holds lower, interval.holds upper with
  | true, true => if 2 * value ≤ (2 * floor + 1) * up then some lower else some upper
  | true, false => some lower
  | false, true => some upper
  | false, false => none

/-- Tries grids with one more digit each, starting at the given power of ten. -/
def firstHit (interval : Interval) (power : Int) : Nat → Scaled
  | 0 => ⟨interval.value * 10 ^ (-power).toNat / (10 ^ power.toNat * interval.denominator), power⟩
  | fuel + 1 =>
      match interval.onGrid? power with
      | some hit => hit
      | none => firstHit interval (power - 1) fuel

/-- The shortest decimal in the interval. -/
def shortest (interval : Interval) : Scaled := interval.firstHit interval.leading 17

end Interval

/-- Drops trailing zeros of the digits. -/
def Scaled.strip (number : Scaled) : Nat → Scaled
  | 0 => number
  | fuel + 1 =>
      if number.digits ≠ 0 ∧ number.digits % 10 = 0 then
        Scaled.strip ⟨number.digits / 10, number.power + 1⟩ fuel
      else number

/-- Positional text: no exponent, and no point behind a whole number. -/
def Scaled.text (number : Scaled) : String :=
  let digits := (Digits.ofNat 10 number.digits).map Digits.toChar
  if 0 ≤ number.power then
    String.ofList (digits ++ List.replicate number.power.toNat '0')
  else
    let places := (-number.power).toNat
    let padded := List.replicate (places + 1 - digits.length) '0' ++ digits
    String.ofList (padded.take (padded.length - places) ++ '.' ::
      padded.drop (padded.length - places))

/-- The text of the positive double with the given exponent and fraction bits. -/
def magnitudeText (exponentBits fractionBits : Nat) : String :=
  if exponentBits = 0 ∧ fractionBits = 0 then "0"
  else
    let mantissa := if exponentBits = 0 then fractionBits else fractionBits + 2 ^ 52
    let exponent : Int := (if exponentBits = 0 then 1 else (exponentBits : Int)) - 1075
    ((Interval.ofDyadic mantissa exponent (exponentBits ≤ 1)).shortest.strip 400).text

end Decimal

/-- The shortest decimal text of a double; zero keeps its sign. -/
def floatText (number : Float) : String :=
  let bits := number.toBits.toNat
  let exponentBits := bits / 2 ^ 52 % 2048
  let fractionBits := bits % 2 ^ 52
  let sign := if bits / 2 ^ 63 = 1 then "-" else ""
  if exponentBits = 2047 then
    if fractionBits = 0 then sign ++ "inf" else "NaN"
  else sign ++ Decimal.magnitudeText exponentBits fractionBits

end JobGrid
