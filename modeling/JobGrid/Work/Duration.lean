import JobGrid.Error

/-!
# Time spans

The work of a job takes longer on a slow node: a number of milliseconds times a factor, rounded
to the nearest nanosecond.
-/

namespace JobGrid

/-- A finite double that is not negative, as a significand times a power of two. -/
structure Dyadic where
  significand : Nat
  power : Int

namespace Dyadic

/-- The parts of a finite double that is not negative. -/
def ofFloat (number : Float) : Dyadic :=
  let bits := number.toBits.toNat
  let exponent : Nat := bits / 2 ^ 52 % 2048
  let fraction := bits % 2 ^ 52
  if exponent = 0 then ⟨fraction, -1074⟩ else ⟨fraction + 2 ^ 52, (exponent : Int) - 1075⟩

/-- The product with a natural number, rounded to the nearest natural number, a half to the
even one. -/
def scaled (number : Dyadic) (factor : Nat) : Nat :=
  let product := number.significand * factor
  if 0 ≤ number.power then product * 2 ^ number.power.toNat
  else
    let divisor := 2 ^ (-number.power).toNat
    let whole := product / divisor
    let rest := 2 * (product % divisor)
    if divisor < rest ∨ (divisor = rest ∧ whole % 2 = 1) then whole + 1 else whole

end Dyadic

namespace WorkTime

/-- The nanoseconds of a second. -/
def second : Nat := 1000000000

/-- Seconds as whole nanoseconds. Negative, endless and missing numbers are none. -/
def ofSeconds (seconds : Float) : Except Fault Nat :=
  if seconds.isNaN ∨ seconds.isInf ∨ seconds < 0 then .error .invalidDuration
  else
    let nanos := (Dyadic.ofFloat seconds).scaled second
    if nanos < 2 ^ 64 * second then .ok nanos else .error .invalidDuration

/-- Milliseconds in seconds. -/
def inSeconds (millis : UInt64) : Float :=
  Float.ofNat (millis.toNat / 1000) + Float.ofNat (millis.toNat % 1000 * 1000000) / 1e9

/-- The factor on the work of a node: a negative factor is none. -/
def factor (slowdown : Float) : Float := if 0 < slowdown then slowdown else 0

/-- The time that some work takes on a node, in nanoseconds. -/
def ofWork (slowdown : Float) (millis : UInt64) : Except Fault Nat :=
  ofSeconds (factor slowdown * inSeconds millis)

/-- A time in milliseconds, with a started one counted whole. -/
def wholeMillis (nanos : Nat) : Nat := (nanos + 999999) / 1000000

end WorkTime

end JobGrid
