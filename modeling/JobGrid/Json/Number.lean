import JobGrid.Json.Basic

/-!
# The value of a number text

Which number a number text stands for depends on its form. A text without point and exponent is
an integer as long as it fits into 64 bits. Any other text is a double: its leading digits, as
many as fit into 64 bits, form a significand, which is scaled once by a power of ten. A double
beyond the largest finite one is no value at all.
-/

namespace JobGrid

namespace NumberText

/-- One more than the largest significand. -/
def significandLimit : Nat := 2 ^ 64

/-- A significand with the power of ten that scales it. -/
structure Significand where
  digits : Nat
  power : Int
  deriving DecidableEq, Repr

/-- Takes digits before the point; once one does not fit, each further one only scales. -/
def takeWhole (digits : Nat) : List Nat → Significand
  | [] => ⟨digits, 0⟩
  | digit :: rest =>
      if digits * 10 + digit < significandLimit then takeWhole (digits * 10 + digit) rest
      else ⟨digits, (rest.length : Int) + 1⟩

/-- Takes digits behind the point; once one does not fit, all further ones are dropped. -/
def takeFraction (significand : Significand) : List Nat → Significand
  | [] => significand
  | digit :: rest =>
      if significand.digits * 10 + digit < significandLimit then
        takeFraction ⟨significand.digits * 10 + digit, significand.power - 1⟩ rest
      else significand

/-- The significand of the digits before and behind the point. -/
def significand (text : NumberText) : Significand :=
  takeFraction (takeWhole 0 text.whole) (text.fraction.getD [])

/-- The largest exponent that is scaled exactly as written. -/
def exponentLimit : Nat := 2 ^ 31

/-- The largest power of ten below the largest double. -/
def largestPower : Nat := 308

/-- A power of ten as a double. -/
def powerOfTen (power : Nat) : Float := Float.ofScientific 1 false power

/-- Scales a double by a power of ten; the fuel bounds the steps of a power too small for a
double. -/
def scale (number : Float) (power : Int) : Nat → Option Float
  | 0 => some number
  | fuel + 1 =>
      if power.natAbs ≤ largestPower then
        if 0 ≤ power then
          let scaled := number * powerOfTen power.toNat
          if scaled.isInf then none else some scaled
        else some (number / powerOfTen (-power).toNat)
      else if number == 0 then some number
      else if 0 ≤ power then none
      else scale (number / powerOfTen largestPower) (power + largestPower) fuel

/-- The magnitude of a text that is no integer. -/
def magnitude? (text : NumberText) : Option Float :=
  let significand := text.significand
  match text.exponent with
  | none => scale (Float.ofNat significand.digits) significand.power 8
  | some exponent =>
      let written := Digits.value 10 exponent.digits
      if written < exponentLimit then
        let shift : Int := if exponent.negative then -written else written
        scale (Float.ofNat significand.digits) (significand.power + shift) 8
      else if significand.digits ≠ 0 ∧ ¬ exponent.negative then none
      else some 0

/-- What a number text stands for. -/
inductive Value where
  | int (value : Int)
  | float (value : Float)

/-- The value of a number text, unless it is too large for a double. A negative zero is a
double. -/
def value? (text : NumberText) : Option Value :=
  let whole := Digits.value 10 text.whole
  if text.fraction.isNone ∧ text.exponent.isNone ∧ whole < significandLimit then
    if ¬ text.negative then some (.int whole)
    else if whole ≠ 0 ∧ whole ≤ 2 ^ 63 then some (.int (-whole))
    else some (.float (-(Float.ofNat whole)))
  else text.magnitude?.map fun magnitude =>
    .float (if text.negative then -magnitude else magnitude)

theorem value?_ofNat {number : Nat} (small : number < significandLimit) :
    (ofNat number).value? = some (.int number) := by
  simp [value?, ofNat, small]

end NumberText

namespace Json

mutual

/-- Whether every string is valid Unicode and every number has a value. -/
def sound : Json → Bool
  | .number text => text.value?.isSome
  | .string text => text.isSome
  | .array items => soundItems items
  | .object members => soundMembers members
  | _ => true

/-- Whether every value of a list is sound. -/
def soundItems : List Json → Bool
  | [] => true
  | item :: rest => sound item && soundItems rest

/-- Whether every name and value of a list of members is sound. -/
def soundMembers : List (Option String × Json) → Bool
  | [] => true
  | (name, value) :: rest => name.isSome && sound value && soundMembers rest

end

/-- The integer that a value stands for. -/
def int? : Json → Option Int
  | .number text =>
      match text.value? with
      | some (.int value) => some value
      | _ => none
  | _ => none

/-- An integer between zero and a bound, the bound left out. -/
def natBelow? (bound : Nat) (value : Json) : Option Nat :=
  match value.int? with
  | some (.ofNat natural) => if natural < bound then some natural else none
  | _ => none

/-- The double that a number stands for. -/
def float? : Json → Option Float
  | .number text =>
      match text.value? with
      | some (.int value) => some (Float.ofInt value)
      | some (.float value) => some value
      | none => none
  | _ => none

def bool? : Json → Option Bool
  | .bool value => some value
  | _ => none

def string? : Json → Option String
  | .string text => text
  | _ => none

@[simp] theorem string?_ofString (text : String) : (ofString text).string? = some text := rfl

theorem natBelow?_ofNat {bound number : Nat} (small : number < bound) (fits : bound ≤ 2 ^ 64) :
    natBelow? bound (ofNat number) = some number := by
  have value := NumberText.value?_ofNat (Nat.lt_of_lt_of_le small fits)
  simp [natBelow?, ofNat, int?, value, small]

end Json

end JobGrid
