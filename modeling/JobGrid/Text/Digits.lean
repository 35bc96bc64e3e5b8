import JobGrid.Arithmetic

/-!
# Positional digits

Numbers have digits in a base, most significant digit first, and there are characters that stand
for digits. Reading the digits of a number gives the number back.
-/

namespace JobGrid

namespace Digits

/-- The number that a list of digits stands for. -/
def value (base : Nat) (digits : List Nat) : Nat :=
  digits.foldl (fun total digit => total * base + digit) 0

/-- The digits of a number, as long as the number is below the fuel. -/
def within (base : Nat) : Nat → Nat → List Nat
  | 0, _ => []
  | fuel + 1, number =>
      if number < base then [number]
      else within base fuel (number / base) ++ [number % base]

/-- The digits of a number without leading zeros; zero has one digit. -/
def ofNat (base number : Nat) : List Nat := within base (number + 1) number

/-- The lowest digits of a number, exactly as many as asked for. -/
def padded (base : Nat) : Nat → Nat → List Nat
  | 0, _ => []
  | width + 1, number => padded base width (number / base) ++ [number % base]

/-- The character of a digit below sixteen; letters are lower case. -/
def toChar (digit : Nat) : Char :=
  if digit < 10 then Char.ofNat (48 + digit) else Char.ofNat (87 + digit)

/-- The digit that a decimal character stands for. -/
def decimal? (char : Char) : Option Nat :=
  if '0' ≤ char ∧ char ≤ '9' then some (char.toNat - 48) else none

/-- The digit that a hexadecimal character of either case stands for. -/
def hex? (char : Char) : Option Nat :=
  if '0' ≤ char ∧ char ≤ '9' then some (char.toNat - 48)
  else if 'a' ≤ char ∧ char ≤ 'f' then some (char.toNat - 87)
  else if 'A' ≤ char ∧ char ≤ 'F' then some (char.toNat - 55)
  else none

/-- The decimal text of a number. -/
def decimalText (number : Nat) : String := String.ofList ((ofNat 10 number).map toChar)

/-- The decimal text of a number, padded with zeros on the left. -/
def paddedText (width number : Nat) : String := String.ofList ((padded 10 width number).map toChar)

/-- The decimal text of an integer, with a sign only when it is negative. -/
def signedText : Int → String
  | .ofNat number => decimalText number
  | .negSucc number => "-" ++ decimalText (number + 1)

@[simp] theorem value_nil (base : Nat) : value base [] = 0 := rfl

@[simp] theorem value_append_singleton (base : Nat) (digits : List Nat) (last : Nat) :
    value base (digits ++ [last]) = value base digits * base + last := by
  simp [value]

theorem value_within {base : Nat} (large : 2 ≤ base) {fuel number : Nat}
    (enough : number < fuel) : value base (within base fuel number) = number := by
  induction fuel generalizing number with
  | zero => omega
  | succ fuel ih =>
      unfold within
      split
      · simp [value]
      · rename_i wide
        have positive : 0 < number := by omega
        have smaller : number / base < fuel :=
          Nat.lt_of_lt_of_le (Nat.div_lt_self positive large) (by omega)
        rw [value_append_singleton, ih smaller]
        exact Nat.div_add_mod' number base

/-- Reading the digits of a number gives the number back. -/
@[simp] theorem value_ofNat {base : Nat} (large : 2 ≤ base) (number : Nat) :
    value base (ofNat base number) = number :=
  value_within large (Nat.lt_succ_self number)

@[simp] theorem length_padded (base width number : Nat) :
    (padded base width number).length = width := by
  induction width generalizing number with
  | zero => rfl
  | succ width ih => simp [padded, ih]

theorem value_padded (base width number : Nat) :
    value base (padded base width number) = number % base ^ width := by
  induction width generalizing number with
  | zero => simp [padded, Nat.mod_one]
  | succ width ih =>
      rw [padded, value_append_singleton, ih, Nat.pow_succ, Nat.mul_comm (base ^ width) base,
        Nat.mod_mul, Nat.mul_comm, Nat.add_comm]

theorem lt_of_mem_padded {base width number digit : Nat} (positive : 0 < base)
    (member : digit ∈ padded base width number) : digit < base := by
  induction width generalizing number with
  | zero => simp [padded] at member
  | succ width ih =>
      rw [padded, List.mem_append, List.mem_singleton] at member
      rcases member with earlier | last
      · exact ih earlier
      · exact last ▸ Nat.mod_lt _ positive

theorem lt_of_mem_within {base fuel number digit : Nat} (positive : 0 < base)
    (member : digit ∈ within base fuel number) : digit < base := by
  induction fuel generalizing number with
  | zero => simp [within] at member
  | succ fuel ih =>
      unfold within at member
      split at member
      · simp_all
      · rw [List.mem_append, List.mem_singleton] at member
        rcases member with earlier | last
        · exact ih earlier
        · exact last ▸ Nat.mod_lt _ positive

theorem hex?_toChar {digit : Nat} (small : digit < 16) : hex? (toChar digit) = some digit := by
  have every : ∀ digit : Fin 16, hex? (toChar digit) = some digit.val := by decide
  exact every ⟨digit, small⟩

theorem decimal?_toChar {digit : Nat} (small : digit < 10) :
    decimal? (toChar digit) = some digit := by
  have every : ∀ digit : Fin 10, decimal? (toChar digit) = some digit.val := by decide
  exact every ⟨digit, small⟩

end Digits

end JobGrid
