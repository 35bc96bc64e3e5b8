import JobGrid.Text.Digits

/-!
# Universally unique identifiers

The identifiers of nodes, jobs and task sessions have 128 bits. Their texts have one form in
which they are written, hyphenated and lower-case, and four forms from which they are read.
Reading a written identifier gives it back.
-/

namespace JobGrid

/-- An identifier of 128 bits. -/
structure Uuid where
  bits : BitVec 128
  deriving DecidableEq

namespace Uuid

instance : Inhabited Uuid := ⟨⟨0⟩⟩

/-- The identifier with the given number, taken modulo two to the power of 128. -/
def ofNat (number : Nat) : Uuid := ⟨BitVec.ofNat 128 number⟩

def toNat (id : Uuid) : Nat := id.bits.toNat

/-- Identifiers are ordered by number, which is also the order of their texts. -/
def ble (left right : Uuid) : Bool := left.toNat ≤ right.toNat

/-- The 32 hexadecimal digits of an identifier. -/
def hexDigits (id : Uuid) : List Char := (Digits.padded 16 32 id.toNat).map Digits.toChar

/-- Groups 32 digits as 8-4-4-4-12. -/
def hyphenate (digits : List Char) : List Char :=
  digits.take 8 ++ '-' :: ((digits.drop 8).take 4 ++ '-' :: ((digits.drop 12).take 4 ++
    '-' :: ((digits.drop 16).take 4 ++ '-' :: digits.drop 20)))

/-- The hyphenated lower-case text, as characters. -/
def chars (id : Uuid) : List Char := hyphenate id.hexDigits

/-- The hyphenated lower-case text. -/
def text (id : Uuid) : String := String.ofList id.chars

/-- Reads 32 hexadecimal digits. -/
def ofDigits? (chars : List Char) : Option Uuid :=
  if chars.length = 32 then
    (chars.mapM Digits.hex?).map fun digits => ofNat (Digits.value 16 digits)
  else none

/-- Reads 36 characters with hyphens after 8, 12, 16 and 20 digits. -/
def ofHyphenated? (chars : List Char) : Option Uuid :=
  if chars.length = 36 ∧ chars[8]? = some '-' ∧ chars[13]? = some '-' ∧
      chars[18]? = some '-' ∧ chars[23]? = some '-' then
    ofDigits? (chars.take 8 ++ (chars.drop 9).take 4 ++ (chars.drop 14).take 4 ++
      (chars.drop 19).take 4 ++ chars.drop 24)
  else none

/-- The text in front of an identifier written as a resource name. -/
def resourceName : List Char := ['u', 'r', 'n', ':', 'u', 'u', 'i', 'd', ':']

/-- Reads an identifier: 32 digits, or the hyphenated form, which may stand in braces or
behind its resource name. Digits may be of either case. -/
def ofChars? (chars : List Char) : Option Uuid :=
  if chars.length = 32 then ofDigits? chars
  else if chars.length = 36 then ofHyphenated? chars
  else if chars.length = 38 ∧ chars.head? = some '{' ∧ chars.getLast? = some '}' then
    ofHyphenated? (chars.drop 1).dropLast
  else if chars.length = 45 ∧ chars.take 9 = resourceName then ofHyphenated? (chars.drop 9)
  else none

/-- Reads an identifier from a text. -/
def ofText? (text : String) : Option Uuid := ofChars? text.toList

@[simp] theorem ofNat_toNat (id : Uuid) : ofNat id.toNat = id := by
  cases id
  simp [ofNat, toNat]

@[simp] theorem length_hexDigits (id : Uuid) : id.hexDigits.length = 32 := by
  simp [hexDigits]

theorem mapM_hex?_toChar {digits : List Nat} (small : ∀ digit ∈ digits, digit < 16) :
    (digits.map Digits.toChar).mapM Digits.hex? = some digits := by
  induction digits with
  | nil => rfl
  | cons digit rest ih =>
      have head := Digits.hex?_toChar (small digit (by simp))
      have tail := ih fun digit member => small digit (by simp [member])
      simp [List.mapM_cons, head, tail]

theorem ofDigits?_hexDigits (id : Uuid) : ofDigits? id.hexDigits = some id := by
  have digits : ((Digits.padded 16 32 id.toNat).map Digits.toChar).mapM Digits.hex? =
      some (Digits.padded 16 32 id.toNat) :=
    mapM_hex?_toChar fun digit member => Digits.lt_of_mem_padded (by decide) member
  have small : id.toNat < 16 ^ 32 := id.bits.isLt
  rw [ofDigits?, if_pos id.length_hexDigits, hexDigits, digits]
  have value : Digits.value 16 (Digits.padded 16 32 id.toNat) = id.toNat := by
    rw [Digits.value_padded, Nat.mod_eq_of_lt small]
  rw [Option.map_some, value, ofNat_toNat]

theorem ofHyphenated?_hyphenate {digits : List Char} (length : digits.length = 32) :
    ofHyphenated? (hyphenate digits) = ofDigits? digits := by
  have size : (hyphenate digits).length = 36 := by
    simp [hyphenate, length]
  have first : (digits.take 8).length = 8 := by simp [length]
  have second : ((digits.drop 8).take 4).length = 4 := by simp [length]
  have third : ((digits.drop 12).take 4).length = 4 := by simp [length]
  have fourth : ((digits.drop 16).take 4).length = 4 := by simp [length]
  have whole : digits.take 8 ++ (digits.drop 8).take 4 ++ (digits.drop 12).take 4 ++
      (digits.drop 16).take 4 ++ digits.drop 20 = digits := by
    rw [List.append_assoc, List.append_assoc, List.append_assoc]
    have join : ∀ from' count, (digits.drop from').take count ++ digits.drop (from' + count) =
        digits.drop from' := by
      intro from' count
      rw [← List.drop_drop]
      exact List.take_append_drop count _
    rw [join 16 4, join 12 4, join 8 4]
    exact List.take_append_drop 8 digits
  generalize hone : digits.take 8 = one at *
  generalize htwo : (digits.drop 8).take 4 = two at *
  generalize hthree : (digits.drop 12).take 4 = three at *
  generalize hfour : (digits.drop 16).take 4 = four at *
  generalize hfive : digits.drop 20 = five at *
  match one, first with
  | [_, _, _, _, _, _, _, _], _ =>
    match two, second with
    | [_, _, _, _], _ =>
      match three, third with
      | [_, _, _, _], _ =>
        match four, fourth with
        | [_, _, _, _], _ =>
          rw [← whole]
          simp [hyphenate, hone, htwo, hthree, hfour, hfive] at size ⊢
          simp [ofHyphenated?, size]

/-- Reading a written identifier gives it back. -/
theorem ofText?_text (id : Uuid) : ofText? id.text = some id := by
  have size : id.chars.length = 36 := by
    simp [chars, hyphenate]
  rw [ofText?, text, String.toList_ofList, ofChars?, if_neg (by omega), if_pos size, chars,
    ofHyphenated?_hyphenate id.length_hexDigits, ofDigits?_hexDigits]

end Uuid

end JobGrid
