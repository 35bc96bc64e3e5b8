import JobGrid.Text.Digits

/-!
# JSON values

JSON values are kept as they are read from a text. Numbers keep the digits in which they are
written and strings remember when they hold no valid Unicode text, so that a value that nobody
looks at never fails.
-/

namespace JobGrid

/-- The octets of a text. -/
abbrev Bytes := List UInt8

namespace Bytes

/-- The UTF-8 octets of a string. -/
def ofString (text : String) : Bytes := text.toByteArray.data.toList

/-- The string that the octets encode in UTF-8, if they do. -/
def toString? (bytes : Bytes) : Option String := String.fromUTF8? ⟨bytes.toArray⟩

@[simp] theorem toString?_ofString (text : String) : toString? (ofString text) = some text := by
  have same : (⟨(ofString text).toArray⟩ : ByteArray) = text.toByteArray := by
    simp [ofString]
  rw [toString?, same, String.fromUTF8?, dif_pos text.isValidUTF8]
  rfl

end Bytes

/-- The exponent part of a number: its sign and its digits. -/
structure ExponentText where
  negative : Bool
  digits : List Nat
  deriving DecidableEq, Repr

/-- A number as it is written: digits before the point, behind it and in the exponent. -/
structure NumberText where
  negative : Bool
  whole : List Nat
  fraction : Option (List Nat)
  exponent : Option ExponentText
  deriving DecidableEq, Repr

namespace NumberText

/-- A natural number, written without leading zeros. -/
def ofNat (number : Nat) : NumberText := ⟨false, Digits.ofNat 10 number, none, none⟩

/-- An integer, written with a sign only when it is negative. -/
def ofInt : Int → NumberText
  | .ofNat number => ofNat number
  | .negSucc number => ⟨true, Digits.ofNat 10 (number + 1), none, none⟩

end NumberText

/-- A JSON value. The text of a string is missing when it is not valid Unicode. -/
inductive Json where
  | null
  | bool (value : Bool)
  | number (text : NumberText)
  | string (text : Option String)
  | array (items : List Json)
  | object (members : List (Option String × Json))

namespace Json

instance : Inhabited Json := ⟨.null⟩

/-- A string value. -/
def ofString (text : String) : Json := .string (some text)

/-- A natural number. -/
def ofNat (number : Nat) : Json := .number (.ofNat number)

/-- An integer. -/
def ofInt (number : Int) : Json := .number (.ofInt number)

/-- An object with the given members in order. -/
def ofMembers (members : List (String × Json)) : Json :=
  .object (members.map fun member => (some member.1, member.2))

/-- The value, or null. -/
def ofOption {α : Type} (encode : α → Json) : Option α → Json
  | none => .null
  | some value => encode value

mutual

/-- How deeply arrays and objects are nested. -/
def depth : Json → Nat
  | .array items => depthOfItems items + 1
  | .object members => depthOfMembers members + 1
  | _ => 0

/-- The greatest depth of a list of values. -/
def depthOfItems : List Json → Nat
  | [] => 0
  | item :: rest => max (depth item) (depthOfItems rest)

/-- The greatest depth of the values of a list of members. -/
def depthOfMembers : List (Option String × Json) → Nat
  | [] => 0
  | (_, value) :: rest => max (depth value) (depthOfMembers rest)

end

end Json

end JobGrid
