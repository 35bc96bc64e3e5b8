import JobGrid.Json.Basic

/-!
# Showing octets

Octets that are meant to be UTF-8 but may not be are shown nevertheless. What is no character is
shown as a replacement sign, one for each broken start of a character.
-/

namespace JobGrid

namespace Bytes

/-- The length of the first character, if the octets start with one. -/
def characterLength? (bytes : Bytes) : Option Nat :=
  [1, 2, 3, 4].find? fun length =>
    length ≤ bytes.length && (toString? (bytes.take length)).isSome

/-- Whether more octets would complete a character. -/
def beginsCharacter (bytes : Bytes) : Bool :=
  [1, 2, 3].any fun length => [(0x80 : UInt8), 0xbf].any fun octet =>
    (toString? (bytes ++ List.replicate length octet)).isSome

/-- The length of the broken character that the octets start with. -/
def brokenLength (bytes : Bytes) : Nat :=
  ([3, 2].find? fun length => length ≤ bytes.length && beginsCharacter (bytes.take length)).getD 1

/-- The text of the octets, at most as many characters as the fuel. -/
def shownWithin : Nat → Bytes → String
  | 0, _ => ""
  | _ + 1, [] => ""
  | fuel + 1, bytes =>
      match bytes.characterLength? with
      | some length =>
          (toString? (bytes.take length)).getD "" ++ shownWithin fuel (bytes.drop length)
      | none => "\ufffd" ++ shownWithin fuel (bytes.drop bytes.brokenLength)

/-- The text of the octets. -/
def shown (bytes : Bytes) : String :=
  match bytes.toString? with
  | some text => text
  | none => shownWithin bytes.length bytes

@[simp] theorem shown_ofString (text : String) : shown (ofString text) = text := by
  simp [shown]

end Bytes

end JobGrid
