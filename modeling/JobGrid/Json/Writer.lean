import JobGrid.Json.Basic

/-!
# Writing JSON

A JSON value has two texts: the compact one, without blanks, and the indented one. In a string
only quotes, backslashes and control characters are escaped.
-/

namespace JobGrid

namespace Json

/-- The octet of a decimal or hexadecimal digit. -/
def digitByte (digit : Nat) : UInt8 := UInt8.ofNat (Digits.toChar digit).toNat

/-- How one octet of a string is written. -/
def escapeByte (byte : UInt8) : Bytes :=
  if byte = 0x22 ∨ byte = 0x5c then [0x5c, byte]
  else if byte = 0x08 then [0x5c, 0x62]
  else if byte = 0x09 then [0x5c, 0x74]
  else if byte = 0x0a then [0x5c, 0x6e]
  else if byte = 0x0c then [0x5c, 0x66]
  else if byte = 0x0d then [0x5c, 0x72]
  else if byte < 0x20 then
    [0x5c, 0x75, 0x30, 0x30, digitByte (byte.toNat / 16), digitByte (byte.toNat % 16)]
  else [byte]

/-- A string in quotes. -/
def writeString (text : String) : Bytes :=
  0x22 :: ((Bytes.ofString text).flatMap escapeByte ++ [0x22])

def writeDigits (digits : List Nat) : Bytes := digits.map digitByte

/-- A number as it was written. -/
def writeNumber (text : NumberText) : Bytes :=
  (if text.negative then [0x2d] else []) ++ writeDigits text.whole ++
    (match text.fraction with
      | none => []
      | some digits => 0x2e :: writeDigits digits) ++
    (match text.exponent with
      | none => []
      | some exponent =>
          0x65 :: ((if exponent.negative then [0x2d] else []) ++ writeDigits exponent.digits))

mutual

/-- The compact text of a value. A string without a text is written as an empty one. -/
def write : Json → Bytes
  | .null => [0x6e, 0x75, 0x6c, 0x6c]
  | .bool true => [0x74, 0x72, 0x75, 0x65]
  | .bool false => [0x66, 0x61, 0x6c, 0x73, 0x65]
  | .number text => writeNumber text
  | .string text => writeString (text.getD "")
  | .array items => 0x5b :: (writeItems items ++ [0x5d])
  | .object members => 0x7b :: (writeMembers members ++ [0x7d])

/-- Values with commas between them. -/
def writeItems : List Json → Bytes
  | [] => []
  | [item] => write item
  | item :: rest => write item ++ 0x2c :: writeItems rest

/-- Members with commas between them. -/
def writeMembers : List (Option String × Json) → Bytes
  | [] => []
  | [(name, value)] => writeString (name.getD "") ++ 0x3a :: write value
  | (name, value) :: rest =>
      writeString (name.getD "") ++ 0x3a :: (write value ++ 0x2c :: writeMembers rest)

end

/-- A line break and two blanks for every level. -/
def newLine (level : Nat) : Bytes := 0x0a :: List.replicate (2 * level) 0x20

mutual

/-- The indented text of a value: one item or member to a line, empty ones kept short. -/
def writeIndented (level : Nat) : Json → Bytes
  | .array [] => [0x5b, 0x5d]
  | .array (item :: rest) =>
      0x5b :: (indentItems (level + 1) (item :: rest) ++ newLine level ++ [0x5d])
  | .object [] => [0x7b, 0x7d]
  | .object (member :: rest) =>
      0x7b :: (indentMembers (level + 1) (member :: rest) ++ newLine level ++ [0x7d])
  | .null => [0x6e, 0x75, 0x6c, 0x6c]
  | .bool true => [0x74, 0x72, 0x75, 0x65]
  | .bool false => [0x66, 0x61, 0x6c, 0x73, 0x65]
  | .number text => writeNumber text
  | .string text => writeString (text.getD "")

/-- Values on lines of their own. -/
def indentItems (level : Nat) : List Json → Bytes
  | [] => []
  | [item] => newLine level ++ writeIndented level item
  | item :: rest => newLine level ++ writeIndented level item ++ 0x2c :: indentItems level rest

/-- Members on lines of their own. -/
def indentMembers (level : Nat) : List (Option String × Json) → Bytes
  | [] => []
  | [(name, value)] =>
      newLine level ++ writeString (name.getD "") ++ 0x3a :: 0x20 :: writeIndented level value
  | (name, value) :: rest =>
      newLine level ++ writeString (name.getD "") ++ 0x3a :: 0x20 ::
        (writeIndented level value ++ 0x2c :: indentMembers level rest)

end

/-- The compact text of a value as a string. -/
def compactText (value : Json) : String := (Bytes.toString? value.write).getD ""

/-- The indented text of a value as a string. -/
def indentedText (value : Json) : String := (Bytes.toString? (value.writeIndented 0)).getD ""

end Json

end JobGrid
