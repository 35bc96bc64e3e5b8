import JobGrid.Json.Basic

/-!
# Reading JSON

A JSON value is read from its octets strictly by the grammar: one value with blanks around it.
Whether a string is valid Unicode and a number has a value is decided later, by whoever asks for
it.
-/

namespace JobGrid

namespace Json

/-- The octets that may stand between the parts of a text. -/
def isBlank (byte : UInt8) : Bool := byte == 0x20 || byte == 0x09 || byte == 0x0a || byte == 0x0d

def skipBlanks (bytes : Bytes) : Bytes := bytes.dropWhile isBlank

/-- The decimal digit that an octet stands for. -/
def digit? (byte : UInt8) : Option Nat :=
  if 0x30 ≤ byte ∧ byte ≤ 0x39 then some (byte.toNat - 0x30) else none

/-- The digits at the front of a text, and the rest. -/
def takeDigits : Bytes → List Nat × Bytes
  | [] => ([], [])
  | byte :: rest =>
      match digit? byte with
      | some digit =>
          let (digits, behind) := takeDigits rest
          (digit :: digits, behind)
      | none => ([], byte :: rest)

/-- The fraction behind a number's whole part, if a point follows. -/
def readFraction : Bytes → Option (Option (List Nat) × Bytes)
  | [] => some (none, [])
  | byte :: rest =>
      if byte = 0x2e then
        match takeDigits rest with
        | ([], _) => none
        | (digits, rest) => some (some digits, rest)
      else some (none, byte :: rest)

/-- The exponent behind a number, if its mark follows. -/
def readExponent : Bytes → Option (Option ExponentText × Bytes)
  | [] => some (none, [])
  | byte :: rest =>
      if byte = 0x65 ∨ byte = 0x45 then
        let signed := match rest with
          | [] => (false, [])
          | sign :: behind =>
              if sign = 0x2b then (false, behind)
              else if sign = 0x2d then (true, behind)
              else (false, sign :: behind)
        match takeDigits signed.2 with
        | ([], _) => none
        | (digits, rest) => some (some ⟨signed.1, digits⟩, rest)
      else some (none, byte :: rest)

/-- Whether digits may stand before the point: at least one, and no zero in front. -/
def wholeAllowed : List Nat → Bool
  | [] => false
  | [_] => true
  | first :: _ => first ≠ 0

/-- A number behind its sign. -/
def readMagnitude (negative : Bool) (bytes : Bytes) : Option (NumberText × Bytes) :=
  let (whole, rest) := takeDigits bytes
  if wholeAllowed whole then do
    let (fraction, rest) ← readFraction rest
    let (exponent, rest) ← readExponent rest
    some (⟨negative, whole, fraction, exponent⟩, rest)
  else none

/-- A piece of a string: an octet of its text, or a sixteen-bit unit written as an escape. -/
inductive Piece where
  | byte (value : UInt8)
  | unit (value : Nat)

/-- The octet that a one-letter escape stands for. -/
def escaped? (mark : UInt8) : Option UInt8 :=
  if mark = 0x22 ∨ mark = 0x5c ∨ mark = 0x2f then some mark
  else if mark = 0x62 then some 0x08
  else if mark = 0x66 then some 0x0c
  else if mark = 0x6e then some 0x0a
  else if mark = 0x72 then some 0x0d
  else if mark = 0x74 then some 0x09
  else none

/-- The hexadecimal digit that an octet stands for. -/
def hexDigit? (byte : UInt8) : Option Nat := Digits.hex? (Char.ofNat byte.toNat)

/-- The unit that four hexadecimal digits stand for. -/
def unit? (first second third fourth : UInt8) : Option Nat := do
  let digits ← [first, second, third, fourth].mapM hexDigit?
  some (Digits.value 16 digits)

/-- The pieces of a string behind its opening quote, up to the closing one. -/
def readPieces : Bytes → Option (List Piece × Bytes)
  | [] => none
  | byte :: rest =>
      if byte = 0x22 then some ([], rest)
      else if byte = 0x5c then
        match rest with
        | [] => none
        | mark :: rest =>
            if mark = 0x75 then
              match rest with
              | first :: second :: third :: fourth :: rest =>
                  match unit? first second third fourth with
                  | some unit =>
                      (readPieces rest).map fun (pieces, rest) => (.unit unit :: pieces, rest)
                  | none => none
              | _ => none
            else
              match escaped? mark with
              | some byte =>
                  (readPieces rest).map fun (pieces, rest) => (.byte byte :: pieces, rest)
              | none => none
      else if byte < 0x20 then none
      else (readPieces rest).map fun (pieces, rest) => (.byte byte :: pieces, rest)

/-- The octets of a code point in UTF-8. -/
def codePoint (number : Nat) : Bytes := String.utf8EncodeChar (Char.ofNat number)

/-- The octets that pieces stand for; units from the surrogate range must come in pairs. -/
def assemble : List Piece → Option Bytes
  | [] => some []
  | .byte value :: rest => (assemble rest).map (value :: ·)
  | .unit value :: rest =>
      if value < 0xd800 ∨ 0xe000 ≤ value then (assemble rest).map (codePoint value ++ ·)
      else if value < 0xdc00 then
        match rest with
        | .unit low :: rest =>
            if 0xdc00 ≤ low ∧ low < 0xe000 then
              (assemble rest).map
                (codePoint ((value - 0xd800) * 0x400 + (low - 0xdc00) + 0x10000) ++ ·)
            else none
        | _ => none
      else none

/-- The text of a string, if it is valid Unicode. -/
def pieceText (pieces : List Piece) : Option String := (assemble pieces).bind Bytes.toString?

/-- A string behind its opening quote. -/
def readString (bytes : Bytes) : Option (Option String × Bytes) :=
  (readPieces bytes).map fun (pieces, rest) => (pieceText pieces, rest)

/-- Reads fixed octets. -/
def expect (word bytes : Bytes) : Option Bytes :=
  if bytes.take word.length = word then some (bytes.drop word.length) else none

mutual

/-- Reads one value; the fuel bounds the number of nested and following values. -/
def readValue : Nat → Bytes → Option (Json × Bytes)
  | 0, _ => none
  | fuel + 1, bytes =>
      match skipBlanks bytes with
      | [] => none
      | head :: rest =>
          if head = 0x7b then
            match skipBlanks rest with
            | [] => none
            | next :: behind =>
                if next = 0x7d then some (.object [], behind)
                else (readMembers fuel (next :: behind)).map fun (members, rest) =>
                  (.object members, rest)
          else if head = 0x5b then
            match skipBlanks rest with
            | [] => none
            | next :: behind =>
                if next = 0x5d then some (.array [], behind)
                else (readItems fuel (next :: behind)).map fun (items, rest) =>
                  (.array items, rest)
          else if head = 0x22 then
            (readString rest).map fun (text, rest) => (.string text, rest)
          else if head = 0x2d then
            (readMagnitude true rest).map fun (text, rest) => (.number text, rest)
          else if (digit? head).isSome then
            (readMagnitude false (head :: rest)).map fun (text, rest) => (.number text, rest)
          else if head = 0x6e then
            (expect [0x75, 0x6c, 0x6c] rest).map fun rest => (.null, rest)
          else if head = 0x74 then
            (expect [0x72, 0x75, 0x65] rest).map fun rest => (.bool true, rest)
          else if head = 0x66 then
            (expect [0x61, 0x6c, 0x73, 0x65] rest).map fun rest => (.bool false, rest)
          else none

/-- Reads the values of an array up to its closing bracket. -/
def readItems : Nat → Bytes → Option (List Json × Bytes)
  | 0, _ => none
  | fuel + 1, bytes =>
      match readValue fuel bytes with
      | none => none
      | some (item, rest) =>
          match skipBlanks rest with
          | [] => none
          | next :: behind =>
              if next = 0x5d then some ([item], behind)
              else if next = 0x2c then
                (readItems fuel behind).map fun (items, rest) => (item :: items, rest)
              else none

/-- Reads the members of an object up to its closing brace. -/
def readMembers : Nat → Bytes → Option (List (Option String × Json) × Bytes)
  | 0, _ => none
  | fuel + 1, bytes =>
      match skipBlanks bytes with
      | [] => none
      | quote :: rest =>
          if quote = 0x22 then
            match readString rest with
            | none => none
            | some (name, rest) =>
                match skipBlanks rest with
                | [] => none
                | colon :: rest =>
                    if colon = 0x3a then
                      match readValue fuel rest with
                      | none => none
                      | some (value, rest) =>
                          match skipBlanks rest with
                          | [] => none
                          | next :: behind =>
                              if next = 0x7d then some ([(name, value)], behind)
                              else if next = 0x2c then
                                (readMembers fuel behind).map fun (members, rest) =>
                                  ((name, value) :: members, rest)
                              else none
                    else none
          else none

end

/-- Reads a text that holds one value and blanks around it. -/
def parse? (bytes : Bytes) : Option Json :=
  match readValue (2 * bytes.length + 2) bytes with
  | some (value, rest) => if (skipBlanks rest).isEmpty then some value else none
  | none => none

end Json

end JobGrid
