/-!
# Blank characters

Words are separated by blank characters: those with the Unicode property White_Space.
-/

namespace JobGrid

/-- Whether a character is blank. -/
def isBlank (char : Char) : Bool :=
  let code := char.toNat
  (0x09 ≤ code && code ≤ 0x0d) || code == 0x20 || code == 0x85 || code == 0xa0 ||
    code == 0x1680 || (0x2000 ≤ code && code ≤ 0x200a) || code == 0x2028 || code == 0x2029 ||
    code == 0x202f || code == 0x205f || code == 0x3000

/-- A text without the blanks at its start. -/
def trimStart (chars : List Char) : List Char := chars.dropWhile isBlank

end JobGrid
