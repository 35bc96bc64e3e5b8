/-!
# Columns

A text in a column is filled up with blanks to the width of the column. A text that is wider
than its column stays as it is.
-/

namespace JobGrid

namespace Column

/-- The blanks that a text lacks to fill a column. -/
def filling (width : Nat) (text : String) : String :=
  String.ofList (List.replicate (width - text.length) ' ')

/-- A text at the left of its column. -/
def left (width : Nat) (text : String) : String := text ++ filling width text

/-- A text at the right of its column. -/
def right (width : Nat) (text : String) : String := filling width text ++ text

/-- A horizontal rule. -/
def rule (width : Nat) : String := String.ofList (List.replicate width '-')

/-- Lines of text, each of them ended. -/
def lines (texts : List String) : String := String.join (texts.map (· ++ "\n"))

theorem length_filling (width : Nat) (text : String) :
    (filling width text).length = width - text.length := by
  simp [filling]

@[simp] theorem length_left (width : Nat) (text : String) :
    (left width text).length = max width text.length := by
  rw [left, String.length_append, length_filling]
  omega

@[simp] theorem length_right (width : Nat) (text : String) :
    (right width text).length = max width text.length := by
  rw [right, String.length_append, length_filling]
  omega

end Column

end JobGrid
