import JobGrid.Json.Number

/-!
# Looking into JSON values

Parts of a JSON value are found by name, with a fixed value where a part is missing or has
another form.
-/

namespace JobGrid

namespace Json

/-- The members of an object that have a name; other values have none. -/
def members : Json → List (String × Json)
  | .object entries => entries.filterMap fun entry => entry.1.map fun name => (name, entry.2)
  | _ => []

/-- The items of an array; other values have none. -/
def items : Json → List Json
  | .array values => values
  | _ => []

/-- The first member with a name, unless it is null. -/
def get? (value : Json) (name : String) : Option Json :=
  match value.members.find? fun member => member.1 = name with
  | some (_, .null) => none
  | some (_, found) => some found
  | none => none

/-- The items of the array under a name. -/
def itemsAt (value : Json) (name : String) : List Json :=
  match value.get? name with
  | some found => found.items
  | none => []

/-- A string, or the empty one. -/
def textD (value : Json) : String := value.string?.getD ""

/-- A natural number, or zero. -/
def natD (value : Json) : Nat := (value.int?.map Int.toNat).getD 0

/-- The string under a name, or the empty one. -/
def textAt (value : Json) (name : String) : String := ((value.get? name).map textD).getD ""

/-- The natural number under a name, or zero. -/
def natAt (value : Json) (name : String) : Nat := ((value.get? name).map natD).getD 0

/-- The truth value under a name, or false. -/
def boolAt (value : Json) (name : String) : Bool := ((value.get? name).bind bool?).getD false

end Json

end JobGrid
