import JobGrid.Json.Number

/-!
# Records and tagged choices in JSON

Records are read from JSON values of two forms. A record is an object with named members, of
which unknown ones are ignored and known ones may not repeat, or an array with the fields in
order. A choice between records carries its kind as one more member or as the first item. The
value of such a choice is held back whole until its kind is known, so it must be sound and must
not be nested too deeply.
-/

namespace JobGrid

namespace Json

/-- The deepest nesting of a value that is looked at. -/
def depthLimit : Nat := 127

/-- Whether a value under some enclosing arrays and objects may be held back whole. -/
def mayHold (enclosing : Nat) (value : Json) : Bool :=
  value.sound && enclosing + value.depth ≤ depthLimit

/-- The values of the members with a given name. -/
def valuesOf (name : String) (members : List (Option String × Json)) : List Json :=
  members.filterMap fun member => if member.1 = some name then some member.2 else none

/-- The only value of a name, if it has one; the outer option fails on a repeated name. -/
def single? : List Json → Option (Option Json)
  | [] => some none
  | [value] => some (some value)
  | _ => none

/-- The values of the named fields in order. The array form may leave out fields at its end
only where it need not be complete. -/
def fields? (names : List String) (complete : Bool) : Json → Option (List (Option Json))
  | .object members =>
      if members.all fun member => member.1.isSome then
        names.mapM fun name => single? (valuesOf name members)
      else none
  | .array items =>
      if items.length ≤ names.length ∧ (complete → items.length = names.length) then
        some (items.map some ++ List.replicate (names.length - items.length) none)
      else none
  | _ => none

/-- A field that must be there. -/
def required {α : Type} (decode : Json → Option α) (field : Option Json) : Option α :=
  field.bind decode

/-- A field with a default. -/
def defaulting {α : Type} (default : α) (decode : Json → Option α) : Option Json → Option α
  | none => some default
  | some value => decode value

/-- A field that may be absent or null. -/
def nullable {α : Type} (decode : Json → Option α) : Option Json → Option (Option α)
  | none => some none
  | some .null => some none
  | some value => (decode value).map some

/-- How the kind of a choice is written: by name, or, in a value that was held back, also
by its number. -/
def kindOf? (kinds : List String) (held : Bool) : Json → Option String
  | .string (some name) => if name ∈ kinds then some name else none
  | value =>
      if held then (value.natBelow? kinds.length).bind fun index => kinds[index]? else none

/-- The kind of a choice and the record that belongs to it. -/
def choice? (kinds : List String) (held : Bool) : Json → Option (String × Json)
  | .object members => do
      let tag ← (← single? (valuesOf "kind" members))
      let kind ← kindOf? kinds held tag
      some (kind, .object (members.filter fun member => member.1 ≠ some "kind"))
  | .array (tag :: items) => (kindOf? kinds held tag).map fun kind => (kind, .array items)
  | _ => none

/-- A plain choice between names: the name as a string, or as the only member, with null. -/
def name? (names : List String) : Json → Option String
  | .string (some name) => if name ∈ names then some name else none
  | .object [(some name, .null)] => if name ∈ names then some name else none
  | _ => none

end Json

end JobGrid
