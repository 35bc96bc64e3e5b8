import JobGrid.Table
import JobGrid.Text.Digits

/-!
# Command line arguments

Arguments are read as options. An option has a long name and perhaps a letter; its value is
attached to it or is the next argument. Each option is given at most once, and there are no
other arguments.
-/

namespace JobGrid

/-- The form of an option. -/
structure OptionForm where
  name : String
  letter : Option Char := none
  takesValue : Bool := true

/-- What an argument stands for. -/
inductive ArgumentToken where
  /-- The end of the options. -/
  | stop
  /-- An option, and the value that is attached to it. -/
  | option (form : OptionForm) (attached : Option String)

namespace ArgumentToken

/-- The value after an equals sign. -/
def afterEquals : List Char → Option String
  | '=' :: value => some (String.ofList value)
  | _ => none

/-- The value right after the letter of an option. -/
def afterLetter : List Char → Option String
  | [] => none
  | '=' :: value => some (String.ofList value)
  | value => some (String.ofList value)

/-- What an argument stands for among options of some forms. -/
def ofArgument? (forms : List OptionForm) (argument : String) : Option ArgumentToken :=
  match argument.toList with
  | ['-', '-'] => some stop
  | '-' :: '-' :: text =>
      let name := String.ofList (text.takeWhile (· ≠ '='))
      (forms.find? fun form => form.name = name).map fun form =>
        option form (afterEquals (text.dropWhile (· ≠ '=')))
  | '-' :: letter :: text =>
      (forms.find? fun form => form.letter = some letter).map fun form =>
        option form (afterLetter text)
  | _ => none

end ArgumentToken

/-- The options that were given, with their values. -/
abbrev GivenOptions := Table String String

namespace GivenOptions

/-- Enters an option, unless it was given before. -/
def enter (given : GivenOptions) (form : OptionForm) (value : String) : Option GivenOptions :=
  if given.contains form.name then none else some (given.insert form.name value)

/-- Whether an argument can be the value of the option before it. -/
def isValue (argument : String) : Bool := argument = "-" || argument.toList.head? ≠ some '-'

/-- Reads arguments as options, beside those that were already read. -/
def read (forms : List OptionForm) : List String → GivenOptions → Option GivenOptions
  | [], given => some given
  | argument :: rest, given =>
      match ArgumentToken.ofArgument? forms argument with
      | none => none
      | some .stop => if rest.isEmpty then some given else none
      | some (.option form attached) =>
          if form.takesValue then
            match attached, rest with
            | some value, rest => do read forms rest (← enter given form value)
            | none, value :: rest =>
                if isValue value then do read forms rest (← enter given form value) else none
            | none, [] => none
          else if attached.isSome then none
          else do read forms rest (← enter given form "")

/-- The digits of a number, which may have a plus sign before them. -/
def unsigned : List Char → List Char
  | '+' :: digits => digits
  | digits => digits

/-- The number below a bound that a text stands for. -/
def natural? (bound : Nat) (text : String) : Option Nat := do
  let digits ← (unsigned text.toList).mapM Digits.decimal?
  let number := Digits.value 10 digits
  if digits.isEmpty ∨ bound ≤ number then none else some number

/-- The value of an option, if it was given: nothing if it cannot be read. -/
def valueAt? {α : Type} (given : GivenOptions) (name : String) (read : String → Option α) :
    Option (Option α) :=
  match given.get? name with
  | none => some none
  | some text => (read text).map some

/-- The value of an option, or a usual one: nothing if it cannot be read. -/
def valueAt {α : Type} (given : GivenOptions) (name : String) (read : String → Option α)
    (usual : α) : Option α :=
  (given.valueAt? name read).map fun value => value.getD usual

end GivenOptions

/-- How a report is printed. -/
inductive OutputFormat where
  | table
  | json
  deriving DecidableEq

namespace OutputFormat

def ofName? : String → Option OutputFormat
  | "table" => some table
  | "json" => some json
  | _ => none

/-- The option that chooses the format. -/
def form : OptionForm := { name := "output", letter := some 'o' }

end OutputFormat

end JobGrid
