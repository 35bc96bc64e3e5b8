import JobGrid.Json.Basic
import JobGrid.Uuid

/-!
# Encoding values

Values of a type may have a form in JSON. For some it is obvious: numbers, texts, truth values,
identifiers, and lists and optional values of them.
-/

namespace JobGrid

/-- Values with one form in JSON. -/
class Encode (α : Type) where
  encode : α → Json

export Encode (encode)

/-- Values that can be read from JSON. -/
class Decode (α : Type) where
  decode? : Json → Option α

export Decode (decode?)

instance : Encode Json := ⟨id⟩

instance : Encode Unit := ⟨fun _ => .null⟩

instance : Encode Bool := ⟨.bool⟩

instance : Encode Nat := ⟨.ofNat⟩

instance : Encode Int := ⟨.ofInt⟩

instance : Encode UInt32 := ⟨fun word => .ofNat word.toNat⟩

instance : Encode UInt64 := ⟨fun word => .ofNat word.toNat⟩

instance : Encode String := ⟨.ofString⟩

instance : Encode Uuid := ⟨fun id => .ofString id.text⟩

instance {α : Type} [Encode α] : Encode (Option α) := ⟨.ofOption encode⟩

instance {α : Type} [Encode α] : Encode (List α) := ⟨fun values => .array (values.map encode)⟩

end JobGrid
