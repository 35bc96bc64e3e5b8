import JobGrid.Member.Json
import JobGrid.Proofs.Json.RoundTrip

/-!
# Reading written records

The fields of a written record are found again, and so are words, identifiers and texts that may
be absent.
-/

namespace JobGrid

namespace Json

/-- Members with distinct names have one value each. -/
theorem valuesOf_of_mem {members : List (String × Json)} {member : String × Json}
    (distinct : (members.map Prod.fst).Nodup) (known : member ∈ members) :
    valuesOf member.1 (members.map fun member => (some member.1, member.2)) = [member.2] := by
  induction members with
  | nil => cases known
  | cons first rest ih =>
      rw [List.map_cons, List.nodup_cons] at distinct
      have others : ∀ name, name ∉ rest.map Prod.fst →
          valuesOf name (rest.map fun member => (some member.1, member.2)) = [] := by
        intro name absent
        simp only [valuesOf, List.filterMap_map, List.filterMap_eq_nil_iff]
        intro other inside
        have differs : other.1 ≠ name := fun same =>
          absent (same ▸ List.mem_map_of_mem (f := Prod.fst) inside)
        simp [differs]
      rw [List.mem_cons] at known
      by_cases same : first.1 = member.1
      · cases known with
        | inl equal =>
            subst equal
            have tail := others member.1 distinct.1
            simp only [valuesOf] at tail
            simp [valuesOf, tail]
        | inr inside =>
            exact absurd (same ▸ List.mem_map_of_mem (f := Prod.fst) inside) distinct.1
      · have inside : member ∈ rest := known.resolve_left fun equal => same (by rw [equal])
        have tail := ih distinct.2 inside
        simp only [valuesOf] at tail
        simp [valuesOf, same, tail]

/-- The fields of a written record are found in order. -/
theorem fields?_ofMembers (members : List (String × Json)) (complete : Bool)
    (distinct : (members.map Prod.fst).Nodup) :
    fields? (members.map Prod.fst) complete (ofMembers members) =
      some (members.map fun member => some member.2) := by
  have named : (members.map fun member => (some member.1, member.2)).all
      (fun member => member.1.isSome) = true := by
    simp
  have found : ∀ part : List (String × Json), part ⊆ members →
      (part.map Prod.fst).mapM (fun name => single? (valuesOf name
        (members.map fun member => (some member.1, member.2)))) =
          some (part.map fun member => some member.2) := by
    intro part
    induction part with
    | nil => exact fun _ => rfl
    | cons member rest ih =>
        intro included
        have inside : member ∈ members := included List.mem_cons_self
        have first := valuesOf_of_mem distinct inside
        have tail := ih fun other inside => included (List.mem_cons_of_mem member inside)
        rw [List.map_cons, List.mapM_cons, first, tail]
        rfl
  rw [ofMembers, fields?, if_pos named]
  exact found members fun member inside => inside

theorem wellFormedMembers_map {members : List (String × Json)}
    (values : ∀ member ∈ members, member.2.WellFormed) :
    WellFormedMembers (members.map fun member => (some member.1, member.2)) := by
  induction members with
  | nil => trivial
  | cons member rest ih =>
      exact ⟨rfl, values member (by simp), ih fun other inside => values other (by simp [inside])⟩

theorem wellFormed_ofMembers {members : List (String × Json)}
    (values : ∀ member ∈ members, member.2.WellFormed) : (ofMembers members).WellFormed :=
  wellFormedMembers_map values

theorem wellFormed_ofNat (number : Nat) : (ofNat number).WellFormed :=
  NumberText.wellFormed_ofNat number

theorem wellFormed_ofString (text : String) : (ofString text).WellFormed := rfl

@[simp] theorem word32?_encode (word : UInt32) : word32? (encode word) = some word := by
  have small : word.toNat < 2 ^ 32 := word.toNat_lt
  have found := natBelow?_ofNat small (by decide)
  have known : natBelow? (2 ^ 32) (encode word) = some word.toNat := found
  rw [word32?, known, Option.map_some, UInt32.ofNat_toNat]

@[simp] theorem word64?_encode (word : UInt64) : word64? (encode word) = some word := by
  have small : word.toNat < 2 ^ 64 := word.toNat_lt
  have found := natBelow?_ofNat small (Nat.le_refl _)
  have known : natBelow? (2 ^ 64) (encode word) = some word.toNat := found
  rw [word64?, known, Option.map_some, UInt64.ofNat_toNat]

@[simp] theorem uuid_ofJson?_encode (id : Uuid) : Uuid.ofJson? (encode id) = some id := by
  simp [Uuid.ofJson?, encode, Uuid.ofText?_text]

@[simp] theorem nullable_encode {α : Type} [Encode α] {decode : Json → Option α}
    (value : Option α) (present : ∀ value : α, encode value ≠ .null)
    (decodes : ∀ value : α, decode (encode value) = some value) :
    nullable decode (some (encode value)) = some value := by
  cases value with
  | none => rfl
  | some value =>
      have shown : (encode (some value) : Json) = encode value := rfl
      rw [shown]
      cases written : (encode value : Json) with
      | null => exact absurd written (present value)
      | _ => simp [nullable, ← written, decodes]

end Json

end JobGrid
