/-!
# Arrangements

Some orders are prescribed by nothing. Where several things are done one after another and any
order is right, the order is an arrangement: a function that only permutes.
-/

namespace JobGrid

/-- A way to put things in order. -/
structure Arrangement (α : Type) where
  arrange : List α → List α
  perm : ∀ items, (arrange items).Perm items

namespace Arrangement

/-- Things stay in the order in which they come. -/
def asGiven (α : Type) : Arrangement α := ⟨id, fun items => .refl items⟩

instance {α : Type} : Inhabited (Arrangement α) := ⟨asGiven α⟩

theorem mem_arrange {α : Type} (order : Arrangement α) {items : List α} {item : α} :
    item ∈ order.arrange items ↔ item ∈ items :=
  (order.perm items).mem_iff

end Arrangement

end JobGrid
