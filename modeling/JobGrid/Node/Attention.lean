import JobGrid.Error

/-!
# Attention

A node looks through its jobs whenever it was asked to. Requests that come together are served
together. While the node rests, a first request wakes it and a second one makes it look twice;
while it looks, one more look is enough for all of them.
-/

namespace JobGrid

/-- The looks that a node owes to its jobs. -/
structure Attention where
  due : Nat := 0
  rests : Bool := false
  deriving DecidableEq

namespace Attention

/-- Asks for a look. -/
def request (attention : Attention) : Attention :=
  { attention with due := if attention.rests then min (attention.due + 1) 2 else 1 }

/-- Takes up a look. -/
def take (attention : Attention) : Attention := ⟨attention.due - 1, false⟩

/-- Waits for the next request. -/
def rest (attention : Attention) : Attention := { attention with rests := true }

@[simp] theorem due_request_pos (attention : Attention) : 0 < attention.request.due := by
  simp only [request]
  split <;> omega

end Attention

end JobGrid
