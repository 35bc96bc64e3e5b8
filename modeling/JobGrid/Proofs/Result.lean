/-!
# Results that may be missing

Steps that are chained or mapped give a result exactly when each of them does.
-/

namespace JobGrid

namespace Result

universe u v w

variable {ε : Type u} {α : Type v} {β : Type w}

/-- A mapped step gives a result exactly when the step does. -/
theorem map_eq_ok {result : Except ε α} {change : α → β} {value : β} :
    result.map change = .ok value ↔ ∃ found, result = .ok found ∧ change found = value := by
  cases result with
  | error failure => simp [Except.map]
  | ok found => simp [Except.map]

/-- A mapped step fails exactly as the step does. -/
theorem map_eq_error {result : Except ε α} {change : α → β} {failure : ε} :
    result.map change = .error failure ↔ result = .error failure := by
  cases result with
  | error other => simp [Except.map]
  | ok found => simp [Except.map]

/-- Chained steps give a result exactly when both of them do. -/
theorem bind_eq_ok {α β : Type v} {result : Except ε α} {next : α → Except ε β} {value : β} :
    (result >>= next) = .ok value ↔ ∃ found, result = .ok found ∧ next found = .ok value := by
  cases result with
  | error failure => simp [bind, Except.bind]
  | ok found => simp [bind, Except.bind]

/-- Going on after a step that gave a result. -/
theorem ok_bind {α β : Type v} (value : α) (next : α → Except ε β) :
    (Except.ok value >>= next) = next value := rfl

/-- There is no going on after a step that gave none. -/
theorem error_bind {α β : Type v} (failure : ε) (next : α → Except ε β) :
    (Except.error failure >>= next) = .error failure := rfl

end Result

end JobGrid
