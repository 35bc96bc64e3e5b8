import Mathlib.Tactic.Tauto
import JobGrid.Table

/-!
# Sums and members of tables

For each operation of a table it is said which values the table has afterwards, and how a sum
over them changes.
-/

namespace JobGrid

namespace Table

universe u v

variable {κ : Type u} {α : Type v} [DecidableEq κ]

theorem find_eq_some_iff {key : κ} {value : α} {entries : List (κ × α)}
    (distinct : (entries.map Prod.fst).Nodup) :
    find key entries = some value ↔ (key, value) ∈ entries := by
  induction entries with
  | nil => simp [find]
  | cons entry rest ih =>
      rw [List.map_cons, List.nodup_cons] at distinct
      have tail := ih distinct.2
      by_cases same : entry.1 = key
      · have outside : (key, value) ∉ rest := fun member =>
          distinct.1 (same ▸ List.mem_map_of_mem (f := Prod.fst) member)
        simp only [find, same, if_true, Option.some.injEq, List.mem_cons, outside, or_false]
        constructor
        · intro equal
          rw [← same, ← equal]
        · intro equal
          rw [← equal]
      · have differs : (key, value) ≠ entry := fun equal => same (by rw [← equal])
        simp [find, same, tail, differs]

theorem get?_eq_some_iff {table : Table κ α} {key : κ} {value : α} :
    table.get? key = some value ↔ (key, value) ∈ table.entries :=
  find_eq_some_iff table.nodup_keys

theorem mem_values_iff {table : Table κ α} {value : α} :
    value ∈ table.values ↔ ∃ key, table.get? key = some value := by
  simp [values, get?_eq_some_iff]

theorem mem_keys_iff {table : Table κ α} {key : κ} :
    key ∈ table.keys ↔ ∃ value, table.get? key = some value := by
  simp [keys, get?_eq_some_iff]

/-- What is made of the values may be made of the keys, through the lookup. -/
theorem map_keys {β : Type u} (table : Table κ α) (none : β) (make : α → β) :
    (table.keys.map fun key => (table.get? key).elim none make) = table.values.map make := by
  rw [keys, values, List.map_map, List.map_map]
  apply List.map_congr_left
  intro entry member
  have found : table.get? entry.1 = some entry.2 := get?_eq_some_iff.2 member
  simp only [Function.comp_apply, found, Option.elim_some]

theorem get?_modify (table : Table κ α) (key other : κ) (change : α → α) :
    (table.modify key change).get? other =
      if key = other then (table.get? other).map change else table.get? other := by
  cases found : table.get? key with
  | none =>
      simp only [modify, found]
      by_cases same : key = other
      · simp [← same, found]
      · simp [same]
  | some value =>
      simp only [modify, found, get?_insert]
      by_cases same : key = other
      · simp [← same, found]
      · simp [same]

theorem keys_modify (table : Table κ α) (key : κ) (change : α → α) :
    (table.modify key change).keys = table.keys := by
  cases found : table.get? key with
  | none => simp [modify, found]
  | some value =>
      have member : key ∈ table.keys := mem_keys_iff.2 ⟨value, found⟩
      simp [modify, found, keys_insert, member]

theorem mem_keys_insert {table : Table κ α} {key other : κ} {value : α} :
    other ∈ (table.insert key value).keys ↔ other = key ∨ other ∈ table.keys := by
  rw [keys_insert]
  by_cases member : key ∈ table.keys
  · rw [if_pos member]
    constructor
    · exact Or.inr
    · rintro (rfl | there)
      · exact member
      · exact there
  · rw [if_neg member, List.mem_append, List.mem_singleton, or_comm]

theorem mem_keys_ofList {key : κ} {pairs : List (κ × α)} :
    key ∈ (ofList pairs).keys ↔ key ∈ pairs.map Prod.fst := by
  have general : ∀ (pairs : List (κ × α)) (table : Table κ α),
      key ∈ (pairs.foldl (fun table pair => table.insert pair.1 pair.2) table).keys ↔
        key ∈ pairs.map Prod.fst ∨ key ∈ table.keys := by
    intro pairs
    induction pairs with
    | nil => simp
    | cons pair rest ih =>
        intro table
        rw [List.foldl_cons, ih, mem_keys_insert, List.map_cons, List.mem_cons]
        tauto
  simpa [ofList] using general pairs ∅

/-- A sum over the values after a value was stored: the new value counts instead of the
earlier one. -/
theorem sum_values_insert (weight : α → Nat) (table : Table κ α) (key : κ) (value : α) :
    ((table.insert key value).values.map weight).sum + ((table.get? key).map weight).getD 0 =
      (table.values.map weight).sum + weight value := by
  have general : ∀ entries : List (κ × α),
      ((put key value entries).map fun entry => weight entry.2).sum +
          ((find key entries).map weight).getD 0 =
        (entries.map fun entry => weight entry.2).sum + weight value := by
    intro entries
    induction entries with
    | nil => simp [put, find]
    | cons entry rest ih =>
        by_cases same : entry.1 = key
        · simp only [put, find, same, if_true, List.map_cons, List.sum_cons, Option.map_some,
            Option.getD_some]
          omega
        · simp only [put, find, same, if_false, List.map_cons, List.sum_cons]
          omega
  simpa [values, insert, get?, Function.comp_def] using general table.entries

theorem filter_eq_self_of_not_mem {key : κ} {entries : List (κ × α)}
    (outside : key ∉ entries.map Prod.fst) :
    entries.filter (fun entry => entry.1 ≠ key) = entries := by
  apply List.filter_eq_self.2
  intro entry member
  exact decide_eq_true fun same => outside (same ▸ List.mem_map_of_mem (f := Prod.fst) member)

theorem erase_of_not_mem {table : Table κ α} {key : κ} (absent : key ∉ table.keys) :
    table.erase key = table := by
  obtain ⟨entries, distinct⟩ := table
  simp only [erase, mk.injEq]
  exact filter_eq_self_of_not_mem absent

/-- Removing a key takes nothing but its entry away. -/
theorem perm_entries_erase {table : Table κ α} {key : κ} {value : α}
    (found : table.get? key = some value) :
    table.entries.Perm ((key, value) :: (table.erase key).entries) := by
  have general : ∀ entries : List (κ × α), (entries.map Prod.fst).Nodup →
      find key entries = some value →
      entries.Perm ((key, value) :: entries.filter fun entry => entry.1 ≠ key) := by
    intro entries distinct found
    induction entries with
    | nil => cases found
    | cons entry rest ih =>
        rw [List.map_cons, List.nodup_cons] at distinct
        by_cases same : entry.1 = key
        · rw [find, if_pos same, Option.some.injEq] at found
          rw [List.filter_cons_of_neg (by simp [same]),
            filter_eq_self_of_not_mem (same ▸ distinct.1), ← same, ← found]
        · rw [find, if_neg same] at found
          rw [List.filter_cons_of_pos (by simp [same])]
          exact ((ih distinct.2 found).cons entry).trans (.swap _ _ _)
  exact general table.entries table.nodup_keys found

/-- A sum over the values after a key was removed. -/
theorem sum_values_erase (weight : α → Nat) (table : Table κ α) (key : κ) :
    ((table.erase key).values.map weight).sum + ((table.get? key).map weight).getD 0 =
      (table.values.map weight).sum := by
  cases found : table.get? key with
  | none => simp [erase_of_not_mem (get?_eq_none_iff.1 found)]
  | some value =>
      have split := ((perm_entries_erase found).map fun entry => weight entry.2).sum_nat
      simp only [values, List.map_map, Option.map_some, Option.getD_some]
      simp only [List.map_cons, List.sum_cons] at split
      exact (Nat.add_comm _ _).trans split.symm

/-- A value counts no more than all values together. -/
theorem weight_le_sum_values (weight : α → Nat) {table : Table κ α} {key : κ} {value : α}
    (found : table.get? key = some value) :
    weight value ≤ (table.values.map weight).sum := by
  have removed := sum_values_erase weight table key
  rw [found, Option.map_some, Option.getD_some] at removed
  omega

/-- A new key comes behind all others. -/
theorem entries_insert_of_not_mem {table : Table κ α} {key : κ} (absent : key ∉ table.keys)
    (value : α) : (table.insert key value).entries = table.entries ++ [(key, value)] := by
  have general : ∀ entries : List (κ × α), key ∉ entries.map Prod.fst →
      put key value entries = entries ++ [(key, value)] := by
    intro entries outside
    induction entries with
    | nil => rfl
    | cons entry rest ih =>
        rw [List.map_cons, List.mem_cons, not_or] at outside
        rw [put, if_neg (Ne.symm outside.1), ih outside.2, List.cons_append]
  exact general table.entries absent

end Table

end JobGrid
