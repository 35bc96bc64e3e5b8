import JobGrid.Arithmetic

/-!
# Finite tables

A table is a finite map kept as the list of its entries in the order in which their keys first
arrived. Every bookkeeping structure of a node (requests of its peers, sessions, pending jobs)
is such a table, so the order in which entries are walked is explicit and each operation has one
equation through the lookup.
-/

namespace JobGrid

universe u v w

/-- A finite map that remembers the order of arrival of its keys. -/
structure Table (κ : Type u) (α : Type v) where
  entries : List (κ × α)
  nodup_keys : (entries.map Prod.fst).Nodup

namespace Table

variable {κ : Type u} {α : Type v} {β : Type w}

/-- The table without entries. -/
def empty : Table κ α := ⟨[], List.nodup_nil⟩

instance : EmptyCollection (Table κ α) := ⟨empty⟩

instance : Inhabited (Table κ α) := ⟨empty⟩

/-- The keys in order of arrival. -/
def keys (table : Table κ α) : List κ := table.entries.map Prod.fst

/-- The values in order of arrival of their keys. -/
def values (table : Table κ α) : List α := table.entries.map Prod.snd

/-- The number of entries. -/
def size (table : Table κ α) : Nat := table.entries.length

def isEmpty (table : Table κ α) : Bool := table.entries.isEmpty

theorem keys_nodup (table : Table κ α) : table.keys.Nodup := table.nodup_keys

@[simp] theorem entries_empty : (∅ : Table κ α).entries = [] := rfl

@[simp] theorem keys_empty : (∅ : Table κ α).keys = [] := rfl

section Lookup

variable [DecidableEq κ]

/-- The value of the first entry with the given key. -/
def find (key : κ) : List (κ × α) → Option α
  | [] => none
  | entry :: rest => if entry.1 = key then some entry.2 else find key rest

/-- Overwrites the entry with the given key in place, or appends one. -/
def put (key : κ) (value : α) : List (κ × α) → List (κ × α)
  | [] => [(key, value)]
  | entry :: rest =>
      if entry.1 = key then (key, value) :: rest else entry :: put key value rest

theorem find_eq_none_iff {key : κ} {entries : List (κ × α)} :
    find key entries = none ↔ key ∉ entries.map Prod.fst := by
  induction entries with
  | nil => simp [find]
  | cons entry rest ih =>
      by_cases same : entry.1 = key
      · simp [find, same]
      · simp [find, same, ih, Ne.symm same]

theorem find_put (key other : κ) (value : α) (entries : List (κ × α)) :
    find other (put key value entries) =
      if key = other then some value else find other entries := by
  induction entries with
  | nil => simp [put, find]
  | cons entry rest ih => grind [put, find]

theorem map_fst_put (key : κ) (value : α) (entries : List (κ × α)) :
    (put key value entries).map Prod.fst =
      if key ∈ entries.map Prod.fst then entries.map Prod.fst
      else entries.map Prod.fst ++ [key] := by
  induction entries with
  | nil => simp [put]
  | cons entry rest ih =>
      by_cases same : entry.1 = key
      · simp [put, same]
      · simp only [put, same, if_false, List.map_cons, ih, List.mem_cons, Ne.symm same,
          false_or]
        split <;> simp

theorem nodup_put {key : κ} {value : α} {entries : List (κ × α)}
    (distinct : (entries.map Prod.fst).Nodup) :
    ((put key value entries).map Prod.fst).Nodup := by
  rw [map_fst_put]
  split
  · exact distinct
  · rename_i absent
    rw [List.nodup_append]
    refine ⟨distinct, by simp, ?_⟩
    intro left member right one equal
    rw [List.mem_singleton] at one
    exact absent (one ▸ equal ▸ member)

/-- The value stored under a key. -/
def get? (table : Table κ α) (key : κ) : Option α := find key table.entries

def contains (table : Table κ α) (key : κ) : Bool := (table.get? key).isSome

/-- The value stored under a key, or a default. -/
def getD (table : Table κ α) (key : κ) (default : α) : α := (table.get? key).getD default

/-- Stores a value; a key that is present keeps its place. -/
def insert (table : Table κ α) (key : κ) (value : α) : Table κ α :=
  ⟨put key value table.entries, nodup_put table.nodup_keys⟩

/-- Removes the entry of a key. -/
def erase (table : Table κ α) (key : κ) : Table κ α :=
  ⟨table.entries.filter fun entry => entry.1 ≠ key, by
    have sublist : ((table.entries.filter fun entry => entry.1 ≠ key).map Prod.fst).Sublist
        (table.entries.map Prod.fst) := List.Sublist.map _ List.filter_sublist
    exact sublist.nodup table.nodup_keys⟩

/-- Replaces the value under a key, if there is one. -/
def modify (table : Table κ α) (key : κ) (change : α → α) : Table κ α :=
  match table.get? key with
  | some value => table.insert key (change value)
  | none => table

/-- Stores the pairs one after another, so that the last one of a key wins. -/
def ofList (pairs : List (κ × α)) : Table κ α :=
  pairs.foldl (fun table pair => table.insert pair.1 pair.2) ∅

@[simp] theorem get?_empty (key : κ) : (∅ : Table κ α).get? key = none := rfl

theorem get?_insert (table : Table κ α) (key other : κ) (value : α) :
    (table.insert key value).get? other =
      if key = other then some value else table.get? other :=
  find_put key other value table.entries

@[simp] theorem get?_insert_self (table : Table κ α) (key : κ) (value : α) :
    (table.insert key value).get? key = some value := by
  simp [get?_insert]

theorem get?_insert_of_ne (table : Table κ α) {key other : κ} (value : α)
    (differs : key ≠ other) : (table.insert key value).get? other = table.get? other := by
  simp [get?_insert, differs]

theorem find_filter_ne (key other : κ) (entries : List (κ × α)) :
    find other (entries.filter fun entry => entry.1 ≠ key) =
      if key = other then none else find other entries := by
  induction entries with
  | nil => simp [find]
  | cons entry rest ih => grind [find]

theorem get?_erase (table : Table κ α) (key other : κ) :
    (table.erase key).get? other = if key = other then none else table.get? other :=
  find_filter_ne key other table.entries

@[simp] theorem get?_erase_self (table : Table κ α) (key : κ) :
    (table.erase key).get? key = none := by
  simp [get?_erase]

theorem get?_erase_of_ne (table : Table κ α) {key other : κ} (differs : key ≠ other) :
    (table.erase key).get? other = table.get? other := by
  simp [get?_erase, differs]

theorem keys_insert (table : Table κ α) (key : κ) (value : α) :
    (table.insert key value).keys =
      if key ∈ table.keys then table.keys else table.keys ++ [key] :=
  map_fst_put key value table.entries

theorem keys_erase (table : Table κ α) (key : κ) :
    (table.erase key).keys = table.keys.filter (· ≠ key) := by
  simp [keys, erase, List.filter_map, Function.comp_def]

theorem get?_eq_none_iff {table : Table κ α} {key : κ} :
    table.get? key = none ↔ key ∉ table.keys :=
  find_eq_none_iff

theorem contains_iff_mem_keys {table : Table κ α} {key : κ} :
    table.contains key = true ↔ key ∈ table.keys := by
  have absent : table.get? key = none ↔ key ∉ table.keys := get?_eq_none_iff
  cases found : table.get? key with
  | none => simp [contains, found, absent.1 found]
  | some value =>
      simp only [contains, found, Option.isSome_some, true_iff]
      exact Decidable.byContradiction fun outside => by simp [absent.2 outside] at found

end Lookup

end Table

end JobGrid
