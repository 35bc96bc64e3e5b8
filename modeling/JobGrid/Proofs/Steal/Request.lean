import JobGrid.Proofs.Table
import JobGrid.Steal.Request

/-!
# Tables of steal requests

Noting, serving and dropping a request changes the amounts of a table, and their sum by the
difference.
-/

namespace JobGrid

namespace StealEntry

/-- A request is valid as long as it is younger than the time after which requests run out. -/
theorem isExpired_eq_false_iff {entry : StealEntry} {expiry : Nat} {now : Moment}
    (asks : 0 < entry.jobs) : entry.isExpired expiry now = false ↔ entry.age now < expiry := by
  simp [isExpired, asks]

end StealEntry

namespace StealTable

theorem jobs_eq (table : StealTable) (peer : NodeId) :
    table.jobs peer = ((table.peers.get? peer).map StealEntry.jobs).getD 0 := rfl

theorem jobs_of_get? {table : StealTable} {peer : NodeId} {entry : StealEntry}
    (found : table.get? peer = some entry) : table.jobs peer = entry.jobs := by
  have inPeers : table.peers.get? peer = some entry := found
  simp [jobs_eq, inPeers]

theorem get?_of_jobs_pos {table : StealTable} {peer : NodeId} (asks : 0 < table.jobs peer) :
    ∃ entry, table.get? peer = some entry ∧ entry.jobs = table.jobs peer := by
  cases found : table.get? peer with
  | none =>
      have inPeers : table.peers.get? peer = none := found
      simp [jobs_eq, inPeers] at asks
  | some entry => exact ⟨entry, rfl, (jobs_of_get? found).symm⟩

/-- Only the amounts of a table make up its total. -/
theorem jobs_le_total (table : StealTable) (peer : NodeId) : table.jobs peer ≤ table.total := by
  cases found : table.peers.get? peer with
  | none => simp [jobs_eq, found]
  | some entry =>
      rw [jobs_of_get? found]
      exact Table.weight_le_sum_values StealEntry.jobs found

section Ensure

variable (table : StealTable) (now : Moment) (peer other : NodeId)

/-- An entry that was there stays; a new one asks for nothing. -/
theorem get?_ensure :
    (table.ensure now peer).get? other =
      if peer = other then
        some ((table.get? peer).getD ⟨0, now, table.issued⟩)
      else table.get? other := by
  cases found : table.peers.get? peer with
  | none =>
      simp only [ensure, Table.contains, found, Option.isSome_none, Bool.false_eq_true, if_false,
        get?, Table.get?_insert, Option.getD_none]
  | some entry =>
      simp only [ensure, Table.contains, found, Option.isSome_some, if_true, get?,
        Option.getD_some]
      by_cases same : peer = other
      · rw [if_pos same, ← same, found]
      · rw [if_neg same]

@[simp] theorem jobs_ensure : (table.ensure now peer).jobs other = table.jobs other := by
  have looked := get?_ensure table now peer other
  simp only [get?] at looked
  rw [jobs_eq, jobs_eq, looked]
  by_cases same : peer = other
  · rw [if_pos same, ← same]
    cases table.peers.get? peer <;> rfl
  · rw [if_neg same]

@[simp] theorem total_ensure : (table.ensure now peer).total = table.total := by
  cases found : table.peers.get? peer with
  | none =>
      have inserted := Table.sum_values_insert StealEntry.jobs table.peers peer
        ⟨0, now, table.issued⟩
      rw [found] at inserted
      simpa [ensure, Table.contains, found, total] using inserted
  | some entry => simp [ensure, Table.contains, found]

theorem mem_keys_ensure :
    other ∈ (table.ensure now peer).peers.keys ↔ other = peer ∨ other ∈ table.peers.keys := by
  cases found : table.peers.get? peer with
  | none =>
      have absent : peer ∉ table.peers.keys := Table.get?_eq_none_iff.1 found
      simp [ensure, Table.contains, found, Table.keys_insert, absent, or_comm]
  | some entry =>
      have member : peer ∈ table.peers.keys := Table.mem_keys_iff.2 ⟨entry, found⟩
      simp only [ensure, Table.contains, found, Option.isSome_some, if_true]
      exact ⟨Or.inr, fun either => either.elim (fun same => same ▸ member) id⟩

end Ensure

section Change

variable (table : StealTable) (now : Moment) (peer other : NodeId)

/-- What a table holds for a peer whose entry is made sure of and then changed. -/
theorem get?_modify_ensure (change : StealEntry → StealEntry) :
    ((table.ensure now peer).peers.modify peer change).get? other =
      if peer = other then
        some (change ((table.get? peer).getD ⟨0, now, table.issued⟩))
      else table.get? other := by
  have looked := get?_ensure table now peer other
  simp only [get?] at looked
  rw [Table.get?_modify, looked]
  by_cases same : peer = other
  · rw [if_pos same, if_pos same, if_pos same]
    rfl
  · rw [if_neg same, if_neg same, if_neg same]
    rfl

/-- The total after the entry of a peer was made sure of and changed. -/
theorem total_modify_ensure (change : StealEntry → StealEntry) :
    (((table.ensure now peer).peers.modify peer change).values.map StealEntry.jobs).sum +
        table.jobs peer =
      table.total + (change ((table.get? peer).getD ⟨0, now, table.issued⟩)).jobs := by
  have looked := get?_ensure table now peer peer
  rw [if_pos rfl] at looked
  have inserted := Table.sum_values_insert StealEntry.jobs (table.ensure now peer).peers peer
    (change ((table.get? peer).getD ⟨0, now, table.issued⟩))
  have amount := jobs_ensure table now peer peer
  rw [jobs_of_get? looked] at amount
  have sum := total_ensure table now peer
  simp only [total] at sum ⊢
  simp only [get?] at looked
  rw [looked, Option.map_some, Option.getD_some, sum] at inserted
  simp only [Table.modify, looked]
  simp only [get?] at inserted amount ⊢
  omega

end Change

section Reset

variable (table : StealTable) (now : Moment) (peer other : NodeId) (jobs : Nat)

/-- A request replaces the one of its peer and leaves all others alone. -/
theorem get?_reset :
    (table.reset now peer jobs).get? other =
      if peer = other then
        some { (table.get? peer).getD ⟨0, now, table.issued⟩ with jobs, since := now }
      else table.get? other :=
  get?_modify_ensure table now peer other fun entry => { entry with jobs, since := now }

theorem jobs_reset :
    (table.reset now peer jobs).jobs other = if peer = other then jobs else table.jobs other := by
  have looked := get?_reset table now peer other jobs
  simp only [get?] at looked
  rw [jobs_eq, looked]
  by_cases same : peer = other
  · simp [same]
  · simp [same, jobs_eq]

/-- A request counts instead of the earlier one of its peer. -/
theorem total_reset : (table.reset now peer jobs).total + table.jobs peer = table.total + jobs :=
  total_modify_ensure table now peer fun entry => { entry with jobs, since := now }

theorem mem_keys_reset :
    other ∈ (table.reset now peer jobs).peers.keys ↔ other = peer ∨ other ∈ table.peers.keys := by
  rw [reset, Table.keys_modify]
  exact mem_keys_ensure table now peer other

end Reset

section Remove

variable (table : StealTable) (peer other : NodeId)

theorem get?_remove :
    (table.remove peer).get? other = if peer = other then none else table.get? other :=
  Table.get?_erase table.peers peer other

theorem jobs_remove :
    (table.remove peer).jobs other = if peer = other then 0 else table.jobs other := by
  have looked := get?_remove table peer other
  simp only [get?] at looked
  rw [jobs_eq, looked]
  by_cases same : peer = other
  · simp [same]
  · simp [same, jobs_eq]

/-- A request that is dropped does not count any more. -/
theorem total_remove : (table.remove peer).total + table.jobs peer = table.total :=
  Table.sum_values_erase StealEntry.jobs table.peers peer

theorem mem_keys_remove :
    other ∈ (table.remove peer).peers.keys ↔ other ∈ table.peers.keys ∧ other ≠ peer := by
  simp [remove, Table.keys_erase]

end Remove

section Decrement

variable {table : StealTable} {now : Moment} {peer : NodeId}

/-- What is left of the requests after one job was taken off the request of a peer. -/
def served (table : StealTable) (now : Moment) (peer : NodeId) : StealTable :=
  { table.ensure now peer with
    peers := (table.ensure now peer).peers.modify peer fun entry =>
      { entry with jobs := entry.jobs - 1 } }

/-- A job can be taken off every request that asks for one. -/
theorem decrement_eq_ok (asks : 0 < table.jobs peer) :
    table.decrement now peer = .ok (table.served now peer) := by
  rw [decrement, if_neg (by omega)]
  rfl

theorem get?_served (other : NodeId) :
    (table.served now peer).get? other =
      if peer = other then
        some { (table.get? peer).getD ⟨0, now, table.issued⟩ with
          jobs := ((table.get? peer).getD ⟨0, now, table.issued⟩).jobs - 1 }
      else table.get? other :=
  get?_modify_ensure table now peer other fun entry => { entry with jobs := entry.jobs - 1 }

theorem jobs_served (other : NodeId) :
    (table.served now peer).jobs other =
      if peer = other then table.jobs other - 1 else table.jobs other := by
  have looked : (table.served now peer).get? other = _ := get?_served other
  simp only [get?] at looked
  rw [jobs_eq, looked, jobs_eq]
  by_cases same : peer = other
  · rw [if_pos same, if_pos same, ← same]
    cases table.peers.get? peer <;> rfl
  · rw [if_neg same, if_neg same]

/-- A served job does not count any more. -/
theorem total_served (asks : 0 < table.jobs peer) :
    (table.served now peer).total + 1 = table.total := by
  have changed := total_modify_ensure table now peer fun entry =>
    { entry with jobs := entry.jobs - 1 }
  obtain ⟨entry, found, amount⟩ := get?_of_jobs_pos asks
  rw [found, Option.getD_some] at changed
  have sum : (table.served now peer).total + table.jobs peer =
      table.total + (entry.jobs - 1) := changed
  omega

theorem mem_keys_served (other : NodeId) :
    other ∈ (table.served now peer).peers.keys ↔ other = peer ∨ other ∈ table.peers.keys := by
  rw [served, Table.keys_modify]
  exact mem_keys_ensure table now peer other

end Decrement

/-- A table of some peers that ask for so many jobs each holds at most as many as these
together. -/
theorem total_le_mul {table : StealTable} {most : Nat}
    (small : ∀ peer, table.jobs peer ≤ most) : table.total ≤ table.peers.keys.length * most := by
  have values : ∀ entry ∈ table.peers.values, entry.jobs ≤ most := by
    intro entry member
    obtain ⟨peer, found⟩ := Table.mem_values_iff.1 member
    have amount : table.jobs peer = entry.jobs := jobs_of_get? found
    exact amount ▸ small peer
  have bounded : ∀ entries : List StealEntry, (∀ entry ∈ entries, entry.jobs ≤ most) →
      (entries.map StealEntry.jobs).sum ≤ entries.length * most := by
    intro entries
    induction entries with
    | nil => simp
    | cons entry rest ih =>
        intro every
        have head := every entry (by simp)
        have tail := ih fun entry member => every entry (by simp [member])
        rw [List.map_cons, List.sum_cons, List.length_cons, Nat.add_mul]
        omega
  have length : table.peers.values.length = table.peers.keys.length := by
    simp [Table.values, Table.keys]
  exact length ▸ bounded table.peers.values values

end StealTable

namespace StealCounter

/-- A sum that stays in range can be entered. -/
theorem add_eq_ok {counter delta : Int} (positive : 0 ≤ counter + delta)
    (small : counter + delta < 2 ^ 63) : add counter delta = .ok (counter + delta) := by
  have inRange : ¬ (counter + delta < -2 ^ 63 ∨ 2 ^ 63 ≤ counter + delta) := by omega
  have notNegative : ¬ counter + delta < 0 := by omega
  simp only [add]
  rw [if_neg inRange, if_neg notNegative]

end StealCounter

end JobGrid
