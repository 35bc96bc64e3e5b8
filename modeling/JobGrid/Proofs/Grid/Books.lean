import JobGrid.Node.Placement
import JobGrid.Proofs.Grid.Mail
import JobGrid.Proofs.Table

/-!
# The books of an origin

The books of an origin say which jobs it believes to be pending, and where. Ending a task and
entering a result only take jobs off the books, noting a placement changes one entry, and
following a task adds its jobs. The books contain only jobs that were submitted to the node.
-/

namespace JobGrid

/-- A job of a task is pending, as it was placed last. -/
def Awaiting (tasks : Table SessionId TaskState) (session : SessionId) (job : JobId)
    (placed : PendingJob) : Prop :=
  ∃ task, tasks.get? session = some task ∧ task.pending.get? job = some placed

/-- The tasks that a node follows contain only its own jobs. -/
def Followed (owner : Owners) (node : NodeId) (tasks : Table SessionId TaskState) : Prop :=
  ∀ session job placed, Awaiting tasks session job placed →
    placed.transfer.spec.id = job ∧ placed.transfer.session = session ∧
      placed.transfer.origin = node ∧ owner job = some (node, session)

section Awaiting

variable {tasks : Table SessionId TaskState} {session : SessionId} {job : JobId}
  {placed : PendingJob}

theorem awaiting_erase {ended : SessionId}
    (waits : Awaiting (tasks.erase ended) session job placed) :
    session ≠ ended ∧ Awaiting tasks session job placed := by
  obtain ⟨task, found, pending⟩ := waits
  rw [Table.get?_erase] at found
  split at found
  · cases found
  · rename_i differs
    exact ⟨Ne.symm differs, task, found, pending⟩

theorem awaiting_enter {task : TaskState} {result : JobResult}
    (tracked : tasks.get? result.session = some task)
    (waits : Awaiting (tasks.insert result.session (task.enter result)) session job placed) :
    (session = result.session → job ≠ result.job) ∧ Awaiting tasks session job placed := by
  obtain ⟨entered, found, pending⟩ := waits
  rw [Table.get?_insert] at found
  split at found
  · rename_i same
    subst same
    rw [Option.some.injEq] at found
    subst found
    rw [TaskState.enter, Table.get?_erase] at pending
    split at pending
    · cases pending
    · rename_i differs
      exact ⟨fun _ => Ne.symm differs, task, tracked, pending⟩
  · rename_i differs
    exact ⟨fun same => absurd same.symm differs, entered, found, pending⟩

theorem awaiting_assign {transfer : JobTransfer} {target : NodeId}
    (waits : Awaiting (tasks.modify transfer.session fun task => task.assign transfer target)
      session job placed) :
    session = transfer.session ∧ job = transfer.spec.id ∧ placed = ⟨transfer, target⟩ ∨
      ¬ (session = transfer.session ∧ job = transfer.spec.id) ∧
        Awaiting tasks session job placed := by
  obtain ⟨task, found, pending⟩ := waits
  rw [Table.get?_modify] at found
  split at found
  · rename_i same
    obtain ⟨earlier, there, rfl⟩ := Option.map_eq_some_iff.1 found
    rw [TaskState.assign, Table.get?_modify] at pending
    split at pending
    · rename_i one
      obtain ⟨_, _, rfl⟩ := Option.map_eq_some_iff.1 pending
      exact .inl ⟨same.symm, one.symm, rfl⟩
    · rename_i differs
      exact .inr ⟨fun both => differs both.2.symm, earlier, there, pending⟩
  · rename_i differs
    exact .inr ⟨fun both => differs both.1.symm, task, found, pending⟩

theorem mem_of_get?_ofList {pairs : List (JobId × PendingJob)}
    (found : (Table.ofList pairs).get? job = some placed) : (job, placed) ∈ pairs := by
  have general : ∀ (pairs : List (JobId × PendingJob)) (table : Table JobId PendingJob),
      (pairs.foldl (fun table pair => table.insert pair.1 pair.2) table).get? job = some placed →
        (job, placed) ∈ pairs ∨ table.get? job = some placed := by
    intro pairs
    induction pairs with
    | nil => exact fun table found => .inr found
    | cons pair rest ih =>
        intro table found
        rcases ih _ found with later | earlier
        · exact .inl (List.mem_cons_of_mem pair later)
        · rw [Table.get?_insert] at earlier
          split at earlier
          · rename_i same
            cases earlier
            exact .inl (same ▸ List.mem_cons_self)
          · exact .inr earlier
  rcases general pairs ∅ found with member | nothing
  · exact member
  · cases nothing

theorem awaiting_track {new : SessionId} {assignments : List Turn.Assignment} {ticket : Nat}
    (waits : Awaiting (tasks.insert new {
      pending := .ofList (assignments.map fun assignment =>
        (assignment.transfer.spec.id, PendingJob.mk assignment.transfer assignment.target))
      ticket }) session job placed) :
    session = new ∧ (∃ assignment ∈ assignments, assignment.transfer.spec.id = job ∧
        placed = ⟨assignment.transfer, assignment.target⟩) ∨
      session ≠ new ∧ Awaiting tasks session job placed := by
  obtain ⟨task, found, pending⟩ := waits
  rw [Table.get?_insert] at found
  split at found
  · rename_i same
    rw [Option.some.injEq] at found
    subst found
    obtain ⟨assignment, member, equal⟩ := List.mem_map.1 (mem_of_get?_ofList pending)
    rw [Prod.mk.injEq] at equal
    exact .inl ⟨same.symm, assignment, member, equal.1, equal.2.symm⟩
  · rename_i differs
    exact .inr ⟨Ne.symm differs, task, found, pending⟩

end Awaiting

namespace Followed

variable {owner : Owners} {node : NodeId} {tasks : Table SessionId TaskState}

theorem empty (owner : Owners) (node : NodeId) : Followed owner node ∅ := by
  rintro session job placed ⟨task, found, -⟩
  cases found

/-- Jobs may be taken off the books. -/
theorem shrink {later : Table SessionId TaskState} (followed : Followed owner node tasks)
    (less : ∀ {session job placed}, Awaiting later session job placed →
      Awaiting tasks session job placed) : Followed owner node later :=
  fun session job placed waits => followed session job placed (less waits)

theorem assign {transfer : JobTransfer} {target : NodeId} (followed : Followed owner node tasks)
    (genuine : transfer.Genuine owner) (own : transfer.origin = node) :
    Followed owner node
      (tasks.modify transfer.session fun task => task.assign transfer target) := by
  intro session job placed waits
  rcases awaiting_assign waits with ⟨rfl, rfl, rfl⟩ | ⟨-, earlier⟩
  · exact ⟨rfl, rfl, own, own ▸ genuine⟩
  · exact followed session job placed earlier

/-- A job of the node is pending under its own session only. -/
theorem session_eq {transfer : JobTransfer} {session : SessionId} {placed : PendingJob}
    (followed : Followed owner node tasks) (genuine : transfer.Genuine owner)
    (waits : Awaiting tasks session transfer.spec.id placed) : session = transfer.session := by
  obtain ⟨-, -, -, owned⟩ := followed session transfer.spec.id placed waits
  rw [JobTransfer.Genuine, owned, Option.some.injEq, Prod.mk.injEq] at genuine
  exact genuine.2

/-- A job of the node is not pending anywhere if it is not pending under its session. -/
theorem not_awaiting {job : JobId} {home session : SessionId} {placed : PendingJob}
    (followed : Followed owner node tasks) (owned : owner job = some (node, home))
    (gone : ∀ placed, ¬ Awaiting tasks home job placed) :
    ¬ Awaiting tasks session job placed := by
  intro waits
  obtain ⟨-, -, -, known⟩ := followed session job placed waits
  rw [owned, Option.some.injEq, Prod.mk.injEq] at known
  exact gone placed (known.2 ▸ waits)

end Followed

end JobGrid
