import JobGrid.Node.Handler
import JobGrid.Proofs.Result

/-!
# Picking nodes and delivering jobs

When a node picks others for jobs, for the first time or again, its balancer changes and the
number of draws it used, and nothing else. A job that is delivered comes into the node's own
queue, or goes out as a message.
-/

namespace JobGrid

namespace Turn

/-- Between two moments of a turn, nothing happened but that nodes were picked. -/
def Picks (turn next : Turn) : Prop :=
  ∃ balancer drawn, next = turn.update fun node => { node with balancer, drawn }

namespace Picks

protected theorem refl (turn : Turn) : Picks turn turn :=
  ⟨turn.node.balancer, turn.node.drawn, rfl⟩

protected theorem trans {first second third : Turn} (left : Picks first second)
    (right : Picks second third) : Picks first third := by
  obtain ⟨_, _, rfl⟩ := left
  obtain ⟨balancer, drawn, rfl⟩ := right
  exact ⟨balancer, drawn, rfl⟩

end Picks

variable {turn next : Turn}

theorem picks_of_failover {maxAttempts : UInt32} {transfer : JobTransfer}
    {rejectedBy target : NodeId} {thief : Option NodeId}
    (routed : turn.failover maxAttempts transfer rejectedBy thief = .ok (target, next)) :
    Picks turn next := by
  obtain ⟨found, -, equal⟩ := Result.map_eq_ok.1 routed
  cases equal
  exact ⟨_, _, rfl⟩

theorem picks_of_firstTarget {session : SessionId} {candidates : List Member}
    {placement : Placement} {spec : JobSpec} {target : NodeId}
    (picked : turn.firstTarget session candidates placement spec = .ok (target, next)) :
    Picks turn next := by
  cases placement with
  | pinned =>
      cases picked
      exact .refl turn
  | balanced =>
      obtain ⟨found, -, equal⟩ := Result.map_eq_ok.1 picked
      cases equal
      exact ⟨_, _, rfl⟩

theorem picks_assign (session : SessionId) (candidates : List Member)
    (placement : Placement) (jobs : List JobSpec) (turn : Turn) :
    Picks turn (assign session candidates placement jobs turn).2 := by
  induction jobs generalizing turn with
  | nil => exact .refl turn
  | cons spec rest ih =>
      cases picked : turn.firstTarget session candidates placement spec with
      | error failure =>
          simp only [assign, picked]
          exact .refl turn
      | ok found =>
          simp only [assign, picked]
          exact (picks_of_firstTarget picked).trans (ih found.2)

/-- Nodes are found for some jobs exactly if one is found for the first and then for the rest. -/
theorem assign_cons_eq_ok {session : SessionId} {candidates : List Member}
    {placement : Placement} {spec : JobSpec} {rest : List JobSpec}
    {assignments : List Assignment} :
    assign session candidates placement (spec :: rest) turn = (.ok assignments, next) ↔
      ∃ target picked others,
        turn.firstTarget session candidates placement spec = .ok (target, picked) ∧
          assign session candidates placement rest picked = (.ok others, next) ∧
            assignments = ⟨{ session, origin := turn.node.id, spec }, target⟩ :: others := by
  constructor
  · intro assigned
    cases picked : turn.firstTarget session candidates placement spec with
    | error failure =>
        simp only [assign, picked] at assigned
        cases assigned
    | ok found =>
        obtain ⟨target, after⟩ := found
        simp only [assign, picked] at assigned
        cases tail : assign session candidates placement rest after with
        | mk others last =>
            rw [tail] at assigned
            cases others with
            | error failure => cases assigned
            | ok others =>
                cases assigned
                exact ⟨target, after, others, rfl, tail, rfl⟩
  · rintro ⟨target, picked, others, found, tail, rfl⟩
    simp only [assign, found, tail, Except.map]

/-- A task is accepted exactly if it has candidates and nodes are found for all its jobs. -/
theorem accept_eq_ok {session : SessionId} {jobs : List JobSpec} {placement : Placement}
    {ticket : Nat} {assignments : List Assignment} :
    turn.accept session jobs placement = (.ok (ticket, assignments), next) ↔
      turn.taskNodes session ≠ [] ∧ ∃ last,
        assign session (turn.taskNodes session) placement jobs turn = (.ok assignments, last) ∧
          ticket = last.node.tickets ∧ next = last.track session assignments := by
  constructor
  · intro accepted
    simp only [accept] at accepted
    split at accepted
    · cases accepted
    · rename_i filled
      cases assigned : assign session (turn.taskNodes session) placement jobs turn with
      | mk found last =>
          rw [assigned] at accepted
          cases found with
          | error failure => cases accepted
          | ok others =>
              cases accepted
              exact ⟨fun none => filled (List.isEmpty_iff.2 none), last, rfl, rfl, rfl⟩
  · rintro ⟨filled, last, assigned, rfl, rfl⟩
    simp only [accept, List.isEmpty_eq_false_iff.2 filled, assigned, Bool.false_eq_true,
      if_false]

/-- A task that is accepted has one assignment for each of its jobs, in order. -/
theorem transfers_of_assign {session : SessionId} {candidates : List Member}
    {placement : Placement} {jobs : List JobSpec} {turn next : Turn}
    {assignments : List Assignment}
    (assigned : assign session candidates placement jobs turn = (.ok assignments, next)) :
    assignments.map Assignment.transfer =
      jobs.map fun spec => { session, origin := turn.node.id, spec } := by
  induction jobs generalizing turn next assignments with
  | nil =>
      cases assigned
      rfl
  | cons spec rest ih =>
      obtain ⟨target, picked, others, found, tail, rfl⟩ := assign_cons_eq_ok.1 assigned
      obtain ⟨_, _, rfl⟩ := picks_of_firstTarget found
      rw [List.map_cons, List.map_cons, ih tail]
      rfl

/-- What is known of a task that was accepted. -/
theorem accepted_of_accept {session : SessionId} {jobs : List JobSpec} {placement : Placement}
    {ticket : Nat} {assignments : List Assignment}
    (accepted : turn.accept session jobs placement = (.ok (ticket, assignments), next)) :
    ∃ picked, Picks turn picked ∧ next = picked.track session assignments ∧
      assignments.map Assignment.transfer =
        jobs.map fun spec => { session, origin := turn.node.id, spec } := by
  obtain ⟨-, last, assigned, -, rfl⟩ := accept_eq_ok.1 accepted
  have picks := picks_assign session (turn.taskNodes session) placement jobs turn
  rw [assigned] at picks
  exact ⟨last, picks, rfl, transfers_of_assign assigned⟩

/-- A task that is refused leaves nothing behind. -/
theorem picks_of_accept {session : SessionId} {jobs : List JobSpec} {placement : Placement}
    {failure : Failure} (refused : turn.accept session jobs placement = (.error failure, next)) :
    Picks turn next := by
  simp only [accept] at refused
  split at refused
  · cases refused
    exact .refl turn
  · have picks := picks_assign session (turn.taskNodes session) placement jobs turn
    cases assigned : assign session (turn.taskNodes session) placement jobs turn with
    | mk found last =>
        rw [assigned] at picks
        cases found with
        | error failure =>
            simp only [assigned] at refused
            cases refused
            exact picks
        | ok others =>
            simp only [assigned] at refused
            cases refused

/-! ## Delivering jobs -/

/-- A node takes a job exactly if its queue accepts it, under a new handle. -/
theorem hold_eq_ok {transfer : JobTransfer} : turn.hold transfer = .ok next ↔
    turn.node.queue.accepts transfer.spec.id = true ∧
      next = { turn with node := { turn.node with
        queue := (turn.node.queue.add ⟨transfer.spec.id, turn.node.store.next⟩).2
        store := turn.node.store.push (transfer.toHandle turn.now) } } := by
  cases accepts : turn.node.queue.accepts transfer.spec.id with
  | false => simp [hold, accepts]
  | true => simp [hold, accepts, eq_comm]

/-- How a job is delivered: the node takes it itself and looks at its queue soon, or sends it. -/
inductive Delivered (turn : Turn) (target : NodeId) (transfer : JobTransfer) : Turn → Prop where
  | here {held : Turn} (own : target = turn.node.id) (took : turn.hold transfer = .ok held) :
      Delivered turn target transfer held.requestCollision
  | there {next : Turn} (remote : target ≠ turn.node.id)
      (sent : turn.send target (.jobSubmit transfer) = .ok next) :
      Delivered turn target transfer next

theorem Delivered.of_deliver {target : NodeId} {transfer : JobTransfer}
    (delivered : turn.deliver target transfer = .ok next) :
    turn.Delivered target transfer next := by
  by_cases own : target = turn.node.id
  · rw [deliver, if_pos own] at delivered
    obtain ⟨held, took, rfl⟩ := Result.map_eq_ok.1 delivered
    exact .here own took
  · rw [deliver, if_neg own] at delivered
    exact .there own delivered

end Turn

end JobGrid
