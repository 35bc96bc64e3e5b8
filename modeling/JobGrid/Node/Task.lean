import JobGrid.Node.Basic

/-!
# Tasks

A node follows the tasks that were submitted to it: which node holds each job, which results
came in, and how a task ends.
-/

namespace JobGrid

namespace TaskState

/-- Notes where a pending job was placed. -/
def assign (task : TaskState) (transfer : JobTransfer) (node : NodeId) : TaskState :=
  { task with pending := task.pending.modify transfer.spec.id fun _ => ⟨transfer, node⟩ }

/-- Whether a job of the task has no result yet. -/
def isPending (task : TaskState) (job : JobId) : Bool := task.pending.contains job

/-- Enters the result of a pending job. -/
def enter (task : TaskState) (result : JobResult) : TaskState :=
  { task with
    pending := task.pending.erase result.job
    results := task.results ++ [result] }

end TaskState

namespace Turn

/-- Ends a task, with an error if it failed. A task that is not tracked stays as it is. -/
def finish (turn : Turn) (session : SessionId) (error : Option String) : Turn :=
  match turn.node.tasks.get? session with
  | none => turn
  | some task =>
      let event : TaskEvent := if error.isNone then .finished session else .failed session
      (turn.update fun node => { node with
        tasks := node.tasks.erase session
        balancer := node.balancer.onTask event
        restrictions := node.restrictions.erase session }).notify
          (.finished task.ticket ⟨session, task.results, error⟩)

/-- Notes where a job was placed, if its task is still tracked. -/
def record (turn : Turn) (transfer : JobTransfer) (target : NodeId) : Turn :=
  turn.update fun node => { node with
    tasks := node.tasks.modify transfer.session fun task => task.assign transfer target }

/-- Whether a job belongs to a tracked task and has no result yet. -/
def tracks (turn : Turn) (session : SessionId) (job : JobId) : Bool :=
  match turn.node.tasks.get? session with
  | some task => task.isPending job
  | none => false

/-- Enters a result; the last one ends the task. Results of jobs that are not pending are
ignored. -/
def onResult (turn : Turn) (result : JobResult) : Turn :=
  match turn.node.tasks.get? result.session with
  | none => turn
  | some task =>
      if task.isPending result.job then
        let entered := task.enter result
        let noted := turn.update fun node =>
          { node with tasks := node.tasks.insert result.session entered }
        if entered.pending.isEmpty then noted.finish result.session none else noted
      else turn

end Turn

end JobGrid
