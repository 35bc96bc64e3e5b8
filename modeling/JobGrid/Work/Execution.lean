import JobGrid.Job.Handle
import JobGrid.Work.Duration

/-!
# Executions

An execution is a job at work. It ends at the first whole millisecond at which its work is done.
-/

namespace JobGrid

/-- A job at work. -/
structure Execution where
  job : JobRef
  /-- How long the job waited, in milliseconds. -/
  waited : Nat
  started : Moment
  due : Moment
  deriving DecidableEq

/-- What is known about a job that is done; times are in milliseconds. -/
structure ExecutionReport where
  job : JobId
  session : SessionId
  origin : NodeId
  stealingAttempts : UInt32
  waited : Nat
  took : Nat
  deriving DecidableEq

namespace Execution

/-- Starts the work of a job. -/
def start (slowdown : Float) (now : Moment) (ref : JobRef) (job : JobHandle) :
    Except Fault Execution :=
  (WorkTime.ofWork slowdown job.spec.work).map fun nanos =>
    ⟨ref, job.waited now, now, now + WorkTime.wholeMillis nanos⟩

/-- The report on a job whose execution has ended. -/
def report (execution : Execution) (job : JobHandle) : ExecutionReport where
  job := job.id
  session := job.session
  origin := job.origin
  stealingAttempts := job.stealingAttempts
  waited := execution.waited
  took := execution.due.since execution.started

end Execution

end JobGrid
