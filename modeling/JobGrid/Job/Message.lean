import JobGrid.Job.Handle

/-!
# Messages about jobs

Nodes tell each other that a node wants work, that a job goes to another node, that a job was
refused or given away, and that a job is done.
-/

namespace JobGrid

/-- A node wants so many jobs in total. The request replaces an earlier one of that node. -/
structure StealRequest where
  delta : UInt32
  deriving DecidableEq, Repr

/-- A job on its way to a node. -/
structure JobTransfer where
  session : SessionId
  origin : NodeId
  spec : JobSpec
  stealingAttempts : UInt32 := 0
  failoverAttempts : UInt32 := 0
  deriving DecidableEq

namespace JobTransfer

/-- The transfer of a job that a node holds. -/
def ofHandle (job : JobHandle) : JobTransfer :=
  ⟨job.session, job.origin, job.spec, job.stealingAttempts, job.failoverAttempts⟩

/-- The handle of a job that arrives. -/
def toHandle (transfer : JobTransfer) (now : Moment) : JobHandle where
  spec := transfer.spec
  session := transfer.session
  origin := transfer.origin
  createdAt := now
  stealingAttempts := transfer.stealingAttempts
  failoverAttempts := transfer.failoverAttempts

@[simp] theorem ofHandle_toHandle (transfer : JobTransfer) (now : Moment) :
    ofHandle (transfer.toHandle now) = transfer := rfl

@[simp] theorem state_toHandle (transfer : JobTransfer) (now : Moment) :
    (transfer.toHandle now).state = .waiting := rfl

end JobTransfer

/-- A node refused a job or gave it to a thief. -/
structure JobRejected where
  job : JobTransfer
  rejectedBy : NodeId
  thief : Option NodeId
  deriving DecidableEq

/-- A job is done. -/
structure JobResult where
  session : SessionId
  job : JobId
  executedBy : NodeId
  stealingAttempts : UInt32
  completedAt : Timestamp
  deriving DecidableEq

/-- What becomes of a task session, as balancers learn it. -/
inductive TaskEvent where
  /-- Every job of the session has been placed once. -/
  | mapped (session : SessionId)
  | finished (session : SessionId)
  | failed (session : SessionId)
  deriving DecidableEq

namespace TaskEvent

def session : TaskEvent → SessionId
  | mapped session | finished session | failed session => session

end TaskEvent

/-! The topics under which messages are sent. -/
namespace Topic

def stealRequest : String := "grid.collision.steal"

def jobSubmit : String := "grid.job.submit"

def jobRejected : String := "grid.job.rejected"

def jobResult : String := "grid.job.result"

end Topic

end JobGrid
