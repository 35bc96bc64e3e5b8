import JobGrid.Job.Handle
import JobGrid.Table

/-!
# The job queue

A queue holds the jobs that wait or run on a node. Waiting jobs keep their order of arrival.
Jobs change their state outside of the queue; settling moves each one to where it now belongs.
-/

namespace JobGrid

/-- A job in a queue: its identity, and where its handle is. -/
structure QueuedJob where
  id : JobId
  ref : JobRef
  deriving DecidableEq

/-- The waiting and the active jobs of a node. -/
structure JobQueue where
  capacity : Nat
  waiting : List QueuedJob := []
  active : Table JobId JobRef := ∅

/-- The jobs that left their waiting state since the queue was settled before. -/
structure Settled where
  activated : List QueuedJob
  cancelled : List QueuedJob

namespace JobQueue

/-- The capacity of a queue unless something else is asked for. -/
def defaultCapacity : Nat := 10000

/-- The number of jobs. -/
def size (queue : JobQueue) : Nat := queue.waiting.length + queue.active.size

def isEmpty (queue : JobQueue) : Bool := queue.size == 0

def isFull (queue : JobQueue) : Bool := queue.capacity ≤ queue.size

/-- The job with an identity. -/
def get? (queue : JobQueue) (id : JobId) : Option JobRef :=
  match queue.active.get? id with
  | some ref => some ref
  | none => (queue.waiting.find? fun job => job.id = id).map QueuedJob.ref

/-- Whether the queue takes a job: it has room and does not hold the job already. -/
def accepts (queue : JobQueue) (id : JobId) : Bool := !queue.isFull && (queue.get? id).isNone

/-- Appends a waiting job, if the queue takes it; says whether it did. -/
def add (queue : JobQueue) (job : QueuedJob) : Bool × JobQueue :=
  if queue.accepts job.id then (true, { queue with waiting := queue.waiting ++ [job] })
  else (false, queue)

/-- The waiting jobs whose handle is in a given state. -/
def waitingIn (queue : JobQueue) (store : JobStore) (state : JobState) : List QueuedJob :=
  queue.waiting.filter fun job => store.state? job.ref = some state

/-- The jobs that settling takes out of the waiting list. -/
def settled (queue : JobQueue) (store : JobStore) : Settled :=
  ⟨queue.waitingIn store .active, queue.waitingIn store .cancelled⟩

/-- Moves started jobs to the active ones and drops cancelled ones. -/
def settle (queue : JobQueue) (store : JobStore) : JobQueue :=
  { queue with
    waiting := queue.waitingIn store .waiting
    active := (queue.waitingIn store .active).foldl
      (fun active job => active.insert job.id job.ref) queue.active }

/-- Removes an active job. -/
def complete (queue : JobQueue) (id : JobId) : JobQueue :=
  { queue with active := queue.active.erase id }

@[simp] theorem waiting_settle (queue : JobQueue) (store : JobStore) :
    (queue.settle store).waiting = queue.waitingIn store .waiting := rfl

@[simp] theorem waiting_complete (queue : JobQueue) (id : JobId) :
    (queue.complete id).waiting = queue.waiting := rfl

end JobQueue

end JobGrid
