import JobGrid.Node.Task

/-!
# Placing jobs

Jobs get to nodes in steps: a task is submitted, a job is delivered to its node, and it is
placed again when a node refuses it, gives it away or departs.
-/

namespace JobGrid

/-- How the jobs of a task are placed. -/
inductive Placement where
  /-- Each job goes where the balancer sends it. -/
  | balanced
  /-- All jobs are queued on the node that submits them. -/
  | pinned
  deriving DecidableEq, Repr

namespace Turn

/-- Puts a job into the node's own queue. -/
def hold (turn : Turn) (transfer : JobTransfer) : Except PlacementError Turn :=
  let node := turn.node
  if node.queue.accepts transfer.spec.id then
    .ok { turn with node := { node with
      queue := (node.queue.add ⟨transfer.spec.id, node.store.next⟩).2
      store := node.store.push (transfer.toHandle turn.now) } }
  else .error .queueFull

/-- Puts a job into the node's own queue and asks for a look at it. -/
def enqueue (turn : Turn) (transfer : JobTransfer) : Except PlacementError Turn :=
  (turn.hold transfer).map requestCollision

/-- Brings a job to a node. -/
def deliver (turn : Turn) (target : NodeId) (transfer : JobTransfer) :
    Except PlacementError Turn :=
  if target = turn.node.id then turn.enqueue transfer
  else turn.send target (.jobSubmit transfer)

/-- The next node of a job that a node rejected. -/
def failover (turn : Turn) (maxAttempts : UInt32) (transfer : JobTransfer) (rejectedBy : NodeId)
    (thief : Option NodeId) : Except Failure (NodeId × Turn) :=
  let rejection : Rejection := {
    session := transfer.session
    spec := transfer.spec
    rejectedBy
    thief
    attempts := transfer.failoverAttempts
    topology := turn.taskNodes transfer.session }
  (rejection.failover maxAttempts turn.node.balancer turn.draw).map fun routed =>
    (routed.1.id, turn.update fun node =>
      { node with balancer := routed.2, drawn := node.drawn + 1 })

theorem attempts_lt_of_failover {turn : Turn} {maxAttempts : UInt32} {transfer : JobTransfer}
    {rejectedBy : NodeId} {thief : Option NodeId} {found : NodeId × Turn}
    (routed : turn.failover maxAttempts transfer rejectedBy thief = .ok found) :
    transfer.failoverAttempts < maxAttempts := by
  simp only [failover, Rejection.failover, Rejection.route] at routed
  by_cases exhausted : maxAttempts ≤ transfer.failoverAttempts
  · rw [if_pos exhausted] at routed
    nomatch routed
  · exact UInt32.not_le.1 exhausted

/-- The transfer of a job that is placed once more. -/
def again (transfer : JobTransfer) : JobTransfer :=
  { transfer with failoverAttempts := transfer.failoverAttempts + 1 }

/-- Brings a job to a node, or to others until one takes it or the task has to fail. -/
def placeWithin (maxAttempts : UInt32) (turn : Turn) (transfer : JobTransfer)
    (target : NodeId) : Turn :=
  match turn.deliver target transfer with
  | .ok delivered => delivered.record transfer target
  | .error _ =>
      match _routed : turn.failover maxAttempts transfer target none with
      | .ok (next, turn) => placeWithin maxAttempts turn (again transfer) next
      | .error (.error cause) => turn.finish transfer.session (some cause.message)
      | .error (.fault fault) => turn.stopWith fault
  termination_by maxAttempts.toNat - transfer.failoverAttempts.toNat
  decreasing_by
    have less := UInt32.lt_iff_toNat_lt.1 (attempts_lt_of_failover _routed)
    have bound := maxAttempts.toNat_lt
    simp only [again, UInt32.toNat_add, UInt32.toNat_one]
    omega

/-- Brings a job to a node, or to others as often as the configuration allows. -/
def place (turn : Turn) (transfer : JobTransfer) (target : NodeId) : Turn :=
  placeWithin turn.node.config.failover.maxAttempts turn transfer target

/-- Places a job again that a node refused or gave away. Only pending jobs matter. -/
def onRejected (turn : Turn) (rejected : JobRejected) : Turn :=
  let job := rejected.job
  if turn.tracks job.session job.spec.id then
    match turn.failover turn.node.config.failover.maxAttempts job rejected.rejectedBy
        rejected.thief with
    | .ok (next, turn) => turn.place (again job) next
    | .error (.error cause) => turn.finish job.session (some cause.message)
    | .error (.fault fault) => turn.stopWith fault
  else turn

/-- The pending jobs that were placed on a node. -/
def jobsOn (turn : Turn) (node : NodeId) : List JobTransfer :=
  turn.node.tasks.values.flatMap fun task =>
    task.pending.values.filterMap fun job => if job.node = node then some job.transfer else none

/-- Places the jobs again that were on a departed node. -/
def reroute (turn : Turn) (departed : NodeId) : Turn :=
  turn.forEach (turn.node.chance.lost.arrange (turn.jobsOn departed)) fun turn job =>
    turn.onRejected ⟨job, departed, none⟩

/-- Reports to its origin that a job was refused or given away. -/
def reportRejected (turn : Turn) (job : JobHandle) (thief : Option NodeId) : Turn :=
  let rejected : JobRejected := ⟨.ofHandle job, turn.node.id, thief⟩
  if job.origin = turn.node.id then turn.onRejected rejected
  else turn.report job.origin (.jobRejected rejected)

/-- Reports the result of a job to its origin. -/
def reportResult (turn : Turn) (report : ExecutionReport) : Turn :=
  let result : JobResult := {
    session := report.session
    job := report.job
    executedBy := turn.node.id
    stealingAttempts := report.stealingAttempts
    completedAt := turn.now.timestamp }
  if report.origin = turn.node.id then turn.onResult result
  else turn.report report.origin (.jobResult result)

/-- A job of a new task and the node that it goes to first. -/
structure Assignment where
  transfer : JobTransfer
  target : NodeId

/-- The first node of a job of a new task. -/
def firstTarget (turn : Turn) (session : SessionId) (candidates : List Member)
    (placement : Placement) (spec : JobSpec) : Except Failure (NodeId × Turn) :=
  match placement with
  | .pinned => .ok (turn.node.id, turn)
  | .balanced =>
      (turn.node.balancer.pick session candidates spec turn.draw).map fun picked =>
        (picked.1.id, turn.update fun node =>
          { node with balancer := picked.2, drawn := node.drawn + 1 })

/-- Finds the first nodes of all jobs of a new task. Picks that were made stay made when a
later one fails. -/
def assign (session : SessionId) (candidates : List Member) (placement : Placement) :
    List JobSpec → Turn → Except Failure (List Assignment) × Turn
  | [], turn => (.ok [], turn)
  | spec :: rest, turn =>
      match turn.firstTarget session candidates placement spec with
      | .error failure => (.error failure, turn)
      | .ok (target, picked) =>
          let (assignments, final) := assign session candidates placement rest picked
          let transfer : JobTransfer := { session, origin := turn.node.id, spec }
          (assignments.map (⟨transfer, target⟩ :: ·), final)

/-- Starts to follow a task; one that was followed under its session is dropped. -/
def track (turn : Turn) (session : SessionId) (assignments : List Assignment) : Turn :=
  let pending := assignments.map fun assignment =>
    (assignment.transfer.spec.id, PendingJob.mk assignment.transfer assignment.target)
  let tracked := turn.update fun node => { node with
    tasks := node.tasks.insert session { pending := .ofList pending, ticket := node.tickets }
    tickets := node.tickets + 1 }
  match turn.node.tasks.get? session with
  | some earlier => tracked.notify (.dropped earlier.ticket session)
  | none => tracked

/-- Tells the balancer that all jobs of a session have been placed. -/
def mapped (turn : Turn) (session : SessionId) : Turn :=
  turn.update fun node => { node with balancer := node.balancer.onTask (.mapped session) }

/-- The first part of a submission: the first nodes of all jobs are found, and the task is
followed from now on. Gives the ticket under which its end is told. -/
def accept (turn : Turn) (session : SessionId) (jobs : List JobSpec) (placement : Placement) :
    Except Failure (Nat × List Assignment) × Turn :=
  let candidates := turn.taskNodes session
  if candidates.isEmpty then (.error (.error (.emptyCandidates session)), turn)
  else
    match assign session candidates placement jobs turn with
    | (.error failure, turn) => (.error failure, turn)
    | (.ok assignments, turn) =>
        (.ok (turn.node.tickets, assignments), turn.track session assignments)

/-- The middle part of a submission: each job is placed. -/
def placeAll (turn : Turn) (assignments : List Assignment) : Turn :=
  turn.forEach assignments fun turn assignment =>
    turn.place assignment.transfer assignment.target

/-- The last part of a submission of so many jobs. A task without jobs ends at once. -/
def conclude (turn : Turn) (session : SessionId) (count : Nat) : Turn :=
  let mapped := turn.mapped session
  if count = 0 then mapped.finish session none else mapped

/-- Submits a task. Gives the ticket under which its end is told. -/
def submit (turn : Turn) (session : SessionId) (jobs : List JobSpec) (placement : Placement) :
    Except Failure Nat × Turn :=
  match turn.accept session jobs placement with
  | (.error failure, refused) => (.error failure, refused)
  | (.ok (ticket, assignments), accepted) =>
      let placed := accepted.placeAll assignments
      match placed.fault? with
      | some fault => (.error (.fault fault), placed)
      | none => (.ok ticket, placed.conclude session assignments.length)

end Turn

end JobGrid
