import JobGrid.Node.Placement

/-!
# What a node reacts to

A node takes a turn for each thing that it reacts to: a change in the grid, a message, a look
through its jobs, the end of an execution, and a tick of its heartbeat.
-/

namespace JobGrid

namespace Turn

/-- Reacts to a change in the grid. Jobs that were on a departed node are placed again. -/
def onEvent (turn : Turn) (event : DiscoveryEvent) : Turn :=
  match turn.node.resolver.onEvent turn.node.id event with
  | .error fault => turn.stopWith fault
  | .ok resolver =>
      let noted := turn.update fun node =>
        { node with resolver, balancer := node.balancer.onEvent event }
      let routed :=
        if event.kind.isDeparture ∧ event.member.id ≠ turn.node.id then
          noted.reroute event.member.id
        else noted
      if routed.fault?.isSome then routed else routed.requestCollision

/-- Reacts to a request for work. -/
def onStealRequest (turn : Turn) (sender : NodeId) (request : StealRequest) : Turn :=
  match turn.node.resolver.onStealRequest (turn.cluster.view turn.node.id) turn.now sender
      request with
  | .error fault => turn.stopWith fault
  | .ok (noted, resolver) =>
      let turn := turn.update fun node => { node with resolver }
      if noted then turn.requestCollision else turn

/-- Takes a job that was sent to the node, or reports it back if the queue does not. -/
def onSubmitted (turn : Turn) (transfer : JobTransfer) : Turn :=
  let taken := match turn.hold transfer with
    | .ok taken => taken
    | .error _ => turn.reportRejected (transfer.toHandle turn.now) none
  if taken.fault?.isSome then taken else taken.requestCollision

/-- Reacts to a message. What cannot be understood is ignored. -/
def onMessage (turn : Turn) (envelope : Envelope) : Turn :=
  match Message.decode envelope.topic envelope.payload with
  | .ok (.stealRequest request) => turn.onStealRequest envelope.sender request
  | .ok (.jobSubmit transfer) => turn.onSubmitted transfer
  | .ok (.jobRejected rejected) => turn.onRejected rejected
  | .ok (.jobResult result) => turn.onResult result
  | .error _ => turn

/-- Starts the execution of a job. Work without a valid length never ends. -/
def execute (turn : Turn) (ref : JobRef) : Turn :=
  match turn.node.store.get? ref with
  | none => turn
  | some job =>
      match Execution.start turn.node.config.slowdown turn.now ref job with
      | .error _ => turn
      | .ok execution =>
          turn.update fun node => { node with executions := node.executions ++ [execution] }

/-- Reports a job that was cancelled while it waited. -/
def handOff (turn : Turn) (ref : JobRef) : Turn :=
  match turn.node.store.get? ref with
  | none => turn
  | some job =>
      let counted :=
        if job.thief.isSome then
          turn.update fun node => { node with
            stats := { node.stats with handedOff := node.stats.handedOff + 1 }
            tracker := node.tracker.recordRejected 1 }
        else turn
      counted.reportRejected job job.thief

/-- Takes jobs that do not wait any more out of the waiting list: cancelled ones are
reported, started ones begin their work. -/
def settle (turn : Turn) : Turn :=
  let settled := turn.node.queue.settled turn.node.store
  let emptied := turn.update fun node => { node with
    queue := node.queue.settle node.store
    tracker := node.tracker.recordCancelled settled.cancelled.length }
  let reported := emptied.forEach settled.cancelled fun turn job => turn.handOff job.ref
  reported.forEach settled.activated fun turn job => turn.execute job.ref

/-- Sends the requests for work of a pass. -/
def sendRequests (turn : Turn) (requests : List SentRequest) : Turn :=
  requests.foldl (fun turn request => turn.trySend request.peer (.stealRequest ⟨request.jobs⟩)) turn

/-- The pass over the jobs that the node would make now. -/
def pass (turn : Turn) : Pass :=
  let node := turn.node
  let scene := node.resolver.scene (turn.cluster.view node.id) node.restrictions
    node.chance.peers turn.now
  node.resolver.collide scene turn.cluster.accepts node.store
    (node.queue.waiting.map QueuedJob.ref) node.queue.active.size

/-- Looks through the jobs. -/
def collide (turn : Turn) : Turn :=
  let pass := turn.pass
  let passed := (turn.update fun node => { node with
    resolver := pass.resolver
    store := pass.store
    attention := node.attention.take }).sendRequests pass.requests
  match pass.fault? with
  | some fault => passed.stopWith fault
  | none => passed.settle

/-- Reacts to the end of an execution. -/
def complete (turn : Turn) (execution : Execution) : Turn :=
  match turn.node.store.get? execution.job with
  | none => turn
  | some job =>
      let report := execution.report job
      let stolen := if 0 < report.stealingAttempts then 1 else 0
      let counted := turn.update fun node => { node with
        executions := node.executions.erase execution
        tracker := node.tracker.recordExecution report.waited report.took
        stats := { node.stats with
          executed := node.stats.executed + 1
          executedStolen := node.stats.executedStolen + stolen }
        queue := node.queue.complete report.job }
      let reported := counted.reportResult report
      if reported.fault?.isSome then reported else reported.requestCollision

/-- Publishes the metrics of the node. -/
def publishMetrics (turn : Turn) : Turn :=
  let node := turn.node
  let (metrics, tracker) := node.tracker.snapshot turn.now node.queue.active.size
    node.queue.waiting.length
  let sampled := turn.update fun node => { node with tracker }
  let published := match sampled.cluster.updateMetrics node.id metrics with
    | .ok cluster => { sampled with cluster }
    | .error _ => sampled
  published.requestCollision

end Turn

end JobGrid
