import JobGrid.Node.Handler

/-!
# The world

In the world nodes run side by side. A node that was started has loops that read the log of the
cluster, read its inbox and look through its jobs, and a heartbeat that publishes metrics. What
is to be done is done in the order in which it came up, and each loop goes on until it finds
nothing more. Time passes in milliseconds, and only when nothing is left to do.
-/

namespace JobGrid

/-- What a node does apart from answering calls. -/
inductive Activity where
  /-- Reads the log of the cluster. -/
  | discovery
  /-- Reads the inbox. -/
  | inbox
  /-- Looks through the jobs. -/
  | collision
  /-- Begins to listen to its timer. -/
  | heartbeat
  /-- The timer ticks. -/
  | tick
  /-- Publishes metrics. -/
  | publication
  /-- Works on a job. -/
  | execution (execution : Execution)
  deriving DecidableEq

/-- Something that a node has to do. -/
structure Errand where
  node : NodeId
  activity : Activity
  deriving DecidableEq

/-- Something that a node has to do later. -/
structure Alarm where
  due : Moment
  errand : Errand
  deriving DecidableEq

namespace Turn

/-- Reads the next change in the grid; says whether there was one. -/
def readEvent (turn : Turn) : Bool × Turn :=
  let position := turn.cluster.resume turn.node.position
  match turn.cluster.events[position]? with
  | none => (false, turn)
  | some event =>
      (true, (turn.update fun node => { node with position := position + 1 }).onEvent event)

/-- Reads the next message; says whether there was one. -/
def readMessage (turn : Turn) : Bool × Turn :=
  match turn.cluster.receive turn.node.inbox with
  | none => (false, turn)
  | some (envelope, cluster) => (true, { turn with cluster }.onMessage envelope)

/-- Looks through the jobs if that is due, and rests otherwise; says which. -/
def look (turn : Turn) : Bool × Turn :=
  if turn.node.attention.due = 0 then
    (false, turn.update fun node => { node with attention := node.attention.rest })
  else (true, turn.collide)

/-- Starts all loops of the node. A node that was cancelled before only closes its inbox. -/
def startLoops (turn : Turn) : Turn :=
  if turn.node.isCancelled then { turn with cluster := turn.cluster.close turn.node.inbox }
  else
    (turn.update fun node => { node with
      loops := ⟨true, true, true⟩
      heartbeat := some (Heartbeat.start node.config.heartbeat.toNat turn.now) })
      |>.requestCollision

/-- Ends all loops of the node. Executions go on. -/
def cancel (turn : Turn) : Turn :=
  let cancelled := turn.update fun node => { node with
    loops := {}
    heartbeat := node.heartbeat.map Heartbeat.stop
    isCancelled := true }
  if turn.node.heartbeat.isSome then
    { cancelled with cluster := turn.cluster.close turn.node.inbox }
  else cancelled

end Turn

namespace Loops

/-- Whether the loop behind an activity is at work. -/
def runs (loops : Loops) : Activity → Bool
  | .discovery => loops.discovery
  | .inbox => loops.inbox
  | .collision => loops.collision
  | _ => true

/-- Ends the loop behind an activity. -/
def without (loops : Loops) : Activity → Loops
  | .discovery => { loops with discovery := false }
  | .inbox => { loops with inbox := false }
  | .collision => { loops with collision := false }
  | _ => loops

end Loops

/-- All nodes, the cluster, and what is to be done. -/
structure World where
  now : Moment
  cluster : Cluster
  nodes : Table NodeId Node := ∅
  /-- What is to be done now, in this order. -/
  agenda : List Errand := []
  alarms : List Alarm := []
  /-- What was told to the outside, and by which node. -/
  notices : List (NodeId × Notice) := []

namespace World

/-- Lets a node take a turn, if there is that node. -/
def turn {α : Type} (world : World) (id : NodeId) (absent : α) (act : Turn → α × Turn) :
    α × World :=
  match world.nodes.get? id with
  | none => (absent, world)
  | some node =>
      let (result, turn) := act { now := world.now, node, cluster := world.cluster }
      (result, { world with
        cluster := turn.cluster
        nodes := world.nodes.insert id turn.node
        notices := world.notices ++ turn.notices.map ((id, ·)) })

/-- Lets a node take a turn that has no result. -/
def act (world : World) (id : NodeId) (act : Turn → Turn) : World :=
  (world.turn id () fun turn => ((), act turn)).2

/-- Adds something to do. -/
def plan (world : World) (errand : Errand) : World :=
  { world with agenda := world.agenda ++ [errand] }

/-- Adds something to do unless it is already there. -/
def planOnce (world : World) (errand : Errand) : World :=
  if errand ∈ world.agenda then world else world.plan errand

/-- Adds something to do later. -/
def planAt (world : World) (due : Moment) (errand : Errand) : World :=
  { world with alarms := world.alarms ++ [⟨due, errand⟩] }

/-- Ends a loop that broke a rule. Without its loop, an inbox is closed. -/
def endLoop (turn : Turn) (activity : Activity) : Turn :=
  let ended := turn.update fun node => { node with loops := node.loops.without activity }
  if activity = .inbox then { ended with cluster := ended.cluster.close ended.node.inbox }
  else ended

/-- One round of a loop of a node. It has to go on unless it found nothing to do. What it
started is done after everything else. -/
def loop (world : World) (errand : Errand) (round : Turn → Bool × Turn) : World :=
  let ((goesOn, started), world) := world.turn errand.node (false, []) fun turn =>
    if turn.node.loops.runs errand.activity then
      let (found, next) := round turn
      let started := next.node.executions.drop turn.node.executions.length
      if next.fault?.isSome then ((false, started), endLoop next errand.activity)
      else ((found, started), next)
    else ((false, []), turn)
  let agenda := if goesOn then errand :: world.agenda else world.agenda
  { world with
    agenda := agenda ++ started.map fun execution => ⟨errand.node, .execution execution⟩ }

/-- The timer of a node ticks, unless it was stopped. -/
def tick (world : World) (id : NodeId) : World :=
  match (world.nodes.get? id).bind Node.heartbeat with
  | none => world
  | some timer =>
      if timer.isDue world.now then
        let timer := timer.tick
        ((world.act id fun turn => turn.update fun node =>
          { node with heartbeat := some timer }).plan ⟨id, .publication⟩).planAt timer.next
            ⟨id, .tick⟩
      else world

/-- Does a part of an errand. -/
def perform (world : World) (errand : Errand) : World :=
  match errand.activity with
  | .discovery => world.loop errand Turn.readEvent
  | .inbox => world.loop errand Turn.readMessage
  | .collision => world.loop errand Turn.look
  | .heartbeat => world.plan ⟨errand.node, .tick⟩
  | .tick => world.tick errand.node
  | .publication => world.act errand.node Turn.publishMetrics
  | .execution execution =>
      if execution.due ≤ world.now then
        world.act errand.node fun turn => turn.complete execution
      else world.planAt execution.due errand

/-- The loops of a node that wait although there is something for them to do. -/
def wakeable (world : World) (node : Node) : List Activity :=
  let unread := node.loops.discovery && node.position < world.cluster.events.size
  let mail := node.loops.inbox && !(world.cluster.mailbox node.inbox).letters.isEmpty
  let due := node.loops.collision && node.attention.rests && 0 < node.attention.due
  (if unread then [.discovery] else []) ++ (if mail then [.inbox] else []) ++
    (if due then [.collision] else [])

/-- Wakes all loops for which something came up. -/
def wake (world : World) : World :=
  world.nodes.entries.foldl (fun woken entry =>
    (world.wakeable entry.2).foldl (fun woken activity =>
      woken.planOnce ⟨entry.1, activity⟩) woken) world

/-- Does what is to be done, at most as many parts of errands as the fuel. -/
def run : Nat → World → World
  | 0, world => world
  | fuel + 1, world =>
      match world.agenda with
      | [] => world
      | errand :: rest => run fuel ({ world with agenda := rest }.perform errand).wake

/-- How many parts of errands are done at one moment at most. -/
def patience : Nat := 10000000

/-- Does all that is to be done now. -/
def settle (world : World) : World := run patience world.wake

/-- Lets a millisecond pass. -/
def pass (world : World) : World :=
  let now := world.now + 1
  let (due, later) := world.alarms.partition fun alarm => alarm.due ≤ now
  { world with
    now
    alarms := later
    agenda := world.agenda ++ due.map Alarm.errand }.settle

/-- Lets some milliseconds pass. -/
def advance : Nat → World → World
  | 0, world => world
  | millis + 1, world => advance millis world.pass

/-- Builds a node that is a member of the cluster but does nothing yet. -/
def join (world : World) (config : NodeConfig) (identity : NodeIdentity) :
    Except PlacementError World :=
  (Node.join config identity world.now world.cluster).map fun (node, cluster) =>
    { world with cluster, nodes := world.nodes.insert identity.id node }

/-- Starts a node. -/
def start (world : World) (id : NodeId) : World :=
  let begun := world.act id Turn.startLoops
  { begun with
    agenda := begun.agenda ++
      [⟨id, .discovery⟩, ⟨id, .inbox⟩, ⟨id, .collision⟩, ⟨id, .heartbeat⟩] }

/-- Ends the loops of a node. -/
def cancel (world : World) (id : NodeId) : World := world.act id Turn.cancel

/-- Ends the loops of a node, which leaves the cluster. -/
def stop (world : World) (id : NodeId) : World :=
  let cancelled := world.cancel id
  { cancelled with cluster := cancelled.cluster.leave id }

/-- Lets the tasks of a session that a node submits run on some nodes only. -/
def restrict (world : World) (id : NodeId) (session : SessionId) (nodes : List NodeId) : World :=
  world.act id fun turn => turn.update fun node =>
    { node with restrictions := node.restrictions.register session nodes }

/-- Submits a task to a node. Gives the ticket under which its end is told. -/
def submit (world : World) (id : NodeId) (session : SessionId) (jobs : List JobSpec)
    (placement : Placement) : Except Failure Nat × World :=
  world.turn id (.error (.error (.nodeNotFound id))) fun turn =>
    turn.submit session jobs placement

end World

end JobGrid
