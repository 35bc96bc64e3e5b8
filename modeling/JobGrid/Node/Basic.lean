import JobGrid.Cluster
import JobGrid.Failover
import JobGrid.Job.Json
import JobGrid.Job.Queue
import JobGrid.Node.Attention
import JobGrid.Restriction
import JobGrid.Steal.Pass
import JobGrid.Work.Execution
import JobGrid.Work.Heartbeat
import JobGrid.Work.Tracker

/-!
# Nodes

The state of a node of the grid comprises the jobs that it holds, the tasks that were submitted
to it, and how it takes part in the cluster. What a node does is described as turns: a turn
changes the node and the cluster at one moment, and collects what the outside gets to know.
-/

namespace JobGrid

/-- A job of a task that has no result yet, as it was placed last. -/
structure PendingJob where
  transfer : JobTransfer
  /-- The node that the job was placed on. -/
  node : NodeId
  deriving DecidableEq

/-- A task that was submitted to the node. -/
structure TaskState where
  pending : Table JobId PendingJob
  results : List JobResult := []
  /-- Which submission waits for the outcome. -/
  ticket : Nat

/-- The end of a task. -/
structure TaskOutcome where
  session : SessionId
  results : List JobResult
  error : Option String
  deriving DecidableEq

namespace TaskOutcome

def isSuccess (outcome : TaskOutcome) : Bool := outcome.error.isNone

end TaskOutcome

/-- What those learn who submitted a task. -/
inductive Notice where
  /-- The task of a submission ended. -/
  | finished (ticket : Nat) (outcome : TaskOutcome)
  /-- The task of a submission is not tracked any more. -/
  | dropped (ticket : Nat) (session : SessionId)
  deriving DecidableEq

namespace Notice

/-- What those get who wait for the end of the task. -/
def result : Notice → Except PlacementError TaskOutcome
  | finished _ outcome => .ok outcome
  | dropped _ _ => .error (.internal "task tracking dropped")

end Notice

/-- What a node has done so far, counted without bound as 2 ^ 64 jobs are out of reach. -/
structure NodeStats where
  /-- Jobs that ran here. -/
  executed : Nat := 0
  /-- Of those, jobs that were stolen at least once. -/
  executedStolen : Nat := 0
  /-- Jobs that were given to thieves. -/
  handedOff : Nat := 0
  deriving DecidableEq

/-- What a node leaves to chance: the draws of its picks, the order in which it serves peers
and the order in which it places lost jobs again. -/
structure Chance where
  draw : Nat → Draw := fun _ => default
  peers : Arrangement NodeId := default
  lost : Arrangement JobTransfer := default

instance : Inhabited Chance := ⟨{}⟩

/-- Draws that are spread evenly over all possibilities. -/
def Chance.spread : Chance where
  draw count := ⟨Float.ofNat (count * 618034 % 1000000) / 1000000, count⟩

/-- Which loops of a node are at work. -/
structure Loops where
  discovery : Bool := false
  inbox : Bool := false
  collision : Bool := false
  deriving DecidableEq

/-- A node of the grid. -/
structure Node where
  id : NodeId
  config : NodeConfig
  chance : Chance
  /-- How many draws were used. -/
  drawn : Nat := 0
  queue : JobQueue
  store : JobStore := ∅
  resolver : Resolver
  balancer : Balancer
  restrictions : Restrictions := ∅
  tracker : Tracker
  stats : NodeStats := {}
  tasks : Table SessionId TaskState := ∅
  /-- How many tasks were submitted. -/
  tickets : Nat := 0
  inbox : MailboxRef
  /-- How far the log of the cluster was read. -/
  position : Nat
  attention : Attention := {}
  loops : Loops := {}
  /-- The timer of a node that was started. -/
  heartbeat : Option Heartbeat := none
  isCancelled : Bool := false
  executions : List Execution := []

/-- The settings of a new node that are not its configuration. -/
structure NodeIdentity where
  id : NodeId
  cpus : UInt32 := 1
  /-- The scores that the node publishes if it is configured to. -/
  benchmark : Benchmark := ⟨0, 0, 0, 0, 0⟩
  chance : Chance := {}

namespace Node

/-- What a node publishes about itself when it joins. -/
def publishedMember (config : NodeConfig) (identity : NodeIdentity) : Member where
  id := identity.id
  attributes :=
    if config.publishBenchmark then
      config.attributes.insert AttributeName.benchmark (.benchmark identity.benchmark)
    else config.attributes

/-- Builds a node and lets it join the cluster. It reads the log from its own joining on. -/
def join (config : NodeConfig) (identity : NodeIdentity) (now : Moment) (cluster : Cluster) :
    Except PlacementError (Node × Cluster) := do
  checkConfig config.problem?
  let resolver ← Resolver.start config.stealing (cluster.view identity.id)
  let balancer ← Balancer.build config.balancer cluster.members
  let node : Node := {
    id := identity.id
    config
    chance := identity.chance
    queue := { capacity := config.maxJobs.toNat }
    resolver
    balancer
    tracker := Tracker.start now identity.cpus
    inbox := cluster.nextMailbox
    position := cluster.events.size }
  return (node, cluster.join (publishedMember config identity))

end Node

/-- A turn of a node: its state and the cluster's at a moment, what is to be told, the rule
that broke, if any, and what the node only warns about. -/
structure Turn where
  now : Moment
  node : Node
  cluster : Cluster
  notices : List Notice := []
  fault? : Option Fault := none
  /-- The reports that were refused, each with the origin that it was meant for. -/
  unreported : List (NodeId × Message) := []

namespace Turn

/-- Changes the node. -/
def update (turn : Turn) (change : Node → Node) : Turn := { turn with node := change turn.node }

/-- Asks for a look through the jobs. -/
def requestCollision (turn : Turn) : Turn :=
  turn.update fun node => { node with attention := node.attention.request }

/-- Tells something to the outside. -/
def notify (turn : Turn) (notice : Notice) : Turn :=
  { turn with notices := turn.notices ++ [notice] }

/-- Ends the turn with a fault. -/
def stopWith (turn : Turn) (fault : Fault) : Turn := { turn with fault? := some fault }

/-- Does something for each of some items, until a rule breaks. -/
def forEach {α : Type} (turn : Turn) (items : List α) (act : Turn → α → Turn) : Turn :=
  items.foldl (fun turn item => if turn.fault?.isSome then turn else act turn item) turn

/-- The members that a session may run on. -/
def taskNodes (turn : Turn) (session : SessionId) : List Member :=
  turn.node.restrictions.topology session turn.cluster.members

/-- The draw of the next pick. -/
def draw (turn : Turn) : Draw := turn.node.chance.draw turn.node.drawn

/-- Sends a message; says why it was refused. -/
def send (turn : Turn) (receiver : NodeId) (message : Message) : Except PlacementError Turn :=
  (turn.cluster.send turn.node.id receiver message.topic message.encode).map fun cluster =>
    { turn with cluster }

/-- Sends a message; nothing happens if it is refused. -/
def trySend (turn : Turn) (receiver : NodeId) (message : Message) : Turn :=
  match turn.send receiver message with
  | .ok sent => sent
  | .error _ => turn

/-- Reports to the origin of a task; the node only warns if the report is refused. -/
def report (turn : Turn) (origin : NodeId) (message : Message) : Turn :=
  match turn.send origin message with
  | .ok sent => sent
  | .error _ => { turn with unreported := turn.unreported ++ [(origin, message)] }

end Turn

end JobGrid
