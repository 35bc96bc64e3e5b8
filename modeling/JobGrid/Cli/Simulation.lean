import JobGrid.Cli.RingReport
import JobGrid.Config.Json
import JobGrid.Dashboard
import JobGrid.World

/-!
# Simulations

In a simulation of a cluster some nodes of one configuration start, a task is submitted to the
first of them, and a report says where its jobs ran. Nodes, jobs and the task are numbered, so
that simulations are comparable.
-/

namespace JobGrid

/-- What is simulated. -/
structure SimulationArguments where
  nodes : Nat
  jobs : Nat
  /-- The balancer, if it is not the configured one. -/
  balancer : Option BalancerConfig
  activeThreshold : Option Nat
  waitThreshold : Option Nat
  /-- The work of each job in milliseconds. -/
  work : Nat
  /-- How many affinity keys the jobs have; none if it is zero. -/
  keys : Nat
  pinned : Bool
  heartbeat : Option Nat
  /-- After how many seconds the simulation ends in any case. -/
  timeout : Nat
  /-- Where the dashboard of the first node would be served. -/
  dashboard : Option Nat
  config : Option String
  output : OutputFormat

namespace SimulationArguments

/-- The usual configuration of the balancer of a kind. -/
def balancerOfName? : String → Option BalancerConfig
  | "adaptive" => some (.adaptive {})
  | "affinity" => some (.affinity {})
  | _ => none

def forms : List OptionForm :=
  [{ name := "nodes" }, { name := "jobs" }, { name := "balancer" }, { name := "active-threshold" },
    { name := "wait-threshold" }, { name := "work-ms" }, { name := "keys" },
    { name := "pin-to-origin", takesValue := false }, { name := "heartbeat-ms" },
    { name := "timeout-secs" }, { name := "dashboard-port" }, { name := "config" },
    OutputFormat.form]

/-- Reads the arguments of a simulation. -/
def ofArguments? (arguments : List String) : Option SimulationArguments := do
  let given ← GivenOptions.read forms arguments ∅
  let word32 := GivenOptions.natural? (2 ^ 32)
  let word64 := GivenOptions.natural? (2 ^ 64)
  return {
    nodes := ← given.valueAt "nodes" word64 3
    jobs := ← given.valueAt "jobs" word64 100
    balancer := ← given.valueAt? "balancer" balancerOfName?
    activeThreshold := ← given.valueAt? "active-threshold" word32
    waitThreshold := ← given.valueAt? "wait-threshold" word32
    work := ← given.valueAt "work-ms" word64 50
    keys := ← given.valueAt "keys" word64 0
    pinned := given.contains "pin-to-origin"
    heartbeat := ← given.valueAt? "heartbeat-ms" word64
    timeout := ← given.valueAt "timeout-secs" word64 120
    dashboard := ← given.valueAt? "dashboard-port" (GivenOptions.natural? (2 ^ 16))
    config := ← given.valueAt? "config" some
    output := ← given.valueAt "output" OutputFormat.ofName? .table }

/-- The configuration of all nodes: what the arguments say comes before what the file says. -/
def configure (arguments : SimulationArguments) (config : NodeConfig) : NodeConfig :=
  { config with
    balancer := arguments.balancer.getD config.balancer
    heartbeat := (arguments.heartbeat.map .ofNat).getD config.heartbeat
    stealing := { config.stealing with
      activeThreshold :=
        (arguments.activeThreshold.map .ofNat).getD config.stealing.activeThreshold
      waitThreshold := (arguments.waitThreshold.map .ofNat).getD config.stealing.waitThreshold } }

/-- A job of the task. -/
def job (arguments : SimulationArguments) (index : Nat) : JobSpec where
  id := .ofNat (index + 1)
  affinityKey :=
    if arguments.keys = 0 then none else some (RingReport.key (index % arguments.keys))
  work := .ofNat arguments.work

/-- How the jobs are placed. -/
def placement (arguments : SimulationArguments) : Placement :=
  if arguments.pinned then .pinned else .balanced

end SimulationArguments

/-- What came out of a simulation. -/
structure SimulationReport where
  balancer : String
  jobs : Nat
  /-- The end of the task, unless the time ran out. -/
  outcome : Option TaskOutcome
  /-- How long the task took, in milliseconds. -/
  elapsed : Nat
  nodes : List (NodeId × NodeStats)

namespace World

/-- The end of the task of a ticket, if it was told. -/
def outcome? (world : World) (id : NodeId) (ticket : Nat) : Option TaskOutcome :=
  world.notices.findSome? fun notice =>
    match notice with
    | (teller, .finished told outcome) =>
        if teller = id ∧ told = ticket then some outcome else none
    | (_, .dropped _ _) => none

/-- Lets time pass until the task of a ticket has ended, at most so many milliseconds. -/
def await (id : NodeId) (ticket : Nat) : Nat → World → World
  | 0, world => world
  | millis + 1, world =>
      let settled := world.settle
      if (settled.outcome? id ticket).isSome then settled else await id ticket millis settled.pass

end World

namespace SimulationReport

/-- The nodes of the simulation, started one after another. -/
def startAll (config : NodeConfig) (ids : List NodeId) (world : World) :
    Except PlacementError World :=
  ids.foldlM (fun world id =>
    (world.join config { id, chance := .spread }).map (·.start id)) world

/-- Runs a simulation with some configuration, beginning at some moment. -/
def run (arguments : SimulationArguments) (config : NodeConfig) (now : Moment) :
    Except Failure SimulationReport := do
  let first : NodeId := .ofNat 1
  let ids := (List.range arguments.nodes).map fun index => Uuid.ofNat (index + 1)
  let world ← (startAll config ids
    { now, cluster := .empty Cluster.defaultCapacity }).mapError Failure.error
  let begun := world.settle.advance config.heartbeat.toNat
  let jobs := (List.range arguments.jobs).map arguments.job
  let (submitted, world) := begun.submit first default jobs arguments.placement
  let ticket ← submitted
  let ended := world.await first ticket (arguments.timeout * 1000)
  return {
    balancer := ((ended.nodes.get? first).map fun node => node.balancer.name).getD ""
    jobs := arguments.jobs
    outcome := ended.outcome? first ticket
    elapsed := ended.now.since begun.now
    nodes := ended.nodes.entries.map fun entry => (entry.1, entry.2.stats) }

def completed (report : SimulationReport) : Nat :=
  (report.outcome.map fun outcome => outcome.results.length).getD 0

/-- How many jobs ran on all nodes together. -/
def executed (report : SimulationReport) : Nat :=
  (report.nodes.map fun node => node.2.executed).sum

def isSuccess (report : SimulationReport) : Bool :=
  report.outcome.any TaskOutcome.isSuccess

/-- Why the task failed, if it did. -/
def error (report : SimulationReport) : Option String := report.outcome.bind TaskOutcome.error

def toJson (report : SimulationReport) : Json :=
  .ofMembers [
    ("balancer", encode report.balancer),
    ("jobs", encode report.jobs),
    ("completed", encode report.completed),
    ("success", encode report.isSuccess),
    ("error", encode report.error),
    ("elapsed_ms", encode report.elapsed),
    ("nodes", encode (report.nodes.map fun node =>
      Json.ofMembers (("node_id", encode node.1) :: node.2.fields)))]

/-- A row of the table of nodes. -/
def row (node executed stolen handedOff : String) : String :=
  Column.left 38 node ++ " " ++ Column.right 9 executed ++ " " ++ Column.right 9 stolen ++ " " ++
    Column.right 11 handedOff

/-- The lines of the report as a table. -/
def tableLines (report : SimulationReport) : List String :=
  ["Balancer:  " ++ report.balancer,
    "Completed: " ++ Digits.decimalText report.completed ++ " / " ++
      Digits.decimalText report.jobs,
    "Elapsed:   " ++ Digits.decimalText report.elapsed ++ " ms"] ++
  (report.error.map ("Error:     " ++ ·)).toList ++
  ["", row "NODE" "EXECUTED" "STOLEN" "HANDED OFF", Column.rule 70] ++
  report.nodes.map fun (id, stats) =>
    row id.text (Digits.decimalText stats.executed) (Digits.decimalText stats.executedStolen)
      (Digits.decimalText stats.handedOff)

/-- The text of the report. -/
def text (report : SimulationReport) : OutputFormat → String
  | .table => Column.lines report.tableLines
  | .json => report.toJson.indentedText ++ "\n"

end SimulationReport

end JobGrid
