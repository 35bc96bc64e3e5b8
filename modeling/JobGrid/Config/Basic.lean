import JobGrid.Member.Attribute

/-!
# Configuration

Each part of a node has its own settings, with defaults and with rules that valid settings keep.
Some of them are published as attributes of the node.
-/

namespace JobGrid

/-- Settings of work stealing. -/
structure StealingConfig where
  /-- How many jobs run at once. -/
  activeThreshold : UInt32 := 95
  /-- How many jobs are kept waiting before some are given away. -/
  waitThreshold : UInt32 := 0
  /-- How long a steal request stays valid, in milliseconds. -/
  requestExpiry : UInt64 := 1000
  /-- How often a job may be stolen. -/
  maxStealing : UInt32 := 5
  /-- Whether the node asks others for work when it is idle. -/
  enabled : Bool := true
  /-- Which nodes are asked for work. -/
  peerFilter : AttributeFilter := {}

namespace StealingConfig

/-- The rule that the settings break, if any. -/
def problem? (config : StealingConfig) : Option String :=
  if config.maxStealing = 0 then some "max_stealing_attempts must be greater than 0"
  else if config.requestExpiry = 0 then some "message_expire_time_ms must be greater than 0"
  else none

/-- Sets the validity of requests from a time in microseconds; parts of a millisecond are
dropped. -/
def expiringAfter (config : StealingConfig) (micros : Nat) : StealingConfig :=
  { config with requestExpiry := UInt64.ofNat (micros / 1000) }

/-- The validity of requests in microseconds. -/
def expiryMicros (config : StealingConfig) : Nat := config.requestExpiry.toNat * 1000

/-- The attributes by which other nodes decide whether to ask this one for work. -/
def attributes (config : StealingConfig) : Attributes :=
  .ofList [
    (AttributeName.waitThreshold, .ofCount config.waitThreshold),
    (AttributeName.activeThreshold, .ofCount config.activeThreshold),
    (AttributeName.maxStealing, .ofCount config.maxStealing),
    (AttributeName.requestExpiry, .int config.requestExpiry.toInt64)]

end StealingConfig

/-- How the load of a node is measured. -/
inductive ProbeConfig where
  /-- By processor load, on request per processor. -/
  | cpu (useAverage useProcessors : Bool) (coefficient : Float)
  /-- By the number of its jobs. -/
  | jobCount (useAverage : Bool)
  /-- By the time that its jobs take and wait. -/
  | processingTime (useAverage : Bool)
  /-- By its micro-benchmarks: the higher their score, the lower the load. -/
  | benchmark (weights : Benchmark)

namespace ProbeConfig

/-- The usual probe. -/
def usual : ProbeConfig := .processingTime true

instance : Inhabited ProbeConfig := ⟨usual⟩

/-- The rule that the settings break, if any. -/
def problem? : ProbeConfig → Option String
  | cpu _ _ coefficient =>
      if coefficient ≤ 0 then some "processors_coefficient must be greater than 0" else none
  | benchmark weights =>
      if weights.toList.any fun weight => weight < 0 then
        some "benchmark weights must not be negative"
      else none
  | jobCount _ | processingTime _ => none

end ProbeConfig

/-- Settings of the balancer that spreads jobs by load. -/
structure AdaptiveConfig where
  probe : ProbeConfig := .usual

/-- Settings of the balancer that places jobs by their affinity key. -/
structure AffinityConfig where
  /-- How many ring positions the node asks for. -/
  replicas : UInt32 := 1000
  /-- Stands in front of every text that is hashed to a ring position. -/
  seed : String := ""
  /-- Which nodes are put on the ring. -/
  nodeFilter : AttributeFilter := {}

namespace AffinityConfig

/-- The rule that the settings break, if any. -/
def problem? (config : AffinityConfig) : Option String :=
  if config.replicas = 0 then some "virtual_node_count must be greater than 0" else none

/-- The attribute by which other nodes learn the node's share of the ring. -/
def attributes (config : AffinityConfig) : Attributes :=
  .ofList [(AttributeName.replicas, .ofCount config.replicas)]

end AffinityConfig

/-- The choice of a balancer with its settings. -/
inductive BalancerConfig where
  | adaptive (config : AdaptiveConfig)
  | affinity (config : AffinityConfig)

namespace BalancerConfig

/-- The rule that the settings break, if any. -/
def problem? : BalancerConfig → Option String
  | adaptive config => config.probe.problem?
  | affinity config => config.problem?

/-- The attributes that a node with this balancer publishes. -/
def attributes : BalancerConfig → Attributes
  | adaptive _ => ∅
  | affinity config => config.attributes

end BalancerConfig

/-- Settings of the placement of jobs that a node did not keep. -/
structure FailoverConfig where
  /-- How often a job is placed again. -/
  maxAttempts : UInt32 := 5

/-- Settings of a node. -/
structure NodeConfig where
  stealing : StealingConfig := {}
  balancer : BalancerConfig := .adaptive {}
  failover : FailoverConfig := {}
  /-- How often the node publishes its metrics, in milliseconds. -/
  heartbeat : UInt64 := 500
  /-- How many jobs the node holds at most. -/
  maxJobs : UInt64 := 10000
  /-- Whether the node measures and publishes its micro-benchmarks. -/
  publishBenchmark : Bool := false
  /-- A factor on the work of every job. -/
  slowdown : Float := 1

namespace NodeConfig

/-- The first rule that the settings break, if any. -/
def problem? (config : NodeConfig) : Option String :=
  config.stealing.problem? <|> config.balancer.problem? <|>
    if config.heartbeat = 0 then some "heartbeat_interval_ms must be greater than 0"
    else if config.maxJobs = 0 then some "max_jobs must be greater than 0"
    else if ¬(config.slowdown.isFinite ∧ 0 ≤ config.slowdown) then
      some "work_slowdown must be a finite, non-negative number"
    else none

/-- The attributes that a node with these settings publishes. -/
def attributes (config : NodeConfig) : Attributes :=
  config.stealing.attributes.extend config.balancer.attributes

end NodeConfig

/-- Fails on a broken rule. -/
def checkConfig (problem : Option String) : Except PlacementError Unit :=
  match problem with
  | some reason => .error (.invalidConfig reason)
  | none => .ok ()

end JobGrid
