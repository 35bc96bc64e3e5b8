import JobGrid.Config.Basic
import JobGrid.Json.Reader
import JobGrid.Member.Json

/-!
# Configuration in JSON

Settings are written and read as JSON objects. Those that are left out have their defaults. The
choices of a balancer and of a probe name their kind.
-/

namespace JobGrid

namespace StealingConfig

/-- The names of the settings. -/
def fieldNames : List String :=
  ["active_jobs_threshold", "wait_jobs_threshold", "message_expire_time_ms",
    "max_stealing_attempts", "stealing_enabled", "stealing_attributes"]

/-- Writes settings. -/
def toJson (config : StealingConfig) (number : FloatWriter) : Json :=
  .ofFields fieldNames [
    encode config.activeThreshold, encode config.waitThreshold,
    encode config.requestExpiry, encode config.maxStealing, .bool config.enabled,
    config.peerFilter.toJson number]

/-- Reads settings that are nested in some arrays and objects. -/
def ofJson? (enclosing : Nat) (value : Json) : Option StealingConfig := do
  let [active, wait, expiry, attempts, enabled, filter] ←
    Json.fields? fieldNames false value | none
  let usual : StealingConfig := {}
  some {
    activeThreshold := ← Json.defaulting usual.activeThreshold Json.word32? active
    waitThreshold := ← Json.defaulting usual.waitThreshold Json.word32? wait
    requestExpiry := ← Json.defaulting usual.requestExpiry Json.word64? expiry
    maxStealing := ← Json.defaulting usual.maxStealing Json.word32? attempts
    enabled := ← Json.defaulting usual.enabled Json.bool? enabled
    peerFilter := ← Json.defaulting usual.peerFilter
      (AttributeFilter.ofJson? (enclosing + 1)) filter }

instance : EncodeWith StealingConfig := ⟨fun number value => value.toJson number⟩

instance : Decode StealingConfig := ⟨ofJson? 0⟩

end StealingConfig

namespace ProbeConfig

/-- The kinds of probes. -/
def kinds : List String := ["cpu", "job_count", "processing_time", "benchmark"]

/-- Reads whether averages are used, the only setting of some probes. -/
def averaged? (value : Json) : Option Bool := do
  let [average] ← Json.fields? ["use_average"] false value | none
  Json.defaulting true Json.bool? average

/-- The names of the weights of a benchmark probe. -/
def weightNames : List String :=
  ["integer_weight", "long_weight", "double_weight", "io_weight", "trig_weight"]

/-- The names of the settings of a probe of processor load. -/
def cpuNames : List String := ["use_average", "use_processors", "processors_coefficient"]

/-- Writes a probe: its kind and its settings. -/
def toJson (config : ProbeConfig) (number : FloatWriter) : Json :=
  match config with
  | cpu average processors coefficient =>
      .ofFields ("kind" :: cpuNames)
        [.ofString "cpu", .bool average, .bool processors, number coefficient]
  | jobCount average =>
      .ofMembers [("kind", .ofString "job_count"), ("use_average", .bool average)]
  | processingTime average =>
      .ofMembers [("kind", .ofString "processing_time"), ("use_average", .bool average)]
  | benchmark weights =>
      .ofFields ("kind" :: weightNames) (.ofString "benchmark" :: weights.toList.map number)

/-- Reads the weights of a benchmark probe. -/
def weights? (value : Json) : Option Benchmark := do
  let [integer, long, double, io, trig] ← Json.fields? weightNames false value | none
  let weight := Json.defaulting (1 : Float) Json.float?
  some ⟨← weight integer, ← weight long, ← weight double, ← weight io, ← weight trig⟩

/-- Reads a probe of processor load. -/
def cpu? (value : Json) : Option ProbeConfig := do
  let [average, processors, coefficient] ← Json.fields? cpuNames false value | none
  some (.cpu (← Json.defaulting true Json.bool? average)
    (← Json.defaulting true Json.bool? processors)
    (← Json.defaulting (1 : Float) Json.float? coefficient))

/-- Reads the settings of a probe of a known kind. -/
def ofKind? (kind : String) (record : Json) : Option ProbeConfig :=
  if kind = "cpu" then cpu? record
  else if kind = "job_count" then (averaged? record).map .jobCount
  else if kind = "processing_time" then (averaged? record).map .processingTime
  else (weights? record).map .benchmark

/-- Reads a probe, which may be part of a value that is held back already. -/
def ofJson? (enclosing : Nat) (held : Bool) (value : Json) : Option ProbeConfig :=
  if value.mayHold enclosing then do
    let (kind, record) ← Json.choice? kinds held value
    ofKind? kind record
  else none

instance : EncodeWith ProbeConfig := ⟨fun number value => value.toJson number⟩

instance : Decode ProbeConfig := ⟨ofJson? 0 false⟩

end ProbeConfig

namespace AdaptiveConfig

/-- The settings by name. -/
def fields (config : AdaptiveConfig) (number : FloatWriter) : List (String × Json) :=
  [("probe", config.probe.toJson number)]

/-- Reads settings. -/
def ofJson? (enclosing : Nat) (held : Bool) (value : Json) : Option AdaptiveConfig := do
  let [probe] ← Json.fields? ["probe"] false value | none
  some ⟨← Json.defaulting .usual (ProbeConfig.ofJson? (enclosing + 1) held) probe⟩

instance : EncodeWith AdaptiveConfig := ⟨fun number config => .ofMembers (config.fields number)⟩

instance : Decode AdaptiveConfig := ⟨ofJson? 0 false⟩

end AdaptiveConfig

namespace AffinityConfig

/-- The names of the settings. -/
def fieldNames : List String := ["virtual_node_count", "affinity_seed", "node_filter"]

/-- The settings by name. -/
def fields (config : AffinityConfig) (number : FloatWriter) : List (String × Json) :=
  fieldNames.zip
    [encode config.replicas, .ofString config.seed, config.nodeFilter.toJson number]

/-- Reads settings that are nested in some arrays and objects. -/
def ofJson? (enclosing : Nat) (value : Json) : Option AffinityConfig := do
  let [replicas, seed, filter] ← Json.fields? fieldNames false value | none
  let usual : AffinityConfig := {}
  some {
    replicas := ← Json.defaulting usual.replicas Json.word32? replicas
    seed := ← Json.defaulting usual.seed Json.string? seed
    nodeFilter := ← Json.defaulting usual.nodeFilter
      (AttributeFilter.ofJson? (enclosing + 1)) filter }

instance : EncodeWith AffinityConfig := ⟨fun number config => .ofMembers (config.fields number)⟩

instance : Decode AffinityConfig := ⟨ofJson? 0⟩

end AffinityConfig

namespace BalancerConfig

/-- Writes the choice of a balancer: its kind and its settings. -/
def toJson (config : BalancerConfig) (number : FloatWriter) : Json :=
  match config with
  | adaptive inner => .ofMembers (("kind", .ofString "adaptive") :: inner.fields number)
  | affinity inner => .ofMembers (("kind", .ofString "affinity") :: inner.fields number)

/-- Reads the choice of a balancer. -/
def ofJson? (enclosing : Nat) (value : Json) : Option BalancerConfig :=
  if value.mayHold enclosing then do
    let (kind, record) ← Json.choice? ["adaptive", "affinity"] false value
    if kind = "adaptive" then (AdaptiveConfig.ofJson? enclosing true record).map .adaptive
    else (AffinityConfig.ofJson? enclosing record).map .affinity
  else none

instance : EncodeWith BalancerConfig := ⟨fun number value => value.toJson number⟩

instance : Decode BalancerConfig := ⟨ofJson? 0⟩

end BalancerConfig

namespace FailoverConfig

/-- Writes settings. -/
def toJson (config : FailoverConfig) : Json :=
  .ofMembers [("max_failover_attempts", encode config.maxAttempts)]

/-- Reads settings. -/
def ofJson? (value : Json) : Option FailoverConfig := do
  let [attempts] ← Json.fields? ["max_failover_attempts"] false value | none
  let usual : FailoverConfig := {}
  some ⟨← Json.defaulting usual.maxAttempts Json.word32? attempts⟩

instance : Encode FailoverConfig := ⟨toJson⟩

instance : Decode FailoverConfig := ⟨ofJson?⟩

end FailoverConfig

namespace NodeConfig

/-- The names of the settings. -/
def fieldNames : List String :=
  ["stealing", "balancer", "failover", "heartbeat_interval_ms", "max_jobs",
    "publish_benchmark", "work_slowdown"]

/-- Writes settings. -/
def toJson (config : NodeConfig) (number : FloatWriter) : Json :=
  .ofFields fieldNames [
    config.stealing.toJson number, config.balancer.toJson number, config.failover.toJson,
    encode config.heartbeat, encode config.maxJobs, .bool config.publishBenchmark,
    number config.slowdown]

/-- Reads settings. -/
def ofJson? (value : Json) : Option NodeConfig := do
  let [stealing, balancer, failover, heartbeat, jobs, benchmark, slowdown] ←
    Json.fields? fieldNames false value | none
  let usual : NodeConfig := {}
  some {
    stealing := ← Json.defaulting usual.stealing (StealingConfig.ofJson? 1) stealing
    balancer := ← Json.defaulting usual.balancer (BalancerConfig.ofJson? 1) balancer
    failover := ← Json.defaulting usual.failover FailoverConfig.ofJson? failover
    heartbeat := ← Json.defaulting usual.heartbeat Json.word64? heartbeat
    maxJobs := ← Json.defaulting usual.maxJobs Json.word64? jobs
    publishBenchmark := ← Json.defaulting usual.publishBenchmark Json.bool? benchmark
    slowdown := ← Json.defaulting usual.slowdown Json.float? slowdown }

/-- Reads settings from the octets of a file. -/
def ofBytes? (bytes : Bytes) : Option NodeConfig := (Json.parse? bytes).bind ofJson?

instance : EncodeWith NodeConfig := ⟨fun number value => value.toJson number⟩

instance : Decode NodeConfig := ⟨ofJson?⟩

end NodeConfig

end JobGrid
