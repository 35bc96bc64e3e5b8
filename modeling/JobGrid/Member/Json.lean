import JobGrid.Json.Encode
import JobGrid.Json.Lookup
import JobGrid.Json.Record
import JobGrid.Member.Event

/-!
# Members in JSON

Nodes, their attributes and their metrics are written and read as JSON objects. How a double is
written is left to a given writer.
-/

namespace JobGrid

/-- A way to write doubles. -/
abbrev FloatWriter := Float → Json

/-- Values whose form in JSON holds doubles. -/
class EncodeWith (α : Type) where
  encodeWith : FloatWriter → α → Json

export EncodeWith (encodeWith)

namespace Json

/-- An object with the given names and values in order. -/
def ofFields (names : List String) (values : List Json) : Json := ofMembers (names.zip values)

/-- A 32-bit word. -/
def word32? (value : Json) : Option UInt32 := (value.natBelow? (2 ^ 32)).map UInt32.ofNat

/-- A 64-bit word. -/
def word64? (value : Json) : Option UInt64 := (value.natBelow? (2 ^ 64)).map UInt64.ofNat

/-- The members of an object; of two with one name the last one counts. -/
def table? {α : Type} (decode : Json → Option α) : Json → Option (Table String α)
  | .object members => do
      let pairs ← members.mapM fun member => do
        some ((← member.1), (← decode member.2))
      some (.ofList pairs)
  | _ => none

end Json

namespace Uuid

def ofJson? (value : Json) : Option Uuid := value.string?.bind ofText?

end Uuid

namespace Json

/-- An identifier, or the one of all zeros. -/
def idD (value : Json) : Uuid := (Uuid.ofJson? value).getD default

/-- The identifier under a name, or the one of all zeros. -/
def idAt (value : Json) (name : String) : Uuid := ((value.get? name).map idD).getD default

/-- The identifiers under a name. -/
def idsAt (value : Json) (name : String) : List Uuid := (value.itemsAt name).map idD

end Json

namespace Metrics

/-- The names of the fields of a snapshot. -/
def fieldNames : List String :=
  ["current_active_jobs", "average_active_jobs", "maximum_active_jobs",
    "current_waiting_jobs", "average_waiting_jobs", "maximum_waiting_jobs",
    "current_rejected_jobs", "current_cancelled_jobs", "current_cpu_load",
    "average_cpu_load", "total_cpus", "current_job_execute_time_ms",
    "average_job_execute_time_ms", "current_job_wait_time_ms", "average_job_wait_time_ms",
    "up_time_ms"]

/-- Reads a snapshot; doubles are read by the given reader. -/
def ofJsonWith? (float? : Json → Option Float) (value : Json) : Option Metrics := do
  let [active, averageActive, maximumActive, waiting, averageWaiting, maximumWaiting, rejected,
      cancelled, load, averageLoad, cpus, execute, averageExecute, wait, averageWait, upTime] ←
    Json.fields? fieldNames false value | none
  let count := Json.defaulting (0 : UInt32) Json.word32?
  let time := Json.defaulting (0 : UInt64) Json.word64?
  let number := Json.defaulting (0 : Float) float?
  some {
    currentActiveJobs := ← count active
    averageActiveJobs := ← number averageActive
    maximumActiveJobs := ← count maximumActive
    currentWaitingJobs := ← count waiting
    averageWaitingJobs := ← number averageWaiting
    maximumWaitingJobs := ← count maximumWaiting
    currentRejectedJobs := ← count rejected
    currentCancelledJobs := ← count cancelled
    currentCpuLoad := ← number load
    averageCpuLoad := ← number averageLoad
    totalCpus := ← count cpus
    currentExecuteTime := ← time execute
    averageExecuteTime := ← number averageExecute
    currentWaitTime := ← time wait
    averageWaitTime := ← number averageWait
    upTime := ← time upTime }

/-- Writes a snapshot. -/
def toJson (metrics : Metrics) (number : FloatWriter) : Json :=
  .ofFields fieldNames [
    encode metrics.currentActiveJobs, number metrics.averageActiveJobs,
    encode metrics.maximumActiveJobs, encode metrics.currentWaitingJobs,
    number metrics.averageWaitingJobs, encode metrics.maximumWaitingJobs,
    encode metrics.currentRejectedJobs, encode metrics.currentCancelledJobs,
    number metrics.currentCpuLoad, number metrics.averageCpuLoad,
    encode metrics.totalCpus, encode metrics.currentExecuteTime,
    number metrics.averageExecuteTime, encode metrics.currentWaitTime,
    number metrics.averageWaitTime, encode metrics.upTime]

/-- Reads a snapshot; absent fields have their defaults. -/
def ofJson? (value : Json) : Option Metrics := ofJsonWith? Json.float? value

instance : EncodeWith Metrics := ⟨fun number value => value.toJson number⟩

instance : Decode Metrics := ⟨ofJson?⟩

end Metrics

namespace Benchmark

/-- The names of the scores. -/
def fieldNames : List String :=
  ["integer_score", "long_score", "double_score", "io_score", "trig_score"]

/-- Writes the scores. -/
def toJson (scores : Benchmark) (number : FloatWriter) : Json :=
  .ofFields fieldNames (scores.toList.map number)

/-- Reads the scores, all of which must be there. -/
def ofJson? (value : Json) : Option Benchmark := do
  let [integer, long, double, io, trig] ← Json.fields? fieldNames true value | none
  let score := Json.required Json.float?
  some ⟨← score integer, ← score long, ← score double, ← score io, ← score trig⟩

instance : EncodeWith Benchmark := ⟨fun number value => value.toJson number⟩

instance : Decode Benchmark := ⟨ofJson?⟩

end Benchmark

namespace Attribute

/-- Writes an attribute. -/
def toJson (value : Attribute) (number : FloatWriter) : Json :=
  match value with
  | .bool flag => .bool flag
  | .int whole => .ofInt whole.toInt
  | .float double => number double
  | .text string => .ofString string
  | .benchmark scores => scores.toJson number

/-- The integers that an attribute holds; others are doubles. -/
def isWord (value : Int) : Bool := -2 ^ 63 ≤ value && value < 2 ^ 63

/-- Reads a number. -/
def ofNumber? (written : NumberText) : Option Attribute :=
  match written.value? with
  | some (.int whole) =>
      if isWord whole then some (.int (Int64.ofInt whole)) else some (.float (Float.ofInt whole))
  | some (.float number) => some (.float number)
  | none => none

/-- Reads an attribute that is nested in some arrays and objects. Its kind follows from the
form of the value. -/
def ofJson? (enclosing : Nat) (value : Json) : Option Attribute :=
  if value.mayHold enclosing then
    match value with
    | .bool flag => some (.bool flag)
    | .number written => ofNumber? written
    | .string written => written.map .text
    | .array items => (Benchmark.ofJson? (.array items)).map .benchmark
    | .object members => (Benchmark.ofJson? (.object members)).map .benchmark
    | .null => none
  else none

instance : EncodeWith Attribute := ⟨fun number value => value.toJson number⟩

instance : Decode Attribute := ⟨ofJson? 0⟩

end Attribute

namespace Attributes

/-- Writes attributes. -/
def toJson (attributes : Attributes) (number : FloatWriter) : Json :=
  .ofMembers (attributes.entries.map fun entry => (entry.1, entry.2.toJson number))

/-- Reads attributes that are nested in some arrays and objects. -/
def ofJson? (enclosing : Nat) (value : Json) : Option Attributes :=
  value.table? (Attribute.ofJson? (enclosing + 1))

end Attributes

namespace AttributeFilter

/-- Writes a filter. -/
def toJson (filter : AttributeFilter) (number : FloatWriter) : Json :=
  filter.required.toJson number

/-- Reads a filter that is nested in some arrays and objects. -/
def ofJson? (enclosing : Nat) (value : Json) : Option AttributeFilter :=
  (Attributes.ofJson? enclosing value).map AttributeFilter.mk

instance : EncodeWith AttributeFilter := ⟨fun number value => value.toJson number⟩

instance : Decode AttributeFilter := ⟨ofJson? 0⟩

end AttributeFilter

namespace Member

/-- The names of the fields of a node. -/
def fieldNames : List String := ["id", "attributes", "metrics"]

/-- Writes a node. -/
def toJson (member : Member) (number : FloatWriter) : Json :=
  .ofFields fieldNames
    [encode member.id, member.attributes.toJson number, member.metrics.toJson number]

/-- Reads a node, all of whose fields must be there. -/
def ofJson? (value : Json) : Option Member := do
  let [id, attributes, metrics] ← Json.fields? fieldNames true value | none
  some {
    id := ← Json.required Uuid.ofJson? id
    attributes := ← Json.required (Attributes.ofJson? 1) attributes
    metrics := ← Json.required Metrics.ofJson? metrics }

instance : EncodeWith Member := ⟨fun number value => value.toJson number⟩

instance : Decode Member := ⟨ofJson?⟩

end Member

namespace EventKind

def toJson (kind : EventKind) : Json := .ofString kind.name

def ofJson? (value : Json) : Option EventKind :=
  (Json.name? (all.map name) value).bind ofName?

instance : Encode EventKind := ⟨toJson⟩

instance : Decode EventKind := ⟨ofJson?⟩

end EventKind

end JobGrid
