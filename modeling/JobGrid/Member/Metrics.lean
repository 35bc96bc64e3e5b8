/-!
# Metrics of a node

The numbers that a node publishes about itself are a snapshot of its load and, if it measured
them, the scores of its micro-benchmarks.
-/

namespace JobGrid

/-- The load of a node at one moment. Times are in milliseconds; a processor load is a
fraction of one, and negative when it is not known. -/
structure Metrics where
  currentActiveJobs : UInt32 := 0
  averageActiveJobs : Float := 0
  maximumActiveJobs : UInt32 := 0
  currentWaitingJobs : UInt32 := 0
  averageWaitingJobs : Float := 0
  maximumWaitingJobs : UInt32 := 0
  currentRejectedJobs : UInt32 := 0
  currentCancelledJobs : UInt32 := 0
  currentCpuLoad : Float := 0
  averageCpuLoad : Float := 0
  totalCpus : UInt32 := 0
  currentExecuteTime : UInt64 := 0
  averageExecuteTime : Float := 0
  currentWaitTime : UInt64 := 0
  averageWaitTime : Float := 0
  upTime : UInt64 := 0

instance : Inhabited Metrics := ⟨{}⟩

/-- The scores of a node's micro-benchmarks, in operations per millisecond. -/
structure Benchmark where
  integer : Float
  long : Float
  double : Float
  io : Float
  trig : Float

namespace Benchmark

/-- The weighted sum of all scores. -/
def total (scores weights : Benchmark) : Float :=
  scores.integer * weights.integer + scores.long * weights.long +
    scores.double * weights.double + scores.io * weights.io + scores.trig * weights.trig

/-- Whether all scores are equal as numbers. -/
def same (left right : Benchmark) : Bool :=
  left.integer == right.integer && left.long == right.long && left.double == right.double &&
    left.io == right.io && left.trig == right.trig

/-- The scores in order. -/
def toList (scores : Benchmark) : List Float :=
  [scores.integer, scores.long, scores.double, scores.io, scores.trig]

end Benchmark

end JobGrid
