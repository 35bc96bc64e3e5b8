import JobGrid.Config.Basic

/-!
# Load probes

A probe computes the load of a node from what the node publishes. The lower its load, the more
jobs a node gets.
-/

namespace JobGrid

/-- Measures the load of a node that got so many jobs since it last published metrics. -/
abbrev LoadProbe := Member → Nat → Except Fault Float

namespace Metrics

/-- The processor load, divided by the processors if there are several and this is asked
for. A load that is not known counts as none. -/
def processorLoad (metrics : Metrics) (useAverage useProcessors : Bool) (coefficient : Float) :
    Float :=
  let divisor :=
    if useProcessors ∧ 1 < metrics.totalCpus then metrics.totalCpus.toFloat * coefficient else 1
  let raw := if useAverage then metrics.averageCpuLoad else metrics.currentCpuLoad
  let load := raw / divisor
  if load < 0 then 0 else load

/-- The number of jobs, preferably the average one. -/
def jobLoad (metrics : Metrics) (useAverage : Bool) : Float :=
  let average := metrics.averageActiveJobs + metrics.averageWaitingJobs
  if useAverage ∧ 0 < average then average
  else metrics.currentActiveJobs.toFloat + metrics.currentWaitingJobs.toFloat

/-- The time that jobs take and wait, preferably the average one. -/
def timeLoad (metrics : Metrics) (useAverage : Bool) : Except Fault Float :=
  let average := metrics.averageExecuteTime + metrics.averageWaitTime
  let current := metrics.currentExecuteTime.toNat + metrics.currentWaitTime.toNat
  if useAverage ∧ 0 < average then .ok average
  else if current < 2 ^ 64 then .ok (Float.ofNat current)
  else .error .overflow

end Metrics

/-- The inverse of the weighted score; a node without scores has no load. -/
def Member.benchmarkLoad (member : Member) (weights : Benchmark) : Float :=
  match (member.attribute? AttributeName.benchmark).bind Attribute.benchmark? with
  | some scores =>
      let score := scores.total weights
      if 0 < score then 1 / score else 0
  | none => 0

/-- The probe that a configuration describes. None of them looks at the jobs sent. -/
def ProbeConfig.probe : ProbeConfig → LoadProbe
  | .cpu useAverage useProcessors coefficient => fun member _ =>
      .ok (member.metrics.processorLoad useAverage useProcessors coefficient)
  | .jobCount useAverage => fun member _ => .ok (member.metrics.jobLoad useAverage)
  | .processingTime useAverage => fun member _ => member.metrics.timeLoad useAverage
  | .benchmark weights => fun member _ => .ok (member.benchmarkLoad weights)

end JobGrid
