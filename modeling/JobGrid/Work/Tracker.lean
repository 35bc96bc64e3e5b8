import JobGrid.Member.Metrics
import JobGrid.Time.Timestamp

/-!
# Tracking metrics

The metrics of a node come about as follows: the node samples its jobs each time it publishes
metrics and sums up what they took. The processor load is estimated as active jobs per processor, at
most one.
-/

namespace JobGrid

/-- The sum and the number of some samples. -/
structure Average where
  sum : Float := 0
  count : Nat := 0

namespace Average

/-- Adds a sample. -/
def add (average : Average) (sample : Float) : Average :=
  ⟨average.sum + sample, average.count + 1⟩

/-- The average of the samples; zero without any. -/
def get (average : Average) : Float :=
  if average.count = 0 then 0 else average.sum / Float.ofNat average.count

end Average

/-- What a node remembers in order to publish metrics. -/
structure Tracker where
  started : Moment
  cpus : UInt32
  active : Average := {}
  waiting : Average := {}
  load : Average := {}
  maximumActive : UInt32 := 0
  maximumWaiting : UInt32 := 0
  rejected : UInt32 := 0
  cancelled : UInt32 := 0
  lastExecute : UInt64 := 0
  lastWait : UInt64 := 0
  execute : Average := {}
  wait : Average := {}

namespace Tracker

/-- A tracker for a node with some processors, at least one. -/
def start (now : Moment) (cpus : UInt32) : Tracker := { started := now, cpus := max cpus 1 }

/-- Notes an execution; times are in milliseconds. -/
def recordExecution (tracker : Tracker) (waited took : Nat) : Tracker :=
  let waited := UInt64.ofNat waited
  let took := UInt64.ofNat took
  { tracker with
    lastWait := waited
    lastExecute := took
    wait := tracker.wait.add waited.toFloat
    execute := tracker.execute.add took.toFloat }

/-- Adds to a count; it stays at the largest word. -/
def saturatingAdd (count : UInt32) (more : Nat) : UInt32 :=
  UInt32.ofNat (min (count.toNat + (UInt32.ofNat more).toNat) (2 ^ 32 - 1))

/-- Notes jobs that were given to thieves. -/
def recordRejected (tracker : Tracker) (count : Nat) : Tracker :=
  { tracker with rejected := saturatingAdd tracker.rejected count }

/-- Notes jobs that were cancelled. -/
def recordCancelled (tracker : Tracker) (count : Nat) : Tracker :=
  { tracker with cancelled := saturatingAdd tracker.cancelled count }

/-- The processor load with some active jobs. -/
def loadOf (tracker : Tracker) (active : UInt32) : Float :=
  let load := active.toFloat / tracker.cpus.toFloat
  if load < 1 then load else 1

/-- Samples the jobs. -/
def sample (tracker : Tracker) (active waiting : Nat) : Tracker :=
  let active := UInt32.ofNat active
  let waiting := UInt32.ofNat waiting
  { tracker with
    active := tracker.active.add active.toFloat
    waiting := tracker.waiting.add waiting.toFloat
    load := tracker.load.add (tracker.loadOf active)
    maximumActive := max tracker.maximumActive active
    maximumWaiting := max tracker.maximumWaiting waiting }

/-- The metrics right after a sample of the jobs. -/
def metrics (tracker : Tracker) (now : Moment) (active waiting : Nat) : Metrics where
  currentActiveJobs := UInt32.ofNat active
  averageActiveJobs := tracker.active.get
  maximumActiveJobs := tracker.maximumActive
  currentWaitingJobs := UInt32.ofNat waiting
  averageWaitingJobs := tracker.waiting.get
  maximumWaitingJobs := tracker.maximumWaiting
  currentRejectedJobs := tracker.rejected
  currentCancelledJobs := tracker.cancelled
  currentCpuLoad := tracker.loadOf (UInt32.ofNat active)
  averageCpuLoad := tracker.load.get
  totalCpus := tracker.cpus
  currentExecuteTime := tracker.lastExecute
  averageExecuteTime := tracker.execute.get
  currentWaitTime := tracker.lastWait
  averageWaitTime := tracker.wait.get
  upTime := UInt64.ofNat (now.since tracker.started)

/-- Samples the jobs and gives the metrics. -/
def snapshot (tracker : Tracker) (now : Moment) (active waiting : Nat) : Metrics × Tracker :=
  let sampled := tracker.sample active waiting
  (sampled.metrics now active waiting, sampled)

end Tracker

end JobGrid
