import JobGrid.Error

/-!
# Job specifications

A specification is what is submitted as a job. On a node the job has a state.
-/

namespace JobGrid

/-- A job as it is submitted: its identity and hints for its placement. -/
structure JobSpec where
  id : JobId
  /-- Routes the job over the affinity ring. -/
  affinityKey : Option String := none
  /-- Keeps the job from being given to another node. -/
  stealingDisabled : Bool := false
  /-- The time that the work of the job takes, in milliseconds. -/
  work : UInt64 := 0
  deriving DecidableEq

/-- The states of a job on a node. -/
inductive JobState where
  | waiting
  | active
  | cancelled
  deriving DecidableEq, Repr

namespace JobState

def display : JobState → String
  | waiting => "waiting"
  | active => "active"
  | cancelled => "cancelled"

/-- The name of a state in messages. -/
def name : JobState → String
  | waiting => "Waiting"
  | active => "Active"
  | cancelled => "Cancelled"

/-- All states. -/
def all : List JobState := [waiting, active, cancelled]

/-- The state with a name. -/
def ofName? (name : String) : Option JobState := all.find? fun state => state.name = name

end JobState

end JobGrid
