import JobGrid.Decimal.Shortest
import JobGrid.Uuid

/-!
# Errors and faults

An operation of the grid can fail in two ways. An error is an expected outcome that its caller
handles; it has a message. A fault is a broken internal rule, such as a number that leaves its
range: it ends the activity that met it.
-/

namespace JobGrid

/-- A node of the grid. -/
abbrev NodeId := Uuid

/-- A job. -/
abbrev JobId := Uuid

/-- A task session: the jobs that were submitted together. -/
abbrev SessionId := Uuid

/-- A broken internal rule. -/
inductive Fault where
  /-- An integer left the range of its type. -/
  | overflow
  /-- More jobs were taken from the count of requested jobs than it held. -/
  | negativeCounter
  /-- A request for no jobs was served. -/
  | emptyRequest
  /-- A node was picked from a layout without nodes. -/
  | emptyLayout
  /-- A time span is negative, too long or no number. -/
  | invalidDuration
  deriving DecidableEq, Repr

/-- An expected failure. -/
inductive PlacementError where
  | invalidConfig (reason : String)
  | illegalLoad (node : NodeId) (load : Float)
  | emptyCandidates (session : SessionId)
  | nodeNotFound (node : NodeId)
  | undelivered (node : NodeId) (reason : String)
  | queueFull
  | failoverExhausted (job : JobId)
  | internal (reason : String)

namespace PlacementError

/-- The name of the kind of an error, as it is reported. -/
def kind : PlacementError → String
  | invalidConfig _ => "InvalidConfig"
  | illegalLoad _ _ => "NegativeLoad"
  | emptyCandidates _ => "EmptyCandidates"
  | nodeNotFound _ => "NodeNotFound"
  | undelivered _ _ => "Delivery"
  | queueFull => "QueueFull"
  | failoverExhausted _ => "FailoverExhausted"
  | internal _ => "Internal"

/-- The message of an error. -/
def message : PlacementError → String
  | invalidConfig reason => "Invalid configuration: " ++ reason
  | illegalLoad node load =>
      "Load probe returned illegal load " ++ floatText load ++ " for node " ++ node.text
  | emptyCandidates session => "No candidate nodes supplied for task session " ++ session.text
  | nodeNotFound node => "Node not found: " ++ node.text
  | undelivered node reason => "Failed to deliver message to node " ++ node.text ++ ": " ++ reason
  | queueFull => "Job queue at capacity"
  | failoverExhausted job => "Fail-over attempts exhausted for job " ++ job.text
  | internal reason => "Internal error: " ++ reason

end PlacementError

/-- Why an operation did not finish. -/
inductive Failure where
  | error (cause : PlacementError)
  | fault (fault : Fault)

end JobGrid
