import JobGrid.Member.Attribute

/-!
# Discovery events

Discovery tells about a node that it joined, left, failed or published new metrics.
-/

namespace JobGrid

/-- What happened to a node. -/
inductive EventKind where
  | joined
  | left
  | failed
  | metricsUpdated
  deriving DecidableEq, Repr

namespace EventKind

/-- Whether the node is gone after the event. -/
def isDeparture : EventKind → Bool
  | left | failed => true
  | joined | metricsUpdated => false

def display : EventKind → String
  | joined => "joined"
  | left => "left"
  | failed => "failed"
  | metricsUpdated => "metrics_updated"

/-- The name of a kind in messages. -/
def name : EventKind → String
  | joined => "Joined"
  | left => "Left"
  | failed => "Failed"
  | metricsUpdated => "MetricsUpdated"

/-- All kinds. -/
def all : List EventKind := [joined, left, failed, metricsUpdated]

/-- The kind with a name. -/
def ofName? (name : String) : Option EventKind := all.find? fun kind => kind.name = name

end EventKind

/-- A change of one node. -/
structure DiscoveryEvent where
  kind : EventKind
  member : Member

end JobGrid
