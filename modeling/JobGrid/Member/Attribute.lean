import JobGrid.Error
import JobGrid.Member.Metrics
import JobGrid.Table

/-!
# Published attributes

A node publishes attributes under names, to some of which the grid itself gives a meaning. A
filter selects nodes by their attributes.
-/

namespace JobGrid

/-- The value of a published attribute. -/
inductive Attribute where
  | bool (value : Bool)
  | int (value : Int64)
  | float (value : Float)
  | text (value : String)
  | benchmark (scores : Benchmark)

namespace Attribute

/-- An attribute that holds a count. -/
def ofCount (count : UInt32) : Attribute := .int (Int64.ofNat count.toNat)

/-- The integer of an attribute; a double is none, not even a whole one. -/
def int? : Attribute → Option Int64
  | .int value => some value
  | _ => none

def benchmark? : Attribute → Option Benchmark
  | .benchmark scores => some scores
  | _ => none

/-- The text of an attribute. -/
def display : Attribute → String
  | .bool value => if value then "true" else "false"
  | .int value => Digits.signedText value.toInt
  | .float value => floatText value
  | .text value => value
  | .benchmark _ => "<benchmark>"

/-- The name of the kind of an attribute. -/
def kind : Attribute → String
  | .bool _ => "Bool"
  | .int _ => "Int"
  | .float _ => "Float"
  | .text _ => "Str"
  | .benchmark _ => "Benchmark"

/-- Whether two attributes are equal: of the same kind and, for doubles, as numbers. -/
def same : Attribute → Attribute → Bool
  | .bool left, .bool right => left == right
  | .int left, .int right => left == right
  | .float left, .float right => left == right
  | .text left, .text right => left == right
  | .benchmark left, .benchmark right => left.same right
  | _, _ => false

end Attribute

/-- The attributes of a node by name. -/
abbrev Attributes := Table String Attribute

namespace Attributes

/-- Adds attributes; of two with one name the added one wins. -/
def extend (attributes added : Attributes) : Attributes :=
  added.entries.foldl (fun table entry => table.insert entry.1 entry.2) attributes

end Attributes

/-! The names of the attributes that the grid itself reads or publishes. -/
namespace AttributeName

/-- How many jobs a node keeps waiting before it gives some away. -/
def waitThreshold : String := "grid.collision.wait.jobs.threshold"

/-- How many jobs a node runs at once. -/
def activeThreshold : String := "grid.collision.active.jobs.threshold"

/-- How often a job may be stolen. -/
def maxStealing : String := "grid.collision.max.stealing.attempts"

/-- How long a steal request stays valid, in milliseconds. -/
def requestExpiry : String := "grid.collision.message.expire.time"

/-- How many ring positions a node asks for. -/
def replicas : String := "grid.affinity.replicas"

/-- The micro-benchmark scores of a node. -/
def benchmark : String := "grid.node.benchmark"

end AttributeName

/-- A node as the rest of the grid sees it: its identity, its attributes and its last
published metrics. -/
structure Member where
  id : NodeId
  attributes : Attributes := ∅
  metrics : Metrics := {}

namespace Member

instance : Inhabited Member := ⟨{ id := default }⟩

def attribute? (member : Member) (name : String) : Option Attribute :=
  member.attributes.get? name

end Member

/-- A filter on attributes: each named attribute must be published with an equal value. -/
structure AttributeFilter where
  required : Attributes := ∅

namespace AttributeFilter

/-- Demands one more attribute. -/
def require (filter : AttributeFilter) (name : String) (value : Attribute) : AttributeFilter :=
  ⟨filter.required.insert name value⟩

def isEmpty (filter : AttributeFilter) : Bool := filter.required.isEmpty

/-- Whether a node passes the filter. -/
def admits (filter : AttributeFilter) (member : Member) : Bool :=
  filter.required.entries.all fun entry =>
    match member.attribute? entry.1 with
    | some value => value.same entry.2
    | none => false

/-- Whether two filters demand the same. -/
def same (left right : AttributeFilter) : Bool :=
  left.required.size == right.required.size &&
    left.required.entries.all fun entry =>
      match right.required.get? entry.1 with
      | some value => entry.2.same value
      | none => false

@[simp] theorem admits_default (member : Member) : ({} : AttributeFilter).admits member = true :=
  rfl

end AttributeFilter

end JobGrid
