import JobGrid.Member.Attribute

/-!
# Session restrictions

A task session may be restricted to a set of nodes. A session without a registered set of nodes
is unrestricted.
-/

namespace JobGrid

/-- The nodes that restricted sessions may run on. -/
abbrev Restrictions := Table SessionId (List NodeId)

namespace Restrictions

/-- Restricts a session to a set of nodes. -/
def register (restrictions : Restrictions) (session : SessionId) (nodes : List NodeId) :
    Restrictions :=
  restrictions.insert session nodes.eraseDups

/-- Whether a session may run on a node. -/
def allows (restrictions : Restrictions) (session : SessionId) (node : NodeId) : Bool :=
  match restrictions.get? session with
  | some nodes => nodes.contains node
  | none => true

/-- The members that a session may run on, in their order. -/
def topology (restrictions : Restrictions) (session : SessionId) (members : List Member) :
    List Member :=
  members.filter fun member => restrictions.allows session member.id

@[simp] theorem topology_empty (session : SessionId) (members : List Member) :
    topology ∅ session members = members := by
  simp [topology, allows]

end Restrictions

end JobGrid
