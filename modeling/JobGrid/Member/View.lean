import JobGrid.Member.Attribute

/-!
# Views of the grid

A view is what one node sees of the grid at a moment: itself, as long as it is a member, and the
other members.
-/

namespace JobGrid

/-- What a node sees of the grid. -/
structure GridView where
  localId : NodeId
  own : Option Member
  remote : List Member

namespace GridView

/-- The view of a node on some members. -/
def ofMembers (localId : NodeId) (members : List Member) : GridView where
  localId := localId
  own := members.find? fun member => member.id = localId
  remote := members.filter fun member => member.id ≠ localId

/-- The node itself, with nothing but its identity if it is no member. -/
def localMember (view : GridView) : Member := view.own.getD { id := view.localId }

/-- All members, the node itself first. -/
def members (view : GridView) : List Member := view.own.toList ++ view.remote

/-- The member with an identity. -/
def find? (view : GridView) (node : NodeId) : Option Member :=
  view.members.find? fun member => member.id = node

def contains (view : GridView) (node : NodeId) : Bool := (view.find? node).isSome

end GridView

end JobGrid
