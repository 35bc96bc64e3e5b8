import JobGrid.Error
import JobGrid.Hash.Md5
import JobGrid.Hash.SipHash
import JobGrid.Table

/-!
# The affinity ring

Jobs find their nodes by consistent hashing. Every node claims many positions on a circle of
32-bit numbers; a position belongs to the first node that claims it, for as long as that node
stays. A key belongs to the next position clockwise whose owner is accepted.
-/

namespace JobGrid

/-- A hash of octets, which may be unavailable. -/
abbrev Digest := Bytes → Option UInt32

namespace Digest

/-- The usual digest. -/
def md5 : Digest := fun bytes => some (Md5.fold bytes)

/-- A digest with the fallback for octets it cannot hash. -/
def hash (digest : Digest) (bytes : Bytes) : UInt32 :=
  match digest bytes with
  | some hash => hash
  | none => SipHash.fold bytes

end Digest

/-- A position that is taken, and the node that owns it. -/
structure Place where
  position : UInt32
  owner : NodeId
  deriving DecidableEq

/-- A ring: its taken positions in ascending order, and the positions of each node on it. -/
structure Ring where
  seed : Bytes
  digest : Digest
  places : List Place := []
  owned : Table NodeId (List UInt32) := ∅

namespace Ring

/-- The ring without nodes. -/
def empty (seed : String) (digest : Digest) : Ring := { seed := Bytes.ofString seed, digest }

/-- The hash of a key. -/
def keyHash (ring : Ring) (key : Bytes) : UInt32 := ring.digest.hash key

/-- The positions that a node asks for, one for each replica. -/
def wanted (ring : Ring) (node : NodeId) (replicas : Nat) : List UInt32 :=
  let start := ring.seed ++ Bytes.ofString node.text
  (List.range replicas).map fun replica =>
    ring.digest.hash (start ++ Bytes.ofString (Digits.decimalText replica))

/-- The values of an ascending list without repetitions. -/
def distinct : List UInt32 → List UInt32
  | first :: second :: rest =>
      if first = second then distinct (second :: rest) else first :: distinct (second :: rest)
  | short => short

/-- The positions of an ascending list that are not taken. -/
def vacant : List UInt32 → List Place → List UInt32
  | [], _ => []
  | position :: rest, [] => position :: rest
  | position :: rest, place :: places =>
      if position < place.position then position :: vacant rest (place :: places)
      else if position = place.position then vacant rest (place :: places)
      else vacant (position :: rest) places
  termination_by positions places => positions.length + places.length

/-- The positions that a node would win, in ascending order. -/
def winnable (ring : Ring) (node : NodeId) (replicas : Nat) : List UInt32 :=
  vacant (distinct ((ring.wanted node replicas).mergeSort fun left right => left ≤ right))
    ring.places

/-- Puts a node on the ring. A node that is there already stays as it is. -/
def add (ring : Ring) (node : NodeId) (replicas : Nat) : Ring :=
  if ring.owned.contains node then ring
  else
    let won := ring.winnable node replicas
    let places := won.map fun position => ⟨position, node⟩
    { ring with
      places := ring.places.merge places fun left right => left.position ≤ right.position
      owned := ring.owned.insert node won }

/-- Takes a node off the ring together with the positions it owns. -/
def remove (ring : Ring) (node : NodeId) : Ring :=
  match ring.owned.get? node with
  | none => ring
  | some won =>
      { ring with
        places := ring.places.filter fun place => place.position ∉ won
        owned := ring.owned.erase node }

def contains (ring : Ring) (node : NodeId) : Bool := ring.owned.contains node

/-- The number of positions that a node owns. -/
def positionsOf (ring : Ring) (node : NodeId) : Nat := (ring.owned.getD node []).length

/-- The number of nodes on the ring. -/
def nodeCount (ring : Ring) : Nat := ring.owned.size

/-- The number of positions that are taken. -/
def size (ring : Ring) : Nat := ring.places.length

/-- The first accepted owner of a list of places. -/
def firstOwner? (accept : NodeId → Bool) (places : List Place) : Option NodeId :=
  (places.find? fun place => accept place.owner).map Place.owner

/-- The accepted node that a hash belongs to: the owner of the first accepted position at or
behind it, going round the circle once. -/
def ownerAt? (ring : Ring) (hash : UInt32) (accept : NodeId → Bool) : Option NodeId :=
  firstOwner? accept (ring.places.dropWhile fun place => place.position < hash) <|>
    firstOwner? accept (ring.places.takeWhile fun place => place.position < hash)

/-- The accepted node that a key belongs to. -/
def get? (ring : Ring) (key : Bytes) (accept : NodeId → Bool) : Option NodeId :=
  ring.ownerAt? (ring.keyHash key) accept

/-- The node that a key belongs to. -/
def lookup? (ring : Ring) (key : Bytes) : Option NodeId := ring.get? key fun _ => true

@[simp] theorem add_of_contains {ring : Ring} {node : NodeId} {replicas : Nat}
    (present : ring.contains node = true) : ring.add node replicas = ring := by
  simp [add, contains] at present ⊢
  simp [present]

end Ring

end JobGrid
