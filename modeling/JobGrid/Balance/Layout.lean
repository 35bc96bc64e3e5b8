import JobGrid.Balance.Probe

/-!
# Weighted layouts

Nodes share the interval from zero to one: each one gets a slice that is the wider the lower its
load. A draw from the interval picks the node whose slice it falls into. The bounds of the
slices are defined over any numbers that can be added and divided, so that their laws can be
stated where arithmetic is exact.
-/

namespace JobGrid

/-- Numbers that loads are measured in. -/
class LoadNumber (α : Type) extends Zero α, One α, Add α, Sub α, Div α, LT α, BEq α where
  ofCount : Nat → α
  decideLess : DecidableLT α

namespace LoadNumber

instance {α : Type} [LoadNumber α] : DecidableLT α := decideLess

instance : LoadNumber Float where
  ofCount := Float.ofNat
  decideLess := inferInstance

instance : LoadNumber Rat where
  zero := 0
  one := 1
  ofCount count := (count : Rat)
  decideLess := inferInstance

end LoadNumber

namespace Slices

variable {α : Type} [LoadNumber α]

/-- The sum of some numbers, added from the left. -/
def sum (numbers : List α) : α := numbers.foldl (· + ·) 0

/-- Replaces each missing load by the average of the others. The total grows with every
replacement, so a later one is larger. Gives the loads and the final total. -/
def substitute (count : Nat) : α → List α → List α × α
  | total, [] => ([], total)
  | total, load :: rest =>
      if load == 0 then
        let average := if 0 < count then total / LoadNumber.ofCount count else 1
        let (loads, final) := substitute count (total + average) rest
        (average :: loads, final)
      else
        let (loads, final) := substitute count total rest
        (load :: loads, final)

/-- The loads and their total after missing loads were replaced. -/
def substituted (loads : List α) : List α × α :=
  substitute (loads.filter fun load => 0 < load).length (sum loads) loads

/-- The weights of nodes: the total load divided by the load of each. -/
def weights (loads : List α) : List α :=
  let (loads, total) := substituted loads
  loads.map fun load => total / load

/-- The upper bounds of slices with given shares of a total, laid side by side. -/
def accumulate (total : α) : α → List α → List α
  | _, [] => []
  | start, weight :: rest =>
      let bound := start + weight / total
      bound :: accumulate total bound rest

/-- The bounds as they are computed. -/
def computed (loads : List α) : List α :=
  let weights := weights loads
  accumulate (sum weights) 0 weights

/-- Puts the last bound at one, so that rounding leaves no gap. -/
def close : List α → List α
  | [] => []
  | [_] => [1]
  | bound :: rest => bound :: close rest

/-- The upper bounds of the slices of nodes with given loads. -/
def bounds (loads : List α) : List α := close (computed loads)

/-- The widths of slices with given bounds. -/
def widths : α → List α → List α
  | _, [] => []
  | start, bound :: rest => (bound - start) :: widths bound rest

/-- The first of some indices at which a test that holds up to some point fails, found by
halving. -/
def bisect (holds : Nat → Bool) (base count : Nat) : Nat :=
  if count ≤ 1 then (if holds base then base + 1 else base)
  else
    let half := count / 2
    bisect holds (if holds (base + half) then base + half else base) (count - half)
  termination_by count

/-- The index of the slice that a draw falls into. -/
def locate (bounds : List α) (draw : α) : Nat :=
  let isBelow (index : Nat) : Bool :=
    match bounds[index]? with
    | some bound => bound < draw
    | none => false
  min (bisect isBelow 0 bounds.length) (bounds.length - 1)

end Slices

/-- Some nodes with the upper bounds of their slices. -/
structure Layout where
  bounds : List Float
  members : List Member

namespace Layout

/-- Whether a load can be laid out. -/
def isLegal (load : Float) : Bool := load.isFinite && 0 ≤ load

/-- The loads of some nodes, up to the first illegal one. -/
def loads (probe : LoadProbe) (sent : NodeId → Nat) : List Member → Except Failure (List Float)
  | [] => .ok []
  | member :: rest =>
      match probe member (sent member.id) with
      | .error fault => .error (.fault fault)
      | .ok load =>
          if isLegal load then (loads probe sent rest).map (load :: ·)
          else .error (.error (.illegalLoad member.id load))

/-- Lays out some nodes. -/
def build (probe : LoadProbe) (sent : NodeId → Nat) (members : List Member) :
    Except Failure Layout :=
  (loads probe sent members).map fun loads => ⟨Slices.bounds loads, members⟩

/-- The node whose slice holds a draw. -/
def pick (layout : Layout) (draw : Float) : Except Fault Member :=
  match layout.members[Slices.locate layout.bounds draw]? with
  | some member => .ok member
  | none => .error .emptyLayout

/-- The shares of the nodes. -/
def shares (layout : Layout) : List Float := Slices.widths 0 layout.bounds

/-- Whether all nodes of the layout are among the candidates. -/
def within (layout : Layout) (candidates : List Member) : Bool :=
  layout.members.all fun member => candidates.any fun candidate => candidate.id = member.id

end Layout

end JobGrid
