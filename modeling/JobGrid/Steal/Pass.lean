import JobGrid.Steal.Idle

/-!
# Passes

A whole pass over the jobs of a node starts jobs, gives surplus ones away and, if it gave none
away, asks for work.
-/

namespace JobGrid

/-- What a pass did. -/
structure PassOutcome where
  activated : Nat := 0
  rejected : Nat := 0
  /-- The jobs that peers were asked for. -/
  requested : Nat := 0
  deriving DecidableEq

/-- The result of a pass. -/
structure Pass where
  resolver : Resolver
  store : JobStore
  outcome : PassOutcome := {}
  requests : List SentRequest := []
  fault? : Option Fault := none

namespace Resolver

/-- What a pass looks at. -/
def scene (resolver : Resolver) (view : GridView) (restrictions : Restrictions)
    (order : Arrangement NodeId) (now : Moment) : PassScene :=
  ⟨resolver.config, view, restrictions, order, now⟩

/-- Asks for work. -/
def askForWork (resolver : Resolver) (scene : PassScene) (accepts : NodeId → Bool) (held : Nat) :
    Resolver × Idle :=
  let (unvisited, idle) := Idle.visit scene accepts resolver.queue
    { sent := resolver.sent, left := Idle.room resolver.config held }
  ({ resolver with
    sent := idle.sent
    queue := unvisited ++ idle.kept
    requested := resolver.requested + idle.requested }, idle)

/-- A pass over the waiting jobs of a node that runs some others. -/
def collide (resolver : Resolver) (scene : PassScene) (accepts : NodeId → Bool)
    (store : JobStore) (waiting : List JobRef) (active : Nat) : Pass :=
  let noted := { resolver with waiting := waiting.length, active }
  match Busy.run scene waiting active
      { received := noted.received, counter := noted.counter, store } with
  | .error fault => { resolver := noted, store, fault? := some fault }
  | .ok busy =>
      let noted := { noted with
        received := busy.received
        counter := busy.counter
        stolen := noted.stolen + busy.rejected }
      let outcome : PassOutcome := { activated := busy.activated, rejected := busy.rejected }
      if 0 < busy.rejected ∨ ¬ noted.config.enabled then
        { resolver := noted, store := busy.store, outcome }
      else
        let (noted, idle) := noted.askForWork scene accepts (waiting.length + active)
        { resolver := noted
          store := busy.store
          outcome := { outcome with requested := idle.requested }
          requests := idle.requests
          fault? := idle.fault? }

end Resolver

end JobGrid
