import JobGrid.Balance.Affinity

/-!
# Balancers

Every node has one balancer: the one that its configuration chooses.
-/

namespace JobGrid

/-- A balancer of either kind. -/
inductive Balancer where
  | adaptive (balancer : AdaptiveBalancer)
  | affinity (balancer : AffinityBalancer)

namespace Balancer

def name : Balancer → String
  | adaptive _ => "adaptive"
  | affinity _ => "affinity"

/-- Picks a node for a job of a session. -/
def pick (balancer : Balancer) (session : SessionId) (candidates : List Member) (spec : JobSpec)
    (draw : Draw) : Except Failure (Member × Balancer) :=
  match balancer with
  | adaptive inner =>
      (inner.pick session candidates draw).map fun picked => (picked.1, adaptive picked.2)
  | affinity inner =>
      (inner.pick session candidates spec.affinityKey draw).map fun picked =>
        (picked.1, affinity picked.2)

/-- Takes note of a change in the grid. -/
def onEvent (balancer : Balancer) (event : DiscoveryEvent) : Balancer :=
  match balancer with
  | adaptive inner => adaptive (inner.onEvent event)
  | affinity inner => affinity (inner.onEvent event)

/-- Takes note of what became of a session. -/
def onTask (balancer : Balancer) (event : TaskEvent) : Balancer :=
  match balancer with
  | adaptive inner => adaptive (inner.onTask event)
  | affinity inner => affinity (inner.onTask event)

/-- The balancer that a configuration describes. -/
def ofConfig : BalancerConfig → Except PlacementError Balancer
  | .adaptive config => (AdaptiveBalancer.ofConfig config).map adaptive
  | .affinity config => (AffinityBalancer.ofConfig config Digest.md5).map affinity

/-- The balancer that a configuration describes, told about the members of the grid. -/
def build (config : BalancerConfig) (members : List Member) : Except PlacementError Balancer :=
  (ofConfig config).map fun balancer =>
    members.foldl (fun balancer member => balancer.onEvent ⟨.joined, member⟩) balancer

end Balancer

end JobGrid
