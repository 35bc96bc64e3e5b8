import JobGrid.Balance.Adaptive
import JobGrid.Balance.Ring

/-!
# The affinity balancer

An affinity balancer places jobs with the same key on the same node, as long as that node stays.
A session restricts its picks to the candidates of its first one until it is mapped.
-/

namespace JobGrid

/-- A balancer that places jobs by their key. -/
structure AffinityBalancer where
  config : AffinityConfig
  ring : Ring
  tasks : SessionCache (List NodeId) := ∅

namespace AffinityBalancer

/-- The positions of a node that does not ask for any. -/
def defaultReplicas : Nat := 1000

/-- The number of positions that a node asks for. -/
def replicasOf (member : Member) : Nat :=
  match (member.attribute? AttributeName.replicas).bind Attribute.int? with
  | some count => if 0 < count then min count.toInt.toNat (2 ^ 32 - 1) else defaultReplicas
  | none => defaultReplicas

/-- Puts a node on the ring, unless the filter excludes it. -/
def add (balancer : AffinityBalancer) (member : Member) : AffinityBalancer :=
  if balancer.config.nodeFilter.admits member then
    { balancer with ring := balancer.ring.add member.id (replicasOf member) }
  else balancer

/-- Takes a node off the ring. -/
def remove (balancer : AffinityBalancer) (node : NodeId) : AffinityBalancer :=
  { balancer with ring := balancer.ring.remove node }

/-- The nodes that a session may use, with what is remembered about it. -/
def allowedFor (balancer : AffinityBalancer) (session : SessionId) (candidates : List Member) :
    List NodeId × SessionCache (List NodeId) :=
  match balancer.tasks.lookup session with
  | .cached nodes => (nodes, balancer.tasks)
  | .mapped => (candidates.map Member.id, balancer.tasks)
  | .miss => balancer.tasks.store session (candidates.map Member.id)

/-- A candidate by chance. -/
def anyOf (session : SessionId) (candidates : List Member) (draw : Draw) :
    Except Failure Member :=
  match candidates[draw.index % candidates.length]? with
  | some member => .ok member
  | none => .error (.error (.emptyCandidates session))

/-- The candidate on the ring that a key belongs to. -/
def ownerOf? (balancer : AffinityBalancer) (allowed : List NodeId) (candidates : List Member)
    (key : String) : Option Member :=
  let owner := balancer.ring.get? (Bytes.ofString key) fun node =>
    allowed.contains node && candidates.any fun candidate => candidate.id = node
  owner.bind fun node => candidates.find? fun candidate => candidate.id = node

/-- Picks a node for a job of a session: the owner of its key, or any candidate if it has no
key or none of them is on the ring. -/
def pick (balancer : AffinityBalancer) (session : SessionId) (candidates : List Member)
    (key : Option String) (draw : Draw) : Except Failure (Member × AffinityBalancer) :=
  if candidates.isEmpty then .error (.error (.emptyCandidates session))
  else
    match key with
    | none => (anyOf session candidates draw).map fun member => (member, balancer)
    | some key =>
        let (allowed, tasks) := balancer.allowedFor session candidates
        let next := { balancer with tasks }
        match balancer.ownerOf? allowed candidates key with
        | some member => .ok (member, next)
        | none => (anyOf session candidates draw).map fun member => (member, next)

/-- Takes note of a change in the grid. -/
def onEvent (balancer : AffinityBalancer) (event : DiscoveryEvent) : AffinityBalancer :=
  match event.kind with
  | .joined => balancer.add event.member
  | .left | .failed => balancer.remove event.member.id
  | .metricsUpdated => balancer

/-- Takes note of what became of a session. -/
def onTask (balancer : AffinityBalancer) : TaskEvent → AffinityBalancer
  | .mapped session => { balancer with tasks := (balancer.tasks.markMapped session).2 }
  | .finished session | .failed session =>
      { balancer with tasks := (balancer.tasks.forget session).2 }

/-- The balancer that a configuration describes, with a digest for its ring. -/
def ofConfig (config : AffinityConfig) (digest : Digest) :
    Except PlacementError AffinityBalancer :=
  (checkConfig config.problem?).map fun _ => { config, ring := .empty config.seed digest }

end AffinityBalancer

end JobGrid
