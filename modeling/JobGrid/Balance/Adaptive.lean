import JobGrid.Balance.Layout
import JobGrid.Balance.SessionCache
import JobGrid.Job.Message
import JobGrid.Member.Event

/-!
# The adaptive balancer

An adaptive balancer spreads jobs by load. A session lays out its candidates once and picks from
that layout until it is mapped.
-/

namespace JobGrid

/-- The chance in a pick: a fraction below one, and an index of any size. -/
structure Draw where
  fraction : Float
  index : Nat

instance : Inhabited Draw := ⟨⟨0.5, 0⟩⟩

/-- A balancer that spreads jobs by load. -/
structure AdaptiveBalancer where
  probe : LoadProbe
  /-- How many jobs each node got since it last published metrics, counted without bound as 2 ^ 64
  jobs are out of reach. -/
  sent : Table NodeId Nat := ∅
  tasks : SessionCache Layout := ∅

namespace AdaptiveBalancer

/-- The number of jobs that a node got since it last published metrics. -/
def sentJobs (balancer : AdaptiveBalancer) (node : NodeId) : Nat := balancer.sent.getD node 0

/-- The layout of some candidates at present. -/
def layout (balancer : AdaptiveBalancer) (candidates : List Member) : Except Failure Layout :=
  Layout.build balancer.probe balancer.sentJobs candidates

/-- The layout that a session uses, with what is remembered about it. A stored layout is used
only while all its nodes are candidates. -/
def layoutFor (balancer : AdaptiveBalancer) (session : SessionId) (candidates : List Member) :
    Except Failure (Layout × SessionCache Layout) :=
  match balancer.tasks.lookup session with
  | .cached layout =>
      if layout.within candidates then .ok (layout, balancer.tasks)
      else (balancer.layout candidates).map fun fresh => (fresh, balancer.tasks)
  | .mapped => (balancer.layout candidates).map fun fresh => (fresh, balancer.tasks)
  | .miss => (balancer.layout candidates).map fun fresh => balancer.tasks.store session fresh

/-- Picks a node for a job of a session. -/
def pick (balancer : AdaptiveBalancer) (session : SessionId) (candidates : List Member)
    (draw : Draw) : Except Failure (Member × AdaptiveBalancer) :=
  if candidates.isEmpty then .error (.error (.emptyCandidates session))
  else
    match balancer.layoutFor session candidates with
    | .error failure => .error failure
    | .ok (layout, tasks) =>
        match layout.pick draw.fraction with
        | .error fault => .error (.fault fault)
        | .ok member =>
            let sent := balancer.sent.insert member.id (balancer.sentJobs member.id + 1)
            .ok (member, { balancer with sent, tasks })

/-- Takes note of a change in the grid. -/
def onEvent (balancer : AdaptiveBalancer) (event : DiscoveryEvent) : AdaptiveBalancer :=
  if event.kind.isDeparture then { balancer with sent := balancer.sent.erase event.member.id }
  else { balancer with sent := balancer.sent.insert event.member.id 0 }

/-- Takes note of what became of a session. -/
def onTask (balancer : AdaptiveBalancer) : TaskEvent → AdaptiveBalancer
  | .mapped session => { balancer with tasks := (balancer.tasks.markMapped session).2 }
  | .finished session | .failed session =>
      { balancer with tasks := (balancer.tasks.forget session).2 }

/-- The balancer that a configuration describes. -/
def ofConfig (config : AdaptiveConfig) : Except PlacementError AdaptiveBalancer :=
  (checkConfig config.probe.problem?).map fun _ => { probe := config.probe.probe }

end AdaptiveBalancer

end JobGrid
