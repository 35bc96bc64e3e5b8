import JobGrid.Config.Basic
import JobGrid.Job.Message
import JobGrid.Member.Event
import JobGrid.Member.View
import JobGrid.Steal.Request

/-!
# The stealing resolver

The resolver is what a node keeps in mind about work stealing: what its peers asked it for, what
it asked its peers for, and in which order it asks them. Requests and changes of the grid are
noted in it.
-/

namespace JobGrid

/-- The state of work stealing on a node. -/
structure Resolver where
  config : StealingConfig
  /-- What peers asked this node for. -/
  received : StealTable := ∅
  /-- What this node asked its peers for. -/
  sent : StealTable := ∅
  /-- How many jobs peers ask this node for. -/
  counter : StealCounter := 0
  /-- The peers in the order in which they are asked next. -/
  queue : List NodeId := []
  /-- The jobs that waited and ran when jobs were looked through last. -/
  waiting : Nat := 0
  active : Nat := 0
  /-- The jobs given away and the jobs asked for so far. Both are counted without bound; a word of
  64 bits would start again after 2 ^ 64 jobs, which is out of reach. -/
  stolen : Nat := 0
  requested : Nat := 0

namespace Resolver

/-- The resolver of a node that sees the grid for the first time. -/
def start (config : StealingConfig) (view : GridView) : Except PlacementError Resolver :=
  (checkConfig config.problem?).map fun _ =>
    { config, queue := view.remote.map Member.id }

/-- How long requests stay valid, in milliseconds. -/
def expiry (resolver : Resolver) : Nat := resolver.config.requestExpiry.toNat

/-- Notes what a member asks for; others are ignored. Says whether it was noted. -/
def onStealRequest (resolver : Resolver) (view : GridView) (now : Moment) (peer : NodeId)
    (request : StealRequest) : Except Fault (Bool × Resolver) :=
  if view.contains peer then
    let before := resolver.received.jobs peer
    (resolver.counter.add (request.delta.toNat - before)).map fun counter =>
      (true, { resolver with
        counter
        received := resolver.received.reset now peer request.delta.toNat })
  else .ok (false, resolver)

/-- Forgets what a peer asked for. -/
def forgetReceived (resolver : Resolver) (peer : NodeId) : Except Fault Resolver :=
  (resolver.counter.add (-(resolver.received.jobs peer : Int))).map fun counter =>
    { resolver with counter, received := resolver.received.remove peer }

/-- Takes note of a change in the grid; what happens to the node itself does not matter. -/
def onEvent (resolver : Resolver) (localId : NodeId) (event : DiscoveryEvent) :
    Except Fault Resolver :=
  let peer := event.member.id
  if peer = localId then .ok resolver
  else
    match event.kind with
    | .joined =>
        if peer ∈ resolver.queue then .ok resolver
        else .ok { resolver with queue := resolver.queue ++ [peer] }
    | .left | .failed =>
        (resolver.forgetReceived peer).map fun resolver =>
          { resolver with
            queue := resolver.queue.filter (· ≠ peer)
            sent := resolver.sent.remove peer }
    | .metricsUpdated => .ok resolver

end Resolver

/-- The figures of work stealing on a node. -/
structure StealingStatus where
  waiting : Nat
  active : Nat
  stolen : Nat
  requested : Nat
  /-- The jobs that peers ask for at present. -/
  currentRequests : Int
  /-- The jobs that peers were asked for and did not send yet. -/
  outstanding : Nat
  config : StealingConfig

/-- The figures at a moment. -/
def Resolver.status (resolver : Resolver) (now : Moment) : StealingStatus where
  waiting := resolver.waiting
  active := resolver.active
  stolen := resolver.stolen
  requested := resolver.requested
  currentRequests := resolver.counter
  outstanding := resolver.sent.liveTotal resolver.expiry now
  config := resolver.config

end JobGrid
