import JobGrid.Arrangement
import JobGrid.Restriction
import JobGrid.Steal.Resolver

/-!
# Giving work away

In the first half of a pass over the jobs of a node, as many jobs as fit are started. Of those
that remain waiting, surplus ones go to peers that asked for work.
-/

namespace JobGrid

/-- What a pass looks at and does not change. -/
structure PassScene where
  config : StealingConfig
  view : GridView
  restrictions : Restrictions
  /-- The order in which peers are served. -/
  order : Arrangement NodeId
  now : Moment

namespace PassScene

/-- How long requests stay valid, in milliseconds. -/
def expiry (scene : PassScene) : Nat := scene.config.requestExpiry.toNat

def isRemote (scene : PassScene) (peer : NodeId) : Bool :=
  scene.view.remote.any fun member => member.id = peer

end PassScene

/-- What a pass changes while it starts jobs and gives jobs away. -/
structure Busy where
  received : StealTable
  counter : StealCounter
  store : JobStore
  activated : Nat := 0
  rejected : Nat := 0

namespace Busy

/-- Tries to start a job. -/
def start (busy : Busy) (job : JobRef) : Busy :=
  let (started, store) := busy.store.activate job
  { busy with store, activated := if started then busy.activated + 1 else busy.activated }

/-- Drops the request of a peer that is gone. -/
def forget (busy : Busy) (peer : NodeId) : Except Fault Busy :=
  (busy.counter.add (-(busy.received.jobs peer : Int))).map fun counter =>
    { busy with counter, received := busy.received.remove peer }

/-- Takes back a request that ran out. -/
def expire (busy : Busy) (scene : PassScene) (peer : NodeId) : Except Fault Busy :=
  (busy.counter.add (-(busy.received.jobs peer : Int))).map fun counter =>
    { busy with counter, received := busy.received.reset scene.now peer 0 }

/-- Marks a cancelled job as given to a peer. -/
def give (busy : Busy) (scene : PassScene) (peer : NodeId) (job : JobRef) : Except Fault Busy := do
  let received ← busy.received.decrement scene.now peer
  let counter ← busy.counter.add (-1)
  return { busy with
    received, counter
    store := busy.store.markStolen job peer
    rejected := busy.rejected + 1 }

/-- What a peer means for a job. -/
inductive Offer where
  /-- The peer left. -/
  | gone
  /-- The peer does not ask for work, or may not have this job. -/
  | unsuitable
  /-- The request of the peer ran out. -/
  | expired
  /-- The peer takes the job. -/
  | taker
  deriving DecidableEq

/-- Looks at a peer on behalf of a job of a session. -/
def offer (busy : Busy) (scene : PassScene) (session : SessionId) (peer : NodeId) : Offer :=
  if !scene.isRemote peer then .gone
  else
    match busy.received.get? peer with
    | none => .unsuitable
    | some entry =>
        if entry.jobs = 0 then .unsuitable
        else if entry.isExpired scene.expiry scene.now then .expired
        else if scene.restrictions.allows session peer then .taker
        else .unsuitable

/-- Gives a job to the first of some peers that takes it, unless it stopped waiting. -/
def handOver (scene : PassScene) (session : SessionId) (job : JobRef) :
    List NodeId → Busy → Except Fault Busy
  | [], busy => .ok busy
  | peer :: rest, busy =>
      match busy.offer scene session peer with
      | .unsuitable => handOver scene session job rest busy
      | .gone => do handOver scene session job rest (← busy.forget peer)
      | .expired => do handOver scene session job rest (← busy.expire scene peer)
      | .taker =>
          match busy.store.cancel job with
          | (false, _) => .ok busy
          | (true, store) => { busy with store }.give scene peer job

/-- Whether a job may be given away while somebody asks for work. -/
def mayGive (busy : Busy) (scene : PassScene) (job : JobHandle) : Bool :=
  !job.spec.stealingDisabled && busy.counter != 0 &&
    job.stealingAttempts < scene.config.maxStealing

/-- How many more of so many waiting jobs are surplus. -/
def surplus (busy : Busy) (scene : PassScene) (waiting : Nat) : Int :=
  waiting - busy.activated - busy.rejected - scene.config.waitThreshold.toNat

/-- Gives surplus jobs away, one after another. -/
def giveAway (scene : PassScene) (waiting : Nat) : List JobRef → Busy → Except Fault Busy
  | [], busy => .ok busy
  | job :: rest, busy =>
      match busy.store.get? job with
      | none => giveAway scene waiting rest busy
      | some handle =>
          if !busy.mayGive scene handle then giveAway scene waiting rest busy
          else if busy.surplus scene waiting ≤ 0 then .ok busy
          else do
            let peers := scene.order.arrange busy.received.peers.keys
            giveAway scene waiting rest (← handOver scene handle.session job peers busy)

/-- How many jobs may be started while some are active. -/
def room (scene : PassScene) (active : Nat) : Nat := scene.config.activeThreshold.toNat - active

/-- Starts the first jobs as far as there is room, and gives surplus ones away. -/
def run (scene : PassScene) (waiting : List JobRef) (active : Nat) (busy : Busy) :
    Except Fault Busy :=
  giveAway scene waiting.length (waiting.drop (room scene active))
    ((waiting.take (room scene active)).foldl start busy)

end Busy

end JobGrid
