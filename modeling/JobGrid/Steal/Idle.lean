import JobGrid.Steal.Busy

/-!
# Asking for work

In the second half of a pass over its jobs, a node with room left asks its peers for their
surplus jobs, each peer at most once and all of them in turn.
-/

namespace JobGrid

/-- A request that was sent. -/
structure SentRequest where
  peer : NodeId
  jobs : UInt32
  deriving DecidableEq

/-- What a pass changes while it asks for work. -/
structure Idle where
  sent : StealTable
  /-- How many jobs there is still room for. -/
  left : Nat
  /-- The peers that were visited and are members. -/
  kept : List NodeId := []
  requests : List SentRequest := []
  /-- The rule that broke; nothing happens after it. -/
  fault? : Option Fault := none

namespace Idle

/-- How many jobs of a peer are surplus by what it publishes; none if it does not publish how
many it keeps or is not to be asked. -/
def surplusOf (config : StealingConfig) (peer : Member) : Except Fault Nat :=
  if config.peerFilter.admits peer then
    match (peer.attribute? AttributeName.waitThreshold).bind Attribute.int? with
    | none => .ok 0
    | some threshold =>
        let surplus : Int := peer.metrics.currentWaitingJobs.toNat - threshold.toInt
        if surplus < 2 ^ 63 then .ok surplus.toNat else .error .overflow
  else .ok 0

/-- Takes back what the peer was asked for too long ago. -/
def refresh (idle : Idle) (scene : PassScene) (peer : NodeId) : Idle :=
  let sent := idle.sent.ensure scene.now peer
  match sent.get? peer with
  | some entry =>
      if entry.isExpired scene.expiry scene.now then
        { idle with sent := sent.reset scene.now peer 0 }
      else { idle with sent }
  | none => { idle with sent }

/-- The largest number of jobs that one request asks for. -/
def largestRequest : Nat := 2 ^ 32 - 1

/-- Asks a peer for some of its surplus jobs. What it was asked for before and did not send
uses up room instead. A request that cannot be sent changes nothing. -/
def ask (idle : Idle) (scene : PassScene) (accepts : NodeId → Bool) (peer : NodeId)
    (surplus : Nat) : Idle :=
  let idle := idle.refresh scene peer
  let outstanding := idle.sent.jobs peer
  if 0 < outstanding then { idle with left := idle.left - outstanding }
  else if accepts peer then
    let jobs := min (min surplus idle.left) largestRequest
    { idle with
      sent := idle.sent.reset scene.now peer jobs
      left := idle.left - jobs
      requests := idle.requests ++ [⟨peer, UInt32.ofNat jobs⟩] }
  else idle

/-- Visits a member. -/
def visitMember (idle : Idle) (scene : PassScene) (accepts : NodeId → Bool) (member : Member) :
    Idle :=
  match surplusOf scene.config member with
  | .error fault => { idle with fault? := some fault }
  | .ok 0 => { idle with kept := idle.kept ++ [member.id] }
  | .ok surplus =>
      let asked := idle.ask scene accepts member.id surplus
      { asked with kept := asked.kept ++ [member.id] }

/-- Visits some peers in turn until there is no room left. Peers that are no members are
dropped. Gives the peers that were not visited. -/
def visit (scene : PassScene) (accepts : NodeId → Bool) : List NodeId → Idle → List NodeId × Idle
  | [], idle => ([], idle)
  | peer :: rest, idle =>
      if idle.left = 0 then (peer :: rest, idle)
      else
        match scene.view.find? peer with
        | none => visit scene accepts rest idle
        | some member =>
            let visited := idle.visitMember scene accepts member
            if visited.fault?.isSome then (rest, visited) else visit scene accepts rest visited

/-- The jobs that were asked for. -/
def requested (idle : Idle) : Nat := (idle.requests.map fun request => request.jobs.toNat).sum

/-- How many jobs there is room for on a node that holds some. -/
def room (config : StealingConfig) (held : Nat) : Nat :=
  config.waitThreshold.toNat + config.activeThreshold.toNat - held

end Idle

end JobGrid
