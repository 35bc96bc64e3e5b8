import JobGrid.Balance.Balancer

/-!
# Fail-over

A job that a node refused, gave away or lost goes to the thief that it was given to, else to any
other node that the balancer picks. It is placed again only so often.
-/

namespace JobGrid

/-- What is known about a job that needs another node. -/
structure Rejection where
  session : SessionId
  spec : JobSpec
  rejectedBy : NodeId
  thief : Option NodeId
  /-- How often the job was placed again already. -/
  attempts : UInt32
  /-- The members that the session may run on. -/
  topology : List Member

/-- How a job finds its next node. -/
inductive Route where
  /-- It was placed too often. -/
  | exhausted
  /-- It goes to its thief. -/
  | thief (member : Member)
  /-- It goes to one of the candidates. -/
  | balance (candidates : List Member)

namespace Rejection

/-- The thief, if it is a member other than the node that gave the job away. -/
def presentThief? (rejection : Rejection) : Option Member :=
  match rejection.thief with
  | some thief =>
      if thief = rejection.rejectedBy then none
      else rejection.topology.find? fun member => member.id = thief
  | none => none

/-- The members other than the node that gave the job away. -/
def candidates (rejection : Rejection) : List Member :=
  rejection.topology.filter fun member => member.id ≠ rejection.rejectedBy

/-- How the job finds its next node. -/
def route (rejection : Rejection) (maxAttempts : UInt32) : Route :=
  if maxAttempts ≤ rejection.attempts then .exhausted
  else
    match rejection.presentThief? with
    | some member => .thief member
    | none => .balance rejection.candidates

/-- The next node of the job. -/
def failover (rejection : Rejection) (maxAttempts : UInt32) (balancer : Balancer) (draw : Draw) :
    Except Failure (Member × Balancer) :=
  match rejection.route maxAttempts with
  | .exhausted => .error (.error (.failoverExhausted rejection.spec.id))
  | .thief member => .ok (member, balancer)
  | .balance candidates => balancer.pick rejection.session candidates rejection.spec draw

end Rejection

end JobGrid
