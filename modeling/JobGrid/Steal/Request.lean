import JobGrid.Error
import JobGrid.Table
import JobGrid.Time.Timestamp

/-!
# Steal requests

A table of steal requests holds the requests for work that a node has open with its peers, one
for each peer. Jobs that are handed over are taken off a request, which keeps its age; a new
request replaces the old one. A counter keeps the sum of a table of requests.
-/

namespace JobGrid

/-- A request for work. A ticket tells it from later requests of the same peer. -/
structure StealEntry where
  jobs : Nat
  since : Moment
  ticket : Nat
  deriving DecidableEq

namespace StealEntry

/-- The time since the request was made. -/
def age (entry : StealEntry) (now : Moment) : Nat := now.since entry.since

/-- Whether jobs are still asked for after the request ran out. -/
def isExpired (entry : StealEntry) (expiry : Nat) (now : Moment) : Bool :=
  0 < entry.jobs && expiry ≤ entry.age now

/-- The jobs that are still asked for. -/
def live (entry : StealEntry) (expiry : Nat) (now : Moment) : Nat :=
  if entry.isExpired expiry now then 0 else entry.jobs

end StealEntry

/-- The requests of all peers. -/
structure StealTable where
  peers : Table NodeId StealEntry := ∅
  /-- The ticket of the next new entry. -/
  issued : Nat := 0

namespace StealTable

instance : EmptyCollection StealTable := ⟨{}⟩

def get? (table : StealTable) (peer : NodeId) : Option StealEntry := table.peers.get? peer

/-- The jobs that a peer asks for, if it has an entry. -/
def jobs? (table : StealTable) (peer : NodeId) : Option Nat :=
  (table.get? peer).map StealEntry.jobs

/-- The jobs that a peer asks for; none without an entry. -/
def jobs (table : StealTable) (peer : NodeId) : Nat := (table.jobs? peer).getD 0

/-- Makes sure that a peer has an entry. -/
def ensure (table : StealTable) (now : Moment) (peer : NodeId) : StealTable :=
  if table.peers.contains peer then table
  else ⟨table.peers.insert peer ⟨0, now, table.issued⟩, table.issued + 1⟩

/-- Replaces the request of a peer and restarts its clock. -/
def reset (table : StealTable) (now : Moment) (peer : NodeId) (jobs : Nat) : StealTable :=
  let ready := table.ensure now peer
  { ready with
    peers := ready.peers.modify peer fun entry => { entry with jobs, since := now } }

/-- Takes one job off the request of a peer, which must ask for some. -/
def decrement (table : StealTable) (now : Moment) (peer : NodeId) : Except Fault StealTable :=
  if table.jobs peer = 0 then .error .emptyRequest
  else
    let ready := table.ensure now peer
    .ok { ready with
      peers := ready.peers.modify peer fun entry => { entry with jobs := entry.jobs - 1 } }

/-- Drops the entry of a peer. -/
def remove (table : StealTable) (peer : NodeId) : StealTable :=
  { table with peers := table.peers.erase peer }

/-- The jobs that all peers ask for. -/
def total (table : StealTable) : Nat := (table.peers.values.map StealEntry.jobs).sum

/-- The jobs of all requests that have not run out. -/
def liveTotal (table : StealTable) (expiry : Nat) (now : Moment) : Nat :=
  (table.peers.values.map fun entry => entry.live expiry now).sum

/-- The entry with a ticket, as long as it stays in the table. -/
def byTicket? (table : StealTable) (ticket : Nat) : Option StealEntry :=
  table.peers.values.find? fun entry => entry.ticket = ticket

end StealTable

/-- A count of jobs that must never be negative. -/
abbrev StealCounter := Int

namespace StealCounter

/-- Adds to a counter. -/
def add (counter : StealCounter) (delta : Int) : Except Fault StealCounter :=
  let updated := counter + delta
  if updated < -2 ^ 63 ∨ 2 ^ 63 ≤ updated then .error .overflow
  else if updated < 0 then .error .negativeCounter
  else .ok updated

end StealCounter

end JobGrid
