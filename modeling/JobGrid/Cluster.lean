import JobGrid.Json.Basic
import JobGrid.Member.Event
import JobGrid.Member.View

/-!
# The cluster

A cluster is the grid that nodes join: its members in the order in which they joined, an inbox
for each of them, and a log of everything that changed. A message is refused when its receiver
is no member or its inbox is full or closed.
-/

namespace JobGrid

/-- A message on its way. -/
structure Envelope where
  sender : NodeId
  topic : String
  payload : Bytes
  deriving DecidableEq

/-- An inbox: the messages that arrived, and whether somebody still reads them. -/
structure Mailbox where
  letters : List Envelope := []
  isOpen : Bool := true

/-- A reference to an inbox. A node that joins again gets a new one. -/
abbrev MailboxRef := Nat

/-- The members of the grid, their inboxes and the log of changes. -/
structure Cluster where
  capacity : Nat
  members : List Member := []
  inboxes : Table NodeId MailboxRef := ∅
  mailboxes : Array Mailbox := #[]
  events : Array DiscoveryEvent := #[]

namespace Cluster

/-- How many messages an inbox holds unless something else is asked for. -/
def defaultCapacity : Nat := 4096

/-- The cluster without members. Every inbox holds at least one message. -/
def empty (capacity : Nat) : Cluster := { capacity := max capacity 1 }

/-- Enters a change into the log. -/
def publish (cluster : Cluster) (kind : EventKind) (member : Member) : Cluster :=
  { cluster with events := cluster.events.push ⟨kind, member⟩ }

/-- The inbox that the next node to join gets. -/
def nextMailbox (cluster : Cluster) : MailboxRef := cluster.mailboxes.size

/-- Adds a member behind all others. A member that joins again is replaced. -/
def join (cluster : Cluster) (member : Member) : Cluster :=
  publish { cluster with
    members := (cluster.members.filter fun other => other.id ≠ member.id) ++ [member]
    inboxes := cluster.inboxes.insert member.id cluster.nextMailbox
    mailboxes := cluster.mailboxes.push {} } .joined member

/-- The member with an identity. -/
def find? (cluster : Cluster) (node : NodeId) : Option Member :=
  cluster.members.find? fun member => member.id = node

/-- Removes a member. -/
def remove (cluster : Cluster) (kind : EventKind) (node : NodeId) : Cluster :=
  match cluster.find? node with
  | none => { cluster with inboxes := cluster.inboxes.erase node }
  | some member =>
      publish { cluster with
        members := cluster.members.filter fun other => other.id ≠ node
        inboxes := cluster.inboxes.erase node } kind member

/-- A member leaves. -/
def leave (cluster : Cluster) (node : NodeId) : Cluster := cluster.remove .left node

/-- A member fails. -/
def fail (cluster : Cluster) (node : NodeId) : Cluster := cluster.remove .failed node

/-- Replaces the metrics of a member. -/
def updateMetrics (cluster : Cluster) (node : NodeId) (metrics : Metrics) :
    Except PlacementError Cluster :=
  match cluster.find? node with
  | none => .error (.nodeNotFound node)
  | some member =>
      .ok (publish { cluster with
        members := cluster.members.map fun other =>
          if other.id = node then { other with metrics } else other }
        .metricsUpdated { member with metrics })

/-- What a node sees of the cluster. -/
def view (cluster : Cluster) (localId : NodeId) : GridView := .ofMembers localId cluster.members

/-- The inbox behind a reference. -/
def mailbox (cluster : Cluster) (ref : MailboxRef) : Mailbox := cluster.mailboxes.getD ref {}

def setMailbox (cluster : Cluster) (ref : MailboxRef) (mailbox : Mailbox) : Cluster :=
  { cluster with mailboxes := cluster.mailboxes.setIfInBounds ref mailbox }

/-- Why a message to a node is refused now, if it is. -/
def refusal? (cluster : Cluster) (receiver : NodeId) : Option PlacementError :=
  match cluster.inboxes.get? receiver with
  | none => some (.nodeNotFound receiver)
  | some ref =>
      let mailbox := cluster.mailbox ref
      if !mailbox.isOpen then some (.undelivered receiver "inbox closed")
      else if cluster.capacity ≤ mailbox.letters.length then
        some (.undelivered receiver "inbox full")
      else none

/-- Whether a message to a node would be taken now. -/
def accepts (cluster : Cluster) (receiver : NodeId) : Bool := (cluster.refusal? receiver).isNone

/-- Puts a message into the inbox of a node. -/
def post (cluster : Cluster) (receiver : NodeId) (envelope : Envelope) : Cluster :=
  match cluster.inboxes.get? receiver with
  | none => cluster
  | some ref =>
      let mailbox := cluster.mailbox ref
      cluster.setMailbox ref { mailbox with letters := mailbox.letters ++ [envelope] }

/-- Sends a message. -/
def send (cluster : Cluster) (sender receiver : NodeId) (topic : String) (payload : Bytes) :
    Except PlacementError Cluster :=
  match cluster.refusal? receiver with
  | some error => .error error
  | none => .ok (cluster.post receiver ⟨sender, topic, payload⟩)

/-- Takes the next message out of an inbox. -/
def receive (cluster : Cluster) (ref : MailboxRef) : Option (Envelope × Cluster) :=
  let mailbox := cluster.mailbox ref
  match mailbox.letters with
  | [] => none
  | envelope :: rest => some (envelope, cluster.setMailbox ref { mailbox with letters := rest })

/-- Throws away what is in an inbox. -/
def drain (cluster : Cluster) (ref : MailboxRef) : Cluster :=
  cluster.setMailbox ref { cluster.mailbox ref with letters := [] }

/-- Closes an inbox; what is in it is lost. -/
def close (cluster : Cluster) (ref : MailboxRef) : Cluster :=
  cluster.setMailbox ref ⟨[], false⟩

/-- How many changes a reader may fall behind before it misses some. -/
def retention : Nat := 1024

/-- The place in the log where a reader goes on that has read up to some place. -/
def resume (cluster : Cluster) (position : Nat) : Nat :=
  max position (cluster.events.size - retention)

end Cluster

end JobGrid
