import JobGrid.Proofs.Grid.Books
import JobGrid.Proofs.Grid.Ledger
import JobGrid.Proofs.Grid.Log
import JobGrid.Proofs.Grid.Stock
import JobGrid.World

/-!
# Grids while a node takes its turn

At any moment, also in the middle of a turn, the state of a grid is what its nodes have, what is in
the inboxes, and what a node has in its hand, because it took it out of a queue or an inbox and did
not bring it elsewhere yet. Such a state is safe if its parts fit together and the ledger of its
jobs is balanced.
-/

namespace JobGrid

/-- What a node has in its hand in the middle of a turn. -/
structure Hand where
  /-- Jobs that it took out of its queue or its inbox. -/
  jobs : List JobId := []
  /-- Jobs of its own tasks for which it has an answer, and new ones. -/
  answers : List JobId := []
  /-- Jobs that left the queue and have yet to be reported. -/
  leaving : List QueuedJob := []
  /-- Active jobs whose work has yet to start. -/
  starting : List JobRef := []

/-- What of a node decides where jobs are. -/
structure NodeWork where
  id : NodeId
  queue : JobQueue
  store : JobStore
  tasks : Table SessionId TaskState
  inbox : MailboxRef
  position : Nat
  executions : List Execution

/-- What of the node decides where jobs are. -/
def Node.work (node : Node) : NodeWork :=
  ⟨node.id, node.queue, node.store, node.tasks, node.inbox, node.position, node.executions⟩

namespace NodeWork

/-- Whether a job is pending and believed to be on a node. -/
def Pends (work : NodeWork) (job : JobId) (node : NodeId) : Prop :=
  ∃ session placed, Awaiting work.tasks session job placed ∧ placed.node = node

/-- What holds of a node that has something in its hand. -/
structure Sound (owner : Owners) (hand : Hand) (work : NodeWork) : Prop where
  stocked : Stocked owner hand.leaving hand.starting work.queue work.store work.executions
  followed : Followed owner work.id work.tasks
  claimed : ∀ job ∈ hand.answers, (owner job).map Prod.fst = some work.id

end NodeWork

/-- The state of a grid at a moment. -/
structure Grid where
  /-- All nodes that joined so far. -/
  names : List NodeId
  node? : NodeId → Option NodeWork
  hand : NodeId → Hand
  cluster : Cluster
  /-- Reports that were refused in the present turn. -/
  refused : List (NodeId × Message)
  /-- The jobs that were submitted so far. -/
  submitted : List JobId
  /-- Whether a job was dropped by a node that broke a rule. -/
  dropped : JobId → Prop

namespace Grid

/-- The jobs in the queue of a node. -/
def queued (grid : Grid) (node : NodeId) : List JobId :=
  (grid.node? node).elim [] fun work => work.queue.jobs

/-- The messages in the inbox of a node. -/
def mail (grid : Grid) (node : NodeId) : List Message :=
  (grid.node? node).elim [] fun work => grid.cluster.messages work.inbox

/-- The answers of refused reports to a node. -/
def undelivered (grid : Grid) (node : NodeId) : List JobId :=
  grid.refused.filterMap fun report => if report.1 = node then report.2.answered? else none

/-- Where the jobs of the grid are. -/
def ledger (grid : Grid) : Ledger where
  nodes := grid.names
  live node := grid.cluster.inboxes.contains node = true
  held node job := (grid.queued node).count job +
    ((grid.mail node).filterMap Message.brought?).count job + (grid.hand node).jobs.count job
  answers node job := ((grid.mail node).filterMap Message.answered?).count job +
    (grid.undelivered node).count job + (grid.hand node).answers.count job
  pends origin job node := ∃ work, grid.node? origin = some work ∧ work.Pends job node
  awaits origin node := ∃ work, grid.node? origin = some work ∧
    grid.cluster.Tells work.position node
  submitted job := grid.submitted.count job
  whole := grid.cluster.Whole
  dropped := grid.dropped

/-- The nodes of a grid and its cluster fit together. -/
structure Wired (grid : Grid) : Prop where
  listed : ∀ {node}, node ∈ grid.names ↔ ∃ work, grid.node? node = some work
  distinct : grid.names.Nodup
  named : ∀ {node work}, grid.node? node = some work → work.id = node
  housed : ∀ {node work}, grid.node? node = some work →
    work.inbox < grid.cluster.mailboxes.size
  apart : ∀ {node work other another}, grid.node? node = some work →
    grid.node? other = some another → work.inbox = another.inbox → node = other
  read : ∀ {node work}, grid.node? node = some work →
    work.position ≤ grid.cluster.events.size
  reached : ∀ {node ref}, grid.cluster.inboxes.get? node = some ref →
    ∃ work, grid.node? node = some work ∧ work.inbox = ref
  enrolled : ∀ {node}, grid.cluster.inboxes.contains node = true ↔
    (grid.cluster.find? node).isSome
  departed : ∀ {node}, ∀ event ∈ grid.cluster.events, event.Departs node →
    node ∈ grid.names ∧ grid.cluster.inboxes.contains node = false

namespace Wired

variable {grid : Grid} {node : NodeId}

/-- A member is one of the nodes. -/
theorem node_of_live (wired : grid.Wired)
    (live : grid.cluster.inboxes.contains node = true) :
    ∃ work, grid.node? node = some work := by
  obtain ⟨ref, known⟩ := Option.isSome_iff_exists.1 live
  obtain ⟨work, there, -⟩ := wired.reached known
  exact ⟨work, there⟩

theorem listed_of_live (wired : grid.Wired)
    (live : grid.cluster.inboxes.contains node = true) : node ∈ grid.names :=
  wired.listed.2 (wired.node_of_live live)

end Wired

/-- The parts of a grid fit together, and no job is lost. -/
structure Safe (owner : Owners) (grid : Grid) : Prop where
  wired : grid.Wired
  honest : ∀ {node}, ∀ message ∈ grid.mail node, message.Genuine owner node
  sound : ∀ {node work}, grid.node? node = some work → work.Sound owner (grid.hand node)
  balanced : grid.ledger.Balanced fun job => (owner job).map Prod.fst

/-- Between two moments no node joined or departed, and inboxes stayed where they are. -/
structure SameWires (before after : Grid) : Prop where
  names : after.names = before.names
  node? : ∀ node, (after.node? node).map (fun work => (work.id, work.inbox)) =
    (before.node? node).map fun work => (work.id, work.inbox)
  inboxes : after.cluster.inboxes = before.cluster.inboxes
  size : after.cluster.mailboxes.size = before.cluster.mailboxes.size
  found : ∀ node, (after.cluster.find? node).isSome = (before.cluster.find? node).isSome
  departed : ∀ node, ∀ event ∈ after.cluster.events, event.Departs node →
    event ∈ before.cluster.events
  read : ∀ {node work}, after.node? node = some work →
    work.position ≤ after.cluster.events.size

namespace SameWires

variable {before after : Grid}

theorem forth (same : SameWires before after) {node : NodeId} {work : NodeWork}
    (found : before.node? node = some work) :
    ∃ later, after.node? node = some later ∧ later.id = work.id ∧ later.inbox = work.inbox := by
  have equal := same.node? node
  rw [found] at equal
  obtain ⟨later, there, parts⟩ := Option.map_eq_some_iff.1 equal
  rw [Prod.mk.injEq] at parts
  exact ⟨later, there, parts⟩

theorem back (same : SameWires before after) {node : NodeId} {later : NodeWork}
    (found : after.node? node = some later) :
    ∃ work, before.node? node = some work ∧ later.id = work.id ∧ later.inbox = work.inbox := by
  have equal := same.node? node
  rw [found] at equal
  obtain ⟨work, there, parts⟩ := Option.map_eq_some_iff.1 equal.symm
  rw [Prod.mk.injEq] at parts
  exact ⟨work, there, parts.1.symm, parts.2.symm⟩

theorem wired (same : SameWires before after) (wired : before.Wired) : after.Wired where
  listed {node} := by
    rw [same.names, wired.listed]
    constructor
    · rintro ⟨work, found⟩
      obtain ⟨later, there, -⟩ := same.forth found
      exact ⟨later, there⟩
    · rintro ⟨later, found⟩
      obtain ⟨work, there, -⟩ := same.back found
      exact ⟨work, there⟩
  distinct := same.names ▸ wired.distinct
  named found := by
    obtain ⟨work, there, id, -⟩ := same.back found
    rw [id, wired.named there]
  housed found := by
    obtain ⟨work, there, -, inbox⟩ := same.back found
    rw [inbox, same.size]
    exact wired.housed there
  apart left right equal := by
    obtain ⟨work, there, -, inbox⟩ := same.back left
    obtain ⟨other, here, -, inbox'⟩ := same.back right
    exact wired.apart there here (by rw [← inbox, ← inbox', equal])
  read := same.read
  reached found := by
    rw [same.inboxes] at found
    obtain ⟨work, there, inbox⟩ := wired.reached found
    obtain ⟨later, here, -, inbox'⟩ := same.forth there
    exact ⟨later, here, inbox'.trans inbox⟩
  enrolled {node} := by
    rw [same.inboxes, same.found]
    exact wired.enrolled
  departed {node} event member gone := by
    rw [same.names, same.inboxes]
    exact wired.departed event (same.departed node event member gone) gone

end SameWires

end Grid

end JobGrid
