import JobGrid.Proofs.Grid.History

/-!
# Histories that lose no job

Nothing that can happen in a grid loses a job, neither joining nor departing nor any turn of a node,
except a turn in which a rule breaks. Jobs that go astray in such a turn are written down.
-/

namespace JobGrid

namespace Node

/-- The node has nothing to do yet, and joins the cluster as it is. -/
structure New (id : NodeId) (cluster : Cluster) (node : Node) : Prop where
  id : node.id = id
  queue : node.queue.jobs = []
  executions : node.executions = []
  tasks : node.tasks = ∅
  inbox : node.inbox = cluster.mailboxes.size
  position : node.position = cluster.events.size

theorem new_of_join {config : NodeConfig} {identity : NodeIdentity} {now : Moment}
    {before after : Cluster} {node : Node}
    (joined : join config identity now before = .ok (node, after)) :
    after = before.join (publishedMember config identity) ∧ node.New identity.id before := by
  obtain ⟨_, -, rest⟩ := Result.bind_eq_ok.1 joined
  obtain ⟨resolver, -, rest⟩ := Result.bind_eq_ok.1 rest
  obtain ⟨balancer, -, built⟩ := Result.bind_eq_ok.1 rest
  cases built
  exact ⟨rfl, rfl, rfl, rfl, rfl, rfl, rfl⟩

end Node

namespace Turn

variable {owner : Owners} {rest : Bystanders} {turn final : Turn}

theorem work_cancel (turn : Turn) : turn.cancel.node.work = turn.node.work := by
  rw [cancel]
  split
  · rfl
  · rfl

/-- No turn of a node loses a job, except those in its hand when it breaks a rule. -/
theorem Safe.take {act : NodeTurn} (safe : turn.Safe owner rest {})
    (clock : Moment.HasInstant turn.now) (took : act.take? turn = some final)
    (owned : ∀ job ∈ act.submitted,
      owner job = (act.session? job).map fun session => (turn.node.id, session)) :
    final.SafeUnless owner { rest with submitted := rest.submitted ++ act.submitted } {} := by
  have more : ∀ {reached : Turn}, reached.SafeUnless owner rest {} →
      reached.SafeUnless owner { rest with submitted := rest.submitted ++ act.submitted } {} :=
    Or.imp (And.imp_right fun ⟨left, safe⟩ => ⟨left, safe.submitted _⟩) fun safe => safe.submitted _
  cases act with
  | submit session jobs placement =>
      cases took
      apply safe.submit placement
      intro spec member
      have listed : spec.id ∈ jobs.map JobSpec.id := List.mem_map_of_mem member
      have known := owned spec.id listed
      rwa [NodeTurn.session?, if_pos listed] at known
  | receive =>
      cases took
      exact more safe.readMessage
  | observe =>
      obtain ⟨current, rfl⟩ := NodeTurn.take?_observe_eq_some.1 took
      exact more (safe.readEvent current)
  | look =>
      cases took
      exact more safe.collide
  | complete execution =>
      obtain ⟨working, rfl⟩ := NodeTurn.take?_complete_eq_some.1 took
      exact more (safe.complete working clock)
  | publish =>
      cases took
      exact more safe.publishMetrics
  | restrict session nodes =>
      cases took
      exact more (.inr safe)
  | reroll chance =>
      cases took
      exact more (.inr safe)

end Turn

namespace World

/-- The state of the grid between two turns. -/
def grid (submitted : List JobId) (dropped : JobId → Prop) (world : World) : Grid where
  names := world.nodes.keys
  node? id := (world.nodes.get? id).map Node.work
  hand _ := {}
  cluster := world.cluster
  refused := []
  submitted := submitted
  dropped := dropped

/-- No job is lost between two turns, except those that were dropped. -/
structure Safe (owner : Owners) (submitted : List JobId) (dropped : JobId → Prop) (world : World) :
    Prop where
  grid : (world.grid submitted dropped).Safe owner
  clock : Moment.HasInstant world.now

section Located

variable {submitted : List JobId} {dropped : JobId → Prop} {world : World} {id noted : NodeId}
  {node origin : Node} {job : JobId}

theorem mail_grid (found : world.nodes.get? id = some node) :
    (world.grid submitted dropped).mail id = world.mail node := by
  simp only [Grid.mail, World.grid, found, Option.map_some]
  rfl

theorem queued_grid (found : world.nodes.get? id = some node) :
    (world.grid submitted dropped).queued id = node.queue.jobs := by
  simp only [Grid.queued, World.grid, found, Option.map_some]
  rfl

theorem held_grid (found : world.nodes.get? id = some node) :
    (world.grid submitted dropped).ledger.held id job =
      node.queue.jobs.count job + ((world.mail node).filterMap Message.brought?).count job := by
  simp only [Grid.ledger, queued_grid found, mail_grid found]
  rfl

theorem answers_grid (found : world.nodes.get? id = some node) :
    (world.grid submitted dropped).ledger.answers id job =
      ((world.mail node).filterMap Message.answered?).count job := by
  simp only [Grid.ledger, Grid.undelivered, mail_grid found]
  rfl

theorem mem_mail_of_brought (member : job ∈ (world.mail node).filterMap Message.brought?) :
    ∃ transfer, .jobSubmit transfer ∈ world.mail node ∧ transfer.spec.id = job := by
  obtain ⟨message, inside, brings⟩ := List.mem_filterMap.1 member
  cases message with
  | jobSubmit transfer =>
      cases brings
      exact ⟨transfer, inside, rfl⟩
  | stealRequest request => cases brings
  | jobRejected rejected => cases brings
  | jobResult result => cases brings

/-- Where the ledger says that a job is, there it is. -/
theorem whereabouts_of_located (wired : (world.grid submitted dropped).Wired)
    (found : world.nodes.get? id = some origin)
    (located : (world.grid submitted dropped).ledger.Located id job noted) :
    world.Whereabouts origin job noted := by
  rcases located with ⟨live, held⟩ | answered | ⟨work, there, unread⟩
  · have live : world.cluster.inboxes.contains noted = true := live
    have member := wired.enrolled.1 live
    obtain ⟨work, there⟩ := wired.node_of_live live
    obtain ⟨node, known, -⟩ := Option.map_eq_some_iff.1 there
    by_cases has : job ∈ node.queue.jobs
    · exact .queued known member has
    · rw [held_grid known, List.count_eq_zero_of_not_mem has, Nat.zero_add] at held
      obtain ⟨transfer, sent, brings⟩ := mem_mail_of_brought (List.count_pos_iff.1 held)
      exact .underway known member sent brings
  · rw [answers_grid found] at answered
    obtain ⟨message, inside, answers⟩ := List.mem_filterMap.1 (List.count_pos_iff.1 answered)
    cases message with
    | jobRejected rejected =>
        cases answers
        exact .refused inside rfl
    | jobResult result =>
        cases answers
        exact .done inside rfl
    | stealRequest request => cases answers
    | jobSubmit transfer => cases answers
  · obtain ⟨node, known, rfl⟩ := Option.map_eq_some_iff.1 there
    rw [found, Option.some.injEq] at known
    subst known
    obtain ⟨event, member, departs⟩ := Cluster.mem_events_of_tells unread
    have absent := (wired.departed event member departs).2
    rw [← Bool.not_eq_true, wired.enrolled, Option.not_isSome_iff_eq_none] at absent
    exact .gone absent unread

/-- Where a job is, there it is in the ledger. -/
theorem located_of_whereabouts (wired : (world.grid submitted dropped).Wired)
    (found : world.nodes.get? id = some origin) (there : world.Whereabouts origin job noted) :
    (world.grid submitted dropped).ledger.Located id job noted := by
  cases there with
  | queued known member has =>
      have several := List.count_pos_iff.2 has
      refine .inl ⟨wired.enrolled.2 member, ?_⟩
      rw [held_grid known]
      omega
  | underway known member sent brings =>
      have inside : job ∈ (world.mail _).filterMap Message.brought? :=
        List.mem_filterMap.2 ⟨_, sent, congrArg some brings⟩
      have several := List.count_pos_iff.2 inside
      refine .inl ⟨wired.enrolled.2 member, ?_⟩
      rw [held_grid known]
      omega
  | refused sent about | done sent about =>
      refine .inr (.inl ?_)
      rw [answers_grid found]
      exact List.count_pos_iff.2 (List.mem_filterMap.2 ⟨_, sent, congrArg some about⟩)
  | gone absent unread =>
      exact .inr (.inr ⟨origin.work, Option.map_eq_some_iff.2 ⟨origin, found, rfl⟩, unread⟩)

end Located

/-- All nodes but the one that takes its turn. -/
def bystanders (submitted : List JobId) (dropped : JobId → Prop) (world : World) (id : NodeId) :
    Bystanders :=
  ⟨id, world.nodes.keys, fun other => (world.nodes.get? other).map Node.work, submitted, dropped⟩

variable {owner : Owners} {submitted : List JobId} {dropped more : JobId → Prop}
  {world next : World} {id : NodeId} {node : Node}

namespace Safe

/-- A node may take its turn. -/
theorem turn (safe : world.Safe owner submitted dropped) (found : world.nodes.get? id = some node) :
    ({ now := world.now, node, cluster := world.cluster } : Turn).Safe owner
      (world.bystanders submitted dropped id) {} := by
  have there : (world.grid submitted dropped).node? id = some node.work := by
    simp only [World.grid, found, Option.map_some]
  have named : node.id = id := safe.grid.wired.named there
  have same : ({ now := world.now, node, cluster := world.cluster } : Turn).grid
      (world.bystanders submitted dropped id) {} = world.grid submitted dropped := by
    simp only [Turn.grid, World.grid, bystanders, ite_self, Grid.mk.injEq, true_and, and_true]
    funext other
    split
    · rename_i own
      rw [own, named, found]
      rfl
    · rfl
  refine ⟨named, ?_⟩
  rw [same]
  exact safe.grid

/-- After its turn the node is what the turn made of it. -/
theorem grid_act {final : Turn} (found : world.nodes.get? id = some node)
    (named : final.node.id = id) : (world.act id fun _ => final).grid submitted dropped =
      { final.grid (world.bystanders submitted dropped id) {} with refused := [] } := by
  have listed : id ∈ world.nodes.keys := Table.mem_keys_iff.2 ⟨node, found⟩
  simp only [World.grid, act, World.turn, found, Turn.grid, bystanders, ite_self, Grid.mk.injEq,
    true_and, and_true, Table.keys_insert, if_pos listed]
  funext other
  rw [Table.get?_insert, named]
  by_cases own : id = other
  · rw [if_pos own, if_pos own.symm]
    rfl
  · rw [if_neg own, if_neg (Ne.symm own)]

theorem clock_act {final : Turn} (clock : Moment.HasInstant world.now)
    (found : world.nodes.get? id = some node) :
    Moment.HasInstant (world.act id fun _ => final).now := by
  simp only [act, World.turn, found]
  exact clock

/-- Only nodes that are no members refused reports. -/
theorem forget {final : Turn} {rest : Bystanders} {left : Hand}
    (safe : final.Safe owner rest left)
    (heard : ∀ report ∈ final.unreported, (final.cluster.find? report.1).isNone = true) :
    ({ final.grid rest left with refused := [] } : Grid).Safe owner := by
  refine safe.2.forget fun report member => ?_
  have enrolled : final.cluster.inboxes.contains report.1 = true ↔
    (final.cluster.find? report.1).isSome = true := safe.wired.enrolled
  show final.cluster.inboxes.contains report.1 = false
  rw [← Bool.not_eq_true, enrolled, Option.not_isSome_iff_eq_none]
  exact Option.isNone_iff_eq_none.1 (heard report member)

theorem of_turn {final : Turn} (clock : Moment.HasInstant world.now)
    (found : world.nodes.get? id = some node)
    (safe : final.Safe owner (world.bystanders submitted dropped id) {})
    (heard : ∀ report ∈ final.unreported, (final.cluster.find? report.1).isNone = true) :
    (world.act id fun _ => final).Safe owner submitted dropped where
  grid := by
    rw [grid_act found safe.1]
    exact forget safe heard
  clock := clock_act clock found

/-- After a turn in which a rule broke, the node has nothing in its hand any more. Pending jobs that
are nowhere then are written down. -/
theorem of_broken {final : Turn} {left : Hand} (clock : Moment.HasInstant world.now)
    (found : world.nodes.get? id = some node)
    (safe : final.Safe owner (world.bystanders submitted dropped id) left)
    (heard : ∀ report ∈ final.unreported, (final.cluster.find? report.1).isNone = true)
    (still : ∀ {job}, dropped job → more job)
    (lost : ((world.act id fun _ => final).grid submitted more).Wired →
      ∀ {origin job noted}, ((world.act id fun _ => final).grid submitted more).ledger.live origin →
        ((world.act id fun _ => final).grid submitted more).ledger.pends origin job noted →
        ¬ ((world.act id fun _ => final).grid submitted more).ledger.Located origin job noted →
        more job) :
    (world.act id fun _ => final).Safe owner submitted more where
  grid := by
    have forgot := forget safe heard
    have same : (world.act id fun _ => final).grid submitted more =
        { final.grid (world.bystanders submitted more id) {} with refused := [] } :=
      grid_act found safe.1
    refine forgot.drop still _ (same.trans ?_) (lost ?_)
    · simp only [Turn.grid, bystanders, ite_self]
    · rw [same]
      exact { forgot.wired with }
  clock := clock_act clock found

/-- More jobs may be written down than were dropped. -/
theorem widen (safe : world.Safe owner submitted dropped)
    (still : ∀ {job}, dropped job → more job) :
    world.Safe owner submitted more where
  grid := safe.grid.drop still _ rfl fun live pending nowhere =>
    still ((safe.grid.balanced.located live pending).resolve_left nowhere)
  clock := safe.clock

/-- Jobs that are astray were dropped. -/
theorem dropped_of_astray {job : JobId} (safe : world.Safe owner submitted dropped)
    (astray : world.Astray job) : dropped job := by
  obtain ⟨origin, node, session, task, placed, found, member, followed, pending, nowhere⟩ := astray
  have there : (world.grid submitted dropped).node? origin = some node.work :=
    Option.map_eq_some_iff.2 ⟨node, found, rfl⟩
  have live := safe.grid.wired.enrolled.2 member
  have pends : (world.grid submitted dropped).ledger.pends origin job placed.node :=
    ⟨node.work, there, session, placed, ⟨task, followed, pending⟩, rfl⟩
  refine (safe.grid.balanced.located live pends).resolve_left fun located => nowhere ?_
  exact whereabouts_of_located safe.grid.wired found located

/-- A turn in which a rule breaks may lose what the node had in its hand, and no other turn loses a
job. -/
theorem attempt {act : NodeTurn} (safe : world.Safe owner submitted dropped)
    (done : world.attempt? id act = some next)
    (owned : ∀ job ∈ act.submitted,
      owner job = (act.session? job).map fun session => (id, session)) :
    next.Safe owner (submitted ++ act.submitted) fun job =>
      dropped job ∨ ∃ node final, world.Loses id act job node final := by
  obtain ⟨node, final, found, took, heard, rfl⟩ := attempt?_eq_some.1 done
  have begun := safe.turn found
  have named : node.id = id := begun.1
  rcases begun.take safe.clock took (named.symm ▸ owned) with ⟨broke, left, stopped⟩ | finished
  · refine of_broken safe.clock found stopped heard .inl ?_
    intro wired origin job noted live pending nowhere
    by_cases before : world.Astray job
    · exact .inl (safe.dropped_of_astray before)
    · refine .inr ⟨node, final, found, took, broke, before, ?_⟩
      obtain ⟨work, there, session, placed, ⟨task, followed, waits⟩, rfl⟩ := pending
      obtain ⟨node, known, rfl⟩ := Option.map_eq_some_iff.1 there
      exact ⟨origin, node, session, task, placed, known, wired.enrolled.1 live, followed, waits,
        fun there => nowhere (located_of_whereabouts wired known there)⟩
  · exact (of_turn safe.clock found finished heard).widen .inl

/-- A member that stops or fails takes only its own jobs away, even if its inbox is closed. -/
theorem depart (kind : EventKind) (cluster : Cluster) (safe : world.Safe owner submitted dropped)
    (departure : kind.isDeparture = true) (present : (world.cluster.find? id).isSome = true)
    (same : world.cluster.SameMembers cluster)
    (others : ∀ other, other ≠ id → ∀ node, world.nodes.get? other = some node →
      cluster.messages node.inbox = world.cluster.messages node.inbox)
    (fewer : ∀ node, world.nodes.get? id = some node →
      cluster.messages node.inbox ⊆ world.cluster.messages node.inbox)
    (now : next.now = world.now) (after : next.cluster = cluster.remove kind id)
    (keys : next.nodes.keys = world.nodes.keys)
    (works : ∀ other, (next.nodes.get? other).map Node.work =
      (world.nodes.get? other).map Node.work) : next.Safe owner submitted dropped := by
  have members : ∀ other, (cluster.find? other).isSome = (world.cluster.find? other).isSome := by
    simp only [same.find?_eq, implies_true]
  obtain ⟨member, own, inboxes, mailboxes, events, found⟩ :=
    Cluster.remove_of_member (members id ▸ present) kind
  have node? : (next.grid submitted dropped).node? = (world.grid submitted dropped).node? :=
    funext works
  have letters : ∀ ref, next.cluster.messages ref = cluster.messages ref := by
    intro ref
    simp only [Cluster.messages, Cluster.mailbox, after, mailboxes]
  have left : Grid.Departure id kind member (world.grid submitted dropped)
      (next.grid submitted dropped) := {
    departure := departure
    id := own
    listed := safe.grid.wired.listed_of_live (safe.grid.wired.enrolled.2 present)
    names := keys
    node? := node?
    hand := rfl
    refused := rfl
    dropped := rfl
    inboxes := by simp only [World.grid, after, inboxes, same.inboxes]
    size := by simp only [World.grid, after, mailboxes, same.size]
    found := by
      intro other
      simp only [World.grid, after, found, members]
    events := by simp only [World.grid, after, events, Cluster.publish, same.events]
    mail := by
      intro other differs
      simp only [Grid.mail, node?]
      simp only [World.grid, letters]
      cases there : world.nodes.get? other with
      | none => rfl
      | some node => exact others other differs node there
    fewer := by
      simp only [Grid.mail, node?]
      simp only [World.grid, letters]
      cases there : world.nodes.get? id with
      | none => exact fun _ member => member
      | some node => exact fewer node there }
  exact ⟨left.safe safe.grid, now ▸ safe.clock⟩

theorem fail (safe : world.Safe owner submitted dropped)
    (present : (world.cluster.find? id).isSome = true) :
    ({ world with cluster := world.cluster.fail id } : World).Safe owner submitted dropped :=
  depart .failed world.cluster safe rfl present (.refl _) (fun _ _ _ _ => rfl)
    (fun _ _ _ member => member) rfl rfl rfl fun _ => rfl

theorem stop (safe : world.Safe owner submitted dropped)
    (present : (world.cluster.find? id).isSome = true) :
    (world.stop id).Safe owner submitted dropped := by
  obtain ⟨work, there⟩ := safe.grid.wired.node_of_live (safe.grid.wired.enrolled.2 present)
  obtain ⟨node, found, rfl⟩ := Option.map_eq_some_iff.1 there
  have listed : id ∈ world.nodes.keys := Table.mem_keys_iff.2 ⟨node, found⟩
  have housed : node.inbox < world.cluster.mailboxes.size := safe.grid.wired.housed there
  refine depart .left (world.cancel id).cluster safe rfl present ?_ ?_ ?_ ?_ rfl ?_ ?_
  · simp only [cancel, act, World.turn, found, Turn.cancel]
    split
    · exact Cluster.sameMembers_setMailbox _ _ _
    · exact .refl _
  · intro other differs another known
    have apart : another.inbox ≠ node.inbox := by
      intro same
      have here : (world.grid submitted dropped).node? other = some another.work := by
        simp only [World.grid, known, Option.map_some]
      exact differs (safe.grid.wired.apart here there same)
    simp only [cancel, act, World.turn, found, Turn.cancel]
    split
    · exact Cluster.messages_close housed apart
    · rfl
  · intro same known
    rw [found, Option.some.injEq] at known
    subst known
    simp only [cancel, act, World.turn, found, Turn.cancel]
    split
    · rw [Cluster.close, Cluster.messages_setMailbox housed, if_pos rfl]
      exact List.nil_subset _
    · exact List.Subset.refl _
  · simp only [World.stop, cancel, act, World.turn, found]
  · simp only [World.stop, cancel, act, World.turn, found, Table.keys_insert, if_pos listed]
  · intro other
    simp only [World.stop, cancel, act, World.turn, found, Table.get?_insert]
    split
    · rename_i same
      rw [← same, found, Option.map_some, Turn.work_cancel, Option.map_some]
    · rfl

theorem join {config : NodeConfig} {identity : NodeIdentity}
    (safe : world.Safe owner submitted dropped)
    (absent : world.nodes.contains identity.id = false)
    (joined : world.join config identity = .ok next) : next.Safe owner submitted dropped := by
  obtain ⟨⟨node, cluster⟩, built, rfl⟩ := Result.map_eq_ok.1 joined
  obtain ⟨rfl, fresh⟩ := Node.new_of_join built
  have unknown : world.nodes.get? identity.id = none := by
    rw [Table.contains, ← Bool.not_eq_true, Option.not_isSome_iff_eq_none] at absent
    exact absent
  have unlisted : identity.id ∉ world.nodes.keys := Table.get?_eq_none_iff.1 unknown
  let member := Node.publishedMember config identity
  let next : World := { world with
    cluster := world.cluster.join member
    nodes := world.nodes.insert identity.id node }
  have named : member.id = identity.id := rfl
  have new : Grid.Arrival member node.work (world.grid submitted dropped)
      (next.grid submitted dropped) := {
    fresh := by simp only [World.grid, named, unknown, Option.map_none]
    names := by
      simp only [World.grid, next, Table.keys_insert, if_neg unlisted]
      rfl
    node? := by
      intro other
      simp only [World.grid, next, Table.get?_insert]
      by_cases own : identity.id = other
      · rw [if_pos own, if_pos (own.symm.trans named.symm), Option.map_some]
      · rw [if_neg own, if_neg fun same => own (same.trans named).symm]
    hand := rfl
    empty := rfl
    refused := rfl
    none := rfl
    submitted := rfl
    dropped := rfl
    cluster := rfl
    id := fresh.id
    queue := fresh.queue
    executions := fresh.executions
    tasks := fresh.tasks
    inbox := fresh.inbox
    position := fresh.position }
  exact ⟨new.safe safe.grid, safe.clock⟩

/-- Whatever happens, no job is lost except in a turn in which a rule breaks. -/
theorem step {event : GridEvent} (safe : world.Safe owner submitted dropped)
    (happened : world.step? event = some next)
    (owned : ∀ job ∈ event.submitted, owner job = event.owner? job) :
    next.Safe owner (submitted ++ event.submitted) fun job => dropped job ∨
      ∃ id act node final, event = .turn id act ∧ world.Loses id act job node final := by
  cases Happens.of_step? happened with
  | join fresh joined =>
      simp only [GridEvent.submitted, List.append_nil]
      exact (safe.join fresh joined).widen .inl
  | stop present =>
      simp only [GridEvent.submitted, List.append_nil]
      exact (safe.stop present).widen .inl
  | fail present =>
      simp only [GridEvent.submitted, List.append_nil]
      exact (safe.fail present).widen .inl
  | @turn id act _ done =>
      refine (safe.attempt done owned).widen (Or.imp_right ?_)
      rintro ⟨node, final, loses⟩
      exact ⟨id, act, node, final, rfl, loses⟩
  | wait clock =>
      simp only [GridEvent.submitted, List.append_nil]
      exact World.Safe.widen ⟨safe.grid, clock⟩ .inl

/-- In a history of any length no job is lost except in turns in which a rule breaks. -/
theorem steps {history : List GridEvent} (safe : world.Safe owner submitted dropped)
    (happened : world.steps? history = some next)
    (owned : ∀ event ∈ history, ∀ job ∈ event.submitted, owner job = event.owner? job) :
    next.Safe owner (submitted ++ submittedJobs history) fun job =>
      dropped job ∨ LostIn job world history := by
  induction history generalizing world submitted dropped with
  | nil =>
      cases happened
      rw [submittedJobs, List.flatMap_nil, List.append_nil]
      exact safe.widen .inl
  | cons event later ih =>
      rw [List.forall_mem_cons] at owned
      obtain ⟨reached, first, rest⟩ := Option.bind_eq_some_iff.1 happened
      have final := ih (safe.step first owned.1) rest owned.2
      rw [List.append_assoc] at final
      refine final.widen ?_
      rintro job ((before | lost) | later)
      · exact .inl before
      · exact .inr (.inl lost)
      · exact .inr (.inr ⟨reached, first, later⟩)

end Safe

end World

end JobGrid
