import JobGrid.Proofs.Balance.History
import JobGrid.Proofs.Grid.Log
import JobGrid.Proofs.Grid.Stock
import JobGrid.Proofs.Node.Delivery

/-!
# The course of a turn

This module describes the single steps that the turns of a node consist of, each with the deed
that the node does in it: it looks for a member that could take a job, brings a job to a node
and notes it there, enters a result, ends a task, or begins to follow or to restrict one. In
between it rests: it does nothing to tasks and places nothing. Some sessions may be watched:
of these only followed ones are served, and none becomes followed.
-/

namespace JobGrid

/-- What a node does in one step of a turn. -/
inductive Deed where
  /-- It does nothing to tasks and places nothing. -/
  | rest
  /-- It looks for a member that could take a job of a session. -/
  | seek (session : SessionId)
  /-- It brings a job to a node, which may refuse it. -/
  | offer (transfer : JobTransfer) (target : NodeId)
  | enter (result : JobResult)
  | finish (session : SessionId)
  /-- It begins to follow the task of a session. -/
  | follow (session : SessionId)
  /-- It restricts a session to some nodes. -/
  | register (session : SessionId)

/-- The deed serves the task of a session, and does not end it. -/
def Deed.Serves (session : SessionId) : Deed → Prop
  | seek other => other = session
  | offer transfer _ => transfer.session = session
  | follow other => other = session
  | register other => other = session
  | _ => False

/-- The handle stands for the job of a transfer. -/
structure JobHandle.StandsFor (handle : JobHandle) (transfer : JobTransfer) : Prop where
  spec : handle.spec = transfer.spec
  session : handle.session = transfer.session
  origin : handle.origin = transfer.origin

/-- A message is sent to a member, and changes nothing but what is in the inboxes. -/
theorem Cluster.sameMembers_of_send {cluster next : Cluster} {sender receiver : NodeId}
    {topic : String} {payload : Bytes}
    (sent : cluster.send sender receiver topic payload = .ok next) :
    cluster.inboxes.contains receiver = true ∧ cluster.SameMembers next := by
  obtain ⟨ref, found, -, -, rfl⟩ := send_eq_ok.1 sent
  exact ⟨by rw [Table.contains, found]; rfl, sameMembers_setMailbox _ _ _⟩

namespace Turn

/-- Between two moments of a turn, no node came or went, and the log only grew. -/
structure Steady (turn next : Turn) : Prop where
  id : next.node.id = turn.node.id
  position : next.node.position = turn.node.position
  inboxes : next.cluster.inboxes = turn.cluster.inboxes
  members : ∀ node, (next.cluster.find? node).isSome = (turn.cluster.find? node).isSome
  events : ∃ more, next.cluster.events = turn.cluster.events ++ more

/-- Between two moments of a turn, the node did nothing to tasks and placed nothing. It may have
taken a job that was brought to it. -/
structure Quiet (brought : Option JobTransfer) (turn next : Turn) : Prop extends
    Steady turn next where
  drawn : next.node.drawn = turn.node.drawn
  tasks : next.node.tasks = turn.node.tasks
  restrictions : next.node.restrictions = turn.node.restrictions
  unknown : ∀ session, turn.node.balancer.phase session = .unknown →
    next.node.balancer.phase session = .unknown
  store : turn.node.store.Extends next.node.store
  handles : ∀ ref handle, turn.node.store.next ≤ ref → next.node.store.get? ref = some handle →
    ∃ transfer, brought = some transfer ∧ handle.StandsFor transfer
  letters : turn.cluster.Gains next.cluster fun _ letter => ∀ transfer,
    letter.message? ≠ some (.jobSubmit transfer)

/-- The node follows the task of a session. -/
def Follows (turn : Turn) (session : SessionId) : Prop :=
  (turn.node.tasks.get? session).isSome

/-- A job is delivered to the node itself or to a member, and nothing changes but what is in the
queue of the node and in the inboxes. -/
theorem delivered_of_deliver {turn next : Turn} {target : NodeId} {transfer : JobTransfer}
    (delivered : turn.deliver target transfer = .ok next) :
    ∃ queue store attention cluster,
      next = { turn with node := { turn.node with queue, store, attention }, cluster } ∧
        turn.cluster.SameMembers cluster ∧
          (target = turn.node.id ∨ turn.cluster.inboxes.contains target = true) := by
  cases Delivered.of_deliver delivered with
  | here own took =>
      obtain ⟨-, rfl⟩ := hold_eq_ok.1 took
      exact ⟨_, _, _, _, rfl, .refl _, .inl own⟩
  | there _ sent =>
      obtain ⟨cluster, posted, rfl⟩ := Result.map_eq_ok.1 sent
      obtain ⟨reached, same⟩ := Cluster.sameMembers_of_send posted
      exact ⟨_, _, _, _, rfl, same, .inr reached⟩

/-- Following a task enters it among the tasks, and perhaps tells that an earlier one is dropped. -/
theorem track_eq (turn : Turn) (session : SessionId) (assignments : List Assignment) :
    ∃ notices, turn.track session assignments = { turn with
      node := { turn.node with
        tasks := turn.node.tasks.insert session {
          pending := .ofList (assignments.map fun assignment =>
            (assignment.transfer.spec.id, PendingJob.mk assignment.transfer assignment.target))
          ticket := turn.node.tickets }
        tickets := turn.node.tickets + 1 }
      notices } := by
  simp only [track]
  split
  · exact ⟨_, rfl⟩
  · exact ⟨_, rfl⟩

/-- One step of a turn, with the deed that the node does. -/
inductive Stride (watched : SessionId → Prop) (brought : Option JobTransfer) :
    Turn → Deed → Turn → Prop where
  | rest {turn next : Turn} (quiet : Quiet brought turn next) :
      Stride watched brought turn .rest next
  /-- Unless a job goes to its thief, it is the balancer that is asked. -/
  | seek {turn : Turn} {session : SessionId} {balancer : Balancer}
      (licensed : watched session → turn.Follows session)
      (asked : balancer = turn.node.balancer ∨ ∃ candidates spec member,
        turn.node.balancer.pick session candidates spec turn.draw = .ok (member, balancer)) :
      Stride watched brought turn (.seek session) (turn.update fun node =>
        { node with balancer, drawn := node.drawn + 1 })
  | seekInVain {turn : Turn} {session : SessionId}
      (licensed : watched session → turn.Follows session) :
      Stride watched brought turn (.seek session) turn
  | offer {turn next : Turn} {transfer : JobTransfer} {target : NodeId}
      (licensed : watched transfer.session → turn.Follows transfer.session)
      (delivered : turn.deliver target transfer = .ok next) :
      Stride watched brought turn (.offer transfer target) (next.record transfer target)
  | offerInVain {turn : Turn} {transfer : JobTransfer} {target : NodeId}
      {refused : PlacementError} (licensed : watched transfer.session →
        turn.Follows transfer.session) (failed : turn.deliver target transfer = .error refused) :
      Stride watched brought turn (.offer transfer target) turn
  | enter {turn : Turn} {task : TaskState} {result : JobResult}
      (found : turn.node.tasks.get? result.session = some task)
      (pending : task.isPending result.job = true) :
      Stride watched brought turn (.enter result) (turn.update fun node =>
        { node with tasks := node.tasks.insert result.session (task.enter result) })
  | finish {turn : Turn} {session : SessionId} (followed : turn.Follows session)
      (error : Option String) :
      Stride watched brought turn (.finish session) (turn.finish session error)
  | follow {turn : Turn} {session : SessionId} {assignments : List Assignment}
      (free : ¬ watched session)
      (own : ∀ assignment ∈ assignments, assignment.transfer.session = session ∧
        (assignment.target = turn.node.id ∨ (turn.cluster.find? assignment.target).isSome)) :
      Stride watched brought turn (.follow session) (turn.track session assignments)
  | register {turn : Turn} {session : SessionId} (free : ¬ watched session)
      (nodes : List NodeId) :
      Stride watched brought turn (.register session) (turn.update fun node =>
        { node with restrictions := node.restrictions.register session nodes })

/-- Some steps of a turn, one after another. -/
inductive Course (watched : SessionId → Prop) (brought : Option JobTransfer) :
    Turn → List Deed → Turn → Prop where
  | nil (turn : Turn) : Course watched brought turn [] turn
  | cons {turn next last : Turn} {deed : Deed} {deeds : List Deed}
      (stride : Stride watched brought turn deed next)
      (course : Course watched brought next deeds last) :
      Course watched brought turn (deed :: deeds) last

/-- A turn leads from one moment to another in single steps. -/
def Leads (watched : SessionId → Prop) (brought : Option JobTransfer) (turn next : Turn) : Prop :=
  ∃ deeds, Course watched brought turn deeds next

variable {watched : SessionId → Prop} {brought : Option JobTransfer} {turn next last : Turn}

theorem Course.append {earlier later : List Deed} (left : Course watched brought turn earlier next)
    (right : Course watched brought next later last) :
    Course watched brought turn (earlier ++ later) last := by
  induction left with
  | nil turn => exact right
  | cons stride _ ih => exact .cons stride (ih right)

/-- What every step keeps is kept by a turn. -/
theorem Course.keeps {keeps : Turn → Prop} {deeds : List Deed}
    (step : ∀ {turn next deed}, Stride watched brought turn deed next → keeps turn → keeps next)
    (course : Course watched brought turn deeds next) (held : keeps turn) : keeps next := by
  induction course with
  | nil turn => exact held
  | cons stride _ ih => exact ih (step stride held)

namespace Steady

protected theorem refl (turn : Turn) : Steady turn turn :=
  ⟨rfl, rfl, rfl, fun _ => rfl, #[], Array.append_empty.symm⟩

protected theorem trans (left : Steady turn next) (right : Steady next last) :
    Steady turn last where
  id := right.id.trans left.id
  position := right.position.trans left.position
  inboxes := right.inboxes.trans left.inboxes
  members node := (right.members node).trans (left.members node)
  events := by
    obtain ⟨more, first⟩ := left.events
    obtain ⟨others, second⟩ := right.events
    exact ⟨more ++ others, by rw [second, first, Array.append_assoc]⟩

/-- Only inboxes and the rest of the node changed. -/
theorem of_sameMembers (id : next.node.id = turn.node.id)
    (position : next.node.position = turn.node.position)
    (same : turn.cluster.SameMembers next.cluster) : Steady turn next where
  id := id
  position := position
  inboxes := same.inboxes
  members node := by rw [same.find?_eq]
  events := ⟨#[], by rw [same.events, Array.append_empty]⟩

end Steady

/-- In no step of a turn nodes come or go. -/
theorem Stride.steady {deed : Deed} (stride : Stride watched brought turn deed next) :
    Steady turn next := by
  cases stride with
  | rest quiet => exact quiet.toSteady
  | seek licensed asked => exact .of_sameMembers rfl rfl (.refl _)
  | seekInVain licensed => exact .refl turn
  | offer licensed delivered =>
      obtain ⟨queue, store, attention, cluster, rfl, same, -⟩ := delivered_of_deliver delivered
      exact .of_sameMembers rfl rfl same
  | offerInVain licensed failed => exact .refl turn
  | enter found pending => exact .of_sameMembers rfl rfl (.refl _)
  | finish followed error =>
      simp only [Turn.finish]
      split
      · exact .refl turn
      · exact .of_sameMembers rfl rfl (.refl _)
  | follow free own =>
      obtain ⟨notices, equal⟩ := track_eq turn _ _
      rw [equal]
      exact .of_sameMembers rfl rfl (.refl _)
  | register free nodes => exact .of_sameMembers rfl rfl (.refl _)

namespace Leads

protected theorem refl (turn : Turn) : Leads watched brought turn turn := ⟨[], .nil turn⟩

protected theorem trans (left : Leads watched brought turn next)
    (right : Leads watched brought next last) : Leads watched brought turn last := by
  obtain ⟨earlier, first⟩ := left
  obtain ⟨later, second⟩ := right
  exact ⟨earlier ++ later, first.append second⟩

theorem step {deed : Deed} (stride : Stride watched brought turn deed next) :
    Leads watched brought turn next :=
  ⟨[deed], .cons stride (.nil next)⟩

theorem rest (quiet : Quiet brought turn next) : Leads watched brought turn next :=
  .step (.rest quiet)

theorem steady (leads : Leads watched brought turn next) : Steady turn next := by
  obtain ⟨deeds, course⟩ := leads
  induction course with
  | nil turn => exact .refl turn
  | cons stride _ ih => exact stride.steady.trans ih

end Leads

section Quiet

/-- Queues, executions, figures and notices do not matter. -/
theorem Quiet.of_same (cluster : next.cluster = turn.cluster)
    (id : next.node.id = turn.node.id) (drawn : next.node.drawn = turn.node.drawn)
    (position : next.node.position = turn.node.position)
    (tasks : next.node.tasks = turn.node.tasks)
    (restrictions : next.node.restrictions = turn.node.restrictions)
    (balancer : next.node.balancer = turn.node.balancer)
    (store : next.node.store = turn.node.store) : Quiet brought turn next where
  id := id
  drawn := drawn
  position := position
  tasks := tasks
  restrictions := restrictions
  unknown session unknown := by rw [balancer, unknown]
  store := store ▸ .refl _
  handles ref handle late found := by
    rw [store] at found
    exact absurd (JobStore.lt_next_of_get? found) (Nat.not_lt.2 late)
  inboxes := by rw [cluster]
  members node := by rw [cluster]
  events := ⟨#[], by rw [cluster, Array.append_empty]⟩
  letters := cluster ▸ .refl _

/-- Only the cluster changed, and no member came or went. -/
theorem Quiet.of_cluster {cluster : Cluster}
    (inboxes : cluster.inboxes = turn.cluster.inboxes)
    (members : ∀ node, (cluster.find? node).isSome = (turn.cluster.find? node).isSome)
    (events : ∃ more, cluster.events = turn.cluster.events ++ more)
    (letters : turn.cluster.Gains cluster fun _ letter => ∀ transfer,
      letter.message? ≠ some (.jobSubmit transfer)) :
    Quiet brought turn { turn with cluster } where
  id := rfl
  drawn := rfl
  position := rfl
  tasks := rfl
  restrictions := rfl
  unknown _ unknown := unknown
  store := .refl _
  handles _ _ late found := absurd (JobStore.lt_next_of_get? found) (Nat.not_lt.2 late)
  inboxes := inboxes
  members := members
  events := events
  letters := letters

theorem quiet_requestCollision (turn : Turn) : Quiet brought turn turn.requestCollision :=
  .of_same rfl rfl rfl rfl rfl rfl rfl rfl

theorem quiet_stopWith (turn : Turn) (fault : Fault) : Quiet brought turn (turn.stopWith fault) :=
  .of_same rfl rfl rfl rfl rfl rfl rfl rfl

/-- Most turns end with a request for a look through the jobs, unless a rule broke. -/
theorem quiet_lookNext (turn : Turn) :
    Quiet brought turn (if turn.fault?.isSome then turn else turn.requestCollision) := by
  split
  · exact .of_same rfl rfl rfl rfl rfl rfl rfl rfl
  · exact quiet_requestCollision turn

/-- A message is sent that brings no job. -/
theorem quiet_of_send {receiver : NodeId} {message : Message}
    (topic : message.topic ≠ Topic.jobSubmit) (sent : turn.send receiver message = .ok next) :
    Quiet brought turn next := by
  obtain ⟨cluster, posted, rfl⟩ := Result.map_eq_ok.1 sent
  have gains : cluster.inboxes = turn.cluster.inboxes ∧ turn.cluster.Gains cluster
      fun _ letter => ∀ transfer, letter.message? ≠ some (.jobSubmit transfer) :=
    Cluster.Gains.of_send posted fun _ _ transfer reads => topic (Envelope.topic_of_message? reads)
  obtain ⟨-, same⟩ := Cluster.sameMembers_of_send posted
  refine .of_cluster gains.1 ?_ ⟨#[], by rw [same.events, Array.append_empty]⟩ gains.2
  intro node
  rw [same.find?_eq]

theorem quiet_trySend (turn : Turn) (receiver : NodeId) {message : Message}
    (topic : message.topic ≠ Topic.jobSubmit) :
    Quiet brought turn (turn.trySend receiver message) := by
  cases sent : turn.send receiver message with
  | error refused =>
      simp only [trySend, sent]
      exact .of_same rfl rfl rfl rfl rfl rfl rfl rfl
  | ok next =>
      simp only [trySend, sent]
      exact quiet_of_send topic sent

theorem quiet_report (turn : Turn) (origin : NodeId) {message : Message}
    (topic : message.topic ≠ Topic.jobSubmit) :
    Quiet brought turn (turn.report origin message) := by
  cases sent : turn.send origin message with
  | error refused =>
      simp only [report, sent]
      exact .of_same rfl rfl rfl rfl rfl rfl rfl rfl
  | ok next =>
      simp only [report, sent]
      exact quiet_of_send topic sent

/-- A job is taken that was brought to the node. -/
theorem quiet_of_hold {transfer : JobTransfer} (held : turn.hold transfer = .ok next) :
    Quiet (some transfer) turn next := by
  obtain ⟨-, rfl⟩ := hold_eq_ok.1 held
  refine {
    id := rfl, drawn := rfl, position := rfl, tasks := rfl, restrictions := rfl
    unknown := fun _ unknown => unknown
    store := .push _ _
    handles := ?_
    inboxes := rfl
    members := fun _ => rfl
    events := ⟨#[], by rw [Array.append_empty]⟩
    letters := .refl _ }
  intro ref handle late found
  rw [JobStore.get?_push] at found
  split at found
  · cases found
    exact ⟨transfer, rfl, rfl, rfl, rfl⟩
  · exact absurd (JobStore.lt_next_of_get? found) (Nat.not_lt.2 late)

/-- What the balancer is told makes no session known. -/
theorem quiet_of_balancer {balancer : Balancer} (resolver : Resolver)
    (unknown : ∀ session, turn.node.balancer.phase session = .unknown →
      balancer.phase session = .unknown) :
    Quiet brought turn (turn.update fun node => { node with resolver, balancer }) where
  id := rfl
  drawn := rfl
  position := rfl
  tasks := rfl
  restrictions := rfl
  unknown := unknown
  store := .refl _
  handles _ _ late found := absurd (JobStore.lt_next_of_get? found) (Nat.not_lt.2 late)
  inboxes := rfl
  members _ := rfl
  events := ⟨#[], by rw [Array.append_empty]; rfl⟩
  letters := .refl _

theorem quiet_mapped (turn : Turn) (session : SessionId) :
    Quiet brought turn (turn.mapped session) := by
  refine quiet_of_balancer turn.node.resolver ?_
  intro other unknown
  rw [Balancer.phase_mapped, if_neg fun known => known.2 unknown, unknown]

/-- A pass brings no job to the node. -/
theorem quiet_pass (turn : Turn) : Quiet brought turn (turn.update fun node => { node with
    resolver := turn.pass.resolver
    store := turn.pass.store
    attention := node.attention.take }) where
  id := rfl
  drawn := rfl
  position := rfl
  tasks := rfl
  restrictions := rfl
  unknown _ unknown := unknown
  store := Resolver.extends_collide _ _ _ _ _ _
  handles ref handle late found := by
    have nothing : ∀ {handle}, turn.node.store.get? ref ≠ some handle := by
      intro handle there
      exact absurd (JobStore.lt_next_of_get? there) (Nat.not_lt.2 late)
    cases Resolver.fate_collide turn.node.resolver
        (turn.node.resolver.scene (turn.cluster.view turn.node.id) turn.node.restrictions
          turn.node.chance.peers turn.now) turn.cluster.accepts turn.node.store
        (turn.node.queue.waiting.map QueuedJob.ref) turn.node.queue.active.size ref with
    | untouched same => exact absurd (same.symm.trans found) nothing
    | started _ there _ => exact absurd there nothing
    | given _ _ there _ _ => exact absurd there nothing
  inboxes := rfl
  members _ := rfl
  events := ⟨#[], by rw [Array.append_empty]; rfl⟩
  letters := .refl _

end Quiet

end Turn

end JobGrid
