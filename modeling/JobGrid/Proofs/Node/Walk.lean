import JobGrid.Proofs.Balance.Candidates
import JobGrid.Proofs.Node.Pick
import JobGrid.Proofs.Steal.History
import JobGrid.Proofs.Table

/-!
# Walks through turns

The turns of a node that reacts to the grid consist of steps: jobs are delivered, reports are
sent, tasks are updated and ended. Whatever the single steps keep is kept by every such turn, as
long as jobs are delivered only where a licence lets them go.
-/

namespace JobGrid

namespace Turn

/-- Between two moments of a turn, nothing changed that jobs, tasks or the cluster consist of. -/
structure Aside (turn next : Turn) : Prop where
  now : next.now = turn.now
  cluster : next.cluster = turn.cluster
  id : next.node.id = turn.node.id
  queue : next.node.queue = turn.node.queue
  store : next.node.store = turn.node.store
  executions : next.node.executions = turn.node.executions
  stats : next.node.stats = turn.node.stats
  tasks : next.node.tasks = turn.node.tasks
  restrictions : next.node.restrictions = turn.node.restrictions
  stealing : next.node.resolver.config = turn.node.resolver.config
  unreported : next.unreported = turn.unreported

/-- All members that a session may run on now have a licence for its jobs. -/
def Covers (turn : Turn) (licensed : JobTransfer → NodeId → Prop) (session : SessionId) : Prop :=
  ∀ transfer : JobTransfer, transfer.session = session →
    ∀ member ∈ turn.taskNodes session, licensed transfer member.id

/-- What every step of a turn keeps in which nothing is reported. Jobs go only where they are
licensed to go. -/
structure Steps (keeps : Turn → Prop) (licensed : JobTransfer → NodeId → Prop) : Prop where
  aside : ∀ {turn next : Turn}, keeps turn → Aside turn next → keeps next
  deliver : ∀ {turn next : Turn} {transfer : JobTransfer} {target : NodeId}, keeps turn →
    licensed transfer target → turn.deliver target transfer = .ok next → keeps next
  note : ∀ {turn : Turn} {tasks : Table SessionId TaskState}, keeps turn →
    (∀ session, (tasks.get? session).isSome → (turn.node.tasks.get? session).isSome) →
    keeps (turn.update fun node => { node with tasks })
  finish : ∀ {turn : Turn} {session : SessionId} {error : Option String}, keeps turn →
    keeps (turn.finish session error)
  covers : ∀ {turn : Turn} {session : SessionId}, keeps turn →
    (turn.node.tasks.get? session).isSome → turn.Covers licensed session

/-- What every step of a turn keeps, also if a report is sent, or refused and warned of. -/
structure Walk (keeps : Turn → Prop) (licensed : JobTransfer → NodeId → Prop) : Prop
    extends Steps keeps licensed where
  send : ∀ {turn next : Turn} {receiver : NodeId} {message : Message}, keeps turn →
    message.topic ≠ Topic.jobSubmit → turn.send receiver message = .ok next → keeps next
  warn : ∀ {turn : Turn} {warnings : List (NodeId × Message)}, keeps turn →
    keeps { turn with unreported := warnings }

section Aside

variable {turn next : Turn}

theorem Aside.of_picks (picks : Picks turn next) : Aside turn next := by
  obtain ⟨_, _, rfl⟩ := picks
  exact ⟨rfl, rfl, rfl, rfl, rfl, rfl, rfl, rfl, rfl, rfl, rfl⟩

theorem aside_requestCollision (turn : Turn) : Aside turn turn.requestCollision :=
  ⟨rfl, rfl, rfl, rfl, rfl, rfl, rfl, rfl, rfl, rfl, rfl⟩

theorem aside_stopWith (turn : Turn) (fault : Fault) : Aside turn (turn.stopWith fault) :=
  ⟨rfl, rfl, rfl, rfl, rfl, rfl, rfl, rfl, rfl, rfl, rfl⟩

/-- Most turns end with a request for a look through the jobs, unless a rule broke. -/
theorem aside_lookNext (turn : Turn) :
    Aside turn (if turn.fault?.isSome then turn else turn.requestCollision) := by
  split
  · exact ⟨rfl, rfl, rfl, rfl, rfl, rfl, rfl, rfl, rfl, rfl, rfl⟩
  · exact aside_requestCollision turn

theorem aside_onStealRequest (turn : Turn) (sender : NodeId) (request : StealRequest) :
    Aside turn (turn.onStealRequest sender request) := by
  simp only [onStealRequest]
  split
  · exact aside_stopWith turn _
  · rename_i noted resolver asked
    have config := Stealing.config_of_onStealRequest asked
    split
    · exact ⟨rfl, rfl, rfl, rfl, rfl, rfl, rfl, rfl, rfl, config, rfl⟩
    · exact ⟨rfl, rfl, rfl, rfl, rfl, rfl, rfl, rfl, rfl, config, rfl⟩

end Aside

namespace Covers

variable {licensed : JobTransfer → NodeId → Prop} {turn next : Turn}

/-- A job that is routed to another node has a licence for it. -/
theorem licensed_of_failover {maxAttempts : UInt32} {transfer later : JobTransfer}
    {rejectedBy target : NodeId} {thief : Option NodeId}
    (covers : turn.Covers licensed transfer.session)
    (routed : turn.failover maxAttempts transfer rejectedBy thief = .ok (target, next))
    (same : later.session = transfer.session) : licensed later target := by
  obtain ⟨found, chosen, equal⟩ := Result.map_eq_ok.1 routed
  cases equal
  obtain ⟨candidate, inside, identity⟩ := Rejection.isAmong_of_failover chosen
  exact identity ▸ covers later same candidate inside

theorem of_picks {session : SessionId} (covers : turn.Covers licensed session)
    (picks : Picks turn next) : next.Covers licensed session := by
  obtain ⟨_, _, rfl⟩ := picks
  exact covers

end Covers

/-- What is kept by an action for each of some items is kept when it is done for all of them. -/
theorem keeps_forEach_of_mem (keeps : Turn → Prop) {α : Type} {act : Turn → α → Turn}
    (items : List α) (step : ∀ (turn : Turn), ∀ item ∈ items, keeps turn → keeps (act turn item))
    {turn : Turn} (held : keeps turn) : keeps (turn.forEach items act) := by
  induction items generalizing turn with
  | nil => exact held
  | cons item rest ih =>
      rw [forEach, List.foldl_cons]
      apply ih fun turn other member => step turn other (List.mem_cons_of_mem item member)
      split
      · exact held
      · exact step turn item List.mem_cons_self held

/-- What is kept by an action is kept when it is done for each of some items. -/
theorem keeps_forEach (keeps : Turn → Prop) {α : Type} {act : Turn → α → Turn}
    (step : ∀ (turn : Turn) (item : α), keeps turn → keeps (act turn item))
    (items : List α) {turn : Turn} (held : keeps turn) : keeps (turn.forEach items act) :=
  keeps_forEach_of_mem keeps items (fun turn item _ => step turn item) held

namespace Steps

variable {keeps : Turn → Prop} {licensed : JobTransfer → NodeId → Prop} {turn : Turn}

variable (steps : Steps keeps licensed)

include steps

theorem record (held : keeps turn) (transfer : JobTransfer) (target : NodeId) :
    keeps (turn.record transfer target) := by
  apply steps.note held
  intro session tracked
  rw [Table.get?_modify] at tracked
  split at tracked
  · simpa using tracked
  · exact tracked

theorem onResult (held : keeps turn) (result : JobResult) : keeps (turn.onResult result) := by
  cases found : turn.node.tasks.get? result.session with
  | none => simpa only [Turn.onResult, found] using held
  | some task =>
      simp only [Turn.onResult, found]
      split
      · have noted : keeps (turn.update fun node =>
            { node with tasks := node.tasks.insert result.session (task.enter result) }) := by
          apply steps.note held
          intro session tracked
          rw [Table.get?_insert] at tracked
          split at tracked
          · rename_i same
            rw [← same, found]
            rfl
          · exact tracked
        split
        · exact steps.finish noted
        · exact noted
      · exact held

/-- A job is brought to a node, or to others that its session may run on. -/
theorem placeWithin (held : keeps turn) (maxAttempts : UInt32) {transfer : JobTransfer}
    {target : NodeId} (covers : turn.Covers licensed transfer.session)
    (allowed : licensed transfer target) :
    keeps (turn.placeWithin maxAttempts transfer target) := by
  fun_induction Turn.placeWithin maxAttempts turn transfer target with
  | case1 turn transfer target delivered arrived =>
      exact steps.record (steps.deliver held allowed arrived) transfer target
  | case2 turn transfer target refused _ next routed found ih =>
      have picks := picks_of_failover found
      exact ih (steps.aside held (.of_picks picks)) (covers.of_picks picks)
        (covers.licensed_of_failover found rfl)
  | case3 turn transfer target refused _ cause found => exact steps.finish held
  | case4 turn transfer target refused _ fault found =>
      exact steps.aside held (aside_stopWith turn fault)

theorem place (held : keeps turn) {transfer : JobTransfer} {target : NodeId}
    (covers : turn.Covers licensed transfer.session) (allowed : licensed transfer target) :
    keeps (turn.place transfer target) :=
  steps.placeWithin held _ covers allowed

/-- A job that was rejected goes to a node that its session may run on, since only pending
jobs are placed again. -/
theorem onRejected (held : keeps turn) (rejected : JobRejected) :
    keeps (turn.onRejected rejected) := by
  simp only [Turn.onRejected]
  split
  · rename_i pending
    have covers : turn.Covers licensed rejected.job.session := by
      apply steps.covers held
      simp only [tracks] at pending
      split at pending
      · rename_i task found
        rw [found]
        rfl
      · cases pending
    split
    · rename_i found
      have picks := picks_of_failover found
      exact steps.place (steps.aside held (.of_picks picks)) (covers.of_picks picks)
        (covers.licensed_of_failover found rfl)
    · exact steps.finish held
    · exact steps.aside held (aside_stopWith turn _)
  · exact held

theorem reroute (held : keeps turn) (departed : NodeId) : keeps (turn.reroute departed) := by
  exact keeps_forEach keeps (fun _ _ held => steps.onRejected held _) _ held

theorem onEvent (held : keeps turn) (event : DiscoveryEvent) : keeps (turn.onEvent event) := by
  cases noted : turn.node.resolver.onEvent turn.node.id event with
  | error fault =>
      simp only [Turn.onEvent, noted]
      exact steps.aside held (aside_stopWith turn fault)
  | ok resolver =>
      have told : keeps (turn.update fun node =>
          { node with resolver, balancer := node.balancer.onEvent event }) :=
        steps.aside held ⟨rfl, rfl, rfl, rfl, rfl, rfl, rfl, rfl, rfl,
          (Stealing.received_of_onEvent noted).1, rfl⟩
      simp only [Turn.onEvent, noted]
      refine steps.aside ?_ (aside_lookNext _)
      split
      · exact steps.reroute told _
      · exact told

/-- The end of a submission. -/
theorem conclude (held : keeps turn) (session : SessionId) (count : Nat) :
    keeps (turn.conclude session count) := by
  have mapped : keeps (turn.mapped session) :=
    steps.aside held ⟨rfl, rfl, rfl, rfl, rfl, rfl, rfl, rfl, rfl, rfl, rfl⟩
  simp only [Turn.conclude]
  split
  · exact steps.finish mapped
  · exact mapped

end Steps

namespace Walk

variable {keeps : Turn → Prop} {licensed : JobTransfer → NodeId → Prop} {turn : Turn}

variable (walk : Walk keeps licensed)

include walk

theorem report (held : keeps turn) {origin : NodeId} {message : Message}
    (topic : message.topic ≠ Topic.jobSubmit) : keeps (turn.report origin message) := by
  cases sent : turn.send origin message with
  | error refused =>
      simp only [Turn.report, sent]
      exact walk.warn held
  | ok next =>
      simp only [Turn.report, sent]
      exact walk.send held topic sent

theorem reportRejected (held : keeps turn) (job : JobHandle) (thief : Option NodeId) :
    keeps (turn.reportRejected job thief) := by
  simp only [Turn.reportRejected]
  split
  · exact walk.onRejected held _
  · exact walk.report held (show Topic.jobRejected ≠ Topic.jobSubmit by decide)

theorem reportResult (held : keeps turn) (report : ExecutionReport) :
    keeps (turn.reportResult report) := by
  simp only [Turn.reportResult]
  split
  · exact walk.onResult held _
  · exact walk.report held (show Topic.jobResult ≠ Topic.jobSubmit by decide)

/-- A job that arrives is taken, or reported back. -/
theorem onSubmitted (held : keeps turn) {transfer : JobTransfer}
    (takes : ∀ {next}, turn.hold transfer = .ok next → keeps next) :
    keeps (turn.onSubmitted transfer) := by
  refine walk.aside ?_ (aside_lookNext _)
  cases taken : turn.hold transfer with
  | error refused => exact walk.reportRejected held _ _
  | ok next => exact takes taken

theorem onMessage (held : keeps turn) (envelope : Envelope)
    (takes : ∀ {transfer next},
      Message.decode envelope.topic envelope.payload = .ok (.jobSubmit transfer) →
      turn.hold transfer = .ok next → keeps next) :
    keeps (turn.onMessage envelope) := by
  cases said : Message.decode envelope.topic envelope.payload with
  | error unclear =>
      simp only [Turn.onMessage, said]
      exact held
  | ok message =>
      cases message with
      | stealRequest request =>
          simp only [Turn.onMessage, said]
          exact walk.aside held (aside_onStealRequest turn _ request)
      | jobSubmit transfer =>
          simp only [Turn.onMessage, said]
          exact walk.onSubmitted held fun taken => takes said taken
      | jobRejected rejected =>
          simp only [Turn.onMessage, said]
          exact walk.onRejected held rejected
      | jobResult result =>
          simp only [Turn.onMessage, said]
          exact walk.onResult held result

end Walk

end Turn

end JobGrid
