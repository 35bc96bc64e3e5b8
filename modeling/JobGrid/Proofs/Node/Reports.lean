import JobGrid.Proofs.Grid.Peers
import JobGrid.Proofs.Node.Answers

/-!
# Reports to the origins of jobs

A node reports a job that it gave away, one that it does not take, and the result of one that it
executed. A report is a letter to the origin of the job. It stays in the inbox while the turn
goes on; if the inbox is closed or full, the node warns and does not report once more.
-/

namespace JobGrid

namespace Cluster

/-- Between two moments, no inbox came, went, was opened or closed, and no letter was taken out. -/
structure Retains (before after : Cluster) : Prop where
  capacity : after.capacity = before.capacity
  inboxes : after.inboxes = before.inboxes
  size : after.mailboxes.size = before.mailboxes.size
  isOpen : ∀ ref, (after.mailbox ref).isOpen = (before.mailbox ref).isOpen
  letters : ∀ ref, (before.mailbox ref).letters <+: (after.mailbox ref).letters

/-- A node has an inbox. -/
def Houses (cluster : Cluster) (node : NodeId) : Prop :=
  ∃ ref, cluster.inboxes.get? node = some ref ∧ ref < cluster.mailboxes.size

variable {cluster next : Cluster} {sender receiver node : NodeId} {topic : String} {payload : Bytes}

namespace Retains

protected theorem refl (cluster : Cluster) : cluster.Retains cluster :=
  ⟨rfl, rfl, rfl, fun _ => rfl, fun _ => List.prefix_rfl⟩

protected theorem trans {first second third : Cluster} (left : first.Retains second)
    (right : second.Retains third) : first.Retains third where
  capacity := right.capacity.trans left.capacity
  inboxes := right.inboxes.trans left.inboxes
  size := right.size.trans left.size
  isOpen ref := (right.isOpen ref).trans (left.isOpen ref)
  letters ref := (left.letters ref).trans (right.letters ref)

theorem houses (retains : cluster.Retains next) (housed : cluster.Houses node) :
    next.Houses node := by
  rwa [Houses, retains.inboxes, retains.size]

theorem of_send (sent : cluster.send sender receiver topic payload = .ok next) :
    cluster.Retains next := by
  obtain ⟨ref, -, -, -, rfl⟩ := send_eq_ok.1 sent
  by_cases present : ref < cluster.mailboxes.size
  · refine ⟨rfl, rfl, by simp [setMailbox], fun other => ?_, fun other => ?_⟩
    · rw [mailbox_setMailbox present]
      split
      · rename_i same
        rw [same]
      · rfl
    · rw [mailbox_setMailbox present]
      split
      · rename_i same
        rw [same]
        exact List.prefix_append _ _
      · exact List.prefix_rfl
  · rw [setMailbox_of_absent present]
    exact .refl cluster

end Retains

/-- A letter that was sent is in the inbox of its receiver. -/
theorem mem_letters_of_send {ref : MailboxRef} (known : cluster.inboxes.get? receiver = some ref)
    (present : ref < cluster.mailboxes.size)
    (sent : cluster.send sender receiver topic payload = .ok next) :
    ⟨sender, topic, payload⟩ ∈ (next.mailbox ref).letters := by
  obtain ⟨other, found, -, -, rfl⟩ := send_eq_ok.1 sent
  cases known.symm.trans found
  rw [mailbox_setMailbox present, if_pos rfl]
  exact List.mem_append_right _ (List.mem_singleton.2 rfl)

/-- A letter to a node with an inbox is refused only if the inbox is closed or full. -/
theorem blocked_of_send {ref : MailboxRef} {refused : PlacementError}
    (known : cluster.inboxes.get? receiver = some ref)
    (failed : cluster.send sender receiver topic payload = .error refused) :
    (cluster.mailbox ref).isOpen = false ∨
      cluster.capacity ≤ (cluster.mailbox ref).letters.length := by
  simp only [send, refusal?, known] at failed
  split at failed
  · rename_i error blocked
    split at blocked
    · rename_i closed
      exact .inl (by simpa using closed)
    · split at blocked
      · rename_i full
        exact .inr full
      · cases blocked
  · cases failed

/-- Every member has an inbox. -/
def Housed (cluster : Cluster) : Prop :=
  ∀ node, (cluster.find? node).isSome = true → cluster.Houses node

namespace Housed

theorem of_sameMembers (housed : cluster.Housed) (same : cluster.SameMembers next) :
    next.Housed := by
  intro node member
  rw [same.find?_eq] at member
  obtain ⟨ref, known, present⟩ := housed node member
  exact ⟨ref, same.inboxes ▸ known, same.size ▸ present⟩

theorem join (housed : cluster.Housed) (new : Member) : (cluster.join new).Housed := by
  intro node member
  rw [Houses, Cluster.join, publish, Table.get?_insert, Array.size_push]
  split
  · exact ⟨_, rfl, Nat.lt_succ_self _⟩
  · rename_i differs
    obtain rfl | earlier := (isSome_find?_join new node).1 member
    · exact absurd rfl differs
    · obtain ⟨ref, known, present⟩ := housed node earlier
      exact ⟨ref, known, Nat.lt_succ_of_lt present⟩

theorem remove (housed : cluster.Housed) (kind : EventKind) (gone : NodeId) :
    (cluster.remove kind gone).Housed := by
  intro node member
  cases present : (cluster.find? gone).isSome with
  | false =>
      rw [Option.isSome_eq_false_iff, Option.isNone_iff_eq_none] at present
      simp only [Cluster.remove, present] at member ⊢
      have differs : gone ≠ node := by
        rintro rfl
        have member : (cluster.find? gone).isSome = true := member
        rw [present] at member
        cases member
      obtain ⟨ref, known, inside⟩ := housed node member
      exact ⟨ref, by rwa [Table.get?_erase_of_ne _ differs], inside⟩
  | true =>
      obtain ⟨-, -, inboxes, mailboxes, -, found⟩ := remove_of_member present kind
      obtain ⟨differs, earlier⟩ := (found node).1 member
      obtain ⟨ref, known, inside⟩ := housed node earlier
      refine ⟨ref, ?_, by rwa [mailboxes]⟩
      rwa [inboxes, Table.get?_erase_of_ne _ (Ne.symm differs)]

theorem apply (housed : cluster.Housed) (act : PeerAct) : (act.apply cluster).Housed := by
  cases act with
  | join member => exact housed.join member
  | leave node => exact housed.remove .left node
  | fail node => exact housed.remove .failed node
  | update node metrics =>
      simp only [PeerAct.apply]
      split
      · rename_i next updated
        obtain ⟨inboxes, mailboxes, members, -⟩ := publish_of_updateMetrics updated
        intro other member
        rw [members] at member
        rw [Houses, inboxes, mailboxes]
        exact housed other member
      · exact housed
  | send sender receiver topic payload =>
      exact housed.of_sameMembers (sameMembers_send cluster sender receiver topic payload)
  | receive inbox => exact housed.of_sameMembers (sameMembers_receive cluster inbox)
  | close inbox => exact housed.of_sameMembers (sameMembers_setMailbox _ _ _)

end Housed

/-- Every member has an inbox, whatever happened since the grid was empty. -/
theorem housed_foldl (capacity : Nat) (acts : List PeerAct) :
    (acts.foldl PeerAct.apply (.empty capacity)).Housed := by
  have general : ∀ cluster : Cluster, cluster.Housed →
      (acts.foldl PeerAct.apply cluster).Housed := by
    induction acts with
    | nil => exact fun _ housed => housed
    | cons act rest ih => exact fun cluster housed => ih _ (housed.apply act)
  apply general
  intro node member
  cases member

end Cluster

namespace Turn

variable {turn next : Turn} {origin : NodeId} {message : Message}

/-- Between two moments of a turn, handles and inboxes stayed as they were, but for new ones. -/
structure Retains (turn next : Turn) : Prop where
  id : next.node.id = turn.node.id
  handles : ∀ {ref handle}, turn.node.store.get? ref = some handle →
    next.node.store.get? ref = some handle
  cluster : turn.cluster.Retains next.cluster

/-- A report is in the inbox of the origin, or the node warned of it since this inbox is closed
or full. -/
def Reported (turn : Turn) (origin : NodeId) (message : Message) : Prop :=
  ∃ ref, turn.cluster.inboxes.get? origin = some ref ∧
    (⟨turn.node.id, message.topic, message.encode⟩ ∈ (turn.cluster.mailbox ref).letters ∨
      (origin, message) ∈ turn.unreported ∧
        ((turn.cluster.mailbox ref).isOpen = false ∨
          turn.cluster.capacity ≤ (turn.cluster.mailbox ref).letters.length))

/-! ## What stays while a turn goes on -/

namespace Retains

protected theorem refl (turn : Turn) : Retains turn turn :=
  ⟨rfl, fun found => found, .refl _⟩

protected theorem trans {first second third : Turn} (left : Retains first second)
    (right : Retains second third) : Retains first third :=
  ⟨right.id.trans left.id, fun found => right.handles (left.handles found),
    left.cluster.trans right.cluster⟩

theorem of_same (id : next.node.id = turn.node.id) (store : next.node.store = turn.node.store)
    (cluster : next.cluster = turn.cluster) : Retains turn next :=
  ⟨id, fun found => store ▸ found, cluster ▸ .refl _⟩

theorem of_send {receiver : NodeId} (sent : turn.send receiver message = .ok next) :
    Retains turn next := by
  obtain ⟨cluster, posted, rfl⟩ := Result.map_eq_ok.1 sent
  exact ⟨rfl, fun found => found, .of_send posted⟩

theorem of_deliver {target : NodeId} {transfer : JobTransfer}
    (delivered : turn.deliver target transfer = .ok next) : Retains turn next := by
  cases Delivered.of_deliver delivered with
  | here _ took =>
      obtain ⟨-, rfl⟩ := hold_eq_ok.1 took
      refine ⟨rfl, fun {ref handle} found => ?_, .refl _⟩
      have older : ref ≠ turn.node.store.next := Nat.ne_of_lt (JobStore.lt_next_of_get? found)
      simp only [requestCollision, update, JobStore.get?_push, if_neg older, found]
  | there _ sent => exact of_send sent

theorem finish (turn : Turn) (session : SessionId) (error : Option String) :
    Retains turn (turn.finish session error) := by
  simp only [Turn.finish]
  split
  · exact .refl turn
  · exact .of_same rfl rfl rfl

end Retains

/-- Every step of a turn retains what was there at its beginning. -/
theorem walk_retains (turn : Turn) : Walk (Retains turn) fun _ _ => True where
  aside held aside := held.trans (.of_same aside.id aside.store aside.cluster)
  deliver held _ delivered := held.trans (.of_deliver delivered)
  send held _ sent := held.trans (.of_send sent)
  warn held := held.trans (.of_same rfl rfl rfl)
  note held _ := held.trans (.of_same rfl rfl rfl)
  finish held := held.trans (.finish _ _ _)
  covers _ _ := fun _ _ _ _ => trivial

theorem unreported_finish (turn : Turn) (session : SessionId) (error : Option String) :
    (turn.finish session error).unreported = turn.unreported := by
  simp only [finish]
  split
  · rfl
  · rfl

theorem unreported_of_failover {maxAttempts : UInt32} {transfer : JobTransfer}
    {rejectedBy target : NodeId} {thief : Option NodeId}
    (routed : turn.failover maxAttempts transfer rejectedBy thief = .ok (target, next)) :
    next.unreported = turn.unreported := by
  obtain ⟨_, _, rfl⟩ := picks_of_failover routed
  rfl

theorem unreported_placeWithin (turn : Turn) (maxAttempts : UInt32) (transfer : JobTransfer)
    (target : NodeId) :
    (turn.placeWithin maxAttempts transfer target).unreported = turn.unreported := by
  fun_induction Turn.placeWithin maxAttempts turn transfer target with
  | case1 turn transfer target delivered arrived =>
      obtain ⟨_, _, _, _, rfl, -, -⟩ := delivered_of_deliver arrived
      rfl
  | case2 turn transfer target refused _ next routed found ih =>
      exact ih.trans (unreported_of_failover found)
  | case3 turn transfer target refused _ cause found => exact unreported_finish turn _ _
  | case4 turn transfer target refused _ fault found => rfl

theorem unreported_onRejected (turn : Turn) (rejected : JobRejected) :
    (turn.onRejected rejected).unreported = turn.unreported := by
  simp only [onRejected]
  split
  · split
    · rename_i found
      exact (unreported_placeWithin _ _ _ _).trans (unreported_of_failover found)
    · exact unreported_finish turn _ _
    · rfl
  · rfl

theorem unreported_report (turn : Turn) (origin : NodeId) (message : Message) :
    turn.unreported ⊆ (turn.report origin message).unreported := by
  cases sent : turn.send origin message with
  | error refused =>
      simp only [report, sent]
      exact List.subset_append_left _ _
  | ok next =>
      obtain ⟨cluster, -, rfl⟩ := Result.map_eq_ok.1 sent
      simp only [report, sent]
      exact List.Subset.refl _

theorem unreported_reportRejected (turn : Turn) (job : JobHandle) (thief : Option NodeId) :
    turn.unreported ⊆ (turn.reportRejected job thief).unreported := by
  simp only [reportRejected]
  split
  · rw [unreported_onRejected]
    exact List.Subset.refl _
  · exact unreported_report turn _ _

/-- A job that is handed off is counted, perhaps, and reported. -/
theorem handOff_eq {ref : JobRef} {job : JobHandle} (found : turn.node.store.get? ref = some job) :
    ∃ counted, Retains turn counted ∧ counted.unreported = turn.unreported ∧
      turn.handOff ref = counted.reportRejected job job.thief := by
  simp only [handOff, found]
  split
  · refine ⟨_, ?_, ?_, rfl⟩
    · exact .of_same rfl rfl rfl
    · rfl
  · exact ⟨turn, .refl turn, rfl, rfl⟩

theorem retains_handOff (turn : Turn) (ref : JobRef) :
    Retains turn (turn.handOff ref) ∧ turn.unreported ⊆ (turn.handOff ref).unreported := by
  cases found : turn.node.store.get? ref with
  | none =>
      simp only [handOff, found]
      exact ⟨.refl turn, List.Subset.refl _⟩
  | some job =>
      obtain ⟨counted, retains, same, equal⟩ := handOff_eq found
      rw [equal, ← same]
      exact ⟨(walk_retains turn).reportRejected retains job job.thief,
        unreported_reportRejected counted job job.thief⟩

theorem retains_execute (turn : Turn) (ref : JobRef) :
    Retains turn (turn.execute ref) ∧ (turn.execute ref).unreported = turn.unreported := by
  simp only [execute]
  split
  · exact ⟨.refl turn, rfl⟩
  · split
    · exact ⟨.refl turn, rfl⟩
    · exact ⟨.of_same rfl rfl rfl, rfl⟩

theorem retains_sendRequests (turn : Turn) (requests : List SentRequest) :
    Retains turn (turn.sendRequests requests) := by
  induction requests generalizing turn with
  | nil => exact .refl turn
  | cons request rest ih =>
      refine Retains.trans ?_ (ih _)
      simp only [trySend]
      split
      · rename_i sent
        exact .of_send sent
      · exact .refl turn

/-! ## Reports -/

/-- A report stays where it is while the turn goes on. -/
theorem Reported.retains (reported : turn.Reported origin message) (retains : Retains turn next)
    (warned : turn.unreported ⊆ next.unreported) : next.Reported origin message := by
  obtain ⟨ref, known, arrived | ⟨refused, blocked⟩⟩ := reported
  · refine ⟨ref, retains.cluster.inboxes ▸ known, .inl ?_⟩
    rw [retains.id]
    exact (retains.cluster.letters ref).subset arrived
  · refine ⟨ref, retains.cluster.inboxes ▸ known, .inr ⟨warned refused, ?_⟩⟩
    rw [retains.cluster.isOpen, retains.cluster.capacity]
    exact blocked.imp_right fun full =>
      Nat.le_trans full (retains.cluster.letters ref).length_le

/-- A report to a node with an inbox arrives, or it is refused since the inbox is closed or full. -/
theorem reported_report (housed : turn.cluster.Houses origin) (message : Message) :
    (turn.report origin message).Reported origin message := by
  obtain ⟨ref, known, present⟩ := housed
  cases sent : turn.cluster.send turn.node.id origin message.topic message.encode with
  | error refused =>
      have failed : turn.send origin message = .error refused := by rw [send, sent]; rfl
      simp only [report, failed]
      exact ⟨ref, known, .inr ⟨List.mem_append_right _ (List.mem_singleton.2 rfl),
        Cluster.blocked_of_send known sent⟩⟩
  | ok cluster =>
      have arrived : turn.send origin message = .ok { turn with cluster } := by rw [send, sent]; rfl
      simp only [report, arrived]
      exact ⟨ref, (Cluster.Retains.of_send sent).inboxes ▸ known,
        .inl (Cluster.mem_letters_of_send known present sent)⟩

theorem reported_reportRejected (job : JobHandle) (elsewhere : job.origin ≠ turn.node.id)
    (housed : turn.cluster.Houses job.origin) (thief : Option NodeId) :
    (turn.reportRejected job thief).Reported job.origin (turn.rejection job thief) := by
  simp only [reportRejected, if_neg elsewhere]
  exact reported_report housed _

theorem reported_handOff {ref : JobRef} {job : JobHandle}
    (found : turn.node.store.get? ref = some job) (elsewhere : job.origin ≠ turn.node.id)
    (housed : turn.cluster.Houses job.origin) :
    (turn.handOff ref).Reported job.origin (turn.rejection job job.thief) := by
  obtain ⟨counted, retains, -, equal⟩ := handOff_eq found
  rw [equal, rejection, ← retains.id]
  exact reported_reportRejected job (retains.id ▸ elsewhere) (retains.cluster.houses housed)
    job.thief

/-- What an action brings about for one of some items holds in the end, if all actions keep it. -/
theorem forEach_of_mem {α : Type} {act : Turn → α → Turn} (start goal : Turn → Prop) {item : α}
    {items : List α} (inside : item ∈ items)
    (ready : ∀ {turn : Turn} (other : α), start turn → start (act turn other))
    (done : ∀ {turn : Turn}, start turn → goal (act turn item))
    (stays : ∀ (turn : Turn) (other : α), goal turn → goal (act turn other)) (held : start turn)
    (unbroken : (turn.forEach items act).fault? = none) : goal (turn.forEach items act) := by
  induction items generalizing turn with
  | nil => cases inside
  | cons first rest ih =>
      have sound : turn.fault? = none := by
        by_contra broke
        have broke := Option.isSome_iff_ne_none.2 broke
        rw [forEach_of_fault broke] at unbroken
        rw [unbroken] at broke
        cases broke
      rw [forEach_cons sound] at unbroken ⊢
      rcases List.mem_cons.1 inside with rfl | later
      · exact keeps_forEach goal stays rest (done held)
      · exact ih later (ready first held) unbroken

/-- Each of some jobs is reported when they are handed off, unless a rule breaks before. -/
theorem reported_handOffs {queued : QueuedJob} {jobs : List QueuedJob} {job : JobHandle}
    (inside : queued ∈ jobs) (found : turn.node.store.get? queued.ref = some job)
    (elsewhere : job.origin ≠ turn.node.id) (housed : turn.cluster.Houses job.origin)
    (unbroken : (turn.forEach jobs fun turn job => turn.handOff job.ref).fault? = none) :
    (turn.forEach jobs fun turn job => turn.handOff job.ref).Reported job.origin
      (turn.rejection job job.thief) := by
  refine forEach_of_mem (Retains turn)
    (fun next => next.Reported job.origin (turn.rejection job job.thief)) inside
    ?_ ?_ ?_ (.refl turn) unbroken
  · exact fun other retains => retains.trans (retains_handOff _ other.ref).1
  · intro next retains
    rw [rejection, ← retains.id]
    refine reported_handOff (retains.handles found) (retains.id ▸ elsewhere) ?_
    exact retains.cluster.houses housed
  · intro next other reported
    obtain ⟨retains, warned⟩ := next.retains_handOff other.ref
    exact reported.retains retains warned

theorem fault?_forEach_execute (turn : Turn) (jobs : List QueuedJob) :
    (turn.forEach jobs fun turn job => turn.execute job.ref).fault? = turn.fault? :=
  keeps_forEach (fun next => next.fault? = turn.fault?)
    (fun next job same => (next.fault?_execute job.ref).trans same) jobs rfl

/-- All cancelled jobs are reported when the queue is settled, unless a rule breaks before. -/
theorem reported_settle {queued : QueuedJob} {job : JobHandle}
    (waits : queued ∈ turn.node.queue.waiting)
    (found : turn.node.store.get? queued.ref = some job) (cancelled : job.state = .cancelled)
    (elsewhere : job.origin ≠ turn.node.id) (housed : turn.cluster.Houses job.origin)
    (unbroken : turn.settle.fault? = none) :
    turn.settle.Reported job.origin (turn.rejection job job.thief) := by
  have leaves : queued ∈ (turn.node.queue.settled turn.node.store).cancelled := by
    refine List.mem_filter.2 ⟨waits, decide_eq_true ?_⟩
    rw [JobStore.state?, found, Option.map_some, cancelled]
  rw [settle] at unbroken ⊢
  -- Setting the started jobs to work breaks no rule and sends no letter.
  have handed := (fault?_forEach_execute _ _).symm.trans unbroken
  refine keeps_forEach (fun next => next.Reported _ _) (fun turn item reported => ?_) _ ?_
  · obtain ⟨retains, same⟩ := turn.retains_execute item.ref
    exact reported.retains retains (same ▸ List.Subset.refl _)
  · exact reported_handOffs leaves found elsewhere housed handed

/-- Unless a rule breaks, the queue is settled after a pass. In between only letters are sent. -/
theorem collide_eq (unbroken : turn.collide.fault? = none) :
    ∃ cluster, turn.cluster.Retains cluster ∧ turn.collide = Turn.settle { turn with
      cluster
      node := { turn.node with
        resolver := turn.pass.resolver
        store := turn.pass.store
        attention := turn.node.attention.take } } := by
  let passed := turn.update fun node => { node with
    resolver := turn.pass.resolver
    store := turn.pass.store
    attention := node.attention.take }
  obtain ⟨cluster, asked⟩ := Custody.exists_cluster_of_sendRequests passed turn.pass.requests
  have retains := (retains_sendRequests passed turn.pass.requests).cluster
  rw [asked] at retains
  refine ⟨cluster, retains, ?_⟩
  simp only [collide] at unbroken ⊢
  split at unbroken
  · cases unbroken
  · exact congrArg settle asked

/-- All jobs that were given away are reported after a look through the jobs, unless a rule breaks
before. -/
theorem reported_collide {queued : QueuedJob} {job : JobHandle}
    (waits : queued ∈ turn.node.queue.waiting)
    (found : turn.pass.store.get? queued.ref = some job) (cancelled : job.state = .cancelled)
    (elsewhere : job.origin ≠ turn.node.id) (housed : turn.cluster.Houses job.origin)
    (unbroken : turn.collide.fault? = none) :
    turn.collide.Reported job.origin (turn.rejection job job.thief) := by
  obtain ⟨cluster, retains, equal⟩ := collide_eq unbroken
  rw [equal] at unbroken ⊢
  exact reported_settle waits found cancelled elsewhere (retains.houses housed) unbroken

theorem reported_reportResult (report : ExecutionReport) (elsewhere : report.origin ≠ turn.node.id)
    (housed : turn.cluster.Houses report.origin) :
    (turn.reportResult report).Reported report.origin (turn.resultOf report) := by
  simp only [reportResult, if_neg elsewhere]
  exact reported_report housed _

/-- Most turns end with a request for a look through the jobs, unless a rule broke. -/
theorem Reported.lookNext (reported : turn.Reported origin message) :
    (if turn.fault?.isSome then turn else turn.requestCollision).Reported origin message := by
  split
  · exact reported
  · exact reported.retains (.of_same rfl rfl rfl) (List.Subset.refl _)

theorem reported_dismiss {execution : Execution} {job : JobHandle}
    (found : turn.node.store.get? execution.job = some job)
    (elsewhere : job.origin ≠ turn.node.id) (housed : turn.cluster.Houses job.origin) :
    (turn.dismiss execution).Reported job.origin (turn.resultOf (execution.report job)) := by
  simp only [dismiss, found]
  refine Reported.lookNext ?_
  exact reported_reportResult (execution.report job) elsewhere housed

theorem reported_complete {execution : Execution} {job : JobHandle}
    (found : turn.node.store.get? execution.job = some job)
    (elsewhere : job.origin ≠ turn.node.id) (housed : turn.cluster.Houses job.origin) :
    (turn.complete execution).Reported job.origin (turn.resultOf (execution.report job)) := by
  rw [← dismiss_count]
  have counted : ∃ tracker stats, turn.count execution =
      turn.update fun node => { node with tracker, stats } := by
    simp only [count, found]
    exact ⟨_, _, rfl⟩
  obtain ⟨tracker, stats, equal⟩ := counted
  rw [equal]
  exact reported_dismiss found elsewhere housed

/-- A job that arrives and is not taken is reported. -/
theorem reported_onMessage {envelope : Envelope} {transfer : JobTransfer}
    (said : Message.decode envelope.topic envelope.payload = .ok (.jobSubmit transfer))
    (refused : turn.node.queue.accepts transfer.spec.id = false)
    (elsewhere : transfer.origin ≠ turn.node.id) (housed : turn.cluster.Houses transfer.origin) :
    (turn.onMessage envelope).Reported transfer.origin
      (turn.rejection (transfer.toHandle turn.now) none) := by
  have full : turn.hold transfer = .error .queueFull := by
    simp only [hold, refused, Bool.false_eq_true, if_false]
  simp only [onMessage, said, onSubmitted, full]
  exact (reported_reportRejected (transfer.toHandle turn.now) elsewhere housed none).lookNext

/-! ## All reports of a node -/

/-- In a turn, a node has something to report to the origin of a job: the job was given away and
left the queue, its execution ended, or it arrived and was not taken. -/
inductive Reports : Turn → Turn → NodeId → Message → Prop where
  /-- One of the jobs that left the queue is reported. Anything may have happened since. -/
  | handOff {turn : Turn} {ref : JobRef} {job : JobHandle}
      (found : turn.node.store.get? ref = some job) :
      Reports turn (turn.handOff ref) job.origin (turn.rejection job job.thief)
  /-- The node looks through its jobs, and all jobs that it gives away are reported. -/
  | look {turn : Turn} {queued : QueuedJob} {job : JobHandle}
      (waits : queued ∈ turn.node.queue.waiting)
      (found : turn.pass.store.get? queued.ref = some job) (cancelled : job.state = .cancelled)
      (unbroken : turn.collide.fault? = none) :
      Reports turn turn.collide job.origin (turn.rejection job job.thief)
  /-- A job whose execution was counted leaves the queue, and its result is reported. -/
  | dismiss {turn : Turn} {execution : Execution} {job : JobHandle}
      (found : turn.node.store.get? execution.job = some job) :
      Reports turn (turn.dismiss execution) job.origin (turn.resultOf (execution.report job))
  /-- An execution ends, all at once. -/
  | complete {turn : Turn} {execution : Execution} {job : JobHandle}
      (found : turn.node.store.get? execution.job = some job) :
      Reports turn (turn.complete execution) job.origin (turn.resultOf (execution.report job))
  | refuse {turn : Turn} {envelope : Envelope} {transfer : JobTransfer}
      (said : Message.decode envelope.topic envelope.payload = .ok (.jobSubmit transfer))
      (refused : turn.node.queue.accepts transfer.spec.id = false) :
      Reports turn (turn.onMessage envelope) transfer.origin
        (turn.rejection (transfer.toHandle turn.now) none)

/-- Whatever state a node is in and whatever happened in the grid, a report to another member is
in the inbox of the origin at the end of the turn, or this inbox is closed or full. Then the node
has warned of the report, and does nothing else about it. -/
theorem reported_of_reports {capacity : Nat} {acts : List PeerAct}
    (reached : turn.cluster = acts.foldl PeerAct.apply (.empty capacity))
    (reports : Reports turn next origin message) (elsewhere : origin ≠ turn.node.id)
    (member : (turn.cluster.find? origin).isSome = true) : next.Reported origin message := by
  have housed : turn.cluster.Houses origin :=
    (reached ▸ Cluster.housed_foldl capacity acts : turn.cluster.Housed) origin member
  cases reports with
  | handOff found => exact reported_handOff found elsewhere housed
  | look waits found cancelled unbroken =>
      exact reported_collide waits found cancelled elsewhere housed unbroken
  | dismiss found => exact reported_dismiss found elsewhere housed
  | complete found => exact reported_complete found elsewhere housed
  | refuse said refused => exact reported_onMessage said refused elsewhere housed

/-- Two jobs of a peer wait on a node, and the peer asked for both of them. Its inbox holds one
letter. -/
def crowded : Turn :=
  let peer : NodeId := .ofNat 1
  let stealing : StealingConfig := { activeThreshold := 0 }
  let node : Node := {
    id := .ofNat 2
    config := { stealing }
    chance := {}
    queue := { capacity := 9 }
    resolver := { config := stealing, queue := [peer] }
    balancer := .affinity { config := {}, ring := .empty "" Digest.md5 }
    tracker := { started := 0, cpus := 1 }
    inbox := 1
    position := 2 }
  let cluster := [PeerAct.join { id := peer }, .join { id := .ofNat 2 }].foldl PeerAct.apply
    (.empty 1)
  let job (id : Nat) : JobTransfer := ⟨.ofNat 5, peer, { id := .ofNat id }, 0, 0⟩
  let turn : Turn := { now := 0, node, cluster }
  ((turn.onSubmitted (job 7)).onSubmitted (job 8)).onStealRequest peer ⟨2⟩

/-- The second of two jobs that are given away is reported to an inbox that the first report has
filled. -/
theorem reported_of_reports_of_crowded :
    let job : JobHandle := {
      spec := { id := .ofNat 8 }
      session := .ofNat 5
      origin := .ofNat 1
      createdAt := 0
      state := .cancelled
      stealingAttempts := 1
      thief := some (.ofNat 1) }
    crowded.cluster = [PeerAct.join { id := .ofNat 1 }, .join { id := .ofNat 2 }].foldl
        PeerAct.apply (.empty 1) ∧
      ⟨.ofNat 8, 1⟩ ∈ crowded.node.queue.waiting ∧ crowded.pass.store.get? 1 = some job ∧
      crowded.collide.fault? = none ∧ job.origin ≠ crowded.node.id ∧
      (crowded.cluster.find? job.origin).isSome = true ∧
      crowded.collide.Reported job.origin (crowded.rejection job job.thief) := by
  intro job
  have waits : ⟨.ofNat 8, 1⟩ ∈ crowded.node.queue.waiting := by decide +kernel
  have found : crowded.pass.store.get? 1 = some job := by decide +kernel
  have unbroken : crowded.collide.fault? = none := by decide +kernel
  have elsewhere : job.origin ≠ crowded.node.id := by decide +kernel
  have member : (crowded.cluster.find? job.origin).isSome = true := by decide +kernel
  exact ⟨rfl, waits, found, unbroken, elsewhere, member,
    reported_of_reports rfl (.look waits found rfl unbroken) elsewhere member⟩

/-- Both jobs leave the queue, and only the first one is reported to its origin. The node holds
neither of them any more. -/
theorem report_lost :
    crowded.node.queue.waiting.map QueuedJob.id = [.ofNat 7, .ofNat 8] ∧
      (crowded.cluster.find? (.ofNat 1)).isSome = true ∧
      crowded.cluster.inboxes.get? (.ofNat 1) = some 0 ∧
      crowded.collide.fault? = none ∧
      (crowded.collide.cluster.messages 0).filterMap Message.answered? = [.ofNat 7] ∧
      crowded.collide.node.queue.size = 0 ∧ crowded.collide.node.executions = [] := by
  decide +kernel

end Turn

end JobGrid
