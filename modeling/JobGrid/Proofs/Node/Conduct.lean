import JobGrid.Proofs.Node.Course
import JobGrid.Proofs.Node.Restricted

/-!
# Turns as courses

Every turn of a node consists of the single steps of a course. A turn places the jobs of watched
sessions only while these are followed, whatever arrives: a message, a change in the grid, or
the end of an execution. Placing the first jobs of a task is the exception, since a submission
does not ask whether its task still goes on.
-/

namespace JobGrid

namespace Turn

variable {watched : SessionId → Prop} {brought : Option JobTransfer} {turn next : Turn}

theorem follows_of_tracks {session : SessionId} {job : JobId}
    (tracks : turn.tracks session job = true) : turn.Follows session := by
  simp only [Turn.tracks] at tracks
  split at tracks
  · rename_i task found
    rw [Follows, found]
    rfl
  · cases tracks

theorem leads_finish (turn : Turn) (session : SessionId) (error : Option String) :
    Leads watched brought turn (turn.finish session error) := by
  cases found : turn.node.tasks.get? session with
  | none =>
      simp only [finish, found]
      exact .refl turn
  | some task =>
      have followed : turn.Follows session := by rw [Follows, found]; rfl
      exact .step (.finish followed error)

theorem leads_stopWith (turn : Turn) (fault : Fault) :
    Leads watched brought turn (turn.stopWith fault) :=
  .rest (quiet_stopWith turn fault)

/-- A member is found for a job: its thief, or the pick of the balancer. -/
theorem stride_of_failover {maxAttempts : UInt32} {transfer : JobTransfer}
    {rejectedBy target : NodeId} {thief : Option NodeId}
    (licensed : watched transfer.session → turn.Follows transfer.session)
    (routed : turn.failover maxAttempts transfer rejectedBy thief = .ok (target, next)) :
    Stride watched brought turn (.seek transfer.session) next := by
  obtain ⟨found, chosen, equal⟩ := Result.map_eq_ok.1 routed
  cases equal
  refine .seek licensed ?_
  simp only [Rejection.failover] at chosen
  split at chosen
  · cases chosen
  · cases chosen
    exact .inl rfl
  · exact .inr ⟨_, _, _, chosen⟩

theorem follows_of_picks {session : SessionId} (followed : turn.Follows session)
    (picks : Picks turn next) : next.Follows session := by
  obtain ⟨_, _, rfl⟩ := picks
  exact followed

/-- A job is brought to one node after another, until one takes it or its task ends. -/
theorem leads_placeWithin (turn : Turn) (maxAttempts : UInt32) (transfer : JobTransfer)
    (target : NodeId) (licensed : watched transfer.session → turn.Follows transfer.session) :
    Leads watched brought turn (turn.placeWithin maxAttempts transfer target) := by
  fun_induction Turn.placeWithin maxAttempts turn transfer target with
  | case1 turn transfer target delivered arrived => exact .step (.offer licensed arrived)
  | case2 turn transfer target refused failed next routed found ih =>
      have sought : Leads watched brought turn routed :=
        .step (stride_of_failover licensed found)
      refine (Leads.step (.offerInVain licensed failed)).trans (sought.trans (ih ?_))
      exact fun watches => follows_of_picks (licensed watches) (picks_of_failover found)
  | case3 turn transfer target refused failed cause found =>
      have sought : Leads watched brought turn turn := .step (.seekInVain licensed)
      exact (Leads.step (.offerInVain licensed failed)).trans
        (sought.trans (leads_finish turn _ _))
  | case4 turn transfer target refused failed fault found =>
      have sought : Leads watched brought turn turn := .step (.seekInVain licensed)
      exact (Leads.step (.offerInVain licensed failed)).trans
        (sought.trans (leads_stopWith turn fault))

theorem leads_place (turn : Turn) (transfer : JobTransfer) (target : NodeId)
    (licensed : watched transfer.session → turn.Follows transfer.session) :
    Leads watched brought turn (turn.place transfer target) :=
  leads_placeWithin turn _ transfer target licensed

/-- Only jobs of followed tasks are placed again. -/
theorem leads_onRejected (turn : Turn) (rejected : JobRejected) :
    Leads watched brought turn (turn.onRejected rejected) := by
  simp only [onRejected]
  split
  · rename_i pending
    have followed := follows_of_tracks pending
    have sought : Leads watched brought turn turn := .step (.seekInVain fun _ => followed)
    split
    · rename_i found
      refine (Leads.step (stride_of_failover (fun _ => followed) found)).trans ?_
      exact leads_place _ (again rejected.job) _
        fun _ => follows_of_picks followed (picks_of_failover found)
    · exact sought.trans (leads_finish turn _ _)
    · exact sought.trans (leads_stopWith turn _)
  · exact .refl turn

theorem leads_onResult (turn : Turn) (result : JobResult) :
    Leads watched brought turn (turn.onResult result) := by
  cases found : turn.node.tasks.get? result.session with
  | none =>
      simp only [onResult, found]
      exact .refl turn
  | some task =>
      simp only [onResult, found]
      split
      · rename_i pending
        have entered : Leads watched brought turn (turn.update fun node =>
            { node with tasks := node.tasks.insert result.session (task.enter result) }) :=
          .step (.enter found pending)
        split
        · exact entered.trans (leads_finish _ _ _)
        · exact entered
      · exact .refl turn

/-- What consists of single steps for each of some items consists of them for all. -/
theorem leads_forEach {α : Type} {act : Turn → α → Turn} (items : List α)
    (step : ∀ (turn : Turn) (item : α), item ∈ items →
      Leads watched brought turn (act turn item)) (turn : Turn) :
    Leads watched brought turn (turn.forEach items act) := by
  induction items generalizing turn with
  | nil => exact .refl turn
  | cons item rest ih =>
      rw [forEach, List.foldl_cons]
      refine Leads.trans ?_ (ih (fun turn other member =>
        step turn other (List.mem_cons_of_mem item member)) _)
      split
      · exact .refl turn
      · exact step turn item List.mem_cons_self

theorem leads_reroute (turn : Turn) (departed : NodeId) :
    Leads watched brought turn (turn.reroute departed) :=
  leads_forEach _ (fun turn job _ => leads_onRejected turn ⟨job, departed, none⟩) turn

theorem leads_reportRejected (turn : Turn) (job : JobHandle) (thief : Option NodeId) :
    Leads watched brought turn (turn.reportRejected job thief) := by
  simp only [reportRejected]
  split
  · exact leads_onRejected turn _
  · exact .rest (quiet_report turn _ (show Topic.jobRejected ≠ Topic.jobSubmit by decide))

theorem leads_reportResult (turn : Turn) (report : ExecutionReport) :
    Leads watched brought turn (turn.reportResult report) := by
  simp only [reportResult]
  split
  · exact leads_onResult turn _
  · exact .rest (quiet_report turn _ (show Topic.jobResult ≠ Topic.jobSubmit by decide))

theorem leads_onEvent (turn : Turn) (event : DiscoveryEvent) :
    Leads watched brought turn (turn.onEvent event) := by
  cases noted : turn.node.resolver.onEvent turn.node.id event with
  | error fault =>
      simp only [onEvent, noted]
      exact leads_stopWith turn fault
  | ok resolver =>
      have told : Leads watched brought turn (turn.update fun node =>
          { node with resolver, balancer := node.balancer.onEvent event }) :=
        .rest (quiet_of_balancer resolver fun session unknown => by rwa [Balancer.phase_onEvent])
      simp only [onEvent, noted]
      refine Leads.trans ?_ (.rest (quiet_lookNext _))
      split
      · exact told.trans (leads_reroute _ _)
      · exact told

theorem leads_onStealRequest (turn : Turn) (sender : NodeId) (request : StealRequest) :
    Leads watched brought turn (turn.onStealRequest sender request) := by
  simp only [onStealRequest]
  split
  · exact leads_stopWith turn _
  · split
    · exact .rest (.of_same rfl rfl rfl rfl rfl rfl rfl rfl)
    · exact .rest (.of_same rfl rfl rfl rfl rfl rfl rfl rfl)

/-- A job that arrives is taken, or reported back. -/
theorem leads_onSubmitted (turn : Turn) (transfer : JobTransfer) :
    Leads watched (some transfer) turn (turn.onSubmitted transfer) := by
  refine Leads.trans ?_ (.rest (quiet_lookNext _))
  cases held : turn.hold transfer with
  | ok taken => exact .rest (quiet_of_hold held)
  | error refused => exact leads_reportRejected turn _ _

theorem leads_onMessage (turn : Turn) (envelope : Envelope)
    (brings : ∀ transfer, envelope.message? = some (.jobSubmit transfer) →
      brought = some transfer) :
    Leads watched brought turn (turn.onMessage envelope) := by
  cases said : Message.decode envelope.topic envelope.payload with
  | error unclear =>
      simp only [onMessage, said]
      exact .refl turn
  | ok message =>
      cases message with
      | stealRequest request =>
          simp only [onMessage, said]
          exact leads_onStealRequest turn _ request
      | jobSubmit transfer =>
          simp only [onMessage, said]
          obtain rfl := brings transfer (by rw [Envelope.message?, said]; rfl)
          exact leads_onSubmitted turn transfer
      | jobRejected rejected =>
          simp only [onMessage, said]
          exact leads_onRejected turn rejected
      | jobResult result =>
          simp only [onMessage, said]
          exact leads_onResult turn result

theorem leads_execute (turn : Turn) (ref : JobRef) :
    Leads watched brought turn (turn.execute ref) := by
  simp only [execute]
  split
  · exact .refl turn
  · split
    · exact .refl turn
    · exact .rest (.of_same rfl rfl rfl rfl rfl rfl rfl rfl)

theorem leads_handOff (turn : Turn) (ref : JobRef) :
    Leads watched brought turn (turn.handOff ref) := by
  simp only [handOff]
  split
  · exact .refl turn
  · split
    · have counted : Leads watched brought turn (turn.update fun node => { node with
          stats := { node.stats with handedOff := node.stats.handedOff + 1 }
          tracker := node.tracker.recordRejected 1 }) :=
        .rest (.of_same rfl rfl rfl rfl rfl rfl rfl rfl)
      exact counted.trans (leads_reportRejected _ _ _)
    · exact leads_reportRejected turn _ _

theorem leads_settle (turn : Turn) : Leads watched brought turn turn.settle := by
  have emptied : Leads watched brought turn (turn.update fun node => { node with
      queue := node.queue.settle node.store
      tracker := node.tracker.recordCancelled
        (turn.node.queue.settled turn.node.store).cancelled.length }) :=
    .rest (.of_same rfl rfl rfl rfl rfl rfl rfl rfl)
  exact (emptied.trans (leads_forEach _ (fun turn job _ => leads_handOff turn job.ref) _)).trans
    (leads_forEach _ (fun turn job _ => leads_execute turn job.ref) _)

theorem leads_sendRequests (requests : List SentRequest) (turn : Turn) :
    Leads watched brought turn (turn.sendRequests requests) := by
  induction requests generalizing turn with
  | nil => exact .refl turn
  | cons request rest ih =>
      have topic : (Message.stealRequest ⟨request.jobs⟩).topic ≠ Topic.jobSubmit := by
        show Topic.stealRequest ≠ Topic.jobSubmit
        decide
      exact (Leads.rest (quiet_trySend turn request.peer topic)).trans (ih _)

theorem leads_collide (turn : Turn) : Leads watched brought turn turn.collide := by
  have passed : Leads watched brought turn (turn.update fun node => { node with
      resolver := turn.pass.resolver
      store := turn.pass.store
      attention := node.attention.take }) := .rest (quiet_pass turn)
  have requested := passed.trans (leads_sendRequests turn.pass.requests _)
  simp only [collide]
  split
  · exact requested.trans (leads_stopWith _ _)
  · exact requested.trans (leads_settle _)

theorem leads_complete (turn : Turn) (execution : Execution) :
    Leads watched brought turn (turn.complete execution) := by
  cases found : turn.node.store.get? execution.job with
  | none =>
      simp only [complete, found]
      exact .refl turn
  | some job =>
      simp only [complete, found]
      refine Leads.trans ?_ (.rest (quiet_lookNext _))
      refine Leads.trans ?_ (leads_reportResult _ _)
      exact .rest (.of_same rfl rfl rfl rfl rfl rfl rfl rfl)

/-- Metrics are no letters, and make nobody come or go. -/
theorem leads_publishMetrics (turn : Turn) :
    Leads watched brought turn turn.publishMetrics := by
  simp only [publishMetrics]
  refine Leads.trans ?_ (.rest (quiet_requestCollision _))
  have sampled : Leads watched brought turn (turn.update fun node => { node with
      tracker := (node.tracker.snapshot turn.now node.queue.active.size
        node.queue.waiting.length).2 }) :=
    .rest (.of_same rfl rfl rfl rfl rfl rfl rfl rfl)
  split
  · rename_i cluster published
    obtain ⟨inboxes, mailboxes, members, member, events⟩ :=
      Cluster.publish_of_updateMetrics published
    refine sampled.trans (.rest (.of_cluster inboxes members ⟨#[⟨.metricsUpdated, member⟩], ?_⟩ ?_))
    · rw [events, Cluster.publish]
      exact Array.push_eq_append
    · intro ref
      refine ⟨[], ?_, fun _ none => absurd none List.not_mem_nil⟩
      rw [List.append_nil, Cluster.mailbox, mailboxes]
      rfl
  · exact sampled

/-- The first node of a job is a member of the grid, or the node itself. -/
theorem leads_firstTarget {session : SessionId} {placement : Placement} {spec : JobSpec}
    {target : NodeId} (licensed : watched session → turn.Follows session)
    (chosen : turn.firstTarget session (turn.taskNodes session) placement spec =
      .ok (target, next)) :
    Leads watched brought turn next ∧
      (target = turn.node.id ∨ (turn.cluster.find? target).isSome) := by
  cases placement with
  | pinned =>
      cases chosen
      exact ⟨.refl turn, .inl rfl⟩
  | balanced =>
      obtain ⟨found, picked, equal⟩ := Result.map_eq_ok.1 chosen
      cases equal
      refine ⟨.step (.seek licensed (.inr ⟨_, _, _, picked⟩)), .inr ?_⟩
      obtain ⟨member, inside, same⟩ := Balancer.isAmong_of_pick picked
      rw [Cluster.isSome_find?, ← same]
      exact List.mem_map_of_mem (List.mem_of_mem_filter inside)

/-- The first nodes of the jobs of a task are found one after another. -/
theorem leads_assign {session : SessionId} {candidates : List Member}
    (same : candidates = turn.taskNodes session)
    (licensed : watched session → turn.Follows session) (placement : Placement)
    (jobs : List JobSpec) :
    Leads watched brought turn (assign session candidates placement jobs turn).2 ∧
      ∀ assignments, (assign session candidates placement jobs turn).1 = .ok assignments →
        ∀ assignment ∈ assignments, assignment.transfer.session = session ∧
          (assignment.target = turn.node.id ∨ (turn.cluster.find? assignment.target).isSome) := by
  induction jobs generalizing turn with
  | nil =>
      refine ⟨.refl turn, ?_⟩
      intro assignments equal
      cases equal
      exact fun _ none => absurd none List.not_mem_nil
  | cons spec rest ih =>
      cases chosen : turn.firstTarget session candidates placement spec with
      | error failure =>
          simp only [assign, chosen]
          cases placement with
          | pinned => cases chosen
          | balanced =>
              refine ⟨.step (.seekInVain licensed), ?_⟩
              intro assignments equal
              cases equal
      | ok found =>
          obtain ⟨target, picked⟩ := found
          obtain ⟨balancer, drawn, rfl⟩ := picks_of_firstTarget chosen
          obtain ⟨first, there⟩ := leads_firstTarget licensed (same ▸ chosen)
          -- Picks change neither members nor restrictions, so the candidates stay the same.
          have still : candidates = (turn.update fun node =>
              { node with balancer, drawn }).taskNodes session := same
          obtain ⟨others, own⟩ := ih still licensed
          simp only [assign, chosen]
          refine ⟨first.trans others, ?_⟩
          intro assignments equal
          obtain ⟨tail, made, rfl⟩ := Result.map_eq_ok.1 equal
          rw [List.forall_mem_cons]
          exact ⟨⟨rfl, there⟩, own tail made⟩

/-- A task that is accepted is followed; nothing is placed yet. -/
theorem leads_accept (turn : Turn) {session : SessionId} (free : ¬ watched session)
    (jobs : List JobSpec) (placement : Placement) :
    Leads watched brought turn (turn.accept session jobs placement).2 := by
  have sought : Leads watched brought turn
      (assign session (turn.taskNodes session) placement jobs turn).2 ∧ _ :=
    leads_assign rfl (fun watches => absurd watches free) placement jobs
  simp only [accept]
  split
  · exact .refl turn
  · cases assigned : assign session (turn.taskNodes session) placement jobs turn with
    | mk found last =>
        have picks := picks_assign session (turn.taskNodes session) placement jobs turn
        rw [assigned] at sought picks
        obtain ⟨_, _, rfl⟩ := picks
        cases found with
        | error failure => exact sought.1
        | ok assignments => exact sought.1.trans (.step (.follow free (sought.2 _ rfl)))

/-- The jobs of a submission are placed without asking whether the task still goes on. -/
theorem leads_placeAll (turn : Turn) {assignments : List Assignment}
    (free : ∀ assignment ∈ assignments, ¬ watched assignment.transfer.session) :
    Leads watched brought turn (turn.placeAll assignments) :=
  leads_forEach _ (fun turn assignment member => leads_place turn assignment.transfer _
    fun watches => absurd watches (free assignment member)) turn

theorem leads_conclude (turn : Turn) (session : SessionId) (count : Nat) :
    Leads watched brought turn (turn.conclude session count) := by
  have mapped : Leads watched brought turn (turn.mapped session) :=
    .rest (quiet_mapped turn session)
  simp only [conclude]
  split
  · exact mapped.trans (leads_finish _ _ _)
  · exact mapped

theorem leads_submit (turn : Turn) {session : SessionId} (free : ¬ watched session)
    (jobs : List JobSpec) (placement : Placement) :
    Leads watched brought turn (turn.submit session jobs placement).2 := by
  have begun : Leads watched brought turn (turn.accept session jobs placement).2 :=
    leads_accept turn free jobs placement
  cases accepted : turn.accept session jobs placement with
  | mk found next =>
      rw [accepted] at begun
      cases found with
      | error failure =>
          simp only [submit, accepted]
          exact begun
      | ok pair =>
          have own := session_of_accept accepted
          have placed := begun.trans (leads_placeAll next
            fun assignment member => (own assignment member).symm ▸ free)
          simp only [submit, accepted]
          split
          · exact placed
          · exact placed.trans (leads_conclude _ _ _)

end Turn

end JobGrid
