import JobGrid.Proofs.Grid.Place

/-!
# Handlers that lose no job

No turn of a node loses a job, as long as no rule breaks in it: neither reading a message,
looking through the jobs, completing an execution, learning of a change in the grid, publishing
metrics, nor submitting a task.
-/

namespace JobGrid

namespace Turn

variable {owner : Owners} {rest : Bystanders} {hand kept : Hand} {turn next : Turn}

/-- The turn after the node read an event of the log. -/
def read (turn : Turn) : Turn :=
  turn.update fun node => { node with position := turn.node.position + 1 }

/-- Asking for a look through the jobs does not matter. -/
theorem safeUnless_lookNext (safe : turn.SafeUnless owner rest hand) :
    (if turn.fault?.isSome then turn else turn.requestCollision).SafeUnless owner rest hand := by
  split
  · exact safe
  · exact safe

namespace Safe

/-- A job that the queue takes is not lost. -/
theorem hold (hand : Hand) (transfer : JobTransfer) {jobs : List JobId}
    (safe : turn.Safe owner rest { hand with jobs := transfer.spec.id :: jobs })
    (genuine : transfer.Genuine owner) (held : turn.hold transfer = .ok next) :
    next.Safe owner rest { hand with jobs } := by
  obtain ⟨accepts, rfl⟩ := Turn.hold_eq_ok.1 held
  have added := Stocked.jobs_add turn.node.queue ⟨transfer.spec.id, turn.node.store.next⟩ accepts
  have stocked := safe.sound_self.stocked.add (transfer.toHandle turn.now) accepts genuine
  refine safe.revise rfl rfl rfl ⟨stocked, safe.sound_self.followed, safe.sound_self.claimed⟩ ?_
    rfl fun pending => pending
  intro job
  have more := List.perm_iff_count.1 added job
  simp only [List.count_cons] at more ⊢
  omega

/-- A job that arrives is queued, or its origin learns that it was refused. -/
theorem onSubmitted (transfer : JobTransfer)
    (safe : turn.Safe owner rest { jobs := [transfer.spec.id] })
    (genuine : transfer.Genuine owner) : (turn.onSubmitted transfer).SafeUnless owner rest {} := by
  apply safeUnless_lookNext
  cases held : turn.hold transfer with
  | ok taken => exact .inr (safe.hold {} transfer genuine held)
  | error refused =>
      exact safe.reportRejected {} (transfer.toHandle turn.now) genuine none

theorem onStealRequest (safe : turn.Safe owner rest hand) (sender : NodeId)
    (request : StealRequest) :
    (turn.onStealRequest sender request).SafeUnless owner rest hand := by
  simp only [Turn.onStealRequest]
  split
  · exact safe.stopWith _
  · split
    · exact .inr safe
    · exact .inr safe

/-- A letter that was taken out of the inbox is dealt with. -/
theorem onMessage (letter : Envelope)
    (safe : turn.Safe owner rest
      { jobs := (letter.message?.bind Message.brought?).toList
        answers := (letter.message?.bind Message.answered?).toList })
    (genuine : ∀ message ∈ letter.message?, message.Genuine owner turn.node.id) :
    (turn.onMessage letter).SafeUnless owner rest {} := by
  cases decoded : Message.decode letter.topic letter.payload with
  | error failure =>
      have nothing : letter.message? = none := by rw [Envelope.message?, decoded]; rfl
      rw [nothing] at safe
      simp only [Turn.onMessage, decoded]
      exact .inr safe
  | ok message =>
      have said : letter.message? = some message := by rw [Envelope.message?, decoded]; rfl
      have known := genuine message said
      rw [said] at safe
      cases message with
      | stealRequest request =>
          simp only [Turn.onMessage, decoded]
          exact safe.onStealRequest _ request
      | jobSubmit transfer =>
          simp only [Turn.onMessage, decoded]
          exact safe.onSubmitted transfer known
      | jobRejected rejected =>
          simp only [Turn.onMessage, decoded]
          exact safe.onRejected {} rejected known.1
      | jobResult result =>
          simp only [Turn.onMessage, decoded]
          exact .inr (safe.onResult {} result known)

/-- Reading a message loses no job. -/
theorem readMessage (safe : turn.Safe owner rest {}) :
    turn.readMessage.2.SafeUnless owner rest {} := by
  simp only [Turn.readMessage]
  split
  · exact .inr safe
  · rename_i letter cluster received
    obtain ⟨genuine, taken⟩ := safe.receive received
    exact taken.onMessage letter genuine

/-- The work of a started job begins, if it can. -/
theorem execute (hand : Hand) (ref : JobRef) {starting : List JobRef}
    (safe : turn.Safe owner rest { hand with starting := ref :: starting }) :
    (turn.execute ref).Safe owner rest { hand with starting } := by
  have drop : turn.Safe owner rest { hand with starting } := by
    have stocked := safe.sound_self.stocked.start [] (List.nil_sublist [ref])
    rw [List.append_nil] at stocked
    exact safe.revise rfl rfl rfl ⟨stocked, safe.sound_self.followed, safe.sound_self.claimed⟩
      (fun _ => rfl) rfl fun pending => pending
  simp only [Turn.execute]
  split
  · exact drop
  · split
    · exact drop
    · rename_i job found execution started
      obtain ⟨nanos, -, equal⟩ := Result.map_eq_ok.1 started
      have works : ([execution].map Execution.job).Sublist [ref] := by
        rw [← equal]
        exact .refl [ref]
      have stocked := safe.sound_self.stocked.start [execution] works
      exact safe.revise rfl rfl rfl ⟨stocked, safe.sound_self.followed, safe.sound_self.claimed⟩
        (fun _ => rfl) rfl fun pending => pending

/-- A job that was cancelled while it waited is answered for. -/
theorem handOff (hand : Hand) (job : QueuedJob) {jobs : List JobId} {leaving : List QueuedJob}
    (safe : turn.Safe owner rest { hand with jobs := job.id :: jobs, leaving := job :: leaving }) :
    (turn.handOff job.ref).SafeUnless owner rest { hand with jobs, leaving } := by
  obtain ⟨handle, found, id, owned⟩ := safe.sound_self.stocked.leaves job List.mem_cons_self
  have left : turn.Safe owner rest { hand with jobs := handle.id :: jobs, leaving } := by
    rw [id]
    exact safe.revise rfl rfl rfl ⟨safe.sound_self.stocked.leave, safe.sound_self.followed,
      safe.sound_self.claimed⟩ (fun _ => rfl) rfl fun pending => pending
  rw [← id] at owned
  have found : turn.node.store.get? job.ref = some handle := found
  simp only [Turn.handOff, found]
  split
  · apply Safe.reportRejected { hand with leaving } handle _ owned handle.thief
    exact left
  · exact left.reportRejected { hand with leaving } handle owned handle.thief

/-- The jobs that do not wait any more are started or answered for. -/
theorem settle (safe : turn.Safe owner rest {}) : turn.settle.SafeUnless owner rest {} := by
  have stocked := safe.sound_self.stocked
  have moved := Stocked.jobs_settle stocked
  have emptied : (turn.update fun node => { node with
      queue := node.queue.settle node.store
      tracker := node.tracker.recordCancelled
        (turn.node.queue.settled turn.node.store).cancelled.length }).Safe owner rest
      { jobs := (turn.node.queue.settled turn.node.store).cancelled.map QueuedJob.id
        leaving := (turn.node.queue.settled turn.node.store).cancelled
        starting := (turn.node.queue.settled turn.node.store).activated.map QueuedJob.ref } := by
    refine safe.revise rfl rfl rfl ⟨Stocked.settle stocked, safe.sound_self.followed,
      safe.sound_self.claimed⟩ ?_ rfl fun pending => pending
    intro job
    have same := List.perm_iff_count.1 moved job
    rw [List.count_append] at same
    exact same
  simp only [Turn.settle]
  refine safeUnless_forEach (fun started => { starting := started.map QueuedJob.ref })
    (fun _ => True) (fun _ safe => .inr (safe.execute {} _)) (fun _ _ => trivial) ?_
  refine safeUnless_forEach
    (fun cancelled => {
      jobs := cancelled.map QueuedJob.id
      leaving := cancelled
      starting := (turn.node.queue.settled turn.node.store).activated.map QueuedJob.ref })
    (fun _ => True) ?_ (fun _ _ => trivial) (.inr emptied)
  intro reached job later _ safe
  exact safe.handOff
    { starting := (turn.node.queue.settled turn.node.store).activated.map QueuedJob.ref } job

/-- Requests for work are sent. -/
theorem sendRequests (safe : turn.Safe owner rest hand) (requests : List SentRequest) :
    (turn.sendRequests requests).Safe owner rest hand := by
  induction requests generalizing turn with
  | nil => exact safe
  | cons request later ih =>
      rw [Turn.sendRequests, List.foldl_cons]
      apply ih
      cases sent : turn.send request.peer (.stealRequest ⟨request.jobs⟩) with
      | error refused =>
          simp only [trySend, sent]
          exact safe
      | ok next =>
          simp only [trySend, sent]
          exact safe.request sent

/-- A look through the jobs loses none of them. -/
theorem collide (safe : turn.Safe owner rest {}) : turn.collide.SafeUnless owner rest {} := by
  have grows : turn.node.store.Extends turn.pass.store :=
    Resolver.extends_collide turn.node.resolver _ _ _ _ _
  have passed : (turn.update fun node => { node with
      resolver := turn.pass.resolver
      store := turn.pass.store
      attention := node.attention.take }).Safe owner rest {} :=
    safe.revise rfl rfl rfl ⟨safe.sound_self.stocked.extend grows, safe.sound_self.followed,
      safe.sound_self.claimed⟩ (fun _ => rfl) rfl fun pending => pending
  have requested := passed.sendRequests turn.pass.requests
  simp only [Turn.collide]
  split
  · exact requested.stopWith _
  · exact requested.settle

/-- A job whose execution is over is answered for. -/
theorem complete {execution : Execution} (safe : turn.Safe owner rest {})
    (working : execution ∈ turn.node.executions) (clock : Moment.HasInstant turn.now) :
    (turn.complete execution).SafeUnless owner rest {} := by
  have stocked := safe.sound_self.stocked
  obtain ⟨handle, found, active, owned⟩ := Stocked.active_of_execution stocked working
  have left : ∀ job, turn.node.queue.jobs.count job =
      (handle.id :: (turn.node.queue.complete handle.id).jobs).count job :=
    List.perm_iff_count.1 (Stocked.jobs_complete active)
  have completed := Stocked.complete stocked working active
  have found : turn.node.store.get? execution.job = some handle := found
  simp only [Turn.complete, found]
  apply safeUnless_lookNext
  refine .inr (Safe.reportResult {} (execution.report handle) ?_ owned clock)
  refine safe.revise rfl rfl rfl ⟨completed, safe.sound_self.followed, safe.sound_self.claimed⟩ ?_
    rfl fun pending => pending
  intro job
  show (turn.node.queue.complete handle.id).jobs.count job + [handle.id].count job =
    turn.node.queue.jobs.count job + 0
  rw [left, List.count_cons, List.count_cons, List.count_nil]
  omega

/-- The inboxes stay as they are while the log grows. -/
theorem publish {cluster : Cluster} {member : Member} (safe : turn.Safe owner rest hand)
    (inboxes : cluster.inboxes = turn.cluster.inboxes)
    (mailboxes : cluster.mailboxes = turn.cluster.mailboxes)
    (found : ∀ node, (cluster.find? node).isSome = (turn.cluster.find? node).isSome)
    (events : cluster.events = (turn.cluster.publish .metricsUpdated member).events) :
    ({ turn with cluster } : Turn).Safe owner rest hand := by
  have longer : turn.cluster.events.size ≤ cluster.events.size := by
    rw [events, Cluster.publish, Array.size_push]
    exact Nat.le_succ _
  have mail : ∀ node, ({ turn with cluster } : Turn).mail rest node = turn.mail rest node := by
    intro node
    simp only [mail, Cluster.messages, Cluster.mailbox, mailboxes]
  have wires : Grid.SameWires (turn.grid rest hand)
      (({ turn with cluster } : Turn).grid rest hand) := by
    refine rewires safe.wired hand rfl rfl rfl rfl inboxes (by rw [mailboxes]) found ?_ longer
      (Nat.le_trans (safe.wired.read (node?_self turn rest hand)) longer)
    intro node event inside departs
    rw [events, Cluster.mem_publish] at inside
    rcases inside with earlier | rfl
    · exact earlier
    · cases departs.1
  refine safe.build rfl rfl rfl (wires.wired safe.wired) ?_ safe.sound_self ?_
  · intro node message inside
    rw [mail] at inside
    exact safe.honest_mail node message inside
  · refine safe.balanced.relax ⟨rfl, ?_, ?_, fun _ => Nat.le_refl _, ?_, id⟩ ?_ ?_ id ?_
    · intro node
      simp only [Grid.ledger, grid, inboxes]
    · rintro origin node ⟨work, there, told⟩
      refine ⟨work, there, ?_⟩
      rw [Cluster.Tells, grid, events]
      exact Cluster.tells_publish told
    · intro whole
      refine Cluster.Whole.of_subset whole fun event inside => ?_
      rw [grid, events, Cluster.mem_publish]
      exact .inl inside
    · intro node job
      rw [held_grid, held_grid, mail]
    · intro node job
      rw [answers_grid, answers_grid, mail]
      exact Nat.le_refl _
    · intro origin job node _ _
      rw [answers_grid, answers_grid, mail]
      rfl

/-- Publishing metrics touches no job. -/
theorem publishMetrics (safe : turn.Safe owner rest {}) :
    turn.publishMetrics.SafeUnless owner rest {} := by
  simp only [Turn.publishMetrics]
  refine .inr ?_
  split
  · rename_i cluster updated
    obtain ⟨inboxes, mailboxes, found, member, events⟩ := Cluster.publish_of_updateMetrics updated
    exact safe.publish inboxes mailboxes found events
  · exact safe

/-- Reading an event takes note of the departure that it tells, if any. -/
theorem awaits_read {event : DiscoveryEvent} {origin gone : NodeId}
    (found : turn.cluster.events[turn.node.position]? = some event)
    (waits : (turn.grid rest hand).ledger.awaits origin gone) :
    (turn.read.grid rest kept).ledger.awaits origin gone ∨
      origin = turn.node.id ∧ event.Departs gone := by
  obtain ⟨work, there, told⟩ := waits
  by_cases own : origin = turn.node.id
  · subst own
    rw [node?_self, Option.some.injEq] at there
    subst there
    rcases Cluster.tells_succ found told with still | departs
    · exact .inl ⟨turn.read.node.work, node?_self turn.read rest kept, still⟩
    · exact .inr ⟨rfl, departs⟩
  · simp only [grid, own, if_false] at there
    exact .inl ⟨work, by simp only [grid, read, update, own, if_false, there], told⟩

theorem wired_read {event : DiscoveryEvent} (safe : turn.Safe owner rest hand) (kept : Hand)
    (found : turn.cluster.events[turn.node.position]? = some event) :
    (turn.read.grid rest kept).Wired := by
  obtain ⟨bound, -⟩ := Array.getElem?_eq_some_iff.1 found
  have wires : Grid.SameWires (turn.grid rest hand) (turn.read.grid rest kept) :=
    rewires safe.wired kept rfl rfl rfl rfl rfl rfl (fun _ => rfl) (fun _ _ member _ => member)
      (Nat.le_refl _) bound
  exact wires.wired safe.wired

/-- The node reads an event that tells of no departure. -/
theorem skip {event : DiscoveryEvent} (safe : turn.Safe owner rest hand)
    (found : turn.cluster.events[turn.node.position]? = some event)
    (stays : ∀ node, ¬ event.Departs node) : turn.read.Safe owner rest hand := by
  have sound : turn.read.node.work.Sound owner hand :=
    ⟨safe.sound_self.stocked, safe.sound_self.followed, safe.sound_self.claimed⟩
  refine safe.build rfl rfl rfl (safe.wired_read hand found) safe.honest_mail sound ?_
  refine safe.balanced.relax ⟨rfl, Iff.rfl, ?_, fun _ => Nat.le_refl _, fun whole => whole, id⟩
    ?_ ?_ ?_ ?_
  · intro origin node waits
    rcases awaits_read found waits with still | ⟨-, departs⟩
    · exact still
    · exact absurd departs (stays node)
  · intro node job
    rw [held_grid, held_grid]
    rfl
  · intro node job
    rw [answers_grid, answers_grid]
    exact Nat.le_refl _
  · intro origin job node pending
    have same : turn.read.node.id = turn.node.id := rfl
    exact pends_of_less turn hand same (fun waits => waits) pending
  · intro origin job node _ _
    rw [answers_grid, answers_grid]
    rfl

/-- The node reads that another one departed, and has the answers for the jobs it lost. -/
theorem learn {event : DiscoveryEvent} {gone : NodeId} (lost : List JobId)
    (safe : turn.Safe owner rest {})
    (found : turn.cluster.events[turn.node.position]? = some event) (departs : event.Departs gone)
    (claimed : ∀ job ∈ lost, (owner job).map Prod.fst = some turn.node.id)
    (covers : gone ≠ turn.node.id → ∀ job, turn.node.work.Pends job gone → job ∈ lost) :
    turn.read.Safe owner rest { answers := lost } := by
  have member : event ∈ turn.cluster.events := Array.mem_of_getElem? found
  have sound : turn.read.node.work.Sound owner { answers := lost } :=
    ⟨safe.sound_self.stocked, safe.sound_self.followed, claimed⟩
  refine safe.build rfl rfl rfl (safe.wired_read _ found) safe.honest_mail sound ?_
  refine safe.balanced.learn turn.node.id gone lost rfl Iff.rfl ?_ id ?_ ?_ ?_ ?_ ?_
  · exact fun whole => whole gone event member departs
  · intro origin node waits
    rcases awaits_read found waits with still | ⟨own, also⟩
    · exact .inl still
    · exact .inr ⟨own, also.2.symm.trans departs.2⟩
  · intro node job
    rw [held_grid, held_grid]
    rfl
  · intro node job
    rw [answers_grid, answers_grid, List.count_nil, ite_self, Nat.add_zero]
    rfl
  · intro origin job node pending
    have same : turn.read.node.id = turn.node.id := rfl
    exact pends_of_less turn {} same (fun waits => waits) pending
  · intro job live pending
    refine covers ?_ job (pends_self.1 pending)
    rintro rfl
    have departed := (safe.wired.departed event member departs).2
    have live : turn.cluster.inboxes.contains turn.node.id = true := live
    rw [show (turn.grid rest {}).cluster = turn.cluster from rfl, live] at departed
    cases departed

end Safe

theorem mem_jobsOn {node : NodeId} {job : JobTransfer} :
    job ∈ turn.jobsOn node ↔ ∃ session id placed, Awaiting turn.node.tasks session id placed ∧
      placed.node = node ∧ placed.transfer = job := by
  simp only [jobsOn, List.mem_flatMap, List.mem_filterMap, Table.mem_values_iff]
  constructor
  · rintro ⟨task, ⟨session, found⟩, placed, ⟨id, pending⟩, chosen⟩
    split at chosen
    · rename_i there
      exact ⟨session, id, placed, ⟨task, found, pending⟩, there, Option.some.inj chosen⟩
    · cases chosen
  · rintro ⟨session, id, placed, ⟨task, found, pending⟩, there, rfl⟩
    exact ⟨task, ⟨session, found⟩, placed, ⟨id, pending⟩, if_pos there⟩

namespace Safe

/-- A node that read of a change in the grid and has the answers for the jobs that it lost
places them again. -/
theorem onEvent {event : DiscoveryEvent} (lost : List JobTransfer)
    (safe : turn.Safe owner rest { answers := lost.map fun job => job.spec.id })
    (genuine : ∀ job ∈ lost, job.Genuine owner)
    (all : lost = if event.kind.isDeparture ∧ event.member.id ≠ turn.node.id then
      turn.node.chance.lost.arrange (turn.jobsOn event.member.id) else []) :
    (turn.onEvent event).SafeUnless owner rest {} := by
  cases noted : turn.node.resolver.onEvent turn.node.id event with
  | error fault =>
      simp only [Turn.onEvent, noted]
      exact safe.stopWith fault
  | ok resolver =>
      simp only [Turn.onEvent, noted]
      apply safeUnless_lookNext
      split
      · rename_i departs
        rw [if_pos departs] at all
        apply Safe.reroute lost
        · exact safe
        · exact all.symm
        · exact genuine
      · rename_i stays
        rw [if_neg stays] at all
        subst all
        exact .inr safe

/-- Reading an event loses no job. -/
theorem readEvent (safe : turn.Safe owner rest {})
    (current : turn.cluster.resume turn.node.position = turn.node.position) :
    turn.readEvent.2.SafeUnless owner rest {} := by
  simp only [Turn.readEvent, current]
  split
  · exact .inr safe
  · rename_i event found
    have followed : Followed owner turn.node.id turn.node.tasks := safe.sound_self.followed
    have known : ∀ job ∈ turn.jobsOn event.member.id,
        job.Genuine owner ∧ (owner job.spec.id).map Prod.fst = some turn.node.id := by
      intro job member
      obtain ⟨session, id, placed, waits, -, rfl⟩ := mem_jobsOn.1 member
      obtain ⟨rfl, rfl, own, owned⟩ := followed session id placed waits
      exact ⟨by rw [JobTransfer.Genuine, owned, own], by rw [owned]; rfl⟩
    by_cases departs : event.kind.isDeparture = true
    · by_cases other : event.member.id ≠ turn.node.id
      · have lost := turn.node.chance.lost.perm (turn.jobsOn event.member.id)
        refine (safe.learn _ found ⟨departs, rfl⟩ ?_ ?_).onEvent
          (turn.node.chance.lost.arrange (turn.jobsOn event.member.id))
          (fun job member => (known job (lost.subset member)).1) (if_pos ⟨departs, other⟩).symm
        · intro id member
          obtain ⟨job, inside, rfl⟩ := List.mem_map.1 member
          exact (known job (lost.subset inside)).2
        · rintro - id ⟨session, placed, waits, there⟩
          obtain ⟨rfl, -⟩ := followed session id placed waits
          exact List.mem_map_of_mem
            (lost.symm.subset (mem_jobsOn.2 ⟨session, _, placed, waits, there, rfl⟩))
      · have none : ∀ job ∈ ([] : List JobId), (owner job).map Prod.fst = some turn.node.id :=
          fun _ member => absurd member List.not_mem_nil
        have read := safe.learn [] found ⟨departs, rfl⟩ none fun differs => absurd differs other
        exact read.onEvent [] (fun _ member => absurd member List.not_mem_nil)
          (if_neg fun both => other both.2).symm
    · have read := safe.skip found fun node gone => departs gone.1
      exact read.onEvent [] (fun _ member => absurd member List.not_mem_nil)
        (if_neg fun both => departs both.1).symm

/-- More jobs may have been submitted than are there. -/
theorem submitted (safe : turn.Safe owner rest hand) (jobs : List JobId) :
    turn.Safe owner { rest with submitted := rest.submitted ++ jobs } hand := by
  have wires : Grid.SameWires (turn.grid rest hand)
      (turn.grid { rest with submitted := rest.submitted ++ jobs } hand) :=
    sameWires safe.wired hand rfl rfl rfl rfl rfl (.refl _)
  refine safe.build rfl rfl rfl (wires.wired safe.wired) safe.honest_mail safe.sound_self ?_
  refine safe.balanced.relax ⟨rfl, Iff.rfl, fun waits => waits, ?_, fun whole => whole, id⟩
    (fun _ _ => rfl) (fun _ _ => Nat.le_refl _) (fun pending => pending) fun _ _ => rfl
  intro job
  simp only [Grid.ledger, grid, List.count_append]
  exact Nat.le_add_right _ _

/-- A submission loses no job of the task, whether it is accepted or not. -/
theorem submit {session : SessionId} {jobs : List JobSpec} (safe : turn.Safe owner rest {})
    (placement : Placement)
    (owned : ∀ spec ∈ jobs, owner spec.id = some (turn.node.id, session)) :
    (turn.submit session jobs placement).2.SafeUnless owner
      { rest with submitted := rest.submitted ++ jobs.map JobSpec.id } {} := by
  cases accepted : turn.accept session jobs placement with
  | mk found next =>
      cases found with
      | error failure =>
          simp only [Turn.submit, accepted]
          exact .inr ((safe.picks (picks_of_accept accepted)).submitted _)
      | ok pair =>
          obtain ⟨ticket, assignments⟩ := pair
          obtain ⟨picked, picks, rfl, transfers⟩ := accepted_of_accept accepted
          have same : picked.node.id = turn.node.id := by
            obtain ⟨_, _, rfl⟩ := picks
            rfl
          have genuine : ∀ assignment ∈ assignments, assignment.transfer.Genuine owner ∧
              assignment.transfer.session = session ∧
                assignment.transfer.origin = picked.node.id := by
            intro assignment member
            have known := List.mem_map_of_mem (f := Assignment.transfer) member
            rw [transfers] at known
            obtain ⟨spec, inside, equal⟩ := List.mem_map.1 known
            rw [← equal, same]
            exact ⟨owned spec inside, rfl, rfl⟩
          have ids : assignments.map (fun assignment => assignment.transfer.spec.id) =
              jobs.map JobSpec.id := by
            have equal := congrArg (List.map fun transfer => transfer.spec.id) transfers
            rw [List.map_map, List.map_map] at equal
            exact equal
          have tracked := (safe.picks picks).track genuine
          have placed := tracked.placeAll fun assignment member => (genuine assignment member).1
          rw [ids] at placed
          simp only [Turn.submit, accepted]
          split
          · exact placed
          · rename_i unbroken
            have safe := placed.safe unbroken
            simp only [conclude]
            split
            · apply Or.inr
              apply Safe.finish
              exact safe
            · exact .inr safe

end Safe

end Turn

end JobGrid
