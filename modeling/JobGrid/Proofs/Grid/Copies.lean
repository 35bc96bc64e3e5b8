import JobGrid.Proofs.Grid.Books
import JobGrid.Proofs.Grid.Log
import JobGrid.Proofs.Grid.Stock
import JobGrid.Proofs.Node.Course
import JobGrid.Proofs.Time.Timestamp
import JobGrid.World

/-!
# Copies of jobs and what they say

This module follows the copies of jobs through the turns of a node: the jobs in its queue, the
messages in all inboxes, and the results that were entered. Every copy says how often its job was
stolen. Apart from a pass over the jobs, no turn makes this up: what the copies say after a turn
was said before, by a job in the queue, by the message that was read, or by an execution.
-/

namespace JobGrid

/-! ## Jobs in queues -/

/-- A reference leads to the handle of a job, and what the handle says of the job fits. -/
def JobStore.Says (store : JobStore) (fits : JobId → UInt32 → Prop) (job : JobId) (ref : JobRef) :
    Prop :=
  ∃ handle, store.get? ref = some handle ∧ handle.id = job ∧ fits job handle.stealingAttempts

/-- A handle that is added leaves the others alone. -/
theorem JobStore.get?_push_of_some {store : JobStore} {ref : JobRef} {handle : JobHandle}
    (found : store.get? ref = some handle) (added : JobHandle) :
    (store.push added).get? ref = some handle := by
  rw [get?_push, if_neg (Nat.ne_of_lt (lt_next_of_get? found)), found]

namespace JobQueue

/-- A job waits or is active in the queue, with the handle behind a reference. -/
def Lists (queue : JobQueue) (job : JobId) (ref : JobRef) : Prop :=
  ⟨job, ref⟩ ∈ queue.waiting ∨ queue.active.get? job = some ref

variable {queue : JobQueue} {store : JobStore} {job : JobId} {ref : JobRef}

theorem Lists.mem_jobs (lists : queue.Lists job ref) : job ∈ queue.jobs := by
  rcases lists with waits | runs
  · exact List.mem_append_left _ (List.mem_map_of_mem (f := QueuedJob.id) waits)
  · exact List.mem_append_right _ (Table.mem_keys_iff.2 ⟨ref, runs⟩)

/-- If no job is in the queue twice, there is one handle for each. -/
theorem Lists.unique {other : JobRef} (distinct : queue.jobs.Nodup) (lists : queue.Lists job ref)
    (again : queue.Lists job other) : ref = other := by
  obtain ⟨waiting, -, apart⟩ := List.nodup_append.1 distinct
  have never : ∀ {ref another}, ⟨job, ref⟩ ∈ queue.waiting →
      queue.active.get? job ≠ some another := fun waits runs =>
    apart job (List.mem_map_of_mem (f := QueuedJob.id) waits) job
      (Table.mem_keys_iff.2 ⟨_, runs⟩) rfl
  rcases lists with waits | runs
  · rcases again with waits' | runs'
    · exact congrArg QueuedJob.ref (List.inj_on_of_nodup_map waiting waits waits' rfl)
    · exact absurd runs' (never waits)
  · rcases again with waits' | runs'
    · exact absurd runs (never waits')
    · exact Option.some.inj (runs.symm.trans runs')

theorem lists_of_get? (found : queue.get? job = some ref) : queue.Lists job ref := by
  rw [JobQueue.get?] at found
  split at found
  · rename_i other active
    cases found
    exact .inr active
  · obtain ⟨queued, waits, rfl⟩ := Option.map_eq_some_iff.1 found
    have same : queued.id = job := by simpa using List.find?_some waits
    exact .inl (same ▸ List.mem_of_find?_eq_some waits)

theorem lists_add (new : QueuedJob) (accepts : queue.accepts new.id = true)
    (lists : (queue.add new).2.Lists job ref) :
    queue.Lists job ref ∨ (⟨job, ref⟩ : QueuedJob) = new := by
  rw [(add_of_accepts new accepts).1] at lists
  rcases lists with waits | runs
  · rcases List.mem_append.1 waits with earlier | added
    · exact .inl (.inl earlier)
    · exact .inr (List.mem_singleton.1 added)
  · exact .inl (.inr runs)

/-- Settling moves jobs within the queue, or out of it. -/
theorem lists_settle (lists : (queue.settle store).Lists job ref) : queue.Lists job ref := by
  rcases lists with waits | runs
  · exact .inl (List.mem_of_mem_filter waits)
  · have general : ∀ (jobs : List QueuedJob) (active : Table JobId JobRef),
        (jobs.foldl (fun active job => active.insert job.id job.ref) active).get? job = some ref →
          ⟨job, ref⟩ ∈ jobs ∨ active.get? job = some ref := by
      intro jobs
      induction jobs with
      | nil => exact fun active found => .inr found
      | cons first rest ih =>
          intro active found
          rcases ih _ found with later | earlier
          · exact .inl (List.mem_cons_of_mem first later)
          · rw [Table.get?_insert] at earlier
            split at earlier
            · rename_i same
              cases earlier
              exact .inl (same ▸ List.mem_cons_self)
            · exact .inr earlier
    exact (general _ _ runs).imp_left List.mem_of_mem_filter

theorem lists_complete {ended : JobId} (lists : (queue.complete ended).Lists job ref) :
    queue.Lists job ref := by
  refine lists.imp_right fun runs => ?_
  rw [complete, Table.get?_erase] at runs
  split at runs
  · cases runs
  · exact runs

end JobQueue

/-- The references of the jobs in a queue lead to the handles of these jobs. -/
theorem Stocked.names {owner : Owners} {leaving : List QueuedJob} {starting : List JobRef}
    {queue : JobQueue} {store : JobStore} {executions : List Execution} {job : JobId}
    {ref : JobRef} (stocked : Stocked owner leaving starting queue store executions)
    (lists : queue.Lists job ref) : store.Names owner ref job :=
  lists.elim (stocked.waits _) stocked.runs

/-! ## What messages say -/

namespace Message

/-- How often the job of a message was stolen, as the message says. -/
def stealing? : Message → Option (JobId × UInt32)
  | stealRequest _ => none
  | jobSubmit transfer => some (transfer.spec.id, transfer.stealingAttempts)
  | jobRejected rejected => some (rejected.job.spec.id, rejected.job.stealingAttempts)
  | jobResult result => some (result.job, result.stealingAttempts)

/-- The job of a message. -/
def job? (message : Message) : Option JobId := message.stealing?.map Prod.fst

/-- A message about a job either brings it or is an answer for it. -/
theorem count_jobs (messages : List Message) (job : JobId) :
    (messages.filterMap job?).count job =
      (messages.filterMap brought?).count job + (messages.filterMap answered?).count job := by
  induction messages with
  | nil => rfl
  | cons message rest ih =>
      cases message with
      | stealRequest request => exact ih
      | jobSubmit transfer =>
          have whole : (jobSubmit transfer).job? = some transfer.spec.id := rfl
          have brings : (jobSubmit transfer).brought? = some transfer.spec.id := rfl
          have answers : (jobSubmit transfer).answered? = none := rfl
          rw [List.filterMap_cons_some whole, List.filterMap_cons_some brings,
            List.filterMap_cons_none answers, List.count_cons, List.count_cons, ih]
          omega
      | jobRejected rejected =>
          have whole : (jobRejected rejected).job? = some rejected.job.spec.id := rfl
          have brings : (jobRejected rejected).brought? = none := rfl
          have answers : (jobRejected rejected).answered? = some rejected.job.spec.id := rfl
          rw [List.filterMap_cons_some whole, List.filterMap_cons_none brings,
            List.filterMap_cons_some answers, List.count_cons, List.count_cons, ih]
          omega
      | jobResult result =>
          have whole : (jobResult result).job? = some result.job := rfl
          have brings : (jobResult result).brought? = none := rfl
          have answers : (jobResult result).answered? = some result.job := rfl
          rw [List.filterMap_cons_some whole, List.filterMap_cons_none brings,
            List.filterMap_cons_some answers, List.count_cons, List.count_cons, ih]
          omega

/-- What a message says of its job fits. -/
def Fits (fits : JobId → UInt32 → Prop) (message : Message) : Prop :=
  ∀ job attempts, message.stealing? = some (job, attempts) → fits job attempts

theorem fits_of_stealing? {fits : JobId → UInt32 → Prop} {message : Message} {job : JobId}
    {attempts : UInt32} (claims : message.stealing? = some (job, attempts))
    (fit : fits job attempts) : message.Fits fits := by
  intro other count same
  rw [claims, Option.some.injEq, Prod.mk.injEq] at same
  exact same.1 ▸ same.2 ▸ fit

end Message

/-- The results that a notice tells. -/
def Notice.results : Notice → List JobResult
  | finished _ outcome => outcome.results
  | dropped _ _ => []

/-- A message that is sent is the only one that comes into any inbox. -/
theorem Cluster.mem_messages_of_send {cluster next : Cluster} {sender receiver : NodeId}
    {message : Message} (readable : message.Readable)
    (sent : cluster.send sender receiver message.topic message.encode = .ok next)
    {ref : MailboxRef} {found : Message} (member : found ∈ next.messages ref) :
    found ∈ cluster.messages ref ∨ found = message := by
  have gains : next.inboxes = cluster.inboxes ∧ cluster.Gains next
      fun _ letter => letter.message? = some message :=
    Cluster.Gains.of_send sent fun _ _ => Envelope.message?_encode readable sender
  obtain ⟨new, letters, each⟩ := gains.2 ref
  rw [messages, letters, List.filterMap_append, List.mem_append] at member
  refine member.imp_right fun late => ?_
  obtain ⟨letter, inside, read⟩ := List.mem_filterMap.1 late
  rw [each letter inside, Option.some.injEq] at read
  exact read.symm

/-! ## What a turn carries -/

/-- What may be said of jobs during a turn, and what the turn may rely on. -/
structure Manifest where
  /-- What may be said of jobs in queues and in inboxes. -/
  fits : JobId → UInt32 → Prop
  /-- What may be said of jobs in results that were entered. -/
  told : JobId → UInt32 → Prop
  /-- What may be said of pending jobs in the notes of their origin. -/
  noted : JobId → UInt32 → Prop
  notes : ∀ {job attempts}, fits job attempts → noted job attempts
  /-- How often a job may be stolen. -/
  limit : UInt32
  /-- The inboxes of all nodes. -/
  houses : MailboxRef → Prop
  /-- The handles that stay as they are. -/
  base : JobStore

/-- What all copies of jobs say fits the manifest. Some jobs that left the queue have yet to be
reported. -/
structure Cargo (manifest : Manifest) (leaving : List QueuedJob) (now : Moment)
    (inbox : MailboxRef) (queue : JobQueue) (store : JobStore) (tasks : Table SessionId TaskState)
    (config : StealingConfig) (cluster : Cluster) (notices : List Notice) : Prop where
  clock : Moment.HasInstant now
  housed : manifest.houses inbox
  queued : ∀ {job ref}, queue.Lists job ref → store.Says manifest.fits job ref
  leaves : ∀ job ∈ leaving, store.Says manifest.fits job.id job.ref
  kept : ∀ {ref handle}, manifest.base.get? ref = some handle → store.get? ref = some handle
  mail : ∀ {ref}, manifest.houses ref → ∀ message ∈ cluster.messages ref,
    message.Fits manifest.fits
  whole : cluster.Whole
  results : ∀ {session task}, tasks.get? session = some task → ∀ result ∈ task.results,
    manifest.told result.job result.stealingAttempts
  notices : ∀ notice ∈ notices, ∀ result ∈ notice.results,
    manifest.told result.job result.stealingAttempts
  noted : ∀ {session job placed}, Awaiting tasks session job placed →
    manifest.noted placed.transfer.spec.id placed.transfer.stealingAttempts
  stealing : config.maxStealing = manifest.limit

namespace Turn

/-- What all copies of jobs say in the middle of a turn fits the manifest. -/
def Carries (manifest : Manifest) (leaving : List QueuedJob) (turn : Turn) : Prop :=
  Cargo manifest leaving turn.now turn.node.inbox turn.node.queue turn.node.store turn.node.tasks
    turn.node.resolver.config turn.cluster turn.notices

variable {manifest : Manifest} {leaving : List QueuedJob} {turn next : Turn}

namespace Carries

theorem of_picks (carries : turn.Carries manifest leaving) (picks : Picks turn next) :
    next.Carries manifest leaving := by
  obtain ⟨balancer, drawn, rfl⟩ := picks
  exact carries

theorem lookNext (carries : turn.Carries manifest leaving) :
    (if turn.fault?.isSome then turn else turn.requestCollision).Carries manifest leaving := by
  split
  · exact carries
  · exact carries

/-- A job that the queue takes goes on to say what its transfer says. -/
theorem hold (carries : turn.Carries manifest leaving) {transfer : JobTransfer}
    (fits : manifest.fits transfer.spec.id transfer.stealingAttempts)
    (held : turn.hold transfer = .ok next) : next.Carries manifest leaving := by
  have cargo : Cargo .. := carries
  have grown : ∀ {job ref}, turn.node.store.Says manifest.fits job ref →
      (turn.node.store.push (transfer.toHandle turn.now)).Says manifest.fits job ref := by
    rintro job ref ⟨handle, found, said⟩
    exact ⟨handle, JobStore.get?_push_of_some found _, said⟩
  obtain ⟨accepts, rfl⟩ := Turn.hold_eq_ok.1 held
  refine { cargo with queued := ?_, leaves := ?_, kept := ?_ }
  · intro job ref lists
    rcases JobQueue.lists_add ⟨transfer.spec.id, turn.node.store.next⟩ accepts lists with
      earlier | new
    · exact grown (cargo.queued earlier)
    · cases new
      exact ⟨transfer.toHandle turn.now, by rw [JobStore.get?_push, if_pos rfl], rfl, fits⟩
  · exact fun job member => grown (cargo.leaves job member)
  · exact fun found => JobStore.get?_push_of_some (cargo.kept found) _

theorem send (carries : turn.Carries manifest leaving) {receiver : NodeId} {message : Message}
    (readable : message.Readable) (fits : message.Fits manifest.fits)
    (sent : turn.send receiver message = .ok next) : next.Carries manifest leaving := by
  have cargo : Cargo .. := carries
  obtain ⟨cluster, posted, rfl⟩ := Result.map_eq_ok.1 sent
  refine { cargo with mail := ?_, whole := ?_ }
  · intro ref house found member
    rcases Cluster.mem_messages_of_send readable posted member with earlier | rfl
    · exact cargo.mail house found earlier
    · exact fits
  · intro node event inside
    rw [(Cluster.sameMembers_of_send posted).2.events] at inside
    exact cargo.whole node event inside

theorem deliver (carries : turn.Carries manifest leaving) {transfer : JobTransfer}
    {target : NodeId} (fits : manifest.fits transfer.spec.id transfer.stealingAttempts)
    (delivered : turn.deliver target transfer = .ok next) : next.Carries manifest leaving := by
  cases Delivered.of_deliver delivered with
  | @here held _ took =>
      have taken : held.Carries manifest leaving := carries.hold fits took
      exact taken
  | there _ sent =>
      have readable : (Message.jobSubmit transfer).Readable := trivial
      exact carries.send readable (Message.fits_of_stealing? rfl fits) sent

/-- Noting where a job was placed enters no result. -/
theorem record (carries : turn.Carries manifest leaving) {transfer : JobTransfer}
    (fits : manifest.fits transfer.spec.id transfer.stealingAttempts) (target : NodeId) :
    (turn.record transfer target).Carries manifest leaving := by
  have cargo : Cargo .. := carries
  refine { cargo with results := ?_, noted := ?_ }
  · intro session task (found : (turn.node.tasks.modify transfer.session fun task =>
      task.assign transfer target).get? session = some task)
    rw [Table.get?_modify] at found
    split at found
    · obtain ⟨earlier, there, rfl⟩ := Option.map_eq_some_iff.1 found
      exact fun result member => cargo.results there result member
    · exact cargo.results found
  · intro session job placed waits
    rcases awaiting_assign waits with ⟨-, -, rfl⟩ | ⟨-, earlier⟩
    · exact manifest.notes fits
    · exact cargo.noted earlier

/-- The end of a task tells the results that were entered. -/
theorem finish (carries : turn.Carries manifest leaving) (session : SessionId)
    (error : Option String) : (turn.finish session error).Carries manifest leaving := by
  have cargo : Cargo .. := carries
  cases found : turn.node.tasks.get? session with
  | none =>
      simp only [Turn.finish, found]
      exact carries
  | some task =>
      simp only [Turn.finish, found]
      refine { cargo with
        results := ?_, notices := ?_, noted := fun waits => cargo.noted (awaiting_erase waits).2 }
      · intro other task (there : (turn.node.tasks.erase session).get? other = some task)
        rw [Table.get?_erase] at there
        split at there
        · cases there
        · exact cargo.results there
      · intro notice member
        rcases List.mem_append.1 member with earlier | new
        · exact cargo.notices notice earlier
        · rw [List.mem_singleton.1 new]
          exact cargo.results found

theorem onResult (carries : turn.Carries manifest leaving) (result : JobResult)
    (told : manifest.told result.job result.stealingAttempts) :
    (turn.onResult result).Carries manifest leaving := by
  have cargo : Cargo .. := carries
  cases found : turn.node.tasks.get? result.session with
  | none =>
      simp only [Turn.onResult, found]
      exact carries
  | some task =>
      simp only [Turn.onResult, found]
      split
      · have entered : (turn.update fun node => { node with
            tasks := node.tasks.insert result.session (task.enter result) }).Carries manifest
              leaving := by
          refine { cargo with
            results := ?_, noted := fun waits => cargo.noted (awaiting_enter found waits).2 }
          intro session other (there : (turn.node.tasks.insert result.session
            (task.enter result)).get? session = some other)
          rw [Table.get?_insert] at there
          split at there
          · cases there
            intro one member
            rcases List.mem_append.1 member with earlier | new
            · exact cargo.results found one earlier
            · rw [List.mem_singleton.1 new]
              exact told
          · exact cargo.results there
        split
        · exact entered.finish _ _
        · exact entered
      · exact carries

/-- Wherever a job is brought in the end, it says the same on the way. -/
theorem placeWithin (carries : turn.Carries manifest leaving) (maxAttempts : UInt32)
    {transfer : JobTransfer} (target : NodeId)
    (fits : manifest.fits transfer.spec.id transfer.stealingAttempts) :
    (turn.placeWithin maxAttempts transfer target).Carries manifest leaving := by
  fun_induction Turn.placeWithin maxAttempts turn transfer target with
  | case1 turn transfer target delivered arrived =>
      exact (carries.deliver fits arrived).record fits target
  | case2 turn transfer target refused _ next routed found ih =>
      exact ih (carries.of_picks (picks_of_failover found)) fits
  | case3 turn transfer target refused _ cause found => exact carries.finish _ _
  | case4 turn transfer target refused _ fault found => exact carries

theorem onRejected (carries : turn.Carries manifest leaving) (rejected : JobRejected)
    (fits : manifest.fits rejected.job.spec.id rejected.job.stealingAttempts) :
    (turn.onRejected rejected).Carries manifest leaving := by
  simp only [Turn.onRejected]
  split
  · split
    · rename_i routed found
      have again : manifest.fits (again rejected.job).spec.id
          (again rejected.job).stealingAttempts := fits
      exact (carries.of_picks (picks_of_failover found)).placeWithin _ _ again
    · exact carries.finish _ _
    · exact carries
  · exact carries

theorem report (carries : turn.Carries manifest leaving) (origin : NodeId) {message : Message}
    (readable : message.Readable) (fits : message.Fits manifest.fits) :
    (turn.report origin message).Carries manifest leaving := by
  cases sent : turn.send origin message with
  | error refused =>
      simp only [Turn.report, sent]
      exact carries
  | ok next =>
      simp only [Turn.report, sent]
      exact carries.send readable fits sent

theorem reportRejected (carries : turn.Carries manifest leaving) (job : JobHandle)
    (thief : Option NodeId) (fits : manifest.fits job.id job.stealingAttempts) :
    (turn.reportRejected job thief).Carries manifest leaving := by
  simp only [Turn.reportRejected]
  split
  · exact carries.onRejected _ fits
  · exact carries.report _ trivial (Message.fits_of_stealing? rfl fits)

/-- A result is entered at once if the node is the origin of its job, and sent otherwise. -/
theorem reportResult (carries : turn.Carries manifest leaving) (report : ExecutionReport)
    (own : report.origin = turn.node.id → manifest.told report.job report.stealingAttempts)
    (other : report.origin ≠ turn.node.id → manifest.fits report.job report.stealingAttempts) :
    (turn.reportResult report).Carries manifest leaving := by
  have cargo : Cargo .. := carries
  simp only [Turn.reportResult]
  split
  · rename_i same
    exact carries.onResult _ (own same)
  · rename_i differs
    exact carries.report _ (Moment.ofText?_text cargo.clock)
      (Message.fits_of_stealing? rfl (other differs))

theorem onSubmitted (carries : turn.Carries manifest leaving) (transfer : JobTransfer)
    (fits : manifest.fits transfer.spec.id transfer.stealingAttempts) :
    (turn.onSubmitted transfer).Carries manifest leaving := by
  apply lookNext
  cases held : turn.hold transfer with
  | ok taken => exact carries.hold fits held
  | error refused => exact carries.reportRejected (transfer.toHandle turn.now) none fits

theorem onStealRequest (carries : turn.Carries manifest leaving) (sender : NodeId)
    (request : StealRequest) : (turn.onStealRequest sender request).Carries manifest leaving := by
  have cargo : Cargo .. := carries
  simp only [Turn.onStealRequest]
  split
  · exact carries
  · rename_i noted resolver asked
    have noted : (turn.update fun node => { node with resolver }).Carries manifest leaving :=
      { cargo with
        stealing := (Stealing.config_of_onStealRequest asked).symm ▸ cargo.stealing }
    split
    · exact noted
    · exact noted

/-- What a message says may be said again, in the queue or to somebody else; a result is
entered. -/
theorem onMessage (carries : turn.Carries manifest leaving) (letter : Envelope)
    (fits : ∀ message, letter.message? = some message →
      (∀ result, message ≠ .jobResult result) → message.Fits manifest.fits)
    (told : ∀ result, letter.message? = some (.jobResult result) →
      manifest.told result.job result.stealingAttempts) :
    (turn.onMessage letter).Carries manifest leaving := by
  cases decoded : Message.decode letter.topic letter.payload with
  | error failure =>
      simp only [Turn.onMessage, decoded]
      exact carries
  | ok message =>
      have said : letter.message? = some message := by rw [Envelope.message?, decoded]; rfl
      cases message with
      | stealRequest request =>
          simp only [Turn.onMessage, decoded]
          exact carries.onStealRequest _ request
      | jobSubmit transfer =>
          simp only [Turn.onMessage, decoded]
          exact carries.onSubmitted transfer (fits _ said (fun _ same => by cases same) _ _ rfl)
      | jobRejected rejected =>
          simp only [Turn.onMessage, decoded]
          exact carries.onRejected rejected (fits _ said (fun _ same => by cases same) _ _ rfl)
      | jobResult result =>
          simp only [Turn.onMessage, decoded]
          exact carries.onResult result (told result said)

/-- A change in the grid that is no departure moves no job. -/
theorem onEvent (carries : turn.Carries manifest leaving) (event : DiscoveryEvent)
    (stays : event.kind.isDeparture = false) :
    (turn.onEvent event).Carries manifest leaving := by
  have cargo : Cargo .. := carries
  simp only [Turn.onEvent]
  split
  · exact carries
  · rename_i resolver noted
    apply lookNext
    rw [if_neg fun departs => Bool.false_ne_true (stays.symm.trans departs.1)]
    exact { cargo with stealing := (Stealing.received_of_onEvent noted).1.symm ▸ cargo.stealing }

theorem readEvent (carries : turn.Carries manifest leaving) :
    turn.readEvent.2.Carries manifest leaving := by
  have cargo : Cargo .. := carries
  simp only [Turn.readEvent]
  split
  · exact carries
  · rename_i event found
    have read : (turn.update fun node => { node with
        position := turn.cluster.resume turn.node.position + 1 }).Carries manifest leaving :=
      carries
    refine read.onEvent event (Bool.eq_false_iff.2 fun departs => ?_)
    exact cargo.whole _ event (Array.mem_of_getElem? found) ⟨departs, rfl⟩

theorem execute (carries : turn.Carries manifest leaving) (ref : JobRef) :
    (turn.execute ref).Carries manifest leaving := by
  simp only [Turn.execute]
  split
  · exact carries
  · split
    · exact carries
    · exact carries

/-- A job that left the queue is reported with what its handle says. -/
theorem handOff (carries : turn.Carries manifest leaving) {job : QueuedJob}
    (member : job ∈ leaving) : (turn.handOff job.ref).Carries manifest leaving := by
  have cargo : Cargo .. := carries
  obtain ⟨handle, found, id, fits⟩ := cargo.leaves job member
  simp only [Turn.handOff, found]
  split
  · refine reportRejected ?_ handle _ (id ▸ fits)
    exact carries
  · exact carries.reportRejected handle _ (id ▸ fits)

theorem sendRequests (carries : turn.Carries manifest leaving) (requests : List SentRequest) :
    (turn.sendRequests requests).Carries manifest leaving := by
  induction requests generalizing turn with
  | nil => exact carries
  | cons request later ih =>
      rw [Turn.sendRequests, List.foldl_cons]
      apply ih
      cases sent : turn.send request.peer (.stealRequest ⟨request.jobs⟩) with
      | error refused =>
          simp only [trySend, sent]
          exact carries
      | ok next =>
          simp only [trySend, sent]
          have readable : (Message.stealRequest ⟨request.jobs⟩).Readable := trivial
          exact carries.send readable (fun _ _ same => by cases same) sent

/-- The jobs that do not wait any more are started or reported. -/
theorem settle (carries : turn.Carries manifest []) : turn.settle.Carries manifest [] := by
  have cargo : Cargo .. := carries
  let leaving := (turn.node.queue.settled turn.node.store).cancelled
  have emptied : (turn.update fun node => { node with
      queue := node.queue.settle node.store
      tracker := node.tracker.recordCancelled leaving.length }).Carries manifest leaving :=
    { cargo with
      queued := fun lists => cargo.queued (JobQueue.lists_settle lists)
      leaves := fun job member => cargo.queued (.inl (List.mem_of_mem_filter member)) }
  have settled : turn.settle.Carries manifest leaving :=
    keeps_forEach _ (fun turn job carries => carries.execute job.ref) _
      (keeps_forEach_of_mem _ leaving (fun turn job member carries => carries.handOff member)
        emptied)
  have ended : Cargo .. := settled
  exact { ended with leaves := fun _ member => absurd member List.not_mem_nil }

/-- What the handles say after a pass over the jobs is said again of those that are given away. -/
theorem collide (carries : (turn.update fun node => { node with
      resolver := turn.pass.resolver
      store := turn.pass.store
      attention := node.attention.take }).Carries manifest []) :
    turn.collide.Carries manifest [] := by
  have passed := carries.sendRequests turn.pass.requests
  simp only [Turn.collide]
  split
  · exact passed
  · exact passed.settle

/-- A job leaves the queue when its execution ends, and its result says what its handle says. -/
theorem complete {execution : Execution} {handle : JobHandle}
    (found : turn.node.store.get? execution.job = some handle)
    (carries : (turn.update fun node =>
      { node with queue := node.queue.complete handle.id }).Carries manifest leaving)
    (own : handle.origin = turn.node.id → manifest.told handle.id handle.stealingAttempts)
    (other : handle.origin ≠ turn.node.id → manifest.fits handle.id handle.stealingAttempts) :
    (turn.complete execution).Carries manifest leaving := by
  simp only [Turn.complete, found]
  apply lookNext
  refine reportResult ?_ (execution.report handle) own other
  exact carries

/-- The log may grow by anything but departures. -/
theorem publish (carries : turn.Carries manifest leaving) {cluster : Cluster} {kind : EventKind}
    {member : Member} (stays : kind.isDeparture = false)
    (mailboxes : cluster.mailboxes = turn.cluster.mailboxes)
    (events : cluster.events = (turn.cluster.publish kind member).events) :
    ({ turn with cluster } : Turn).Carries manifest leaving := by
  have cargo : Cargo .. := carries
  refine { cargo with mail := ?_, whole := ?_ }
  · intro ref house message (inside : message ∈ cluster.messages ref)
    rw [Cluster.messages, Cluster.mailbox, mailboxes] at inside
    exact cargo.mail house message inside
  · exact (cargo.whole.publish stays member).of_subset fun event inside => events ▸ inside

theorem publishMetrics (carries : turn.Carries manifest leaving) :
    turn.publishMetrics.Carries manifest leaving := by
  simp only [Turn.publishMetrics]
  split
  · rename_i cluster updated
    obtain ⟨-, mailboxes, -, member, events⟩ := Cluster.publish_of_updateMetrics updated
    have published : ({ turn with cluster } : Turn).Carries manifest leaving :=
      carries.publish rfl mailboxes events
    exact published
  · exact carries

/-- Following a task enters no result. -/
theorem track (carries : turn.Carries manifest leaving) (session : SessionId)
    {assignments : List Assignment} (fits : ∀ assignment ∈ assignments,
      manifest.fits assignment.transfer.spec.id assignment.transfer.stealingAttempts) :
    (turn.track session assignments).Carries manifest leaving := by
  have cargo : Cargo .. := carries
  have noted : ∀ {other job placed}, Awaiting (turn.node.tasks.insert session {
      pending := .ofList (assignments.map fun assignment =>
        (assignment.transfer.spec.id, PendingJob.mk assignment.transfer assignment.target))
      ticket := turn.node.tickets }) other job placed →
        manifest.noted placed.transfer.spec.id placed.transfer.stealingAttempts := by
    intro other job placed waits
    rcases awaiting_track waits with ⟨-, assignment, member, -, rfl⟩ | ⟨-, earlier⟩
    · exact manifest.notes (fits assignment member)
    · exact cargo.noted earlier
  have tracked : ∀ {other task}, (turn.node.tasks.insert session {
      pending := .ofList (assignments.map fun assignment =>
        (assignment.transfer.spec.id, PendingJob.mk assignment.transfer assignment.target))
      ticket := turn.node.tickets }).get? other = some task → ∀ result ∈ task.results,
        manifest.told result.job result.stealingAttempts := by
    intro other task there
    rw [Table.get?_insert] at there
    split at there
    · cases there
      exact fun _ member => absurd member List.not_mem_nil
    · exact cargo.results there
  simp only [Turn.track]
  split
  · refine { cargo with results := tracked, notices := ?_, noted := noted }
    intro notice member
    rcases List.mem_append.1 member with earlier | new
    · exact cargo.notices notice earlier
    · rw [List.mem_singleton.1 new]
      exact fun _ member => absurd member List.not_mem_nil
  · exact { cargo with results := tracked, noted := noted }

/-- The jobs of a new task say that they were never stolen. -/
theorem submit (carries : turn.Carries manifest leaving) (session : SessionId)
    (jobs : List JobSpec) (placement : Placement) (fits : ∀ spec ∈ jobs, manifest.fits spec.id 0) :
    (turn.submit session jobs placement).2.Carries manifest leaving := by
  cases accepted : turn.accept session jobs placement with
  | mk found next =>
      cases found with
      | error failure =>
          simp only [Turn.submit, accepted]
          exact carries.of_picks (picks_of_accept accepted)
      | ok pair =>
          obtain ⟨ticket, assignments⟩ := pair
          obtain ⟨picked, picks, rfl, transfers⟩ := accepted_of_accept accepted
          have new : ∀ assignment ∈ assignments, manifest.fits assignment.transfer.spec.id
              assignment.transfer.stealingAttempts := by
            intro assignment member
            have known := List.mem_map_of_mem (f := Assignment.transfer) member
            rw [transfers] at known
            obtain ⟨spec, inside, equal⟩ := List.mem_map.1 known
            rw [← equal]
            exact fits spec inside
          have tracked : (picked.track session assignments).Carries manifest leaving :=
            (carries.of_picks picks).track session new
          have placed : ((picked.track session assignments).placeAll assignments).Carries manifest
              leaving :=
            keeps_forEach_of_mem _ assignments (fun turn assignment member carries =>
              carries.placeWithin _ _ (new assignment member)) tracked
          simp only [Turn.submit, accepted]
          split
          · exact placed
          · simp only [conclude]
            split
            · refine finish ?_ _ _
              exact placed
            · exact placed

end Carries

end Turn

end JobGrid
