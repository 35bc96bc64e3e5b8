import JobGrid.Proofs.Grid.Stock
import JobGrid.Proofs.Node.Answers
import JobGrid.Proofs.Steal.Gift

/-!
# The fate of a job

Every job that a node takes into its queue has one fate. While it has none, it is in the queue.
Otherwise it was executed once and its result was reported, or it was cancelled, left the queue and
was reported as rejected, and then a thief has it. What counts as reported is read off the letters
and warnings of the step. The steps of the loop, ends of executions and anything that the node
reacts to may come in any order.
-/

namespace JobGrid

namespace JobStore

variable {store later : JobStore} {ref : JobRef}

theorem isSome_get?_iff : (store.get? ref).isSome = true ↔ ref < store.next := by
  simp [get?, next]

/-- If the same references lead to handles, the next new handle gets the same reference. -/
theorem next_eq_of_isSome (same : ∀ ref, (later.get? ref).isSome = (store.get? ref).isSome) :
    later.next = store.next := by
  have within : ∀ ref : Nat, ref < later.next ↔ ref < store.next := by
    intro ref
    rw [← isSome_get?_iff, ← isSome_get?_iff, same]
  exact Nat.le_antisymm (Nat.not_lt.1 fun less => Nat.lt_irrefl _ ((within _).1 less))
    (Nat.not_lt.1 fun less => Nat.lt_irrefl _ ((within _).2 less))

/-- Whether a job was given to a thief. -/
def isStolen (store : JobStore) (ref : JobRef) : Bool :=
  (store.get? ref).any fun handle => handle.thief.isSome

theorem isStolen_iff :
    store.isStolen ref = true ↔
      ∃ handle, store.get? ref = some handle ∧ handle.thief.isSome = true := by
  cases found : store.get? ref <;> simp [isStolen, found]

theorem next_push (store : JobStore) (handle : JobHandle) :
    (store.push handle).next = store.next + 1 :=
  Array.size_push handle

theorem get?_push_of_lt (within : ref < store.next) (handle : JobHandle) :
    (store.push handle).get? ref = store.get? ref := by
  rw [get?_push, if_neg (Nat.ne_of_lt within)]

end JobStore

namespace JobQueue

/-- The references of the jobs in a queue. -/
def refs (queue : JobQueue) : List JobRef :=
  queue.waiting.map QueuedJob.ref ++ queue.active.values

theorem refs_eq_nil {queue : JobQueue} (nothing : queue.jobs = []) : queue.refs = [] := by
  obtain ⟨waiting, active⟩ := List.append_eq_nil_iff.1 nothing
  rw [List.map_eq_nil_iff] at waiting
  rw [Table.keys, List.map_eq_nil_iff] at active
  simp [refs, Table.values, waiting, active]

theorem perm_refs_add {queue : JobQueue} (job : QueuedJob)
    (accepts : queue.accepts job.id = true) :
    (queue.add job).2.refs.Perm (queue.refs ++ [job.ref]) := by
  rw [(add_of_accepts job accepts).1, refs, refs, List.map_append, List.map_singleton,
    List.append_assoc, List.append_assoc]
  exact List.perm_append_comm.append_left _

/-- Only its reference leaves the queue with an active job. -/
theorem perm_refs_complete {queue : JobQueue} {job : JobId} {ref : JobRef}
    (active : queue.active.get? job = some ref) :
    queue.refs.Perm (ref :: (queue.complete job).refs) := by
  have split := (Table.perm_entries_erase active).map Prod.snd
  exact (split.append_left _).trans List.perm_middle

end JobQueue

namespace Stocked

variable {owner other : Owners} {leaving : List QueuedJob} {starting : List JobRef}
  {queue : JobQueue} {store : JobStore} {executions : List Execution}

/-- Only the references of cancelled jobs leave the queue when it is settled. -/
theorem perm_refs_settle (stocked : Stocked owner leaving starting queue store executions) :
    ((queue.settle store).refs ++ (queue.settled store).cancelled.map QueuedJob.ref).Perm
      queue.refs := by
  have sorted := (JobQueue.perm_waitingIn stocked.known).map QueuedJob.ref
  have active := JobQueue.values_activate _ _ stocked.nodup_sorted.of_append_right
  rw [List.perm_iff_count] at sorted ⊢
  intro ref
  have parts := sorted ref
  simp only [JobQueue.refs, JobQueue.settle, JobQueue.settled, active, List.map_append,
    List.count_append] at parts ⊢
  omega

/-- Whose the jobs are that are not in the queue does not matter. -/
theorem reown (stocked : Stocked owner [] starting queue store executions)
    (same : ∀ job ∈ queue.jobs, other job = owner job) :
    Stocked other [] starting queue store executions := by
  have names : ∀ {ref job}, job ∈ queue.jobs → store.Names owner ref job →
      store.Names other ref job := by
    rintro ref job inside ⟨handle, found, id, owned⟩
    exact ⟨handle, found, id, (same job inside).trans owned⟩
  refine ⟨stocked.distinct, ?_, ?_, ?_, stocked.single, stocked.busy⟩
  · intro job member
    exact names (List.mem_append_left _ (List.mem_map_of_mem member)) (stocked.waits job member)
  · intro job ref found
    exact names (List.mem_append_right _ (Table.mem_keys_iff.2 ⟨ref, found⟩)) (stocked.runs found)
  · exact fun _ member => absurd member List.not_mem_nil

end Stocked

namespace Turn

/-- Between two moments of a turn, the jobs of the node stayed as they were. -/
structure SameJobs (turn next : Turn) : Prop where
  queue : next.node.queue = turn.node.queue
  store : next.node.store = turn.node.store
  executions : next.node.executions = turn.node.executions
  stats : next.node.stats = turn.node.stats
  stealing : next.node.resolver.config = turn.node.resolver.config

theorem Aside.sameJobs {turn next : Turn} (aside : Aside turn next) : turn.SameJobs next :=
  ⟨aside.queue, aside.store, aside.executions, aside.stats, aside.stealing⟩

section Jobs

variable {keeps : Turn → Prop}
  (same : ∀ {turn next : Turn}, keeps turn → turn.SameJobs next → keeps next)
  (takes : ∀ {turn next : Turn} {transfer : JobTransfer}, keeps turn →
    turn.hold transfer = .ok next → keeps next)

include same takes

/-- What depends on the jobs of a node only, and stays when its queue takes a job, stays when the
node reacts to the grid. -/
theorem walk_of_jobs : Walk keeps fun _ _ => True where
  aside held aside := same held aside.sameJobs
  deliver := by
    intro turn next transfer target held _ delivered
    cases Turn.Delivered.of_deliver delivered with
    | here _ took => exact same (takes held took) ⟨rfl, rfl, rfl, rfl, rfl⟩
    | there _ sent =>
        obtain ⟨cluster, -, rfl⟩ := Result.map_eq_ok.1 sent
        exact same held ⟨rfl, rfl, rfl, rfl, rfl⟩
  send := by
    intro turn next receiver message held _ sent
    obtain ⟨cluster, -, rfl⟩ := Result.map_eq_ok.1 sent
    exact same held ⟨rfl, rfl, rfl, rfl, rfl⟩
  warn held := same held ⟨rfl, rfl, rfl, rfl, rfl⟩
  note held _ := same held ⟨rfl, rfl, rfl, rfl, rfl⟩
  finish := by
    intro turn session error held
    simp only [Turn.finish]
    split
    · exact held
    · exact same held ⟨rfl, rfl, rfl, rfl, rfl⟩
  covers := fun _ _ _ _ _ _ => trivial

/-- It stays whatever the node reacts to in one step. -/
theorem keeps_turnOf {tasking : Tasking} {event : NodeEvent}
    (begins : keeps (tasking.turnAt event.now event.cluster))
    (single : event.action.isComposed = false) : keeps (tasking.turnOf event) := by
  have walk : Walk keeps fun _ _ => True := walk_of_jobs same takes
  simp only [Tasking.turnOf]
  cases action : event.action with
  | submit session jobs placement =>
      simp only
      cases accepted : (tasking.turnAt event.now event.cluster).accept session jobs placement with
      | mk found next =>
          cases found with
          | error failure =>
              obtain ⟨_, _, rfl⟩ := picks_of_accept accepted
              exact same begins ⟨rfl, rfl, rfl, rfl, rfl⟩
          | ok pair =>
              obtain ⟨picked, ⟨_, _, rfl⟩, rfl, -⟩ := accepted_of_accept accepted
              simp only [track]
              split
              · exact same begins ⟨rfl, rfl, rfl, rfl, rfl⟩
              · exact same begins ⟨rfl, rfl, rfl, rfl, rfl⟩
  | place session =>
      simp only
      split
      · exact walk.place begins (fun _ _ _ _ => trivial) trivial
      · exact begins
  | conclude session =>
      simp only
      split
      · exact walk.conclude begins session _
      · exact begins
  | message envelope => exact walk.onMessage begins envelope fun _ taken => takes begins taken
  | discover found => exact walk.onEvent begins found
  | look =>
      rw [action] at single
      cases single
  | complete execution =>
      rw [action] at single
      cases single
  | publish =>
      simp only [publishMetrics]
      split
      · exact same begins ⟨rfl, rfl, rfl, rfl, rfl⟩
      · exact same begins ⟨rfl, rfl, rfl, rfl, rfl⟩
  | restrict session nodes => exact same begins ⟨rfl, rfl, rfl, rfl, rfl⟩
  | reroll chance => exact same begins ⟨rfl, rfl, rfl, rfl, rfl⟩

end Jobs

end Turn

/-- What became of the jobs of a node explains where all its handles are: each is in the queue,
or it was executed, or it was drained. Some active jobs have yet to be set to work. -/
structure CustodyRecord.Explains (record : CustodyRecord) (starting : List JobRef)
    (node : Node) : Prop where
  stocked : ∃ owner, Stocked owner [] starting node.queue node.store node.executions
  whole : (node.queue.refs ++ record.executed ++ record.drained).Perm (List.range node.store.next)
  stolen : ∀ ref, node.store.state? ref = some .cancelled → node.store.isStolen ref = true
  gone : ∀ ref ∈ record.drained, node.store.isStolen ref = true
  counts : node.stats.executed = record.executed.length + record.counted.length
  works : ∀ execution ∈ record.counted, execution ∈ node.executions
  once : record.counted.Nodup
  handed : node.stats.handedOff = record.reported.length

namespace CustodyRecord.Explains

variable {record : CustodyRecord} {starting : List JobRef} {node next : Node}

/-- Only handles, the queue, executions and numbers have to be explained. -/
theorem congr (explains : record.Explains starting node) (queue : next.queue = node.queue)
    (store : next.store = node.store) (executions : next.executions = node.executions)
    (stats : next.stats = node.stats) : record.Explains starting next := by
  obtain ⟨stocked, whole, stolen, gone, counts, works, once, handed⟩ := explains
  refine ⟨?_, ?_, ?_, ?_, ?_, ?_, once, ?_⟩
  · rwa [queue, store, executions]
  · rwa [queue, store]
  · rwa [store]
  · rwa [store]
  · rwa [stats]
  · rwa [executions]
  · rwa [stats]

theorem explains_of_sameJobs {turn after : Turn} (explains : record.Explains starting turn.node)
    (same : turn.SameJobs after) : record.Explains starting after.node :=
  explains.congr same.queue same.store same.executions same.stats

/-- A job that the queue takes is in the queue. -/
theorem hold {turn after : Turn} {transfer : JobTransfer}
    (explains : record.Explains starting turn.node) (held : turn.hold transfer = .ok after) :
    record.Explains starting after.node := by
  obtain ⟨accepts, rfl⟩ := Turn.hold_eq_ok.1 held
  obtain ⟨owner, stocked⟩ := explains.stocked
  let handle := transfer.toHandle turn.now
  let later := Function.update owner handle.id (some (handle.origin, handle.session))
  obtain ⟨-, absent⟩ := JobQueue.add_of_accepts ⟨handle.id, turn.node.store.next⟩ accepts
  have reowned : Stocked later [] starting turn.node.queue turn.node.store
      turn.node.executions := by
    apply stocked.reown
    intro job inside
    have differs : job ≠ handle.id := fun same => absent (same ▸ inside)
    exact Function.update_of_ne differs _ _
  refine ⟨⟨later, reowned.add handle accepts (Function.update_self _ _ _)⟩, ?_, ?_, ?_,
    explains.counts, explains.works, explains.once, explains.handed⟩
  · have whole := explains.whole
    have added := JobQueue.perm_refs_add ⟨transfer.spec.id, turn.node.store.next⟩ accepts
    rw [List.perm_iff_count] at whole added ⊢
    intro ref
    have before := whole ref
    have grown := added ref
    simp only [JobStore.next_push, List.range_succ, List.count_append] at before grown ⊢
    omega
  · intro ref cancelled
    by_cases new : ref = turn.node.store.next
    · rw [JobStore.state?, JobStore.get?_push, if_pos new] at cancelled
      cases cancelled
    · rw [JobStore.state?, JobStore.get?_push, if_neg new] at cancelled
      rw [JobStore.isStolen, JobStore.get?_push, if_neg new]
      exact explains.stolen ref cancelled
  · intro ref member
    have stolen := explains.gone ref member
    obtain ⟨handle, found, -⟩ := JobStore.isStolen_iff.1 stolen
    rw [JobStore.isStolen, JobStore.get?_push_of_lt (JobStore.lt_next_of_get? found)]
    exact stolen

/-- All that a node does when it reacts to the grid, but for looks through its jobs and the ends
of executions, leaves the record of its jobs right. -/
theorem walk (record : CustodyRecord) (starting : List JobRef) :
    Turn.Walk (fun turn => record.Explains starting turn.node) fun _ _ => True :=
  Turn.walk_of_jobs explains_of_sameJobs hold

/-- Reacting to anything leaves the record right. -/
theorem turnOf {tasking : Tasking} (explains : record.Explains starting tasking.node)
    (event : NodeEvent) (single : event.action.isComposed = false) :
    record.Explains starting (tasking.turnOf event).node :=
  Turn.keeps_turnOf explains_of_sameJobs hold explains single

/-- A pass gives every job that it cancels to a thief. -/
theorem pass (explains : record.Explains starting node) (scene : PassScene)
    (accepts : NodeId → Bool) (waiting : List JobRef) (active : Nat) (resolver : Resolver) :
    let pass := node.resolver.collide scene accepts node.store waiting active
    record.Explains starting { node with resolver, store := pass.store } := by
  intro pass
  have fate := node.resolver.fate_collide scene accepts node.store waiting active
  obtain ⟨owner, stocked⟩ := explains.stocked
  have next : pass.store.next = node.store.next := by
    apply JobStore.next_eq_of_isSome
    intro ref
    cases fate ref with
    | untouched same => rw [same]
    | started handle found moved => rw [found, moved]; rfl
    | given handle thief found suits moved => rw [found, moved]; rfl
  refine ⟨⟨owner, stocked.extend (node.resolver.extends_collide scene accepts _ waiting active)⟩,
    ?_, ?_, ?_, explains.counts, explains.works, explains.once, explains.handed⟩
  · simp only [next]
    exact explains.whole
  · intro ref cancelled
    cases fate ref with
    | untouched same =>
        rw [JobStore.state?, same] at cancelled
        rw [JobStore.isStolen, same]
        exact explains.stolen ref cancelled
    | started handle found moved =>
        rw [JobStore.state?, moved] at cancelled
        cases cancelled
    | given handle thief found suits moved =>
        rw [JobStore.isStolen, moved]
        rfl
  · intro ref member
    have stolen := explains.gone ref member
    cases fate ref with
    | untouched same =>
        rw [JobStore.isStolen, same]
        exact stolen
    | started handle found moved =>
        rw [JobStore.isStolen, found] at stolen
        rw [JobStore.isStolen, moved]
        exact stolen
    | given handle thief found suits moved =>
        rw [JobStore.isStolen, moved]
        rfl

/-- So does the loop when it starts jobs and gives jobs away. -/
theorem decide {turn : Turn} (explains : record.Explains starting turn.node)
    (waiting : List JobRef) (active : Nat) :
    let pass := Custody.passOver turn waiting active
    record.Explains starting ((turn.update fun node => { node with
      resolver := pass.resolver
      store := pass.store }).sendRequests pass.requests).node := by
  intro pass
  obtain ⟨cluster, sent⟩ := Custody.exists_cluster_of_sendRequests
    (turn.update fun node => { node with resolver := pass.resolver, store := pass.store })
    pass.requests
  rw [sent]
  exact explains.pass _ turn.cluster.accepts waiting active pass.resolver

/-- Settling drains the cancelled jobs, which thieves have. -/
theorem settle (explains : record.Explains [] node) (tracker : Tracker) :
    let settled := node.queue.settled node.store
    ({ record with drained := record.drained ++ settled.cancelled.map QueuedJob.ref }
        : CustodyRecord).Explains (settled.activated.map QueuedJob.ref)
      { node with queue := node.queue.settle node.store, tracker } := by
  intro settled
  obtain ⟨owner, stocked⟩ := explains.stocked
  have sorts := stocked.settle
  refine ⟨⟨owner, ?_⟩, ?_, explains.stolen, ?_, explains.counts, explains.works, explains.once,
    explains.handed⟩
  · exact { sorts with leaves := fun _ member => absurd member List.not_mem_nil }
  · have whole := explains.whole
    have sorted := stocked.perm_refs_settle
    rw [List.perm_iff_count] at whole sorted ⊢
    intro ref
    have before := whole ref
    have parts := sorted ref
    simp only [settled, List.count_append] at before parts ⊢
    omega
  · intro ref member
    cases List.mem_append.1 member with
    | inl earlier => exact explains.gone ref earlier
    | inr leaves =>
        obtain ⟨job, inside, rfl⟩ := List.mem_map.1 leaves
        obtain ⟨-, cancelled⟩ := List.mem_filter.1 inside
        exact explains.stolen job.ref (of_decide_eq_true cancelled)

/-- A drained job is reported and counted as handed off. -/
theorem handOff {turn : Turn} (explains : record.Explains starting turn.node) {ref : JobRef}
    (drained : ref ∈ record.drained) :
    ({ record with reported := record.reported ++ [ref] } : CustodyRecord).Explains starting
      (turn.handOff ref).node := by
  obtain ⟨handle, found, thief⟩ := JobStore.isStolen_iff.1 (explains.gone ref drained)
  simp only [Turn.handOff, found, thief, if_true]
  refine (walk _ starting).reportRejected ?_ handle handle.thief
  refine ⟨explains.stocked, explains.whole, explains.stolen, explains.gone, explains.counts,
    explains.works, explains.once, ?_⟩
  simp only [Turn.update, List.length_append, List.length_singleton]
  rw [explains.handed]

/-- The work of a started job begins, if it can. -/
theorem execute {turn : Turn} {ref : JobRef} {rest : List JobRef}
    (explains : record.Explains (ref :: rest) turn.node) :
    record.Explains rest (turn.execute ref).node := by
  obtain ⟨owner, stocked⟩ := explains.stocked
  have idle : Stocked owner [] rest turn.node.queue turn.node.store turn.node.executions := by
    have begun := stocked.start [] (List.nil_sublist _)
    rwa [List.append_nil] at begun
  have rests : record.Explains rest turn.node := { explains with stocked := ⟨owner, idle⟩ }
  simp only [Turn.execute]
  split
  · exact rests
  · rename_i handle found
    split
    · exact rests
    · rename_i execution began
      obtain ⟨nanos, -, rfl⟩ := Result.map_eq_ok.1 began
      refine ⟨⟨owner, stocked.start [_] (.refl _)⟩, explains.whole, explains.stolen,
        explains.gone, explains.counts, ?_, explains.once, explains.handed⟩
      exact fun counted member => List.mem_append_left _ (explains.works counted member)

/-- The end of an execution is counted. -/
theorem count {turn : Turn} {execution : Execution}
    (explains : record.Explains starting turn.node) (working : execution ∈ turn.node.executions)
    (uncounted : execution ∉ record.counted) :
    ({ record with counted := execution :: record.counted } : CustodyRecord).Explains starting
      (turn.count execution).node := by
  obtain ⟨owner, stocked⟩ := explains.stocked
  obtain ⟨handle, found, -⟩ := stocked.active_of_execution working
  simp only [Turn.count, found]
  refine ⟨⟨owner, stocked⟩, explains.whole, explains.stolen, explains.gone, ?_, ?_,
    List.nodup_cons.2 ⟨uncounted, explains.once⟩, explains.handed⟩
  · have counts := explains.counts
    simp only [Turn.update, List.length_cons]
    omega
  · exact List.forall_mem_cons.2 ⟨working, explains.works⟩

/-- The job of an execution that was counted leaves the queue. -/
theorem dismiss {turn : Turn} {execution : Execution}
    (explains : record.Explains starting turn.node) (counted : execution ∈ record.counted) :
    ({ record with
        counted := record.counted.erase execution
        executed := record.executed ++ [execution.job] } : CustodyRecord).Explains starting
      (turn.dismiss execution).node := by
  obtain ⟨owner, stocked⟩ := explains.stocked
  have working := explains.works execution counted
  obtain ⟨handle, found, active, -⟩ := stocked.active_of_execution working
  simp only [Turn.dismiss, found]
  refine (walk _ starting).aside ?_ (Turn.aside_lookNext _)
  refine (walk _ starting).reportResult ?_ _
  refine ⟨⟨owner, stocked.complete working active⟩, ?_, explains.stolen, explains.gone, ?_, ?_,
    explains.once.erase execution, explains.handed⟩
  · have whole := explains.whole
    have removed := JobQueue.perm_refs_complete active
    rw [List.perm_iff_count] at whole removed ⊢
    intro ref
    have before := whole ref
    have parts := removed ref
    simp only [Turn.update, Execution.report, List.count_append, List.count_cons,
      List.count_nil] at before parts ⊢
    omega
  · have counts := explains.counts
    have positive := List.length_pos_of_mem counted
    simp only [Turn.update, List.length_append, List.length_singleton,
      List.length_erase_of_mem counted]
    omega
  · intro other member
    obtain ⟨differs, inside⟩ := (explains.once.mem_erase_iff).1 member
    exact (List.mem_erase_of_ne differs).2 (explains.works other inside)

end CustodyRecord.Explains

/-- A node that has not held any job yet. -/
structure Node.IsNew (node : Node) : Prop where
  jobs : node.queue.jobs = []
  handles : node.store.next = 0
  executions : node.executions = []
  executed : node.stats.executed = 0
  handedOff : node.stats.handedOff = 0

/-- A node that joins a cluster has not held any job yet. -/
theorem Node.isNew_of_join {config : NodeConfig} {identity : NodeIdentity} {now : Moment}
    {cluster joined : Cluster} {node : Node}
    (joins : Node.join config identity now cluster = .ok (node, joined)) : node.IsNew := by
  obtain ⟨-, -, started⟩ := Result.bind_eq_ok.1 joins
  obtain ⟨resolver, -, resolved⟩ := Result.bind_eq_ok.1 started
  obtain ⟨balancer, -, built⟩ := Result.bind_eq_ok.1 resolved
  cases built
  exact ⟨rfl, rfl, rfl, rfl, rfl⟩

namespace Custody

/-- The record explains where all handles are, and the jobs that the loop has yet to report were
drained last. -/
structure Sound (custody : Custody) : Prop where
  explains : custody.record.Explains custody.stage.starting custody.node
  drained : custody.record.drained = custody.record.reported ++ custody.stage.leaving

/-- Of a node that has not held any job, there is nothing to explain. -/
theorem Sound.start {node : Node} (new : node.IsNew) : Sound { tasking := { node } } := by
  refine ⟨⟨⟨fun _ => none, ?_⟩, ?_, ?_, ?_, new.executed, ?_, List.nodup_nil, new.handedOff⟩, rfl⟩
  · have empty := Stocked.empty (fun _ => none) new.jobs node.store
    rwa [← new.executions] at empty
  · simp only [Custody.node, JobQueue.refs_eq_nil new.jobs, new.handles]
    exact .refl _
  · intro ref cancelled
    cases found : node.store.get? ref with
    | none => simp [Custody.node, JobStore.state?, found] at cancelled
    | some handle =>
        have within := JobStore.lt_next_of_get? found
        rw [new.handles] at within
        exact absurd within (Nat.not_lt_zero ref)
  · exact fun _ member => absurd member List.not_mem_nil
  · exact fun _ member => absurd member List.not_mem_nil

/-- Whatever happens, the record goes on to explain where all handles are. -/
theorem Sound.perform {custody : Custody} (event : CustodyEvent) (sound : custody.Sound) :
    (custody.perform event).Sound := by
  obtain ⟨explains, drained⟩ := sound
  cases action : event.action with
  | react action =>
      simp only [Custody.perform, action]
      split
      · exact ⟨explains, drained⟩
      · rename_i single
        refine ⟨?_, drained⟩
        simp only [Custody.node, Tasking.node_perform]
        exact explains.turnOf _ (Bool.eq_false_iff.2 single)
  | watch =>
      simp only [Custody.perform, action]
      split
      · rename_i rests
        rw [rests] at explains drained
        exact ⟨explains.congr rfl rfl rfl rfl, drained⟩
      · exact ⟨explains, drained⟩
  | decide =>
      simp only [Custody.perform, action]
      split
      · rename_i waiting active watches
        rw [watches] at explains drained
        have begins : custody.record.Explains []
            (custody.tasking.turnAt event.now event.cluster).node := explains
        have passed := begins.decide waiting active
        split
        · exact ⟨passed, drained⟩
        · exact ⟨passed, drained⟩
      · exact ⟨explains, drained⟩
  | settle =>
      simp only [Custody.perform, action]
      split
      · rename_i decided
        rw [decided] at explains drained
        refine ⟨?_, ?_⟩
        · simp only [LookStage.starting_sorting]
          exact explains.settle _
        · simp only [LookStage.leaving_sorting]
          simp [drained, LookStage.leaving]
      · exact ⟨explains, drained⟩
  | report =>
      simp only [Custody.perform, action]
      split
      · rename_i ref leaving starting sorts
        rw [sorts] at explains drained
        have member : ref ∈ custody.record.drained := by simp [drained, LookStage.leaving]
        have begins : custody.record.Explains starting
            (custody.tasking.turnAt event.now event.cluster).node := explains
        have handed := begins.handOff member
        have later : custody.record.drained = custody.record.reported ++ [ref] ++ leaving := by
          simp [drained, LookStage.leaving]
        split
        · exact ⟨handed, later⟩
        · refine ⟨?_, ?_⟩
          · simp only [LookStage.starting_sorting]
            exact handed
          · simp only [LookStage.leaving_sorting]
            exact later
      · exact ⟨explains, drained⟩
  | launch =>
      simp only [Custody.perform, action]
      split
      · rename_i ref starting sorts
        rw [sorts] at explains drained
        refine ⟨?_, ?_⟩
        · simp only [LookStage.starting_sorting]
          exact explains.execute
        · simp only [LookStage.leaving_sorting]
          exact drained
      · exact ⟨explains, drained⟩
  | count execution =>
      simp only [Custody.perform, action]
      split
      · rename_i due
        exact ⟨explains.count due.1 due.2, drained⟩
      · exact ⟨explains, drained⟩
  | finish execution =>
      simp only [Custody.perform, action]
      split
      · rename_i due
        exact ⟨explains.dismiss due, drained⟩
      · exact ⟨explains, drained⟩

/-- The handles that an answer may be about are at hand. -/
theorem Sound.reports {custody : Custody} (sound : custody.Sound) (event : CustodyEvent) :
    custody.Reports event := by
  obtain ⟨explains, drained⟩ := sound
  obtain ⟨owner, stocked⟩ := explains.stocked
  refine reports_of_found (fun execution counted => ?_) (fun ref leaves => ?_)
  · obtain ⟨job, found, -⟩ := stocked.active_of_execution (explains.works execution counted)
    exact ⟨job, found⟩
  · refine JobStore.isStolen_iff.1 (explains.gone ref ?_)
    rw [drained]
    exact List.mem_append_right _ leaves

end Custody

end JobGrid
