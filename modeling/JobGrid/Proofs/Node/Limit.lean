import Mathlib.Data.Option.Basic
import JobGrid.Proofs.Node.Fate
import JobGrid.Proofs.Steal.Thresholds

/-!
# The limit of active jobs

A node never works on more jobs than it is configured to, although its loop decides by a count
of active jobs that may be old when the queue is settled: jobs may have come and may have ended
since. The room that was left at that count is enough for the jobs that were active then and for
those that are started.
-/

namespace JobGrid

/-! ## What a pass starts -/

namespace JobStore

variable {store : JobStore} {ref : JobRef}

theorem state?_push_of_lt (within : ref < store.next) (handle : JobHandle) :
    (store.push handle).state? ref = store.state? ref := by
  rw [state?, get?_push_of_lt within, state?]

end JobStore

/-- A job that is active after a pass was active before, or is one of the first jobs, for which
there was room. -/
theorem Resolver.active_of_collide {resolver : Resolver} {scene : PassScene}
    {accepts : NodeId → Bool} {store : JobStore} {waiting : List JobRef} {active : Nat}
    {ref : JobRef}
    (later : (resolver.collide scene accepts store waiting active).store.state? ref =
      some .active) :
    store.state? ref = some .active ∨ ref ∈ waiting.take (Busy.room scene active) := by
  cases resolver.dealt_collide scene accepts store waiting active ref with
  | kept same =>
      rw [JobStore.state?, same] at later
      exact .inl later
  | started listed => exact .inr listed
  | given _ given =>
      obtain ⟨handle, thief, -, -, there⟩ := given
      rw [JobStore.state?_of_get? there] at later
      cases later

/-- An active job stays active during a pass. -/
theorem Resolver.stays_active_of_collide (resolver : Resolver) (scene : PassScene)
    (accepts : NodeId → Bool) {store : JobStore} (waiting : List JobRef) (active : Nat)
    {ref : JobRef} (before : store.state? ref = some .active) :
    (resolver.collide scene accepts store waiting active).store.state? ref = some .active := by
  cases resolver.fate_collide scene accepts store waiting active ref with
  | untouched same => rwa [JobStore.state?, same]
  | started handle found moved => exact JobStore.state?_of_get? moved
  | given handle thief found suits moved =>
      rw [JobStore.state?_of_get? found, suits.waits] at before
      cases before

/-! ## The queue of a node -/

/-- Whether the queue was settled since jobs were started and given away. -/
def LookStage.isSettled : LookStage → Bool
  | rests | watches _ _ | sorts _ _ => true
  | decided | broken _ _ => false

/-- How the active jobs of a node keep to a limit: together with the waiting ones that were
started and will be active when the queue is settled, they are no more than that. -/
structure LookStage.Limits (stage : LookStage) (limit : Nat) (node : Node) : Prop where
  threshold : node.resolver.config.activeThreshold.toNat = limit
  known : ∀ job ∈ node.queue.waiting, job.ref < node.store.next
  fits : node.queue.active.size + (node.queue.waitingIn node.store .active).length ≤ limit
  active : ∀ ref ∈ node.queue.active.values, node.store.state? ref = some .active
  waits : stage.isSettled = true →
    ∀ job ∈ node.queue.waiting, node.store.state? job.ref = some .waiting
  /-- The count that the loop has in mind may be old, but it is not too small. -/
  noted : ∀ waiting active, stage = .watches waiting active → node.queue.active.size ≤ active

namespace LookStage.Limits

variable {stage other : LookStage} {limit : Nat} {node next : Node}

theorem congr (limits : stage.Limits limit node) (queue : next.queue = node.queue)
    (store : next.store = node.store) (config : next.resolver.config = node.resolver.config) :
    stage.Limits limit next := by
  obtain ⟨threshold, known, fits, active, waits, noted⟩ := limits
  refine ⟨?_, ?_, ?_, ?_, ?_, ?_⟩
  · rwa [config]
  · rwa [queue, store]
  · rwa [queue, store]
  · rwa [queue, store]
  · rwa [queue, store]
  · rwa [queue]

/-- The loop goes on without having noted anything. -/
theorem proceed (limits : stage.Limits limit node)
    (settled : other.isSettled = true → stage.isSettled = true)
    (forgets : ∀ waiting active, other ≠ .watches waiting active) : other.Limits limit node :=
  { limits with
    waits := fun sorted => limits.waits (settled sorted)
    noted := fun waiting active watches => absurd watches (forgets waiting active) }

theorem of_sameJobs {turn after : Turn} (limits : stage.Limits limit turn.node)
    (same : turn.SameJobs after) : stage.Limits limit after.node :=
  limits.congr same.queue same.store same.stealing

/-- A job that comes into the queue waits. -/
theorem push (limits : stage.Limits limit node) (handle : JobHandle)
    (waiting : handle.state = .waiting) (job : JobId) :
    stage.Limits limit { node with
      queue := { node.queue with waiting := node.queue.waiting ++ [⟨job, node.store.next⟩] }
      store := node.store.push handle } := by
  have new : (node.store.push handle).state? node.store.next = some .waiting := by
    rw [JobStore.state?, JobStore.get?_push, if_pos rfl, Option.map_some, waiting]
  have old : ∀ other ∈ node.queue.waiting,
      (node.store.push handle).state? other.ref = node.store.state? other.ref := fun other member =>
    JobStore.state?_push_of_lt (limits.known other member) handle
  refine ⟨limits.threshold, ?_, ?_, ?_, ?_, limits.noted⟩
  · intro other member
    rw [JobStore.next_push]
    rcases List.mem_append.1 member with earlier | late
    · exact Nat.lt_succ_of_lt (limits.known other earlier)
    · rw [List.mem_singleton.1 late]
      exact Nat.lt_succ_self _
  · have same : (node.queue.waiting.filter fun other =>
        (node.store.push handle).state? other.ref = some .active) =
          node.queue.waitingIn node.store .active := by
      apply List.filter_congr
      intro other member
      rw [old other member]
    simp only [JobQueue.waitingIn, List.filter_append, same]
    simpa [new, JobQueue.waitingIn] using limits.fits
  · intro ref member
    have active := limits.active ref member
    obtain ⟨other, found, -⟩ := Option.map_eq_some_iff.1 active
    rwa [JobStore.state?_push_of_lt (JobStore.lt_next_of_get? found)]
  · intro settled other member
    rcases List.mem_append.1 member with earlier | late
    · rw [old other earlier]
      exact limits.waits settled other earlier
    · rw [List.mem_singleton.1 late]
      exact new

theorem hold {turn after : Turn} {transfer : JobTransfer}
    (limits : stage.Limits limit turn.node) (held : turn.hold transfer = .ok after) :
    stage.Limits limit after.node := by
  obtain ⟨accepts, rfl⟩ := Turn.hold_eq_ok.1 held
  have taken := limits.push (transfer.toHandle turn.now) rfl transfer.spec.id
  exact taken.congr (JobQueue.add_of_accepts ⟨_, turn.node.store.next⟩ accepts).1 rfl rfl

theorem walk (stage : LookStage) (limit : Nat) :
    Turn.Walk (fun turn => stage.Limits limit turn.node) fun _ _ => True :=
  Turn.walk_of_jobs of_sameJobs hold

/-- The loop notes which jobs wait and how many are active. -/
theorem watch (limits : LookStage.rests.Limits limit node) (waiting : List JobRef) :
    (LookStage.watches waiting node.queue.active.size).Limits limit node :=
  { limits with
    waits := fun _ => limits.waits rfl
    noted := by
      intro _ _ same
      cases same
      exact Nat.le_refl _ }

/-- A pass starts no more jobs than there was room for at the count that it has in mind. -/
theorem pass {waiting : List JobRef} {active : Nat}
    (limits : (LookStage.watches waiting active).Limits limit node)
    (distinct : (node.queue.waiting.map QueuedJob.ref).Nodup) (view : GridView)
    (restrictions : Restrictions) (order : Arrangement NodeId) (now : Moment)
    (accepts : NodeId → Bool) :
    let scene := node.resolver.scene view restrictions order now
    let pass := node.resolver.collide scene accepts node.store waiting active
    LookStage.decided.Limits limit
      { node with resolver := pass.resolver, store := pass.store } := by
  intro scene pass
  have next : pass.store.next = node.store.next := by
    apply JobStore.next_eq_of_isSome
    intro ref
    cases node.resolver.fate_collide scene accepts node.store waiting active ref with
    | untouched same => rw [same]
    | started handle found moved => rw [found, moved]; rfl
    | given handle thief found suits moved => rw [found, moved]; rfl
  have started : (node.queue.waitingIn pass.store .active).length ≤
      (waiting.take (Busy.room scene active)).length := by
    rw [← List.length_map (f := QueuedJob.ref)]
    refine List.Subperm.length_le ?_
    refine List.subperm_of_subset ?_ ?_
    · exact distinct.sublist (List.filter_sublist.map _)
    · intro ref member
      obtain ⟨job, inside, rfl⟩ := List.mem_map.1 member
      obtain ⟨listed, later⟩ := List.mem_filter.1 inside
      rcases Resolver.active_of_collide (of_decide_eq_true later) with before | room
      · rw [limits.waits rfl job listed] at before
        cases before
      · exact room
  refine ⟨?_, ?_, ?_, ?_, ?_, ?_⟩
  · simp only [pass, Resolver.config_collide]
    exact limits.threshold
  · simp only [next]
    exact limits.known
  · have few : (waiting.take (Busy.room scene active)).length ≤ Busy.room scene active :=
      List.length_take_le _ _
    have noted := limits.noted waiting active rfl
    have threshold : scene.config.activeThreshold.toNat = limit := limits.threshold
    have total := limits.fits
    simp only [Busy.room, threshold] at few started ⊢
    omega
  · intro ref member
    exact node.resolver.stays_active_of_collide scene accepts waiting active
      (limits.active ref member)
  · exact fun settled => absurd settled (by decide)
  · exact fun _ _ watches => by cases watches

/-- When the queue is settled, the started jobs are among the active ones, and all others that
stay wait. -/
theorem settle (limits : LookStage.decided.Limits limit node)
    (distinct : (node.queue.active.keys ++
      (node.queue.waitingIn node.store .active).map QueuedJob.id).Nodup)
    (leaving starting : List JobRef) (tracker : Tracker) :
    (LookStage.sorting leaving starting).Limits limit
      { node with queue := node.queue.settle node.store, tracker } := by
  have values : (node.queue.settle node.store).active.values = node.queue.active.values ++
      (node.queue.waitingIn node.store .active).map QueuedJob.ref :=
    JobQueue.values_activate _ _ distinct
  have size : (node.queue.settle node.store).active.size = node.queue.active.size +
      (node.queue.waitingIn node.store .active).length := by
    have lengths := congrArg List.length values
    simpa only [Table.values, Table.size, List.length_append, List.length_map] using lengths
  have waits : ∀ job ∈ (node.queue.settle node.store).waiting,
      node.store.state? job.ref = some .waiting := fun job member =>
    of_decide_eq_true (List.mem_filter.1 member).2
  have none : (node.queue.settle node.store).waitingIn node.store .active = [] := by
    refine List.filter_eq_nil_iff.2 fun job member => ?_
    rw [waits job member]
    simp
  refine ⟨limits.threshold, ?_, ?_, ?_, fun _ => waits, ?_⟩
  · intro job member
    exact limits.known job (List.mem_filter.1 member).1
  · simp only [none, size, List.length_nil]
    exact limits.fits
  · intro ref member
    rw [values, List.mem_append] at member
    rcases member with earlier | new
    · exact limits.active ref earlier
    · obtain ⟨job, inside, rfl⟩ := List.mem_map.1 new
      exact of_decide_eq_true (List.mem_filter.1 inside).2
  · intro waiting active watches
    cases leaving <;> cases starting <;> cases watches

/-- A job that was executed leaves the queue. -/
theorem complete (limits : stage.Limits limit node) (job : JobId) (executions : List Execution) :
    stage.Limits limit { node with executions, queue := node.queue.complete job } := by
  have fewer : (node.queue.active.erase job).size ≤ node.queue.active.size :=
    List.length_filter_le _ _
  refine ⟨limits.threshold, limits.known, ?_, ?_, limits.waits, ?_⟩
  · exact Nat.le_trans (Nat.add_le_add_right fewer _) limits.fits
  · intro ref member
    refine limits.active ref ?_
    exact (List.Sublist.map Prod.snd List.filter_sublist).subset member
  · intro waiting active watches
    exact Nat.le_trans fewer (limits.noted waiting active watches)

theorem execute {turn : Turn} (limits : stage.Limits limit turn.node) (ref : JobRef) :
    stage.Limits limit (turn.execute ref).node := by
  simp only [Turn.execute]
  split
  · exact limits
  · split
    · exact limits
    · exact limits.congr rfl rfl rfl

theorem count {turn : Turn} (limits : stage.Limits limit turn.node) (execution : Execution) :
    stage.Limits limit (turn.count execution).node := by
  simp only [Turn.count]
  split
  · exact limits
  · exact limits.congr rfl rfl rfl

theorem dismiss {turn : Turn} (limits : stage.Limits limit turn.node) (execution : Execution) :
    stage.Limits limit (turn.dismiss execution).node := by
  have walk := walk stage limit
  simp only [Turn.dismiss]
  split
  · exact limits
  · refine walk.aside (walk.reportResult ?_ _) (Turn.aside_lookNext _)
    exact limits.complete _ _

theorem handOff {turn : Turn} (limits : stage.Limits limit turn.node) (ref : JobRef) :
    stage.Limits limit (turn.handOff ref).node := by
  have walk := walk stage limit
  simp only [Turn.handOff]
  split
  · exact limits
  · split
    · refine walk.reportRejected ?_ _ _
      exact limits.congr rfl rfl rfl
    · exact walk.reportRejected limits _ _

end LookStage.Limits

theorem Balancer.exists_build {config : BalancerConfig} (valid : config.problem? = none)
    (members : List Member) : ∃ balancer, build config members = .ok balancer := by
  cases config with
  | adaptive config =>
      have sound : config.probe.problem? = none := valid
      exact ⟨_, by
        rw [build, ofConfig, AdaptiveBalancer.ofConfig, sound, checkConfig, Except.map, Except.map,
          Except.map]⟩
  | affinity config =>
      have sound : config.problem? = none := valid
      exact ⟨_, by
        rw [build, ofConfig, AffinityBalancer.ofConfig, sound, checkConfig, Except.map, Except.map,
          Except.map]⟩

/-- A valid configuration is all that a node needs to join a cluster. -/
theorem Node.exists_join {config : NodeConfig} (valid : config.problem? = none)
    (identity : NodeIdentity) (now : Moment) (cluster : Cluster) :
    ∃ node joined, Node.join config identity now cluster = .ok (node, joined) ∧
      node.resolver.config = config.stealing := by
  obtain ⟨stealing, others⟩ := (Option.orElse_eq_none _ _).1 valid
  obtain ⟨balancer, -⟩ := (Option.orElse_eq_none _ _).1 others
  obtain ⟨built, builds⟩ := Balancer.exists_build balancer cluster.members
  have starts : Resolver.start config.stealing (cluster.view identity.id) = .ok
      { config := config.stealing
        queue := (cluster.view identity.id).remote.map Member.id } := by
    rw [Resolver.start, stealing]
    rfl
  cases joins : Node.join config identity now cluster with
  | error failure =>
      rw [Node.join, valid, starts, builds] at joins
      cases joins
  | ok pair =>
      refine ⟨pair.1, pair.2, rfl, ?_⟩
      rw [Node.join, valid, starts, builds] at joins
      cases joins
      rfl

theorem Node.join_of_problem {config : NodeConfig} {problem : String}
    (broken : config.problem? = some problem) (identity : NodeIdentity) (now : Moment)
    (cluster : Cluster) :
    Node.join config identity now cluster = .error (.invalidConfig problem) := by
  rw [Node.join, broken]
  rfl

namespace Custody

variable {custody : Custody} {limit : Nat}

/-- Whatever happens, the active jobs go on to keep to the limit. -/
theorem limits_perform (sound : custody.Sound) (limits : custody.stage.Limits limit custody.node)
    (event : CustodyEvent) :
    (custody.perform event).stage.Limits limit (custody.perform event).node := by
  obtain ⟨owner, stocked⟩ := sound.explains.stocked
  have begins : custody.stage.Limits limit
      (custody.tasking.turnAt event.now event.cluster).node := limits
  cases action : event.action with
  | react action =>
      simp only [Custody.perform, action]
      split
      · exact limits
      · rename_i single
        simp only [Custody.node, Tasking.node_perform]
        let keeps (turn : Turn) : Prop := custody.stage.Limits limit turn.node
        have same : ∀ {before after : Turn}, keeps before → before.SameJobs after → keeps after :=
          LookStage.Limits.of_sameJobs
        exact Turn.keeps_turnOf same LookStage.Limits.hold begins (Bool.eq_false_iff.2 single)
  | watch =>
      simp only [Custody.perform, action]
      split
      · rename_i rests
        rw [rests] at begins
        exact (begins.watch _).congr rfl rfl rfl
      · exact limits
  | decide =>
      simp only [Custody.perform, action]
      split
      · rename_i waiting active watches
        rw [watches] at begins
        have distinct := Stocked.nodup_refs stocked.distinct.of_append_left stocked.waits
        have passed := begins.pass distinct
          (event.cluster.view custody.node.id) custody.node.restrictions custody.node.chance.peers
          event.now event.cluster.accepts
        obtain ⟨cluster, sent⟩ := exists_cluster_of_sendRequests
          ((custody.tasking.turnAt event.now event.cluster).update fun node => { node with
            resolver := (passOver (custody.tasking.turnAt event.now event.cluster) waiting
              active).resolver
            store := (passOver (custody.tasking.turnAt event.now event.cluster) waiting
              active).store })
          (passOver (custody.tasking.turnAt event.now event.cluster) waiting active).requests
        simp only [Custody.node, Tasking.after, sent]
        split
        · exact passed.proceed (fun settled => by cases settled) fun _ _ same => by cases same
        · exact passed
      · exact limits
  | settle =>
      simp only [Custody.perform, action]
      split
      · rename_i decided
        rw [decided] at begins
        exact begins.settle stocked.nodup_sorted.of_append_right _ _ _
      · exact limits
  | report =>
      simp only [Custody.perform, action]
      split
      · rename_i ref leaving starting sorts
        have handed := begins.handOff ref
        rw [sorts] at handed
        split
        · exact handed.proceed (fun settled => by cases settled) fun _ _ same => by cases same
        · exact handed.proceed (fun _ => rfl) fun _ _ same => by
            cases leaving <;> cases starting <;> cases same
      · exact limits
  | launch =>
      simp only [Custody.perform, action]
      split
      · rename_i ref starting sorts
        have begun := begins.execute ref
        rw [sorts] at begun
        exact begun.proceed (fun _ => rfl) fun _ _ same => by cases starting <;> cases same
      · exact limits
  | count execution =>
      simp only [Custody.perform, action]
      split
      · exact begins.count execution
      · exact limits
  | finish execution =>
      simp only [Custody.perform, action]
      split
      · exact begins.dismiss execution
      · exact limits

/-- Of a node that has not held any job, the active jobs keep to the limit. -/
theorem limits_start {node : Node} (new : node.IsNew) :
    LookStage.rests.Limits node.resolver.config.activeThreshold.toNat node := by
  obtain ⟨waiting, active⟩ := List.append_eq_nil_iff.1 new.jobs
  rw [List.map_eq_nil_iff] at waiting
  rw [Table.keys, List.map_eq_nil_iff] at active
  refine ⟨rfl, ?_, ?_, ?_, ?_, fun _ _ same => by cases same⟩
  · simp [waiting]
  · simp [JobQueue.waitingIn, waiting, Table.size, active]
  · simp [Table.values, active]
  · simp [waiting]

/-- A node with a valid configuration joins any cluster. From then on it never has more active jobs
than it is configured to have, and each of them is active, whatever happens to the node and in
whatever order: jobs come, peers ask for work, the loop proceeds step by step and executions end.
Whenever the queue was settled since jobs were started, as it is between two looks of the loop, all
waiting jobs wait. -/
theorem active_limit (config : NodeConfig) (identity : NodeIdentity) (now : Moment)
    (cluster : Cluster) :
    (∃ problem, config.problem? = some problem ∧
      Node.join config identity now cluster = .error (.invalidConfig problem)) ∨
    config.problem? = none ∧ ∃ node joined,
      Node.join config identity now cluster = .ok (node, joined) ∧
      ∀ history : List CustodyEvent,
        let final := run { tasking := { node } } history
        final.node.queue.active.size ≤ config.stealing.activeThreshold.toNat ∧
        (∀ ref ∈ final.node.queue.active.values, final.node.store.state? ref = some .active) ∧
        (final.stage.isSettled = true →
          ∀ job ∈ final.node.queue.waiting, final.node.store.state? job.ref = some .waiting) := by
  cases valid : config.problem? with
  | some problem => exact .inl ⟨problem, rfl, Node.join_of_problem valid identity now cluster⟩
  | none =>
      obtain ⟨node, joined, joins, stealing⟩ := Node.exists_join valid identity now cluster
      refine .inr ⟨rfl, node, joined, joins, fun history => ?_⟩
      have new := Node.isNew_of_join joins
      let keeps (custody : Custody) : Prop := custody.Sound ∧
        custody.stage.Limits config.stealing.activeThreshold.toNat custody.node
      have step : ∀ {custody : Custody} (event : CustodyEvent), keeps custody →
          keeps (custody.perform event) :=
        fun event both => ⟨both.1.perform event, limits_perform both.1 both.2 event⟩
      have kept : keeps (run { tasking := { node } } history) :=
        run_keeps step history ⟨Sound.start new, stealing ▸ limits_start new⟩
      exact ⟨Nat.le_trans (Nat.le_add_right _ _) kept.2.fits, kept.2.active, kept.2.waits⟩

/-- The limit is reached, and not passed when a job comes between two steps of the loop. -/
example :
    let node : Node := {
      id := .ofNat 0
      config := {}
      chance := {}
      queue := { capacity := 9 }
      resolver := { config := { activeThreshold := 1 } }
      balancer := .affinity { config := {}, ring := .empty "" Digest.md5 }
      tracker := { started := 0, cpus := 1 }
      inbox := 0
      position := 0 }
    let cluster : Cluster := {
      capacity := 9
      members := [{ id := .ofNat 0 }]
      inboxes := ⟨[(.ofNat 0, 0)], by decide⟩
      mailboxes := #[{}] }
    let happens (action : CustodyAction) : CustodyEvent := ⟨0, cluster, action⟩
    let jobs : List JobSpec := [{ id := .ofNat 7 }, { id := .ofNat 8 }, { id := .ofNat 9 }]
    let final := run { tasking := { node } } [
      happens (.react (.submit (.ofNat 5) jobs .pinned)), happens (.react (.place (.ofNat 5))),
      happens (.react (.place (.ofNat 5))), happens .watch, happens (.react (.place (.ofNat 5))),
      happens .decide, happens .settle]
    final.node.queue.active.values = [0] ∧
      final.node.queue.waiting.map QueuedJob.ref = [1, 2] := by
  decide +kernel

end Custody

end JobGrid
