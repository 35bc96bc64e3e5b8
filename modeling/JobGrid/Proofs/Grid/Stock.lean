import Mathlib.Data.List.Nodup
import Mathlib.Data.List.Perm.Basic
import JobGrid.Job.Queue
import JobGrid.Proofs.Grid.Mail
import JobGrid.Proofs.Steal.Busy
import JobGrid.Proofs.Steal.History
import JobGrid.Proofs.Table
import JobGrid.Work.Execution

/-!
# The jobs on a node

The stock of a node consists of the jobs in its queue together with their handles and
executions. No job is in a queue twice, each one has a handle that tells the truth about it, and
each execution works on a different active job. Taking jobs in, settling the queue, starting
work and completing it keep this, and none of them drops a job.
-/

namespace JobGrid

namespace JobStore

/-- A reference leads to the handle of a job, which tells the truth about the job. -/
def Names (store : JobStore) (owner : Owners) (ref : JobRef) (job : JobId) : Prop :=
  ∃ handle, store.get? ref = some handle ∧ handle.id = job ∧
    owner job = some (handle.origin, handle.session)

/-- Between two moments handles came, and those that were there stayed with the same job. -/
def Extends (before after : JobStore) : Prop :=
  ∀ ref handle, before.get? ref = some handle → ∃ later, after.get? ref = some later ∧
    later.spec = handle.spec ∧ later.origin = handle.origin ∧ later.session = handle.session

namespace Extends

protected theorem refl (store : JobStore) : store.Extends store :=
  fun _ handle found => ⟨handle, found, rfl, rfl, rfl⟩

protected theorem trans {first second third : JobStore} (left : first.Extends second)
    (right : second.Extends third) : first.Extends third := by
  intro ref handle found
  obtain ⟨later, there, spec, origin, session⟩ := left ref handle found
  obtain ⟨last, kept, spec', origin', session'⟩ := right ref later there
  exact ⟨last, kept, spec'.trans spec, origin'.trans origin, session'.trans session⟩

theorem names {before after : JobStore} {owner : Owners} {ref : JobRef} {job : JobId}
    (grows : before.Extends after) (names : before.Names owner ref job) :
    after.Names owner ref job := by
  obtain ⟨handle, found, id, owned⟩ := names
  obtain ⟨later, there, spec, origin, session⟩ := grows ref handle found
  refine ⟨later, there, ?_, ?_⟩
  · rw [← id, JobHandle.id, JobHandle.id, spec]
  · rw [owned, origin, session]

theorem push (store : JobStore) (handle : JobHandle) : store.Extends (store.push handle) := by
  intro ref earlier found
  have old : ref ≠ store.next := by
    obtain ⟨bound, -⟩ := Array.getElem?_eq_some_iff.1 found
    exact Nat.ne_of_lt bound
  exact ⟨earlier, by rw [get?_push, if_neg old, found], rfl, rfl, rfl⟩

theorem set {store : JobStore} {ref : JobRef} {earlier handle : JobHandle}
    (found : store.get? ref = some earlier) (spec : handle.spec = earlier.spec)
    (origin : handle.origin = earlier.origin) (session : handle.session = earlier.session) :
    store.Extends (store.set ref handle) := by
  intro other old there
  by_cases same : ref = other
  · subst same
    obtain ⟨bound, -⟩ := Array.getElem?_eq_some_iff.1 found
    rw [found, Option.some.injEq] at there
    exact ⟨handle, by rw [get?_set, if_pos ⟨rfl, bound⟩], there ▸ spec, there ▸ origin,
      there ▸ session⟩
  · exact ⟨old, by rw [get?_set, if_neg fun both => same both.1, there], rfl, rfl, rfl⟩

theorem transition (store : JobStore) (ref : JobRef) (state : JobState) :
    store.Extends (store.transition ref state).2 := by
  simp only [JobStore.transition]
  split
  · rename_i job found
    split
    · exact set found rfl rfl rfl
    · exact .refl store
  · exact .refl store

theorem markStolen (store : JobStore) (ref : JobRef) (thief : NodeId) :
    store.Extends (store.markStolen ref thief) := by
  simp only [JobStore.markStolen]
  split
  · rename_i job found
    exact set found rfl rfl rfl
  · exact .refl store

end Extends

/-- A reference leads to one job only. -/
theorem Names.unique {store : JobStore} {owner : Owners} {ref : JobRef} {first second : JobId}
    (left : store.Names owner ref first) (right : store.Names owner ref second) :
    first = second := by
  obtain ⟨handle, found, id, -⟩ := left
  obtain ⟨other, same, id', -⟩ := right
  rw [found, Option.some.injEq] at same
  rw [← id, ← id', same]

end JobStore

/-- Whatever is in a state each is sorted by the states. -/
theorem JobState.perm_sorted {α : Type} {state? : α → Option JobState} {items : List α}
    (known : ∀ item ∈ items, (state? item).isSome) :
    (items.filter (fun item => state? item = some .waiting) ++
      items.filter (fun item => state? item = some .active) ++
      items.filter (fun item => state? item = some .cancelled)).Perm items := by
  induction items with
  | nil => exact .refl _
  | cons item rest ih =>
      rw [List.forall_mem_cons] at known
      have tail := ih known.2
      obtain ⟨kind, state⟩ := Option.isSome_iff_exists.1 known.1
      cases kind with
      | waiting =>
          simp only [List.filter_cons, state, Option.some.injEq, reduceCtorEq,
            decide_true, decide_false, if_true, Bool.false_eq_true, if_false, List.cons_append]
          exact tail.cons item
      | active =>
          simp only [List.filter_cons, state, Option.some.injEq, reduceCtorEq,
            decide_true, decide_false, if_true, Bool.false_eq_true, if_false,
            List.append_assoc, List.cons_append]
          refine List.perm_middle.trans (List.Perm.cons item ?_)
          rw [← List.append_assoc]
          exact tail
      | cancelled =>
          simp only [List.filter_cons, state, Option.some.injEq, reduceCtorEq,
            decide_true, decide_false, if_true, Bool.false_eq_true, if_false]
          exact List.perm_middle.trans (tail.cons item)

namespace JobQueue

/-- The jobs in a queue. -/
def jobs (queue : JobQueue) : List JobId := queue.waiting.map QueuedJob.id ++ queue.active.keys

theorem get?_eq_none_iff {queue : JobQueue} {job : JobId} :
    queue.get? job = none ↔ job ∉ queue.jobs := by
  rw [jobs, List.mem_append, not_or, ← Table.get?_eq_none_iff, get?]
  cases queue.active.get? job with
  | none => simp
  | some ref => simp

/-- A job that the queue takes waits behind all others. -/
theorem add_of_accepts {queue : JobQueue} (job : QueuedJob)
    (accepts : queue.accepts job.id = true) :
    (queue.add job).2 = { queue with waiting := queue.waiting ++ [job] } ∧
      job.id ∉ queue.jobs := by
  have absent : queue.get? job.id = none := by
    simp only [JobQueue.accepts, Bool.and_eq_true, Option.isNone_iff_eq_none] at accepts
    exact accepts.2
  exact ⟨by rw [add, if_pos accepts], get?_eq_none_iff.1 absent⟩

/-- The active jobs after some more became active. -/
theorem entries_activate (jobs : List QueuedJob) (active : Table JobId JobRef)
    (distinct : (active.keys ++ jobs.map QueuedJob.id).Nodup) :
    (jobs.foldl (fun active job => active.insert job.id job.ref) active).entries =
      active.entries ++ jobs.map fun job => (job.id, job.ref) := by
  induction jobs generalizing active with
  | nil => simp
  | cons job rest ih =>
      rw [List.map_cons, List.append_cons] at distinct
      have fresh : job.id ∉ active.keys := by
        have first := distinct.of_append_left
        rw [← List.concat_eq_append, List.nodup_concat] at first
        exact first.1
      have keys : (active.insert job.id job.ref).keys = active.keys ++ [job.id] := by
        rw [Table.keys_insert, if_neg fresh]
      rw [List.foldl_cons, ih _ (by rw [keys]; exact distinct),
        Table.entries_insert_of_not_mem fresh, List.map_cons, ← List.append_cons]

theorem keys_activate (jobs : List QueuedJob) (active : Table JobId JobRef)
    (distinct : (active.keys ++ jobs.map QueuedJob.id).Nodup) :
    (jobs.foldl (fun active job => active.insert job.id job.ref) active).keys =
      active.keys ++ jobs.map QueuedJob.id := by
  rw [Table.keys, entries_activate jobs active distinct, List.map_append, List.map_map]
  rfl

theorem values_activate (jobs : List QueuedJob) (active : Table JobId JobRef)
    (distinct : (active.keys ++ jobs.map QueuedJob.id).Nodup) :
    (jobs.foldl (fun active job => active.insert job.id job.ref) active).values =
      active.values ++ jobs.map QueuedJob.ref := by
  rw [Table.values, entries_activate jobs active distinct, List.map_append, List.map_map]
  rfl

theorem get?_activate_of_not_mem {jobs : List QueuedJob} {active : Table JobId JobRef}
    {job : JobId} (outside : job ∉ jobs.map QueuedJob.id) :
    (jobs.foldl (fun active job => active.insert job.id job.ref) active).get? job =
      active.get? job := by
  induction jobs generalizing active with
  | nil => rfl
  | cons first rest ih =>
      rw [List.map_cons, List.mem_cons, not_or] at outside
      rw [List.foldl_cons, ih outside.2, Table.get?_insert, if_neg (Ne.symm outside.1)]

theorem get?_activate_of_mem {jobs : List QueuedJob} {active : Table JobId JobRef}
    (distinct : (jobs.map QueuedJob.id).Nodup) {job : QueuedJob} (member : job ∈ jobs) :
    (jobs.foldl (fun active job => active.insert job.id job.ref) active).get? job.id =
      some job.ref := by
  induction jobs generalizing active with
  | nil => cases member
  | cons first rest ih =>
      rw [List.map_cons, List.nodup_cons] at distinct
      cases List.mem_cons.1 member with
      | inl equal =>
          subst equal
          rw [List.foldl_cons, get?_activate_of_not_mem distinct.1, Table.get?_insert_self]
      | inr inside => exact ih distinct.2 inside

/-- Settling sorts the waiting jobs by their states. -/
theorem perm_waitingIn {queue : JobQueue} {store : JobStore}
    (known : ∀ job ∈ queue.waiting, (store.get? job.ref).isSome) :
    (queue.waitingIn store .waiting ++ queue.waitingIn store .active ++
      queue.waitingIn store .cancelled).Perm queue.waiting := by
  refine JobState.perm_sorted fun job member => ?_
  rw [JobStore.state?, Option.isSome_map]
  exact known job member

end JobQueue

/-- What holds of the queue of a node, its handles and its executions. Some jobs that left the
queue still have to be reported, and the work of some active ones has yet to start. -/
structure Stocked (owner : Owners) (leaving : List QueuedJob) (starting : List JobRef)
    (queue : JobQueue) (store : JobStore) (executions : List Execution) : Prop where
  distinct : queue.jobs.Nodup
  waits : ∀ job ∈ queue.waiting, store.Names owner job.ref job.id
  runs : ∀ {job ref}, queue.active.get? job = some ref → store.Names owner ref job
  leaves : ∀ job ∈ leaving, store.Names owner job.ref job.id
  single : (executions.map Execution.job ++ starting).Nodup
  busy : ∀ ref ∈ executions.map Execution.job ++ starting, ∃ job,
    queue.active.get? job = some ref

namespace Stocked

variable {owner : Owners} {leaving : List QueuedJob} {starting : List JobRef}
  {queue : JobQueue} {store : JobStore} {executions : List Execution}

/-- A node without jobs has nothing to do. -/
theorem empty (owner : Owners) {queue : JobQueue} (nothing : queue.jobs = []) (store : JobStore) :
    Stocked owner [] [] queue store [] := by
  obtain ⟨waiting, active⟩ := List.append_eq_nil_iff.1 nothing
  rw [List.map_eq_nil_iff] at waiting
  refine ⟨by rw [nothing]; exact List.nodup_nil, ?_, ?_, ?_, List.nodup_nil, ?_⟩
  · rw [waiting]
    exact fun _ member => absurd member List.not_mem_nil
  · intro job ref found
    have member : job ∈ queue.active.keys := Table.mem_keys_iff.2 ⟨ref, found⟩
    rw [active] at member
    cases member
  · exact fun _ member => absurd member List.not_mem_nil
  · exact fun _ member => absurd member List.not_mem_nil

/-- What is in the hand of the node may be put aside. -/
theorem release (stocked : Stocked owner leaving starting queue store executions) :
    Stocked owner [] [] queue store executions where
  distinct := stocked.distinct
  waits := stocked.waits
  runs := stocked.runs
  leaves _ member := absurd member List.not_mem_nil
  single := by
    rw [List.append_nil]
    exact stocked.single.of_append_left
  busy ref member := by
    rw [List.append_nil] at member
    exact stocked.busy ref (List.mem_append_left starting member)

/-- The handles may change as long as they stay with their jobs. -/
theorem extend {later : JobStore}
    (stocked : Stocked owner leaving starting queue store executions)
    (grows : store.Extends later) : Stocked owner leaving starting queue later executions where
  distinct := stocked.distinct
  waits job member := grows.names (stocked.waits job member)
  runs found := grows.names (stocked.runs found)
  leaves job member := grows.names (stocked.leaves job member)
  single := stocked.single
  busy := stocked.busy

/-- A job comes into the queue. -/
theorem add (stocked : Stocked owner leaving starting queue store executions)
    (handle : JobHandle) (accepts : queue.accepts handle.id = true)
    (owned : owner handle.id = some (handle.origin, handle.session)) :
    Stocked owner leaving starting (queue.add ⟨handle.id, store.next⟩).2 (store.push handle)
      executions := by
  have grown := stocked.extend (.push store handle)
  obtain ⟨added, fresh⟩ := JobQueue.add_of_accepts ⟨handle.id, store.next⟩ accepts
  rw [added]
  refine ⟨?_, ?_, grown.runs, grown.leaves, grown.single, grown.busy⟩
  · have old := stocked.distinct
    rw [JobQueue.jobs, List.mem_append, not_or] at fresh
    rw [JobQueue.jobs, List.nodup_append] at old ⊢
    obtain ⟨waiting, active, apart⟩ := old
    rw [List.map_append, List.map_singleton, ← List.concat_eq_append, List.nodup_concat]
    refine ⟨⟨fresh.1, waiting⟩, active, ?_⟩
    intro left member right other equal
    rw [List.concat_eq_append, List.mem_append, List.mem_singleton] at member
    cases member with
    | inl earlier => exact apart left earlier right other equal
    | inr new => exact fresh.2 (new ▸ equal ▸ other)
  · intro job member
    rw [List.mem_append, List.mem_singleton] at member
    cases member with
    | inl earlier => exact grown.waits job earlier
    | inr new =>
        subst new
        exact ⟨handle, by rw [JobStore.get?_push, if_pos rfl], rfl, owned⟩

theorem jobs_add (queue : JobQueue) (job : QueuedJob) (accepts : queue.accepts job.id = true) :
    ((queue.add job).2.jobs).Perm (job.id :: queue.jobs) := by
  rw [(JobQueue.add_of_accepts job accepts).1, JobQueue.jobs, JobQueue.jobs, List.map_append,
    List.map_singleton, List.append_assoc]
  exact List.perm_middle

/-- Of the references of distinct waiting jobs, none occurs twice. -/
theorem nodup_refs {jobs : List QueuedJob} (distinct : (jobs.map QueuedJob.id).Nodup)
    (names : ∀ job ∈ jobs, store.Names owner job.ref job.id) :
    (jobs.map QueuedJob.ref).Nodup := by
  rw [List.Nodup, List.pairwise_map] at distinct ⊢
  refine distinct.imp_of_mem ?_
  intro first second left right differs same
  exact differs ((names first left).unique (same ▸ names second right))

/-- Every waiting job has a handle. -/
theorem known (stocked : Stocked owner leaving starting queue store executions) :
    ∀ job ∈ queue.waiting, (store.get? job.ref).isSome := by
  intro job member
  obtain ⟨handle, found, -⟩ := stocked.waits job member
  rw [found]
  rfl

/-- The waiting jobs of a queue are sorted by their states. -/
theorem perm_waiting (stocked : Stocked owner leaving starting queue store executions) :
    ((queue.waitingIn store .waiting).map QueuedJob.id ++
      (queue.waitingIn store .active).map QueuedJob.id ++
      (queue.waitingIn store .cancelled).map QueuedJob.id).Perm
        (queue.waiting.map QueuedJob.id) := by
  rw [← List.map_append, ← List.map_append]
  exact (JobQueue.perm_waitingIn stocked.known).map QueuedJob.id

/-- No job stays after settling that was started or active before. -/
theorem nodup_sorted (stocked : Stocked owner leaving starting queue store executions) :
    ((queue.waitingIn store .waiting).map QueuedJob.id ++
      (queue.active.keys ++ (queue.waitingIn store .active).map QueuedJob.id)).Nodup := by
  have distinct := stocked.distinct
  rw [JobQueue.jobs, ((stocked.perm_waiting.symm).append_right _).nodup_iff] at distinct
  have moved : ∀ waits starts stops runs : List JobId,
      (waits ++ starts ++ stops ++ runs).Perm (waits ++ (runs ++ starts) ++ stops) := by
    intro waits starts stops runs
    rw [List.perm_iff_count]
    intro job
    simp only [List.count_append]
    omega
  exact ((moved _ _ _ _).nodup_iff.1 distinct).of_append_left

theorem keys_settle (stocked : Stocked owner leaving starting queue store executions) :
    (queue.settle store).active.keys =
      queue.active.keys ++ (queue.waitingIn store .active).map QueuedJob.id :=
  JobQueue.keys_activate _ _ stocked.nodup_sorted.of_append_right

/-- Settling a queue whose started and cancelled jobs have been taken care of before. -/
theorem settle (stocked : Stocked owner [] [] queue store executions) :
    Stocked owner (queue.settled store).cancelled
      ((queue.settled store).activated.map QueuedJob.ref) (queue.settle store) store
      executions := by
  have within : ∀ state, ∀ job ∈ queue.waitingIn store state, store.Names owner job.ref job.id :=
    fun state job member => stocked.waits job (List.mem_of_mem_filter member)
  obtain ⟨-, starts, apart⟩ := List.nodup_append.1 stocked.nodup_sorted.of_append_right
  have later : ∀ job ∈ (queue.waitingIn store .active).map QueuedJob.id,
      job ∉ queue.active.keys := fun job member running => apart job running job member rfl
  have keeps : ∀ {job ref}, queue.active.get? job = some ref →
      (queue.settle store).active.get? job = some ref := by
    intro job ref found
    have running : job ∈ queue.active.keys := Table.mem_keys_iff.2 ⟨ref, found⟩
    rw [← found]
    exact JobQueue.get?_activate_of_not_mem fun member => later job member running
  have begins : ∀ job ∈ queue.waitingIn store .active,
      (queue.settle store).active.get? job.id = some job.ref :=
    fun job member => JobQueue.get?_activate_of_mem starts member
  refine ⟨?_, within .waiting, ?_, within .cancelled, ?_, ?_⟩
  · rw [JobQueue.jobs, stocked.keys_settle]
    exact stocked.nodup_sorted
  · intro job ref found
    by_cases member : job ∈ (queue.waitingIn store .active).map QueuedJob.id
    · obtain ⟨queued, inside, rfl⟩ := List.mem_map.1 member
      rw [begins queued inside, Option.some.injEq] at found
      exact found ▸ within .active queued inside
    · have old : queue.active.get? job = some ref := by
        rw [← found]
        exact (JobQueue.get?_activate_of_not_mem member).symm
      exact stocked.runs old
  · have single := stocked.single
    rw [List.append_nil] at single
    refine List.nodup_append.2 ⟨single, nodup_refs starts (within .active), ?_⟩
    rintro ref working other started rfl
    obtain ⟨queued, inside, rfl⟩ := List.mem_map.1 started
    obtain ⟨job, found⟩ := stocked.busy queued.ref (List.mem_append_left _ working)
    have equal := (stocked.runs found).unique (within .active queued inside)
    exact later queued.id (List.mem_map_of_mem inside)
      (Table.mem_keys_iff.2 ⟨queued.ref, equal ▸ found⟩)
  · intro ref member
    cases List.mem_append.1 member with
    | inl working =>
        obtain ⟨job, found⟩ := stocked.busy ref (List.mem_append_left _ working)
        exact ⟨job, keeps found⟩
    | inr started =>
        obtain ⟨queued, inside, rfl⟩ := List.mem_map.1 started
        exact ⟨queued.id, begins queued inside⟩

/-- Settling drops nothing but the cancelled jobs. -/
theorem jobs_settle (stocked : Stocked owner leaving starting queue store executions) :
    ((queue.settle store).jobs ++ (queue.settled store).cancelled.map QueuedJob.id).Perm
      queue.jobs := by
  have sorted := stocked.perm_waiting
  rw [List.perm_iff_count] at sorted ⊢
  intro job
  have parts := sorted job
  simp only [JobQueue.jobs, stocked.keys_settle, JobQueue.settled, JobQueue.waiting_settle,
    List.count_append] at parts ⊢
  omega

/-- The work of a started job begins, if it can. -/
theorem start {ref : JobRef} {rest : List JobRef}
    (stocked : Stocked owner leaving (ref :: rest) queue store executions)
    (begun : List Execution) (works : (begun.map Execution.job).Sublist [ref]) :
    Stocked owner leaving rest queue store (executions ++ begun) := by
  have fewer : ((executions ++ begun).map Execution.job ++ rest).Sublist
      (executions.map Execution.job ++ ref :: rest) := by
    rw [List.map_append, List.append_assoc, List.append_cons _ ref, List.append_assoc]
    exact (works.append_right rest).append_left _
  exact { stocked with
    single := fewer.nodup stocked.single
    busy := fun other member => stocked.busy other (fewer.subset member) }

/-- Of a job that was reported, nothing is needed any more. -/
theorem leave {job : QueuedJob} {rest : List QueuedJob}
    (stocked : Stocked owner (job :: rest) starting queue store executions) :
    Stocked owner rest starting queue store executions :=
  { stocked with
    leaves := fun other member => stocked.leaves other (List.mem_cons_of_mem job member) }

/-- An execution works on an active job. -/
theorem active_of_execution {execution : Execution}
    (stocked : Stocked owner leaving starting queue store executions)
    (working : execution ∈ executions) :
    ∃ handle, store.get? execution.job = some handle ∧
      queue.active.get? handle.id = some execution.job ∧
      owner handle.id = some (handle.origin, handle.session) := by
  obtain ⟨job, found⟩ := stocked.busy execution.job
    (List.mem_append_left _ (List.mem_map_of_mem working))
  obtain ⟨handle, there, rfl, owned⟩ := stocked.runs found
  exact ⟨handle, there, found, owned⟩

/-- An execution is over, and its job leaves the queue. -/
theorem complete {execution : Execution} {job : JobId}
    (stocked : Stocked owner leaving starting queue store executions)
    (working : execution ∈ executions)
    (active : queue.active.get? job = some execution.job) :
    Stocked owner leaving starting (queue.complete job) store (executions.erase execution) := by
  have split := ((List.perm_cons_erase working).map Execution.job).append_right starting
  rw [List.map_cons, List.cons_append] at split
  have single := split.nodup_iff.1 stocked.single
  rw [List.nodup_cons] at single
  have others : ∀ {other ref}, (queue.complete job).active.get? other = some ref →
      queue.active.get? other = some ref := by
    intro other ref found
    rw [JobQueue.complete, Table.get?_erase] at found
    split at found
    · cases found
    · exact found
  have keys : (queue.complete job).active.keys.Sublist queue.active.keys := by
    rw [JobQueue.complete, Table.keys_erase]
    exact List.filter_sublist
  refine ⟨(keys.append_left _).nodup stocked.distinct, stocked.waits,
    fun found => stocked.runs (others found), stocked.leaves, single.2, ?_⟩
  intro ref member
  obtain ⟨other, found⟩ := stocked.busy ref (split.symm.subset (List.mem_cons_of_mem _ member))
  have differs : job ≠ other := by
    rintro rfl
    rw [active, Option.some.injEq] at found
    exact single.1 (found ▸ member)
  exact ⟨other, by rw [JobQueue.complete, Table.get?_erase_of_ne _ differs, found]⟩

/-- Only its job leaves the queue when an execution is over. -/
theorem jobs_complete {job : JobId} {ref : JobRef} (active : queue.active.get? job = some ref) :
    queue.jobs.Perm (job :: (queue.complete job).jobs) := by
  have split := (Table.perm_entries_erase active).map Prod.fst
  exact (split.append_left _).trans List.perm_middle

end Stocked

/-- No step of a pass takes a handle away from its job. -/
theorem Busy.kept_extends (scene : PassScene) (waiting : Nat) (store : JobStore) :
    Busy.Kept scene waiting True fun busy => store.Extends busy.store where
  start := by
    intro busy job grows
    exact grows.trans (.transition busy.store job .active)
  forget := by
    intro busy peer grows _
    cases dropped : busy.forget peer with
    | error fault => trivial
    | ok next =>
        rw [Busy.ends_ok, (Busy.store_of_forget scene waiting dropped).1]
        exact grows
  expire := by
    intro busy peer entry grows _ _
    cases tookBack : busy.expire scene peer with
    | error fault => trivial
    | ok next =>
        rw [Busy.ends_ok, (Busy.store_of_expire waiting tookBack).1]
        exact grows
  give := by
    intro busy peer entry job handle grows found _ _ _ _ _ _ _ _ _ _
    simp only [Busy.give]
    cases busy.received.decrement scene.now peer with
    | error fault => trivial
    | ok received =>
        cases busy.counter.add (-1) with
        | error fault => trivial
        | ok counter =>
            have cancelled : busy.store.Extends
                (busy.store.set job { handle with state := .cancelled }) := .set found rfl rfl rfl
            exact (grows.trans cancelled).trans (.markStolen _ job peer)

/-- A pass takes no handle away from its job. -/
theorem Resolver.extends_collide (resolver : Resolver) (scene : PassScene)
    (accepts : NodeId → Bool) (store : JobStore) (waiting : List JobRef) (active : Nat) :
    store.Extends (resolver.collide scene accepts store waiting active).store := by
  have kept : Busy.Ends True (fun busy => store.Extends busy.store)
      (Busy.run scene waiting active
        { received := resolver.received, counter := resolver.counter, store }) :=
    Busy.run_keeps (Busy.kept_extends scene waiting.length store) active
      (JobStore.Extends.refl store)
  cases ran : Busy.run scene waiting active
      { received := resolver.received, counter := resolver.counter, store } with
  | error fault =>
      simp only [collide, ran]
      exact .refl store
  | ok busy =>
      rw [ran] at kept
      rw [(Stealing.collide_of_run accepts ran).1]
      exact kept

end JobGrid
