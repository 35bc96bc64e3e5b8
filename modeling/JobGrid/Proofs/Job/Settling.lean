import JobGrid.Proofs.Grid.Stock

/-!
# Settling a queue

A queue is settled while handles go on changing: each waiting job is looked at once, and before each
look any handles may be started or cancelled. By the state in which their handles were seen,
settling splits the waiting jobs into those that stay, those that become active and those that
leave. None is lost, none comes twice, and no active job is replaced.
-/

namespace JobGrid

/-- A change of a handle outside of the queue. -/
inductive HandleMove where
  | activate (ref : JobRef)
  | cancel (ref : JobRef)

namespace JobStore

def move (store : JobStore) : HandleMove → JobStore
  | .activate ref => (store.activate ref).2
  | .cancel ref => (store.cancel ref).2

/-- Lets some handles change, one after another. -/
def moves (store : JobStore) (moves : List HandleMove) : JobStore := moves.foldl move store

theorem moves_append (store : JobStore) (first later : List HandleMove) :
    store.moves (first ++ later) = (store.moves first).moves later := List.foldl_append

namespace Extends

theorem move (store : JobStore) (change : HandleMove) : store.Extends (store.move change) := by
  cases change with
  | activate ref => exact transition store ref .active
  | cancel ref => exact transition store ref .cancelled

theorem moves (store : JobStore) (changes : List HandleMove) :
    store.Extends (store.moves changes) := by
  induction changes generalizing store with
  | nil => exact .refl store
  | cons change later ih => exact (move store change).trans (ih (store.move change))

/-- A handle stays in the store. -/
theorem isSome_get? {before after : JobStore} (grows : before.Extends after) {ref : JobRef}
    (known : (before.get? ref).isSome) : (after.get? ref).isSome := by
  obtain ⟨handle, found⟩ := Option.isSome_iff_exists.1 known
  obtain ⟨later, there, -⟩ := grows ref handle found
  rw [there]
  rfl

end Extends

end JobStore

/-- A job in the state in which it was found. -/
structure Sight where
  job : QueuedJob
  state? : Option JobState

namespace Sight

/-- The jobs that were found in a state. -/
def inState (sights : List Sight) (state : JobState) : List QueuedJob :=
  (sights.filter fun sight => sight.state? = some state).map Sight.job

/-- Looks at some jobs one after another; before each look some handles change. Gives what was seen
and the handles afterwards. -/
def look (changes : QueuedJob → List HandleMove) : JobStore → List QueuedJob → List Sight × JobStore
  | store, [] => ([], store)
  | store, job :: rest =>
      let changed := store.moves (changes job)
      let (sights, final) := look changes changed rest
      (⟨job, changed.state? job.ref⟩ :: sights, final)

variable {changes : QueuedJob → List HandleMove}

/-- Each job is seen after the changes before the looks at those ahead of it and at itself. -/
theorem look_eq_map {store : JobStore} {jobs : List QueuedJob} (distinct : jobs.Nodup) :
    (look changes store jobs).1 = jobs.map fun job =>
      let seen := store.moves ((jobs.takeWhile (· ≠ job) ++ [job]).flatMap changes)
      ⟨job, seen.state? job.ref⟩ := by
  induction jobs generalizing store with
  | nil => rfl
  | cons job rest ih =>
      obtain ⟨new, later⟩ := List.nodup_cons.1 distinct
      rw [look, List.map_cons]
      refine congrArg₂ List.cons ?_ ?_
      · simp
      · rw [ih later]
        refine List.map_congr_left fun other inside => ?_
        have differs : job ≠ other := fun same => new (same ▸ inside)
        rw [List.takeWhile_cons_of_pos (by simpa using differs), List.cons_append,
          List.flatMap_cons, JobStore.moves_append]

theorem store_look (store : JobStore) (jobs : List QueuedJob) :
    (look changes store jobs).2 = store.moves (jobs.flatMap changes) := by
  induction jobs generalizing store with
  | nil => rfl
  | cons job rest ih =>
      rw [List.flatMap_cons, JobStore.moves_append]
      exact ih (store.moves (changes job))

end Sight

/-- What settling left behind. -/
structure Settlement where
  queue : JobQueue
  settled : Settled
  store : JobStore

namespace JobQueue

/-- Settles a queue while handles change. -/
def settleAmid (queue : JobQueue) (store : JobStore) (changes : QueuedJob → List HandleMove) :
    Settlement :=
  let (sights, final) := Sight.look changes store queue.waiting
  { queue := { queue with
      waiting := Sight.inState sights .waiting
      active := (Sight.inState sights .active).foldl
        (fun active job => active.insert job.id job.ref) queue.active }
    settled := ⟨Sight.inState sights .active, Sight.inState sights .cancelled⟩
    store := final }

/-- The handles at the time when settling looks at one of the waiting jobs: the changes before the
looks at the jobs ahead of it and before the look at itself were made. -/
def handlesAt (queue : JobQueue) (store : JobStore) (changes : QueuedJob → List HandleMove)
    (job : QueuedJob) : JobStore :=
  store.moves ((queue.waiting.takeWhile (· ≠ job) ++ [job]).flatMap changes)

/-- Between two moments the waiting jobs were split in order, by the states in which their handles
were seen: those that were waiting stayed, those that were active became so behind those that were
before, and those that were cancelled left. -/
structure Splits (seen : QueuedJob → JobStore) (before after : JobQueue) (settled : Settled) :
    Prop where
  capacity : after.capacity = before.capacity
  waiting : after.waiting =
    before.waiting.filter fun job => (seen job).state? job.ref = some .waiting
  activated : settled.activated =
    before.waiting.filter fun job => (seen job).state? job.ref = some .active
  cancelled : settled.cancelled =
    before.waiting.filter fun job => (seen job).state? job.ref = some .cancelled
  perm : (after.waiting ++ settled.activated ++ settled.cancelled).Perm before.waiting
  fresh : ∀ job ∈ settled.activated, before.active.get? job.id = none
  active : after.active.entries =
    before.active.entries ++ settled.activated.map fun job => (job.id, job.ref)

/-- Whoever moves the waiting jobs by what is seen of their handles splits them, if the handles of
all of them are there. -/
theorem splits_of_seen {queue : JobQueue} (distinct : queue.jobs.Nodup)
    {seen : QueuedJob → JobStore}
    (known : ∀ job ∈ queue.waiting, ((seen job).get? job.ref).isSome) :
    let sorted (state : JobState) :=
      queue.waiting.filter fun job => (seen job).state? job.ref = some state
    queue.Splits seen
      { queue with
        waiting := sorted .waiting
        active := (sorted .active).foldl (fun active job => active.insert job.id job.ref)
          queue.active }
      ⟨sorted .active, sorted .cancelled⟩ := by
  intro sorted
  have apart := List.nodup_append.1 distinct
  have fresh : ∀ job ∈ sorted .active, queue.active.get? job.id = none := by
    intro job inside
    have waits : job.id ∈ queue.waiting.map QueuedJob.id :=
      List.mem_map_of_mem (List.mem_of_mem_filter inside)
    exact Table.get?_eq_none_iff.2 fun runs => apart.2.2 job.id waits job.id runs rfl
  refine ⟨rfl, rfl, rfl, rfl, ?_, fresh, ?_⟩
  · refine JobState.perm_sorted fun job inside => ?_
    rw [JobStore.state?, Option.isSome_map]
    exact known job inside
  · refine entries_activate _ _ (List.nodup_append.2 ⟨apart.2.1, ?_, ?_⟩)
    · exact (List.filter_sublist.map QueuedJob.id).nodup apart.1
    · rintro running runs job started rfl
      obtain ⟨queued, inside, rfl⟩ := List.mem_map.1 started
      exact Table.get?_eq_none_iff.1 (fresh queued inside) runs

/-- Settling splits the waiting jobs by the states of their handles. -/
theorem splits_settle {queue : JobQueue} {store : JobStore} (distinct : queue.jobs.Nodup)
    (known : ∀ job ∈ queue.waiting, (store.get? job.ref).isSome) :
    queue.Splits (fun _ => store) (queue.settle store) (queue.settled store) :=
  splits_of_seen distinct known

/-- What settling does while handles change, by what is seen of each. -/
theorem settleAmid_eq {queue : JobQueue} (distinct : queue.jobs.Nodup) (store : JobStore)
    (changes : QueuedJob → List HandleMove) :
    let sorted (state : JobState) := queue.waiting.filter fun job =>
      (queue.handlesAt store changes job).state? job.ref = some state
    queue.settleAmid store changes =
      { queue := { queue with
          waiting := sorted .waiting
          active := (sorted .active).foldl (fun active job => active.insert job.id job.ref)
            queue.active }
        settled := ⟨sorted .active, sorted .cancelled⟩
        store := store.moves (queue.waiting.flatMap changes) } := by
  intro sorted
  have each : queue.waiting.Nodup := (List.nodup_append.1 distinct).1.of_map
  have seen : ∀ state,
      Sight.inState (Sight.look changes store queue.waiting).1 state = sorted state := by
    intro state
    rw [Sight.look_eq_map each, Sight.inState, List.filter_map, List.map_map]
    simp only [Function.comp_def, List.map_id']
    rfl
  simp only [settleAmid, seen, Sight.store_look]

/-- Without changes in between, this is how a queue is settled. -/
theorem settleAmid_of_quiet {queue : JobQueue} (distinct : queue.jobs.Nodup) (store : JobStore) :
    queue.settleAmid store (fun _ => []) = ⟨queue.settle store, queue.settled store, store⟩ := by
  have still : ∀ jobs : List QueuedJob, store.moves (jobs.flatMap fun _ => []) = store := by
    intro jobs
    rw [List.flatMap_eq_nil_iff.2 fun _ _ => rfl]
    rfl
  simp only [settleAmid_eq distinct, handlesAt, still]
  rfl

/-- Settling splits the waiting jobs, whatever changes in between. -/
theorem splits_settleAmid {queue : JobQueue} {store : JobStore} (distinct : queue.jobs.Nodup)
    (known : ∀ job ∈ queue.waiting, (store.get? job.ref).isSome)
    (changes : QueuedJob → List HandleMove) :
    queue.Splits (queue.handlesAt store changes) (queue.settleAmid store changes).queue
      (queue.settleAmid store changes).settled := by
  rw [settleAmid_eq distinct]
  exact splits_of_seen distinct fun job inside =>
    (JobStore.Extends.moves store _).isSome_get? (known job inside)

namespace Splits

variable {seen : QueuedJob → JobStore} {before after : JobQueue} {settled : Settled}

theorem waiting_sublist (splits : before.Splits seen after settled) :
    after.waiting.Sublist before.waiting :=
  splits.waiting ▸ List.filter_sublist

theorem keys (splits : before.Splits seen after settled) :
    after.active.keys = before.active.keys ++ settled.activated.map QueuedJob.id := by
  rw [Table.keys, splits.active, List.map_append, List.map_map]
  rfl

/-- Nothing but the cancelled jobs is lost. -/
theorem perm_jobs (splits : before.Splits seen after settled) :
    (after.jobs ++ settled.cancelled.map QueuedJob.id).Perm before.jobs := by
  have ids := splits.perm.map QueuedJob.id
  rw [List.perm_iff_count] at ids ⊢
  intro id
  have parts := ids id
  simp only [jobs, splits.keys, List.map_append, List.count_append] at parts ⊢
  omega

theorem nodup_jobs (splits : before.Splits seen after settled) (distinct : before.jobs.Nodup) :
    after.jobs.Nodup :=
  (splits.perm_jobs.nodup_iff.2 distinct).of_append_left

theorem size_le (splits : before.Splits seen after settled) : after.size ≤ before.size := by
  have parts := splits.perm.length_eq
  have entries := congrArg List.length splits.active
  simp only [size, Table.size, List.length_append, List.length_map] at parts entries ⊢
  omega

end Splits

end JobQueue

end JobGrid
