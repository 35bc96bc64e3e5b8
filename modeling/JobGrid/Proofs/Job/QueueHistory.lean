import JobGrid.Proofs.Job.Settling

/-!
# Histories of job queues

Anything can happen to a queue and to the handles of its jobs, in any order. What the queue says
about its jobs is written down: which it accepted, which became active or were cancelled when it was
settled, and which were completed. The records about a job tell where it is: it waits, it is active,
or it left the queue once.
-/

namespace JobGrid

/-- What a queue says about a job. -/
inductive QueueRecord where
  | accepted (job : QueuedJob)
  | activated (job : QueuedJob)
  | cancelled (job : QueuedJob)
  | completed (job : QueuedJob)
  deriving DecidableEq

namespace QueueRecord

def job : QueueRecord → QueuedJob
  | accepted job | activated job | cancelled job | completed job => job

/-- The job that a record says was accepted. -/
def accepted? : QueueRecord → Option QueuedJob
  | accepted job => some job
  | activated _ | cancelled _ | completed _ => none

/-- The records about a job. -/
def about (id : JobId) (records : List QueueRecord) : List QueueRecord :=
  records.filter fun record => record.job.id = id

@[simp] theorem about_append (id : JobId) (records later : List QueueRecord) :
    about id (records ++ later) = about id records ++ about id later :=
  List.filter_append ..

theorem about_singleton_of_eq {id : JobId} (record : QueueRecord) (same : record.job.id = id) :
    about id [record] = [record] :=
  List.filter_cons_of_pos (decide_eq_true same)

theorem about_singleton_of_ne {id : JobId} (record : QueueRecord) (differs : record.job.id ≠ id) :
    about id [record] = [] :=
  List.filter_cons_of_neg fun same => differs (of_decide_eq_true same)

/-- The records up to the next one that says that a job was accepted. -/
def untilAccepted : List QueueRecord → List QueueRecord
  | [] => []
  | .accepted _ :: _ => []
  | record :: later => record :: untilAccepted later

/-- The records about a job up to the next one that says that it was accepted. -/
def course (id : JobId) (records : List QueueRecord) : List QueueRecord :=
  untilAccepted (about id records)

end QueueRecord

/-- The records of what settling took out of the waiting list. -/
def Settled.records (settled : Settled) : List QueueRecord :=
  settled.activated.map .activated ++ settled.cancelled.map .cancelled

theorem Settled.about_records (settled : Settled) (id : JobId) :
    QueueRecord.about id settled.records =
      (settled.activated.filter fun job => job.id = id).map .activated ++
        (settled.cancelled.filter fun job => job.id = id).map .cancelled := by
  rw [records, QueueRecord.about_append, QueueRecord.about, List.filter_map, QueueRecord.about,
    List.filter_map]
  rfl

/-- A queue, the handles of all jobs, and what the queue said so far. -/
structure Queueing where
  queue : JobQueue
  store : JobStore := ∅
  records : List QueueRecord := []

/-- Something that happens to a queue or to the handles of jobs. -/
inductive QueueEvent where
  /-- A handle is made. -/
  | make (handle : JobHandle)
  /-- A handle changes. -/
  | move (change : HandleMove)
  /-- The queue is offered a job. -/
  | add (ref : JobRef)
  /-- The queue is settled, while handles change. -/
  | settle (changes : QueuedJob → List HandleMove)
  /-- A job is finished. -/
  | complete (id : JobId)

namespace Queueing

/-- An empty queue before anything happened. -/
def start (capacity : Nat) : Queueing := { queue := { capacity } }

/-- Lets something happen. -/
def perform (queueing : Queueing) : QueueEvent → Queueing
  | .make handle => { queueing with store := queueing.store.push handle }
  | .move change => { queueing with store := queueing.store.move change }
  | .add ref =>
      match queueing.store.get? ref with
      | none => queueing
      | some handle =>
          let (taken, queue) := queueing.queue.add ⟨handle.id, ref⟩
          { queueing with
            queue
            records := queueing.records ++ if taken then [.accepted ⟨handle.id, ref⟩] else [] }
  | .settle changes =>
      let after := queueing.queue.settleAmid queueing.store changes
      { queue := after.queue
        store := after.store
        records := queueing.records ++ after.settled.records }
  | .complete id =>
      let finished := queueing.queue.active.get? id
      { queueing with
        queue := queueing.queue.complete id
        records := queueing.records ++ (finished.map fun ref => .completed ⟨id, ref⟩).toList }

/-- Lets some things happen, one after another. -/
def run (queueing : Queueing) (history : List QueueEvent) : Queueing :=
  history.foldl perform queueing

end Queueing

/-! ## Where a job is -/

/-- Where a job is as far as its queue knows. -/
inductive JobPlace where
  /-- Not in the queue. -/
  | out
  | waits (job : QueuedJob)
  | runs (job : QueuedJob)
  deriving DecidableEq

namespace JobPlace

/-- Where a job is after one more record about it, if the record can follow. -/
def after? : JobPlace → QueueRecord → Option JobPlace
  | out, .accepted job => some (waits job)
  | waits job, .activated other => if other = job then some (runs job) else none
  | waits job, .cancelled other => if other = job then some out else none
  | runs job, .completed other => if other = job then some out else none
  | out, _ | waits _, _ | runs _, _ => none

@[simp] theorem after?_activated (job : QueuedJob) :
    (waits job).after? (.activated job) = some (runs job) := if_pos rfl

@[simp] theorem after?_cancelled (job : QueuedJob) :
    (waits job).after? (.cancelled job) = some out := if_pos rfl

@[simp] theorem after?_completed (job : QueuedJob) :
    (runs job).after? (.completed job) = some out := if_pos rfl

/-- Where a job is after some records about it. -/
def follow? (place : JobPlace) : List QueueRecord → Option JobPlace
  | [] => some place
  | record :: later => (place.after? record).bind fun next => next.follow? later

theorem follow?_append (place : JobPlace) (records later : List QueueRecord) :
    place.follow? (records ++ later) =
      (place.follow? records).bind fun next => next.follow? later := by
  induction records generalizing place with
  | nil => rfl
  | cons record rest ih =>
      rw [List.cons_append, follow?, follow?]
      cases place.after? record with
      | none => rfl
      | some next => exact ih next

/-- Only a job that is not in the queue is accepted. -/
theorem eq_out_of_after? {place next : JobPlace} {job : QueuedJob}
    (follows : place.after? (.accepted job) = some next) : place = out ∧ next = waits job := by
  cases place with
  | out => exact ⟨rfl, (Option.some.inj follows).symm⟩
  | waits other => cases follows
  | runs other => cases follows

/-- A record that says what happened to a job in a place is about this job. -/
theorem follow?_cons_of_ite {next final : JobPlace} {job other : QueuedJob}
    {later : List QueueRecord}
    (follows : ((if other = job then some next else none : Option JobPlace).bind
      fun place => place.follow? later) = some final) :
    other = job ∧ next.follow? later = some final := by
  split at follows
  · rename_i same
    exact ⟨same, follows⟩
  · cases follows

/-- Whether a job that left the queue at some time is back only because it was accepted again. -/
def Gone (final : JobPlace) (records : List QueueRecord) : Prop :=
  final ≠ out → ∃ job, .accepted job ∈ records

theorem Gone.cons {final : JobPlace} {records : List QueueRecord} (gone : final.Gone records)
    (record : QueueRecord) : final.Gone (record :: records) := by
  intro inside
  obtain ⟨job, back⟩ := gone inside
  exact ⟨job, List.mem_cons_of_mem _ back⟩

/-- A job that is not in the queue comes there through an acceptance only. -/
theorem course_of_out {records : List QueueRecord} {final : JobPlace}
    (follows : out.follow? records = some final) :
    QueueRecord.untilAccepted records = [] ∧ final.Gone records := by
  cases records with
  | nil => exact ⟨rfl, fun inside => absurd (Option.some.inj follows).symm inside⟩
  | cons record later =>
      cases record with
      | accepted job => exact ⟨rfl, fun _ => ⟨job, List.mem_cons_self⟩⟩
      | activated job => cases follows
      | cancelled job => cases follows
      | completed job => cases follows

/-- An active job stays, or it is completed. -/
theorem course_of_runs {records : List QueueRecord} {job : QueuedJob} {final : JobPlace}
    (follows : (runs job).follow? records = some final) :
    QueueRecord.untilAccepted records = [] ∧ final = runs job ∨
      QueueRecord.untilAccepted records = [.completed job] ∧ final.Gone records := by
  cases records with
  | nil => exact .inl ⟨rfl, (Option.some.inj follows).symm⟩
  | cons record later =>
      cases record with
      | completed other =>
          obtain ⟨rfl, left⟩ := follow?_cons_of_ite follows
          obtain ⟨ends, gone⟩ := course_of_out left
          exact .inr ⟨congrArg (_ :: ·) ends, gone.cons _⟩
      | accepted other => cases follows
      | activated other => cases follows
      | cancelled other => cases follows

/-- A job that was accepted waits; or it was started and is active, unless it was completed; or it
was cancelled. -/
theorem course_of_waits {records : List QueueRecord} {job : QueuedJob} {final : JobPlace}
    (follows : (waits job).follow? records = some final) :
    let course := QueueRecord.untilAccepted records
    course = [] ∧ final = waits job ∨ course = [.activated job] ∧ final = runs job ∨
      (course = [.cancelled job] ∨ course = [.activated job, .completed job]) ∧
        final.Gone records := by
  cases records with
  | nil => exact .inl ⟨rfl, (Option.some.inj follows).symm⟩
  | cons record later =>
      cases record with
      | activated other =>
          obtain ⟨rfl, started⟩ := follow?_cons_of_ite follows
          cases course_of_runs started with
          | inl stays => exact .inr (.inl ⟨congrArg (_ :: ·) stays.1, stays.2⟩)
          | inr left =>
              exact .inr (.inr ⟨.inr (congrArg (_ :: ·) left.1), left.2.cons _⟩)
      | cancelled other =>
          obtain ⟨rfl, left⟩ := follow?_cons_of_ite follows
          obtain ⟨ends, gone⟩ := course_of_out left
          exact .inr (.inr ⟨.inl (congrArg (_ :: ·) ends), gone.cons _⟩)
      | accepted other => cases follows
      | completed other => cases follows

end JobPlace

namespace JobQueue

/-- Where a job is. -/
def placeOf (queue : JobQueue) (id : JobId) : JobPlace :=
  match queue.active.get? id with
  | some ref => .runs ⟨id, ref⟩
  | none =>
      match queue.waiting.find? fun job => job.id = id with
      | some job => .waits job
      | none => .out

variable {queue : JobQueue} {id : JobId} {job : QueuedJob}

theorem placeOf_of_active {ref : JobRef} (runs : queue.active.get? id = some ref) :
    queue.placeOf id = .runs ⟨id, ref⟩ := by
  rw [placeOf, runs]

theorem placeOf_of_absent (absent : id ∉ queue.jobs) : queue.placeOf id = .out := by
  rw [jobs, List.mem_append, not_or] at absent
  have nowhere : (queue.waiting.find? fun job => job.id = id) = none := by
    rw [List.find?_eq_none]
    intro job waits same
    exact absent.1 (List.mem_map.2 ⟨job, waits, of_decide_eq_true same⟩)
  rw [placeOf, Table.get?_eq_none_iff.2 absent.2, nowhere]

theorem eq_of_placeOf_runs (runs : queue.placeOf id = .runs job) :
    job.id = id ∧ queue.active.get? id = some job.ref := by
  rw [placeOf] at runs
  split at runs
  · rename_i ref active
    cases runs
    exact ⟨rfl, active⟩
  · split at runs <;> cases runs

theorem mem_of_placeOf_waits (waits : queue.placeOf id = .waits job) :
    job ∈ queue.waiting ∧ job.id = id ∧ queue.active.get? id = none := by
  rw [placeOf] at waits
  split at waits
  · cases waits
  · rename_i idle
    split at waits
    · rename_i first found
      cases waits
      exact ⟨List.mem_of_find?_eq_some found, by simpa using List.find?_some found, idle⟩
    · cases waits

theorem not_mem_of_placeOf_out (out : queue.placeOf id = .out) : id ∉ queue.jobs := by
  rw [placeOf] at out
  split at out
  · cases out
  · rename_i idle
    split at out
    · cases out
    · rename_i nowhere
      rw [jobs, List.mem_append, not_or]
      refine ⟨fun waits => ?_, Table.get?_eq_none_iff.1 idle⟩
      obtain ⟨job, inside, rfl⟩ := List.mem_map.1 waits
      exact absurd (decide_eq_true rfl) (List.find?_eq_none.1 nowhere job inside)

theorem placeOf_of_waiting (distinct : queue.jobs.Nodup) (waits : job ∈ queue.waiting) :
    queue.placeOf job.id = .waits job := by
  obtain ⟨each, -, apart⟩ := List.nodup_append.1 distinct
  have listed : job.id ∈ queue.waiting.map QueuedJob.id := List.mem_map_of_mem waits
  cases place : queue.placeOf job.id with
  | out => exact absurd (List.mem_append_left _ listed) (not_mem_of_placeOf_out place)
  | runs other =>
      obtain ⟨-, active⟩ := eq_of_placeOf_runs place
      exact absurd rfl (apart job.id listed job.id (Table.mem_keys_iff.2 ⟨_, active⟩))
  | waits other =>
      obtain ⟨inside, same, -⟩ := mem_of_placeOf_waits place
      rw [List.inj_on_of_nodup_map each inside waits same]

/-- The waiting jobs with an identity. -/
def waitingOf (queue : JobQueue) (id : JobId) : List QueuedJob :=
  queue.waiting.filter fun job => job.id = id

/-- Where a job is depends on nothing but its own entries. -/
theorem placeOf_congr {other : JobQueue} (waiting : queue.waitingOf id = other.waitingOf id)
    (active : queue.active.get? id = other.active.get? id) :
    queue.placeOf id = other.placeOf id := by
  rw [waitingOf, waitingOf] at waiting
  rw [placeOf, placeOf, active, ← List.head?_filter, ← List.head?_filter, waiting]

theorem waitingOf_eq_nil (absent : id ∉ queue.waiting.map QueuedJob.id) :
    queue.waitingOf id = [] := by
  rw [waitingOf, List.filter_eq_nil_iff]
  intro job waits same
  exact absent (of_decide_eq_true same ▸ List.mem_map_of_mem waits)

theorem waitingOf_eq_singleton (distinct : queue.jobs.Nodup) (waits : job ∈ queue.waiting) :
    queue.waitingOf job.id = [job] := by
  obtain ⟨each, -, -⟩ := List.nodup_append.1 distinct
  have only : ∀ other ∈ queue.waiting, decide (other.id = job.id) = (other == job) := by
    intro other inside
    rw [Bool.eq_iff_iff, decide_eq_true_iff, beq_iff_eq]
    exact ⟨List.inj_on_of_nodup_map each inside waits, congrArg QueuedJob.id⟩
  rw [waitingOf, List.filter_congr only, List.filter_beq,
    List.count_eq_one_of_mem each.of_map waits, List.replicate_one]

end JobQueue

namespace JobQueue.Splits

variable {seen : QueuedJob → JobStore} {before after : JobQueue} {settled : Settled}
  {job : QueuedJob}

/-- Each waiting job with an identity went one of three ways. -/
theorem perm_waitingOf (splits : before.Splits seen after settled) (id : JobId) :
    (after.waitingOf id ++ settled.activated.filter (fun job => job.id = id) ++
      settled.cancelled.filter (fun job => job.id = id)).Perm (before.waitingOf id) := by
  have parts := splits.perm.filter fun job => job.id = id
  rwa [List.filter_append, List.filter_append] at parts

theorem placeOf_of_activated (splits : before.Splits seen after settled)
    (started : job ∈ settled.activated) : after.placeOf job.id = .runs job := by
  apply placeOf_of_active
  rw [Table.get?_eq_some_iff, splits.active]
  exact List.mem_append_right _ (List.mem_map_of_mem started)

theorem placeOf_of_cancelled (splits : before.Splits seen after settled)
    (distinct : before.jobs.Nodup) (cancelled : job ∈ settled.cancelled) :
    after.placeOf job.id = .out := by
  have apart := (List.nodup_append.1 (splits.perm_jobs.nodup_iff.2 distinct)).2.2
  exact placeOf_of_absent fun there => apart _ there _ (List.mem_map_of_mem cancelled) rfl

/-- What settling says about a job leads from where it was to where it is. -/
theorem follow (splits : before.Splits seen after settled) (distinct : before.jobs.Nodup)
    (id : JobId) :
    (before.placeOf id).follow? (QueueRecord.about id settled.records) =
      some (after.placeOf id) := by
  have parts := splits.perm_waitingOf id
  rw [Settled.about_records]
  cases place : before.placeOf id with
  | out =>
      have absent := not_mem_of_placeOf_out place
      rw [waitingOf_eq_nil fun waits => absent (List.mem_append_left _ waits),
        List.perm_nil, List.append_eq_nil_iff, List.append_eq_nil_iff] at parts
      have still : id ∉ after.jobs := fun inside =>
        absent (splits.perm_jobs.subset (List.mem_append_left _ inside))
      rw [parts.1.2, parts.2, placeOf_of_absent still]
      rfl
  | runs job =>
      obtain ⟨rfl, active⟩ := eq_of_placeOf_runs place
      have runs := Table.mem_keys_iff.2 ⟨_, active⟩
      rw [waitingOf_eq_nil fun waits => (List.nodup_append.1 distinct).2.2 _ waits _ runs rfl,
        List.perm_nil, List.append_eq_nil_iff, List.append_eq_nil_iff] at parts
      have still : after.active.get? job.id = some job.ref := by
        rw [Table.get?_eq_some_iff, splits.active]
        exact List.mem_append_left _ (Table.get?_eq_some_iff.1 active)
      rw [parts.1.2, parts.2, placeOf_of_active still]
      rfl
  | waits job =>
      obtain ⟨waits, rfl, -⟩ := mem_of_placeOf_waits place
      have inside : ∀ {jobs : List QueuedJob},
          (jobs.filter fun other => other.id = job.id) = [job] → job ∈ jobs :=
        fun found => List.mem_of_mem_filter (found ▸ List.mem_singleton_self job)
      rw [waitingOf_eq_singleton distinct waits, List.perm_singleton,
        List.append_eq_singleton_iff, List.append_eq_singleton_iff] at parts
      rcases parts with ⟨elsewhere, cancelled⟩ | ⟨⟨-, started⟩ | ⟨stays, activated⟩, cancelled⟩
      · rw [(List.append_eq_nil_iff.1 elsewhere).2, cancelled,
          splits.placeOf_of_cancelled distinct (inside cancelled)]
        simp [JobPlace.follow?]
      · rw [started, cancelled, splits.placeOf_of_activated (inside started)]
        simp [JobPlace.follow?]
      · rw [activated, cancelled, placeOf_of_waiting (splits.nodup_jobs distinct) (inside stays)]
        rfl

end JobQueue.Splits

/-- What became of a job that the queue accepted, by the records since then: it still waits, or it
is active, or it left. Of a job that left nothing is in the queue, unless it was accepted again. -/
def JobQueue.Accounts (queue : JobQueue) (job : QueuedJob) (later : List QueueRecord) : Prop :=
  let course := QueueRecord.course job.id later
  course = [] ∧ job ∈ queue.waiting ∧ job.id ∉ queue.active.keys ∨
    course = [.activated job] ∧ queue.active.get? job.id = some job.ref ∧
      job.id ∉ queue.waiting.map QueuedJob.id ∨
    (course = [.cancelled job] ∨ course = [.activated job, .completed job]) ∧
      (job.id ∈ queue.jobs → ∃ again, .accepted again ∈ QueueRecord.about job.id later)

/-- What is true of a queue after everything that happened to it. -/
structure Queueing.Kept (capacity : Nat) (queueing : Queueing) : Prop where
  limit : queueing.queue.capacity = capacity
  size : queueing.queue.size ≤ capacity
  distinct : queueing.queue.jobs.Nodup
  known : ∀ job ∈ queueing.queue.waiting, (queueing.store.get? job.ref).isSome
  order : queueing.queue.waiting.Sublist (queueing.records.filterMap QueueRecord.accepted?)
  places : ∀ id, JobPlace.out.follow? (QueueRecord.about id queueing.records) =
    some (queueing.queue.placeOf id)

namespace Queueing

namespace Kept

variable {capacity : Nat} {queueing : Queueing}

theorem start (capacity : Nat) : (Queueing.start capacity).Kept capacity where
  limit := rfl
  size := Nat.zero_le capacity
  distinct := List.nodup_nil
  known _ waits := absurd waits List.not_mem_nil
  order := List.Sublist.refl []
  places _ := rfl

/-- Handles may come and change their states. -/
theorem extend (kept : queueing.Kept capacity) {store : JobStore}
    (grows : queueing.store.Extends store) : { queueing with store }.Kept capacity where
  limit := kept.limit
  size := kept.size
  distinct := kept.distinct
  known job waits := grows.isSome_get? (kept.known job waits)
  order := kept.order
  places := kept.places

/-- One more record tells where its job is now, and all others stay where they are. -/
theorem places_concat (kept : queueing.Kept capacity) {queue : JobQueue} {record : QueueRecord}
    (job : QueuedJob) (named : record.job = job)
    (own : (queueing.queue.placeOf job.id).after? record = some (queue.placeOf job.id))
    (others : ∀ id, job.id ≠ id → queue.placeOf id = queueing.queue.placeOf id) (id : JobId) :
    JobPlace.out.follow? (QueueRecord.about id (queueing.records ++ [record])) =
      some (queue.placeOf id) := by
  rw [QueueRecord.about_append, JobPlace.follow?_append, kept.places id, Option.bind_some]
  subst named
  by_cases same : record.job.id = id
  · rw [QueueRecord.about_singleton_of_eq record same, ← same, JobPlace.follow?, own]
    rfl
  · rw [QueueRecord.about_singleton_of_ne record same, others id same]
    rfl

/-- A job that the queue takes. -/
theorem add (kept : queueing.Kept capacity) (job : QueuedJob)
    (known : (queueing.store.get? job.ref).isSome)
    (accepts : queueing.queue.accepts job.id = true) :
    Kept capacity ⟨(queueing.queue.add job).2, queueing.store,
      queueing.records ++ [.accepted job]⟩ := by
  obtain ⟨added, absent⟩ := JobQueue.add_of_accepts job accepts
  have room : queueing.queue.size < queueing.queue.capacity := by
    simp only [JobQueue.accepts, JobQueue.isFull, Bool.and_eq_true, Bool.not_eq_true',
      decide_eq_false_iff_not, Nat.not_le] at accepts
    exact accepts.1
  have distinct : (queueing.queue.add job).2.jobs.Nodup :=
    (Stocked.jobs_add _ job accepts).nodup_iff.2 (List.nodup_cons.2 ⟨absent, kept.distinct⟩)
  rw [added] at distinct ⊢
  refine ⟨kept.limit, ?_, distinct, ?_, ?_, ?_⟩
  · rw [kept.limit] at room
    simp only [JobQueue.size, List.length_append, List.length_singleton] at room ⊢
    omega
  · simp only [List.forall_mem_append, List.forall_mem_singleton]
    exact ⟨kept.known, known⟩
  · rw [List.filterMap_append]
    exact kept.order.append (List.Sublist.refl [job])
  · refine kept.places_concat job rfl ?_ fun id differs => ?_
    · have waits : job ∈ queueing.queue.waiting ++ [job] :=
        List.mem_append_right _ (List.mem_singleton_self job)
      rw [JobQueue.placeOf_of_absent absent, JobQueue.placeOf_of_waiting distinct waits]
      rfl
    · exact JobQueue.placeOf_congr (by simp [JobQueue.waitingOf, differs]) rfl

/-- Settling while handles change. -/
theorem settle (kept : queueing.Kept capacity) (changes : QueuedJob → List HandleMove) :
    (queueing.perform (.settle changes)).Kept capacity := by
  have splits := JobQueue.splits_settleAmid kept.distinct kept.known changes
  refine ⟨splits.capacity.trans kept.limit, Nat.le_trans splits.size_le kept.size,
    splits.nodup_jobs kept.distinct, ?_, ?_, ?_⟩
  · intro job waits
    simp only [perform, JobQueue.settleAmid_eq kept.distinct]
    exact (JobStore.Extends.moves queueing.store _).isSome_get?
      (kept.known job (splits.waiting_sublist.subset waits))
  · have quiet : (JobQueue.settleAmid queueing.queue queueing.store
        changes).settled.records.filterMap QueueRecord.accepted? = [] := by
      simp [Settled.records, QueueRecord.accepted?]
    simp only [perform, List.filterMap_append, quiet, List.append_nil]
    exact splits.waiting_sublist.trans kept.order
  · intro id
    simp only [perform, QueueRecord.about_append, JobPlace.follow?_append, kept.places id,
      Option.bind_some]
    exact splits.follow kept.distinct id

/-- An active job is finished. -/
theorem complete (kept : queueing.Kept capacity) (job : QueuedJob)
    (active : queueing.queue.active.get? job.id = some job.ref) :
    Kept capacity ⟨queueing.queue.complete job.id, queueing.store,
      queueing.records ++ [.completed job]⟩ := by
  have left := Stocked.jobs_complete active
  have distinct := List.nodup_cons.1 (left.nodup_iff.1 kept.distinct)
  refine ⟨kept.limit, ?_, distinct.2, kept.known, ?_, ?_⟩
  · have fewer := left.length_eq
    have before := kept.size
    simp only [JobQueue.jobs, JobQueue.size, Table.keys, Table.size, List.length_append,
      List.length_cons, List.length_map] at fewer before ⊢
    omega
  · rw [List.filterMap_append]
    exact kept.order.trans (List.sublist_append_left _ _)
  · refine kept.places_concat job rfl ?_ fun id differs => ?_
    · rw [JobQueue.placeOf_of_active active, JobQueue.placeOf_of_absent distinct.1]
      exact JobPlace.after?_completed job
    · exact JobQueue.placeOf_congr rfl (Table.get?_erase_of_ne _ differs)

/-- Each thing that happens keeps a queue in order. -/
theorem perform (kept : queueing.Kept capacity) (event : QueueEvent) :
    (queueing.perform event).Kept capacity := by
  cases event with
  | make handle => exact kept.extend (.push queueing.store handle)
  | move change => exact kept.extend (.move queueing.store change)
  | add ref =>
      rw [Queueing.perform]
      split
      · exact kept
      · rename_i handle found
        cases accepts : queueing.queue.accepts handle.id with
        | false => simpa [JobQueue.add, accepts] using kept
        | true =>
            simpa [JobQueue.add, accepts] using
              kept.add ⟨handle.id, ref⟩ (Option.isSome_iff_exists.2 ⟨handle, found⟩) accepts
  | settle changes => exact kept.settle changes
  | complete id =>
      rw [Queueing.perform]
      cases active : queueing.queue.active.get? id with
      | none =>
          have same : queueing.queue.active.erase id = queueing.queue.active :=
            Table.erase_of_not_mem (Table.get?_eq_none_iff.1 active)
          simpa [JobQueue.complete, same] using kept
      | some ref => exact kept.complete ⟨id, ref⟩ active

theorem run (kept : queueing.Kept capacity) (history : List QueueEvent) :
    (queueing.run history).Kept capacity := by
  induction history generalizing queueing with
  | nil => exact kept
  | cons event later ih => exact ih (kept.perform event)

/-- Each acceptance says what became of the job. -/
theorem accounts (kept : queueing.Kept capacity) {before after : List QueueRecord}
    {job : QueuedJob} (accepted : queueing.records = before ++ .accepted job :: after) :
    queueing.queue.Accounts job after := by
  have place := kept.places job.id
  have named : QueueRecord.about job.id [.accepted job] = [.accepted job] :=
    QueueRecord.about_singleton_of_eq _ rfl
  rw [accepted, ← List.singleton_append, QueueRecord.about_append, QueueRecord.about_append,
    named, JobPlace.follow?_append] at place
  obtain ⟨earlier, -, follows⟩ := Option.bind_eq_some_iff.1 place
  obtain ⟨next, first, follows⟩ := Option.bind_eq_some_iff.1 follows
  obtain ⟨-, rfl⟩ := JobPlace.eq_out_of_after? first
  rcases JobPlace.course_of_waits follows with ⟨none, waits⟩ | ⟨started, runs⟩ | ⟨left, gone⟩
  · obtain ⟨inside, -, idle⟩ := JobQueue.mem_of_placeOf_waits waits
    exact .inl ⟨none, inside, Table.get?_eq_none_iff.1 idle⟩
  · obtain ⟨-, active⟩ := JobQueue.eq_of_placeOf_runs runs
    have apart := (List.nodup_append.1 kept.distinct).2.2
    exact .inr (.inl ⟨started, active, fun waits =>
      apart job.id waits job.id (Table.mem_keys_iff.2 ⟨_, active⟩) rfl⟩)
  · exact .inr (.inr ⟨left, fun back => gone fun out =>
      JobQueue.not_mem_of_placeOf_out out back⟩)

end Kept

/-- After anything that happened, a queue is within its capacity and holds no job twice. Its waiting
jobs are in the order in which they were accepted. Settling splits them by the states of their
handles, even while handles change, and replaces no active job: a job stays, becomes active or
leaves as its handle was seen waiting, active or cancelled. Each job that was ever accepted waits,
or is active, or was cancelled, or was completed, and only one of these. -/
theorem run_keeps_account (capacity : Nat) (history : List QueueEvent) :
    let reached := (start capacity).run history
    reached.queue.size ≤ capacity ∧ reached.queue.jobs.Nodup ∧
      reached.queue.waiting.Sublist (reached.records.filterMap QueueRecord.accepted?) ∧
      reached.queue.Splits (fun _ => reached.store) (reached.queue.settle reached.store)
        (reached.queue.settled reached.store) ∧
      (∀ changes : QueuedJob → List HandleMove,
        let after := reached.queue.settleAmid reached.store changes
        reached.queue.Splits (reached.queue.handlesAt reached.store changes) after.queue
            after.settled ∧
          after.store = reached.store.moves (reached.queue.waiting.flatMap changes)) ∧
      reached.queue.settleAmid reached.store (fun _ => []) =
        ⟨reached.queue.settle reached.store, reached.queue.settled reached.store,
          reached.store⟩ ∧
      ∀ (before later : List QueueRecord) (job : QueuedJob),
        reached.records = before ++ .accepted job :: later →
          reached.queue.Accounts job later := by
  have kept := (Kept.start capacity).run history
  refine ⟨kept.size, kept.distinct, kept.order, JobQueue.splits_settle kept.distinct kept.known,
    ?_, JobQueue.settleAmid_of_quiet kept.distinct _, fun _ _ _ accepted => kept.accounts accepted⟩
  intro changes after
  exact ⟨JobQueue.splits_settleAmid kept.distinct kept.known changes, Sight.store_look _ _⟩

end Queueing

end JobGrid
