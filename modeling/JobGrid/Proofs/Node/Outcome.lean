import Mathlib.Data.List.Nodup
import JobGrid.Proofs.Node.TaskMoves
import JobGrid.Proofs.Node.Tasking
import JobGrid.Proofs.Table

/-!
# Results of tasks

Whatever happens to a node, it keeps the same rules about its tasks: a task that is followed
knows each of its jobs exactly once, as pending or by its result, and it ends at most once.
-/

namespace JobGrid

/-- A followed task of a session knows each of its jobs once: as pending, or by its result. -/
structure TaskState.Exact (task : TaskState) (session : SessionId) (jobs : List JobSpec) :
    Prop where
  distinct : (task.results.map JobResult.job).Nodup
  disjoint : ∀ job ∈ task.results.map JobResult.job, job ∉ task.pending.keys
  complete : ∀ job, job ∈ task.results.map JobResult.job ∨ job ∈ task.pending.keys ↔
    job ∈ jobs.map JobSpec.id
  own : ∀ result ∈ task.results, result.session = session

/-- An outcome holds one result for each job of its session, and nothing else. -/
structure TaskOutcome.Exact (outcome : TaskOutcome) (jobs : List JobSpec) : Prop where
  distinct : (outcome.results.map JobResult.job).Nodup
  complete : ∀ job, job ∈ outcome.results.map JobResult.job ↔ job ∈ jobs.map JobSpec.id
  own : ∀ result ∈ outcome.results, result.session = outcome.session

namespace TaskState

variable {task : TaskState} {session : SessionId} {jobs : List JobSpec}

theorem keys_pending_assign (task : TaskState) (transfer : JobTransfer) (node : NodeId) :
    (task.assign transfer node).pending.keys = task.pending.keys :=
  Table.keys_modify _ _ _

namespace Exact

theorem assign (exact : task.Exact session jobs) (transfer : JobTransfer) (node : NodeId) :
    (task.assign transfer node).Exact session jobs where
  distinct := exact.distinct
  disjoint := by
    rw [keys_pending_assign]
    exact exact.disjoint
  complete := by
    rw [keys_pending_assign]
    exact exact.complete
  own := exact.own

/-- The result of a pending job takes its place. -/
theorem enter {result : JobResult} (exact : task.Exact result.session jobs)
    (pending : task.isPending result.job = true) :
    (task.enter result).Exact result.session jobs := by
  have waits : result.job ∈ task.pending.keys := Table.contains_iff_mem_keys.1 pending
  have fresh : result.job ∉ task.results.map JobResult.job :=
    fun known => exact.disjoint _ known waits
  have known : (task.enter result).results.map JobResult.job =
      task.results.map JobResult.job ++ [result.job] := by
    simp [TaskState.enter]
  have left : (task.enter result).pending.keys = task.pending.keys.filter (· ≠ result.job) :=
    Table.keys_erase _ _
  refine ⟨?_, ?_, ?_, ?_⟩
  · rw [known, ← List.concat_eq_append, List.nodup_concat]
    exact ⟨fresh, exact.distinct⟩
  · intro job member
    rw [known, List.mem_append, List.mem_singleton] at member
    rw [left, List.mem_filter]
    rintro ⟨stays, differs⟩
    cases member with
    | inl earlier => exact exact.disjoint job earlier stays
    | inr new => simp [new] at differs
  · intro job
    rw [known, left, List.mem_append, List.mem_singleton, List.mem_filter, ← exact.complete job]
    by_cases same : job = result.job
    · subst same
      simp [waits]
    · simp [same]
  · intro other member
    rw [TaskState.enter, List.mem_append, List.mem_singleton] at member
    cases member with
    | inl earlier => exact exact.own other earlier
    | inr new => rw [new]

/-- A task in which nothing is pending ends with all its results. -/
theorem outcome (exact : task.Exact session jobs) (done : task.pending.isEmpty = true) :
    (TaskOutcome.mk session task.results none).Exact jobs where
  distinct := exact.distinct
  complete := by
    intro job
    have nothing : task.pending.keys = [] := by
      simpa [Table.keys, Table.isEmpty] using done
    rw [← exact.complete job, nothing]
    simp
  own := exact.own

end Exact

end TaskState

/-- What holds of the tasks that a node follows and of the outcomes that it told, after some
submissions. Some outcomes had been told earlier. -/
structure Accounted (earlier : List TaskOutcome) (submitted : List (SessionId × List JobSpec))
    (tasks : Table SessionId TaskState) (told : List Notice) : Prop where
  followed : ∀ {session : SessionId} {task : TaskState}, tasks.get? session = some task →
    ∃ jobs, (session, jobs) ∈ submitted ∧ task.Exact session jobs
  ended : ∀ outcome ∈ Tasking.outcomes told, tasks.get? outcome.session = none ∧
    ∃ jobs, (outcome.session, jobs) ∈ submitted ∧ (outcome.error = none → outcome.Exact jobs)
  once : ((Tasking.outcomes told).map TaskOutcome.session).Nodup
  remembered : earlier ⊆ Tasking.outcomes told

namespace Accounted

variable {earlier : List TaskOutcome} {submitted : List (SessionId × List JobSpec)}
  {tasks : Table SessionId TaskState} {told : List Notice}

/-- A task whose followers stay exact may change. -/
theorem insert {session : SessionId} {before after : TaskState}
    (accounted : Accounted earlier submitted tasks told) (found : tasks.get? session = some before)
    (exact : ∀ jobs, before.Exact session jobs → after.Exact session jobs) :
    Accounted earlier submitted (tasks.insert session after) told where
  followed := by
    intro other task stored
    rw [Table.get?_insert] at stored
    by_cases same : session = other
    · rw [if_pos same, Option.some.injEq] at stored
      obtain ⟨jobs, member, before⟩ := accounted.followed found
      subst same stored
      exact ⟨jobs, member, exact jobs before⟩
    · rw [if_neg same] at stored
      exact accounted.followed stored
  ended := by
    intro outcome member
    obtain ⟨gone, rest⟩ := accounted.ended outcome member
    have differs : session ≠ outcome.session := by
      intro same
      rw [same, gone] at found
      cases found
    rw [Table.get?_insert_of_ne _ _ differs]
    exact ⟨gone, rest⟩
  once := accounted.once
  remembered := accounted.remembered

/-- No move of a task breaks the account. -/
theorem moves (earlier : List TaskOutcome) (submitted : List (SessionId × List JobSpec)) :
    TaskMoves (Accounted earlier submitted) where
  assign := by
    intro tasks told transfer node accounted
    cases found : tasks.get? transfer.session with
    | none => simpa only [Table.modify, found] using accounted
    | some task =>
        simp only [Table.modify, found]
        exact accounted.insert found fun jobs exact => exact.assign transfer node
  enter := by
    intro tasks told task result accounted found pending
    exact accounted.insert found fun jobs exact => exact.enter pending
  close := by
    intro tasks told task session error accounted found done
    obtain ⟨jobs, member, exact⟩ := accounted.followed found
    have fresh : session ∉ (Tasking.outcomes told).map TaskOutcome.session := by
      intro known
      obtain ⟨outcome, told, rfl⟩ := List.mem_map.1 known
      rw [(accounted.ended outcome told).1] at found
      cases found
    have added : Tasking.outcomes
        (told ++ [.finished task.ticket ⟨session, task.results, error⟩]) =
          Tasking.outcomes told ++ [⟨session, task.results, error⟩] := by
      simp [Tasking.outcomes, Notice.outcome?]
    refine ⟨?_, ?_, ?_, ?_⟩
    · intro other kept stored
      rw [Table.get?_erase] at stored
      split at stored
      · cases stored
      · exact accounted.followed stored
    · intro outcome given
      rw [added, List.mem_append, List.mem_singleton] at given
      cases given with
      | inl earlier =>
          obtain ⟨gone, rest⟩ := accounted.ended outcome earlier
          refine ⟨?_, rest⟩
          rw [Table.get?_erase, gone, ite_self]
      | inr last =>
          subst last
          refine ⟨Table.get?_erase_self _ _, jobs, member, ?_⟩
          intro success
          change error = none at success
          subst success
          exact exact.outcome (done rfl)
    · rw [added, List.map_append, List.map_singleton, ← List.concat_eq_append,
        List.nodup_concat]
      exact ⟨fresh, accounted.once⟩
    · rw [added]
      exact List.subset_append_of_subset_left _ accounted.remembered

theorem mono {more : List (SessionId × List JobSpec)}
    (accounted : Accounted earlier submitted tasks told) (included : submitted ⊆ more) :
    Accounted earlier more tasks told where
  followed := by
    intro session task found
    obtain ⟨jobs, member, exact⟩ := accounted.followed found
    exact ⟨jobs, included member, exact⟩
  ended := by
    intro outcome given
    obtain ⟨gone, jobs, member, exact⟩ := accounted.ended outcome given
    exact ⟨gone, jobs, included member, exact⟩
  once := accounted.once
  remembered := accounted.remembered

/-- The task of a new session is followed. -/
theorem follow {session : SessionId} {jobs : List JobSpec} {task : TaskState}
    (accounted : Accounted earlier submitted tasks told)
    (fresh : session ∉ submitted.map Prod.fst) (exact : task.Exact session jobs) :
    Accounted earlier (submitted ++ [(session, jobs)]) (tasks.insert session task) told where
  followed := by
    intro other stored found
    rw [Table.get?_insert] at found
    by_cases same : session = other
    · rw [if_pos same, Option.some.injEq] at found
      subst same found
      exact ⟨jobs, by simp, exact⟩
    · rw [if_neg same] at found
      obtain ⟨known, member, exact⟩ := accounted.followed found
      exact ⟨known, List.mem_append_left _ member, exact⟩
  ended := by
    intro outcome given
    obtain ⟨gone, known, member, exact⟩ := accounted.ended outcome given
    have differs : session ≠ outcome.session := by
      intro same
      exact fresh (same ▸ List.mem_map_of_mem (f := Prod.fst) member)
    rw [Table.get?_insert_of_ne _ _ differs]
    exact ⟨gone, known, List.mem_append_left _ member, exact⟩
  once := accounted.once
  remembered := accounted.remembered

end Accounted

namespace Turn

theorem specs_of_transfers {session : SessionId} {origin : NodeId} {jobs : List JobSpec}
    {assignments : List Assignment}
    (transfers : assignments.map Assignment.transfer =
      jobs.map fun spec => { session, origin, spec }) :
    assignments.map (fun assignment => assignment.transfer.spec) = jobs := by
  have specs := congrArg (List.map JobTransfer.spec) transfers
  simpa [Function.comp_def] using specs

/-- A new task has no results, and all its jobs are pending. -/
theorem exact_of_track (session : SessionId) (assignments : List Assignment) (ticket : Nat) :
    TaskState.Exact
      { pending := .ofList (assignments.map fun assignment =>
          (assignment.transfer.spec.id, PendingJob.mk assignment.transfer assignment.target))
        ticket }
      session (assignments.map fun assignment => assignment.transfer.spec) where
  distinct := List.nodup_nil
  disjoint := by simp
  complete := by
    intro job
    rw [Table.mem_keys_ofList]
    simp [Function.comp_def]
  own := by simp

/-- A task that was refused changes no task, and one that was accepted is followed. -/
theorem accounted_accept {earlier : List TaskOutcome}
    {submitted : List (SessionId × List JobSpec)} {turn : Turn} {session : SessionId}
    (jobs : List JobSpec) (placement : Placement)
    (accounted : turn.Holds (Accounted earlier submitted))
    (fresh : session ∉ submitted.map Prod.fst) :
    (turn.accept session jobs placement).2.Holds
      (Accounted earlier (submitted ++ [(session, jobs)])) := by
  have more : turn.Holds (Accounted earlier (submitted ++ [(session, jobs)])) :=
    accounted.mono (List.subset_append_left _ _)
  cases accepted : turn.accept session jobs placement with
  | mk found next =>
      cases found with
      | error failure => exact (sameTasks_of_picks (picks_of_accept accepted)).holds more
      | ok pair =>
          obtain ⟨picked, picks, rfl, transfers⟩ := accepted_of_accept accepted
          have held := (sameTasks_of_picks picks).holds accounted
          have followed := Accounted.follow held fresh
            (exact_of_track session pair.2 picked.node.tickets)
          rw [specs_of_transfers transfers] at followed
          cases known : picked.node.tasks.get? session with
          | none =>
              simp only [track, known]
              exact followed
          | some task =>
              obtain ⟨known, member, -⟩ := held.followed known
              exact absurd (List.mem_map_of_mem (f := Prod.fst) member) fresh

/-- A submission ends its task only if the task has no jobs. -/
theorem accounted_conclude {earlier : List TaskOutcome}
    {submitted : List (SessionId × List JobSpec)} {turn : Turn} {session : SessionId} {count : Nat}
    (distinct : (submitted.map Prod.fst).Nodup)
    (accounted : turn.Holds (Accounted earlier submitted))
    (empty : count = 0 → (session, []) ∈ submitted) :
    (turn.conclude session count).Holds (Accounted earlier submitted) := by
  have mapped : (turn.mapped session).Holds (Accounted earlier submitted) := accounted
  simp only [conclude]
  split
  · rename_i none
    apply mapped.finish (Accounted.moves earlier submitted)
    intro task found _
    obtain ⟨jobs, member, exact⟩ := accounted.followed found
    have same : (session, jobs) = (session, []) :=
      List.inj_on_of_nodup_map distinct member (empty none) rfl
    have nothing : jobs = [] := congrArg Prod.snd same
    have keys : task.pending.keys = [] := by
      apply List.eq_nil_iff_forall_not_mem.2
      intro job pending
      have known := (exact.complete job).1 (.inr pending)
      simp [nothing] at known
    simpa [Table.keys, Table.isEmpty] using keys
  · exact mapped

end Turn

namespace Tasking

/-- What holds of a node after a history. -/
structure Kept (earlier : List TaskOutcome) (history : List NodeEvent) (tasking : Tasking) :
    Prop where
  accounted : Accounted earlier (submissions history) tasking.node.tasks tasking.told
  empty : ∀ {session : SessionId} {mapping : Mapping},
    tasking.mappings.get? session = some mapping → mapping.count = 0 →
    (session, []) ∈ submissions history

theorem submissions_append (history later : List NodeEvent) :
    submissions (history ++ later) = submissions history ++ submissions later :=
  List.filterMap_append

theorem submissions_singleton {event : NodeEvent} {session : SessionId} {jobs : List JobSpec}
    {placement : Placement} (action : event.action = .submit session jobs placement) :
    submissions [event] = [(session, jobs)] := by
  simp [submissions, NodeEvent.submission?, action]

namespace Kept

variable {earlier : List TaskOutcome} {history : List NodeEvent} {tasking : Tasking}

/-- All outcomes that were told so far are remembered. -/
theorem remember (kept : Kept earlier history tasking) :
    Kept (outcomes tasking.told) history tasking :=
  ⟨{ kept.accounted with remembered := List.Subset.refl _ }, kept.empty⟩

/-- A turn that only moves tasks keeps the account. -/
theorem after {turn : Turn} (kept : Kept earlier history tasking) (event : NodeEvent)
    (held : turn.Holds (Accounted earlier (submissions history))) :
    Kept earlier (history ++ [event]) (tasking.after turn) where
  accounted := by
    rw [submissions_append]
    exact Accounted.mono held (List.subset_append_left _ _)
  empty := by
    intro session mapping found none
    rw [submissions_append]
    exact List.mem_append_left _ (kept.empty found none)

/-- Submissions may be given up, and their jobs may have been placed. -/
theorem remap {mappings : Table SessionId Mapping} (kept : Kept earlier history tasking)
    (counts : ∀ {session : SessionId} {mapping : Mapping},
      mappings.get? session = some mapping →
      ∃ earlier, tasking.mappings.get? session = some earlier ∧ earlier.count = mapping.count) :
    Kept earlier history { tasking with mappings } where
  accounted := kept.accounted
  empty := by
    intro session mapping found none
    obtain ⟨earlier, before, count⟩ := counts found
    exact kept.empty before (count.trans none)

theorem erase (kept : Kept earlier history tasking) (session : SessionId) :
    Kept earlier history { tasking with mappings := tasking.mappings.erase session } := by
  apply kept.remap
  intro other mapping found
  rw [Table.get?_erase] at found
  split at found
  · cases found
  · exact ⟨mapping, found, rfl⟩

/-- A new task is accounted for, whether it is accepted or not. -/
theorem submit {event : NodeEvent} {session : SessionId} {jobs : List JobSpec}
    {placement : Placement} (kept : Kept earlier history tasking)
    (action : event.action = .submit session jobs placement)
    (distinct : ((submissions (history ++ [event])).map Prod.fst).Nodup) :
    Kept earlier (history ++ [event]) (tasking.perform event) := by
  have held : (tasking.turnAt event.now event.cluster).Holds
      (Accounted earlier (submissions history)) := kept.accounted
  rw [submissions_append, submissions_singleton action, List.map_append, List.map_singleton,
    ← List.concat_eq_append, List.nodup_concat] at distinct
  have accepted := Turn.accounted_accept jobs placement held distinct.1
  rw [← submissions_singleton action, ← submissions_append] at accepted
  cases submitted : (tasking.turnAt event.now event.cluster).accept session jobs placement with
  | mk found next =>
      rw [submitted] at accepted
      cases found with
      | error failure =>
          simp only [Tasking.perform, action, submitted]
          exact ⟨accepted, (kept.after event held).empty⟩
      | ok pair =>
          obtain ⟨ticket, assignments⟩ := pair
          simp only [Tasking.perform, action, submitted]
          refine ⟨accepted, ?_⟩
          intro other mapping stored none
          rw [Table.get?_insert] at stored
          split at stored
          · rename_i same
            cases stored
            have nothing : assignments = [] := List.eq_nil_of_length_eq_zero none
            obtain ⟨-, -, -, transfers⟩ := Turn.accepted_of_accept submitted
            have specs := Turn.specs_of_transfers transfers
            rw [nothing, List.map_nil] at specs
            rw [submissions_append, submissions_singleton action, ← specs, same]
            simp
          · exact (kept.after event held).empty stored none

/-- Placing the next job of a submission moves it only. -/
theorem place {event : NodeEvent} {session : SessionId} (kept : Kept earlier history tasking)
    (action : event.action = .place session) :
    Kept earlier (history ++ [event]) (tasking.perform event) := by
  have held : (tasking.turnAt event.now event.cluster).Holds
      (Accounted earlier (submissions history)) := kept.accounted
  cases found : tasking.mappings.get? session with
  | none =>
      simp only [Tasking.perform, action, found]
      exact kept.after event held
  | some mapping =>
      obtain ⟨count, left⟩ := mapping
      cases left with
      | nil =>
          simp only [Tasking.perform, action, found]
          exact kept.after event held
      | cons assignment rest =>
          simp only [Tasking.perform, action, found]
          have placed := kept.after event (held.place (Accounted.moves earlier _)
            assignment.transfer assignment.target)
          split
          · exact placed.erase session
          · apply placed.remap
            intro other mapping stored
            rw [Table.get?_insert] at stored
            split at stored
            · rename_i same
              cases stored
              exact ⟨⟨count, assignment :: rest⟩, same ▸ found, rfl⟩
            · exact ⟨mapping, stored, rfl⟩

/-- A submission whose jobs were all placed is over. -/
theorem conclude {event : NodeEvent} {session : SessionId} (kept : Kept earlier history tasking)
    (action : event.action = .conclude session)
    (distinct : ((submissions (history ++ [event])).map Prod.fst).Nodup) :
    Kept earlier (history ++ [event]) (tasking.perform event) := by
  have held : (tasking.turnAt event.now event.cluster).Holds
      (Accounted earlier (submissions history)) := kept.accounted
  cases found : tasking.mappings.get? session with
  | none =>
      simp only [Tasking.perform, action, found]
      exact kept.after event held
  | some mapping =>
      obtain ⟨count, left⟩ := mapping
      cases left with
      | nil =>
          simp only [Tasking.perform, action, found]
          have earlier : ((submissions history).map Prod.fst).Nodup := by
            rw [submissions_append, List.map_append] at distinct
            exact distinct.of_append_left
          have concluded := kept.after event
            (Turn.accounted_conclude earlier held (kept.empty found))
          exact concluded.erase session
      | cons assignment rest =>
          simp only [Tasking.perform, action, found]
          exact kept.after event held

/-- Whatever happens next keeps the account, as long as every session is new. -/
theorem perform {event : NodeEvent} (kept : Kept earlier history tasking)
    (distinct : ((submissions (history ++ [event])).map Prod.fst).Nodup) :
    Kept earlier (history ++ [event]) (tasking.perform event) := by
  have moves := Accounted.moves earlier (submissions history)
  have held : (tasking.turnAt event.now event.cluster).Holds
      (Accounted earlier (submissions history)) := kept.accounted
  cases action : event.action with
  | submit session jobs placement => exact kept.submit action distinct
  | place session => exact kept.place action
  | conclude session => exact kept.conclude action distinct
  | message envelope =>
      simp only [Tasking.perform, action]
      exact kept.after event (held.onMessage moves envelope)
  | discover found =>
      simp only [Tasking.perform, action]
      exact kept.after event (held.onEvent moves found)
  | look =>
      simp only [Tasking.perform, action]
      exact kept.after event (held.collide moves)
  | complete execution =>
      simp only [Tasking.perform, action]
      exact kept.after event (held.complete moves execution)
  | publish =>
      simp only [Tasking.perform, action]
      exact kept.after event ((Turn.sameTasks_publishMetrics _).holds held)
  | restrict session nodes =>
      simp only [Tasking.perform, action]
      exact kept.after event held
  | reroll chance =>
      simp only [Tasking.perform, action]
      exact kept.after event held

/-- Every history keeps the account, as long as every session is new. -/
theorem run {later : List NodeEvent} (kept : Kept earlier history tasking)
    (distinct : ((submissions (history ++ later)).map Prod.fst).Nodup) :
    Kept earlier (history ++ later) (tasking.run later) := by
  induction later generalizing history tasking with
  | nil => rwa [List.append_nil]
  | cons event rest ih =>
      have split : history ++ event :: rest = (history ++ [event]) ++ rest := by simp
      rw [split] at distinct ⊢
      have first : ((submissions (history ++ [event])).map Prod.fst).Nodup := by
        rw [submissions_append, List.map_append] at distinct
        exact distinct.of_append_left
      exact ih (kept.perform first) distinct

end Kept

/-- What holds of the tasks of a node that was without tasks, after a history and whatever
happens later: a followed task knows each of its jobs once, each session has at most one
outcome, an outcome without an error holds one result for each job and nothing else, and no
task of a session with an outcome is ever followed again. -/
structure ResultsExact (node : Node) (history later : List NodeEvent) : Prop where
  followed : ∀ session task, (run { node } history).node.tasks.get? session = some task →
    ∃ jobs, (session, jobs) ∈ submissions history ∧ task.Exact session jobs
  once : ((outcomes (run { node } history).told).map TaskOutcome.session).Nodup
  success : ∀ outcome ∈ outcomes (run { node } history).told, outcome.error = none →
    ∃ jobs, (outcome.session, jobs) ∈ submissions history ∧ outcome.Exact jobs
  settled : ∀ outcome ∈ outcomes (run { node } history).told,
    (run { node } (history ++ later)).node.tasks.get? outcome.session = none

/-- Task results are exact in every history of a node in which each session is submitted at
most once. -/
theorem results_exact {node : Node} (fresh : node.tasks = ∅) (history later : List NodeEvent)
    (distinct : ((submissions (history ++ later)).map Prod.fst).Nodup) :
    ResultsExact node history later := by
  have start : Kept [] [] { node } := by
    refine ⟨⟨?_, ?_, List.nodup_nil, List.nil_subset _⟩, ?_⟩
    · intro session task found
      rw [fresh] at found
      cases found
    · intro outcome given
      cases given
    · intro session mapping found
      cases found
  have first : ((submissions ([] ++ history)).map Prod.fst).Nodup := by
    rw [submissions_append, List.map_append] at distinct
    exact distinct.of_append_left
  have kept : Kept [] history (run { node } history) := start.run first
  refine ⟨fun session task found => kept.accounted.followed found, kept.accounted.once, ?_, ?_⟩
  · intro outcome given success
    obtain ⟨-, jobs, member, exact⟩ := kept.accounted.ended outcome given
    exact ⟨jobs, member, exact success⟩
  · intro outcome given
    have final := kept.remember.run distinct
    rw [run_append]
    exact (final.accounted.ended outcome (final.accounted.remembered given)).1

/-- A task without jobs ends while another one waits for the result of its only job. -/
theorem results_exact_of_interleaving :
    let node : Node := {
      id := .ofNat 0
      config := {}
      chance := {}
      queue := { capacity := 1 }
      resolver := { config := {} }
      balancer := .adaptive { probe := fun _ _ => .ok 0 }
      tracker := { started := 0, cpus := 1 }
      inbox := 0
      position := 0 }
    let cluster : Cluster := { capacity := 1, members := [{ id := .ofNat 0 }] }
    let job : JobSpec := { id := .ofNat 7 }
    let happens (action : NodeAction) : NodeEvent := ⟨0, cluster, action⟩
    let history : List NodeEvent := [
      happens (.submit (.ofNat 1) [] .pinned),
      happens (.submit (.ofNat 2) [job, job] .pinned),
      happens (.conclude (.ofNat 1))]
    let later : List NodeEvent := [
      happens (.message ⟨.ofNat 0, Topic.jobResult, Message.encode (.jobResult
        ⟨.ofNat 2, job.id, .ofNat 0, 0, (0 : Moment).timestamp⟩)⟩)]
    node.tasks = ∅ ∧ ((submissions (history ++ later)).map Prod.fst).Nodup ∧
      (run { node } history).told = [.finished 0 ⟨.ofNat 1, [], none⟩] ∧
      ResultsExact node history later := by
  intro node cluster job happens history later
  have fresh : node.tasks = ∅ := rfl
  have distinct : ((submissions (history ++ later)).map Prod.fst).Nodup := by decide
  exact ⟨fresh, distinct, rfl, results_exact fresh history later distinct⟩

end Tasking

end JobGrid
