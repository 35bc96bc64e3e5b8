import JobGrid.Proofs.Grid.Single
import JobGrid.Proofs.Steal.Stamps

/-!
# Tallies of stolen jobs

A tally of how often each job was stolen is compared with what is said of the jobs in a grid: by
their handles in queues, by messages in inboxes and by results. As long as nobody departed there is
one copy of a job at a time, and no turn of a node makes a copy say anything else than the tally,
which grows by the stamps of the turn.
-/

namespace JobGrid

/-- How often each job was stolen so far. -/
structure Tally where
  count : JobId → Nat
  /-- Whether the result of a job was entered. -/
  ended : JobId → Prop
  /-- Whether this was the count of a job at some time. -/
  noted : JobId → UInt32 → Prop
  notes : ∀ {job attempts}, attempts.toNat = count job → noted job attempts

namespace Tally

variable {tally later : Tally} {jobs changed : List JobId} {job : JobId} {attempts : UInt32}

/-- How often a job was stolen that did not end. -/
def fits (tally : Tally) (job : JobId) (attempts : UInt32) : Prop :=
  attempts.toNat = tally.count job ∧ ¬ tally.ended job

/-- How often a job was stolen that ended. -/
def told (tally : Tally) (job : JobId) (attempts : UInt32) : Prop :=
  attempts.toNat = tally.count job ∧ tally.ended job

/-- Some jobs are stamped. -/
def stamp (tally : Tally) (jobs : List JobId) : Tally where
  count job := tally.count job + jobs.count job
  ended := tally.ended
  noted job attempts :=
    tally.noted job attempts ∨ attempts.toNat = tally.count job + jobs.count job
  notes := .inr

/-- A job ends. -/
def finish (tally : Tally) (job : JobId) : Tally :=
  { tally with ended := fun other => other = job ∨ tally.ended other }

/-- A tally becomes another one by changes to some jobs, none of which ended before. -/
structure Becomes (changed : List JobId) (tally later : Tally) : Prop where
  same : ∀ job ∉ changed,
    later.count job = tally.count job ∧ (later.ended job ↔ tally.ended job)
  told : ∀ {job attempts}, tally.told job attempts → later.told job attempts
  noted : ∀ {job attempts}, tally.noted job attempts → later.noted job attempts

/-- The counts grow by the stamps of some jobs, and nothing else is said of jobs than what was said
before or is true now. -/
structure Adds (jobs : List JobId) (tally later : Tally) : Prop where
  count : ∀ job, later.count job = tally.count job + jobs.count job
  noted : ∀ {job attempts}, later.noted job attempts →
    tally.noted job attempts ∨ attempts.toNat = later.count job

theorem Becomes.fits (becomes : Becomes changed tally later) (outside : job ∉ changed)
    (fits : tally.fits job attempts) : later.fits job attempts :=
  ⟨fits.1.trans (becomes.same job outside).1.symm, fun ended =>
    fits.2 ((becomes.same job outside).2.1 ended)⟩

theorem Becomes.said {store : JobStore} {ref : JobRef} (becomes : Becomes changed tally later)
    (outside : job ∉ changed) (said : store.Says tally.fits job ref) :
    store.Says later.fits job ref := by
  obtain ⟨handle, found, same, fits⟩ := said
  exact ⟨handle, found, same, becomes.fits outside fits⟩

theorem becomes_self (tally : Tally) : Becomes [] tally tally where
  same _ _ := ⟨rfl, Iff.rfl⟩
  told := id
  noted := id

theorem becomes_stamp (goesOn : ∀ job ∈ jobs, ¬ tally.ended job) :
    Becomes jobs tally (tally.stamp jobs) where
  same job outside :=
    ⟨by simp only [stamp, List.count_eq_zero_of_not_mem outside, Nat.add_zero], Iff.rfl⟩
  told {job attempts} told := by
    have outside : job ∉ jobs := fun member => goesOn job member told.2
    refine ⟨?_, told.2⟩
    simp only [stamp, List.count_eq_zero_of_not_mem outside, Nat.add_zero]
    exact told.1
  noted := .inl

theorem becomes_finish (tally : Tally) (job : JobId) : Becomes [job] tally (tally.finish job) where
  same other outside := by
    rw [List.mem_singleton] at outside
    exact ⟨rfl, or_iff_right outside⟩
  told told := ⟨told.1, .inr told.2⟩
  noted := id

theorem told_finish (fits : tally.fits job attempts) : (tally.finish job).told job attempts :=
  ⟨fits.1, .inl rfl⟩

theorem adds_self (tally : Tally) : Adds [] tally tally :=
  ⟨fun _ => rfl, .inl⟩

theorem adds_stamp (tally : Tally) (jobs : List JobId) : Adds jobs tally (tally.stamp jobs) :=
  ⟨fun _ => rfl, id⟩

theorem adds_finish (tally : Tally) (job : JobId) : Adds [] tally (tally.finish job) :=
  ⟨fun _ => rfl, .inl⟩

theorem Adds.congr {others : List JobId} (adds : Adds jobs tally later)
    (same : ∀ job, others.count job = jobs.count job) : Adds others tally later :=
  ⟨fun job => by rw [same, adds.count], adds.noted⟩

end Tally

namespace World

/-- All copies of jobs say how often their jobs were stolen: neither a job that is still there nor
one that ended was stolen too often, and jobs that were never submitted were not stolen at all. -/
structure Tallied (limit : UInt32) (submitted : List JobId) (tally : Tally) (world : World) :
    Prop where
  queued : ∀ {id node job ref}, world.nodes.get? id = some node → node.queue.Lists job ref →
    node.store.Says tally.fits job ref
  mail : ∀ {id node}, world.nodes.get? id = some node → ∀ message ∈ world.mail node,
    message.Fits tally.fits
  results : ∀ {id node session task}, world.nodes.get? id = some node →
    node.tasks.get? session = some task → ∀ result ∈ task.results,
      tally.told result.job result.stealingAttempts
  notices : ∀ notice ∈ world.notices, ∀ result ∈ notice.2.results,
    tally.told result.job result.stealingAttempts
  noted : ∀ {id node session job placed}, world.nodes.get? id = some node →
    Awaiting node.tasks session job placed →
      tally.noted placed.transfer.spec.id placed.transfer.stealingAttempts
  stealing : ∀ {id node}, world.nodes.get? id = some node →
    node.resolver.config.maxStealing = limit
  whole : world.cluster.Whole
  within : ∀ job, tally.count job ≤ limit.toNat
  unknown : ∀ job ∉ submitted, tally.count job = 0 ∧ ¬ tally.ended job

/-- What may be said of jobs in the turn of a node. -/
def manifest (world : World) (limit : UInt32) (tally : Tally) (base : JobStore) : Manifest where
  fits := tally.fits
  told := tally.told
  noted := tally.noted
  notes fits := tally.notes fits.1
  limit
  houses ref := ∃ id node, world.nodes.get? id = some node ∧ node.inbox = ref
  base

namespace Tallied

variable {world next : World} {limit : UInt32} {submitted : List JobId} {dropped : JobId → Prop}
  {tally later : Tally} {id : NodeId} {node : Node} {changed : List JobId} {owner : Owners}

/-- A node may go on with its turn when the copies of all jobs that changed are told apart: in its
own queue they say what the later tally says, and in the inboxes there are none. -/
theorem cargo {queue : JobQueue} {store : JobStore} {config : StealingConfig} {cluster : Cluster}
    (tallied : world.Tallied limit submitted tally) (clock : Moment.HasInstant world.now)
    (found : world.nodes.get? id = some node) (becomes : tally.Becomes changed later)
    (queued : ∀ {job ref}, queue.Lists job ref → store.Says later.fits job ref)
    (mail : ∀ {other another}, world.nodes.get? other = some another →
      ∀ message ∈ cluster.messages another.inbox, message ∈ world.mail another ∧
        ∀ job, message.job? = some job → job ∉ changed)
    (whole : cluster.Whole) (stealing : config.maxStealing = limit) :
    Cargo (world.manifest limit later store) [] world.now node.inbox queue store node.tasks config
      cluster [] where
  clock := clock
  housed := ⟨id, node, found, rfl⟩
  queued := queued
  leaves := fun _ member => absurd member List.not_mem_nil
  kept := fun there => there
  mail := by
    rintro ref ⟨other, another, known, rfl⟩ message member job attempts about
    obtain ⟨earlier, apart⟩ := mail known message member
    exact becomes.fits (apart job (by rw [Message.job?, about]; rfl))
      (tallied.mail known message earlier job attempts about)
  whole := whole
  results := fun there result member => becomes.told (tallied.results found there result member)
  notices := fun _ member => absurd member List.not_mem_nil
  noted := fun waits => becomes.noted (tallied.noted found waits)
  stealing := stealing

/-- A turn that changes the tally of no job starts with what was there. -/
theorem carries (tallied : world.Tallied limit submitted tally)
    (clock : Moment.HasInstant world.now) (found : world.nodes.get? id = some node) :
    ({ now := world.now, node, cluster := world.cluster } : Turn).Carries
      (world.manifest limit tally node.store) [] :=
  tallied.cargo clock found (Tally.becomes_self tally) (tallied.queued found)
    (fun _ _ member => ⟨member, fun _ _ => List.not_mem_nil⟩) tallied.whole
    (tallied.stealing found)

/-- After a turn of a node all copies of jobs say what a later tally says. Nothing changed for jobs
that are elsewhere. -/
structure Counts (world : World) (node : Node) (limit : UInt32) (tally later : Tally)
    (final : Turn) : Prop where
  becomes : ∃ changed, tally.Becomes changed later ∧ ∀ job ∈ changed, job ∈ world.jobsAt node
  carries : ∃ base, final.Carries (world.manifest limit later base) []
  adds : tally.Adds (node.store.stamped final.node.store) later
  within : ∀ job, later.count job ≤ limit.toNat

/-- The stamps of a turn are those of the handles that it left as they were from some moment on. -/
theorem stamped_of_carries {base : JobStore} {final : Turn}
    (carries : final.Carries (world.manifest limit later base) [])
    (grows : node.store.Extends base) :
    node.store.stamped final.node.store = node.store.stamped base := by
  have cargo : Cargo .. := carries
  refine JobStore.stamped_congr fun ref before found => ?_
  obtain ⟨after, there, -⟩ := grows ref before found
  rw [cargo.kept there, there]

/-- A turn that stamps no job. -/
theorem counts_of_unstamped {final : Turn} (becomes : tally.Becomes changed later)
    (here : ∀ job ∈ changed, job ∈ world.jobsAt node) (adds : tally.Adds [] later)
    (tallied : world.Tallied limit submitted tally)
    (carries : final.Carries (world.manifest limit later node.store) []) :
    Counts world node limit tally later final where
  becomes := ⟨changed, becomes, here⟩
  carries := ⟨_, carries⟩
  adds := by
    rw [stamped_of_carries carries (.refl _), JobStore.stamped_self]
    exact adds
  within job := by
    rw [adds.count, List.count_nil, Nat.add_zero]
    exact tallied.within job

/-- A turn that changes the tally of no job. -/
theorem counts_of_carries {final : Turn} (tallied : world.Tallied limit submitted tally)
    (carries : final.Carries (world.manifest limit tally node.store) []) :
    Counts world node limit tally tally final :=
  counts_of_unstamped (Tally.becomes_self tally) (fun _ member => absurd member List.not_mem_nil)
    (Tally.adds_self tally) tallied carries

/-- Once the result of a job is taken out of an inbox, nothing else is said of the job. -/
theorem cargo_of_result {letter : Envelope} {cluster : Cluster} {result : JobResult}
    (tallied : world.Tallied limit submitted tally) (safe : world.Safe owner submitted dropped)
    (single : world.Single) (found : world.nodes.get? id = some node)
    (received : world.cluster.receive node.inbox = some (letter, cluster))
    (read : letter.message? = some (.jobResult result)) :
    Cargo (world.manifest limit (tally.finish result.job) node.store) [] world.now node.inbox
      node.queue node.store node.tasks node.resolver.config cluster [] := by
  obtain ⟨same, first, earlier⟩ := safe.mail_of_receive found received
  rw [read] at first
  have about : (Message.jobResult result).job? = some result.job := rfl
  obtain ⟨unqueued, unmailed⟩ := single.not_mem_of_next found first about
  have here : result.job ∈ world.jobsAt node :=
    mem_jobsAt_of_mail (first ▸ List.mem_cons_self) about
  refine tallied.cargo safe.clock found (tally.becomes_finish result.job) ?_ ?_
    (tallied.whole.of_subset fun event inside => same.events ▸ inside) (tallied.stealing found)
  · intro job ref lists
    refine (tally.becomes_finish result.job).said ?_ (tallied.queued found lists)
    rw [List.mem_singleton]
    rintro rfl
    exact unqueued lists.mem_jobs
  · intro other another known message member
    refine ⟨earlier message member, fun job told => ?_⟩
    rw [List.mem_singleton]
    rintro rfl
    by_cases own : id = other
    · subst own
      rw [found, Option.some.injEq] at known
      subst known
      exact unmailed message member told
    · exact single.apart found known own _ here (mem_jobsAt_of_mail (earlier message member) told)

/-- When a result is read, its job ends; no other message changes the tally of a job. -/
theorem receive (tallied : world.Tallied limit submitted tally)
    (safe : world.Safe owner submitted dropped)
    (single : world.Single) (found : world.nodes.get? id = some node) :
    ∃ later, Counts world node limit tally later
      ({ now := world.now, node, cluster := world.cluster } : Turn).readMessage.2 := by
  simp only [Turn.readMessage]
  split
  · exact ⟨tally, counts_of_carries tallied (tallied.carries safe.clock found)⟩
  · rename_i letter cluster received
    obtain ⟨same, first, earlier⟩ := safe.mail_of_receive found received
    have said : ∀ message, letter.message? = some message → message ∈ world.mail node := by
      intro message read
      rw [first, read]
      exact List.mem_cons_self
    by_cases answers : ∃ result, letter.message? = some (.jobResult result)
    · obtain ⟨result, read⟩ := answers
      have begun : ({ now := world.now, node, cluster } : Turn).Carries
          (world.manifest limit (tally.finish result.job) node.store) [] :=
        tallied.cargo_of_result safe single found received read
      refine ⟨tally.finish result.job, counts_of_unstamped (tally.becomes_finish result.job)
        (fun job member => ?_) (tally.adds_finish result.job) tallied
        (begun.onMessage letter ?_ ?_)⟩
      · rw [List.mem_singleton.1 member]
        exact mem_jobsAt_of_mail (said _ read) rfl
      · intro message again other
        rw [read, Option.some.injEq] at again
        exact absurd again.symm (other result)
      · intro other again
        rw [read, Option.some.injEq, Message.jobResult.injEq] at again
        subst again
        exact Tally.told_finish (tallied.mail found _ (said _ read) _ _ rfl)
    · have begun : ({ now := world.now, node, cluster } : Turn).Carries
          (world.manifest limit tally node.store) [] :=
        tallied.cargo safe.clock found (Tally.becomes_self tally) (tallied.queued found)
          (fun _ message member => ⟨earlier message member, fun _ _ => List.not_mem_nil⟩)
          (tallied.whole.of_subset fun event inside => same.events ▸ inside)
          (tallied.stealing found)
      refine ⟨tally, counts_of_carries tallied (begun.onMessage letter ?_ ?_)⟩
      · exact fun message read _ => tallied.mail found message (said message read)
      · exact fun result read => absurd ⟨result, read⟩ answers

/-- When an execution ends on the node that submitted its job, the job ends. -/
theorem complete {execution : Execution} (tallied : world.Tallied limit submitted tally)
    (safe : world.Safe owner submitted dropped) (single : world.Single)
    (found : world.nodes.get? id = some node) (working : execution ∈ node.executions) :
    ∃ later, Counts world node limit tally later
      (({ now := world.now, node, cluster := world.cluster } : Turn).complete execution) := by
  let turn : Turn := { now := world.now, node, cluster := world.cluster }
  have stocked := safe.stocked found
  obtain ⟨handle, known, active, -⟩ := stocked.active_of_execution working
  have listed : node.queue.Lists handle.id execution.job := .inr active
  obtain ⟨same, known', -, fits⟩ := tallied.queued found listed
  rw [known, Option.some.injEq] at known'
  subst known'
  have leaves := Stocked.jobs_complete active
  have gone : handle.id ∉ (node.queue.complete handle.id).jobs :=
    (List.nodup_cons.1 (leaves.nodup_iff.1 stocked.distinct)).1
  by_cases own : handle.origin = node.id
  · have begun : Cargo (world.manifest limit (tally.finish handle.id) node.store) [] world.now
        node.inbox (node.queue.complete handle.id) node.store node.tasks node.resolver.config
          world.cluster [] := by
      refine tallied.cargo safe.clock found (tally.becomes_finish handle.id) ?_ ?_ tallied.whole
        (tallied.stealing found)
      · intro job ref lists
        refine (tally.becomes_finish handle.id).said ?_
          (tallied.queued found (JobQueue.lists_complete lists))
        rw [List.mem_singleton]
        rintro rfl
        exact gone lists.mem_jobs
      · intro other another known message member
        refine ⟨member, fun job told => ?_⟩
        rw [List.mem_singleton]
        rintro rfl
        exact single.not_mailed found listed.mem_jobs known member told
    have ended : (turn.complete execution).Carries
        (world.manifest limit (tally.finish handle.id) node.store) [] :=
      .complete known begun (fun _ => Tally.told_finish fits) fun other => absurd own other
    exact ⟨tally.finish handle.id, counts_of_unstamped (tally.becomes_finish handle.id)
      (fun job member => List.mem_singleton.1 member ▸ mem_jobsAt_of_queued listed.mem_jobs)
      (tally.adds_finish handle.id) tallied ended⟩
  · have begun : Cargo (world.manifest limit tally node.store) [] world.now
        node.inbox (node.queue.complete handle.id) node.store node.tasks node.resolver.config
          world.cluster [] :=
      tallied.cargo safe.clock found (Tally.becomes_self tally)
        (fun lists => tallied.queued found (JobQueue.lists_complete lists))
        (fun _ _ member => ⟨member, fun _ _ => List.not_mem_nil⟩) tallied.whole
        (tallied.stealing found)
    have ended : (turn.complete execution).Carries (world.manifest limit tally node.store) [] :=
      .complete known begun (fun same => absurd same own) fun _ => fits
    exact ⟨tally, counts_of_carries tallied ended⟩

/-- A job that is stamped in a pass is in the queue. -/
theorem lists_of_stamped {job : JobId} (safe : world.Safe owner submitted dropped)
    (found : world.nodes.get? id = some node)
    (member : job ∈ node.store.stamped
      ({ now := world.now, node, cluster := world.cluster } : Turn).pass.store) :
    ∃ ref, node.queue.Lists job ref := by
  obtain ⟨ref, before, after, known, there, rfl, differs⟩ := JobStore.mem_stamped.1 member
  exact ⟨ref, .inl (Resolver.waits_of_stamp _ _ _ _ (safe.stocked found) known there differs)⟩

/-- After a pass all jobs in the queue say how often they were stolen, the pass included. -/
theorem said_of_pass {job : JobId} {ref : JobRef} (tallied : world.Tallied limit submitted tally)
    (safe : world.Safe owner submitted dropped) (found : world.nodes.get? id = some node)
    (lists : node.queue.Lists job ref) :
    let pass := ({ now := world.now, node, cluster := world.cluster } : Turn).pass
    let jobs := node.store.stamped pass.store
    pass.store.Says (tally.stamp jobs).fits job ref ∧
      (job ∈ jobs → (tally.stamp jobs).count job ≤ limit.toNat) := by
  intro pass jobs
  let scene := node.resolver.scene (world.cluster.view node.id) node.restrictions
    node.chance.peers world.now
  obtain ⟨before, known, same, fits⟩ := tallied.queued found lists
  obtain ⟨after, there, id, counted, bounded⟩ := node.resolver.attempts_collide scene
    world.cluster.accepts node.queue.active.size (safe.stocked found) lists known same
  have agrees : after.stealingAttempts.toNat = (tally.stamp jobs).count job := by
    rw [counted, fits.1]
    rfl
  refine ⟨⟨after, there, id, agrees, fits.2⟩, fun member => ?_⟩
  have most := bounded.resolve_left (Nat.ne_of_gt (List.count_pos_iff.2 member))
  rw [← agrees, ← tallied.stealing found]
  exact UInt32.le_iff_toNat_le.1 most

/-- When a node looks through its jobs, the jobs that it stamps were stolen once more. -/
theorem look (tallied : world.Tallied limit submitted tally)
    (safe : world.Safe owner submitted dropped)
    (single : world.Single) (found : world.nodes.get? id = some node) :
    ∃ later, Counts world node limit tally later
      ({ now := world.now, node, cluster := world.cluster } : Turn).collide := by
  let turn : Turn := { now := world.now, node, cluster := world.cluster }
  let jobs := node.store.stamped turn.pass.store
  have grows : node.store.Extends turn.pass.store := Resolver.extends_collide _ _ _ _ _ _
  have waits : ∀ job ∈ jobs, ∃ ref, node.queue.Lists job ref := fun job member =>
    lists_of_stamped safe found member
  have becomes : tally.Becomes jobs (tally.stamp jobs) := by
    refine Tally.becomes_stamp fun job member => ?_
    obtain ⟨ref, lists⟩ := waits job member
    obtain ⟨handle, -, -, fits⟩ := tallied.queued found lists
    exact fits.2
  have passed : Cargo (world.manifest limit (tally.stamp jobs) turn.pass.store) [] world.now
      node.inbox node.queue turn.pass.store node.tasks turn.pass.resolver.config world.cluster
        [] := by
    refine tallied.cargo safe.clock found becomes
      (fun lists => (tallied.said_of_pass safe found lists).1) ?_ tallied.whole ?_
    · intro other another known message member
      refine ⟨member, fun job about stamps => ?_⟩
      obtain ⟨ref, lists⟩ := waits job stamps
      exact single.not_mailed found lists.mem_jobs known member about
    · exact (congrArg StealingConfig.maxStealing (Resolver.config_collide ..)).trans
        (tallied.stealing found)
  have looked : turn.collide.Carries (world.manifest limit (tally.stamp jobs) turn.pass.store) [] :=
    Turn.Carries.collide passed
  refine ⟨tally.stamp jobs, ⟨jobs, becomes, fun job member => ?_⟩, ⟨_, looked⟩, ?_,
    fun job => ?_⟩
  · obtain ⟨ref, lists⟩ := waits job member
    exact mem_jobsAt_of_queued lists.mem_jobs
  · rw [stamped_of_carries looked grows]
    exact tally.adds_stamp jobs
  · by_cases member : job ∈ jobs
    · obtain ⟨ref, lists⟩ := waits job member
      exact (tallied.said_of_pass safe found lists).2 member
    · rw [(becomes.same job member).1]
      exact tallied.within job

/-- Whatever a node does, all copies of jobs say afterwards how often their jobs were stolen. -/
theorem take {act : NodeTurn} {final : Turn} (tallied : world.Tallied limit submitted tally)
    (safe : world.Safe owner submitted dropped) (distinct : (submitted ++ act.submitted).Nodup)
    (found : world.nodes.get? id = some node)
    (took : act.take? { now := world.now, node, cluster := world.cluster } = some final) :
    ∃ later, Counts world node limit tally later final := by
  have begun := tallied.carries safe.clock found
  have single : world.Single := safe.single tallied.whole (List.nodup_append.1 distinct).1
  cases act with
  | submit session jobs placement =>
      cases took
      refine ⟨tally, counts_of_carries tallied (begun.submit session jobs placement ?_)⟩
      intro spec member
      have new : spec.id ∉ submitted := fun known =>
        (List.nodup_append.1 distinct).2.2 spec.id known spec.id
          (List.mem_map_of_mem (f := JobSpec.id) member) rfl
      exact ⟨(tallied.unknown _ new).1.symm, (tallied.unknown _ new).2⟩
  | receive =>
      cases took
      exact tallied.receive safe single found
  | observe =>
      obtain ⟨-, rfl⟩ := NodeTurn.take?_observe_eq_some.1 took
      exact ⟨tally, counts_of_carries tallied begun.readEvent⟩
  | look =>
      cases took
      exact tallied.look safe single found
  | complete execution =>
      obtain ⟨working, rfl⟩ := NodeTurn.take?_complete_eq_some.1 took
      exact tallied.complete safe single found working
  | publish =>
      cases took
      exact ⟨tally, counts_of_carries tallied begun.publishMetrics⟩
  | restrict session nodes =>
      cases took
      exact ⟨tally, counts_of_carries tallied begun⟩
  | reroll chance =>
      cases took
      exact ⟨tally, counts_of_carries tallied begun⟩

end Tallied

end World

end JobGrid
