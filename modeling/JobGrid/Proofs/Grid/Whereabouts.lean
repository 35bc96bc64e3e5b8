import JobGrid.Proofs.Grid.Kept

/-!
# The whereabouts of pending jobs

No job is lost, except in turns in which a rule breaks. In every history of a grid each pending job
of a member is in the queue of the node that was noted for it or on its way there, or an answer
about it is on its way to its origin, or it is gone with a node whose departure its origin has yet
to read about. As long as nobody departed, there is exactly one such copy of it. Otherwise the job
went astray in a turn that broke off, as it does where the balancer overflows.
-/

namespace JobGrid

/-- A node of some name that has its inbox, in which nothing is, and nothing to do. -/
structure Node.Idle (id : NodeId) (cluster : Cluster) (node : Node) : Prop where
  id : node.id = id
  queue : node.queue.jobs = []
  executions : node.executions = []
  tasks : node.tasks = ∅
  housed : node.inbox < cluster.mailboxes.size
  empty : cluster.messages node.inbox = []
  position : node.position = 0

namespace World

/-- All nodes of the world are members with an empty inbox that have nothing to do. -/
structure Quiet (world : World) : Prop where
  clock : Moment.HasInstant world.now
  named : ∀ {id node}, world.nodes.get? id = some node → node.id = id
  reached : ∀ {id ref}, world.cluster.inboxes.get? id = some ref ↔
    ∃ node, world.nodes.get? id = some node ∧ node.inbox = ref
  member : ∀ {id}, (world.cluster.find? id).isSome ↔ world.nodes.contains id
  apart : ∀ {id other node another}, world.nodes.get? id = some node →
    world.nodes.get? other = some another → node.inbox = another.inbox → id = other
  housed : ∀ {id node}, world.nodes.get? id = some node →
    node.inbox < world.cluster.mailboxes.size
  read : ∀ {id node}, world.nodes.get? id = some node →
    node.position ≤ world.cluster.events.size
  empty : ∀ {id node}, world.nodes.get? id = some node → world.cluster.messages node.inbox = []
  idle : ∀ {id node}, world.nodes.get? id = some node →
    node.queue.jobs = [] ∧ node.executions = [] ∧ node.tasks = ∅
  whole : world.cluster.Whole

variable {world start final : World}

/-- Idle members with inboxes of their own make a quiet world. -/
theorem quiet_of_idle (clock : Moment.HasInstant start.now)
    (inboxes : start.cluster.inboxes.entries =
      start.nodes.entries.map fun entry => (entry.1, entry.2.inbox))
    (members : start.cluster.members.map Member.id = start.nodes.keys)
    (apart : (start.nodes.entries.map fun entry => entry.2.inbox).Nodup)
    (idle : ∀ entry ∈ start.nodes.entries, entry.2.Idle entry.1 start.cluster)
    (events : start.cluster.events = #[]) : start.Quiet := by
  have known : ∀ {id node}, start.nodes.get? id = some node → (id, node) ∈ start.nodes.entries :=
    Table.get?_eq_some_iff.1
  refine ⟨clock, fun found => (idle _ (known found)).id, ?_, ?_, ?_,
    fun found => (idle _ (known found)).housed, ?_, fun found => (idle _ (known found)).empty, ?_,
    ?_⟩
  · intro id ref
    rw [Table.get?_eq_some_iff, inboxes, List.mem_map]
    constructor
    · rintro ⟨⟨name, node⟩, inside, equal⟩
      cases equal
      exact ⟨node, Table.get?_eq_some_iff.2 inside, rfl⟩
    · rintro ⟨node, found, rfl⟩
      exact ⟨(id, node), known found, rfl⟩
  · intro id
    rw [Cluster.isSome_find?, members, Table.mem_keys_iff, Table.contains,
      Option.isSome_iff_exists]
  · intro id other node another found there same
    exact congrArg Prod.fst (List.inj_on_of_nodup_map apart (known found) (known there) same)
  · intro id node found
    rw [(idle _ (known found)).position]
    exact Nat.zero_le _
  · intro id node found
    have rests := idle _ (known found)
    exact ⟨rests.queue, rests.executions, rests.tasks⟩
  · intro node event member
    rw [events] at member
    cases Array.mem_toList_iff.2 member

namespace Quiet

theorem found_of_grid {submitted : List JobId} {id : NodeId} {work : NodeWork}
    (found : (world.grid submitted dropped).node? id = some work) :
    ∃ node, world.nodes.get? id = some node ∧ node.work = work :=
  Option.map_eq_some_iff.1 found

/-- The nodes of a quiet world and its cluster fit together. -/
theorem wired (quiet : world.Quiet) : (world.grid [] dropped).Wired where
  listed {id} := by
    constructor
    · intro listed
      obtain ⟨node, found⟩ := Table.mem_keys_iff.1 listed
      exact ⟨node.work, Option.map_eq_some_iff.2 ⟨node, found, rfl⟩⟩
    · rintro ⟨work, there⟩
      obtain ⟨node, found, -⟩ := found_of_grid there
      exact Table.mem_keys_iff.2 ⟨node, found⟩
  distinct := world.nodes.keys_nodup
  named there := by
    obtain ⟨node, found, rfl⟩ := found_of_grid there
    exact quiet.named found
  housed there := by
    obtain ⟨node, found, rfl⟩ := found_of_grid there
    exact quiet.housed found
  apart left right same := by
    obtain ⟨node, found, rfl⟩ := found_of_grid left
    obtain ⟨another, known, rfl⟩ := found_of_grid right
    exact quiet.apart found known same
  read there := by
    obtain ⟨node, found, rfl⟩ := found_of_grid there
    exact quiet.read found
  reached known := by
    obtain ⟨node, found, inbox⟩ := quiet.reached.1 known
    exact ⟨node.work, Option.map_eq_some_iff.2 ⟨node, found, rfl⟩, inbox⟩
  enrolled {id} := by
    have member : ((world.grid [] dropped).cluster.find? id).isSome ↔ world.nodes.contains id :=
      quiet.member
    rw [member, Table.contains, Table.contains, Option.isSome_iff_exists,
      Option.isSome_iff_exists]
    constructor
    · rintro ⟨ref, known⟩
      obtain ⟨node, found, -⟩ := quiet.reached.1 known
      exact ⟨node, found⟩
    · rintro ⟨node, found⟩
      exact ⟨node.inbox, quiet.reached.2 ⟨node, found, rfl⟩⟩
  departed {id} event member left := absurd left (quiet.whole id event member)

theorem queued_grid (quiet : world.Quiet) (id : NodeId) :
    (world.grid [] dropped).queued id = [] := by
  rw [Grid.queued]
  cases there : (world.grid [] dropped).node? id with
  | none => rfl
  | some work =>
      obtain ⟨node, found, rfl⟩ := found_of_grid there
      exact (quiet.idle found).1

theorem mail_grid (quiet : world.Quiet) (id : NodeId) : (world.grid [] dropped).mail id = [] := by
  rw [Grid.mail]
  cases there : (world.grid [] dropped).node? id with
  | none => rfl
  | some work =>
      obtain ⟨node, found, rfl⟩ := found_of_grid there
      exact quiet.empty found

/-- No job is lost as long as there are none. -/
theorem safe (quiet : world.Quiet) (owner : Owners) : world.Safe owner [] dropped where
  clock := quiet.clock
  grid := by
    have idle : ∀ {id work}, (world.grid [] dropped).node? id = some work →
        work.queue.jobs = [] ∧ work.executions = [] ∧ work.tasks = ∅ := by
      intro id work there
      obtain ⟨node, found, rfl⟩ := found_of_grid there
      exact quiet.idle found
    have nothing : ∀ {origin job node}, ¬ (world.grid [] dropped).ledger.pends origin job node := by
      rintro origin job node ⟨work, there, session, placed, ⟨task, found, -⟩, -⟩
      rw [(idle there).2.2] at found
      cases found
    have wired : (world.grid [] dropped).Wired := quiet.wired
    refine ⟨wired, ?_, ?_, wired.distinct, ?_, ?_, ?_, ?_⟩
    · intro id message inside
      rw [quiet.mail_grid] at inside
      cases inside
    · intro id work there
      obtain ⟨queue, executions, tasks⟩ := idle there
      refine ⟨?_, ?_, fun _ member => absurd member List.not_mem_nil⟩
      · rw [executions]
        exact .empty owner queue _
      · rw [tasks]
        exact .empty owner _
    · exact fun live => wired.listed_of_live live
    · exact fun pending => absurd pending nothing
    · exact fun _ pending => absurd pending nothing
    · intro _ origin job _
      have none : ∀ id, (world.grid [] dropped).ledger.held id job = 0 := by
        intro id
        simp only [Grid.ledger, quiet.queued_grid, quiet.mail_grid]
        rfl
      have unanswered : (world.grid [] dropped).ledger.answers origin job = 0 := by
        simp only [Grid.ledger, quiet.mail_grid]
        rfl
      have total : (world.grid [] dropped).ledger.total job = 0 := by simp [Ledger.total, none]
      rw [total, unanswered]
      exact Nat.zero_le _

end Quiet

/-- How many copies of a job of an origin there are: in the queues of all nodes, on the way
there, and in the answers in the inbox of the origin. -/
def copies (world : World) (origin : Node) (job : JobId) : Nat :=
  (world.nodes.values.map fun node => node.queue.jobs.count job +
    ((world.mail node).filterMap Message.brought?).count job).sum +
  ((world.mail origin).filterMap Message.answered?).count job

/-- The ledger counts the copies of a job. -/
theorem copies_eq {submitted : List JobId} {id : NodeId} {origin : Node}
    (found : world.nodes.get? id = some origin) (job : JobId) :
    (world.grid submitted dropped).ledger.total job +
        (world.grid submitted dropped).ledger.answers id job = world.copies origin job := by
  have held : ∀ other, (world.grid submitted dropped).ledger.held other job =
      (world.nodes.get? other).elim 0 fun node => node.queue.jobs.count job +
        ((world.mail node).filterMap Message.brought?).count job := by
    intro other
    cases known : world.nodes.get? other with
    | none => simp [Grid.ledger, Grid.queued, Grid.mail, World.grid, known]
    | some node => exact held_grid known
  have names : (world.grid submitted dropped).ledger.nodes = world.nodes.keys := rfl
  simp only [Ledger.total, names, held, answers_grid found, copies, Table.map_keys]

/-- After any history all jobs are safe that did not go astray in it. -/
theorem Quiet.safe_steps {history : List GridEvent} (quiet : start.Quiet)
    (distinct : (submittedJobs history).Nodup) (happened : start.steps? history = some final) :
    final.Safe (submitter history) (submittedJobs history)
      fun job => LostIn job start history := by
  have nothing : start.Safe (submitter history) [] fun _ => False := quiet.safe _
  have safe := nothing.steps happened fun event member job submits =>
    submitter_eq distinct member submits
  exact safe.widen fun lost => lost.resolve_left not_false

/-- No job is lost, except in a turn in which a rule breaks: a pending job of a member is
somewhere, exactly once as long as nobody departed, or it went astray in such a turn. -/
theorem whereabouts_of_pending {history : List GridEvent} {id : NodeId} {origin : Node}
    {session : SessionId} {task : TaskState} {job : JobId} {placed : PendingJob}
    (quiet : start.Quiet) (distinct : (submittedJobs history).Nodup)
    (happened : start.steps? history = some final) (found : final.nodes.get? id = some origin)
    (live : (final.cluster.find? id).isSome = true)
    (followed : origin.tasks.get? session = some task)
    (pending : task.pending.get? job = some placed) :
    LostIn job start history ∨ final.Whereabouts origin job placed.node ∧
      (final.cluster.Whole → final.copies origin job = 1) := by
  by_cases lost : LostIn job start history
  · exact .inl lost
  have safe := quiet.safe_steps distinct happened
  let grid := final.grid (submittedJobs history) fun job => LostIn job start history
  have there : grid.node? id = some origin.work := Option.map_eq_some_iff.2 ⟨origin, found, rfl⟩
  have pends : grid.ledger.pends id job placed.node :=
    ⟨origin.work, there, session, placed, ⟨task, followed, pending⟩, rfl⟩
  have up : grid.ledger.live id := safe.grid.wired.enrolled.2 live
  have located := (safe.grid.balanced.located up pends).resolve_right lost
  refine .inr ⟨whereabouts_of_located safe.grid.wired found located, fun whole => ?_⟩
  have informed : ∀ node, ¬ grid.ledger.awaits id node := by
    rintro node ⟨work, -, unread⟩
    exact whole.not_tells unread
  have single : (submittedJobs history).count job ≤ 1 := List.nodup_iff_count_le_one.1 distinct job
  rw [← copies_eq found]
  exact safe.grid.balanced.exact_of_whole whole informed up pends lost single

/-- Whether something that happens is a turn in which a rule breaks. -/
def breaks (world : World) : GridEvent → Bool
  | .turn id act => ((world.nodes.get? id).bind fun node =>
      act.take? { now := world.now, node, cluster := world.cluster }).any fun final =>
        final.fault?.isSome
  | _ => false

/-- Whether a rule breaks in a turn of a history. -/
def breaksIn : World → List GridEvent → Bool
  | _, [] => false
  | world, event :: later =>
      world.breaks event || (world.step? event).any fun next => next.breaksIn later

/-- No job goes astray while no rule breaks. -/
theorem not_lostIn {history : List GridEvent} (sound : start.breaksIn history = false)
    (job : JobId) : ¬ LostIn job start history := by
  induction history generalizing start with
  | nil => exact not_false
  | cons event later ih =>
      obtain ⟨first, rest⟩ := Bool.or_eq_false_iff.1 sound
      rintro (⟨id, act, node, final, rfl, loses⟩ | ⟨next, happened, lost⟩)
      · simp [breaks, loses.found, loses.took, loses.broke] at first
      · rw [happened] at rest
        exact ih rest lost

/-- A member gives a pending job to another one that asked for it, and brings it there itself. Then
the other one fails. -/
theorem whereabouts_of_given :
    let origin : NodeId := .ofNat 1
    let idler : NodeId := .ofNat 2
    let node (id : NodeId) (inbox : MailboxRef) (threshold : UInt32) : Node := {
      id
      config := {}
      chance := {}
      queue := { capacity := 9 }
      resolver := {
        config := { activeThreshold := threshold }
        queue := [origin, idler].erase id }
      balancer := .affinity { config := {}, ring := .empty "" Digest.md5 }
      tracker := { started := 0, cpus := 1 }
      inbox
      position := 0 }
    let member (id : NodeId) : Member :=
      { id, attributes := .ofList [(AttributeName.waitThreshold, .int 0)] }
    let cluster : Cluster := {
      capacity := 9
      members := [member origin, member idler]
      inboxes := .ofList [(origin, 0), (idler, 1)]
      mailboxes := #[{}, {}] }
    let nodes := .ofList [(origin, node origin 0 0), (idler, node idler 1 1)]
    let start : World := { now := 0, cluster, nodes }
    let job : JobSpec := { id := .ofNat 7 }
    let giving : List GridEvent := [
      .turn origin (.submit (.ofNat 5) [job] .pinned),
      .turn origin .publish,
      .turn idler .look,
      .turn origin .receive,
      .turn origin .look]
    let failing := giving ++ [.fail idler]
    start.Quiet ∧ ∀ history ∈ [giving, failing], (submittedJobs history).Nodup ∧
      ∃ final giver task placed, start.steps? history = some final ∧
        final.nodes.get? origin = some giver ∧ (final.cluster.find? origin).isSome = true ∧
        giver.tasks.get? (.ofNat 5) = some task ∧ task.pending.get? job.id = some placed ∧
        placed.node = idler ∧ final.Whereabouts giver job.id idler ∧
        (final.cluster.Whole → final.copies giver job.id = 1) := by
  intro origin idler node member cluster nodes start job giving failing
  have quiet : start.Quiet := by
    refine quiet_of_idle (by decide +kernel) rfl rfl (by decide) ?_ rfl
    refine List.forall_mem_cons.2 ⟨⟨rfl, rfl, rfl, rfl, by decide, rfl, rfl⟩, ?_⟩
    exact List.forall_mem_singleton.2 ⟨rfl, rfl, rfl, rfl, by decide, rfl, rfl⟩
  have ends : ∀ history ∈ [giving, failing], start.breaksIn history = false ∧
      ((start.steps? history).bind fun final => (final.nodes.get? origin).bind fun giver =>
        (giver.tasks.get? (.ofNat 5)).bind fun task => (task.pending.get? job.id).bind fun placed =>
          (final.cluster.find? origin).map fun _ => placed.node) = some idler := by
    decide +kernel
  have distinct : ∀ history ∈ [giving, failing], (submittedJobs history).Nodup := by
    decide +kernel
  refine ⟨quiet, fun history either => ⟨distinct history either, ?_⟩⟩
  obtain ⟨sound, ended⟩ := ends history either
  obtain ⟨final, happened, ended⟩ := Option.bind_eq_some_iff.1 ended
  obtain ⟨giver, found, ended⟩ := Option.bind_eq_some_iff.1 ended
  obtain ⟨task, followed, ended⟩ := Option.bind_eq_some_iff.1 ended
  obtain ⟨placed, pending, ended⟩ := Option.bind_eq_some_iff.1 ended
  obtain ⟨_, there, noted⟩ := Option.map_eq_some_iff.1 ended
  have live := Option.isSome_iff_exists.2 ⟨_, there⟩
  have somewhere := (whereabouts_of_pending quiet (distinct history either) happened found live
    followed pending).resolve_left (not_lostIn sound job.id)
  rw [noted] at somewhere
  exact ⟨final, giver, task, placed, happened, found, live, followed, pending, noted, somewhere⟩

/-- A job that its origin noted on itself is nowhere if it is not in the queue and nothing is in the
inbox. -/
theorem not_whereabouts {id : NodeId} {origin : Node} {job : JobId}
    (found : world.nodes.get? id = some origin)
    (live : (world.cluster.find? id).isSome = true) (queued : job ∉ origin.queue.jobs)
    (mail : world.mail origin = []) : ¬ world.Whereabouts origin job id := by
  intro there
  cases there with
  | queued known _ has =>
      rw [found, Option.some.injEq] at known
      exact queued (known ▸ has)
  | underway known _ sent _ =>
      rw [found, Option.some.injEq] at known
      rw [← known, mail] at sent
      exact List.not_mem_nil sent
  | refused sent _ | done sent _ =>
      rw [mail] at sent
      exact List.not_mem_nil sent
  | gone absent _ =>
      rw [absent] at live
      cases live

/-- The own queue takes only one of two jobs, and the only other member published two times that do
not fit into a word together. The second job is pending, and it is nowhere. -/
theorem pending_job_astray :
    let self : NodeId := .ofNat 0
    let peer : NodeId := .ofNat 1
    let node (id : NodeId) (inbox : MailboxRef) : Node := {
      id
      config := {}
      chance := {}
      queue := { capacity := 1 }
      resolver := { config := {} }
      balancer := .adaptive { probe := ({} : AdaptiveConfig).probe.probe }
      tracker := { started := 0, cpus := 1 }
      inbox
      position := 0 }
    let busy : Metrics := { currentExecuteTime := 18446744073709551615, currentWaitTime := 1 }
    let cluster : Cluster := {
      capacity := 9
      members := [{ id := self }, { id := peer, metrics := busy }]
      inboxes := .ofList [(self, 0), (peer, 1)]
      mailboxes := #[{}, {}] }
    let nodes := .ofList [(self, node self 0), (peer, node peer 1)]
    let start : World := { now := 0, cluster, nodes }
    let history : List GridEvent :=
      [.turn self (.submit (.ofNat 5) [{ id := .ofNat 7 }, { id := .ofNat 8 }] .pinned)]
    start.Quiet ∧ (submittedJobs history).Nodup ∧
      ∃ final, start.steps? history = some final ∧ final.Astray (.ofNat 8) := by
  intro self peer node busy cluster nodes start history
  have quiet : start.Quiet := by
    refine quiet_of_idle (by decide +kernel) rfl rfl (by decide) ?_ rfl
    refine List.forall_mem_cons.2 ⟨⟨rfl, rfl, rfl, rfl, by decide, rfl, rfl⟩, ?_⟩
    exact List.forall_mem_singleton.2 ⟨rfl, rfl, rfl, rfl, by decide, rfl, rfl⟩
  have ends : ((start.steps? history).bind fun final => (final.nodes.get? self).bind fun origin =>
      (origin.tasks.get? (.ofNat 5)).bind fun task =>
        (task.pending.get? (.ofNat 8)).map fun placed =>
          (placed.node, (final.cluster.find? self).isSome, origin.queue.jobs,
            (final.mail origin).isEmpty)) = some (self, true, [.ofNat 7], true) := by
    decide +kernel
  obtain ⟨final, happened, ended⟩ := Option.bind_eq_some_iff.1 ends
  obtain ⟨origin, found, ended⟩ := Option.bind_eq_some_iff.1 ended
  obtain ⟨task, followed, ended⟩ := Option.bind_eq_some_iff.1 ended
  obtain ⟨placed, pending, ended⟩ := Option.map_eq_some_iff.1 ended
  simp only [Prod.mk.injEq, List.isEmpty_iff] at ended
  obtain ⟨noted, live, queued, mail⟩ := ended
  refine ⟨quiet, by decide, final, happened, self, origin, .ofNat 5, task, placed, found, live,
    followed, pending, ?_⟩
  rw [noted]
  exact not_whereabouts found live (by rw [queued]; decide) mail

end World

end JobGrid
