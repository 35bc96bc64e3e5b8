import Mathlib.Algebra.BigOperators.Group.List.Basic
import Mathlib.Algebra.Group.Action.Defs
import Mathlib.Data.List.Pairwise
import JobGrid.Proofs.Grid.Copies
import JobGrid.Proofs.Grid.Whereabouts

/-!
# One copy of each job

As long as nobody departed and no job is submitted twice, no job is in two places at a time: in the
queue of a node or in an inbox, be it on its way to a node or in an answer to its origin.
-/

namespace JobGrid

namespace World

variable {world : World} {id : NodeId} {node : Node}

/-- The jobs in the queue and in the inbox of a node. -/
def jobsAt (world : World) (node : Node) : List JobId :=
  node.queue.jobs ++ (world.mail node).filterMap Message.job?

/-- The jobs in all queues and inboxes. -/
def jobs (world : World) : List JobId :=
  world.nodes.keys.flatMap fun id => (world.nodes.get? id).elim [] world.jobsAt

/-- No job is in two places. -/
structure Single (world : World) : Prop where
  own : ∀ {id node}, world.nodes.get? id = some node → (world.jobsAt node).Nodup
  apart : ∀ {id other node another}, world.nodes.get? id = some node →
    world.nodes.get? other = some another → id ≠ other →
    ∀ job ∈ world.jobsAt node, job ∉ world.jobsAt another

theorem mem_jobs {job : JobId} :
    job ∈ world.jobs ↔ ∃ id node, world.nodes.get? id = some node ∧ job ∈ world.jobsAt node := by
  rw [jobs, List.mem_flatMap]
  constructor
  · rintro ⟨id, -, inside⟩
    cases found : world.nodes.get? id with
    | none =>
        rw [found] at inside
        cases inside
    | some node =>
        rw [found] at inside
        exact ⟨id, node, found, inside⟩
  · rintro ⟨id, node, found, inside⟩
    refine ⟨id, Table.mem_keys_iff.2 ⟨node, found⟩, ?_⟩
    rw [found]
    exact inside

/-- A job at a node is held there, or it is in an answer. -/
theorem count_jobsAt (submitted : List JobId) (dropped : JobId → Prop) (id : NodeId)
    (job : JobId) : ((world.nodes.get? id).elim [] world.jobsAt).count job =
      (world.grid submitted dropped).ledger.held id job +
        (world.grid submitted dropped).ledger.answers id job := by
  cases found : world.nodes.get? id with
  | none => simp [Grid.ledger, Grid.queued, Grid.mail, Grid.undelivered, World.grid, found]
  | some node =>
      simp only [Option.elim, jobsAt, List.count_append, Message.count_jobs, held_grid found,
        answers_grid found]
      omega

theorem mem_jobsAt_of_queued {job : JobId} (queued : job ∈ node.queue.jobs) :
    job ∈ world.jobsAt node :=
  List.mem_append_left _ queued

theorem mem_jobsAt_of_mail {message : Message} {job : JobId} (member : message ∈ world.mail node)
    (about : message.job? = some job) : job ∈ world.jobsAt node :=
  List.mem_append_right _ (List.mem_filterMap.2 ⟨message, member, about⟩)

namespace Single

variable {job : JobId} {message : Message}

/-- No message is about a job that is in a queue. -/
theorem not_mailed (single : world.Single) (found : world.nodes.get? id = some node)
    (queued : job ∈ node.queue.jobs) {other : NodeId} {another : Node}
    (known : world.nodes.get? other = some another) (member : message ∈ world.mail another) :
    message.job? ≠ some job := by
  intro about
  by_cases own : id = other
  · subst own
    rw [found, Option.some.injEq] at known
    subst known
    exact (List.nodup_append.1 (single.own found)).2.2 job queued job
      (List.mem_filterMap.2 ⟨message, member, about⟩) rfl
  · exact single.apart found known own job (mem_jobsAt_of_queued queued)
      (mem_jobsAt_of_mail member about)

/-- The job of the next message is neither in the queue nor behind another message. -/
theorem not_mem_of_next {rest : List Message} (single : world.Single)
    (found : world.nodes.get? id = some node) (mail : world.mail node = message :: rest)
    (about : message.job? = some job) :
    job ∉ node.queue.jobs ∧ ∀ later ∈ rest, later.job? ≠ some job := by
  have next : message ∈ world.mail node := mail ▸ List.mem_cons_self
  refine ⟨fun queued => single.not_mailed found queued found next about, ?_⟩
  intro later member same
  have distinct := (List.nodup_append.1 (single.own found)).2.1
  rw [mail, List.filterMap_cons_some about, List.nodup_cons] at distinct
  exact distinct.1 (List.mem_filterMap.2 ⟨later, member, same⟩)

end Single

namespace Safe

variable {owner : Owners} {submitted : List JobId} {dropped : JobId → Prop}

/-- Answers for a job are in the inbox of its origin only. -/
theorem answers_eq_zero {job : JobId} (safe : world.Safe owner submitted dropped)
    (elsewhere : (owner job).map Prod.fst ≠ some id) :
    (world.grid submitted dropped).ledger.answers id job = 0 := by
  have none :
      (((world.grid submitted dropped).mail id).filterMap Message.answered?).count job = 0 := by
    refine List.count_eq_zero.2 fun member => ?_
    obtain ⟨message, inside, answers⟩ := List.mem_filterMap.1 member
    exact elsewhere ((safe.grid.honest message inside).home answers)
  simp only [Grid.ledger, none]
  rfl

/-- Between two turns a node has nothing in its hand. -/
theorem stocked (safe : world.Safe owner submitted dropped)
    (found : world.nodes.get? id = some node) :
    Stocked owner [] [] node.queue node.store node.executions :=
  (safe.grid.sound (Option.map_eq_some_iff.2 ⟨node, found, rfl⟩)).stocked

theorem housed (safe : world.Safe owner submitted dropped)
    (found : world.nodes.get? id = some node) :
    node.inbox < world.cluster.mailboxes.size :=
  safe.grid.wired.housed (Option.map_eq_some_iff.2 ⟨node, found, rfl⟩)

/-- Reading takes the first letter out of the inbox of a node, and nothing comes into any inbox. -/
theorem mail_of_receive {letter : Envelope} {cluster : Cluster}
    (safe : world.Safe owner submitted dropped)
    (found : world.nodes.get? id = some node)
    (received : world.cluster.receive node.inbox = some (letter, cluster)) :
    world.cluster.SameMembers cluster ∧
      world.mail node = letter.message?.toList ++ cluster.messages node.inbox ∧
      ∀ {another : Node}, ∀ message ∈ cluster.messages another.inbox,
        message ∈ world.mail another := by
  obtain ⟨same, first, others⟩ := Cluster.messages_of_receive (safe.housed found) received
  refine ⟨same, first, fun {another} message member => ?_⟩
  by_cases own : another.inbox = node.inbox
  · rw [mail, own, first, ← own]
    exact List.mem_append_right _ member
  · rwa [others _ own] at member

/-- What is in the queue and in the inbox of a node was submitted by somebody. -/
theorem owner_of_mem_jobsAt {job : JobId} (safe : world.Safe owner submitted dropped)
    (found : world.nodes.get? id = some node) (member : job ∈ world.jobsAt node) :
    (owner job).isSome = true := by
  rcases List.mem_append.1 member with queued | mailed
  · have names : ∃ ref, node.store.Names owner ref job := by
      rcases List.mem_append.1 queued with waits | runs
      · obtain ⟨waiting, inside, rfl⟩ := List.mem_map.1 waits
        exact ⟨_, (safe.stocked found).waits waiting inside⟩
      · obtain ⟨ref, active⟩ := Table.mem_keys_iff.1 runs
        exact ⟨ref, (safe.stocked found).runs active⟩
    obtain ⟨ref, handle, -, -, owned⟩ := names
    rw [owned]
    rfl
  · obtain ⟨message, inside, about⟩ := List.mem_filterMap.1 mailed
    have mail : (world.grid submitted dropped).mail id = world.mail node := World.mail_grid found
    rw [← mail] at inside
    have genuine := safe.grid.honest message inside
    cases message with
    | stealRequest request => cases about
    | jobSubmit transfer =>
        cases about
        exact Option.isSome_iff_exists.2 ⟨_, genuine⟩
    | jobRejected rejected =>
        cases about
        exact Option.isSome_iff_exists.2 ⟨_, genuine.1⟩
    | jobResult result =>
        cases about
        exact Option.isSome_iff_exists.2 ⟨_, genuine⟩

/-- All answers for a job together are no more than those for its origin. -/
theorem sum_answers_le {job : JobId} {home : NodeId × SessionId}
    (safe : world.Safe owner submitted dropped) (owned : owner job = some home) :
    (world.nodes.keys.map fun id => (world.grid submitted dropped).ledger.answers id job).sum ≤
      (world.grid submitted dropped).ledger.answers home.1 job := by
  have elsewhere : ∀ id, id ≠ home.1 → id ∈ world.nodes.keys →
      (world.grid submitted dropped).ledger.answers id job = 0 := by
    intro id differs _
    refine safe.answers_eq_zero fun same => differs ?_
    rw [owned, Option.map_some, Option.some.injEq] at same
    exact same.symm
  rw [List.sum_map_eq_nsmul_single home.1 _ elsewhere, smul_eq_mul]
  exact Nat.le_trans (Nat.mul_le_mul_right _
    (List.nodup_iff_count_le_one.1 world.nodes.keys_nodup _)) (Nat.le_of_eq (Nat.one_mul _))

/-- As long as nobody departed, there are no more copies of a job than were submitted. -/
theorem count_jobs_le (safe : world.Safe owner submitted dropped) (whole : world.cluster.Whole)
    (job : JobId) : world.jobs.count job ≤ submitted.count job := by
  cases owned : owner job with
  | none =>
      refine Nat.le_trans (Nat.le_of_eq (List.count_eq_zero.2 fun member => ?_)) (Nat.zero_le _)
      obtain ⟨id, node, found, inside⟩ := mem_jobs.1 member
      have known := safe.owner_of_mem_jobsAt found inside
      rw [owned] at known
      cases known
  | some home =>
      have home' : (owner job).map Prod.fst = some home.1 := by rw [owned]; rfl
      have once : (world.grid submitted dropped).ledger.total job +
          (world.grid submitted dropped).ledger.answers home.1 job ≤
            (world.grid submitted dropped).ledger.submitted job :=
        safe.grid.balanced.once whole home'
      have answers := safe.sum_answers_le owned
      have total : (world.grid submitted dropped).ledger.total job = (world.nodes.keys.map fun id =>
          (world.grid submitted dropped).ledger.held id job).sum := rfl
      have most : (world.grid submitted dropped).ledger.submitted job = submitted.count job := rfl
      have sums : world.nodes.keys.map (List.count job ∘ fun id =>
          (world.nodes.get? id).elim [] world.jobsAt) = world.nodes.keys.map fun id =>
            (world.grid submitted dropped).ledger.held id job +
              (world.grid submitted dropped).ledger.answers id job :=
        List.map_congr_left fun id _ => count_jobsAt submitted dropped id job
      rw [World.jobs, List.count_flatMap, sums, List.sum_map_add]
      omega

theorem submitted_of_mem_jobsAt {job : JobId} (safe : world.Safe owner submitted dropped)
    (whole : world.cluster.Whole) (found : world.nodes.get? id = some node)
    (member : job ∈ world.jobsAt node) : job ∈ submitted := by
  have several := List.count_pos_iff.2 (mem_jobs.2 ⟨id, node, found, member⟩)
  exact List.count_pos_iff.1 (Nat.lt_of_lt_of_le several (safe.count_jobs_le whole job))

/-- As long as nobody departed and no job is submitted twice, no job is in two places. -/
theorem single (safe : world.Safe owner submitted dropped) (whole : world.cluster.Whole)
    (distinct : submitted.Nodup) : world.Single := by
  have once : world.jobs.Nodup := List.nodup_iff_count_le_one.2 fun job => Nat.le_trans
    (safe.count_jobs_le whole job) (List.nodup_iff_count_le_one.1 distinct job)
  obtain ⟨each, apart⟩ := List.nodup_flatMap.1 once
  constructor
  · intro id node found
    have own := each id (Table.mem_keys_iff.2 ⟨node, found⟩)
    rwa [found] at own
  · intro id other node another found known differs job inside there
    have : Std.Symm (Function.onFun List.Disjoint fun id =>
        (world.nodes.get? id).elim [] world.jobsAt) := ⟨fun _ _ => List.disjoint_symm⟩
    have disjoint := apart.forall (Table.mem_keys_iff.2 ⟨node, found⟩)
      (Table.mem_keys_iff.2 ⟨another, known⟩) differs
    simp only [Function.onFun, found, known] at disjoint
    exact disjoint inside there

end Safe

end World

end JobGrid
