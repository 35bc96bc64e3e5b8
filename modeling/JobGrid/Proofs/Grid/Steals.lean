import Mathlib.Algebra.BigOperators.Group.List.Basic
import Mathlib.Algebra.Group.Action.Defs
import JobGrid.Proofs.Grid.Tally

/-!
# How often jobs are stolen in a grid

The limit on stealing holds across all nodes. As long as nobody departs, a job is stamped with a
thief no more often than the nodes allow, whichever nodes it passes through, and whatever is said
about it tells how often it was stamped so far: its handle in the queue of a node, every message
that brings or returns it, and its result. Turns that break off are no exception.
-/

namespace JobGrid

/-! ## Stamps in a history -/

/-- Whether a member departs. -/
def GridEvent.isDeparture : GridEvent → Bool
  | stop _ => true
  | fail _ => true
  | _ => false

/-- A node steals as it is configured to. -/
theorem Node.config_of_join {config : NodeConfig} {identity : NodeIdentity} {now : Moment}
    {before after : Cluster} {node : Node}
    (joined : Node.join config identity now before = .ok (node, after)) :
    node.resolver.config = config.stealing := by
  obtain ⟨_, -, rest⟩ := Result.bind_eq_ok.1 joined
  obtain ⟨resolver, started, rest⟩ := Result.bind_eq_ok.1 rest
  obtain ⟨balancer, -, built⟩ := Result.bind_eq_ok.1 rest
  obtain ⟨_, -, rfl⟩ := Result.map_eq_ok.1 started
  cases built
  rfl

namespace World

/-- The jobs that were stamped on some node between two moments, each as often as it was. -/
def stamped (before after : World) : List JobId :=
  before.nodes.keys.flatMap fun id =>
    match before.nodes.get? id, after.nodes.get? id with
    | some earlier, some later => earlier.store.stamped later.store
    | _, _ => []

/-- The jobs that were stamped in a history, each as often as it was. -/
def stampedIn : World → List GridEvent → List JobId
  | _, [] => []
  | world, event :: later =>
      match world.step? event with
      | none => []
      | some next => world.stamped next ++ next.stampedIn later

variable {world next : World} {id : NodeId} {node : Node}

theorem stamped_eq_nil
    (same : ∀ {id earlier later}, world.nodes.get? id = some earlier →
      next.nodes.get? id = some later → later.store = earlier.store) :
    world.stamped next = [] := by
  refine List.flatMap_eq_nil_iff.2 fun id _ => ?_
  split
  · rename_i earlier later found there
    rw [same found there, JobStore.stamped_self]
  · rfl

theorem get?_act (found : world.nodes.get? id = some node) (final : Turn) (other : NodeId) :
    (world.act id fun _ => final).nodes.get? other =
      if id = other then some final.node else world.nodes.get? other := by
  simp only [act, turn, found, Table.get?_insert]

/-- In its turn a node stamps its own jobs only. -/
theorem count_stamped_act (found : world.nodes.get? id = some node) (final : Turn) (job : JobId) :
    (world.stamped (world.act id fun _ => final)).count job =
      (node.store.stamped final.node.store).count job := by
  have after := get?_act found final
  have member : world.nodes.keys.count id = 1 :=
    List.count_eq_one_of_mem world.nodes.keys_nodup (Table.mem_keys_iff.2 ⟨node, found⟩)
  rw [stamped, List.count_flatMap, List.sum_map_eq_nsmul_single id, member]
  · simp [found, after]
  · intro other differs _
    simp only [Function.comp_apply, after, if_neg (Ne.symm differs)]
    cases world.nodes.get? other with
    | none => rfl
    | some another =>
        simp only
        rw [JobStore.stamped_self, List.count_nil]

/-! ## Tallies in a history -/

namespace Tallied

variable {limit : UInt32} {submitted : List JobId} {dropped : JobId → Prop}
  {tally later : Tally} {owner : Owners}

/-- What the other nodes have is not changed by the turn of a node. -/
theorem of_turn {final : Turn} (tallied : world.Tallied limit submitted tally)
    (safe : world.Safe owner submitted dropped) (distinct : submitted.Nodup)
    (found : world.nodes.get? id = some node) (counts : Counts world node limit tally later final) :
    (world.act id fun _ => final).Tallied limit submitted later := by
  obtain ⟨⟨changed, becomes, here⟩, ⟨base, carries⟩, -, within⟩ := counts
  have cargo : Cargo .. := carries
  have single := safe.single tallied.whole distinct
  have cases_get? : ∀ {other another},
      (world.act id fun _ => final).nodes.get? other = some another →
        another = final.node ∨ id ≠ other ∧ world.nodes.get? other = some another := by
    intro other another known
    rw [get?_act found] at known
    split at known
    · exact .inl (Option.some.inj known).symm
    · rename_i differs
      exact .inr ⟨differs, known⟩
  have mail : ∀ {another : Node}, (world.act id fun _ => final).mail another =
      final.cluster.messages another.inbox := by
    intro another
    simp only [World.mail, act, turn, found]
  refine ⟨?_, ?_, ?_, ?_, ?_, ?_, ?_, within, ?_⟩
  · intro other another job ref known lists
    rcases cases_get? known with rfl | ⟨differs, known⟩
    · exact cargo.queued lists
    · exact becomes.said (fun member => single.apart found known differs job (here job member)
        (mem_jobsAt_of_queued lists.mem_jobs)) (tallied.queued known lists)
  · intro other another known message member
    rw [mail] at member
    rcases cases_get? known with rfl | ⟨-, known⟩
    · exact cargo.mail cargo.housed message member
    · exact cargo.mail ⟨other, another, known, rfl⟩ message member
  · intro other another session task known there result member
    rcases cases_get? known with rfl | ⟨-, known⟩
    · exact cargo.results there result member
    · exact becomes.told (tallied.results known there result member)
  · intro notice member result inside
    simp only [act, turn, found] at member
    rcases List.mem_append.1 member with earlier | new
    · exact becomes.told (tallied.notices notice earlier result inside)
    · obtain ⟨told, among, rfl⟩ := List.mem_map.1 new
      exact cargo.notices told among result inside
  · intro other another session job placed known waits
    rcases cases_get? known with rfl | ⟨-, known⟩
    · exact cargo.noted waits
    · exact becomes.noted (tallied.noted known waits)
  · intro other another known
    rcases cases_get? known with rfl | ⟨-, known⟩
    · exact cargo.stealing
    · exact tallied.stealing known
  · simp only [act, turn, found]
    exact cargo.whole
  · intro job unsubmitted
    have outside : job ∉ changed := fun member =>
      unsubmitted (safe.submitted_of_mem_jobsAt tallied.whole found (here job member))
    obtain ⟨count, ended⟩ := becomes.same job outside
    rw [count, ended]
    exact tallied.unknown job unsubmitted

theorem submit (tallied : world.Tallied limit submitted tally) (more : List JobId) :
    world.Tallied limit (submitted ++ more) tally :=
  { tallied with
    unknown := fun job outside => tallied.unknown job fun member =>
      outside (List.mem_append_left more member) }

theorem attempt {act : NodeTurn} (tallied : world.Tallied limit submitted tally)
    (safe : world.Safe owner submitted dropped) (distinct : (submitted ++ act.submitted).Nodup)
    (done : world.attempt? id act = some next) :
    ∃ later, next.Tallied limit (submitted ++ act.submitted) later ∧
      tally.Adds (world.stamped next) later := by
  obtain ⟨node, final, found, took, -, rfl⟩ := attempt?_eq_some.1 done
  obtain ⟨later, counts⟩ := tallied.take safe distinct found took
  exact ⟨later, (tallied.of_turn safe (List.nodup_append.1 distinct).1 found counts).submit _,
    counts.adds.congr (count_stamped_act found final)⟩

/-- A node that joins brings no job. -/
theorem join {config : NodeConfig} {identity : NodeIdentity}
    (tallied : world.Tallied limit submitted tally) (safe : world.Safe owner submitted dropped)
    (absent : world.nodes.contains identity.id = false)
    (stealing : config.stealing.maxStealing = limit)
    (joined : world.join config identity = .ok next) :
    next.Tallied limit submitted tally ∧ world.stamped next = [] := by
  obtain ⟨⟨node, cluster⟩, built, rfl⟩ := Result.map_eq_ok.1 joined
  obtain ⟨rfl, fresh⟩ := Node.new_of_join built
  have cases_get? : ∀ {other another},
      (world.nodes.insert identity.id node).get? other = some another →
        other = identity.id ∧ another = node ∨ world.nodes.get? other = some another := by
    intro other another known
    rw [Table.get?_insert] at known
    split at known
    · rename_i same
      exact .inl ⟨same.symm, (Option.some.inj known).symm⟩
    · exact .inr known
  refine ⟨⟨?_, ?_, ?_, tallied.notices, ?_, ?_, ?_, tallied.within, tallied.unknown⟩, ?_⟩
  · intro other another job ref known lists
    rcases cases_get? known with ⟨rfl, rfl⟩ | known
    · have member := lists.mem_jobs
      rw [fresh.queue] at member
      cases member
    · exact tallied.queued known lists
  · intro other another known message (member : message ∈ Cluster.messages _ another.inbox)
    rw [Cluster.messages_join] at member
    rcases cases_get? known with ⟨rfl, rfl⟩ | known
    · rw [if_pos fresh.inbox] at member
      cases member
    · rw [if_neg (Nat.ne_of_lt (safe.housed known))] at member
      exact tallied.mail known message member
  · intro other another session task known there
    rcases cases_get? known with ⟨rfl, rfl⟩ | known
    · rw [fresh.tasks] at there
      cases there
    · exact tallied.results known there
  · intro other another session job placed known waits
    rcases cases_get? known with ⟨rfl, rfl⟩ | known
    · obtain ⟨task, there, -⟩ := waits
      rw [fresh.tasks] at there
      cases there
    · exact tallied.noted known waits
  · intro other another known
    rcases cases_get? known with ⟨rfl, rfl⟩ | known
    · rw [Node.config_of_join built]
      exact stealing
    · exact tallied.stealing known
  · exact tallied.whole.publish rfl _
  · refine stamped_eq_nil ?_
    intro other earlier later known known'
    rcases cases_get? known' with ⟨rfl, rfl⟩ | known'
    · rw [Table.contains, known] at absent
      cases absent
    · rw [known, Option.some.injEq] at known'
      rw [known']

/-- Whatever happens but departures, all copies of jobs say how often their jobs were stolen. -/
theorem step {event : GridEvent} (tallied : world.Tallied limit submitted tally)
    (safe : world.Safe owner submitted dropped) (distinct : (submitted ++ event.submitted).Nodup)
    (stays : event.isDeparture = false)
    (stealing : ∀ config identity, event = .join config identity →
      config.stealing.maxStealing = limit)
    (happened : world.step? event = some next) :
    ∃ later, next.Tallied limit (submitted ++ event.submitted) later ∧
      tally.Adds (world.stamped next) later := by
  cases Happens.of_step? happened with
  | @join config identity _ fresh joined =>
      obtain ⟨kept, unstamped⟩ := tallied.join safe fresh (stealing config identity rfl) joined
      exact ⟨tally, kept.submit _, unstamped ▸ Tally.adds_self tally⟩
  | stop => cases stays
  | fail => cases stays
  | turn done => exact tallied.attempt safe distinct done
  | @wait millis _ =>
      have kept : ({ world with now := world.now + millis } : World).Tallied limit submitted
        tally := { tallied with }
      have unstamped : world.stamped { world with now := world.now + millis } = [] := by
        refine stamped_eq_nil ?_
        intro other earlier later known known'
        rw [known, Option.some.injEq] at known'
        rw [known']
      exact ⟨tally, kept.submit _, unstamped ▸ Tally.adds_self tally⟩

/-- In a history of any length without departures, jobs are stolen as often as they are stamped. -/
theorem steps {history : List GridEvent} (tallied : world.Tallied limit submitted tally)
    (safe : world.Safe owner submitted dropped)
    (distinct : (submitted ++ submittedJobs history).Nodup)
    (owned : ∀ event ∈ history, ∀ job ∈ event.submitted, owner job = event.owner? job)
    (stays : ∀ event ∈ history, event.isDeparture = false)
    (stealing : ∀ config identity, .join config identity ∈ history →
      config.stealing.maxStealing = limit)
    (happened : world.steps? history = some next) :
    ∃ later, next.Tallied limit (submitted ++ submittedJobs history) later ∧
      (∀ job, later.count job = tally.count job + (world.stampedIn history).count job) ∧
        ∀ {job attempts}, later.noted job attempts → tally.noted job attempts ∨
          ∃ earlier, earlier <+: history ∧
            attempts.toNat = tally.count job + (world.stampedIn earlier).count job := by
  induction history generalizing world submitted dropped tally with
  | nil =>
      cases happened
      exact ⟨tally, tallied.submit _, fun _ => rfl, .inl⟩
  | cons event rest ih =>
      rw [List.forall_mem_cons] at owned stays
      obtain ⟨reached, first, others⟩ := Option.bind_eq_some_iff.1 happened
      have parts : submitted ++ submittedJobs (event :: rest) =
          submitted ++ event.submitted ++ submittedJobs rest :=
        (List.append_assoc submitted event.submitted (submittedJobs rest)).symm
      rw [parts] at distinct ⊢
      obtain ⟨middle, tallied', adds⟩ := tallied.step safe (List.nodup_append.1 distinct).1
        stays.1 (fun config identity same => stealing config identity (same ▸ List.mem_cons_self))
        first
      have counts : ∀ (job : JobId) (others : List GridEvent),
          tally.count job + (world.stampedIn (event :: others)).count job =
            middle.count job + (reached.stampedIn others).count job := by
        intro job others
        simp only [adds.count, stampedIn, first, List.count_append, Nat.add_assoc]
      obtain ⟨later, tallied'', counted, noted⟩ := ih tallied' (safe.step first owned.1) distinct
        owned.2 stays.2 (fun config identity member =>
          stealing config identity (List.mem_cons_of_mem event member)) others
      refine ⟨later, tallied'', fun job => by rw [counts, counted], fun {job attempts} said => ?_⟩
      rcases noted said with before | ⟨earlier, starts, agrees⟩
      · refine (adds.noted before).imp_right fun agrees => ⟨[event], ?_, ?_⟩
        · exact (List.cons_prefix_cons).2 ⟨rfl, List.nil_prefix⟩
        · rw [counts, agrees]
          rfl
      · exact .inr ⟨event :: earlier, (List.cons_prefix_cons).2 ⟨rfl, starts⟩, by
          rw [counts, agrees]⟩

end Tallied

/-! ## The limit -/

/-- In the world that a history leads to, no job was stamped too often, and whatever is said of a
job tells how often it was stamped: every message in an inbox, every handle in a queue, every result
that was entered. What an origin noted of a pending job was right at some time. -/
structure StealsCounted (start : World) (history : List GridEvent) (limit : UInt32)
    (final : World) : Prop where
  limited : ∀ job, (start.stampedIn history).count job ≤ limit.toNat
  messages : ∀ {id node}, final.nodes.get? id = some node → ∀ message ∈ final.mail node,
    ∀ {job attempts}, message.stealing? = some (job, attempts) →
      attempts.toNat = (start.stampedIn history).count job
  handles : ∀ {id node job ref}, final.nodes.get? id = some node →
    node.queue.get? job = some ref → ∃ handle, node.store.get? ref = some handle ∧
      handle.id = job ∧ handle.stealingAttempts.toNat = (start.stampedIn history).count job
  results : ∀ {id node session task}, final.nodes.get? id = some node →
    node.tasks.get? session = some task → ∀ result ∈ task.results,
      result.stealingAttempts.toNat = (start.stampedIn history).count result.job
  notices : ∀ notice ∈ final.notices, ∀ result ∈ notice.2.results,
    result.stealingAttempts.toNat = (start.stampedIn history).count result.job
  noted : ∀ {id node session task job placed}, final.nodes.get? id = some node →
    node.tasks.get? session = some task → task.pending.get? job = some placed →
      ∃ earlier, earlier <+: history ∧ placed.transfer.stealingAttempts.toNat =
        (start.stampedIn earlier).count placed.transfer.spec.id

variable {start final : World} {history : List GridEvent} {limit : UInt32}

/-- Before anything happened no job was stolen. -/
theorem Quiet.tallied (quiet : start.Quiet) (silent : start.notices = [])
    (configured : ∀ {id node}, start.nodes.get? id = some node →
      node.resolver.config.maxStealing = limit) :
    start.Tallied limit []
      ⟨fun _ => 0, fun _ => False, fun _ attempts => attempts.toNat = 0, fun agrees => agrees⟩ where
  queued found lists := by
    have member := lists.mem_jobs
    rw [(quiet.idle found).1] at member
    cases member
  mail found message member := by
    rw [mail, quiet.empty found] at member
    cases member
  results found there := by
    rw [(quiet.idle found).2.2] at there
    cases there
  notices notice member := by
    rw [silent] at member
    cases member
  noted found waits := by
    obtain ⟨task, there, -⟩ := waits
    rw [(quiet.idle found).2.2] at there
    cases there
  stealing := configured
  whole := quiet.whole
  within _ := Nat.zero_le _
  unknown _ _ := ⟨rfl, not_false⟩

/-- If all nodes let a job be stolen equally often at most and nobody departs, no job is stolen more
often in the whole grid, and whatever is said of a job tells how often it was stolen. As this is so
after every history, a message tells it from the turn on in which it was sent. -/
theorem steals_counted (quiet : start.Quiet) (silent : start.notices = [])
    (configured : ∀ {id node}, start.nodes.get? id = some node →
      node.resolver.config.maxStealing = limit)
    (joining : ∀ config identity, .join config identity ∈ history →
      config.stealing.maxStealing = limit)
    (distinct : (submittedJobs history).Nodup)
    (stays : ∀ event ∈ history, event.isDeparture = false)
    (happened : start.steps? history = some final) :
    start.StealsCounted history limit final := by
  have safe : start.Safe (submitter history) [] fun _ => False := quiet.safe _
  obtain ⟨tally, tallied, counted, noted⟩ := (quiet.tallied silent configured).steps safe distinct
    (fun event member job submits => submitter_eq distinct member submits) stays joining happened
  have count : ∀ job, tally.count job = (start.stampedIn history).count job := fun job =>
    (counted job).trans (Nat.zero_add _)
  refine ⟨?_, ?_, ?_, ?_, ?_, ?_⟩
  · exact fun job => count job ▸ tallied.within job
  · intro id node found message member job attempts about
    exact (tallied.mail found message member job attempts about).1.trans (count job)
  · intro id node job ref found queued
    obtain ⟨handle, there, same, fits⟩ := tallied.queued found (JobQueue.lists_of_get? queued)
    exact ⟨handle, there, same, fits.1.trans (count job)⟩
  · intro id node session task found there result member
    exact (tallied.results found there result member).1.trans (count result.job)
  · exact fun notice member result inside =>
      (tallied.notices notice member result inside).1.trans (count result.job)
  · intro id node session task job placed found there pending
    rcases noted (tallied.noted found ⟨task, there, pending⟩) with none | ⟨earlier, starts, agrees⟩
    · exact ⟨[], List.nil_prefix, none⟩
    · exact ⟨earlier, starts, agrees.trans (Nat.zero_add _)⟩

/-- A job that is stolen once, as often as it may be, is brought to the thief, and its result says
so. -/
theorem steals_counted_of_stolen :
    let origin : NodeId := .ofNat 1
    let idler : NodeId := .ofNat 2
    let node (id : NodeId) (inbox : MailboxRef) (threshold : UInt32) : Node := {
      id
      config := {}
      chance := {}
      queue := { capacity := 9 }
      resolver := {
        config := { activeThreshold := threshold, maxStealing := 1 }
        queue := [origin, idler].erase id }
      balancer := .affinity { config := {}, ring := .empty "" Digest.md5 }
      tracker := { started := 0, cpus := 1 }
      inbox
      position := 0 }
    let member (id : NodeId) : Member :=
      { id, attributes := .ofList [(AttributeName.waitThreshold, .int 0)] }
    let cluster : Cluster := {
      capacity := 9
      members := [member origin, member idler]
      inboxes := .ofList [(origin, 0), (idler, 1)]
      mailboxes := #[{}, {}] }
    let nodes := .ofList [(origin, node origin 0 0), (idler, node idler 1 1)]
    let start : World := { now := 0, cluster, nodes }
    let job : JobSpec := { id := .ofNat 7 }
    let history : List GridEvent := [
      .turn origin (.submit (.ofNat 5) [job] .pinned),
      .turn origin .publish,
      .turn idler .look,
      .turn origin .receive,
      .turn origin .look,
      .turn idler .receive,
      .turn idler .look,
      .turn idler (.complete ⟨0, 0, 0, 0⟩),
      .turn origin .receive]
    start.Quiet ∧ ∃ final, start.steps? history = some final ∧
      (start.stampedIn history).count job.id = 1 ∧
      (final.notices.flatMap fun notice => notice.2.results.map JobResult.stealingAttempts) = [1] ∧
      start.StealsCounted history 1 final := by
  intro origin idler node member cluster nodes start job history
  have only : ∀ {id other}, start.nodes.get? id = some other →
      id = origin ∧ other = node origin 0 0 ∨ id = idler ∧ other = node idler 1 1 := by
    intro id other found
    have inside : (id, other) ∈ [(origin, node origin 0 0), (idler, node idler 1 1)] :=
      Table.get?_eq_some_iff.1 found
    simpa using inside
  have quiet : start.Quiet := by
    refine quiet_of_idle (by decide +kernel) rfl rfl (by decide) ?_ rfl
    refine List.forall_mem_cons.2 ⟨⟨rfl, rfl, rfl, rfl, by decide, rfl, rfl⟩, ?_⟩
    exact List.forall_mem_singleton.2 ⟨rfl, rfl, rfl, rfl, by decide, rfl, rfl⟩
  have configured : ∀ {id other}, start.nodes.get? id = some other →
      other.resolver.config.maxStealing = 1 := by
    intro id other found
    rcases only found with ⟨rfl, rfl⟩ | ⟨rfl, rfl⟩
    · rfl
    · rfl
  have ends : (start.steps? history).map (fun final => final.notices.flatMap fun notice =>
      notice.2.results.map JobResult.stealingAttempts) = some [1] := by
    decide +kernel
  have stamped : (start.stampedIn history).count job.id = 1 := by decide +kernel
  obtain ⟨final, happened, results⟩ := Option.map_eq_some_iff.1 ends
  have joining : ∀ config identity, .join config identity ∈ history →
      config.stealing.maxStealing = 1 := by
    simp [history]
  have stays : ∀ event ∈ history, event.isDeparture = false := by
    simp [history, GridEvent.isDeparture]
  exact ⟨quiet, final, happened, stamped, results,
    steals_counted quiet rfl configured joining (by decide) stays happened⟩

end World

end JobGrid
