import JobGrid.Proofs.Grid.Turn
import JobGrid.Proofs.Node.Pick
import JobGrid.Proofs.Time.Timestamp

/-!
# Placing jobs without losing them

A job that a node has the answer for is not lost when the node places it: it comes to another
node, or the task fails, or a rule breaks. The same holds of rejected and finished jobs, of all
jobs of a departed node, and of the jobs of a new task.
-/

namespace JobGrid

namespace Turn

variable {owner : Owners} {rest : Bystanders} {hand kept : Hand} {turn next : Turn}

/-- No job is lost at the end of a part of a turn. If a rule broke, the node may have had anything
in its hand then. -/
def SafeUnless (owner : Owners) (rest : Bystanders) (hand : Hand) (turn : Turn) : Prop :=
  (turn.fault?.isSome = true ∧ ∃ left, turn.Safe owner rest left) ∨ turn.Safe owner rest hand

/-- A node that breaks a rule stops with what it has in its hand. -/
theorem Safe.stopWith (safe : turn.Safe owner rest hand) (fault : Fault) :
    (turn.stopWith fault).SafeUnless owner rest kept :=
  .inl ⟨rfl, hand, safe⟩

/-- If no rule broke, the node has in its hand what it should. -/
theorem SafeUnless.safe (safe : turn.SafeUnless owner rest hand) (unbroken : turn.fault? = none) :
    turn.Safe owner rest hand := by
  refine safe.resolve_left fun broke => ?_
  rw [unbroken] at broke
  cases broke.1

namespace Safe

/-- What has to be shown of a job that was brought to a node. -/
theorem placed {transfer : JobTransfer} {answers : List JobId} {target : NodeId}
    (safe : turn.Safe owner rest { hand with answers := transfer.spec.id :: answers })
    (genuine : transfer.Genuine owner) (id : next.node.id = turn.node.id)
    (inbox : next.node.inbox = turn.node.inbox)
    (position : next.node.position = turn.node.position)
    (cluster : turn.cluster.SameMembers next.cluster)
    (unreported : next.unreported = turn.unreported)
    (tasks : next.node.tasks =
      turn.node.tasks.modify transfer.session fun task => task.assign transfer target)
    (stocked : Stocked owner hand.leaving hand.starting next.node.queue next.node.store
      next.node.executions)
    (honest : ∀ name, ∀ message ∈ next.mail rest name, message.Genuine owner name)
    (member : target ∈ rest.names)
    (reached : turn.cluster.inboxes.contains turn.node.id = true →
      turn.cluster.inboxes.contains target = true)
    (held : ∀ name job, (next.grid rest { hand with answers }).ledger.held name job =
      (turn.grid rest { hand with answers := transfer.spec.id :: answers }).ledger.held name job +
        if name = target ∧ job = transfer.spec.id then 1 else 0)
    (answered : ∀ name, (next.mail rest name).filterMap Message.answered? =
      (turn.mail rest name).filterMap Message.answered?) :
    next.Safe owner rest { hand with answers } := by
  have followed : Followed owner turn.node.id turn.node.tasks := safe.sound_self.followed
  have owned : (owner transfer.spec.id).map Prod.fst = some turn.node.id :=
    safe.sound_self.claimed _ List.mem_cons_self
  have own : transfer.origin = turn.node.id := by
    rw [genuine, Option.map_some, Option.some.injEq] at owned
    exact owned
  have sound : next.node.work.Sound owner { hand with answers } := by
    refine ⟨stocked, ?_, ?_⟩
    · show Followed owner next.node.id next.node.tasks
      rw [tasks, id]
      exact followed.assign genuine own
    · intro job member
      have claimed := safe.sound_self.claimed job (List.mem_cons_of_mem _ member)
      rw [claimed]
      exact congrArg some id.symm
  refine safe.step id inbox position cluster honest sound fun same =>
    safe.balanced.place same member owned reached held ?_ ?_
  · intro name job
    rw [answers_grid, answers_grid, answered, undelivered, undelivered, unreported, id,
      List.count_cons]
    grind
  · intro origin job node pending
    rcases pends_of_pends turn hand id pending with
      ⟨rfl, session, placed, waits, rfl⟩ | ⟨differs, waits⟩
    · rw [show next.node.work.tasks = next.node.tasks from rfl, tasks] at waits
      rcases awaiting_assign waits with ⟨rfl, rfl, rfl⟩ | ⟨other, earlier⟩
      · exact .inl ⟨rfl, rfl, rfl⟩
      · refine .inr ⟨?_, pends_self.2 ⟨session, placed, earlier, rfl⟩⟩
        rintro rfl
        exact other ⟨followed.session_eq genuine earlier, rfl⟩
    · refine .inr ⟨?_, waits⟩
      rintro rfl
      have home := safe.balanced.home waits
      rw [owned, Option.some.injEq] at home
      exact differs home.symm

/-- A job that was brought to a node and noted there is not lost. -/
theorem deliver {transfer : JobTransfer} {answers : List JobId} {target : NodeId}
    (safe : turn.Safe owner rest { hand with answers := transfer.spec.id :: answers })
    (genuine : transfer.Genuine owner) (delivered : turn.deliver target transfer = .ok next) :
    (next.record transfer target).Safe owner rest { hand with answers } := by
  cases Delivered.of_deliver delivered with
  | here own took =>
      subst own
      obtain ⟨accepts, rfl⟩ := hold_eq_ok.1 took
      have added := Stocked.jobs_add turn.node.queue ⟨transfer.spec.id, turn.node.store.next⟩
        accepts
      refine safe.placed genuine rfl rfl rfl (.refl _) rfl rfl ?_ safe.honest_mail safe.member
        id ?_ fun _ => rfl
      · exact safe.sound_self.stocked.add (transfer.toHandle turn.now) accepts genuine
      · intro name job
        have more := (List.perm_iff_count.1 added) job
        rw [List.count_cons] at more
        rw [held_grid, held_grid]
        simp only [record, requestCollision, update, mail]
        grind
  | there remote sent =>
      have readable : (Message.jobSubmit transfer).Readable := trivial
      have posts := posts_of_send safe.wired readable sent
      have honest : ∀ name, ∀ message ∈ next.mail rest name, message.Genuine owner name :=
        safe.honest_of_posts posts genuine
      have mail : ∀ name, (next.record transfer target).mail rest name = next.mail rest name :=
        mail_of_cluster rfl rfl rfl
      have listed : target ∈ rest.names := safe.wired.listed_of_live posts.reached
      refine safe.placed genuine (by rw [record, update, posts.node])
        (by rw [record, update, posts.node]) (by rw [record, update, posts.node]) posts.cluster
        posts.unreported (by rw [record, update, posts.node]) ?_ ?_ listed (fun _ => posts.reached)
        ?_ ?_
      · rw [record, update, posts.node]
        exact safe.sound_self.stocked
      · exact honest
      · intro name job
        rw [held_grid, held_grid, mail, posts.mail, List.filterMap_append, List.count_append]
        simp only [record, update, posts.node]
        by_cases one : name = target
        · simp only [one, remote, if_true, if_false, true_and, List.filterMap_cons,
            List.filterMap_nil, Message.brought?, List.count_singleton, beq_iff_eq,
            eq_comm (a := transfer.spec.id)]
          omega
        · simp only [one, if_false, false_and, List.filterMap_nil, List.count_nil]
          omega
      · intro name
        rw [mail, posts.mail, List.filterMap_append]
        split
        · exact List.append_nil _
        · exact List.append_nil _

/-- The node takes jobs off its books. -/
theorem shrink (safe : turn.Safe owner rest hand) (node : Node)
    (work : node.work = { turn.node.work with tasks := node.tasks })
    (less : ∀ {session job placed}, Awaiting node.tasks session job placed →
      Awaiting turn.node.tasks session job placed) :
    ({ turn with node } : Turn).Safe owner rest hand := by
  have id : node.id = turn.node.id := congrArg NodeWork.id work
  have queue : node.queue = turn.node.queue := congrArg NodeWork.queue work
  have sound : node.work.Sound owner hand := by
    rw [work]
    exact { safe.sound_self with followed := safe.sound_self.followed.shrink less }
  refine safe.revise id (congrArg NodeWork.inbox work) (congrArg NodeWork.position work) sound
    (fun job => by rw [queue]) rfl ?_
  rintro job target ⟨session, placed, waits, there⟩
  exact ⟨session, placed, less waits, there⟩

/-- Ending a task takes its jobs off the books. -/
theorem finish (safe : turn.Safe owner rest hand) (session : SessionId) (error : Option String) :
    (turn.finish session error).Safe owner rest hand := by
  cases found : turn.node.tasks.get? session with
  | none =>
      simp only [Turn.finish, found]
      exact safe
  | some task =>
      simp only [Turn.finish, found]
      have ended := safe.shrink { turn.node with tasks := turn.node.tasks.erase session } rfl
        fun waits => (awaiting_erase waits).2
      exact ended

/-- A job of a task that ended is not pending. -/
theorem not_pends_finish {job : JobId} {session : SessionId}
    (safe : turn.Safe owner rest hand) (owned : owner job = some (turn.node.id, session))
    (error : Option String) (target : NodeId) :
    ¬ (turn.finish session error).node.work.Pends job target := by
  rintro ⟨other, placed, waits, -⟩
  cases found : turn.node.tasks.get? session with
  | none =>
      simp only [Turn.finish, found] at waits
      refine safe.sound_self.followed.not_awaiting owned ?_ waits
      rintro placed ⟨task, there, -⟩
      rw [show turn.node.work.tasks = turn.node.tasks from rfl, found] at there
      cases there
  | some task =>
      simp only [Turn.finish, found] at waits
      have ended := awaiting_erase waits
      obtain ⟨-, -, -, known⟩ := safe.sound_self.followed other job placed ended.2
      rw [owned, Option.some.injEq, Prod.mk.injEq] at known
      exact ended.1 known.2.symm

/-- A job for which no other node is found ends its task. -/
theorem fail {transfer : JobTransfer} {answers : List JobId}
    (safe : turn.Safe owner rest { hand with answers := transfer.spec.id :: answers })
    (genuine : transfer.Genuine owner) (cause : String) :
    (turn.finish transfer.session (some cause)).Safe owner rest { hand with answers } := by
  have claimed := safe.sound_self.claimed transfer.spec.id List.mem_cons_self
  rw [genuine, Option.map_some, Option.some.injEq] at claimed
  have owned : owner transfer.spec.id = some (turn.node.id, transfer.session) := by
    rw [genuine]
    exact congrArg (fun node => some (node, transfer.session)) claimed
  exact (safe.finish transfer.session (some cause)).dismiss (safe.not_pends_finish owned _)

/-- What was picked does not matter. -/
theorem picks (safe : turn.Safe owner rest hand) (picks : Picks turn next) :
    next.Safe owner rest hand := by
  obtain ⟨_, _, rfl⟩ := picks
  exact safe

theorem placeWithin (hand : Hand) (transfer : JobTransfer) {answers : List JobId}
    (safe : turn.Safe owner rest { hand with answers := transfer.spec.id :: answers })
    (genuine : transfer.Genuine owner) (maxAttempts : UInt32) (target : NodeId) :
    (turn.placeWithin maxAttempts transfer target).SafeUnless owner rest
      { hand with answers } := by
  fun_induction Turn.placeWithin maxAttempts turn transfer target with
  | case1 turn transfer target delivered arrived => exact .inr (safe.deliver genuine arrived)
  | case2 turn transfer target refused _ next routed found ih =>
      exact ih (safe.picks (picks_of_failover found)) genuine
  | case3 turn transfer target refused _ cause found =>
      exact .inr (safe.fail genuine cause.message)
  | case4 turn transfer target refused _ fault found => exact safe.stopWith fault

/-- A job that was rejected is placed again, unless it is not pending any more. -/
theorem onRejected (hand : Hand) (rejected : JobRejected) {answers : List JobId}
    (safe : turn.Safe owner rest { hand with answers := rejected.job.spec.id :: answers })
    (genuine : rejected.job.Genuine owner) :
    (turn.onRejected rejected).SafeUnless owner rest { hand with answers } := by
  simp only [Turn.onRejected]
  split
  · split
    · rename_i found
      exact (safe.picks (picks_of_failover found)).placeWithin hand (again rejected.job) genuine _ _
    · exact .inr (safe.fail genuine _)
    · exact safe.stopWith _
  · rename_i untracked
    refine .inr (safe.dismiss ?_)
    rintro target ⟨session, placed, ⟨task, found, pending⟩, -⟩
    have same := safe.sound_self.followed.session_eq genuine ⟨task, found, pending⟩
    subst same
    apply untracked
    simp only [tracks, show turn.node.tasks.get? rejected.job.session = some task from found,
      TaskState.isPending, Table.contains, pending, Option.isSome_some]

/-- A result takes its job off the books, unless it is not pending any more. -/
theorem onResult (hand : Hand) (result : JobResult) {answers : List JobId}
    (safe : turn.Safe owner rest { hand with answers := result.job :: answers })
    (genuine : owner result.job = some (turn.node.id, result.session)) :
    (turn.onResult result).Safe owner rest { hand with answers } := by
  have followed : Followed owner turn.node.id turn.node.tasks := safe.sound_self.followed
  cases found : turn.node.tasks.get? result.session with
  | none =>
      simp only [Turn.onResult, found]
      refine safe.dismiss ?_
      rintro target ⟨session, placed, waits, -⟩
      refine followed.not_awaiting genuine ?_ waits
      rintro placed ⟨task, there, -⟩
      rw [found] at there
      cases there
  | some task =>
      cases pending : task.isPending result.job with
      | false =>
          simp only [Turn.onResult, found, pending, Bool.false_eq_true, if_false]
          refine safe.dismiss ?_
          rintro target ⟨session, placed, waits, -⟩
          refine followed.not_awaiting genuine ?_ waits
          rintro placed ⟨other, there, waiting⟩
          rw [found, Option.some.injEq] at there
          subst there
          simp only [TaskState.isPending, Table.contains, waiting, Option.isSome_some] at pending
          cases pending
      | true =>
          simp only [Turn.onResult, found, pending, if_true]
          have entered : (turn.update fun node => { node with
              tasks := node.tasks.insert result.session (task.enter result) }).Safe owner rest
              { hand with answers } := by
            have noted := safe.shrink { turn.node with
              tasks := turn.node.tasks.insert result.session (task.enter result) } rfl
                fun waits => (awaiting_enter found waits).2
            refine noted.dismiss ?_
            rintro target ⟨session, placed, waits, -⟩
            have left := awaiting_enter found waits
            obtain ⟨-, -, -, known⟩ := followed session result.job placed left.2
            rw [genuine, Option.some.injEq, Prod.mk.injEq] at known
            exact left.1 known.2.symm rfl
          split
          · exact entered.finish result.session none
          · exact entered

/-- A job that was refused or given away is answered for. -/
theorem reportRejected (hand : Hand) (handle : JobHandle) {jobs : List JobId}
    (safe : turn.Safe owner rest { hand with jobs := handle.id :: jobs })
    (genuine : owner handle.id = some (handle.origin, handle.session)) (thief : Option NodeId) :
    (turn.reportRejected handle thief).SafeUnless owner rest { hand with jobs } := by
  simp only [Turn.reportRejected]
  split
  · rename_i own
    have answers := safe.answer (own ▸ genuine)
    exact answers.onRejected { hand with jobs } ⟨.ofHandle handle, turn.node.id, thief⟩ genuine
  · have message : (Message.jobRejected ⟨.ofHandle handle, turn.node.id, thief⟩).Genuine owner
        handle.origin := ⟨genuine, rfl⟩
    exact .inr (safe.report rfl message trivial)

/-- A job that is done is answered for. -/
theorem reportResult (hand : Hand) (report : ExecutionReport) {jobs : List JobId}
    (safe : turn.Safe owner rest { hand with jobs := report.job :: jobs })
    (genuine : owner report.job = some (report.origin, report.session))
    (clock : Moment.HasInstant turn.now) :
    (turn.reportResult report).Safe owner rest { hand with jobs } := by
  simp only [Turn.reportResult]
  split
  · rename_i own
    have answers := safe.answer (own ▸ genuine)
    exact answers.onResult { hand with jobs } _ (own ▸ genuine)
  · exact safe.report rfl genuine (Moment.ofText?_text clock)

end Safe

/-- Doing something for each of some items loses no job if it loses none for a single one. -/
theorem safeUnless_forEach {α : Type} {act : Turn → α → Turn} (hands : List α → Hand)
    (valid : α → Prop)
    (step : ∀ {turn : Turn} {item : α} {later : List α}, valid item →
      turn.Safe owner rest (hands (item :: later)) →
      (act turn item).SafeUnless owner rest (hands later))
    {items : List α} (all : ∀ item ∈ items, valid item)
    (safe : turn.SafeUnless owner rest (hands items)) :
    (turn.forEach items act).SafeUnless owner rest (hands []) := by
  induction items generalizing turn with
  | nil => exact safe
  | cons item later ih =>
      rw [List.forall_mem_cons] at all
      rw [forEach, List.foldl_cons]
      apply ih all.2
      split
      · rename_i broke
        exact .inl ⟨broke, safe.elim And.right fun safe => ⟨_, safe⟩⟩
      · rename_i unbroken
        exact step all.1 (safe.resolve_left fun broke => unbroken broke.1)

namespace Safe

/-- The jobs of a departed node are placed again. -/
theorem reroute {departed : NodeId} (lost : List JobTransfer)
    (safe : turn.Safe owner rest { answers := lost.map fun job => job.spec.id })
    (arranged : turn.node.chance.lost.arrange (turn.jobsOn departed) = lost)
    (genuine : ∀ job ∈ lost, job.Genuine owner) :
    (turn.reroute departed).SafeUnless owner rest {} := by
  rw [Turn.reroute, arranged]
  refine safeUnless_forEach (fun lost => { answers := lost.map fun job => job.spec.id })
    (fun job => job.Genuine owner) ?_ genuine (.inr safe)
  intro turn job later genuine safe
  exact safe.onRejected {} ⟨job, departed, none⟩ genuine

/-- The jobs of a new task are placed. -/
theorem placeAll {assignments : List Assignment}
    (safe : turn.Safe owner rest
      { answers := assignments.map fun assignment => assignment.transfer.spec.id })
    (genuine : ∀ assignment ∈ assignments, assignment.transfer.Genuine owner) :
    (turn.placeAll assignments).SafeUnless owner rest {} := by
  rw [Turn.placeAll]
  refine safeUnless_forEach
    (fun assignments =>
      { answers := assignments.map fun assignment => assignment.transfer.spec.id })
    (fun assignment => assignment.transfer.Genuine owner) ?_ genuine (.inr safe)
  intro turn assignment later genuine safe
  exact safe.placeWithin {} assignment.transfer genuine _ _

/-- A node that follows a new task has the answers for its jobs. -/
theorem track {session : SessionId} {assignments : List Assignment}
    (safe : turn.Safe owner rest {})
    (genuine : ∀ assignment ∈ assignments, assignment.transfer.Genuine owner ∧
      assignment.transfer.session = session ∧ assignment.transfer.origin = turn.node.id) :
    let jobs := assignments.map fun assignment => assignment.transfer.spec.id
    (turn.track session assignments).Safe owner { rest with submitted := rest.submitted ++ jobs }
      { answers := jobs } := by
  intro jobs
  have owned : ∀ job ∈ jobs, (owner job).map Prod.fst = some turn.node.id := by
    intro job member
    obtain ⟨assignment, inside, rfl⟩ := List.mem_map.1 member
    obtain ⟨known, -, own⟩ := genuine assignment inside
    rw [known, ← own]
    rfl
  let tracked : Turn := turn.update fun node => { node with
    tasks := node.tasks.insert session {
      pending := .ofList (assignments.map fun assignment =>
        (assignment.transfer.spec.id, PendingJob.mk assignment.transfer assignment.target))
      ticket := node.tickets }
    tickets := node.tickets + 1 }
  have followed : Followed owner turn.node.id tracked.node.tasks := by
    intro other job placed waits
    rcases awaiting_track waits with ⟨rfl, assignment, member, rfl, equal⟩ | ⟨-, earlier⟩
    · obtain ⟨known, rfl, own⟩ := genuine assignment member
      rw [equal]
      exact ⟨rfl, rfl, own, own ▸ known⟩
    · exact safe.sound_self.followed other job placed earlier
  have sound : tracked.node.work.Sound owner { answers := jobs } :=
    ⟨safe.sound_self.stocked, followed, owned⟩
  have same : Ledger.SameGrid (turn.grid rest {}).ledger
      (tracked.grid rest { answers := jobs }).ledger := sameGrid rest {} _ rfl rfl (.refl _)
  have wires : Grid.SameWires (turn.grid rest {}) (tracked.grid
      { rest with submitted := rest.submitted ++ jobs } { answers := jobs }) :=
    sameWires safe.wired _ rfl rfl rfl rfl rfl (.refl _)
  have ready : tracked.Safe owner { rest with submitted := rest.submitted ++ jobs }
      { answers := jobs } := by
    refine safe.build rfl rfl rfl (wires.wired safe.wired) safe.honest_mail sound ?_
    refine safe.balanced.follow rfl Iff.rfl same.awaits same.whole same.dropped owned ?_ ?_ ?_ ?_
    · intro node job
      show (tracked.grid rest { answers := jobs }).ledger.held node job = _
      rw [held_grid, held_grid]
      rfl
    · intro node job
      show (tracked.grid rest { answers := jobs }).ledger.answers node job = _
      rw [answers_grid, answers_grid, List.count_nil, ite_self, Nat.add_zero]
      rfl
    · intro job
      exact List.count_append
    · intro origin job node pending
      have id : tracked.node.id = turn.node.id := rfl
      rcases pends_of_pends turn {} id pending with
        ⟨rfl, session, placed, waits, rfl⟩ | ⟨differs, waits⟩
      · have waits : Awaiting tracked.node.tasks session job placed := waits
        rcases awaiting_track waits with ⟨rfl, assignment, member, rfl, -⟩ | ⟨-, earlier⟩
        · exact .inr ⟨rfl, List.mem_map_of_mem member⟩
        · exact .inl (pends_self.2 ⟨session, placed, earlier, rfl⟩)
      · exact .inl waits
  simp only [Turn.track]
  split
  · exact ready
  · exact ready

end Safe

end Turn

end JobGrid
