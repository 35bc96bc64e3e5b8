import JobGrid.Proofs.Node.Conduct

/-!
# Ended tasks

For a task that has ended a node does nothing any more. From the end of the task on, also within
the same turn, the node looks for no member that could take a job of the session and delivers
none, and neither its tasks nor its restrictions nor its balancer know the session. A submission
whose task ended early goes on placing its other jobs, though; these are still delivered, and
the balancer may come to know the session again.
-/

namespace JobGrid

/-- A node knows nothing about a session. -/
structure Node.Forgets (session : SessionId) (node : Node) : Prop where
  tasks : node.tasks.get? session = none
  restrictions : node.restrictions.get? session = none
  balancer : node.balancer.phase session = .unknown

namespace Turn

/-- Between two moments, the node delivered no job of a session: no letter brings one to
another node, and none came into its own queue but one that was brought to the node. -/
structure Spares (session : SessionId) (brought : Option JobTransfer) (before after : Turn) :
    Prop where
  letters : before.cluster.Gains after.cluster fun _ letter => ∀ transfer,
    letter.message? = some (.jobSubmit transfer) → transfer.session ≠ session
  handles : ∀ ref handle, before.node.store.next ≤ ref →
    after.node.store.get? ref = some handle → handle.session = session →
      ∃ transfer, brought = some transfer ∧ handle.StandsFor transfer
  store : before.node.store.Extends after.node.store

variable {watched : SessionId → Prop} {brought : Option JobTransfer} {session : SessionId}
  {turn next last : Turn} {deed : Deed} {deeds : List Deed}

namespace Spares

protected theorem refl (turn : Turn) : Spares session brought turn turn where
  letters := .refl _
  handles _ _ late found := absurd (JobStore.lt_next_of_get? found) (Nat.not_lt.2 late)
  store := .refl _

protected theorem trans (left : Spares session brought turn next)
    (right : Spares session brought next last) : Spares session brought turn last where
  letters := left.letters.trans right.letters
  handles := by
    intro ref handle late found own
    -- What is not new in the second half was there before it, and its job never changes.
    by_cases recent : next.node.store.next ≤ ref
    · exact right.handles ref handle recent found own
    · obtain ⟨earlier, there⟩ : ∃ earlier, next.node.store.get? ref = some earlier :=
        ⟨_, Array.getElem?_eq_getElem (Nat.not_le.1 recent)⟩
      obtain ⟨later, same, spec, origin, session⟩ := right.store ref earlier there
      rw [found, Option.some.injEq] at same
      subst same
      obtain ⟨transfer, arrived, stands⟩ := left.handles ref earlier late there (session ▸ own)
      exact ⟨transfer, arrived, spec.trans stands.spec, session.trans stands.session,
        origin.trans stands.origin⟩
  store := left.store.trans right.store

/-- Neither the tasks nor the balancer matter. -/
theorem of_same (cluster : next.cluster = turn.cluster)
    (store : next.node.store = turn.node.store) : Spares session brought turn next where
  letters := cluster ▸ .refl _
  handles ref handle late found := by
    rw [store] at found
    exact absurd (JobStore.lt_next_of_get? found) (Nat.not_lt.2 late)
  store := store ▸ .refl _

/-- The job of another session is delivered. -/
theorem of_deliver {transfer : JobTransfer} {target : NodeId}
    (differs : transfer.session ≠ session) (delivered : turn.deliver target transfer = .ok next) :
    Spares session brought turn next := by
  cases Delivered.of_deliver delivered with
  | here _ took =>
      obtain ⟨-, rfl⟩ := hold_eq_ok.1 took
      refine ⟨.refl _, ?_, .push _ _⟩
      intro ref handle late found same
      simp only [requestCollision, update, JobStore.get?_push] at found
      split at found
      · cases found
        exact absurd same differs
      · exact absurd (JobStore.lt_next_of_get? found) (Nat.not_lt.2 late)
  | there _ sent =>
      obtain ⟨cluster, posted, rfl⟩ := Result.map_eq_ok.1 sent
      have gains : cluster.inboxes = turn.cluster.inboxes ∧ turn.cluster.Gains cluster
          fun _ letter => ∀ transfer, letter.message? = some (.jobSubmit transfer) →
            transfer.session ≠ session := by
        apply Cluster.Gains.of_send posted
        intro _ _ other reads
        have readable : (Message.jobSubmit transfer).Readable := trivial
        rw [Envelope.message?_encode readable] at reads
        cases reads
        exact differs
      refine ⟨gains.2, ?_, .refl _⟩
      exact fun _ _ late found => absurd (JobStore.lt_next_of_get? found) (Nat.not_lt.2 late)

end Spares

/-- A node that ends a task forgets its session. -/
theorem forgets_finish (followed : turn.Follows session) (error : Option String) :
    (turn.finish session error).node.Forgets session := by
  obtain ⟨task, found⟩ := Option.isSome_iff_exists.1 followed
  simp only [finish, found]
  refine ⟨Table.get?_erase_self _ _, Table.get?_erase_self _ _, ?_⟩
  show (turn.node.balancer.onTask _).phase session = .unknown
  rw [Balancer.phase_ended _ ?_ session, if_pos rfl]
  split
  · exact .inl rfl
  · exact .inr rfl

/-- The end of another task changes nothing about a session. -/
theorem forgets_finish_of_ne {other : SessionId} (differs : other ≠ session)
    (forgets : turn.node.Forgets session) (error : Option String) :
    (turn.finish other error).node.Forgets session := by
  simp only [finish]
  split
  · exact forgets
  · refine ⟨(Table.get?_erase_of_ne _ differs).trans forgets.tasks,
      (Table.get?_erase_of_ne _ differs).trans forgets.restrictions, ?_⟩
    show (turn.node.balancer.onTask _).phase session = .unknown
    rw [Balancer.phase_ended _ ?_ session, if_neg differs]
    · exact forgets.balancer
    · split
      · exact .inl rfl
      · exact .inr rfl

namespace Stride

/-- A step that does not serve a session delivers none of its jobs. -/
theorem spares (stride : Stride watched brought turn deed next) (serves : ¬ deed.Serves session) :
    Spares session brought turn next := by
  cases stride with
  | rest quiet =>
      refine ⟨fun ref => ?_, fun ref handle late found _ => quiet.handles ref handle late found,
        quiet.store⟩
      obtain ⟨new, letters, none⟩ := quiet.letters ref
      exact ⟨new, letters, fun letter member transfer reads =>
        absurd reads (none letter member transfer)⟩
  | seek licensed asked => exact .of_same rfl rfl
  | seekInVain licensed => exact .refl turn
  | offer licensed delivered => exact (Spares.of_deliver serves delivered).trans (.of_same rfl rfl)
  | offerInVain licensed failed => exact .refl turn
  | enter found pending => exact .of_same rfl rfl
  | finish followed error =>
      simp only [Turn.finish]
      split
      · exact .refl turn
      · exact .of_same rfl rfl
  | follow free own =>
      obtain ⟨notices, equal⟩ := track_eq turn _ _
      exact .of_same (by rw [equal]) (by rw [equal])
  | register free nodes => exact .of_same rfl rfl

/-- A step that does not serve a session leaves it forgotten. -/
theorem forgets (stride : Stride watched brought turn deed next) (serves : ¬ deed.Serves session)
    (forgets : turn.node.Forgets session) : next.node.Forgets session := by
  obtain ⟨tasks, restrictions, balancer⟩ := forgets
  cases stride with
  | rest quiet =>
      exact ⟨by rw [quiet.tasks, tasks], by rw [quiet.restrictions, restrictions],
        quiet.unknown session balancer⟩
  | seek licensed asked =>
      refine ⟨tasks, restrictions, ?_⟩
      rcases asked with rfl | ⟨candidates, spec, member, picked⟩
      · exact balancer
      · exact (Balancer.phase_pick_of_ne picked serves).trans balancer
  | seekInVain licensed => exact ⟨tasks, restrictions, balancer⟩
  | offer licensed delivered =>
      obtain ⟨queue, store, attention, cluster, rfl, -⟩ := delivered_of_deliver delivered
      refine ⟨?_, restrictions, balancer⟩
      simp only [record, update, Table.get?_modify, tasks, Option.map_none, ite_self]
  | offerInVain licensed failed => exact ⟨tasks, restrictions, balancer⟩
  | enter found pending =>
      refine ⟨?_, restrictions, balancer⟩
      rename_i result
      have differs : result.session ≠ session := by
        rintro rfl
        rw [tasks] at found
        cases found
      exact (Table.get?_insert_of_ne _ _ differs).trans tasks
  | finish followed error =>
      refine forgets_finish_of_ne ?_ ⟨tasks, restrictions, balancer⟩ error
      rintro rfl
      rw [Follows, tasks] at followed
      cases followed
  | follow free own =>
      obtain ⟨notices, equal⟩ := track_eq turn _ _
      rw [equal]
      exact ⟨(Table.get?_insert_of_ne _ _ serves).trans tasks, restrictions, balancer⟩
  | register free nodes =>
      exact ⟨tasks, (Table.get?_insert_of_ne _ _ serves).trans restrictions, balancer⟩

/-- Whether a session is followed changes only when the node ends its task or follows it. -/
theorem isSome_tasks (stride : Stride watched brought turn deed next)
    (goesOn : deed ≠ .finish session) (old : deed ≠ .follow session) :
    (next.node.tasks.get? session).isSome = (turn.node.tasks.get? session).isSome := by
  cases stride with
  | rest quiet => rw [quiet.tasks]
  | seek licensed asked => rfl
  | seekInVain licensed => rfl
  | offer licensed delivered =>
      obtain ⟨queue, store, attention, cluster, rfl, -⟩ := delivered_of_deliver delivered
      simp only [record, update, Table.get?_modify]
      split
      · exact Option.isSome_map
      · rfl
  | offerInVain licensed failed => rfl
  | enter found pending =>
      simp only [update, Table.get?_insert]
      split
      · rename_i same
        rw [← same, found]
        rfl
      · rfl
  | finish followed error =>
      simp only [Turn.finish]
      split
      · rfl
      · exact congrArg Option.isSome
          (Table.get?_erase_of_ne _ fun same => goesOn (congrArg Deed.finish same))
  | follow free own =>
      obtain ⟨notices, equal⟩ := track_eq turn _ _
      rw [equal]
      exact congrArg Option.isSome
        (Table.get?_insert_of_ne _ _ fun same => old (congrArg Deed.follow same))
  | register free nodes => rfl

/-- A watched session that is not followed is not served. -/
theorem not_serves (stride : Stride watched brought turn deed next) (watches : watched session)
    (unfollowed : ¬ turn.Follows session) : ¬ deed.Serves session := by
  intro serves
  cases stride with
  | seek licensed asked =>
      obtain rfl := serves
      exact unfollowed (licensed watches)
  | seekInVain licensed =>
      obtain rfl := serves
      exact unfollowed (licensed watches)
  | offer licensed delivered =>
      obtain rfl := serves
      exact unfollowed (licensed watches)
  | offerInVain licensed failed =>
      obtain rfl := serves
      exact unfollowed (licensed watches)
  | follow free own =>
      obtain rfl := serves
      exact free watches
  | register free nodes =>
      obtain rfl := serves
      exact free watches
  | _ => exact serves

/-- A session that is neither followed nor served is still not followed. -/
theorem unfollowed (stride : Stride watched brought turn deed next)
    (serves : ¬ deed.Serves session) (unfollowed : ¬ turn.Follows session) :
    ¬ next.Follows session := by
  by_cases ends : deed = .finish session
  · subst ends
    cases stride with
    | finish followed error => exact absurd followed unfollowed
  · rw [Follows, stride.isSome_tasks ends fun same => serves (same ▸ rfl)]
    exact unfollowed

end Stride

/-- Between two moments, the node did nothing for a session: it neither looked for members that
could take jobs of the session nor delivered any, and neither followed nor restricted it. -/
structure Ignores (session : SessionId) (brought : Option JobTransfer) (turn next : Turn) :
    Prop where
  serves : ∃ deeds, Course (· = session) brought turn deeds next ∧
    ∀ deed ∈ deeds, ¬ deed.Serves session
  spares : Spares session brought turn next

namespace Course

/-- As long as no step serves a session, none of its jobs are delivered. -/
theorem spares (course : Course watched brought turn deeds next)
    (serves : ∀ deed ∈ deeds, ¬ deed.Serves session) : Spares session brought turn next := by
  induction course with
  | nil turn => exact .refl turn
  | cons stride _ ih =>
      rw [List.forall_mem_cons] at serves
      exact (stride.spares serves.1).trans (ih serves.2)

/-- As long as no step serves a session, it stays forgotten. -/
theorem forgets (course : Course watched brought turn deeds next)
    (serves : ∀ deed ∈ deeds, ¬ deed.Serves session) (forgets : turn.node.Forgets session) :
    next.node.Forgets session := by
  induction course with
  | nil turn => exact forgets
  | cons stride _ ih =>
      rw [List.forall_mem_cons] at serves
      exact ih serves.2 (stride.forgets serves.1 forgets)

/-- A watched session that is not followed is not served at all. -/
theorem not_serves (course : Course watched brought turn deeds next) (watches : watched session)
    (unfollowed : ¬ turn.Follows session) : ∀ deed ∈ deeds, ¬ deed.Serves session := by
  induction course with
  | nil turn => exact fun _ none => absurd none List.not_mem_nil
  | cons stride _ ih =>
      have first := stride.not_serves watches unfollowed
      rw [List.forall_mem_cons]
      exact ⟨first, ih (stride.unfollowed first unfollowed)⟩

theorem ignores (course : Course (· = session) brought turn deeds next)
    (unfollowed : ¬ turn.Follows session) : Ignores session brought turn next :=
  have serves := course.not_serves rfl unfollowed
  ⟨⟨deeds, course, serves⟩, course.spares serves⟩

end Course

/-- The task of a session ends in the course of a turn, and from this moment on the node does
nothing for the session. -/
def Closes (session : SessionId) (brought : Option JobTransfer) (turn next : Turn) : Prop :=
  ∃ moment error, Leads (· = session) brought turn moment ∧ moment.Follows session ∧
    Ignores session brought (moment.finish session error) next ∧ next.node.Forgets session

/-- A followed task that is not followed any more was ended in between. -/
theorem Course.closes (course : Course (· = session) brought turn deeds next)
    (followed : turn.Follows session) (ended : ¬ next.Follows session) :
    Closes session brought turn next := by
  induction course with
  | nil turn => exact absurd followed ended
  | @cons turn moment last deed deeds stride course ih =>
      -- The first step that ends the task is the one looked for; the rest of the turn ignores it.
      by_cases ends : deed = .finish session
      · subst ends
        cases stride with
        | finish _ error =>
            have forgets := forgets_finish followed error
            have unfollowed : ¬ (turn.finish session error).Follows session := by
              rw [Follows, forgets.tasks]
              decide
            have ignores := course.ignores unfollowed
            refine ⟨turn, error, .refl turn, followed, ignores, ?_⟩
            exact course.forgets (course.not_serves rfl unfollowed) forgets
      · have still : moment.Follows session := by
          rw [Follows, stride.isSome_tasks ends ?_]
          · exact followed
          · rintro rfl
            cases stride with
            | follow free own => exact free rfl
        obtain ⟨middle, error, leads, rest⟩ := ih still ended
        exact ⟨middle, error, (Leads.step stride).trans leads, rest⟩

/-- A submission ends no task. -/
theorem follows_accept (followed : turn.Follows session) (other : SessionId) (jobs : List JobSpec)
    (placement : Placement) : (turn.accept other jobs placement).2.Follows session := by
  cases accepted : turn.accept other jobs placement with
  | mk found next =>
      cases found with
      | error failure => exact follows_of_picks followed (picks_of_accept accepted)
      | ok pair =>
          obtain ⟨picked, picks, rfl, -⟩ := accepted_of_accept accepted
          obtain ⟨notices, equal⟩ := track_eq picked other pair.2
          rw [equal, Follows, Table.get?_insert]
          split
          · rfl
          · exact follows_of_picks followed picks

end Turn

/-- The task of a session is submitted, or the session is registered for some nodes. -/
def NodeEvent.Opens (session : SessionId) (event : NodeEvent) : Prop :=
  match event.action with
  | .submit other _ _ => other = session
  | .restrict other _ => other = session
  | _ => False

namespace Tasking

variable {tasking : Tasking} {session : SessionId} {event : NodeEvent}

/-- No submission has jobs of a session left to place. -/
def HasPlaced (session : SessionId) (tasking : Tasking) : Prop :=
  tasking.EachLeft fun _ assignment => assignment.transfer.session ≠ session

theorem HasPlaced.perform (placed : tasking.HasPlaced session) (closed : ¬ event.Opens session) :
    (tasking.perform event).HasPlaced session := by
  refine EachLeft.perform placed ?_
  intro other jobs placement ticket assignments next action accepted assignment member
  rw [Turn.session_of_accept accepted assignment member]
  simpa only [NodeEvent.Opens, action] using closed

/-- Every turn places the jobs of a session only while its task is followed, unless it follows
or restricts the session, or places a job that a submission has left. -/
theorem leads_turnOf (closed : ¬ event.Opens session)
    (licensed : (tasking.turnAt event.now event.cluster).Follows session ∨
      tasking.HasPlaced session) :
    Turn.Leads (· = session) event.brought? (tasking.turnAt event.now event.cluster)
      (tasking.turnOf event) := by
  simp only [turnOf]
  cases action : event.action with
  | submit other jobs placement =>
      simp only [NodeEvent.Opens, action] at closed
      refine Turn.leads_accept _ ?_ jobs placement
      exact closed
  | place other =>
      simp only
      split
      · rename_i count assignment rest found
        apply Turn.leads_place
        rintro rfl
        refine licensed.resolve_right fun placed => ?_
        exact placed other _ found assignment List.mem_cons_self rfl
      · exact .refl _
  | conclude other =>
      simp only
      split
      · exact Turn.leads_conclude _ _ _
      · exact .refl _
  | message envelope =>
      apply Turn.leads_onMessage
      intro transfer reads
      simp only [NodeEvent.brought?, action, reads]
  | discover found => exact Turn.leads_onEvent _ found
  | look => exact Turn.leads_collide _
  | complete execution => exact Turn.leads_complete _ execution
  | publish => exact Turn.leads_publishMetrics _
  | restrict other nodes =>
      simp only [NodeEvent.Opens, action] at closed
      refine .step (.register ?_ nodes)
      exact closed
  | reroll chance => exact .rest (.of_same rfl rfl rfl rfl rfl rfl rfl rfl)

/-- The event that ends a task neither submits it nor restricts its session. -/
theorem not_opens_of_ends (followed : (tasking.turnAt event.now event.cluster).Follows session)
    (ended : ¬ (tasking.turnOf event).Follows session) : ¬ event.Opens session := by
  intro opens
  apply ended
  simp only [turnOf]
  cases action : event.action with
  | submit other jobs placement => exact Turn.follows_accept followed other jobs placement
  | restrict other nodes => exact followed
  | _ =>
      simp only [NodeEvent.Opens, action] at opens

theorem not_follows_of_forgets (forgets : tasking.node.Forgets session) (now : Moment)
    (cluster : Cluster) : ¬ (tasking.turnAt now cluster).Follows session := by
  rw [Turn.Follows, turnAt, forgets.tasks]
  decide

/-- A session stays forgotten when its jobs have all been placed. -/
theorem forgets_run {later : List NodeEvent} (forgets : tasking.node.Forgets session)
    (placed : tasking.HasPlaced session) (closed : ∀ event ∈ later, ¬ event.Opens session) :
    (tasking.run later).node.Forgets session ∧ (tasking.run later).HasPlaced session := by
  induction later generalizing tasking with
  | nil => exact ⟨forgets, placed⟩
  | cons event rest ih =>
      rw [List.forall_mem_cons] at closed
      obtain ⟨deeds, course⟩ := leads_turnOf closed.1 (.inr placed)
      refine ih ?_ (placed.perform closed.1) closed.2
      rw [node_perform]
      exact course.forgets (course.not_serves rfl (not_follows_of_forgets forgets _ _)) forgets

/-- In the turn in which a task ends, and in all later ones, the node does nothing for the session
any more once the task has ended: it looks for no member that could take one of its jobs and
delivers none; and neither its tasks nor its restrictions nor its balancer know the session. This
holds of tasks that do not end before all their jobs were placed once, and until the session is
submitted or registered anew. -/
theorem nothing_left_of_ended {earlier later : List NodeEvent} {closing event : NodeEvent}
    (followed : ((tasking.run earlier).node.tasks.get? session).isSome)
    (ended : (tasking.run (earlier ++ [closing])).node.tasks.get? session = none)
    (placed : (tasking.run (earlier ++ [closing])).HasPlaced session)
    (closed : ∀ one ∈ later ++ [event], ¬ one.Opens session) :
    let before := tasking.run earlier
    let reached := tasking.run (earlier ++ [closing] ++ later)
    Turn.Closes session closing.brought? (before.turnAt closing.now closing.cluster)
        (before.turnOf closing) ∧
      Turn.Ignores session event.brought? (reached.turnAt event.now event.cluster)
        (reached.turnOf event) ∧
      reached.node.Forgets session := by
  intro before reached
  have closes : Turn.Closes session closing.brought?
      (before.turnAt closing.now closing.cluster) (before.turnOf closing) := by
    have gone : ¬ (before.turnOf closing).Follows session := by
      rw [run_append, run_cons, run_nil, node_perform] at ended
      rw [Turn.Follows, ended]
      decide
    obtain ⟨deeds, course⟩ := leads_turnOf (not_opens_of_ends followed gone) (.inl followed)
    exact course.closes followed gone
  rw [List.forall_mem_append] at closed
  obtain ⟨forgets, done⟩ : reached.node.Forgets session ∧ reached.HasPlaced session := by
    rw [show reached = (tasking.run (earlier ++ [closing])).run later from run_append _ _ _]
    refine forgets_run ?_ placed closed.1
    obtain ⟨-, -, -, -, -, forgets⟩ := closes
    rw [run_append, run_cons, run_nil, node_perform]
    exact forgets
  refine ⟨closes, ?_, forgets⟩
  obtain ⟨deeds, course⟩ := leads_turnOf (closed.2 event (by simp)) (.inr done)
  exact course.ignores (not_follows_of_forgets forgets _ _)

/-- The only member that a session may run on departs after it took the job of the task. The task
fails, and the balancer, which knew the session before, forgets it. -/
theorem nothing_left_of_ended_of_departure :
    let session : SessionId := .ofNat 5
    let places : List Place := [⟨5, .ofNat 1⟩]
    let ring : Ring := { seed := [], digest := fun _ => some 3, places }
    let node : Node := {
      id := .ofNat 0
      config := {}
      chance := {}
      queue := { capacity := 9 }
      resolver := { config := {} }
      balancer := .affinity { config := {}, ring }
      restrictions := ⟨[(session, [.ofNat 1])], by simp⟩
      tracker := { started := 0, cpus := 1 }
      inbox := 0
      position := 0 }
    let whole : Cluster := {
      capacity := 9
      members := [{ id := .ofNat 0 }, { id := .ofNat 1 }]
      inboxes := ⟨[(.ofNat 0, 0), (.ofNat 1, 1)], by decide⟩
      mailboxes := #[{}, {}] }
    let rest : Cluster := whole.leave (.ofNat 1)
    let earlier : List NodeEvent := [
      ⟨0, whole, .submit session [{ id := .ofNat 7, affinityKey := some "k" }] .balanced⟩,
      ⟨0, whole, .place session⟩, ⟨0, whole, .conclude session⟩]
    let closing : NodeEvent := ⟨0, rest, .discover ⟨.left, { id := .ofNat 1 }⟩⟩
    let event : NodeEvent := ⟨0, rest, .look⟩
    let tasking : Tasking := { node }
    let before := tasking.run earlier
    let reached := tasking.run (earlier ++ [closing] ++ [])
    (before.node.tasks.get? session).isSome ∧ before.node.balancer.phase session = .mapped ∧
      (tasking.run (earlier ++ [closing])).node.tasks.get? session = none ∧
      (tasking.run (earlier ++ [closing])).HasPlaced session ∧
      (∀ one ∈ [] ++ [event], ¬ one.Opens session) ∧
      Turn.Closes session closing.brought? (before.turnAt 0 rest) (before.turnOf closing) ∧
      Turn.Ignores session event.brought? (reached.turnAt 0 rest) (reached.turnOf event) ∧
      reached.node.Forgets session := by
  intro session places ring node whole rest earlier closing event tasking before reached
  have followed : (before.node.tasks.get? session).isSome := by decide +kernel
  have ended : ((tasking.run (earlier ++ [closing])).node.tasks.get? session).isNone := by
    decide +kernel
  have none : (tasking.run (earlier ++ [closing])).mappings.entries.isEmpty := by decide +kernel
  have placed : (tasking.run (earlier ++ [closing])).HasPlaced session := by
    intro other mapping found
    rw [Table.get?, List.isEmpty_iff.1 none] at found
    cases found
  have closed : ∀ one ∈ [] ++ [event], ¬ one.Opens session := by
    simp [event, NodeEvent.Opens]
  exact ⟨followed, by decide +kernel, Option.isNone_iff_eq_none.1 ended, placed, closed,
    nothing_left_of_ended followed (Option.isNone_iff_eq_none.1 ended) placed closed⟩

/-- The only member that a session may run on takes no jobs, and the first job of the task ends it.
The submission goes on: the node keeps the second job for itself, and its balancer knows the
session from then on. -/
theorem ended_task_served :
    let session : SessionId := .ofNat 5
    let places : List Place := [⟨5, .ofNat 1⟩]
    let ring : Ring := { seed := [], digest := fun _ => some 3, places }
    let node : Node := {
      id := .ofNat 0
      config := {}
      chance := {}
      queue := { capacity := 9 }
      resolver := { config := {} }
      balancer := .affinity { config := {}, ring }
      restrictions := ⟨[(session, [.ofNat 1])], by simp⟩
      tracker := { started := 0, cpus := 1 }
      inbox := 0
      position := 0 }
    let cluster : Cluster := {
      capacity := 9
      members := [{ id := .ofNat 0 }, { id := .ofNat 1 }]
      inboxes := ⟨[(.ofNat 0, 0), (.ofNat 1, 1)], by decide⟩
      mailboxes := #[{}, { isOpen := false }] }
    let happens (action : NodeAction) : NodeEvent := ⟨0, cluster, action⟩
    let jobs : List JobSpec := [{ id := .ofNat 7, affinityKey := some "k" },
      { id := .ofNat 8, affinityKey := some "k" }]
    let earlier : List NodeEvent := [happens (.submit session jobs .balanced)]
    let closing : NodeEvent := happens (.place session)
    let event : NodeEvent := happens (.place session)
    let tasking : Tasking := { node }
    let reached := tasking.run (earlier ++ [closing] ++ [])
    ((tasking.run earlier).node.tasks.get? session).isSome ∧
      reached.node.tasks.get? session = none ∧ (∀ one ∈ [] ++ [event], ¬ one.Opens session) ∧
      ¬ Turn.Ignores session event.brought? (reached.turnAt 0 cluster) (reached.turnOf event) ∧
      ((reached.run [event, happens (.conclude session)]).node.tasks.get? session = none ∧
        (reached.run [event, happens (.conclude session)]).node.balancer.phase session =
          .mapped) := by
  intro session places ring node cluster happens jobs earlier closing event tasking reached
  have ended : (reached.node.tasks.get? session).isNone := by decide +kernel
  have still : ((reached.run [event, happens (.conclude session)]).node.tasks.get?
      session).isNone := by decide +kernel
  refine ⟨by decide +kernel, Option.isNone_iff_eq_none.1 ended,
    by simp [event, happens, NodeEvent.Opens], ?_, Option.isNone_iff_eq_none.1 still,
    by decide +kernel⟩
  intro ignores
  let kept : JobHandle := {
    spec := { id := .ofNat 8, affinityKey := some "k" }
    session
    origin := node.id
    createdAt := 0
    failoverAttempts := 1 }
  have found : (reached.turnOf event).node.store.get? 0 = some kept := by decide +kernel
  have early : (reached.turnAt 0 cluster).node.store.next ≤ 0 := by decide +kernel
  obtain ⟨transfer, brought, -⟩ := ignores.spares.handles 0 kept early found rfl
  cases brought

end Tasking

end JobGrid
