import JobGrid.Proofs.Node.Tasking

/-!
# Jobs in the custody of a node

The loop that looks through the jobs of a node really proceeds in several steps: it notes which
jobs are there, it starts jobs and gives jobs away, it settles the queue, it reports the jobs
that were given away one by one, and it sets the started ones to work. Executions end on their
own and in two steps, and anything else may happen between two steps. What becomes of each job
is written down.
-/

namespace JobGrid

/-- How far the loop that looks through the jobs of a node has come. -/
inductive LookStage where
  /-- The loop waits for its next look. -/
  | rests
  /-- The loop knows which jobs waited and how many were active. -/
  | watches (waiting : List JobRef) (active : Nat)
  /-- Jobs were started and given away, and the queue has yet to be settled. -/
  | decided
  /-- The queue was settled. Some jobs have yet to be reported, and others to be set to work. -/
  | sorts (leaving starting : List JobRef)
  /-- A rule broke, and the loop is over. -/
  | broken (leaving starting : List JobRef)

namespace LookStage

/-- The jobs that left the queue and have yet to be reported. -/
def leaving : LookStage → List JobRef
  | sorts leaving _ | broken leaving _ => leaving
  | _ => []

/-- The active jobs that have yet to be set to work. -/
def starting : LookStage → List JobRef
  | sorts _ starting | broken _ starting => starting
  | _ => []

/-- The loop rests when nothing is left to be sorted. -/
def sorting : List JobRef → List JobRef → LookStage
  | [], [] => rests
  | leaving, starting => sorts leaving starting

@[simp] theorem leaving_sorting (leaving starting : List JobRef) :
    (sorting leaving starting).leaving = leaving := by
  cases leaving <;> cases starting <;> rfl

@[simp] theorem starting_sorting (leaving starting : List JobRef) :
    (sorting leaving starting).starting = starting := by
  cases leaving <;> cases starting <;> rfl

end LookStage

/-- What became of the jobs of a node. -/
structure CustodyRecord where
  /-- The executions that were counted, and whose jobs have yet to leave the queue. -/
  counted : List Execution := []
  /-- The jobs that were executed and whose results were reported. -/
  executed : List JobRef := []
  /-- The jobs that left the queue because they were cancelled. -/
  drained : List JobRef := []
  /-- Of those, the jobs that were reported as rejected. -/
  reported : List JobRef := []

/-- A node with its tasks, the stage of its loop, and what became of its jobs. -/
structure Custody where
  tasking : Tasking
  stage : LookStage := .rests
  record : CustodyRecord := {}

/-- Whole looks through the jobs and whole ends of executions consist of several steps. -/
def NodeAction.isComposed : NodeAction → Bool
  | look | complete _ => true
  | _ => false

/-- What can happen to a node whose loop proceeds in steps. -/
inductive CustodyAction where
  /-- The node reacts to something in one step. -/
  | react (action : NodeAction)
  /-- The loop notes which jobs are there. -/
  | watch
  /-- The loop starts jobs and gives jobs away. -/
  | decide
  /-- The loop settles the queue. -/
  | settle
  /-- The loop reports the next job that left the queue. -/
  | report
  /-- The loop sets the next started job to work. -/
  | launch
  /-- An execution ends and is counted. -/
  | count (execution : Execution)
  /-- The job of an execution that was counted leaves the queue, and its result is reported. -/
  | finish (execution : Execution)

/-- Something that happens to a node at a moment, in whatever state the cluster is then. -/
structure CustodyEvent where
  now : Moment
  cluster : Cluster
  action : CustodyAction

namespace Turn

/-- The first part of the end of an execution: the work is counted. -/
def count (turn : Turn) (execution : Execution) : Turn :=
  match turn.node.store.get? execution.job with
  | none => turn
  | some job =>
      let report := execution.report job
      let stolen := if 0 < report.stealingAttempts then 1 else 0
      turn.update fun node => { node with
        tracker := node.tracker.recordExecution report.waited report.took
        stats := { node.stats with
          executed := node.stats.executed + 1
          executedStolen := node.stats.executedStolen + stolen } }

/-- The last part of the end of an execution: the job leaves the queue, and its result is
reported. -/
def dismiss (turn : Turn) (execution : Execution) : Turn :=
  match turn.node.store.get? execution.job with
  | none => turn
  | some job =>
      let report := execution.report job
      let removed := turn.update fun node => { node with
        executions := node.executions.erase execution
        queue := node.queue.complete report.job }
      let reported := removed.reportResult report
      if reported.fault?.isSome then reported else reported.requestCollision

theorem exists_node_of_count (turn : Turn) (execution : Execution) :
    ∃ node, turn.count execution = { turn with node } := by
  simp only [count]
  split
  · exact ⟨turn.node, rfl⟩
  · exact ⟨_, rfl⟩

theorem dismiss_count (turn : Turn) (execution : Execution) :
    (turn.count execution).dismiss execution = turn.complete execution := by
  cases found : turn.node.store.get? execution.job with
  | none => simp only [complete, count, dismiss, found]
  | some job =>
      simp only [complete, count, dismiss, found, update]
      rfl

end Turn

namespace Custody

/-- The node itself. -/
def node (custody : Custody) : Node := custody.tasking.node

/-- The pass over jobs that were noted before. -/
def passOver (turn : Turn) (waiting : List JobRef) (active : Nat) : Pass :=
  turn.node.resolver.collide
    (turn.node.resolver.scene (turn.cluster.view turn.node.id) turn.node.restrictions
      turn.node.chance.peers turn.now)
    turn.cluster.accepts turn.node.store waiting active

/-- Lets something happen. Steps that are not due do nothing. -/
def perform (custody : Custody) (event : CustodyEvent) : Custody :=
  let turn := custody.tasking.turnAt event.now event.cluster
  match event.action with
  | .react action =>
      if action.isComposed then custody
      else { custody with tasking := custody.tasking.perform ⟨event.now, event.cluster, action⟩ }
  | .watch =>
      match custody.stage with
      | .rests =>
          { custody with
            tasking := custody.tasking.after (turn.update fun node =>
              { node with attention := node.attention.take })
            stage := .watches (turn.node.queue.waiting.map QueuedJob.ref)
              turn.node.queue.active.size }
      | _ => custody
  | .decide =>
      match custody.stage with
      | .watches waiting active =>
          let pass := passOver turn waiting active
          { custody with
            tasking := custody.tasking.after ((turn.update fun node => { node with
              resolver := pass.resolver
              store := pass.store }).sendRequests pass.requests)
            stage := if pass.fault?.isSome then .broken [] [] else .decided }
      | _ => custody
  | .settle =>
      match custody.stage with
      | .decided =>
          let settled := turn.node.queue.settled turn.node.store
          let leaving := settled.cancelled.map QueuedJob.ref
          { custody with
            tasking := custody.tasking.after (turn.update fun node => { node with
              queue := node.queue.settle node.store
              tracker := node.tracker.recordCancelled settled.cancelled.length })
            stage := .sorting leaving (settled.activated.map QueuedJob.ref)
            record := { custody.record with drained := custody.record.drained ++ leaving } }
      | _ => custody
  | .report =>
      match custody.stage with
      | .sorts (ref :: leaving) starting =>
          let handed := turn.handOff ref
          { custody with
            tasking := custody.tasking.after handed
            stage := if handed.fault?.isSome then .broken leaving starting
              else .sorting leaving starting
            record := { custody.record with reported := custody.record.reported ++ [ref] } }
      | _ => custody
  | .launch =>
      match custody.stage with
      | .sorts [] (ref :: starting) =>
          { custody with
            tasking := custody.tasking.after (turn.execute ref)
            stage := .sorting [] starting }
      | _ => custody
  | .count execution =>
      if execution ∈ turn.node.executions ∧ execution ∉ custody.record.counted then
        { custody with
          tasking := custody.tasking.after (turn.count execution)
          record := { custody.record with counted := execution :: custody.record.counted } }
      else custody
  | .finish execution =>
      if execution ∈ custody.record.counted then
        { custody with
          tasking := custody.tasking.after (turn.dismiss execution)
          record := { custody.record with
            counted := custody.record.counted.erase execution
            executed := custody.record.executed ++ [execution.job] } }
      else custody

/-- Lets some things happen, one after another. -/
def run (custody : Custody) (history : List CustodyEvent) : Custody := history.foldl perform custody

@[simp] theorem run_nil (custody : Custody) : custody.run [] = custody := rfl

@[simp] theorem run_cons (custody : Custody) (event : CustodyEvent)
    (later : List CustodyEvent) :
    custody.run (event :: later) = (custody.perform event).run later := rfl

/-- What every single event keeps holds after every history. -/
theorem run_keeps {keeps : Custody → Prop}
    (step : ∀ {custody : Custody} (event : CustodyEvent), keeps custody →
      keeps (custody.perform event))
    (history : List CustodyEvent) {custody : Custody} (holds : keeps custody) :
    keeps (custody.run history) := by
  induction history generalizing custody with
  | nil => exact holds
  | cons event later ih => exact ih (step event holds)

end Custody

namespace Turn

variable {α β : Type} {act : Turn → α → Turn}

theorem forEach_of_fault {turn : Turn} (broke : turn.fault?.isSome = true) (items : List α) :
    turn.forEach items act = turn := by
  induction items with
  | nil => rfl
  | cons item rest ih =>
      simp only [forEach, List.foldl_cons, broke, if_true]
      exact ih

theorem forEach_cons {turn : Turn} (sound : turn.fault? = none) (item : α) (rest : List α) :
    turn.forEach (item :: rest) act = (act turn item).forEach rest act := by
  simp [forEach, sound]

theorem forEach_map (turn : Turn) (change : β → α) (items : List β) :
    turn.forEach (items.map change) act =
      turn.forEach items fun turn item => act turn (change item) := by
  rw [forEach, forEach, List.foldl_map]

theorem fault?_execute (turn : Turn) (ref : JobRef) :
    (turn.execute ref).fault? = turn.fault? := by
  simp only [execute]
  split
  · rfl
  · split
    · rfl
    · rfl

end Turn

namespace Custody

theorem turnAt_after (tasking : Tasking) {turn : Turn} (sound : turn.fault? = none) :
    (tasking.after turn).turnAt turn.now turn.cluster = turn :=
  Tasking.turnAt_after tasking tasking.mappings sound

/-- Setting jobs to work one by one leads where it leads at once, and then the loop rests. -/
theorem exists_run_of_starting {starting : List JobRef} {custody : Custody} {turn : Turn}
    (stage : custody.stage = .sorting [] starting)
    (begins : custody.tasking.turnAt turn.now turn.cluster = turn) :
    ∃ history, (custody.run history).tasking =
        custody.tasking.after (turn.forEach starting Turn.execute) ∧
      (custody.run history).stage = .rests := by
  have sound : turn.fault? = none := congrArg Turn.fault? begins.symm
  induction starting generalizing custody turn with
  | nil =>
      refine ⟨[], ?_, stage⟩
      rw [← begins]
      rfl
  | cons ref rest ih =>
      let event : CustodyEvent := ⟨turn.now, turn.cluster, .launch⟩
      have performed : custody.perform event = { custody with
          tasking := custody.tasking.after (turn.execute ref)
          stage := .sorting [] rest } := by
        simp only [event, perform, stage, LookStage.sorting, begins]
      have unbroken : (turn.execute ref).fault? = none := (turn.fault?_execute ref).trans sound
      have later : (custody.perform event).stage = .sorting [] rest := by rw [performed]
      have goesOn : (custody.perform event).tasking.turnAt (turn.execute ref).now
          (turn.execute ref).cluster = turn.execute ref := by
        rw [performed]
        exact turnAt_after _ unbroken
      obtain ⟨history, reached, rests⟩ := ih later goesOn unbroken
      refine ⟨event :: history, ?_, rests⟩
      rw [run_cons, reached, Turn.forEach_cons sound, performed]
      rfl

/-- Reporting jobs and setting others to work one by one leads where it leads at once, and then
the loop rests unless a rule broke. -/
theorem exists_run_of_sorting {leaving starting : List JobRef} {custody : Custody} {turn : Turn}
    (stage : custody.stage = .sorting leaving starting)
    (begins : custody.tasking.turnAt turn.now turn.cluster = turn) :
    let final := (turn.forEach leaving Turn.handOff).forEach starting Turn.execute
    ∃ history, (custody.run history).tasking = custody.tasking.after final ∧
      (final.fault? = none → (custody.run history).stage = .rests) := by
  have sound : turn.fault? = none := congrArg Turn.fault? begins.symm
  induction leaving generalizing custody turn with
  | nil =>
      obtain ⟨history, reached, rests⟩ := exists_run_of_starting stage begins
      exact ⟨history, reached, fun _ => rests⟩
  | cons ref rest ih =>
      let event : CustodyEvent := ⟨turn.now, turn.cluster, .report⟩
      have performed : custody.perform event = { custody with
          tasking := custody.tasking.after (turn.handOff ref)
          stage := if (turn.handOff ref).fault?.isSome then .broken rest starting
            else .sorting rest starting
          record := { custody.record with reported := custody.record.reported ++ [ref] } } := by
        simp only [event, perform, stage, LookStage.sorting, begins]
      cases broke : (turn.handOff ref).fault? with
      | some fault =>
          have fails : (turn.handOff ref).fault?.isSome = true := by rw [broke]; rfl
          rw [Turn.forEach_cons sound, Turn.forEach_of_fault fails, Turn.forEach_of_fault fails]
          refine ⟨[event], ?_, ?_⟩
          · rw [run_cons, run_nil, performed]
          · intro unbroken
            rw [broke] at unbroken
            cases unbroken
      | none =>
          have later : (custody.perform event).stage = .sorting rest starting := by
            rw [performed]
            simp [broke]
          have goesOn : (custody.perform event).tasking.turnAt (turn.handOff ref).now
              (turn.handOff ref).cluster = turn.handOff ref := by
            rw [performed]
            exact turnAt_after _ broke
          obtain ⟨history, reached, rests⟩ := ih later goesOn broke
          rw [Turn.forEach_cons sound]
          refine ⟨event :: history, ?_, rests⟩
          rw [run_cons, reached, performed]
          rfl

/-- Requests for work change nothing but the cluster. -/
theorem exists_cluster_of_sendRequests (turn : Turn) (requests : List SentRequest) :
    ∃ cluster, turn.sendRequests requests = { turn with cluster } := by
  induction requests generalizing turn with
  | nil => exact ⟨turn.cluster, rfl⟩
  | cons request rest ih =>
      have first : ∃ cluster, turn.trySend request.peer (.stealRequest ⟨request.jobs⟩) =
          { turn with cluster } := by
        simp only [Turn.trySend]
        split
        · rename_i next sent
          obtain ⟨cluster, -, rfl⟩ := Result.map_eq_ok.1 sent
          exact ⟨cluster, rfl⟩
        · exact ⟨turn.cluster, rfl⟩
      obtain ⟨cluster, sent⟩ := first
      obtain ⟨later, others⟩ := ih { turn with cluster }
      refine ⟨later, ?_⟩
      rw [Turn.sendRequests, List.foldl_cons, sent]
      exact others

/-- A whole look through the jobs is one of the histories in which the loop goes through all its
steps. At its end the loop rests again, unless a rule broke. -/
theorem exists_run_of_look {custody : Custody} (rests : custody.stage = .rests) (now : Moment)
    (cluster : Cluster) :
    ∃ history, (custody.run history).tasking = custody.tasking.perform ⟨now, cluster, .look⟩ ∧
      ((custody.tasking.turnAt now cluster).collide.fault? = none →
        (custody.run history).stage = .rests) := by
  let turn := custody.tasking.turnAt now cluster
  let watching : CustodyEvent := ⟨now, cluster, .watch⟩
  let deciding : CustodyEvent := ⟨now, cluster, .decide⟩
  let passed := (turn.update fun node => { node with
    resolver := turn.pass.resolver
    store := turn.pass.store
    attention := node.attention.take }).sendRequests turn.pass.requests
  have decided : (custody.perform watching).perform deciding = { custody with
      tasking := custody.tasking.after passed
      stage := if turn.pass.fault?.isSome then .broken [] [] else .decided } := by
    simp only [watching, perform, rests]
    rfl
  have look : custody.tasking.perform ⟨now, cluster, .look⟩ = custody.tasking.after turn.collide :=
    rfl
  cases broke : turn.pass.fault? with
  | some fault =>
      have collided : turn.collide = passed.stopWith fault := by
        simp only [Turn.collide, broke, passed]
      refine ⟨[watching, deciding], ?_, ?_⟩
      · rw [run_cons, run_cons, run_nil, decided, look, collided]
        rfl
      · intro unbroken
        rw [show (custody.tasking.turnAt now cluster).collide = _ from collided] at unbroken
        cases unbroken
  | none =>
      have collided : turn.collide = passed.settle := by
        simp only [Turn.collide, broke, passed]
      have unbroken : passed.fault? = none := by
        obtain ⟨sent, same⟩ := exists_cluster_of_sendRequests _ turn.pass.requests
        exact congrArg Turn.fault? same
      let settling : CustodyEvent := ⟨passed.now, passed.cluster, .settle⟩
      let settled := passed.node.queue.settled passed.node.store
      let emptied := passed.update fun node => { node with
        queue := node.queue.settle node.store
        tracker := node.tracker.recordCancelled settled.cancelled.length }
      let sorted := ((custody.perform watching).perform deciding).perform settling
      have performed : sorted = { custody with
          tasking := custody.tasking.after emptied
          stage := .sorting (settled.cancelled.map QueuedJob.ref)
            (settled.activated.map QueuedJob.ref)
          record := { custody.record with
            drained := custody.record.drained ++ settled.cancelled.map QueuedJob.ref } } := by
        have begins := turnAt_after custody.tasking unbroken
        show ((custody.perform watching).perform deciding).perform settling = _
        rw [decided]
        simp only [perform, settling, broke, Option.isSome_none, Bool.false_eq_true, if_false,
          begins]
        rfl
      have stage : sorted.stage = .sorting (settled.cancelled.map QueuedJob.ref)
          (settled.activated.map QueuedJob.ref) := by rw [performed]
      have begins : sorted.tasking.turnAt emptied.now emptied.cluster = emptied := by
        rw [performed]
        exact turnAt_after _ unbroken
      obtain ⟨history, reached, ends⟩ := exists_run_of_sorting stage begins
      have sorting : turn.collide = (emptied.forEach (settled.cancelled.map QueuedJob.ref)
          Turn.handOff).forEach (settled.activated.map QueuedJob.ref) Turn.execute := by
        rw [collided, Turn.forEach_map, Turn.forEach_map]
        rfl
      rw [← sorting] at reached ends
      refine ⟨watching :: deciding :: settling :: history, ?_, ends⟩
      rw [run_cons, run_cons, run_cons, look]
      refine reached.trans ?_
      rw [performed]
      rfl

/-- The end of an execution without interruption is one of the histories in which it is counted
before its job leaves the queue. -/
theorem run_count_finish {custody : Custody} {execution : Execution} (now : Moment)
    (cluster : Cluster) (works : execution ∈ custody.node.executions)
    (uncounted : execution ∉ custody.record.counted) :
    (custody.run [⟨now, cluster, .count execution⟩, ⟨now, cluster, .finish execution⟩]).tasking =
      custody.tasking.perform ⟨now, cluster, .complete execution⟩ := by
  have counted : custody.perform ⟨now, cluster, .count execution⟩ = { custody with
      tasking := custody.tasking.after ((custody.tasking.turnAt now cluster).count execution)
      record := { custody.record with counted := execution :: custody.record.counted } } :=
    if_pos ⟨works, uncounted⟩
  have begins : (custody.tasking.after
      ((custody.tasking.turnAt now cluster).count execution)).turnAt now cluster =
        (custody.tasking.turnAt now cluster).count execution := by
    obtain ⟨node, same⟩ := Turn.exists_node_of_count (custody.tasking.turnAt now cluster) execution
    rw [same]
    rfl
  rw [run_cons, run_cons, run_nil, counted]
  simp only [perform, List.mem_cons_self, if_true, begins, Turn.dismiss_count]
  rfl

end Custody

end JobGrid
