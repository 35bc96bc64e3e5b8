import JobGrid.Proofs.Node.Pick

/-!
# Histories of a node with tasks

Anything can happen to a node with tasks, in any order: tasks are submitted to it and their jobs
placed one by one, messages of any kind arrive, nodes depart, and its own jobs run. A submission
without interruption is one of these histories.
-/

namespace JobGrid

namespace Turn

/-- Accepting a task breaks no rule. -/
theorem fault?_of_accept {turn next : Turn} {session : SessionId} {jobs : List JobSpec}
    {placement : Placement} {ticket : Nat} {assignments : List Assignment}
    (accepted : turn.accept session jobs placement = (.ok (ticket, assignments), next)) :
    next.fault? = turn.fault? := by
  obtain ⟨picked, ⟨balancer, drawn, rfl⟩, rfl, -⟩ := accepted_of_accept accepted
  simp only [track]
  split
  · rfl
  · rfl

end Turn

/-- A submission that still places its jobs. -/
structure Mapping where
  /-- How many jobs the task has. -/
  count : Nat
  left : List Turn.Assignment

/-- A node, what it told and warned about so far, and its unfinished submissions. -/
structure Tasking where
  node : Node
  told : List Notice := []
  unreported : List (NodeId × Message) := []
  mappings : Table SessionId Mapping := ∅

/-- What can happen to a node. -/
inductive NodeAction where
  /-- A task is submitted. Its jobs are placed later. -/
  | submit (session : SessionId) (jobs : List JobSpec) (placement : Placement)
  /-- The next job of a submission is placed. -/
  | place (session : SessionId)
  /-- A submission ends after all its jobs were placed. -/
  | conclude (session : SessionId)
  | message (envelope : Envelope)
  | discover (event : DiscoveryEvent)
  /-- The node looks through its jobs. -/
  | look
  | complete (execution : Execution)
  | publish
  | restrict (session : SessionId) (nodes : List NodeId)
  /-- From now on other things are left to chance. -/
  | reroll (chance : Chance)

/-- Something that happens to a node at a moment, in whatever state the cluster is then. -/
structure NodeEvent where
  now : Moment
  cluster : Cluster
  action : NodeAction

/-- The session and the jobs of a submission. -/
def NodeEvent.submission? (event : NodeEvent) : Option (SessionId × List JobSpec) :=
  match event.action with
  | .submit session jobs _ => some (session, jobs)
  | _ => none

/-- The submissions of a history. -/
def submissions (history : List NodeEvent) : List (SessionId × List JobSpec) :=
  history.filterMap NodeEvent.submission?

namespace Notice

/-- The outcome that a notice tells. -/
def outcome? : Notice → Option TaskOutcome
  | finished _ outcome => some outcome
  | dropped _ _ => none

end Notice

namespace Tasking

/-- The outcomes that were told. -/
def outcomes (told : List Notice) : List TaskOutcome := told.filterMap Notice.outcome?

/-- The turn of the node at a moment. -/
def turnAt (tasking : Tasking) (now : Moment) (cluster : Cluster) : Turn :=
  { now, cluster
    node := tasking.node
    notices := tasking.told
    unreported := tasking.unreported }

/-- What a turn leaves behind. -/
def after (tasking : Tasking) (turn : Turn) : Tasking :=
  { tasking with node := turn.node, told := turn.notices, unreported := turn.unreported }

/-- Lets something happen. A submission in which a rule breaks is given up. -/
def perform (tasking : Tasking) (event : NodeEvent) : Tasking :=
  let turn := tasking.turnAt event.now event.cluster
  match event.action with
  | .submit session jobs placement =>
      match turn.accept session jobs placement with
      | (.error _, refused) => tasking.after refused
      | (.ok (_, assignments), accepted) =>
          { tasking.after accepted with
            mappings := tasking.mappings.insert session ⟨assignments.length, assignments⟩ }
  | .place session =>
      match tasking.mappings.get? session with
      | some ⟨count, assignment :: rest⟩ =>
          let placed := turn.place assignment.transfer assignment.target
          { tasking.after placed with
            mappings :=
              if placed.fault?.isSome then tasking.mappings.erase session
              else tasking.mappings.insert session ⟨count, rest⟩ }
      | _ => tasking
  | .conclude session =>
      match tasking.mappings.get? session with
      | some ⟨count, []⟩ =>
          { tasking.after (turn.conclude session count) with
            mappings := tasking.mappings.erase session }
      | _ => tasking
  | .message envelope => tasking.after (turn.onMessage envelope)
  | .discover event => tasking.after (turn.onEvent event)
  | .look => tasking.after turn.collide
  | .complete execution => tasking.after (turn.complete execution)
  | .publish => tasking.after turn.publishMetrics
  | .restrict session nodes =>
      tasking.after (turn.update fun node =>
        { node with restrictions := node.restrictions.register session nodes })
  | .reroll chance => tasking.after (turn.update fun node => { node with chance })

/-- The turn of the node in which something happens. -/
def turnOf (tasking : Tasking) (event : NodeEvent) : Turn :=
  let turn := tasking.turnAt event.now event.cluster
  match event.action with
  | .submit session jobs placement => (turn.accept session jobs placement).2
  | .place session =>
      match tasking.mappings.get? session with
      | some ⟨_, assignment :: _⟩ => turn.place assignment.transfer assignment.target
      | _ => turn
  | .conclude session =>
      match tasking.mappings.get? session with
      | some ⟨count, []⟩ => turn.conclude session count
      | _ => turn
  | .message envelope => turn.onMessage envelope
  | .discover event => turn.onEvent event
  | .look => turn.collide
  | .complete execution => turn.complete execution
  | .publish => turn.publishMetrics
  | .restrict session nodes => turn.update fun node =>
      { node with restrictions := node.restrictions.register session nodes }
  | .reroll chance => turn.update fun node => { node with chance }

/-- What happens leaves the node of its turn behind. -/
theorem node_perform (tasking : Tasking) (event : NodeEvent) :
    (tasking.perform event).node = (tasking.turnOf event).node := by
  simp only [perform, turnOf]
  cases action : event.action with
  | submit session jobs placement =>
      simp only
      cases accepted : (tasking.turnAt event.now event.cluster).accept session jobs placement with
      | mk found next => cases found <;> rfl
  | place session =>
      simp only
      cases tasking.mappings.get? session with
      | none => rfl
      | some mapping => rcases mapping with ⟨count, - | ⟨assignment, rest⟩⟩ <;> rfl
  | conclude session =>
      simp only
      cases tasking.mappings.get? session with
      | none => rfl
      | some mapping => rcases mapping with ⟨count, - | ⟨assignment, rest⟩⟩ <;> rfl
  | message envelope => rfl
  | discover found => rfl
  | look => rfl
  | complete execution => rfl
  | publish => rfl
  | restrict session nodes => rfl
  | reroll chance => rfl

/-- What holds of all jobs that submissions still have to place. -/
def EachLeft (fits : SessionId → Turn.Assignment → Prop) (tasking : Tasking) : Prop :=
  ∀ session mapping, tasking.mappings.get? session = some mapping →
    ∀ assignment ∈ mapping.left, fits session assignment

/-- What holds of all jobs left to place goes on to hold if it holds of those of a new task. -/
theorem EachLeft.perform {fits : SessionId → Turn.Assignment → Prop} {tasking : Tasking}
    {event : NodeEvent} (left : tasking.EachLeft fits)
    (accepts : ∀ {session jobs placement ticket assignments next},
      event.action = .submit session jobs placement →
      (tasking.turnAt event.now event.cluster).accept session jobs placement =
        (.ok (ticket, assignments), next) →
      ∀ assignment ∈ assignments, fits session assignment) :
    (tasking.perform event).EachLeft fits := by
  have erased : ∀ session, ({ tasking with mappings := tasking.mappings.erase session } :
      Tasking).EachLeft fits := by
    intro session other mapping found
    rw [Table.get?_erase] at found
    split at found
    · cases found
    · exact left other mapping found
  simp only [Tasking.perform]
  cases action : event.action with
  | submit session jobs placement =>
      simp only
      cases accepted : (tasking.turnAt event.now event.cluster).accept session jobs placement with
      | mk result next =>
          cases result with
          | error failure => exact left
          | ok pair =>
              intro other mapping found
              simp only [Table.get?_insert] at found
              split at found
              · rename_i same
                cases found
                subst same
                exact accepts action accepted
              · exact left other mapping found
  | place session =>
      simp only
      split
      · rename_i count assignment rest found
        intro other mapping
        split
        · exact erased session other mapping
        · intro there
          rw [Table.get?_insert] at there
          split at there
          · rename_i same
            cases there
            subst same
            intro one member
            exact left session _ found one (List.mem_cons_of_mem _ member)
          · exact left other mapping there
      · exact left
  | conclude session =>
      simp only
      split
      · exact erased session
      · exact left
  | message envelope => exact left
  | discover found => exact left
  | look => exact left
  | complete execution => exact left
  | publish => exact left
  | restrict session nodes => exact left
  | reroll chance => exact left

/-- Lets some things happen, one after another. -/
def run (tasking : Tasking) (history : List NodeEvent) : Tasking :=
  history.foldl perform tasking

@[simp] theorem run_nil (tasking : Tasking) : tasking.run [] = tasking := rfl

@[simp] theorem run_cons (tasking : Tasking) (event : NodeEvent) (later : List NodeEvent) :
    tasking.run (event :: later) = (tasking.perform event).run later := rfl

theorem run_append (tasking : Tasking) (history later : List NodeEvent) :
    tasking.run (history ++ later) = (tasking.run history).run later :=
  List.foldl_append

section Submission

variable {session : SessionId} {count : Nat}

theorem placeAll_of_fault {turn : Turn} (broke : turn.fault?.isSome = true)
    (assignments : List Turn.Assignment) : turn.placeAll assignments = turn := by
  induction assignments with
  | nil => rfl
  | cons assignment rest ih =>
      simp only [Turn.placeAll, Turn.forEach, List.foldl_cons, broke, if_true]
      exact ih

theorem turnAt_after {turn : Turn} (tasking : Tasking) (mappings : Table SessionId Mapping)
    (whole : turn.fault? = none) :
    ({ tasking.after turn with mappings } : Tasking).turnAt turn.now turn.cluster = turn := by
  simp only [turnAt, after]
  rw [← whole]

/-- Placing the jobs of a submission one after another and ending it leads where the
submission leads without interruption. -/
theorem exists_run_of_mapping {assignments : List Turn.Assignment} {tasking : Tasking}
    {turn : Turn} (begins : tasking.turnAt turn.now turn.cluster = turn)
    (mapping : tasking.mappings.get? session = some ⟨count, assignments⟩) :
    ∃ history, submissions history = [] ∧
      let placed := turn.placeAll assignments
      let final := if placed.fault?.isSome then placed else placed.conclude session count
      (tasking.run history).node = final.node ∧ (tasking.run history).told = final.notices := by
  have whole : turn.fault? = none := congrArg Turn.fault? begins.symm
  induction assignments generalizing tasking turn with
  | nil =>
      refine ⟨[⟨turn.now, turn.cluster, .conclude session⟩], rfl, ?_⟩
      simp only [run_cons, run_nil, perform, mapping, begins, Turn.placeAll, Turn.forEach,
        List.foldl_nil, whole, Option.isSome_none, Bool.false_eq_true, if_false]
      exact ⟨rfl, rfl⟩
  | cons assignment rest ih =>
      have first : turn.placeAll (assignment :: rest) =
          (turn.place assignment.transfer assignment.target).placeAll rest := by
        simp [Turn.placeAll, Turn.forEach, whole]
      have performed : tasking.perform ⟨turn.now, turn.cluster, .place session⟩ =
          let placed := turn.place assignment.transfer assignment.target
          { tasking.after placed with
            mappings :=
              if placed.fault?.isSome then tasking.mappings.erase session
              else tasking.mappings.insert session ⟨count, rest⟩ } := by
        simp only [perform, mapping, begins]
      cases broke : (turn.place assignment.transfer assignment.target).fault? with
      | some fault =>
          refine ⟨[⟨turn.now, turn.cluster, .place session⟩], rfl, ?_⟩
          rw [first, placeAll_of_fault (by rw [broke]; rfl), run_cons, run_nil, performed]
          simp only [broke, Option.isSome_some, if_true]
          exact ⟨rfl, rfl⟩
      | none =>
          simp only [broke, Option.isSome_none, Bool.false_eq_true, if_false] at performed
          obtain ⟨history, none, reached⟩ :=
            ih (turnAt_after tasking _ broke) (Table.get?_insert_self _ _ _) broke
          refine ⟨⟨turn.now, turn.cluster, .place session⟩ :: history, none, ?_⟩
          rw [first, run_cons, performed]
          exact reached

/-- A submission without interruption leads where one of the histories leads that contain
nothing but the submission. -/
theorem exists_run_of_submit (tasking : Tasking) (now : Moment) (cluster : Cluster)
    (session : SessionId) (jobs : List JobSpec) (placement : Placement) :
    ∃ history, submissions history = [(session, jobs)] ∧
      let submitted := ((tasking.turnAt now cluster).submit session jobs placement).2
      (tasking.run history).node = submitted.node ∧
        (tasking.run history).told = submitted.notices := by
  cases accepted : (tasking.turnAt now cluster).accept session jobs placement with
  | mk found next =>
      cases found with
      | error failure =>
          refine ⟨[⟨now, cluster, .submit session jobs placement⟩], rfl, ?_⟩
          simp only [Turn.submit, run_cons, run_nil, perform, accepted]
          exact ⟨rfl, rfl⟩
      | ok pair =>
          obtain ⟨ticket, assignments⟩ := pair
          have whole : next.fault? = none := Turn.fault?_of_accept accepted
          obtain ⟨history, none, reached⟩ :=
            exists_run_of_mapping (turnAt_after tasking _ whole)
              (Table.get?_insert_self tasking.mappings session ⟨assignments.length, assignments⟩)
          refine ⟨⟨now, cluster, .submit session jobs placement⟩ :: history, ?_, ?_⟩
          · simpa [submissions, NodeEvent.submission?] using none
          · simp only [run_cons, perform, accepted, Turn.submit]
            split
            · rename_i fault broke
              simp only [broke, Option.isSome_some, if_true] at reached
              exact reached
            · rename_i sound
              simp only [sound, Option.isSome_none, Bool.false_eq_true, if_false] at reached
              exact reached

end Submission

end Tasking

end JobGrid
