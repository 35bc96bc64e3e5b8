import JobGrid.Proofs.Grid.Handlers
import JobGrid.Proofs.Grid.Membership

/-!
# Histories of a grid

In a grid of any number of nodes anything can happen in any order: nodes join and depart, tasks are
submitted, messages and changes of the grid are read, nodes look through their jobs, and executions
end. Every turn of a node is taken as a whole. A turn in which a rule breaks leaves behind what the
node did until then, and the history goes on, also with turns that the node could not take any
more. A history ends only where a node falls behind the log or a member refuses a report.
-/

namespace JobGrid

/-- What a node can do. -/
inductive NodeTurn where
  | submit (session : SessionId) (jobs : List JobSpec) (placement : Placement)
  /-- The node reads the next message. -/
  | receive
  /-- The node reads the next change in the grid. -/
  | observe
  /-- The node looks through its jobs. -/
  | look
  | complete (execution : Execution)
  | publish
  | restrict (session : SessionId) (nodes : List NodeId)
  /-- From now on other things are left to chance. -/
  | reroll (chance : Chance)

namespace NodeTurn

/-- Takes a turn. Nothing is read by a node that fell behind the log, and only executions of
the node can end. -/
def take? (turn : Turn) : NodeTurn → Option Turn
  | submit session jobs placement => some (turn.submit session jobs placement).2
  | receive => some turn.readMessage.2
  | observe =>
      if turn.cluster.resume turn.node.position = turn.node.position then some turn.readEvent.2
      else none
  | look => some turn.collide
  | complete execution =>
      if execution ∈ turn.node.executions then some (turn.complete execution) else none
  | publish => some turn.publishMetrics
  | restrict session nodes => some (turn.update fun node =>
      { node with restrictions := node.restrictions.register session nodes })
  | reroll chance => some (turn.update fun node => { node with chance })

theorem take?_observe_eq_some {turn next : Turn} : observe.take? turn = some next ↔
    turn.cluster.resume turn.node.position = turn.node.position ∧ next = turn.readEvent.2 := by
  simp [take?, eq_comm]

theorem take?_complete_eq_some {turn next : Turn} {execution : Execution} :
    (complete execution).take? turn = some next ↔
      execution ∈ turn.node.executions ∧ next = turn.complete execution := by
  simp [take?, eq_comm]

/-- The jobs that are submitted. -/
def submitted : NodeTurn → List JobId
  | submit _ jobs _ => jobs.map JobSpec.id
  | _ => []

/-- The session under which a job is submitted, if it is. -/
def session? (job : JobId) : NodeTurn → Option SessionId
  | submit session jobs _ => if job ∈ jobs.map JobSpec.id then some session else none
  | _ => none

end NodeTurn

/-- What can happen in a grid. -/
inductive GridEvent where
  /-- A node joins that was never there before. -/
  | join (config : NodeConfig) (identity : NodeIdentity)
  /-- A member ends its loops and leaves. -/
  | stop (node : NodeId)
  /-- A member fails. It may go on for a while. -/
  | fail (node : NodeId)
  | turn (node : NodeId) (act : NodeTurn)
  | wait (millis : Nat)

namespace GridEvent

/-- The jobs that are submitted. -/
def submitted : GridEvent → List JobId
  | .turn _ act => act.submitted
  | _ => []

/-- Who submits a job, and under which session. -/
def owner? (job : JobId) : GridEvent → Option (NodeId × SessionId)
  | .turn node act => (act.session? job).map fun session => (node, session)
  | _ => none

theorem owner?_eq_none_iff {event : GridEvent} {job : JobId} :
    event.owner? job = none ↔ job ∉ event.submitted := by
  cases event with
  | turn node act =>
      cases act with
      | submit session jobs placement =>
          simp only [owner?, NodeTurn.session?, submitted, NodeTurn.submitted]
          split <;> simp_all
      | _ => simp [owner?, NodeTurn.session?, submitted, NodeTurn.submitted]
  | _ => simp [owner?, submitted]

end GridEvent

/-- The jobs that are submitted in a history. -/
def submittedJobs (history : List GridEvent) : List JobId :=
  history.flatMap GridEvent.submitted

/-- Who submits a job in a history, and under which session. -/
def submitter (history : List GridEvent) : Owners :=
  fun job => history.findSome? (GridEvent.owner? job)

/-- If no job is submitted twice, its submission tells who submits it. -/
theorem submitter_eq {history : List GridEvent} (distinct : (submittedJobs history).Nodup)
    {event : GridEvent} (member : event ∈ history) {job : JobId}
    (submits : job ∈ event.submitted) : submitter history job = event.owner? job := by
  induction history with
  | nil => cases member
  | cons first later ih =>
      have parts : (first.submitted ++ submittedJobs later).Nodup := distinct
      rw [List.nodup_append] at parts
      rw [submitter, List.findSome?_cons]
      cases List.mem_cons.1 member with
      | inl same =>
          subst same
          cases known : event.owner? job with
          | none => exact absurd submits (GridEvent.owner?_eq_none_iff.1 known)
          | some owner => rfl
      | inr inside =>
          have later : job ∈ submittedJobs later := List.mem_flatMap.2 ⟨event, inside, submits⟩
          have other : first.owner? job = none :=
            GridEvent.owner?_eq_none_iff.2 fun earlier => parts.2.2 job earlier job later rfl
          rw [other]
          exact ih parts.2.1 inside

namespace World

/-- Lets a node take a turn in which every report to a member is taken. If a rule breaks, the turn
ends there. -/
def attempt? (world : World) (id : NodeId) (act : NodeTurn) : Option World :=
  (world.nodes.get? id).bind fun node =>
    (act.take? { now := world.now, node, cluster := world.cluster }).bind fun turn =>
      if ∀ report ∈ turn.unreported, (turn.cluster.find? report.1).isNone then
        some (world.act id fun _ => turn)
      else none

/-- Lets something happen. -/
def step? (world : World) : GridEvent → Option World
  | .join config identity =>
      if world.nodes.contains identity.id then none
      else (world.join config identity).toOption
  | .stop node => if (world.cluster.find? node).isSome then some (world.stop node) else none
  | .fail node =>
      if (world.cluster.find? node).isSome then
        some { world with cluster := world.cluster.fail node }
      else none
  | .turn node act => world.attempt? node act
  | .wait millis =>
      if Moment.HasInstant (world.now + millis) then some { world with now := world.now + millis }
      else none

/-- Lets some things happen, one after another. -/
def steps? : World → List GridEvent → Option World
  | world, [] => some world
  | world, event :: later => (world.step? event).bind fun next => next.steps? later

section

variable {world next : World} {event : GridEvent}

theorem attempt?_eq_some {id : NodeId} {act : NodeTurn} : world.attempt? id act = some next ↔
    ∃ node final, world.nodes.get? id = some node ∧
      act.take? { now := world.now, node, cluster := world.cluster } = some final ∧
        (∀ report ∈ final.unreported, (final.cluster.find? report.1).isNone) ∧
          next = world.act id fun _ => final := by
  constructor
  · intro done
    obtain ⟨node, found, rest⟩ := Option.bind_eq_some_iff.1 done
    obtain ⟨final, took, ended⟩ := Option.bind_eq_some_iff.1 rest
    split at ended
    · rename_i heard
      exact ⟨node, final, found, took, heard, (Option.some.inj ended).symm⟩
    · cases ended
  · rintro ⟨node, final, found, took, heard, rfl⟩
    simp only [attempt?, found, took, Option.bind_some, if_pos heard]

/-- What happens in one step: a node joins under a new name, a member departs, a node takes a
turn, or time goes by that a clock can show. -/
inductive Happens (world : World) : GridEvent → World → Prop where
  | join {config : NodeConfig} {identity : NodeIdentity} {next : World}
      (fresh : world.nodes.contains identity.id = false)
      (joined : world.join config identity = .ok next) :
      Happens world (.join config identity) next
  | stop {node : NodeId} (present : (world.cluster.find? node).isSome = true) :
      Happens world (.stop node) (world.stop node)
  | fail {node : NodeId} (present : (world.cluster.find? node).isSome = true) :
      Happens world (.fail node) { world with cluster := world.cluster.fail node }
  | turn {node : NodeId} {act : NodeTurn} {next : World}
      (done : world.attempt? node act = some next) : Happens world (.turn node act) next
  | wait {millis : Nat} (clock : Moment.HasInstant (world.now + millis)) :
      Happens world (.wait millis) { world with now := world.now + millis }

theorem Happens.of_step? (happened : world.step? event = some next) :
    world.Happens event next := by
  cases event with
  | join config identity =>
      simp only [step?] at happened
      split at happened
      · cases happened
      · rename_i fresh
        cases joined : world.join config identity with
        | error refused =>
            rw [joined] at happened
            cases happened
        | ok reached =>
            rw [joined] at happened
            cases happened
            exact .join (Bool.not_eq_true _ ▸ fresh) joined
  | stop node =>
      simp only [step?] at happened
      split at happened
      · rename_i present
        cases happened
        exact .stop present
      · cases happened
  | fail node =>
      simp only [step?] at happened
      split at happened
      · rename_i present
        cases happened
        exact .fail present
      · cases happened
  | turn node act => exact .turn happened
  | wait millis =>
      simp only [step?] at happened
      split at happened
      · rename_i clock
        cases happened
        exact .wait clock
      · cases happened

end

/-! ## Jobs that are nowhere -/

/-- The messages in the inbox of a node. -/
def mail (world : World) (node : Node) : List Message := world.cluster.messages node.inbox

/-- Where a pending job of an origin is. -/
inductive Whereabouts (world : World) (origin : Node) (job : JobId) (noted : NodeId) : Prop where
  /-- The node that was noted for it is a member and has it in its queue. -/
  | queued {node : Node} (found : world.nodes.get? noted = some node)
      (member : (world.cluster.find? noted).isSome = true) (has : job ∈ node.queue.jobs)
  /-- The node that was noted for it is a member, and the job is in its inbox. -/
  | underway {node : Node} {transfer : JobTransfer} (found : world.nodes.get? noted = some node)
      (member : (world.cluster.find? noted).isSome = true)
      (sent : .jobSubmit transfer ∈ world.mail node) (brings : transfer.spec.id = job)
  /-- The job was refused, and its origin has yet to read this. -/
  | refused {rejected : JobRejected} (sent : .jobRejected rejected ∈ world.mail origin)
      (about : rejected.job.spec.id = job)
  /-- The job was done, and its origin has yet to read this. -/
  | done {result : JobResult} (sent : .jobResult result ∈ world.mail origin)
      (about : result.job = job)
  /-- The node that was noted for it departed, and its origin has yet to read this. -/
  | gone (absent : world.cluster.find? noted = none)
      (unread : world.cluster.Tells origin.position noted)

/-- A job is pending for a member and is nowhere. -/
def Astray (world : World) (job : JobId) : Prop :=
  ∃ id origin session task placed, world.nodes.get? id = some origin ∧
    (world.cluster.find? id).isSome = true ∧ origin.tasks.get? session = some task ∧
    task.pending.get? job = some placed ∧ ¬ world.Whereabouts origin job placed.node

/-- A rule breaks in a turn, and a job goes astray in this very turn. -/
structure Loses (world : World) (id : NodeId) (act : NodeTurn) (job : JobId) (node : Node)
    (final : Turn) : Prop where
  found : world.nodes.get? id = some node
  took : act.take? { now := world.now, node, cluster := world.cluster } = some final
  broke : final.fault?.isSome = true
  before : ¬ world.Astray job
  after : (world.act id fun _ => final).Astray job

/-- A job went astray in a turn of a history in which a rule broke. -/
def LostIn (job : JobId) : World → List GridEvent → Prop
  | _, [] => False
  | world, event :: later =>
      (∃ id act node final, event = .turn id act ∧ world.Loses id act job node final) ∨
        ∃ next, world.step? event = some next ∧ LostIn job next later

end World

end JobGrid
