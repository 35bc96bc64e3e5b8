import JobGrid.Proofs.Node.Pick

/-!
# What turns do to tasks

A turn changes the tasks of a node in three ways: a pending job is noted on a node, the result
of a pending job is entered, or a task ends and its outcome is told. Whatever these single moves
keep is kept by every turn, whatever arrives.
-/

namespace JobGrid

/-- What every single move of a task keeps. -/
structure TaskMoves (keeps : Table SessionId TaskState → List Notice → Prop) : Prop where
  assign : ∀ {tasks : Table SessionId TaskState} {told : List Notice} (transfer : JobTransfer)
    (node : NodeId), keeps tasks told →
    keeps (tasks.modify transfer.session fun task => task.assign transfer node) told
  enter : ∀ {tasks : Table SessionId TaskState} {told : List Notice} {task : TaskState}
    {result : JobResult}, keeps tasks told → tasks.get? result.session = some task →
    task.isPending result.job = true →
    keeps (tasks.insert result.session (task.enter result)) told
  close : ∀ {tasks : Table SessionId TaskState} {told : List Notice} {task : TaskState}
    {session : SessionId} {error : Option String}, keeps tasks told →
    tasks.get? session = some task → (error = none → task.pending.isEmpty = true) →
    keeps (tasks.erase session)
      (told ++ [.finished task.ticket ⟨session, task.results, error⟩])

namespace Turn

/-- What holds of the tasks of the node and of what was told. -/
def Holds (keeps : Table SessionId TaskState → List Notice → Prop) (turn : Turn) : Prop :=
  keeps turn.node.tasks turn.notices

/-- Between two moments of a turn no task changed and nothing was told. -/
structure SameTasks (earlier later : Turn) : Prop where
  tasks : later.node.tasks = earlier.node.tasks
  notices : later.notices = earlier.notices

namespace SameTasks

protected theorem refl (turn : Turn) : SameTasks turn turn := ⟨rfl, rfl⟩

protected theorem trans {first second third : Turn} (left : SameTasks first second)
    (right : SameTasks second third) : SameTasks first third :=
  ⟨right.tasks.trans left.tasks, right.notices.trans left.notices⟩

theorem holds {keeps : Table SessionId TaskState → List Notice → Prop} {earlier later : Turn}
    (same : SameTasks earlier later) (held : earlier.Holds keeps) : later.Holds keeps := by
  rw [Holds, same.tasks, same.notices]
  exact held

end SameTasks

section Untouched

variable {turn next : Turn}

theorem sameTasks_of_hold {transfer : JobTransfer} (held : turn.hold transfer = .ok next) :
    SameTasks turn next := by
  obtain ⟨-, rfl⟩ := hold_eq_ok.1 held
  exact ⟨rfl, rfl⟩

theorem sameTasks_of_send {receiver : NodeId} {message : Message}
    (sent : turn.send receiver message = .ok next) : SameTasks turn next := by
  obtain ⟨cluster, -, rfl⟩ := Result.map_eq_ok.1 sent
  exact ⟨rfl, rfl⟩

theorem sameTasks_trySend (turn : Turn) (receiver : NodeId) (message : Message) :
    SameTasks turn (turn.trySend receiver message) := by
  cases sent : turn.send receiver message with
  | error refused =>
      simp only [trySend, sent]
      exact .refl turn
  | ok next =>
      simp only [trySend, sent]
      exact sameTasks_of_send sent

theorem sameTasks_report (turn : Turn) (origin : NodeId) (message : Message) :
    SameTasks turn (turn.report origin message) := by
  cases sent : turn.send origin message with
  | error refused =>
      simp only [report, sent]
      exact ⟨rfl, rfl⟩
  | ok next =>
      simp only [report, sent]
      exact sameTasks_of_send sent

theorem sameTasks_of_deliver {target : NodeId} {transfer : JobTransfer}
    (delivered : turn.deliver target transfer = .ok next) : SameTasks turn next := by
  cases Delivered.of_deliver delivered with
  | here _ took => exact (sameTasks_of_hold took).trans ⟨rfl, rfl⟩
  | there _ sent => exact sameTasks_of_send sent

theorem sameTasks_of_picks (picks : Picks turn next) : SameTasks turn next := by
  obtain ⟨_, _, rfl⟩ := picks
  exact ⟨rfl, rfl⟩

theorem sameTasks_of_failover {maxAttempts : UInt32} {transfer : JobTransfer}
    {rejectedBy target : NodeId} {thief : Option NodeId}
    (routed : turn.failover maxAttempts transfer rejectedBy thief = .ok (target, next)) :
    SameTasks turn next :=
  sameTasks_of_picks (picks_of_failover routed)

theorem sameTasks_onStealRequest (turn : Turn) (sender : NodeId) (request : StealRequest) :
    SameTasks turn (turn.onStealRequest sender request) := by
  simp only [onStealRequest]
  split
  · exact ⟨rfl, rfl⟩
  · split
    · exact ⟨rfl, rfl⟩
    · exact ⟨rfl, rfl⟩

theorem sameTasks_execute (turn : Turn) (ref : JobRef) : SameTasks turn (turn.execute ref) := by
  simp only [execute]
  split
  · exact .refl turn
  · split
    · exact .refl turn
    · exact ⟨rfl, rfl⟩

theorem sameTasks_sendRequests (turn : Turn) (requests : List SentRequest) :
    SameTasks turn (turn.sendRequests requests) := by
  induction requests generalizing turn with
  | nil => exact .refl turn
  | cons request rest ih =>
      exact (sameTasks_trySend turn request.peer (.stealRequest ⟨request.jobs⟩)).trans (ih _)

theorem sameTasks_publishMetrics (turn : Turn) : SameTasks turn turn.publishMetrics := by
  simp only [publishMetrics]
  split
  · exact ⟨rfl, rfl⟩
  · exact ⟨rfl, rfl⟩

/-- Most turns end with a request for a look through the jobs, unless a rule broke. -/
theorem sameTasks_lookNext (turn : Turn) :
    SameTasks turn (if turn.fault?.isSome then turn else turn.requestCollision) := by
  split
  · exact .refl turn
  · exact ⟨rfl, rfl⟩

end Untouched

section Moves

variable {keeps : Table SessionId TaskState → List Notice → Prop} {turn : Turn}

/-- What is kept by an action is kept when it is done for each of some items. -/
theorem holds_forEach {α : Type} {act : Turn → α → Turn}
    (step : ∀ (turn : Turn) (item : α), turn.Holds keeps → (act turn item).Holds keeps)
    (items : List α) (held : turn.Holds keeps) : (turn.forEach items act).Holds keeps := by
  induction items generalizing turn with
  | nil => exact held
  | cons item rest ih =>
      rw [forEach, List.foldl_cons]
      apply ih
      split
      · exact held
      · exact step turn item held

namespace Holds

variable (moves : TaskMoves keeps)

include moves

theorem record (held : turn.Holds keeps) (transfer : JobTransfer) (target : NodeId) :
    (turn.record transfer target).Holds keeps :=
  moves.assign transfer target held

/-- A task may end with an error at any time, and without one when no job is pending. -/
theorem finish {session : SessionId} {error : Option String} (held : turn.Holds keeps)
    (done : ∀ task, turn.node.tasks.get? session = some task → error = none →
      task.pending.isEmpty = true) :
    (turn.finish session error).Holds keeps := by
  cases found : turn.node.tasks.get? session with
  | none => simpa only [Turn.finish, found] using held
  | some task =>
      simp only [Turn.finish, found]
      exact moves.close held found (done task found)

theorem fail (held : turn.Holds keeps) (session : SessionId) (cause : String) :
    (turn.finish session (some cause)).Holds keeps :=
  held.finish moves (by simp)

theorem onResult (held : turn.Holds keeps) (result : JobResult) :
    (turn.onResult result).Holds keeps := by
  cases found : turn.node.tasks.get? result.session with
  | none => simpa only [Turn.onResult, found] using held
  | some task =>
      cases pending : task.isPending result.job with
      | false =>
          simp only [Turn.onResult, found, pending, Bool.false_eq_true, if_false]
          exact held
      | true =>
          simp only [Turn.onResult, found, pending, if_true]
          have entered := moves.enter held found pending
          split
          · rename_i last
            apply Holds.finish moves
            · exact entered
            · intro final stored _
              rw [update, Table.get?_insert_self, Option.some.injEq] at stored
              exact stored ▸ last
          · exact entered

theorem placeWithin (held : turn.Holds keeps) (maxAttempts : UInt32) (transfer : JobTransfer)
    (target : NodeId) : (turn.placeWithin maxAttempts transfer target).Holds keeps := by
  fun_induction Turn.placeWithin maxAttempts turn transfer target with
  | case1 turn transfer target delivered arrived =>
      exact ((sameTasks_of_deliver arrived).holds held).record moves transfer target
  | case2 turn transfer target refused _ next routed found ih =>
      exact ih ((sameTasks_of_failover found).holds held)
  | case3 turn transfer target refused _ cause found =>
      exact held.fail moves transfer.session cause.message
  | case4 turn transfer target refused _ fault found => exact held

theorem place (held : turn.Holds keeps) (transfer : JobTransfer) (target : NodeId) :
    (turn.place transfer target).Holds keeps :=
  held.placeWithin moves _ transfer target

theorem onRejected (held : turn.Holds keeps) (rejected : JobRejected) :
    (turn.onRejected rejected).Holds keeps := by
  simp only [Turn.onRejected]
  split
  · split
    · rename_i found
      exact ((sameTasks_of_failover found).holds held).place moves _ _
    · exact held.fail moves _ _
    · exact held
  · exact held

theorem reroute (held : turn.Holds keeps) (departed : NodeId) :
    (turn.reroute departed).Holds keeps :=
  holds_forEach (fun _ _ held => held.onRejected moves _) _ held

theorem reportRejected (held : turn.Holds keeps) (job : JobHandle) (thief : Option NodeId) :
    (turn.reportRejected job thief).Holds keeps := by
  simp only [Turn.reportRejected]
  split
  · exact held.onRejected moves _
  · exact (sameTasks_report turn _ _).holds held

theorem reportResult (held : turn.Holds keeps) (report : ExecutionReport) :
    (turn.reportResult report).Holds keeps := by
  simp only [Turn.reportResult]
  split
  · exact held.onResult moves _
  · exact (sameTasks_report turn _ _).holds held

theorem onEvent (held : turn.Holds keeps) (event : DiscoveryEvent) :
    (turn.onEvent event).Holds keeps := by
  cases noted : turn.node.resolver.onEvent turn.node.id event with
  | error fault =>
      simp only [Turn.onEvent, noted]
      exact held
  | ok resolver =>
      simp only [Turn.onEvent, noted]
      apply (sameTasks_lookNext _).holds
      split
      · apply Holds.reroute moves
        exact held
      · exact held

theorem onSubmitted (held : turn.Holds keeps) (transfer : JobTransfer) :
    (turn.onSubmitted transfer).Holds keeps := by
  apply (sameTasks_lookNext _).holds
  cases taken : turn.hold transfer with
  | error refused => exact held.reportRejected moves _ _
  | ok next => exact (sameTasks_of_hold taken).holds held

theorem onMessage (held : turn.Holds keeps) (envelope : Envelope) :
    (turn.onMessage envelope).Holds keeps := by
  simp only [Turn.onMessage]
  split
  · exact (sameTasks_onStealRequest turn _ _).holds held
  · exact held.onSubmitted moves _
  · exact held.onRejected moves _
  · exact held.onResult moves _
  · exact held

theorem handOff (held : turn.Holds keeps) (ref : JobRef) : (turn.handOff ref).Holds keeps := by
  simp only [Turn.handOff]
  split
  · exact held
  · split
    · apply Holds.reportRejected moves
      exact held
    · exact held.reportRejected moves _ _

theorem settle (held : turn.Holds keeps) : turn.settle.Holds keeps := by
  simp only [Turn.settle]
  apply holds_forEach fun turn job held => (sameTasks_execute turn job.ref).holds held
  exact holds_forEach (fun turn job held => handOff moves held job.ref) _ held

theorem collide (held : turn.Holds keeps) : turn.collide.Holds keeps := by
  have requested := (sameTasks_sendRequests (turn.update fun node => { node with
    resolver := turn.pass.resolver
    store := turn.pass.store
    attention := node.attention.take }) turn.pass.requests).holds held
  simp only [Turn.collide]
  split
  · exact requested
  · exact requested.settle moves

theorem complete (held : turn.Holds keeps) (execution : Execution) :
    (turn.complete execution).Holds keeps := by
  cases found : turn.node.store.get? execution.job with
  | none => simpa only [Turn.complete, found] using held
  | some job =>
      simp only [Turn.complete, found]
      apply (sameTasks_lookNext _).holds
      apply Holds.reportResult moves
      exact held

end Holds

end Moves

end Turn

end JobGrid
