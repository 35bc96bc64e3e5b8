import JobGrid.Proofs.Grid.Log
import JobGrid.Proofs.Grid.Mail
import JobGrid.Proofs.Node.Custody
import JobGrid.Proofs.Node.Walk

/-!
# Answers about jobs

A node answers for a job when it refuses the job, gave it away or has executed it. An answer is one
letter to the origin of the job, or a warning if the letter is refused; an answer to the node itself
is dealt with as if it had come as a letter. By the letters and the warnings that are new after a
step of a node, each step gives one answer or none.
-/

namespace JobGrid

/-- Whether a letter is an answer about a job. -/
def Envelope.isAnswer (letter : Envelope) : Bool :=
  letter.topic = Topic.jobRejected || letter.topic = Topic.jobResult

theorem Cluster.letters_of_send {cluster next : Cluster} {sender receiver : NodeId}
    {topic : String} {payload : Bytes}
    (sent : cluster.send sender receiver topic payload = .ok next) (ref : MailboxRef) :
    ∃ more, (next.mailbox ref).letters = (cluster.mailbox ref).letters ++ more ∧
      ∀ letter ∈ more, letter.topic = topic := by
  obtain ⟨inbox, -, -, -, rfl⟩ := send_eq_ok.1 sent
  by_cases present : inbox < cluster.mailboxes.size
  · rw [mailbox_setMailbox present]
    split
    · rename_i same
      exact ⟨[_], by rw [same], by simp⟩
    · exact ⟨[], by simp, by simp⟩
  · rw [setMailbox_of_absent present]
    exact ⟨[], by simp, by simp⟩

namespace Turn

variable {turn middle next : Turn} {origin : NodeId} {message : Message}

/-! ## Steps without an answer -/

/-- Between two moments of a turn, no answer was sent or refused. -/
structure Silent (turn next : Turn) : Prop where
  unreported : next.unreported = turn.unreported
  letters : ∀ ref, ∃ more,
    (next.cluster.mailbox ref).letters = (turn.cluster.mailbox ref).letters ++ more ∧
      ∀ letter ∈ more, letter.isAnswer = false

namespace Silent

protected theorem refl (turn : Turn) : Silent turn turn :=
  ⟨rfl, fun _ => ⟨[], (List.append_nil _).symm, nofun⟩⟩

protected theorem trans (first : Silent turn middle) (second : Silent middle next) :
    Silent turn next where
  unreported := second.unreported.trans first.unreported
  letters ref := by
    obtain ⟨more, earlier, before⟩ := first.letters ref
    obtain ⟨rest, later, after⟩ := second.letters ref
    refine ⟨more ++ rest, by rw [later, earlier, List.append_assoc], ?_⟩
    rw [List.forall_mem_append]
    exact ⟨before, after⟩

theorem of_same (cluster : next.cluster = turn.cluster)
    (unreported : next.unreported = turn.unreported) : Silent turn next where
  unreported := unreported
  letters _ := ⟨[], by rw [cluster, List.append_nil], nofun⟩

/-- Other letters may be sent. -/
theorem of_send {receiver : NodeId} (sent : turn.send receiver message = .ok next)
    (other : message.topic ≠ Topic.jobRejected ∧ message.topic ≠ Topic.jobResult) :
    Silent turn next := by
  obtain ⟨cluster, posted, rfl⟩ := Result.map_eq_ok.1 sent
  refine ⟨rfl, fun ref => ?_⟩
  obtain ⟨more, letters, topics⟩ := Cluster.letters_of_send posted ref
  refine ⟨more, letters, fun letter inside => ?_⟩
  simp [Envelope.isAnswer, topics letter inside, other]

theorem of_deliver {target : NodeId} {transfer : JobTransfer}
    (delivered : turn.deliver target transfer = .ok next) : Silent turn next := by
  cases Delivered.of_deliver delivered with
  | here _ took =>
      obtain ⟨-, rfl⟩ := hold_eq_ok.1 took
      exact .of_same rfl rfl
  | there _ sent => exact .of_send sent (show Topic.jobSubmit ≠ _ ∧ Topic.jobSubmit ≠ _ by decide)

theorem finish (turn : Turn) (session : SessionId) (error : Option String) :
    Silent turn (turn.finish session error) := by
  simp only [Turn.finish]
  split
  · exact .refl turn
  · exact .of_same rfl rfl

theorem lookNext (silent : Silent turn next) :
    Silent turn (if next.fault?.isSome then next else next.requestCollision) := by
  split
  · exact silent
  · exact silent.trans (.of_same rfl rfl)

theorem sendRequests (turn : Turn) (requests : List SentRequest) :
    Silent turn (turn.sendRequests requests) := by
  induction requests generalizing turn with
  | nil => exact .refl turn
  | cons request rest ih =>
      refine Silent.trans ?_ (ih _)
      simp only [trySend]
      split
      · rename_i sent
        exact .of_send sent (show Topic.stealRequest ≠ _ ∧ Topic.stealRequest ≠ _ by decide)
      · exact .refl turn

end Silent

/-- Jobs are placed and tasks are updated without an answer. -/
theorem steps_silent (turn : Turn) : Steps (Silent turn) fun _ _ => True where
  aside silent aside := silent.trans (.of_same aside.cluster aside.unreported)
  deliver silent _ delivered := silent.trans (.of_deliver delivered)
  note silent _ := silent.trans (.of_same rfl rfl)
  finish silent := silent.trans (.finish _ _ _)
  covers _ _ := fun _ _ _ _ => trivial

/-! ## One answer -/

/-- Between two moments of a turn, nothing changed that letters, warnings and tasks consist of. -/
structure Beside (turn next : Turn) : Prop where
  id : next.node.id = turn.node.id
  cluster : next.cluster = turn.cluster
  unreported : next.unreported = turn.unreported
  notices : next.notices = turn.notices
  tasks : next.node.tasks = turn.node.tasks

/-- How a node deals with an answer: a result is entered, a rejected job is placed again. -/
def answered (turn : Turn) : Message → Turn
  | .jobResult result => turn.onResult result
  | .jobRejected rejected => turn.onRejected rejected
  | .stealRequest _ | .jobSubmit _ => turn

/-- Between two moments of a turn, one answer was given to the origin of a job and no other one.
What the node keeps in mind about its own jobs may change before and after. -/
inductive Answers (turn next : Turn) (origin : NodeId) (message : Message) : Prop where
  | sent (elsewhere : origin ≠ turn.node.id)
      (posted : turn.cluster.send turn.node.id origin message.topic message.encode =
        .ok next.cluster)
      (unreported : next.unreported = turn.unreported)
  | warned (elsewhere : origin ≠ turn.node.id) {cause : PlacementError}
      (refused : turn.cluster.send turn.node.id origin message.topic message.encode =
        .error cause)
      (cluster : next.cluster = turn.cluster)
      (unreported : next.unreported = turn.unreported ++ [(origin, message)])
  | own (here : origin = turn.node.id) {before : Turn} (begins : Beside turn before)
      (ends : Beside (before.answered message) next) (silent : Silent turn next)

namespace Beside

protected theorem refl (turn : Turn) : Beside turn turn := ⟨rfl, rfl, rfl, rfl, rfl⟩

protected theorem trans (first : Beside turn middle) (second : Beside middle next) :
    Beside turn next where
  id := second.id.trans first.id
  cluster := second.cluster.trans first.cluster
  unreported := second.unreported.trans first.unreported
  notices := second.notices.trans first.notices
  tasks := second.tasks.trans first.tasks

theorem silent (beside : Beside turn next) : Silent turn next :=
  .of_same beside.cluster beside.unreported

theorem lookNext (turn : Turn) :
    Beside turn (if turn.fault?.isSome then turn else turn.requestCollision) := by
  split
  · exact .refl turn
  · exact ⟨rfl, rfl, rfl, rfl, rfl⟩

end Beside

theorem Answers.beside {before : Turn} (begins : Beside before turn)
    (answers : Answers turn next origin message) (ends : Beside next middle) :
    Answers before middle origin message := by
  cases answers with
  | sent elsewhere posted unreported =>
      rw [begins.id, begins.cluster, ← ends.cluster] at posted
      exact .sent (begins.id ▸ elsewhere) posted
        (ends.unreported.trans (unreported.trans begins.unreported))
  | warned elsewhere refused cluster unreported =>
      rw [begins.id, begins.cluster] at refused
      rw [begins.unreported] at unreported
      exact .warned (begins.id ▸ elsewhere) refused
        (ends.cluster.trans (cluster.trans begins.cluster)) (ends.unreported.trans unreported)
  | own here first last silent =>
      exact .own (begins.id ▸ here) (begins.trans first) (last.trans ends)
        (begins.silent.trans (silent.trans ends.silent))

theorem answers_report (elsewhere : origin ≠ turn.node.id) (message : Message) :
    Answers turn (turn.report origin message) origin message := by
  cases posted : turn.cluster.send turn.node.id origin message.topic message.encode with
  | error cause =>
      have failed : turn.send origin message = .error cause := by rw [send, posted]; rfl
      simp only [report, failed]
      exact .warned elsewhere posted rfl rfl
  | ok cluster =>
      have arrived : turn.send origin message = .ok { turn with cluster } := by
        rw [send, posted]
        rfl
      simp only [report, arrived]
      exact .sent elsewhere posted rfl

/-- What is reported of a job that was refused or given away. -/
def rejection (turn : Turn) (job : JobHandle) (thief : Option NodeId) : Message :=
  .jobRejected ⟨.ofHandle job, turn.node.id, thief⟩

/-- What is reported of a job whose execution ended. -/
def resultOf (turn : Turn) (report : ExecutionReport) : Message :=
  .jobResult {
    session := report.session
    job := report.job
    executedBy := turn.node.id
    stealingAttempts := report.stealingAttempts
    completedAt := turn.now.timestamp }

theorem answers_reportRejected (begins : Beside turn middle) (job : JobHandle)
    (thief : Option NodeId) :
    Answers turn (middle.reportRejected job thief) job.origin (turn.rejection job thief) := by
  have answers : Answers middle (middle.reportRejected job thief) job.origin
      (middle.rejection job thief) := by
    simp only [reportRejected]
    split
    · rename_i here
      exact .own here (.refl middle) (.refl _) ((steps_silent middle).onRejected (.refl middle) _)
    · rename_i elsewhere
      exact answers_report elsewhere _
  rw [rejection, begins.id] at answers
  exact answers.beside begins (.refl _)

theorem answers_reportResult (begins : Beside turn middle) (now : middle.now = turn.now)
    (report : ExecutionReport) :
    Answers turn (middle.reportResult report) report.origin (turn.resultOf report) := by
  have answers : Answers middle (middle.reportResult report) report.origin
      (middle.resultOf report) := by
    simp only [reportResult]
    split
    · rename_i here
      exact .own here (.refl middle) (.refl _) ((steps_silent middle).onResult (.refl middle) _)
    · rename_i elsewhere
      exact answers_report elsewhere _
  rw [resultOf, begins.id, now] at answers
  exact answers.beside begins (.refl _)

/-- A job that left the queue is reported as rejected. -/
theorem answers_handOff {ref : JobRef} {job : JobHandle}
    (found : turn.node.store.get? ref = some job) :
    Answers turn (turn.handOff ref) job.origin (turn.rejection job job.thief) := by
  simp only [handOff, found]
  split
  · refine answers_reportRejected ?_ job job.thief
    exact ⟨rfl, rfl, rfl, rfl, rfl⟩
  · exact answers_reportRejected (.refl turn) job job.thief

/-- The result of a job is reported when it leaves the queue. -/
theorem answers_dismiss {execution : Execution} {job : JobHandle}
    (found : turn.node.store.get? execution.job = some job) :
    Answers turn (turn.dismiss execution) job.origin (turn.resultOf (execution.report job)) := by
  simp only [dismiss, found]
  refine Answers.beside (.refl turn) (answers_reportResult ?_ ?_ (execution.report job))
    (.lookNext _)
  · exact ⟨rfl, rfl, rfl, rfl, rfl⟩
  · rfl

/-- A job that comes and is not taken is reported as rejected. -/
theorem answers_onSubmitted {transfer : JobTransfer}
    (refused : turn.node.queue.accepts transfer.spec.id = false) :
    Answers turn (turn.onSubmitted transfer) transfer.origin
      (turn.rejection (transfer.toHandle turn.now) none) := by
  have full : turn.hold transfer = .error .queueFull := by
    simp only [hold, refused, Bool.false_eq_true, if_false]
  simp only [onSubmitted, full]
  exact Answers.beside (.refl turn)
    (answers_reportRejected (.refl turn) (transfer.toHandle turn.now) none) (.lookNext _)

/-- A job that comes and is taken is not answered for yet. -/
theorem silent_onSubmitted {transfer : JobTransfer}
    (accepts : turn.node.queue.accepts transfer.spec.id = true) :
    Silent turn (turn.onSubmitted transfer) := by
  refine Silent.lookNext ?_
  cases took : turn.hold transfer with
  | error refused =>
      simp only [hold, accepts, if_true] at took
      cases took
  | ok next =>
      obtain ⟨-, rfl⟩ := hold_eq_ok.1 took
      exact .of_same rfl rfl

/-- A task is submitted without an answer. -/
theorem silent_accept (turn : Turn) (session : SessionId) (jobs : List JobSpec)
    (placement : Placement) : Silent turn (turn.accept session jobs placement).2 := by
  cases accepted : turn.accept session jobs placement with
  | mk found next =>
      cases found with
      | error failure =>
          obtain ⟨_, _, rfl⟩ := picks_of_accept accepted
          exact .of_same rfl rfl
      | ok pair =>
          obtain ⟨picked, ⟨_, _, rfl⟩, rfl, -⟩ := accepted_of_accept accepted
          simp only [track]
          split
          · exact .of_same rfl rfl
          · exact .of_same rfl rfl

theorem silent_execute (turn : Turn) (ref : JobRef) : Silent turn (turn.execute ref) := by
  simp only [execute]
  split
  · exact .refl turn
  · split
    · exact .refl turn
    · exact .of_same rfl rfl

theorem silent_publishMetrics (turn : Turn) : Silent turn turn.publishMetrics := by
  simp only [publishMetrics]
  split
  · rename_i cluster updated
    obtain ⟨-, mailboxes, -⟩ := Cluster.publish_of_updateMetrics updated
    refine ⟨rfl, fun ref => ⟨[], ?_, nofun⟩⟩
    rw [List.append_nil]
    exact congrArg (fun boxes : Array Mailbox => (boxes.getD ref {}).letters) mailboxes
  · exact .of_same rfl rfl

end Turn

/-! ## Steps of a node -/

namespace Tasking

/-- The only thing that a node reacts to with an answer, in one step, is a job that it does not
take. -/
inductive Responds (tasking : Tasking) (event : NodeEvent) : Prop where
  | refuses {envelope : Envelope} {transfer : JobTransfer}
      (action : event.action = .message envelope)
      (said : Message.decode envelope.topic envelope.payload = .ok (.jobSubmit transfer))
      (refused : tasking.node.queue.accepts transfer.spec.id = false)
      (answers : (tasking.turnAt event.now event.cluster).Answers (tasking.turnOf event)
        transfer.origin
        ((tasking.turnAt event.now event.cluster).rejection (transfer.toHandle event.now) none))
  | silent (silent : (tasking.turnAt event.now event.cluster).Silent (tasking.turnOf event))

/-- A message is dealt with silently, unless it brings a job that the node does not take. -/
theorem responds_of_message {tasking : Tasking} {event : NodeEvent} {envelope : Envelope}
    (action : event.action = .message envelope) : tasking.Responds event := by
  have steps := (tasking.turnAt event.now event.cluster).steps_silent
  have begins := Turn.Silent.refl (tasking.turnAt event.now event.cluster)
  have reacts : tasking.turnOf event =
      (tasking.turnAt event.now event.cluster).onMessage envelope := by
    simp only [turnOf, action]
  cases said : Message.decode envelope.topic envelope.payload with
  | error unclear =>
      simp only [Turn.onMessage, said] at reacts
      exact .silent (reacts ▸ begins)
  | ok message =>
      simp only [Turn.onMessage, said] at reacts
      cases message with
      | stealRequest request =>
          exact .silent (reacts ▸ steps.aside begins (Turn.aside_onStealRequest _ _ request))
      | jobSubmit transfer =>
          cases accepts : tasking.node.queue.accepts transfer.spec.id with
          | false =>
              refine .refuses action said accepts ?_
              rw [reacts]
              exact Turn.answers_onSubmitted accepts
          | true => exact .silent (reacts ▸ Turn.silent_onSubmitted accepts)
      | jobRejected rejected => exact .silent (reacts ▸ steps.onRejected begins rejected)
      | jobResult result => exact .silent (reacts ▸ steps.onResult begins result)

theorem responds (tasking : Tasking) (event : NodeEvent)
    (single : event.action.isComposed = false) : tasking.Responds event := by
  have steps := (tasking.turnAt event.now event.cluster).steps_silent
  have begins := Turn.Silent.refl (tasking.turnAt event.now event.cluster)
  cases action : event.action with
  | submit session jobs placement =>
      refine .silent ?_
      simp only [turnOf, action]
      exact Turn.silent_accept _ session jobs placement
  | place session =>
      refine .silent ?_
      simp only [turnOf, action]
      split
      · exact steps.place begins (fun _ _ _ _ => trivial) trivial
      · exact begins
  | conclude session =>
      refine .silent ?_
      simp only [turnOf, action]
      split
      · exact steps.conclude begins session _
      · exact begins
  | message envelope => exact responds_of_message action
  | discover found =>
      refine .silent ?_
      simp only [turnOf, action]
      exact steps.onEvent begins found
  | look =>
      rw [action] at single
      cases single
  | complete execution =>
      rw [action] at single
      cases single
  | publish =>
      refine .silent ?_
      simp only [turnOf, action]
      exact Turn.silent_publishMetrics _
  | restrict session nodes | reroll chance =>
      refine .silent ?_
      simp only [turnOf, action]
      exact .of_same rfl rfl

end Tasking

namespace Custody

/-- The turn of the node in which something happens. -/
def turnOf (custody : Custody) (event : CustodyEvent) : Turn :=
  let turn := custody.tasking.turnAt event.now event.cluster
  match event.action, custody.stage with
  | .react action, _ =>
      if action.isComposed then turn
      else custody.tasking.turnOf ⟨event.now, event.cluster, action⟩
  | .watch, .rests => turn.update fun node => { node with attention := node.attention.take }
  | .decide, .watches waiting active =>
      let pass := passOver turn waiting active
      (turn.update fun node => { node with
        resolver := pass.resolver
        store := pass.store }).sendRequests pass.requests
  | .settle, .decided =>
      let settled := turn.node.queue.settled turn.node.store
      turn.update fun node => { node with
        queue := node.queue.settle node.store
        tracker := node.tracker.recordCancelled settled.cancelled.length }
  | .report, .sorts (ref :: _) _ => turn.handOff ref
  | .launch, .sorts [] (ref :: _) => turn.execute ref
  | .count execution, _ =>
      if execution ∈ turn.node.executions ∧ execution ∉ custody.record.counted then
        turn.count execution
      else turn
  | .finish execution, _ =>
      if execution ∈ custody.record.counted then turn.dismiss execution else turn
  | .watch, _ | .decide, _ | .settle, _ | .report, _ | .launch, _ => turn

/-- The step of the record that goes with a step of the node: a job is entered as executed when its
result is reported, and as reported when its rejection is, each with one answer to its origin. Jobs
that the queue refuses are answered for too, and all other steps are silent. -/
inductive Reports (custody : Custody) (event : CustodyEvent) : Prop where
  | result {execution : Execution} {job : JobHandle} (action : event.action = .finish execution)
      (found : custody.node.store.get? execution.job = some job)
      (executed : (custody.perform event).record.executed =
        custody.record.executed ++ [execution.job])
      (reported : (custody.perform event).record.reported = custody.record.reported)
      (answers : (custody.tasking.turnAt event.now event.cluster).Answers (custody.turnOf event)
        job.origin ((custody.tasking.turnAt event.now event.cluster).resultOf
          (execution.report job)))
  | rejection {ref : JobRef} {job : JobHandle} (action : event.action = .report)
      (found : custody.node.store.get? ref = some job) (stolen : job.thief.isSome = true)
      (executed : (custody.perform event).record.executed = custody.record.executed)
      (reported : (custody.perform event).record.reported = custody.record.reported ++ [ref])
      (answers : (custody.tasking.turnAt event.now event.cluster).Answers (custody.turnOf event)
        job.origin ((custody.tasking.turnAt event.now event.cluster).rejection job job.thief))
  | refusal {transfer : JobTransfer}
      (refused : custody.node.queue.accepts transfer.spec.id = false)
      (same : (custody.perform event).record = custody.record)
      (answers : (custody.tasking.turnAt event.now event.cluster).Answers (custody.turnOf event)
        transfer.origin ((custody.tasking.turnAt event.now event.cluster).rejection
          (transfer.toHandle event.now) none))
  | silence (executed : (custody.perform event).record.executed = custody.record.executed)
      (reported : (custody.perform event).record.reported = custody.record.reported)
      (silent : (custody.tasking.turnAt event.now event.cluster).Silent (custody.turnOf event))

theorem Reports.idle {custody : Custody} {event : CustodyEvent}
    (same : custody.perform event = custody)
    (idles : custody.turnOf event = custody.tasking.turnAt event.now event.cluster) :
    custody.Reports event :=
  .silence (by rw [same]) (by rw [same]) (idles ▸ .refl _)

section Reports

variable {custody : Custody} {event : CustodyEvent}

theorem reports_of_react {reaction : NodeAction} (action : event.action = .react reaction) :
    custody.Reports event := by
  cases composed : reaction.isComposed with
  | true =>
      exact .idle (by simp only [perform, action, composed, if_true])
        (by simp only [turnOf, action, composed, if_true])
  | false =>
      have same : (custody.perform event).record = custody.record := by
        simp only [perform, action, composed, Bool.false_eq_true, if_false]
      have reacts : custody.turnOf event =
          custody.tasking.turnOf ⟨event.now, event.cluster, reaction⟩ := by
        simp only [turnOf, action, composed, Bool.false_eq_true, if_false]
      cases custody.tasking.responds ⟨event.now, event.cluster, reaction⟩ composed with
      | refuses _ _ refused answers => exact .refusal refused same (reacts ▸ answers)
      | silent silent => exact .silence (congrArg _ same) (congrArg _ same) (reacts ▸ silent)

theorem reports_of_watch (action : event.action = .watch) : custody.Reports event := by
  cases stage : custody.stage with
  | rests =>
      refine .silence ?_ ?_ (.of_same ?_ ?_) <;> simp only [perform, turnOf, action, stage] <;> rfl
  | watches | decided | sorts | broken =>
      exact .idle (by simp only [perform, action, stage]) (by simp only [turnOf, action, stage])

theorem reports_of_decide (action : event.action = .decide) : custody.Reports event := by
  cases stage : custody.stage with
  | watches waiting active =>
      refine .silence ?_ ?_ ?_ <;> simp only [perform, turnOf, action, stage]
      refine Turn.Silent.trans ?_ (.sendRequests _ _)
      exact .of_same rfl rfl
  | rests | decided | sorts | broken =>
      exact .idle (by simp only [perform, action, stage]) (by simp only [turnOf, action, stage])

theorem reports_of_settle (action : event.action = .settle) : custody.Reports event := by
  cases stage : custody.stage with
  | decided =>
      refine .silence ?_ ?_ (.of_same ?_ ?_) <;> simp only [perform, turnOf, action, stage] <;> rfl
  | rests | watches | sorts | broken =>
      exact .idle (by simp only [perform, action, stage]) (by simp only [turnOf, action, stage])

theorem reports_of_report (action : event.action = .report)
    (drained : ∀ ref ∈ custody.stage.leaving,
      ∃ job, custody.node.store.get? ref = some job ∧ job.thief.isSome = true) :
    custody.Reports event := by
  cases stage : custody.stage with
  | sorts leaving starting =>
      cases leaving with
      | nil =>
          exact .idle (by simp only [perform, action, stage]) (by simp only [turnOf, action, stage])
      | cons ref leaving =>
          obtain ⟨job, found, stolen⟩ := drained ref (by simp [stage, LookStage.leaving])
          refine .rejection action found stolen ?_ ?_ ?_ <;>
            simp only [perform, turnOf, action, stage]
          exact Turn.answers_handOff found
  | rests | watches | decided | broken =>
      exact .idle (by simp only [perform, action, stage]) (by simp only [turnOf, action, stage])

theorem reports_of_launch (action : event.action = .launch) : custody.Reports event := by
  cases stage : custody.stage with
  | sorts leaving starting =>
      rcases leaving with - | ⟨ref, leaving⟩
      · rcases starting with - | ⟨ref, starting⟩
        · exact .idle (by simp only [perform, action, stage]) (by simp only [turnOf, action, stage])
        · refine .silence ?_ ?_ ?_ <;> simp only [perform, turnOf, action, stage]
          exact Turn.silent_execute _ ref
      · exact .idle (by simp only [perform, action, stage]) (by simp only [turnOf, action, stage])
  | rests | watches | decided | broken =>
      exact .idle (by simp only [perform, action, stage]) (by simp only [turnOf, action, stage])

theorem reports_of_count {execution : Execution} (action : event.action = .count execution) :
    custody.Reports event := by
  by_cases due : execution ∈ (custody.tasking.turnAt event.now event.cluster).node.executions ∧
      execution ∉ custody.record.counted
  · refine .silence ?_ ?_ ?_ <;> simp only [perform, turnOf, action, if_pos due]
    obtain ⟨node, counted⟩ := Turn.exists_node_of_count
      (custody.tasking.turnAt event.now event.cluster) execution
    rw [counted]
    exact .of_same rfl rfl
  · exact .idle (by simp only [perform, action, if_neg due])
      (by simp only [turnOf, action, if_neg due])

theorem reports_of_finish {execution : Execution} (action : event.action = .finish execution)
    (finished : ∀ execution ∈ custody.record.counted,
      ∃ job, custody.node.store.get? execution.job = some job) : custody.Reports event := by
  by_cases due : execution ∈ custody.record.counted
  · obtain ⟨job, found⟩ := finished execution due
    refine .result action found ?_ ?_ ?_ <;> simp only [perform, turnOf, action, if_pos due]
    exact Turn.answers_dismiss found
  · exact .idle (by simp only [perform, action, if_neg due])
      (by simp only [turnOf, action, if_neg due])

/-- Each step is entered in the record as it was answered for, if handles of finished executions and
of drained jobs can be found. -/
theorem reports_of_found
    (finished : ∀ execution ∈ custody.record.counted,
      ∃ job, custody.node.store.get? execution.job = some job)
    (drained : ∀ ref ∈ custody.stage.leaving,
      ∃ job, custody.node.store.get? ref = some job ∧ job.thief.isSome = true) :
    custody.Reports event := by
  cases action : event.action with
  | react reaction => exact reports_of_react action
  | watch => exact reports_of_watch action
  | decide => exact reports_of_decide action
  | settle => exact reports_of_settle action
  | report => exact reports_of_report action drained
  | launch => exact reports_of_launch action
  | count execution => exact reports_of_count action
  | finish execution => exact reports_of_finish action finished

end Reports

end Custody

end JobGrid
