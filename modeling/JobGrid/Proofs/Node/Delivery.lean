import JobGrid.Proofs.Grid.Log
import JobGrid.Proofs.Grid.Mail
import JobGrid.Proofs.Node.Walk
import JobGrid.Proofs.Steal.Gift

/-!
# Deliveries of a turn

The jobs that a node delivers in one turn are those that its letters bring to others, and those
that come into its own queue. While the tasks of a session are restricted, every turn delivers
jobs only where the restriction lets them go.
-/

namespace JobGrid

/-- A letter was sent under the topic of what it says. -/
theorem Envelope.topic_of_message? {letter : Envelope} {message : Message}
    (reads : letter.message? = some message) : letter.topic = message.topic := by
  simp only [message?, Message.decode] at reads
  split_ifs at reads with steal submit rejected result
  case neg => cases reads
  all_goals
    split at reads
    · cases reads
      assumption
    · cases reads

namespace Cluster

/-- Between two moments, inboxes only got letters, of which every one has a property that also
depends on the inbox. -/
def Gains (before after : Cluster) (allowed : MailboxRef → Envelope → Prop) : Prop :=
  ∀ ref, ∃ new, (after.mailbox ref).letters = (before.mailbox ref).letters ++ new ∧
    ∀ letter ∈ new, allowed ref letter

namespace Gains

variable {allowed : MailboxRef → Envelope → Prop}

protected theorem refl (cluster : Cluster) : cluster.Gains cluster allowed :=
  fun _ => ⟨[], (List.append_nil _).symm, fun _ none => absurd none List.not_mem_nil⟩

protected theorem trans {first second third : Cluster} (left : first.Gains second allowed)
    (right : second.Gains third allowed) : first.Gains third allowed := by
  intro ref
  obtain ⟨new, letters, each⟩ := left ref
  obtain ⟨more, later, rest⟩ := right ref
  refine ⟨new ++ more, by rw [later, letters, List.append_assoc], ?_⟩
  intro letter member
  exact (List.mem_append.1 member).elim (each letter) (rest letter)

/-- A message that is sent is a new letter in the inbox of its receiver. -/
theorem of_send {cluster next : Cluster} {sender receiver : NodeId} {topic : String}
    {payload : Bytes} (sent : cluster.send sender receiver topic payload = .ok next)
    (fits : ∀ ref, cluster.inboxes.get? receiver = some ref →
      allowed ref ⟨sender, topic, payload⟩) :
    next.inboxes = cluster.inboxes ∧ cluster.Gains next allowed := by
  obtain ⟨ref, found, -, -, rfl⟩ := send_eq_ok.1 sent
  refine ⟨rfl, ?_⟩
  intro other
  by_cases present : ref < cluster.mailboxes.size
  · rw [mailbox_setMailbox present]
    split_ifs with same
    · subst same
      refine ⟨[⟨sender, topic, payload⟩], rfl, ?_⟩
      intro letter member
      rw [List.mem_singleton.1 member]
      exact fits other found
    · exact Gains.refl cluster other
  · rw [setMailbox_of_absent present]
    exact Gains.refl cluster other

end Gains

end Cluster

/-- A session is registered for some nodes as long as its task is followed, and before it is
submitted. -/
structure Node.Restricts (session : SessionId) (nodes : List NodeId) (isAhead : Prop)
    (node : Node) : Prop where
  followed : (node.tasks.get? session).isSome → node.restrictions.get? session = some nodes
  ahead : isAhead → node.restrictions.get? session = some nodes ∧ node.tasks.get? session = none

theorem Node.Restricts.congr {session : SessionId} {nodes : List NodeId} {isAhead : Prop}
    {node next : Node} (restricts : node.Restricts session nodes isAhead)
    (tasks : next.tasks = node.tasks) (restrictions : next.restrictions = node.restrictions) :
    next.Restricts session nodes isAhead := by
  refine ⟨?_, ?_⟩
  · rw [tasks, restrictions]
    exact restricts.followed
  · rw [tasks, restrictions]
    exact restricts.ahead

namespace Turn

/-- Between two moments of a turn, the node delivered jobs only where they are allowed to go:
into inboxes of such nodes, and into its own queue if it is such a node. A job that was
brought to the node is no delivery of its own. -/
structure DeliversOnly (allowed : JobTransfer → NodeId → Prop) (brought : Option JobTransfer)
    (before after : Turn) : Prop where
  letters : before.cluster.Gains after.cluster fun ref letter => ∀ transfer,
    letter.message? = some (.jobSubmit transfer) →
      ∃ target, before.cluster.inboxes.get? target = some ref ∧ allowed transfer target
  handles : ∀ ref handle, before.node.store.next ≤ ref →
    after.node.store.get? ref = some handle →
      allowed (.ofHandle handle) before.node.id ∨ brought = some (.ofHandle handle)

/-- The jobs of a session go to some nodes only. -/
def BoundTo (session : SessionId) (nodes : List NodeId) (transfer : JobTransfer)
    (target : NodeId) : Prop :=
  transfer.session = session → target ∈ nodes

/-- What a turn did so far: it delivered jobs only where they are allowed to go, and the
restriction of a session is still in force. -/
structure Ships (session : SessionId) (nodes : List NodeId) (isAhead : Prop)
    (allowed : JobTransfer → NodeId → Prop) (brought : Option JobTransfer)
    (before turn : Turn) : Prop where
  id : turn.node.id = before.node.id
  inboxes : turn.cluster.inboxes = before.cluster.inboxes
  restricts : turn.node.Restricts session nodes isAhead
  delivers : before.DeliversOnly allowed brought turn

/-- The members that a registered session may run on are those that it is registered for. -/
theorem covers_boundTo {turn : Turn} {session other : SessionId} {nodes : List NodeId}
    (registered : other = session → turn.node.restrictions.get? session = some nodes) :
    turn.Covers (BoundTo session nodes) other := by
  intro transfer own member present same
  have there := registered (own.symm.trans same)
  have allowed := (List.mem_filter.1 present).2
  rw [Restrictions.allows, own.symm.trans same, there] at allowed
  exact List.contains_iff_mem.1 allowed

/-- A task that ends takes only the restriction of its own session with it. -/
theorem restricts_finish {session : SessionId} {nodes : List NodeId} {isAhead : Prop}
    {turn : Turn} (restricts : turn.node.Restricts session nodes isAhead) (other : SessionId)
    (error : Option String) : (turn.finish other error).node.Restricts session nodes isAhead := by
  cases found : turn.node.tasks.get? other with
  | none =>
      simp only [Turn.finish, found]
      exact restricts
  | some task =>
      simp only [Turn.finish, found]
      by_cases same : other = session
      · subst same
        refine ⟨?_, ?_⟩
        · intro tracked
          simp [notify, update] at tracked
        · intro ahead
          rw [(restricts.ahead ahead).2] at found
          cases found
      · refine ⟨?_, ?_⟩
        · intro tracked
          simp only [notify, update, Table.get?_erase_of_ne _ same] at tracked ⊢
          exact restricts.followed tracked
        · intro ahead
          simp only [notify, update, Table.get?_erase_of_ne _ same]
          exact restricts.ahead ahead

namespace Ships

variable {session : SessionId} {nodes : List NodeId} {isAhead : Prop}
  {allowed : JobTransfer → NodeId → Prop} {brought : Option JobTransfer}
  {before turn next : Turn}

/-- Nothing was delivered yet. -/
theorem start (restricts : turn.node.Restricts session nodes isAhead) :
    Ships session nodes isAhead allowed brought turn turn where
  id := rfl
  inboxes := rfl
  restricts := restricts
  delivers := by
    refine ⟨.refl _, ?_⟩
    intro ref handle late found
    exact absurd (JobStore.lt_next_of_get? found) (Nat.not_lt.2 late)

/-- Queues, executions and figures do not matter. -/
theorem congr (ships : Ships session nodes isAhead allowed brought before turn)
    (id : next.node.id = turn.node.id) (store : next.node.store = turn.node.store)
    (cluster : next.cluster = turn.cluster) (tasks : next.node.tasks = turn.node.tasks)
    (restrictions : next.node.restrictions = turn.node.restrictions) :
    Ships session nodes isAhead allowed brought before next where
  id := id.trans ships.id
  inboxes := by rw [cluster, ships.inboxes]
  restricts := ships.restricts.congr tasks restrictions
  delivers := by
    refine ⟨?_, ?_⟩
    · rw [cluster]
      exact ships.delivers.letters
    · rw [store]
      exact ships.delivers.handles

/-- A message is sent that brings a job only where it is allowed to go. -/
theorem send {receiver : NodeId} {message : Message}
    (ships : Ships session nodes isAhead allowed brought before turn)
    (sent : turn.send receiver message = .ok next)
    (fits : ∀ transfer, Envelope.message? ⟨turn.node.id, message.topic, message.encode⟩ =
      some (.jobSubmit transfer) → allowed transfer receiver) :
    Ships session nodes isAhead allowed brought before next := by
  obtain ⟨cluster, posted, rfl⟩ := Result.map_eq_ok.1 sent
  have gains : cluster.inboxes = turn.cluster.inboxes ∧
      turn.cluster.Gains cluster fun ref letter => ∀ transfer,
        letter.message? = some (.jobSubmit transfer) →
          ∃ target, before.cluster.inboxes.get? target = some ref ∧ allowed transfer target := by
    apply Cluster.Gains.of_send posted
    intro ref found transfer reads
    exact ⟨receiver, ships.inboxes ▸ found, fits transfer reads⟩
  exact {
    id := ships.id
    inboxes := gains.1.trans ships.inboxes
    restricts := ships.restricts.congr rfl rfl
    delivers := ⟨ships.delivers.letters.trans gains.2, ships.delivers.handles⟩ }

/-- A job comes into the queue of the node. -/
theorem hold {transfer : JobTransfer}
    (ships : Ships session nodes isAhead allowed brought before turn)
    (held : turn.hold transfer = .ok next)
    (fits : allowed transfer before.node.id ∨ brought = some transfer) :
    Ships session nodes isAhead allowed brought before next := by
  obtain ⟨-, rfl⟩ := Turn.hold_eq_ok.1 held
  refine ⟨ships.id, ships.inboxes, ships.restricts.congr rfl rfl, ships.delivers.letters, ?_⟩
  intro ref handle late found
  rw [JobStore.get?_push] at found
  split at found
  · cases found
    exact fits
  · exact ships.delivers.handles ref handle late found

/-- Every step of a turn delivers jobs only where they are allowed to go. -/
theorem walk (before : Turn) (brought : Option JobTransfer)
    (covers : ∀ {turn : Turn} {other : SessionId},
      (other = session → turn.node.restrictions.get? session = some nodes) →
      turn.Covers allowed other) :
    Walk (Ships session nodes isAhead allowed brought before) allowed where
  aside := by
    intro turn next ships aside
    exact ships.congr aside.id aside.store aside.cluster aside.tasks aside.restrictions
  deliver := by
    intro turn next transfer target ships fits delivered
    cases Turn.Delivered.of_deliver delivered with
    | here own took =>
        have taken := ships.hold took (.inl (ships.id ▸ own ▸ fits))
        exact taken.congr rfl rfl rfl rfl rfl
    | there _ sent =>
        apply ships.send sent
        intro other reads
        have readable : (Message.jobSubmit transfer).Readable := trivial
        rw [Envelope.message?_encode readable] at reads
        cases reads
        exact fits
  send := by
    intro turn next receiver message ships topic sent
    apply ships.send sent
    intro transfer reads
    exact absurd (Envelope.topic_of_message? reads) topic
  warn ships := ships.congr rfl rfl rfl rfl rfl
  note := by
    intro turn tasks ships older
    refine ⟨ships.id, ships.inboxes, ⟨?_, ?_⟩, ships.delivers.letters, ships.delivers.handles⟩
    · intro tracked
      exact ships.restricts.followed (older session tracked)
    · intro ahead
      obtain ⟨registered, untracked⟩ := ships.restricts.ahead ahead
      refine ⟨registered, ?_⟩
      cases found : tasks.get? session with
      | none => exact found
      | some task =>
          have tracked := older session (by rw [found]; rfl)
          rw [untracked] at tracked
          cases tracked
  finish := by
    intro turn other error ships
    have restricts := restricts_finish ships.restricts other error
    cases found : turn.node.tasks.get? other with
    | none => simpa only [Turn.finish, found] using ships
    | some task =>
        simp only [Turn.finish, found] at restricts ⊢
        exact ⟨ships.id, ships.inboxes, restricts, ships.delivers.letters, ships.delivers.handles⟩
  covers := by
    intro turn other ships tracked
    apply covers
    rintro rfl
    exact ships.restricts.followed tracked

section Handlers

variable (walk : Walk (Ships session nodes isAhead allowed brought before) allowed)

include walk

theorem handOff (ships : Ships session nodes isAhead allowed brought before turn)
    (ref : JobRef) : Ships session nodes isAhead allowed brought before (turn.handOff ref) := by
  simp only [Turn.handOff]
  split
  · exact ships
  · split
    · have counted : Ships session nodes isAhead allowed brought before (turn.update fun node =>
          { node with
            stats := { node.stats with handedOff := node.stats.handedOff + 1 }
            tracker := node.tracker.recordRejected 1 }) :=
        ships.congr rfl rfl rfl rfl rfl
      exact walk.reportRejected counted _ _
    · exact walk.reportRejected ships _ _

theorem settle (ships : Ships session nodes isAhead allowed brought before turn) :
    Ships session nodes isAhead allowed brought before turn.settle := by
  have emptied : Ships session nodes isAhead allowed brought before (turn.update fun node =>
      { node with
        queue := node.queue.settle node.store
        tracker := node.tracker.recordCancelled
          (turn.node.queue.settled turn.node.store).cancelled.length }) :=
    ships.congr rfl rfl rfl rfl rfl
  have executes : ∀ (turn : Turn) (job : QueuedJob),
      Ships session nodes isAhead allowed brought before turn →
        Ships session nodes isAhead allowed brought before (turn.execute job.ref) := by
    intro turn job ships
    simp only [execute]
    split
    · exact ships
    · split
      · exact ships
      · exact ships.congr rfl rfl rfl rfl rfl
  simp only [Turn.settle]
  apply keeps_forEach (Ships session nodes isAhead allowed brought before) executes
  exact keeps_forEach (Ships session nodes isAhead allowed brought before)
    (fun _ _ ships => handOff walk ships _) _ emptied

theorem sendRequests (ships : Ships session nodes isAhead allowed brought before turn)
    (requests : List SentRequest) :
    Ships session nodes isAhead allowed brought before (turn.sendRequests requests) := by
  induction requests generalizing turn with
  | nil => exact ships
  | cons request rest ih =>
      apply ih
      cases sent : turn.send request.peer (.stealRequest ⟨request.jobs⟩) with
      | error refused =>
          simp only [trySend, sent]
          exact ships
      | ok next =>
          have topic : (Message.stealRequest ⟨request.jobs⟩).topic ≠ Topic.jobSubmit := by
            show Topic.stealRequest ≠ Topic.jobSubmit
            decide
          simp only [trySend, sent]
          exact walk.send ships topic sent

theorem complete (ships : Ships session nodes isAhead allowed brought before turn)
    (execution : Execution) :
    Ships session nodes isAhead allowed brought before (turn.complete execution) := by
  cases found : turn.node.store.get? execution.job with
  | none => simpa only [Turn.complete, found] using ships
  | some job =>
      simp only [Turn.complete, found]
      refine walk.aside (walk.reportResult ?_ _) (aside_lookNext _)
      exact ships.congr rfl rfl rfl rfl rfl

end Handlers

/-- A pass brings no job to the node. -/
theorem collide (walk : Walk (Ships session nodes isAhead allowed brought turn) allowed)
    (restricts : turn.node.Restricts session nodes isAhead) :
    Ships session nodes isAhead allowed brought turn turn.collide := by
  have passed : Ships session nodes isAhead allowed brought turn (turn.update fun node =>
      { node with
        resolver := turn.pass.resolver
        store := turn.pass.store
        attention := node.attention.take }) := by
    refine ⟨rfl, rfl, restricts.congr rfl rfl, .refl _, ?_⟩
    intro ref handle late found
    have fate := Resolver.fate_collide turn.node.resolver
      (turn.node.resolver.scene (turn.cluster.view turn.node.id) turn.node.restrictions
        turn.node.chance.peers turn.now) turn.cluster.accepts turn.node.store
      (turn.node.queue.waiting.map QueuedJob.ref) turn.node.queue.active.size ref
    have nothing : ∀ {handle}, turn.node.store.get? ref ≠ some handle := by
      intro handle there
      exact absurd (JobStore.lt_next_of_get? there) (Nat.not_lt.2 late)
    cases fate with
    | untouched same => exact absurd (same.symm.trans found) nothing
    | started _ there _ => exact absurd there nothing
    | given _ _ there _ _ => exact absurd there nothing
  simp only [Turn.collide]
  split
  · exact walk.aside (sendRequests walk passed _) (aside_stopWith _ _)
  · exact settle walk (sendRequests walk passed _)

/-- Metrics are no letters. -/
theorem publishMetrics (ships : Ships session nodes isAhead allowed brought before turn) :
    Ships session nodes isAhead allowed brought before turn.publishMetrics := by
  simp only [Turn.publishMetrics]
  split
  · rename_i cluster published
    obtain ⟨inboxes, mailboxes, -⟩ := Cluster.publish_of_updateMetrics published
    refine ⟨ships.id, inboxes.trans ships.inboxes, ships.restricts.congr rfl rfl, ?_,
      ships.delivers.handles⟩
    intro ref
    have same : cluster.mailbox ref = turn.cluster.mailbox ref := by
      rw [Cluster.mailbox, mailboxes]
      rfl
    exact same ▸ ships.delivers.letters ref
  · exact ships.congr rfl rfl rfl rfl rfl

end Ships

end Turn

end JobGrid
