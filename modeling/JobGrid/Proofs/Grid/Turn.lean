import JobGrid.Proofs.Grid.State

/-!
# Turns that lose no job

No single act of a node in its turn loses a job: neither taking a message out of the inbox,
changing its own books, answering for a job, reporting to an origin, nor bringing a job to a
node.
-/

namespace JobGrid

/-- What of a grid stays as it is while a node takes its turn: the other nodes. -/
structure Bystanders where
  /-- The node that takes its turn. -/
  self : NodeId
  /-- All nodes that joined so far. -/
  names : List NodeId
  node? : NodeId → Option NodeWork
  /-- The jobs that were submitted so far. -/
  submitted : List JobId
  /-- Whether a job was dropped by a node that broke a rule. -/
  dropped : JobId → Prop

/-- The jobs in the queue of a node. -/
def Bystanders.queued (rest : Bystanders) (node : NodeId) : List JobId :=
  (rest.node? node).elim [] fun work => work.queue.jobs

namespace Turn

/-- The state of the grid in the middle of a turn, with what the node has in its hand. -/
def grid (rest : Bystanders) (hand : Hand) (turn : Turn) : Grid where
  names := rest.names
  node? id := if id = turn.node.id then some turn.node.work else rest.node? id
  hand id := if id = turn.node.id then hand else {}
  cluster := turn.cluster
  refused := turn.unreported
  submitted := rest.submitted
  dropped := rest.dropped

/-- No job is lost in the middle of a turn, with what the node has in its hand. -/
def Safe (owner : Owners) (rest : Bystanders) (hand : Hand) (turn : Turn) : Prop :=
  turn.node.id = rest.self ∧ (turn.grid rest hand).Safe owner

variable {owner : Owners} {rest : Bystanders} {hand kept : Hand} {turn next : Turn}

theorem node?_self (turn : Turn) (rest : Bystanders) (hand : Hand) :
    (turn.grid rest hand).node? turn.node.id = some turn.node.work :=
  if_pos rfl

/-- The messages in the inbox of a node in the middle of a turn. -/
def mail (rest : Bystanders) (turn : Turn) (node : NodeId) : List Message :=
  if node = turn.node.id then turn.cluster.messages turn.node.inbox
  else (rest.node? node).elim [] fun work => turn.cluster.messages work.inbox

/-- The answers of reports to a node that were refused in the turn. -/
def undelivered (turn : Turn) (node : NodeId) : List JobId :=
  turn.unreported.filterMap fun report =>
    if report.1 = node then report.2.answered? else none

theorem mail_grid (turn : Turn) (rest : Bystanders) (hand : Hand) (node : NodeId) :
    (turn.grid rest hand).mail node = turn.mail rest node := by
  simp only [Grid.mail, grid, mail]
  split
  · rfl
  · rfl

theorem hand_grid (turn : Turn) (rest : Bystanders) (hand : Hand) (node : NodeId) :
    (turn.grid rest hand).hand node = if node = turn.node.id then hand else {} := rfl

theorem queued_grid (turn : Turn) (rest : Bystanders) (hand : Hand) (node : NodeId) :
    (turn.grid rest hand).queued node =
      if node = turn.node.id then turn.node.queue.jobs else rest.queued node := by
  simp only [grid, Grid.queued]
  split
  · rfl
  · rfl

theorem held_grid (turn : Turn) (rest : Bystanders) (hand : Hand) (node : NodeId) (job : JobId) :
    (turn.grid rest hand).ledger.held node job =
      (if node = turn.node.id then turn.node.queue.jobs.count job + hand.jobs.count job
        else (rest.queued node).count job) +
      ((turn.mail rest node).filterMap Message.brought?).count job := by
  simp only [Grid.ledger, mail_grid, queued_grid, hand_grid]
  split
  · exact Nat.add_right_comm _ _ _
  · rfl

theorem answers_grid (turn : Turn) (rest : Bystanders) (hand : Hand) (node : NodeId) (job : JobId) :
    (turn.grid rest hand).ledger.answers node job =
      ((turn.mail rest node).filterMap Message.answered?).count job +
        (turn.undelivered node).count job +
        if node = turn.node.id then hand.answers.count job else 0 := by
  simp only [Grid.ledger, mail_grid, hand_grid]
  split
  · rfl
  · rfl

/-- The inboxes stay as they are while the cluster does. -/
theorem mail_of_cluster (id : next.node.id = turn.node.id)
    (inbox : next.node.inbox = turn.node.inbox) (cluster : next.cluster = turn.cluster)
    (node : NodeId) : next.mail rest node = turn.mail rest node := by
  simp only [mail, id, inbox, cluster]

/-- A message came into the inbox of a node, and nothing else happened. -/
structure Posts (rest : Bystanders) (receiver : NodeId) (message : Message) (turn next : Turn) :
    Prop where
  node : next.node = turn.node
  unreported : next.unreported = turn.unreported
  cluster : turn.cluster.SameMembers next.cluster
  reached : turn.cluster.inboxes.contains receiver = true
  mail : ∀ node, next.mail rest node =
    turn.mail rest node ++ if node = receiver then [message] else []

theorem posts_of_send {receiver : NodeId} {message : Message}
    (wired : (turn.grid rest hand).Wired) (readable : message.Readable)
    (sent : turn.send receiver message = .ok next) : Posts rest receiver message turn next := by
  obtain ⟨cluster, accepted, rfl⟩ := Result.map_eq_ok.1 sent
  have housed : ∀ {ref}, turn.cluster.inboxes.get? receiver = some ref →
      ref < turn.cluster.mailboxes.size := by
    intro ref found
    obtain ⟨work, there, rfl⟩ := wired.reached found
    exact wired.housed there
  obtain ⟨ref, found, same, messages⟩ := Cluster.messages_of_send readable housed accepted
  obtain ⟨addressed, there, inbox⟩ := wired.reached found
  refine ⟨rfl, rfl, same, by rw [Table.contains, found]; rfl, ?_⟩
  intro node
  rw [← mail_grid turn rest hand, ← mail_grid _ rest hand, Grid.mail, Grid.mail]
  have present : (({ turn with cluster } : Turn).grid rest hand).node? node =
      (turn.grid rest hand).node? node := rfl
  rw [present]
  cases here : (turn.grid rest hand).node? node with
  | none =>
      have differs : node ≠ receiver := by
        rintro rfl
        rw [here] at there
        cases there
      rw [if_neg differs, List.append_nil]
      rfl
  | some work =>
      have same : work.inbox = ref ↔ node = receiver := by
        constructor
        · intro equal
          exact wired.apart here there (equal.trans inbox.symm)
        · rintro rfl
          rw [here, Option.some.injEq] at there
          rw [there, inbox]
      have arrived := messages work.inbox
      simp only [same] at arrived
      exact arrived

/-- Reading the inbox takes one message out of it at most. -/
theorem mail_of_receive {letter : Envelope} {cluster : Cluster}
    (wired : (turn.grid rest hand).Wired)
    (received : turn.cluster.receive turn.node.inbox = some (letter, cluster)) :
    turn.cluster.SameMembers cluster ∧
      ∀ node, turn.mail rest node = (if node = turn.node.id then letter.message?.toList else []) ++
        ({ turn with cluster } : Turn).mail rest node := by
  have housed := wired.housed (node?_self turn rest hand)
  obtain ⟨same, first, others⟩ := Cluster.messages_of_receive housed received
  refine ⟨same, ?_⟩
  intro node
  by_cases own : node = turn.node.id
  · simp only [mail, own, if_true]
    exact first
  · simp only [mail, own, if_false, List.nil_append]
    cases found : rest.node? node with
    | none => rfl
    | some work =>
        have here : (turn.grid rest hand).node? node = some work := by
          simp only [grid, own, if_false, found]
        exact (others work.inbox fun equal =>
          own (wired.apart here (node?_self turn rest hand) equal)).symm

theorem pends_self {job : JobId} {target : NodeId} :
    (turn.grid rest hand).ledger.pends turn.node.id job target ↔
      turn.node.work.Pends job target := by
  simp only [Grid.ledger, node?_self, Option.some.injEq, exists_eq_left']

/-- What is pending after the node changed its books. -/
theorem pends_of_pends (turn : Turn) (hand : Hand) (id : next.node.id = turn.node.id)
    {origin target : NodeId} {job : JobId}
    (pending : (next.grid rest kept).ledger.pends origin job target) :
    origin = turn.node.id ∧ next.node.work.Pends job target ∨
      origin ≠ turn.node.id ∧ (turn.grid rest hand).ledger.pends origin job target := by
  obtain ⟨work, found, waits⟩ := pending
  by_cases own : origin = turn.node.id
  · simp only [grid, id, own, if_true, Option.some.injEq] at found
    exact .inl ⟨own, found ▸ waits⟩
  · simp only [grid, id, own, if_false] at found
    exact .inr ⟨own, work, by simp only [grid, own, if_false, found], waits⟩

/-- What is pending after the node took some jobs off its books, or none. -/
theorem pends_of_less (turn : Turn) (hand : Hand) (id : next.node.id = turn.node.id)
    (less : ∀ {job target}, next.node.work.Pends job target → turn.node.work.Pends job target)
    {origin target : NodeId} {job : JobId}
    (pending : (next.grid rest kept).ledger.pends origin job target) :
    (turn.grid rest hand).ledger.pends origin job target := by
  rcases pends_of_pends turn hand id pending with ⟨rfl, waits⟩ | ⟨-, waits⟩
  · exact pends_self.2 (less waits)
  · exact waits

namespace Safe

theorem wired (safe : turn.Safe owner rest hand) : (turn.grid rest hand).Wired := safe.2.wired

theorem balanced (safe : turn.Safe owner rest hand) :
    (turn.grid rest hand).ledger.Balanced fun job => (owner job).map Prod.fst :=
  safe.2.balanced

theorem member (safe : turn.Safe owner rest hand) : turn.node.id ∈ rest.names :=
  safe.wired.listed.2 ⟨turn.node.work, node?_self turn rest hand⟩

theorem sound_self (safe : turn.Safe owner rest hand) : turn.node.work.Sound owner hand := by
  have sound := safe.2.sound (node?_self turn rest hand)
  rwa [hand_grid, if_pos rfl] at sound

theorem honest_mail (safe : turn.Safe owner rest hand) (node : NodeId) :
    ∀ message ∈ turn.mail rest node, message.Genuine owner node := by
  intro message member
  rw [← mail_grid turn rest hand] at member
  exact safe.2.honest message member

/-- A node after a part of a turn is the one that takes it, or was there before. -/
theorem node?_of_turn {later : Bystanders} {node : NodeId} {work : NodeWork} (hand kept : Hand)
    (nodes : later.node? = rest.node?) (id : next.node.id = turn.node.id)
    (found : (next.grid later kept).node? node = some work) :
    node = turn.node.id ∧ next.node.work = work ∨
      node ≠ turn.node.id ∧ (turn.grid rest hand).node? node = some work := by
  by_cases own : node = turn.node.id
  · simp only [grid, id, own, if_true, Option.some.injEq] at found
    exact .inl ⟨own, found⟩
  · simp only [grid, id, own, if_false, nodes] at found
    exact .inr ⟨own, by simp only [grid, own, if_false, found]⟩

/-- What has to be shown so that the parts of the grid still fit together. -/
theorem rewires {later : Bystanders} (wired : (turn.grid rest hand).Wired) (kept : Hand)
    (names : later.names = rest.names) (nodes : later.node? = rest.node?)
    (id : next.node.id = turn.node.id) (inbox : next.node.inbox = turn.node.inbox)
    (inboxes : next.cluster.inboxes = turn.cluster.inboxes)
    (size : next.cluster.mailboxes.size = turn.cluster.mailboxes.size)
    (found : ∀ node, (next.cluster.find? node).isSome = (turn.cluster.find? node).isSome)
    (departed : ∀ node, ∀ event ∈ next.cluster.events, event.Departs node →
      event ∈ turn.cluster.events)
    (longer : turn.cluster.events.size ≤ next.cluster.events.size)
    (read : next.node.position ≤ next.cluster.events.size) :
    Grid.SameWires (turn.grid rest hand) (next.grid later kept) where
  names := names
  node? node := by
    simp only [grid, id, nodes]
    split
    · simp only [Option.map_some, Node.work, id, inbox]
    · rfl
  inboxes := inboxes
  size := size
  found := found
  departed := departed
  read {node work} found := by
    rcases node?_of_turn hand kept nodes id found with ⟨-, rfl⟩ | ⟨-, there⟩
    · exact read
    · exact Nat.le_trans (wired.read there) longer

theorem sameWires {later : Bystanders} (wired : (turn.grid rest hand).Wired) (kept : Hand)
    (names : later.names = rest.names) (nodes : later.node? = rest.node?)
    (id : next.node.id = turn.node.id) (inbox : next.node.inbox = turn.node.inbox)
    (position : next.node.position = turn.node.position)
    (cluster : turn.cluster.SameMembers next.cluster) :
    Grid.SameWires (turn.grid rest hand) (next.grid later kept) := by
  have found : ∀ node, (next.cluster.find? node).isSome = (turn.cluster.find? node).isSome := by
    simp only [Cluster.find?, cluster.members, implies_true]
  have read := wired.read (node?_self turn rest hand)
  refine rewires wired kept names nodes id inbox cluster.inboxes cluster.size found ?_ ?_ ?_
  · rw [cluster.events]
    exact fun _ _ member _ => member
  · rw [cluster.events]
  · rw [cluster.events, position]
    exact read

/-- In a turn nobody joins or departs, and the log stays as it is. -/
theorem sameGrid (rest : Bystanders) (hand kept : Hand) (id : next.node.id = turn.node.id)
    (position : next.node.position = turn.node.position)
    (cluster : turn.cluster.SameMembers next.cluster) :
    Ledger.SameGrid (turn.grid rest hand).ledger (next.grid rest kept).ledger where
  nodes := rfl
  live := by
    intro node
    simp only [Grid.ledger, grid, cluster.inboxes]
  awaits := by
    rintro origin node ⟨work, found, told⟩
    have same : next.cluster.Tells work.position node := by
      rw [Cluster.Tells, cluster.events]
      exact told
    rcases node?_of_turn kept hand rfl id.symm found with ⟨own, rfl⟩ | ⟨-, there⟩
    · refine ⟨next.node.work, ?_, ?_⟩
      · rw [own]
        exact node?_self next rest kept
      · rw [Node.work, position]
        exact same
    · exact ⟨work, there, same⟩
  submitted _ := Nat.le_refl _
  whole := by
    simp only [Grid.ledger, grid, Cluster.Whole, cluster.events]
    exact fun nobody => nobody
  dropped lost := lost

/-- The other nodes stay as they are in a turn. -/
theorem build {later : Bystanders} (safe : turn.Safe owner rest hand)
    (self : later.self = rest.self) (nodes : later.node? = rest.node?)
    (id : next.node.id = turn.node.id)
    (wired : (next.grid later kept).Wired)
    (honest : ∀ node, ∀ message ∈ next.mail later node, message.Genuine owner node)
    (sound : next.node.work.Sound owner kept)
    (balanced : (next.grid later kept).ledger.Balanced fun job => (owner job).map Prod.fst) :
    next.Safe owner later kept := by
  refine ⟨(id.trans safe.1).trans self.symm, wired, ?_, ?_, balanced⟩
  · intro node message member
    rw [mail_grid] at member
    exact honest node message member
  · intro node work found
    rw [hand_grid, id]
    rcases node?_of_turn hand kept nodes id found with ⟨own, rfl⟩ | ⟨other, there⟩
    · rw [if_pos own]
      exact sound
    · have before := safe.2.sound there
      rw [hand_grid, if_neg other] at before
      rw [if_neg other]
      exact before

/-- What has to be shown of a part of a turn. -/
theorem step (safe : turn.Safe owner rest hand) (id : next.node.id = turn.node.id)
    (inbox : next.node.inbox = turn.node.inbox)
    (position : next.node.position = turn.node.position)
    (cluster : turn.cluster.SameMembers next.cluster)
    (honest : ∀ node, ∀ message ∈ next.mail rest node, message.Genuine owner node)
    (sound : next.node.work.Sound owner kept)
    (balanced : Ledger.SameGrid (turn.grid rest hand).ledger (next.grid rest kept).ledger →
      (next.grid rest kept).ledger.Balanced fun job => (owner job).map Prod.fst) :
    next.Safe owner rest kept := by
  have same : Grid.SameWires (turn.grid rest hand) (next.grid rest kept) :=
    sameWires safe.wired kept rfl rfl id inbox position cluster
  exact safe.build rfl rfl id (same.wired safe.wired) honest sound
    (balanced (sameGrid rest hand kept id position cluster))

/-- The node changes its books and moves jobs between its queue and its hand. -/
theorem revise {node : Node} (safe : turn.Safe owner rest hand) (id : node.id = turn.node.id)
    (inbox : node.inbox = turn.node.inbox) (position : node.position = turn.node.position)
    (sound : node.work.Sound owner kept)
    (jobs : ∀ job, node.queue.jobs.count job + kept.jobs.count job =
      turn.node.queue.jobs.count job + hand.jobs.count job)
    (answers : kept.answers = hand.answers)
    (pends : ∀ {job target}, node.work.Pends job target → turn.node.work.Pends job target) :
    ({ turn with node } : Turn).Safe owner rest kept := by
  have mail : ∀ name, ({ turn with node } : Turn).mail rest name = turn.mail rest name :=
    mail_of_cluster id inbox rfl
  refine safe.step id inbox position (.refl _) ?_ sound fun same => ?_
  · intro name message member
    rw [mail] at member
    exact safe.honest_mail name message member
  · refine safe.balanced.relax same ?_ ?_ ?_ ?_
    · intro name job
      rw [held_grid, held_grid, mail, id, jobs]
    · intro name job
      rw [answers_grid, answers_grid, mail, id, answers]
      exact Nat.le_refl _
    · exact pends_of_less turn hand id pends
    · intro name job target _ _
      rw [answers_grid, answers_grid, mail, id, answers]
      rfl

/-- A job that is not pending any more needs no answer. -/
theorem dismiss {job : JobId} {answers : List JobId}
    (safe : turn.Safe owner rest { hand with answers := job :: answers })
    (done : ∀ target, ¬ turn.node.work.Pends job target) :
    turn.Safe owner rest { hand with answers } := by
  have sound : turn.node.work.Sound owner { hand with answers } :=
    { safe.sound_self with
      claimed := fun other member =>
        safe.sound_self.claimed other (List.mem_cons_of_mem job member) }
  refine safe.step rfl rfl rfl (.refl _) safe.honest_mail sound fun same => ?_
  refine safe.balanced.relax same ?_ ?_ id ?_
  · intro node other
    rw [held_grid, held_grid]
  · intro node other
    rw [answers_grid, answers_grid, List.count_cons]
    by_cases own : node = turn.node.id
    · simp only [own, if_true]
      omega
    · simp only [own, if_false, Nat.le_refl]
  · intro origin other target _ pending
    rw [answers_grid, answers_grid]
    split
    · rename_i own
      subst own
      have differs : job ≠ other := fun equal => done target (equal ▸ pends_self.1 pending)
      rw [List.count_cons_of_ne differs]
    · rfl

/-- The node has the answer for a job of its own that it had in its hand. -/
theorem answer {job : JobId} {jobs : List JobId} {session : SessionId}
    (safe : turn.Safe owner rest { hand with jobs := job :: jobs })
    (owned : owner job = some (turn.node.id, session)) :
    turn.Safe owner rest { hand with jobs, answers := job :: hand.answers } := by
  have home : (owner job).map Prod.fst = some turn.node.id := by
    rw [owned]
    rfl
  have sound : turn.node.work.Sound owner { hand with jobs, answers := job :: hand.answers } :=
    { safe.sound_self with
      claimed := List.forall_mem_cons.2 ⟨home, safe.sound_self.claimed⟩ }
  refine safe.step rfl rfl rfl (.refl _) safe.honest_mail sound fun same => ?_
  refine safe.balanced.report same safe.member home ?_ ?_ id
  · intro node other
    rw [held_grid, held_grid, List.count_cons]
    grind
  · intro node other
    rw [answers_grid, answers_grid, List.count_cons]
    grind

/-- The node takes a message out of its inbox. -/
theorem receive {letter : Envelope} {cluster : Cluster} (safe : turn.Safe owner rest {})
    (received : turn.cluster.receive turn.node.inbox = some (letter, cluster)) :
    (∀ message ∈ letter.message?, message.Genuine owner turn.node.id) ∧
      ({ turn with cluster } : Turn).Safe owner rest
        { jobs := (letter.message?.bind Message.brought?).toList
          answers := (letter.message?.bind Message.answered?).toList } := by
  obtain ⟨same, mail⟩ := mail_of_receive safe.wired received
  have genuine : ∀ message ∈ letter.message?, message.Genuine owner turn.node.id := by
    intro message member
    apply safe.honest_mail
    rw [mail, if_pos rfl, List.mem_append]
    exact .inl (Option.mem_toList.2 member)
  have sound : turn.node.work.Sound owner
      { jobs := (letter.message?.bind Message.brought?).toList
        answers := (letter.message?.bind Message.answered?).toList } := by
    refine ⟨safe.sound_self.stocked, safe.sound_self.followed, ?_⟩
    intro job member
    obtain ⟨message, said, answered⟩ := Option.bind_eq_some_iff.1 (Option.mem_toList.1 member)
    exact (genuine message said).home answered
  have said : ∀ part : Message → Option JobId,
      letter.message?.toList.filterMap part = (letter.message?.bind part).toList := by
    intro part
    cases letter.message? with
    | none => rfl
    | some message => cases found : part message <;> simp [found]
  have answers : ∀ node job, (({ turn with cluster } : Turn).grid rest
      { jobs := (letter.message?.bind Message.brought?).toList
        answers := (letter.message?.bind Message.answered?).toList }).ledger.answers node job =
      (turn.grid rest {}).ledger.answers node job := by
    intro node job
    rw [answers_grid, answers_grid, mail, List.filterMap_append, List.count_append]
    by_cases own : node = turn.node.id
    · simp only [own, if_true, said, List.count_nil, undelivered]
      omega
    · simp only [own, if_false, List.filterMap_nil, List.count_nil, undelivered]
      omega
  refine ⟨genuine, safe.step rfl rfl rfl same ?_ sound
    fun same => safe.balanced.relax same ?_ ?_ id ?_⟩
  · intro node message member
    apply safe.honest_mail
    rw [mail, List.mem_append]
    exact .inr member
  · intro node job
    rw [held_grid, held_grid, mail, List.filterMap_append, List.count_append]
    by_cases own : node = turn.node.id
    · simp only [own, if_true, said, List.count_nil]
      omega
    · simp only [own, if_false, List.filterMap_nil, List.count_nil]
      omega
  · exact fun node job => Nat.le_of_eq (answers node job)
  · exact fun {node job _} _ _ => answers node job

/-- What is sent to a node is true. -/
theorem honest_of_posts {receiver : NodeId} {message : Message}
    (safe : turn.Safe owner rest hand) (posts : Posts rest receiver message turn next)
    (genuine : message.Genuine owner receiver) (node : NodeId) :
    ∀ other ∈ next.mail rest node, other.Genuine owner node := by
  intro other member
  rw [posts.mail, List.mem_append] at member
  cases member with
  | inl earlier => exact safe.honest_mail node other earlier
  | inr new =>
      split at new
      · rename_i same
        rw [List.mem_singleton] at new
        exact same ▸ new ▸ genuine
      · cases new

/-- A request for work changes nothing about jobs. -/
theorem request {receiver : NodeId} {request : StealRequest} (safe : turn.Safe owner rest hand)
    (sent : turn.send receiver (.stealRequest request) = .ok next) :
    next.Safe owner rest hand := by
  have readable : (Message.stealRequest request).Readable := trivial
  have posts := posts_of_send safe.wired readable sent
  have silent : ∀ (node : NodeId) (part : Message → Option JobId),
      part (.stealRequest request) = none →
      (next.mail rest node).filterMap part = (turn.mail rest node).filterMap part := by
    intro node part nothing
    rw [posts.mail, List.filterMap_append]
    split
    · simp [nothing]
    · simp
  have answers : ∀ node job, (next.grid rest hand).ledger.answers node job =
      (turn.grid rest hand).ledger.answers node job := by
    intro node job
    rw [answers_grid, answers_grid, silent node _ rfl, posts.node, undelivered, undelivered,
      posts.unreported]
  refine safe.step (by rw [posts.node]) (by rw [posts.node]) (by rw [posts.node]) posts.cluster
    (safe.honest_of_posts posts trivial) (posts.node ▸ safe.sound_self) fun same =>
      safe.balanced.relax same ?_ (fun node job => Nat.le_of_eq (answers node job)) ?_
        fun _ _ => answers _ _
  · intro node job
    rw [held_grid, held_grid, silent node _ rfl, posts.node]
  · exact pends_of_less turn hand (by rw [posts.node]) fun waits => posts.node ▸ waits

/-- What has to be shown of a report about a job that the node had in its hand. -/
theorem reported {job : JobId} {jobs : List JobId} {origin : NodeId}
    (safe : turn.Safe owner rest { hand with jobs := job :: jobs })
    (owned : (owner job).map Prod.fst = some origin) (node : next.node = turn.node)
    (cluster : turn.cluster.SameMembers next.cluster)
    (honest : ∀ name, ∀ message ∈ next.mail rest name, message.Genuine owner name)
    (brought : ∀ name, (next.mail rest name).filterMap Message.brought? =
      (turn.mail rest name).filterMap Message.brought?)
    (answered : ∀ name other, ((next.mail rest name).filterMap Message.answered?).count other +
        (next.undelivered name).count other =
      ((turn.mail rest name).filterMap Message.answered?).count other +
        (turn.undelivered name).count other + if name = origin ∧ other = job then 1 else 0) :
    next.Safe owner rest { hand with jobs } := by
  refine safe.step (by rw [node]) (by rw [node]) (by rw [node]) cluster honest
    (node ▸ ⟨safe.sound_self.1, safe.sound_self.2, safe.sound_self.3⟩) fun same =>
      safe.balanced.report same safe.member owned ?_ ?_ ?_
  · intro name other
    rw [held_grid, held_grid, brought, node, List.count_cons]
    grind
  · intro name other
    rw [answers_grid, answers_grid, answered, node]
    exact Nat.add_right_comm _ _ _
  · exact pends_of_less turn _ (by rw [node]) fun waits => node ▸ waits

/-- The node reports about a job that it had in its hand. -/
theorem report {job : JobId} {jobs : List JobId} {origin : NodeId} {message : Message}
    (safe : turn.Safe owner rest { hand with jobs := job :: jobs })
    (answered : message.answered? = some job) (genuine : message.Genuine owner origin)
    (readable : message.Readable) : (turn.report origin message).Safe owner rest
      { hand with jobs } := by
  have owned := genuine.home answered
  have silent := Message.brought?_of_answered? answered
  cases sent : turn.send origin message with
  | error refused =>
      simp only [Turn.report, sent]
      refine safe.reported owned rfl (.refl _) safe.honest_mail (fun _ => rfl) ?_
      intro name other
      simp only [undelivered, List.filterMap_append, List.count_append, List.filterMap_cons,
        List.filterMap_nil, eq_comm (a := origin)]
      by_cases one : name = origin
      · simp only [one, if_true, answered, true_and, List.count_singleton, beq_iff_eq,
          eq_comm (a := job), mail]
        omega
      · simp only [one, if_false, false_and, List.count_nil, mail]
        omega
  | ok next =>
      simp only [Turn.report, sent]
      have posts := posts_of_send safe.wired readable sent
      refine safe.reported owned posts.node posts.cluster (safe.honest_of_posts posts genuine) ?_ ?_
      · intro name
        rw [posts.mail, List.filterMap_append]
        split
        · simp [silent]
        · simp
      · intro name other
        simp only [undelivered, posts.unreported, posts.mail, List.filterMap_append,
          List.count_append]
        by_cases one : name = origin
        · simp only [one, if_true, true_and, List.filterMap_cons, List.filterMap_nil, answered,
            List.count_singleton, beq_iff_eq, eq_comm (a := job)]
          omega
        · simp only [one, if_false, false_and, List.filterMap_nil, List.count_nil]
          omega

end Safe

end Turn

end JobGrid
