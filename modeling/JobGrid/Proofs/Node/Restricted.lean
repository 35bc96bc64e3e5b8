import JobGrid.Proofs.Node.Delivery
import JobGrid.Proofs.Node.Tasking

/-!
# Restricted sessions

A node delivers the jobs of a session that was registered for some nodes before its task was
submitted to these nodes only, whatever is refused, rejected, stolen or lost, as long as the
task is followed. A submission whose task ended early goes on placing its other jobs, and these
may go elsewhere when they are refused.
-/

namespace JobGrid

namespace Turn

variable {turn next : Turn}

/-- The first nodes of the jobs of a balanced task are members that its session may run on. -/
theorem isAmong_of_assign {session : SessionId} {candidates : List Member} {jobs : List JobSpec}
    {assignments : List Assignment}
    (assigned : assign session candidates .balanced jobs turn = (.ok assignments, next)) :
    ∀ assignment ∈ assignments, ∃ member ∈ candidates, member.id = assignment.target := by
  induction jobs generalizing turn next assignments with
  | nil =>
      cases assigned
      exact fun _ none => absurd none List.not_mem_nil
  | cons spec rest ih =>
      obtain ⟨target, picked, others, found, tail, rfl⟩ := assign_cons_eq_ok.1 assigned
      rw [List.forall_mem_cons]
      refine ⟨?_, ih tail⟩
      obtain ⟨chosen, made, equal⟩ := Result.map_eq_ok.1 found
      cases equal
      exact Balancer.isAmong_of_pick made

/-- The first nodes of the jobs of an accepted balanced task are allowed for its session. -/
theorem allowed_of_accept {session : SessionId} {jobs : List JobSpec} {ticket : Nat}
    {assignments : List Assignment} {allowed : JobTransfer → NodeId → Prop}
    (accepted : turn.accept session jobs .balanced = (.ok (ticket, assignments), next))
    (covers : turn.Covers allowed session) :
    ∀ assignment ∈ assignments, assignment.transfer.session = session →
      allowed assignment.transfer assignment.target := by
  obtain ⟨-, last, assigned, -, -⟩ := accept_eq_ok.1 accepted
  intro assignment member own
  obtain ⟨candidate, inside, same⟩ := isAmong_of_assign assigned assignment member
  exact same ▸ covers assignment.transfer own candidate inside

/-- All jobs of a task belong to its session. -/
theorem session_of_accept {session : SessionId} {jobs : List JobSpec} {placement : Placement}
    {ticket : Nat} {assignments : List Assignment}
    (accepted : turn.accept session jobs placement = (.ok (ticket, assignments), next)) :
    ∀ assignment ∈ assignments, assignment.transfer.session = session := by
  obtain ⟨-, -, -, transfers⟩ := accepted_of_accept accepted
  intro assignment member
  have inside := List.mem_map_of_mem (f := Assignment.transfer) member
  rw [transfers] at inside
  obtain ⟨spec, -, equal⟩ := List.mem_map.1 inside
  rw [← equal]

namespace Ships

variable {session other : SessionId} {nodes : List NodeId} {isAhead : Prop}
  {allowed : JobTransfer → NodeId → Prop} {brought : Option JobTransfer} {before : Turn}

/-- Following a task delivers nothing. The task of a restricted session is followed only while
the session is registered. -/
theorem accept (ships : Ships session nodes isAhead allowed brought before turn)
    (jobs : List JobSpec) (placement : Placement)
    (registered : other = session →
      turn.node.restrictions.get? session = some nodes ∧ ¬ isAhead) :
    Ships session nodes isAhead allowed brought before (turn.accept other jobs placement).2 := by
  cases accepted : turn.accept other jobs placement with
  | mk found last =>
      cases found with
      | error failure =>
          obtain ⟨_, _, rfl⟩ := picks_of_accept accepted
          exact ships.congr rfl rfl rfl rfl rfl
      | ok pair =>
          obtain ⟨picked, ⟨balancer, drawn, rfl⟩, rfl, -⟩ := accepted_of_accept accepted
          have tracked : Ships session nodes isAhead allowed brought before
              (turn.update fun node => { node with
                tasks := node.tasks.insert other {
                  pending := .ofList (pair.2.map fun assignment =>
                    (assignment.transfer.spec.id,
                      PendingJob.mk assignment.transfer assignment.target))
                  ticket := node.tickets } }) := by
            refine ⟨ships.id, ships.inboxes, ⟨?_, ?_⟩, ships.delivers.letters,
              ships.delivers.handles⟩
            · intro tracked
              by_cases same : other = session
              · exact (registered same).1
              · simp only [update, Table.get?_insert_of_ne _ _ same] at tracked ⊢
                exact ships.restricts.followed tracked
            · intro ahead
              have differs : other ≠ session := fun same => (registered same).2 ahead
              simp only [update, Table.get?_insert_of_ne _ _ differs]
              exact ships.restricts.ahead ahead
          simp only [track]
          split
          · exact tracked.congr rfl rfl rfl rfl rfl
          · exact tracked.congr rfl rfl rfl rfl rfl

/-- Other sessions may be registered at any time. -/
theorem register (ships : Ships session nodes isAhead allowed brought before turn)
    (differs : other ≠ session) (others : List NodeId) :
    Ships session nodes isAhead allowed brought before (turn.update fun node =>
      { node with restrictions := node.restrictions.register other others }) := by
  refine ⟨ships.id, ships.inboxes, ⟨?_, ?_⟩, ships.delivers.letters, ships.delivers.handles⟩
  · intro tracked
    simp only [update, Restrictions.register, Table.get?_insert_of_ne _ _ differs]
    exact ships.restricts.followed tracked
  · intro ahead
    simp only [update, Restrictions.register, Table.get?_insert_of_ne _ _ differs]
    exact ships.restricts.ahead ahead

end Ships

end Turn

namespace NodeEvent

/-- An event leaves the restriction of a session alone: the session is not registered anew, and
if its task is submitted, then the balancer places its jobs. -/
def Respects (session : SessionId) (event : NodeEvent) : Prop :=
  match event.action with
  | .submit other _ placement => other = session → placement = .balanced
  | .restrict other _ => other ≠ session
  | _ => True

theorem Respects.not_restrict {session : SessionId} {event : NodeEvent}
    (respects : event.Respects session) (others : List NodeId) :
    event.action ≠ .restrict session others := by
  intro action
  simp only [Respects, action] at respects
  exact respects rfl

/-- The job that a message brings. -/
def brought? (event : NodeEvent) : Option JobTransfer :=
  match event.action with
  | .message envelope =>
      match envelope.message? with
      | some (.jobSubmit transfer) => some transfer
      | _ => none
  | _ => none

end NodeEvent

namespace Tasking

/-- Whether a history has submitted the task of a session. -/
def Submitted (session : SessionId) (history : List NodeEvent) : Prop :=
  session ∈ (submissions history).map Prod.fst

section Registered

variable {session : SessionId} {nodes : List NodeId} {history : List NodeEvent}
  {tasking : Tasking} {event : NodeEvent}

theorem submitted_append (earlier later : List NodeEvent) :
    Submitted session (earlier ++ later) ↔
      Submitted session earlier ∨ Submitted session later := by
  rw [Submitted, submissions, List.filterMap_append, List.map_append, List.mem_append]
  rfl

/-- The session is registered when its task is submitted, and counts as submitted from then
on. -/
theorem registered_of_submit {other : SessionId} {jobs : List JobSpec} {placement : Placement}
    (kept : tasking.node.Restricts session nodes (¬ Submitted session history))
    (once : ((submissions (history ++ [event])).map Prod.fst).count session ≤ 1)
    (action : event.action = .submit other jobs placement) (same : other = session) :
    tasking.node.restrictions.get? session = some nodes ∧
      ¬ ¬ Submitted session (history ++ [event]) := by
  subst same
  have here : submissions [event] = [(other, jobs)] := by
    simp [submissions, NodeEvent.submission?, action]
  have split : submissions (history ++ [event]) = submissions history ++ [(other, jobs)] := by
    rw [← here]
    exact List.filterMap_append
  have ahead : ¬ Submitted other history := by
    intro earlier
    have positive := List.count_pos_iff.2 earlier
    rw [split, List.map_append, List.count_append, List.map_singleton,
      List.count_singleton_self] at once
    omega
  refine ⟨(kept.ahead ahead).1, not_not_intro ?_⟩
  rw [Submitted, split]
  simp

/-- Every turn delivers jobs only where they are allowed to go, if all jobs may go where their
sessions may run, and what is placed for the first time may go there. -/
theorem ships_turnOf (kept : tasking.node.Restricts session nodes (¬ Submitted session history))
    (stays : ∀ others, event.action ≠ .restrict session others)
    (once : ((submissions (history ++ [event])).map Prod.fst).count session ≤ 1)
    {allowed : JobTransfer → NodeId → Prop}
    (covers : ∀ {turn : Turn} {other : SessionId},
      (other = session → turn.node.restrictions.get? session = some nodes) →
      turn.Covers allowed other)
    (placed : ∀ {other : SessionId} {count : Nat} {assignment : Turn.Assignment}
      {rest : List Turn.Assignment}, event.action = .place other →
      tasking.mappings.get? other = some ⟨count, assignment :: rest⟩ →
      allowed assignment.transfer assignment.target ∧
        (tasking.turnAt event.now event.cluster).Covers allowed assignment.transfer.session) :
    Turn.Ships session nodes (¬ Submitted session (history ++ [event])) allowed event.brought?
      (tasking.turnAt event.now event.cluster) (tasking.turnOf event) := by
  have restricts : (tasking.turnAt event.now event.cluster).node.Restricts session nodes
      (¬ Submitted session (history ++ [event])) := by
    refine ⟨kept.followed, ?_⟩
    intro ahead
    exact kept.ahead fun earlier => ahead ((submitted_append _ _).2 (.inl earlier))
  have ships : Turn.Ships session nodes (¬ Submitted session (history ++ [event])) allowed
      event.brought? (tasking.turnAt event.now event.cluster)
      (tasking.turnAt event.now event.cluster) := .start restricts
  have walk : Turn.Walk (Turn.Ships session nodes (¬ Submitted session (history ++ [event]))
      allowed event.brought? (tasking.turnAt event.now event.cluster)) allowed :=
    Turn.Ships.walk _ _ covers
  simp only [turnOf]
  cases action : event.action with
  | submit other jobs placement =>
      exact ships.accept jobs placement (registered_of_submit kept once action)
  | place other =>
      simp only
      split
      · rename_i count assignment rest found
        obtain ⟨fits, covered⟩ := placed action found
        exact walk.place ships covered fits
      · exact ships
  | conclude other =>
      simp only
      split
      · exact walk.conclude ships other _
      · exact ships
  | message envelope =>
      apply walk.onMessage ships envelope
      intro transfer next reads held
      apply ships.hold held
      right
      simp only [NodeEvent.brought?, action, Envelope.message?, reads]
      rfl
  | discover found => exact walk.onEvent ships found
  | look => exact Turn.Ships.collide walk restricts
  | complete execution => exact ships.complete walk execution
  | publish => exact ships.publishMetrics
  | restrict other others =>
      refine ships.register ?_ others
      rintro rfl
      exact stays others action
  | reroll chance => exact ships.congr rfl rfl rfl rfl rfl

/-- In a part of a history there are no more submissions of a session than in all of it. -/
theorem count_submissions_le (earlier later : List NodeEvent) :
    ((submissions earlier).map Prod.fst).count session ≤
      ((submissions (earlier ++ later)).map Prod.fst).count session :=
  List.Sublist.count_le session
    (List.Sublist.map _ (List.Sublist.filterMap _ (List.sublist_append_left _ _)))

/-- Whatever happens next, the session stays registered while its task is followed. -/
theorem restricts_perform
    (kept : tasking.node.Restricts session nodes (¬ Submitted session history))
    (stays : ∀ others, event.action ≠ .restrict session others)
    (once : ((submissions (history ++ [event])).map Prod.fst).count session ≤ 1) :
    (tasking.perform event).node.Restricts session nodes
      (¬ Submitted session (history ++ [event])) := by
  have ships : Turn.Ships session nodes (¬ Submitted session (history ++ [event]))
      (fun _ _ => True) event.brought? (tasking.turnAt event.now event.cluster)
      (tasking.turnOf event) := by
    apply ships_turnOf kept stays once
    · exact fun _ _ _ _ _ => trivial
    · exact fun _ _ => ⟨trivial, fun _ _ _ _ => trivial⟩
  rw [node_perform]
  exact ships.restricts

/-- Whatever happens, the session stays registered while its task is followed. -/
theorem restricts_run {later : List NodeEvent}
    (kept : tasking.node.Restricts session nodes (¬ Submitted session history))
    (stays : ∀ event ∈ later, ∀ others, event.action ≠ .restrict session others)
    (once : ((submissions (history ++ later)).map Prod.fst).count session ≤ 1) :
    (tasking.run later).node.Restricts session nodes
      (¬ Submitted session (history ++ later)) := by
  induction later generalizing history tasking with
  | nil => rwa [List.append_nil]
  | cons event rest ih =>
      have split : history ++ event :: rest = (history ++ [event]) ++ rest := by simp
      rw [split] at once ⊢
      rw [List.forall_mem_cons] at stays
      have first := Nat.le_trans (count_submissions_le _ _) once
      exact ih (restricts_perform kept stays.1 first) stays.2 once

end Registered

/-- What holds of a node and its submissions after a history that began when a session had been
registered and not yet submitted. -/
structure Restricted (session : SessionId) (nodes : List NodeId) (history : List NodeEvent)
    (tasking : Tasking) : Prop where
  restricts : tasking.node.Restricts session nodes (¬ Submitted session history)
  mapped : ∀ other mapping, tasking.mappings.get? other = some mapping →
    ∀ assignment ∈ mapping.left, assignment.transfer.session = session →
      other = session ∧ assignment.target ∈ nodes

namespace Restricted

variable {session : SessionId} {nodes : List NodeId} {history : List NodeEvent}
  {tasking : Tasking} {event : NodeEvent}

/-- The jobs of a new submission go to nodes that the session is registered for. -/
theorem allowed_submit {other : SessionId} {jobs : List JobSpec} {placement : Placement}
    {ticket : Nat} {assignments : List Turn.Assignment} {turn next : Turn}
    (accepted : turn.accept other jobs placement = (.ok (ticket, assignments), next))
    (balanced : other = session → placement = .balanced)
    (registered : other = session → turn.node.restrictions.get? session = some nodes) :
    ∀ assignment ∈ assignments, assignment.transfer.session = session →
      other = session ∧ assignment.target ∈ nodes := by
  intro assignment member own
  have same : other = session := (Turn.session_of_accept accepted assignment member).symm.trans own
  subst same
  cases balanced rfl
  exact ⟨rfl, Turn.allowed_of_accept accepted (Turn.covers_boundTo registered) assignment member
    own own⟩

/-- Whatever happens next, the session stays registered while its task is followed. -/
theorem perform (kept : Restricted session nodes history tasking)
    (respects : event.Respects session)
    (once : ((submissions (history ++ [event])).map Prod.fst).count session ≤ 1) :
    Restricted session nodes (history ++ [event]) (tasking.perform event) where
  restricts := restricts_perform kept.restricts respects.not_restrict once
  mapped := by
    have left : tasking.EachLeft fun other assignment => assignment.transfer.session = session →
        other = session ∧ assignment.target ∈ nodes := kept.mapped
    refine left.perform ?_
    intro other jobs placement ticket assignments next action accepted
    apply allowed_submit accepted
    · simpa only [NodeEvent.Respects, action] using respects
    · exact fun same => (registered_of_submit kept.restricts once action same).1

/-- Whatever happens, the session stays registered while its task is followed. -/
theorem run {later : List NodeEvent} (kept : Restricted session nodes history tasking)
    (respects : ∀ event ∈ later, event.Respects session)
    (once : ((submissions (history ++ later)).map Prod.fst).count session ≤ 1) :
    Restricted session nodes (history ++ later) (tasking.run later) := by
  induction later generalizing history tasking with
  | nil => rwa [List.append_nil]
  | cons event rest ih =>
      have split : history ++ event :: rest = (history ++ [event]) ++ rest := by simp
      rw [split] at once ⊢
      rw [List.forall_mem_cons] at respects
      have first := Nat.le_trans (count_submissions_le _ _) once
      exact ih (kept.perform respects.1 first) respects.2 once

end Restricted

/-- A session was registered for some nodes, and then its task is submitted, once, for the
balancer to place its jobs. Whatever happens before, meanwhile and later, every turn of the
node delivers jobs of the session to these nodes only, unless the turn places a job of the
submission although its task has ended. -/
theorem deliveries_restricted {tasking : Tasking} {session : SessionId} {nodes : List NodeId}
    (registered : tasking.node.restrictions.get? session = some nodes)
    (unfollowed : tasking.node.tasks.get? session = none)
    (unmapped : ∀ other mapping, tasking.mappings.get? other = some mapping →
      ∀ assignment ∈ mapping.left, assignment.transfer.session ≠ session)
    {history : List NodeEvent} {event : NodeEvent}
    (respects : ∀ one ∈ history ++ [event], one.Respects session)
    (once : ((submissions (history ++ [event])).map Prod.fst).count session ≤ 1)
    (follows : event.action = .place session →
      ((tasking.run history).node.tasks.get? session).isSome) :
    ((tasking.run history).turnAt event.now event.cluster).DeliversOnly
      (Turn.BoundTo session nodes) event.brought? ((tasking.run history).turnOf event) := by
  have start : Restricted session nodes [] tasking := by
    refine ⟨⟨?_, fun _ => ⟨registered, unfollowed⟩⟩, ?_⟩
    · exact fun _ => registered
    · intro other mapping found assignment member own
      exact absurd own (unmapped other mapping found assignment member)
  have earlier : ((submissions ([] ++ history)).map Prod.fst).count session ≤ 1 := by
    refine Nat.le_trans (List.Sublist.count_le session (List.Sublist.map _ ?_)) once
    exact List.Sublist.filterMap _ (List.sublist_append_left _ _)
  have kept := start.run (fun one member => respects one (List.mem_append_left _ member)) earlier
  have ships : Turn.Ships session nodes (¬ Submitted session (history ++ [event]))
      (Turn.BoundTo session nodes) event.brought?
      ((tasking.run history).turnAt event.now event.cluster)
      ((tasking.run history).turnOf event) := by
    apply ships_turnOf kept.restricts (respects event (by simp)).not_restrict once
      Turn.covers_boundTo
    intro other count assignment rest action found
    have bound := kept.mapped other _ found assignment List.mem_cons_self
    refine ⟨fun own => (bound own).2, Turn.covers_boundTo ?_⟩
    intro own
    obtain ⟨rfl, -⟩ := bound own
    exact kept.restricts.followed (follows action)
  exact ships.delivers

/-- Both jobs of a session that is registered for another member are sent to that member. -/
theorem deliveries_restricted_of_member :
    let session : SessionId := .ofNat 5
    let node : Node := {
      id := .ofNat 0
      config := {}
      chance := {}
      queue := { capacity := 9 }
      resolver := { config := {} }
      balancer := .affinity { config := {}, ring := .empty "" Digest.md5 }
      restrictions := ⟨[(session, [.ofNat 1])], by simp⟩
      tracker := { started := 0, cpus := 1 }
      inbox := 0
      position := 0 }
    let cluster : Cluster := {
      capacity := 9
      members := [{ id := .ofNat 0 }, { id := .ofNat 1 }]
      inboxes := ⟨[(.ofNat 0, 0), (.ofNat 1, 1)], by decide⟩
      mailboxes := #[{}, {}] }
    let happens (action : NodeAction) : NodeEvent := ⟨0, cluster, action⟩
    let history : List NodeEvent := [
      happens (.submit session [{ id := .ofNat 7 }, { id := .ofNat 8 }] .balanced),
      happens (.place session)]
    let event : NodeEvent := happens (.place session)
    node.restrictions.get? session = some [.ofNat 1] ∧ node.tasks.get? session = none ∧
      (∀ one ∈ history ++ [event], one.Respects session) ∧
      ((submissions (history ++ [event])).map Prod.fst).count session ≤ 1 ∧
      ((run { node } history).node.tasks.get? session).isSome ∧
      (((run { node } history).turnOf event).cluster.mailbox 1).letters.length = 1 ∧
      ((run { node } history).turnAt 0 cluster).DeliversOnly
        (Turn.BoundTo session [.ofNat 1]) event.brought? ((run { node } history).turnOf event) := by
  intro session node cluster happens history event
  have registered : node.restrictions.get? session = some [.ofNat 1] := by decide
  have respects : ∀ one ∈ history ++ [event], one.Respects session := by
    simp [history, event, happens, NodeEvent.Respects]
  have once : ((submissions (history ++ [event])).map Prod.fst).count session ≤ 1 := by decide
  have follows : ((run { node } history).node.tasks.get? session).isSome := by decide +kernel
  refine ⟨registered, rfl, respects, once, follows, by decide +kernel, ?_⟩
  refine deliveries_restricted registered rfl ?_ respects once fun _ => follows
  intro other mapping found
  cases found

/-- The only member that a session is registered for takes no jobs. The first job of the task
ends it and with it the registration, and the node then keeps the second job for itself. -/
theorem deliveries_stray :
    let session : SessionId := .ofNat 5
    let node : Node := {
      id := .ofNat 0
      config := {}
      chance := {}
      queue := { capacity := 9 }
      resolver := { config := {} }
      balancer := .affinity { config := {}, ring := .empty "" Digest.md5 }
      restrictions := ⟨[(session, [.ofNat 1])], by simp⟩
      tracker := { started := 0, cpus := 1 }
      inbox := 0
      position := 0 }
    let cluster : Cluster := {
      capacity := 9
      members := [{ id := .ofNat 0 }, { id := .ofNat 1 }]
      inboxes := ⟨[(.ofNat 0, 0), (.ofNat 1, 1)], by decide⟩
      mailboxes := #[{}, { isOpen := false }] }
    let happens (action : NodeAction) : NodeEvent := ⟨0, cluster, action⟩
    let history : List NodeEvent := [
      happens (.submit session [{ id := .ofNat 7 }, { id := .ofNat 8 }] .balanced),
      happens (.place session)]
    let event : NodeEvent := happens (.place session)
    node.restrictions.get? session = some [.ofNat 1] ∧ node.tasks.get? session = none ∧
      (∀ one ∈ history ++ [event], one.Respects session) ∧
      ((submissions (history ++ [event])).map Prod.fst).count session ≤ 1 ∧
      ¬ ((run { node } history).turnAt 0 cluster).DeliversOnly
        (Turn.BoundTo session [.ofNat 1]) event.brought? ((run { node } history).turnOf event) := by
  intro session node cluster happens history event
  have respects : ∀ one ∈ history ++ [event], one.Respects session := by
    simp [history, event, happens, NodeEvent.Respects]
  refine ⟨by decide, rfl, respects, by decide, ?_⟩
  intro delivers
  let kept : JobHandle := {
    spec := { id := .ofNat 8 }
    session
    origin := node.id
    createdAt := 0
    failoverAttempts := 1 }
  have found : ((run { node } history).turnOf event).node.store.get? 0 = some kept := by
    decide +kernel
  have early : ((run { node } history).turnAt 0 cluster).node.store.next ≤ 0 := by decide +kernel
  rcases delivers.handles 0 kept early found with bound | brought
  · have stays := bound rfl
    revert stays
    decide +kernel
  · cases brought

end Tasking

end JobGrid
