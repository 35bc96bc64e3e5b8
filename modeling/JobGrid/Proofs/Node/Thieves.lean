import JobGrid.Proofs.Grid.History
import JobGrid.Proofs.Node.Conduct

/-!
# Thieves of restricted sessions

A node that gives the jobs of a restricted session away asks its own restrictions only. At the
origin of the session these are in force as long as the task is followed, so that the job can go
on to its thief. They are not sent along with a job: other nodes do not know them, and give the
job to anybody who asks.
-/

namespace JobGrid

namespace Turn

variable {turn : Turn} {ref : JobRef} {handle : JobHandle} {thief : NodeId}

/-- A pass gives a job only to another member that the session may run on by the restrictions
of the node. -/
theorem thief_of_pass (found : turn.node.store.get? ref = some handle)
    (given : turn.node.store.taker? turn.pass.store ref = some thief) :
    thief ≠ turn.node.id ∧ turn.node.restrictions.allows handle.session thief = true ∧
      ∃ member ∈ turn.taskNodes handle.session, member.id = thief := by
  obtain ⟨other, there, suits⟩ := (Resolver.fate_collide turn.node.resolver
    (turn.node.resolver.scene (turn.cluster.view turn.node.id) turn.node.restrictions
      turn.node.chance.peers turn.now) turn.cluster.accepts turn.node.store
    (turn.node.queue.waiting.map QueuedJob.ref) turn.node.queue.active.size ref).of_taker? given
  rw [found, Option.some.injEq] at there
  subst there
  have allowed : turn.node.restrictions.allows handle.session thief = true := suits.allowed
  obtain ⟨member, remote, same⟩ := List.any_eq_true.1 suits.remote
  have same : member.id = thief := of_decide_eq_true same
  obtain ⟨present, differs⟩ := List.mem_filter.1 remote
  subst same
  exact ⟨of_decide_eq_true differs, allowed, member, List.mem_filter.2 ⟨present, allowed⟩, rfl⟩

/-- A job that a node gave away goes on to its thief if the session may run there. -/
theorem failover_of_thief {transfer : JobTransfer} {maxAttempts : UInt32} {rejectedBy : NodeId}
    (differs : thief ≠ rejectedBy)
    (present : ∃ member ∈ turn.taskNodes transfer.session, member.id = thief)
    (left : transfer.failoverAttempts < maxAttempts) :
    ∃ next, turn.failover maxAttempts transfer rejectedBy (some thief) = .ok (thief, next) := by
  obtain ⟨member, inside, same⟩ := present
  obtain ⟨found, there⟩ : ∃ found, (turn.taskNodes transfer.session).find?
      (fun member => member.id = thief) = some found := by
    rw [← Option.isSome_iff_exists, List.find?_isSome]
    exact ⟨member, inside, decide_eq_true same⟩
  have identity : found.id = thief := by simpa using List.find?_some there
  refine ⟨turn.update fun node =>
    { node with balancer := turn.node.balancer, drawn := node.drawn + 1 }, ?_⟩
  simp only [failover, Rejection.failover, Rejection.route, Rejection.presentThief?,
    if_neg (UInt32.not_le.2 left), if_neg differs, there, Except.map, identity]

end Turn

namespace Tasking

/-- Whatever happened to a node, a pass gives a job only to another member that the session of the
job may run on by the restrictions of the node, and there the job could go on to. If the session
was registered for some nodes before its task was submitted, then the thief is one of them while
the node follows the task. -/
theorem thief_of_restricted {tasking : Tasking} {history : List NodeEvent} {now : Moment}
    {cluster : Cluster} {ref : JobRef} {handle : JobHandle} {thief : NodeId}
    (found : (tasking.run history).node.store.get? ref = some handle)
    (given : (tasking.run history).node.store.taker?
      ((tasking.run history).turnAt now cluster).pass.store ref = some thief) :
    let turn := (tasking.run history).turnAt now cluster
    thief ≠ turn.node.id ∧ (∃ member ∈ turn.taskNodes handle.session, member.id = thief) ∧
      (∀ maxAttempts, handle.failoverAttempts < maxAttempts → ∃ next, turn.failover maxAttempts
        (.ofHandle handle) turn.node.id (some thief) = .ok (thief, next)) ∧
      ∀ nodes, tasking.node.restrictions.get? handle.session = some nodes →
        tasking.node.tasks.get? handle.session = none →
        (∀ event ∈ history, ∀ others, event.action ≠ .restrict handle.session others) →
        ((submissions history).map Prod.fst).count handle.session ≤ 1 →
        turn.Follows handle.session → thief ∈ nodes := by
  intro turn
  have stored : turn.node.store.get? ref = some handle := found
  obtain ⟨differs, allowed, present⟩ := Turn.thief_of_pass stored given
  refine ⟨differs, present, ?_, ?_⟩
  · intro maxAttempts left
    exact Turn.failover_of_thief differs present left
  · intro nodes registered unfollowed stays once followed
    have kept : tasking.node.Restricts handle.session nodes (¬ Submitted handle.session []) :=
      ⟨fun _ => registered, fun _ => ⟨registered, unfollowed⟩⟩
    have restricts := restricts_run kept stays once
    have there : turn.node.restrictions.get? handle.session = some nodes :=
      restricts.followed followed
    rw [Restrictions.allows, there] at allowed
    exact List.contains_iff_mem.1 allowed

/-- A job of a restricted session waits at its origin and is given to the one other member that
the session may run on, which asked for it. -/
theorem thief_of_restricted_of_request :
    let session : SessionId := .ofNat 5
    let peer : NodeId := .ofNat 1
    let stealing : StealingConfig := { activeThreshold := 0 }
    let node : Node := {
      id := .ofNat 0
      config := { stealing }
      chance := {}
      queue := { capacity := 9 }
      resolver := { config := stealing, queue := [peer] }
      balancer := .affinity { config := {}, ring := .empty "" Digest.md5 }
      restrictions := ⟨[(session, [peer])], by simp⟩
      tracker := { started := 0, cpus := 1 }
      inbox := 0
      position := 0 }
    let cluster : Cluster := {
      capacity := 9
      members := [{ id := .ofNat 0 }, { id := peer }]
      inboxes := ⟨[(.ofNat 0, 0), (peer, 1)], by decide⟩
      mailboxes := #[{}, {}] }
    let request : Message := .stealRequest ⟨1⟩
    let happens (action : NodeAction) : NodeEvent := ⟨0, cluster, action⟩
    let history : List NodeEvent := [
      happens (.submit session [{ id := .ofNat 7 }] .pinned),
      happens (.place session),
      happens (.conclude session),
      happens (.message ⟨peer, request.topic, request.encode⟩)]
    let tasking : Tasking := { node }
    let turn := (tasking.run history).turnAt 0 cluster
    let handle : JobHandle :=
      { spec := { id := .ofNat 7 }, session, origin := .ofNat 0, createdAt := 0 }
    turn.node.store.get? 0 = some handle ∧
      turn.node.store.taker? turn.pass.store 0 = some peer ∧
      tasking.node.restrictions.get? session = some [peer] ∧
      tasking.node.tasks.get? session = none ∧
      (∀ event ∈ history, ∀ others, event.action ≠ .restrict session others) ∧
      ((submissions history).map Prod.fst).count session ≤ 1 ∧ turn.Follows session ∧
      peer ∈ [peer] ∧ (∃ member ∈ turn.taskNodes session, member.id = peer) ∧
      ∃ next, turn.failover 3 (.ofHandle handle) turn.node.id (some peer) = .ok (peer, next) := by
  intro session peer stealing node cluster request happens history tasking turn handle
  have found : turn.node.store.get? 0 = some handle := by decide +kernel
  have given : turn.node.store.taker? turn.pass.store 0 = some peer := by decide +kernel
  have registered : tasking.node.restrictions.get? session = some [peer] := by decide
  have stays : ∀ event ∈ history, ∀ others, event.action ≠ .restrict session others := by
    simp [history, happens]
  have once : ((submissions history).map Prod.fst).count session ≤ 1 := by decide
  have followed : turn.Follows session := by
    show (turn.node.tasks.get? session).isSome = true
    decide +kernel
  obtain ⟨-, present, routed, inside⟩ := thief_of_restricted found given
  exact ⟨found, given, registered, rfl, stays, once, followed,
    inside [peer] registered rfl stays once followed, present, routed 3 (by decide)⟩

end Tasking

/-- The origin restricts a session to one member, where the job of its task waits. This member
knows nothing of the restriction and gives the job to an idle node outside of it. -/
theorem World.thief_outside :
    let session : SessionId := .ofNat 5
    let origin : NodeId := .ofNat 1
    let holder : NodeId := .ofNat 2
    let idler : NodeId := .ofNat 3
    let node (id : NodeId) (inbox : MailboxRef) (stealing : StealingConfig) : Node := {
      id
      config := { stealing }
      chance := {}
      queue := { capacity := 9 }
      resolver := { config := stealing, queue := [origin, holder, idler].erase id }
      balancer := .affinity { config := {}, ring := .empty "" Digest.md5 }
      tracker := { started := 0, cpus := 1 }
      inbox
      position := 0 }
    let member (id : NodeId) : Member :=
      { id, attributes := .ofList [(AttributeName.waitThreshold, .int 0)] }
    let cluster : Cluster := {
      capacity := 9
      members := [member origin, member holder, member idler]
      inboxes := .ofList [(origin, 0), (holder, 1), (idler, 2)]
      mailboxes := #[{}, {}, {}] }
    let nodes := .ofList [(origin, node origin 0 {}),
      (holder, node holder 1 { activeThreshold := 0 }), (idler, node idler 2 {})]
    let start : World := { now := 0, cluster, nodes }
    let allowed : List NodeId := [holder]
    let history : List GridEvent := [
      .turn origin (.restrict session allowed),
      .turn origin (.submit session [{ id := .ofNat 7 }] .balanced),
      .turn holder .receive,
      .turn holder .publish,
      .turn idler .look,
      .turn holder .receive,
      .turn holder .look]
    ∃ final giver handle, start.steps? history = some final ∧
      final.nodes.get? holder = some giver ∧ giver.store.get? 0 = some handle ∧
      handle.session = session ∧ handle.thief = some idler ∧ idler ∉ allowed := by
  intro session origin holder idler node member cluster nodes start allowed history
  have ends : ((start.steps? history).bind fun final => (final.nodes.get? holder).bind fun giver =>
      (giver.store.get? 0).map fun handle => (handle.session, handle.thief)) =
        some (session, some idler) := by
    decide +kernel
  obtain ⟨final, happened, ends⟩ := Option.bind_eq_some_iff.1 ends
  obtain ⟨giver, there, ends⟩ := Option.bind_eq_some_iff.1 ends
  obtain ⟨handle, found, same⟩ := Option.map_eq_some_iff.1 ends
  rw [Prod.mk.injEq] at same
  exact ⟨final, giver, handle, happened, there, found, same.1, same.2, by decide⟩

end JobGrid
