import JobGrid.Proofs.Grid.Rings
import JobGrid.Proofs.Steal.Counter
import JobGrid.Proofs.Steal.Rotation

/-!
# Resolvers that follow a grid

The resolver of a node is told of the changes of a grid one after another, while the grid goes on
changing, peers ask for work and passes are made. What the resolver has not been told yet makes up
for the difference between the peers that it keeps in mind and the members of the grid. Once it was
told everything, they are the same, except for the members at which a pass broke: such a pass takes
its peer out of the queue, and only news about the peer bring it back.
-/

namespace JobGrid

/-- What an event says about whether its node is a member. -/
def EventKind.presence? : EventKind → Option Bool
  | joined => some true
  | left | failed => some false
  | metricsUpdated => none

/-- What the last of some events that says so tells about whether a node is a member. -/
def lastWord? (node : NodeId) : List DiscoveryEvent → Option Bool
  | [] => none
  | event :: later =>
      (lastWord? node later).or (if event.member.id = node then event.kind.presence? else none)

theorem lastWord?_append (node : NodeId) (earlier later : List DiscoveryEvent) :
    lastWord? node (earlier ++ later) = (lastWord? node later).or (lastWord? node earlier) := by
  induction earlier with
  | nil => simp [lastWord?]
  | cons event rest ih => simp only [List.cons_append, lastWord?, ih, Option.or_assoc]

namespace Cluster

/-- A node finds whom it looks for exactly if the grid does. -/
theorem find?_view (cluster : Cluster) (localId node : NodeId) :
    (cluster.view localId).find? node = cluster.find? node := by
  simp only [GridView.find?, GridView.members, view, GridView.ofMembers, List.find?_append,
    find?_filter]
  by_cases own : localId = node
  · subst own
    rw [if_pos rfl, Option.or_none]
    cases found : cluster.members.find? fun member => member.id = localId with
    | none => rw [find?, found]; rfl
    | some member =>
        have identity : member.id = localId := id_of_find? found
        simp [find?, found, identity]
  · rw [if_neg own]
    cases found : cluster.members.find? fun member => member.id = localId with
    | none => rfl
    | some member =>
        have identity : member.id = localId := id_of_find? found
        simp [find?, identity, own]

theorem mem_remote_view {cluster : Cluster} {localId node : NodeId} :
    node ∈ (cluster.view localId).remote.map Member.id ↔
      node ≠ localId ∧ (cluster.find? node).isSome = true := by
  simp only [view, GridView.ofMembers, List.mem_map, List.mem_filter, find?, List.find?_isSome,
    decide_eq_true_eq]
  constructor
  · rintro ⟨member, ⟨inside, other⟩, rfl⟩
    exact ⟨other, member, inside, rfl⟩
  · rintro ⟨other, member, inside, rfl⟩
    exact ⟨member, ⟨inside, other⟩, rfl⟩

theorem nodup_remote_view {cluster : Cluster} (localId : NodeId)
    (distinct : (cluster.members.map Member.id).Nodup) :
    ((cluster.view localId).remote.map Member.id).Nodup :=
  distinct.sublist (List.filter_sublist.map _)

/-- Figures are published of members only. -/
theorem isSome_of_metricsUpdated {cluster : Cluster} {act : PeerAct} {event : DiscoveryEvent}
    (told : act.news? cluster = some event) (kind : event.kind = .metricsUpdated) :
    (cluster.find? event.member.id).isSome = true := by
  cases act with
  | join member =>
      cases told
      cases kind
  | leave node | fail node =>
      obtain ⟨member, -, rfl⟩ := Option.map_eq_some_iff.1 told
      cases kind
  | update node metrics =>
      obtain ⟨member, found, rfl⟩ := Option.map_eq_some_iff.1 told
      show (cluster.find? member.id).isSome = true
      rw [id_of_find? found, found]
      rfl
  | send sender receiver topic payload => cases told
  | receive inbox => cases told
  | close inbox => cases told

/-- The log says who is a member after something happened. -/
theorem isSome_find?_apply (cluster : Cluster) (act : PeerAct) (node : NodeId) :
    ((act.apply cluster).find? node).isSome =
      (lastWord? node (act.news? cluster).toList).getD (cluster.find? node).isSome := by
  rw [(AsTold.apply cluster act).found]
  cases told : act.news? cluster with
  | none => rfl
  | some event =>
      simp only [Option.toList_some, List.foldl_cons, List.foldl_nil, lastWord?, Option.none_or,
        DiscoveryEvent.knowing]
      by_cases own : event.member.id = node
      · rw [if_pos own, if_pos own]
        cases kind : event.kind with
        | joined => rfl
        | left => rfl
        | failed => rfl
        | metricsUpdated =>
            rw [← own, isSome_of_metricsUpdated told kind]
            rfl
      · rw [if_neg own, if_neg own]
        rfl

end Cluster

namespace Resolver

variable {localId node : NodeId} {resolver next : Resolver}

/-- What a resolver keeps in mind about a node is right if the node is a member, or is none, and
broken passes took some peers out of the queue. -/
structure Tracks (node : NodeId) (member : Bool) (lost : List NodeId) (resolver : Resolver) :
    Prop where
  queue : node ∈ resolver.queue ↔ member = true ∧ node ∉ lost
  received : node ∈ resolver.received.peers.keys → member = true
  sent : node ∈ resolver.sent.peers.keys → member = true

/-- A resolver keeps each peer in mind once, and nothing about its own node. -/
structure Orderly (localId : NodeId) (resolver : Resolver) : Prop where
  nodup : resolver.queue.Nodup
  queue : localId ∉ resolver.queue
  received : localId ∉ resolver.received.peers.keys
  sent : localId ∉ resolver.sent.peers.keys

/-! ## Events -/

/-- What a resolver does when it is told of a change of a peer. -/
inductive Noted (event : DiscoveryEvent) (before after : Resolver) : Prop where
  | kept (silent : event.kind.presence? = some true ∧ event.member.id ∈ before.queue ∨
      event.kind.presence? = none) (same : after = before)
  | queued (joined : event.kind.presence? = some true) (new : event.member.id ∉ before.queue)
      (same : after = { before with queue := before.queue ++ [event.member.id] })
  | dropped (departed : event.kind.presence? = some false)
      (queue : after.queue = before.queue.filter (· ≠ event.member.id))
      (received : after.received = before.received.remove event.member.id)
      (sent : after.sent = before.sent.remove event.member.id)

theorem noted_of_onEvent {event : DiscoveryEvent}
    (told : resolver.onEvent localId event = .ok next) :
    event.member.id = localId ∧ next = resolver ∨
      event.member.id ≠ localId ∧ Noted event resolver next := by
  cases told_of_onEvent told with
  | kept silent =>
      by_cases own : event.member.id = localId
      · exact .inl ⟨own, rfl⟩
      refine .inr ⟨own, .kept ?_ rfl⟩
      rcases silent.resolve_left own with updated | ⟨joined, known⟩
      · exact .inr (by rw [updated]; rfl)
      · exact .inl ⟨by rw [joined]; rfl, known⟩
  | queued remote joined new => exact .inr ⟨remote, .queued (by rw [joined]; rfl) new rfl⟩
  | dropped remote departed added =>
      refine .inr ⟨remote, .dropped ?_ rfl rfl rfl⟩
      rcases departed with left | failed
      · rw [left]
        rfl
      · rw [failed]
        rfl

namespace Noted

variable {event : DiscoveryEvent} {member : Bool} {lost : List NodeId}

/-- What is kept in mind about other nodes stays as it is. -/
theorem tracks_of_ne (noted : Noted event resolver next) (other : event.member.id ≠ node)
    (tracks : resolver.Tracks node member lost) : next.Tracks node member lost := by
  cases noted with
  | kept _ same => exact same ▸ tracks
  | queued _ _ same =>
      subst same
      exact ⟨by simpa [Ne.symm other] using tracks.queue, tracks.received, tracks.sent⟩
  | dropped _ queue received sent =>
      refine ⟨?_, ?_, ?_⟩
      · rw [queue]
        simpa [Ne.symm other] using tracks.queue
      · rw [received, StealTable.mem_keys_remove]
        exact fun known => tracks.received known.1
      · rw [sent, StealTable.mem_keys_remove]
        exact fun known => tracks.sent known.1

/-- The event has the last word about its node. -/
theorem tracks (noted : Noted event resolver next) {present : Bool}
    (said : event.kind.presence? = some present) (back : event.member.id ∉ lost) :
    next.Tracks event.member.id present lost := by
  cases noted with
  | kept silent same =>
      rw [said] at silent
      rcases silent with ⟨joined, queued⟩ | none
      · cases joined
        subst same
        exact ⟨iff_of_true queued ⟨rfl, back⟩, fun _ => rfl, fun _ => rfl⟩
      · cases none
  | queued joined _ same =>
      rw [said] at joined
      cases joined
      subst same
      exact ⟨by simp [back], fun _ => rfl, fun _ => rfl⟩
  | dropped departed queue received sent =>
      rw [said] at departed
      cases departed
      refine ⟨?_, ?_, ?_⟩
      · simp [queue]
      · simp [received, StealTable.mem_keys_remove]
      · simp [sent, StealTable.mem_keys_remove]

theorem orderly (noted : Noted event resolver next) (remote : event.member.id ≠ localId)
    (orderly : resolver.Orderly localId) : next.Orderly localId := by
  cases noted with
  | kept _ same => exact same ▸ orderly
  | queued _ new same =>
      subst same
      refine ⟨?_, ?_, orderly.received, orderly.sent⟩
      · rw [← List.concat_eq_append, List.nodup_concat]
        exact ⟨new, orderly.nodup⟩
      · simp [orderly.queue, Ne.symm remote]
  | dropped _ queue received sent =>
      refine ⟨queue ▸ orderly.nodup.filter _, ?_, ?_, ?_⟩
      · simp [queue, orderly.queue]
      · simp [received, StealTable.mem_keys_remove, orderly.received]
      · simp [sent, StealTable.mem_keys_remove, orderly.sent]

end Noted

/-! ## Requests and passes -/

section Request

variable {view : GridView} {now : Moment} {peer : NodeId} {request : StealRequest}

/-- Only a member gets an entry for its request. -/
theorem noted_of_onStealRequest {noted : Bool × Resolver}
    (asked : resolver.onStealRequest view now peer request = .ok noted) :
    noted.2.queue = resolver.queue ∧ noted.2.sent = resolver.sent ∧
      ∀ {other}, other ∈ noted.2.received.peers.keys →
        other ∈ resolver.received.peers.keys ∨ other = peer ∧ view.contains peer = true := by
  cases heard_of_onStealRequest asked with
  | stranger absent => exact ⟨rfl, rfl, .inl⟩
  | member present added =>
      refine ⟨rfl, rfl, ?_⟩
      intro other known
      rcases (StealTable.mem_keys_reset _ _ _ _ _).1 known with same | earlier
      · exact .inr ⟨same, present⟩
      · exact .inl earlier

end Request

section Pass

variable {scene : PassScene} {accepts : NodeId → Bool} {store : JobStore} {waiting : List JobRef}
  {active : Nat} {busy : Busy} {lost : List NodeId}

/-- The peer that a pass takes out of the queue because a rule breaks at it. -/
def lostIn (resolver : Resolver) (scene : PassScene) (accepts : NodeId → Bool) (store : JobStore)
    (waiting : List JobRef) (active : Nat) : List NodeId :=
  if (resolver.collide scene accepts store waiting active).fault?.isSome then
    (resolver.visited scene accepts store waiting active).getLast?.toList
  else []

/-- What a pass does to the peers that a resolver keeps in mind. -/
structure Toured (scene : PassScene) (lost : List NodeId) (before after : Resolver) : Prop where
  nodup : after.queue.Nodup
  subset : ∀ {node}, node ∈ after.queue → node ∈ before.queue ∧ node ∉ lost
  keeps : ∀ {node}, scene.isMember node = true → node ∈ before.queue → node ∉ lost →
    node ∈ after.queue
  received : after.received.peers.keys ⊆ before.received.peers.keys
  sent : ∀ {peer}, peer ∈ after.sent.peers.keys → peer ∈ before.sent.peers.keys ∨
    peer ∈ before.queue ∧ scene.isMember peer = true

/-- Only members that are queued get an entry for what they are asked for. -/
theorem mem_keys_sent_collide {peer : NodeId}
    (ran : Busy.run scene waiting active
      { received := resolver.received, counter := resolver.counter, store } = .ok busy)
    (known :
      peer ∈ (resolver.collide scene accepts store waiting active).resolver.sent.peers.keys) :
    peer ∈ resolver.sent.peers.keys ∨ peer ∈ resolver.queue ∧ scene.isMember peer = true := by
  simp only [collide, ran] at known
  split_ifs at known
  · exact .inl known
  · exact Idle.mem_keys_visit resolver.queue known

/-- A pass at which a rule breaks takes one peer out of the queue: a member that publishes a number
too far below zero. -/
theorem overflows_of_lostIn
    (ran : Busy.run scene waiting active
      { received := resolver.received, counter := resolver.counter, store } = .ok busy)
    (dropped : node ∈ resolver.lostIn scene accepts store waiting active) :
    (resolver.collide scene accepts store waiting active).fault? = some .overflow ∧
      ∃ member, scene.view.find? node = some member ∧ member.SurplusOverflows scene.config := by
  simp only [lostIn] at dropped
  split_ifs at dropped with broke
  · by_cases quiet : 0 < busy.rejected ∨ ¬ resolver.config.enabled
    · simp only [collide, ran, if_pos quiet, Option.isSome_none, Bool.false_eq_true] at broke
    · rcases ends_of_run accepts ran quiet with
        ⟨whole, -⟩ | ⟨overflow, earlier, last, member, visits, found, overflows, -⟩
      · rw [whole] at broke
        cases broke
      · rw [visits, List.getLast?_concat, Option.mem_toList] at dropped
        cases dropped
        exact ⟨overflow, member, found, overflows⟩
  · exact (List.not_mem_nil dropped).elim

theorem toured_of_run (accepts : NodeId → Bool) (nodup : resolver.queue.Nodup)
    (ran : Busy.run scene waiting active
      { received := resolver.received, counter := resolver.counter, store } = .ok busy) :
    Toured scene (resolver.lostIn scene accepts store waiting active) resolver
      (resolver.collide scene accepts store waiting active).resolver := by
  have received := (Stealing.collide_of_run accepts ran).2.1
  have queues : ∀ {node},
      (node ∈ (resolver.collide scene accepts store waiting active).resolver.queue →
        node ∈ resolver.queue ∧ node ∉ resolver.lostIn scene accepts store waiting active) ∧
      (scene.isMember node = true → node ∈ resolver.queue →
        node ∉ resolver.lostIn scene accepts store waiting active →
          node ∈ (resolver.collide scene accepts store waiting active).resolver.queue) := by
    intro node
    by_cases quiet : 0 < busy.rejected ∨ ¬ resolver.config.enabled
    · simp only [lostIn, collide, ran, if_pos quiet, Option.isSome_none, Bool.false_eq_true,
        if_false, List.not_mem_nil, not_false_eq_true, and_true]
      exact ⟨id, fun _ queued _ => queued⟩
    · obtain ⟨ahead, -⟩ := queue_of_run accepts ran quiet
      rw [ahead] at nodup ⊢
      rcases ends_of_run accepts ran quiet with
        ⟨whole, -, queue⟩ | ⟨broke, earlier, last, member, visits, -, -, queue⟩
      · simp only [lostIn, whole, queue, Option.isSome_none, Bool.false_eq_true, if_false,
          List.mem_append, List.mem_filter, List.not_mem_nil, not_false_eq_true, and_true]
        tauto
      · rw [visits, List.append_assoc] at nodup ⊢
        have apart := List.nodup_middle.1 nodup
        rw [List.nodup_cons, List.mem_append] at apart
        simp only [lostIn, broke, visits, queue, Option.isSome_some, if_true,
          List.getLast?_concat, Option.toList_some, List.mem_append, List.mem_filter,
          List.mem_singleton]
        constructor
        · intro there
          refine ⟨by tauto, ?_⟩
          rintro rfl
          tauto
        · tauto
  exact ⟨nodup_queue_collide nodup, queues.1, queues.2, received ▸ Busy.keys_of_run ran,
    mem_keys_sent_collide ran⟩

/-- It makes no difference to a peer if others are not lost any more. -/
theorem Tracks.forget {other : NodeId} {member : Bool} (tracks : resolver.Tracks node member lost)
    (differs : other ≠ node) :
    resolver.Tracks node member (lost.filter (· ≠ other)) where
  queue := by
    rw [tracks.queue]
    simp [Ne.symm differs]
  received := tracks.received
  sent := tracks.sent

theorem Tracks.toured {more : List NodeId} (toured : Toured scene more resolver next)
    (tracks : resolver.Tracks node (scene.isMember node) lost) :
    next.Tracks node (scene.isMember node) (lost ++ more) where
  queue := by
    rw [List.mem_append, not_or]
    constructor
    · intro there
      obtain ⟨queued, kept⟩ := toured.subset there
      obtain ⟨member, found⟩ := tracks.queue.1 queued
      exact ⟨member, found, kept⟩
    · rintro ⟨member, found, kept⟩
      exact toured.keeps member (tracks.queue.2 ⟨member, found⟩) kept
  received there := tracks.received (toured.received there)
  sent there := (toured.sent there).elim tracks.sent And.right

theorem Orderly.toured {more : List NodeId} (toured : Toured scene more resolver next)
    (orderly : resolver.Orderly localId) : next.Orderly localId where
  nodup := toured.nodup
  queue there := orderly.queue (toured.subset there).1
  received there := orderly.received (toured.received there)
  sent there := (toured.sent there).elim orderly.sent fun new => orderly.queue new.1

end Pass

end Resolver

/-- A grid, the resolver of one of its nodes, and how far in the log of changes it was told of
them. -/
structure Follower where
  cluster : Cluster
  resolver : Resolver
  position : Nat
  /-- The peers that passes broke at and of which the resolver was not told since that they came
  or left. -/
  lost : List NodeId := []

/-- Something that happens to a resolver or in its grid. -/
inductive FollowerEvent where
  /-- Somebody joins, leaves, fails, or does something else in the grid. -/
  | act (act : PeerAct)
  /-- The resolver is told of the next change. -/
  | delivery
  /-- Somebody asks for work. -/
  | request (peer : NodeId) (request : StealRequest) (now : Moment)
  /-- A pass over some jobs. Peers are served in some order, and some of them can be reached. -/
  | pass (store : JobStore) (waiting : List JobRef) (active : Nat) (restrictions : Restrictions)
      (order : Arrangement NodeId) (accepts : NodeId → Bool) (now : Moment)

namespace FollowerEvent

/-- The node that asks for work, if this is a request. -/
def requester? : FollowerEvent → Option NodeId
  | request peer _ _ => some peer
  | _ => none

/-- The nodes that ask for work in a history, each of them once. -/
def requesters (history : List FollowerEvent) : List NodeId :=
  (history.filterMap requester?).dedup

end FollowerEvent

namespace Follower

/-- A resolver that was made when it had been told of everything. -/
def start (cluster : Cluster) (resolver : Resolver) : Follower :=
  { cluster, resolver, position := cluster.events.size }

/-- The changes that the resolver was not told of yet. -/
def undelivered (follower : Follower) : List DiscoveryEvent :=
  follower.cluster.events.toList.drop follower.position

/-- What a pass looks at. -/
def scene (localId : NodeId) (follower : Follower) (restrictions : Restrictions)
    (order : Arrangement NodeId) (now : Moment) : PassScene :=
  follower.resolver.scene (follower.cluster.view localId) restrictions order now

/-- Lets something happen, unless a rule about the requests of peers breaks. What a pass did before
it broke at a peer stays. -/
def perform (localId : NodeId) (follower : Follower) : FollowerEvent → Except Fault Follower
  | .act act => .ok { follower with cluster := act.apply follower.cluster }
  | .delivery =>
      match follower.undelivered with
      | [] => .ok follower
      | event :: _ =>
          (follower.resolver.onEvent localId event).map fun resolver =>
            { follower with
              resolver
              position := follower.position + 1
              lost :=
                if event.kind.presence?.isSome then
                  follower.lost.filter (· ≠ event.member.id)
                else follower.lost }
  | .request peer request now =>
      (follower.resolver.onStealRequest (follower.cluster.view localId) now peer request).map
        fun noted => { follower with resolver := noted.2 }
  | .pass store waiting active restrictions order accepts now =>
      let scene := follower.scene localId restrictions order now
      (Busy.run scene waiting active
        { received := follower.resolver.received, counter := follower.resolver.counter
          store }).map fun _ =>
        { follower with
          resolver := (follower.resolver.collide scene accepts store waiting active).resolver
          lost := follower.lost ++ follower.resolver.lostIn scene accepts store waiting active }

/-- Lets some things happen, one after another. -/
def run (localId : NodeId) (follower : Follower) : List FollowerEvent → Except Fault Follower
  | [] => .ok follower
  | event :: later => follower.perform localId event >>= fun next => next.run localId later

/-- A pass breaks at a peer and takes it out of the queue: by what the peer publishes as a member,
its surplus does not fit into a word. -/
def BreaksAt (localId : NodeId) (follower : Follower) (node : NodeId) : FollowerEvent → Prop
  | .pass store waiting active restrictions order accepts now =>
      let scene := follower.scene localId restrictions order now
      node ∈ follower.resolver.lostIn scene accepts store waiting active ∧
        (follower.resolver.collide scene accepts store waiting active).fault? = some .overflow ∧
        ∃ member, follower.cluster.find? node = some member ∧
          member.SurplusOverflows follower.resolver.config
  | _ => False

/-- The changes that a resolver was not told of yet say who is a member, and what it keeps in mind
is right about everybody else. -/
structure Informed (localId : NodeId) (follower : Follower) : Prop where
  position_le : follower.position ≤ follower.cluster.events.size
  distinct : (follower.cluster.members.map Member.id).Nodup
  orderly : follower.resolver.Orderly localId
  foretold : ∀ {node present}, lastWord? node follower.undelivered = some present →
    (follower.cluster.find? node).isSome = present
  tracks : ∀ {node}, node ≠ localId → lastWord? node follower.undelivered = none →
    follower.resolver.Tracks node (follower.cluster.find? node).isSome follower.lost

namespace Informed

variable {localId : NodeId} {follower next : Follower}

theorem start {cluster : Cluster} {config : StealingConfig} {resolver : Resolver}
    (distinct : (cluster.members.map Member.id).Nodup)
    (built : Resolver.start config (cluster.view localId) = .ok resolver) :
    (start cluster resolver).Informed localId := by
  obtain ⟨-, -, rfl⟩ := Result.map_eq_ok.1 built
  have told : ∀ resolver, (Follower.start cluster resolver).undelivered = [] := fun _ =>
    List.drop_of_length_le (Nat.le_of_eq Array.length_toList)
  refine ⟨Nat.le_refl _, distinct, ?_, ?_, ?_⟩
  · refine ⟨Cluster.nodup_remote_view localId distinct, ?_, List.not_mem_nil, List.not_mem_nil⟩
    exact fun inside => (Cluster.mem_remote_view.1 inside).1 rfl
  · intro node present said
    rw [told] at said
    cases said
  · intro node remote _
    refine ⟨?_, fun known => absurd known List.not_mem_nil,
      fun known => absurd known List.not_mem_nil⟩
    exact (Cluster.mem_remote_view.trans (and_iff_right remote)).trans
      (and_iff_left List.not_mem_nil).symm

theorem act (informed : follower.Informed localId) (act : PeerAct) :
    Informed localId { follower with cluster := act.apply follower.cluster } := by
  have told := Cluster.AsTold.apply follower.cluster act
  have members := follower.cluster.isSome_find?_apply act
  have pending : undelivered { follower with cluster := act.apply follower.cluster } =
      follower.undelivered ++ (act.news? follower.cluster).toList := by
    rw [undelivered, told.events, List.drop_append_of_le_length informed.position_le]
    rfl
  refine ⟨?_, told.distinct informed.distinct, informed.orderly, ?_, ?_⟩
  · exact Nat.le_trans informed.position_le (Cluster.Evolves.apply follower.cluster act).size_le
  · intro node present said
    rw [members]
    rw [pending, lastWord?_append] at said
    cases new : lastWord? node (act.news? follower.cluster).toList with
    | none =>
        rw [new, Option.none_or] at said
        exact informed.foretold said
    | some last =>
        rw [new] at said
        cases said
        rfl
  · intro node remote silent
    rw [pending, lastWord?_append, Option.or_eq_none_iff] at silent
    rw [members, silent.1]
    exact informed.tracks remote silent.2

theorem delivery (informed : follower.Informed localId)
    (performed : follower.perform localId .delivery = .ok next) : next.Informed localId := by
  simp only [perform] at performed
  cases pending : follower.undelivered with
  | nil =>
      rw [pending] at performed
      cases performed
      exact informed
  | cons event later =>
      rw [pending] at performed
      obtain ⟨resolver, told, rfl⟩ := Result.map_eq_ok.1 performed
      have noted := Resolver.noted_of_onEvent told
      have rest : ∀ lost, undelivered { follower with
          resolver, position := follower.position + 1, lost } = later := by
        intro lost
        rw [undelivered, ← List.tail_drop]
        exact congrArg List.tail pending
      have word : ∀ node, lastWord? node follower.undelivered = (lastWord? node later).or
          (if event.member.id = node then event.kind.presence? else none) := by
        intro node
        rw [pending, lastWord?]
      refine ⟨?_, informed.distinct, ?_, ?_, ?_⟩
      · have bound := congrArg List.length pending
        rw [undelivered, List.length_drop, Array.length_toList, List.length_cons] at bound
        have := informed.position_le
        exact (by omega : follower.position + 1 ≤ follower.cluster.events.size)
      · rcases noted with ⟨-, rfl⟩ | ⟨remote, noted⟩
        · exact informed.orderly
        · exact noted.orderly remote informed.orderly
      · intro node present said
        rw [rest] at said
        exact informed.foretold (by rw [word, said, Option.some_or])
      · intro node remote silent
        rw [rest] at silent
        have before := word node
        rw [silent, Option.none_or] at before
        -- Nothing more will be said about the node, so that this event is right about it.
        by_cases own : event.member.id = node
        · rw [if_pos own] at before
          rcases noted with ⟨here, -⟩ | ⟨-, noted⟩
          · exact absurd (own.symm.trans here) remote
          · cases said : event.kind.presence? with
            | some present =>
                rw [said] at before
                have member := informed.foretold before
                rw [member, ← own]
                exact noted.tracks said (by simp)
            | none =>
                rw [said] at before
                have tracks := informed.tracks remote before
                simp only [Option.isSome_none, Bool.false_eq_true, if_false]
                cases noted with
                | kept _ same => exact same ▸ tracks
                | queued joined => exact absurd (said.symm.trans joined) nofun
                | dropped departed => exact absurd (said.symm.trans departed) nofun
        · rw [if_neg own] at before
          have tracks := informed.tracks remote before
          have known : resolver.Tracks node (follower.cluster.find? node).isSome
              follower.lost := by
            rcases noted with ⟨-, rfl⟩ | ⟨-, noted⟩
            · exact tracks
            · exact noted.tracks_of_ne own tracks
          split
          · exact known.forget own
          · exact known

theorem request (informed : follower.Informed localId) {peer : NodeId} {request : StealRequest}
    {now : Moment} (remote : peer ≠ localId)
    (performed : follower.perform localId (.request peer request now) = .ok next) :
    next.Informed localId := by
  obtain ⟨noted, asked, rfl⟩ := Result.map_eq_ok.1 performed
  obtain ⟨queue, sent, received⟩ := Resolver.noted_of_onStealRequest asked
  have orderly := informed.orderly
  refine ⟨informed.position_le, informed.distinct, ?_, informed.foretold, ?_⟩
  · refine ⟨queue ▸ orderly.nodup, queue ▸ orderly.queue, ?_, sent ▸ orderly.sent⟩
    intro known
    rcases received known with earlier | ⟨same, -⟩
    · exact orderly.received earlier
    · exact remote same.symm
  · intro node other silent
    have tracks := informed.tracks other silent
    refine ⟨queue ▸ tracks.queue, ?_, sent ▸ tracks.sent⟩
    intro known
    rcases received known with earlier | ⟨rfl, present⟩
    · exact tracks.received earlier
    · rwa [GridView.contains, Cluster.find?_view] at present

theorem pass (informed : follower.Informed localId) {store : JobStore} {waiting : List JobRef}
    {active : Nat} {restrictions : Restrictions} {order : Arrangement NodeId}
    {accepts : NodeId → Bool} {now : Moment}
    (performed : follower.perform localId
      (.pass store waiting active restrictions order accepts now) = .ok next) :
    next.Informed localId := by
  obtain ⟨busy, ran, rfl⟩ := Result.map_eq_ok.1 performed
  have toured := Resolver.toured_of_run accepts informed.orderly.nodup ran
  refine ⟨informed.position_le, informed.distinct, informed.orderly.toured toured,
    informed.foretold, ?_⟩
  intro node other silent
  have member : (follower.cluster.find? node).isSome =
      (follower.scene localId restrictions order now).isMember node := by
    rw [PassScene.isMember, scene, Resolver.scene, Cluster.find?_view]
  have tracks := informed.tracks other silent
  rw [member] at tracks ⊢
  exact tracks.toured toured

/-- Whatever happens, the resolver stays informed, unless its own node asks it for work. -/
theorem perform (informed : follower.Informed localId) {event : FollowerEvent}
    (remote : ∀ request now, event ≠ .request localId request now)
    (performed : follower.perform localId event = .ok next) : next.Informed localId := by
  cases event with
  | act act =>
      cases performed
      exact informed.act act
  | delivery => exact informed.delivery performed
  | request peer request now =>
      refine informed.request ?_ performed
      rintro rfl
      exact remote request now rfl
  | pass store waiting active restrictions order accepts now => exact informed.pass performed

theorem run (informed : follower.Informed localId) {history : List FollowerEvent}
    (remote : ∀ event ∈ history, ∀ request now, event ≠ .request localId request now)
    (reached : follower.run localId history = .ok next) : next.Informed localId := by
  induction history generalizing follower with
  | nil =>
      cases reached
      exact informed
  | cons event later ih =>
      obtain ⟨middle, performed, rest⟩ := Result.bind_eq_ok.1 reached
      rw [List.forall_mem_cons] at remote
      exact ih (informed.perform remote.1 performed) remote.2 rest

end Informed

/-! ## What breaks, and what is lost -/

section Counting

variable {localId : NodeId} {peers : List NodeId} {follower : Follower}

/-- The count of requested jobs is right as long as only known peers asked for work. -/
def Counts (peers : List NodeId) (follower : Follower) : Prop :=
  Booked peers follower.resolver.received follower.resolver.counter

/-- Nothing that happens breaks a rule about requests, and everything keeps the count. -/
theorem Counts.perform (few : peers.length ≤ StealCounter.capacity)
    (counts : follower.Counts peers) (event : FollowerEvent)
    (known : ∀ peer, event.requester? = some peer → peer ∈ peers) :
    ∃ next, follower.perform localId event = .ok next ∧ next.Counts peers := by
  have begins : ∀ restrictions now, Stealing.Counts peers
      { resolver := follower.resolver, view := follower.cluster.view localId, restrictions, now } :=
    fun _ _ => counts
  cases event with
  | act act => exact ⟨_, rfl, counts⟩
  | delivery =>
      simp only [Follower.perform]
      cases follower.undelivered with
      | nil => exact ⟨_, rfl, counts⟩
      | cons event later =>
          obtain ⟨told, performed, kept⟩ :=
            (begins ∅ 0).perform few (.discovery event) fun _ asks => by cases asks
          obtain ⟨resolver, noted, rfl⟩ := Result.map_eq_ok.1 performed
          exact ⟨_, congrArg (Except.map _) noted, kept⟩
  | request peer request now =>
      obtain ⟨told, performed, kept⟩ := (begins ∅ now).perform few (.request peer request) known
      obtain ⟨noted, asked, rfl⟩ := Result.map_eq_ok.1 performed
      exact ⟨_, congrArg (Except.map _) asked, kept⟩
  | pass store waiting active restrictions order accepts now =>
      obtain ⟨told, performed, kept⟩ := (begins restrictions now).perform few
        (.pass store waiting active order accepts) known
      obtain ⟨busy, ran, rfl⟩ := Result.map_eq_ok.1 performed
      exact ⟨_, congrArg (Except.map _) ran, kept⟩

theorem Counts.run (few : peers.length ≤ StealCounter.capacity) (history : List FollowerEvent)
    (known : ∀ event ∈ history, ∀ peer, event.requester? = some peer → peer ∈ peers)
    (counts : follower.Counts peers) : ∃ final, follower.run localId history = .ok final := by
  induction history generalizing follower with
  | nil => exact ⟨follower, rfl⟩
  | cons event later ih =>
      obtain ⟨next, performed, kept⟩ := counts.perform few event (known event List.mem_cons_self)
      obtain ⟨final, rest⟩ := ih (fun other member => known other (.tail event member)) kept
      exact ⟨final, Result.bind_eq_ok.2 ⟨next, performed, rest⟩⟩

end Counting

variable {localId node : NodeId} {follower next final : Follower}

/-- A peer is lost by a pass that breaks at it. -/
theorem breaksAt_of_perform {event : FollowerEvent}
    (performed : follower.perform localId event = .ok next) (lost : node ∈ next.lost) :
    node ∈ follower.lost ∨ follower.BreaksAt localId node event := by
  cases event with
  | act act =>
      cases performed
      exact .inl lost
  | delivery =>
      simp only [perform] at performed
      cases pending : follower.undelivered with
      | nil =>
          rw [pending] at performed
          cases performed
          exact .inl lost
      | cons event later =>
          rw [pending] at performed
          obtain ⟨resolver, -, rfl⟩ := Result.map_eq_ok.1 performed
          simp only at lost
          split_ifs at lost
          · exact .inl (List.mem_of_mem_filter lost)
          · exact .inl lost
  | request peer request now =>
      obtain ⟨noted, -, rfl⟩ := Result.map_eq_ok.1 performed
      exact .inl lost
  | pass store waiting active restrictions order accepts now =>
      obtain ⟨busy, ran, rfl⟩ := Result.map_eq_ok.1 performed
      rcases List.mem_append.1 lost with earlier | new
      · exact .inl earlier
      · obtain ⟨broke, member, found, overflows⟩ := Resolver.overflows_of_lostIn ran new
        exact .inr ⟨new, broke, member, (Cluster.find?_view _ localId node).symm.trans found,
          overflows⟩

theorem exists_breaksAt_of_run {history : List FollowerEvent}
    (reached : follower.run localId history = .ok final) (lost : node ∈ final.lost) :
    node ∈ follower.lost ∨ ∃ earlier event later before, history = earlier ++ event :: later ∧
      follower.run localId earlier = .ok before ∧ before.BreaksAt localId node event := by
  induction history generalizing follower with
  | nil =>
      cases reached
      exact .inl lost
  | cons event later ih =>
      obtain ⟨middle, performed, rest⟩ := Result.bind_eq_ok.1 reached
      rcases ih rest with kept | ⟨earlier, event', later', before, rfl, went, breaks⟩
      · rcases breaksAt_of_perform performed kept with old | breaks
        · exact .inl old
        · exact .inr ⟨[], event, later, follower, rfl, rfl, breaks⟩
      · exact .inr ⟨event :: earlier, event', later', before, rfl,
          Result.bind_eq_ok.2 ⟨middle, performed, went⟩, breaks⟩

/-- A resolver is built from the members of a grid and told of all changes in order, while anything
happens in any order; only, its own node never asks it for work. Its queue never holds a peer twice,
nor its own node. Whenever it was told everything, only members have entries for what they asked for
or were asked for, and the queue holds all other members except those that were lost and of which
nothing was heard since. A peer is lost only by a pass that broke at it, and only if it then was a
member whose surplus, by what it published, does not fit into a word. As long as no more peers ask
for work than the count of requests has room for, nothing else breaks a rule. -/
theorem queue_perm_remote {capacity : Nat} {acts : List PeerAct} {localId : NodeId}
    {config : StealingConfig} {resolver : Resolver}
    (built : Resolver.start config
      ((acts.foldl PeerAct.apply (.empty capacity)).view localId) = .ok resolver)
    {history : List FollowerEvent}
    (remote : ∀ event ∈ history, ∀ request now, event ≠ .request localId request now)
    (few : (FollowerEvent.requesters history).length ≤ StealCounter.capacity) :
    let begun := start (acts.foldl PeerAct.apply (.empty capacity)) resolver
    ∃ final, begun.run localId history = .ok final ∧
      let members := (final.cluster.view localId).remote.map Member.id
      final.resolver.queue.Nodup ∧ localId ∉ final.resolver.queue ∧
        (final.undelivered = [] →
          final.resolver.queue.Perm (members.filter (· ∉ final.lost)) ∧
          final.resolver.received.peers.keys ⊆ members ∧
          final.resolver.sent.peers.keys ⊆ members) ∧
        ∀ node ∈ final.lost, ∃ earlier event later before,
          history = earlier ++ event :: later ∧ begun.run localId earlier = .ok before ∧
          before.BreaksAt localId node event := by
  intro begun
  have empty : Counts (FollowerEvent.requesters history) begun := by
    obtain ⟨-, -, rfl⟩ := Result.map_eq_ok.1 built
    exact Booked.empty _
  obtain ⟨final, reached⟩ := empty.run few history fun event member peer asks =>
    List.mem_dedup.2 (List.mem_filterMap.2 ⟨event, member, asks⟩)
  refine ⟨final, reached, ?_⟩
  intro members
  have none : ((Cluster.empty capacity).members.map Member.id).Nodup := List.nodup_nil
  have distinct := Cluster.distinct_foldl none acts
  have informed := (Informed.start distinct built).run remote reached
  have orderly := informed.orderly
  refine ⟨orderly.nodup, orderly.queue, ?_, fun node lost =>
    (exists_breaksAt_of_run reached lost).resolve_left List.not_mem_nil⟩
  intro told
  have tracks : ∀ {node}, node ≠ localId →
      final.resolver.Tracks node (final.cluster.find? node).isSome final.lost := fun other =>
    informed.tracks other (by rw [told]; rfl)
  refine ⟨?_, ?_, ?_⟩
  · rw [List.perm_ext_iff_of_nodup orderly.nodup
      ((Cluster.nodup_remote_view localId informed.distinct).filter _)]
    intro node
    rw [List.mem_filter, Cluster.mem_remote_view, decide_eq_true_eq]
    constructor
    · intro inside
      have other : node ≠ localId := fun same => orderly.queue (same ▸ inside)
      obtain ⟨member, kept⟩ := (tracks other).queue.1 inside
      exact ⟨⟨other, member⟩, kept⟩
    · exact fun ⟨⟨other, member⟩, kept⟩ => (tracks other).queue.2 ⟨member, kept⟩
  · intro node known
    have other : node ≠ localId := fun same => orderly.received (same ▸ known)
    exact Cluster.mem_remote_view.2 ⟨other, (tracks other).received known⟩
  · intro node known
    have other : node ≠ localId := fun same => orderly.sent (same ▸ known)
    exact Cluster.mem_remote_view.2 ⟨other, (tracks other).sent known⟩

/-- One peer leaves and joins again before the resolver hears of either. A pass in between drops it
and asks the other one. Once the resolver heard of both events, its queue holds both peers. -/
theorem queue_perm_remote_of_lag :
    let localId : NodeId := .ofNat 9
    let one : Member := { id := .ofNat 1 }
    let two : Member :=
      { id := .ofNat 2
        attributes := .ofList [(AttributeName.waitThreshold, .int 0)]
        metrics := { currentWaitingJobs := 3 } }
    let acts : List PeerAct := [.join { id := localId }, .join one, .join two]
    let resolver : Resolver := { config := {}, queue := [one.id, two.id] }
    let history : List FollowerEvent :=
      [.request one.id ⟨2⟩ 0, .act (.leave one.id),
        .pass ∅ [] 0 ∅ default (fun _ => true) 1, .act (.join one), .delivery, .delivery]
    let reached := (start (acts.foldl PeerAct.apply (.empty 4)) resolver).run localId history
    Resolver.start {} ((acts.foldl PeerAct.apply (.empty 4)).view localId) = .ok resolver ∧
      (∀ event ∈ history, ∀ request now, event ≠ .request localId request now) ∧
      (FollowerEvent.requesters history).length ≤ StealCounter.capacity ∧
      (reached.toOption.map fun final => (final.resolver.queue,
        final.resolver.received.peers.keys, final.resolver.sent.peers.keys, final.lost,
        final.undelivered.length)) = some ([two.id, one.id], [], [two.id], [], 0) ∧
      ∃ final, reached = .ok final ∧ (final.undelivered = [] →
        final.resolver.queue.Perm
          (((final.cluster.view localId).remote.map Member.id).filter (· ∉ final.lost))) := by
  intro localId one two acts resolver history reached
  have built : Resolver.start {} ((acts.foldl PeerAct.apply (.empty 4)).view localId) =
      .ok resolver := rfl
  have remote : ∀ event ∈ history, ∀ request now, event ≠ .request localId request now := by
    have other : one.id ≠ localId := by decide
    simpa [history] using other
  have few : (FollowerEvent.requesters history).length ≤ StealCounter.capacity := by decide
  obtain ⟨final, finished, -, -, queue, -⟩ := queue_perm_remote built remote few
  exact ⟨built, remote, few, by decide +kernel, final, finished, fun told => (queue told).1⟩

/-- The only peer publishes that it keeps fewer jobs than any word holds. A pass breaks at it, and
the queue does not hold it any more although the resolver was told of everything. -/
theorem queue_loses_member :
    let localId : NodeId := .ofNat 9
    let peer : Member :=
      { id := .ofNat 1
        attributes := .ofList [(AttributeName.waitThreshold, .int Int64.minValue)] }
    let acts : List PeerAct := [.join { id := localId }, .join peer]
    let resolver : Resolver := { config := {}, queue := [peer.id] }
    let history : List FollowerEvent := [.pass ∅ [] 0 ∅ default (fun _ => true) 0]
    let reached := (start (acts.foldl PeerAct.apply (.empty 4)) resolver).run localId history
    Resolver.start {} ((acts.foldl PeerAct.apply (.empty 4)).view localId) = .ok resolver ∧
      ∃ final, reached = .ok final ∧ final.undelivered = [] ∧ final.resolver.queue = [] ∧
        (final.cluster.view localId).remote.map Member.id = [peer.id] := by
  intro localId peer acts resolver history reached
  refine ⟨rfl, _, rfl, ?_, ?_, ?_⟩
  · decide +kernel
  · decide +kernel
  · decide +kernel

end Follower

end JobGrid
