import JobGrid.Proofs.Grid.Rings
import JobGrid.Proofs.Node.Reports

/-!
# Membership from the log

A cluster keeps three accounts of its members: the list of them, their inboxes and the log of
changes. A reader that starts with no members and applies the log to them arrives at the members
themselves, and what is refused leaves all three accounts alone.
-/

namespace JobGrid

/-- The members after an event, for a reader that knew some members before it. -/
def DiscoveryEvent.replay (members : List Member) (event : DiscoveryEvent) : List Member :=
  match event.kind with
  | .joined => (members.filter fun other => other.id ≠ event.member.id) ++ [event.member]
  | .left | .failed => members.filter fun other => other.id ≠ event.member.id
  | .metricsUpdated => members.map fun other =>
      if other.id = event.member.id then { other with metrics := event.member.metrics } else other

/-- Whether something is refused by a cluster, or finds nothing to act on. -/
def PeerAct.Refused (cluster : Cluster) : PeerAct → Prop
  | join _ | close _ => False
  | leave node | fail node => cluster.find? node = none
  | update node metrics => ∃ error, cluster.updateMetrics node metrics = .error error
  | send sender receiver topic payload =>
      ∃ error, cluster.send sender receiver topic payload = .error error
  | receive inbox => cluster.receive inbox = none

namespace Cluster

variable {cluster : Cluster}

/-! ## The log and the members -/

theorem replay_departure {kind : EventKind} (departure : kind.isDeparture = true)
    (members : List Member) (member : Member) :
    DiscoveryEvent.replay members ⟨kind, member⟩ =
      members.filter fun other => other.id ≠ member.id := by
  cases kind with
  | joined => cases departure
  | left => rfl
  | failed => rfl
  | metricsUpdated => cases departure

theorem members_remove (cluster : Cluster) {kind : EventKind}
    (departure : kind.isDeparture = true) (gone : NodeId) :
    (cluster.remove kind gone).members =
      ((cluster.find? gone).map (DiscoveryEvent.mk kind)).toList.foldl
        DiscoveryEvent.replay cluster.members := by
  cases known : cluster.find? gone with
  | none => simp only [remove, known, Option.map_none, Option.toList_none, List.foldl_nil]
  | some member =>
      simp only [remove, known, publish, Option.map_some, Option.toList_some, List.foldl_cons,
        List.foldl_nil, replay_departure departure, id_of_find? known]

/-- Replaying what the log tells of something that happens does to the members what it did. -/
theorem members_apply (cluster : Cluster) (act : PeerAct) :
    (act.apply cluster).members =
      (act.news? cluster).toList.foldl DiscoveryEvent.replay cluster.members := by
  cases act with
  | join member => rfl
  | leave node => exact members_remove cluster rfl node
  | fail node => exact members_remove cluster rfl node
  | update node metrics =>
      cases known : cluster.find? node with
      | none => simp only [PeerAct.apply, updateMetrics, PeerAct.news?, known, Option.map_none,
          Option.toList_none, List.foldl_nil]
      | some member =>
          simp only [PeerAct.apply, updateMetrics, PeerAct.news?, known, publish,
            Option.map_some, Option.toList_some, List.foldl_cons, List.foldl_nil,
            DiscoveryEvent.replay, id_of_find? known]
  | send sender receiver topic payload =>
      exact (sameMembers_send cluster sender receiver topic payload).members
  | receive inbox => exact (sameMembers_receive cluster inbox).members
  | close inbox => rfl

theorem members_foldl (cluster : Cluster) (acts : List PeerAct) :
    (acts.foldl PeerAct.apply cluster).members =
      (cluster.news acts).foldl DiscoveryEvent.replay cluster.members := by
  induction acts generalizing cluster with
  | nil => rfl
  | cons act rest ih => rw [List.foldl_cons, ih, members_apply, news, List.foldl_append]

/-! ## The inboxes and the members -/

theorem contains_inboxes_foldl (capacity : Nat) (acts : List PeerAct) (node : NodeId) :
    (acts.foldl PeerAct.apply (.empty capacity)).inboxes.contains node = true ↔
      ((acts.foldl PeerAct.apply (.empty capacity)).find? node).isSome = true := by
  refine ⟨listed_foldl capacity acts node, fun member => ?_⟩
  obtain ⟨ref, found, -⟩ := housed_foldl capacity acts node member
  rw [Table.contains, found]
  rfl

theorem remove_of_unknown (listed : cluster.Listed) {gone : NodeId}
    (unknown : cluster.find? gone = none) (kind : EventKind) :
    cluster.remove kind gone = cluster := by
  have absent : gone ∉ cluster.inboxes.keys := by
    rw [← Table.contains_iff_mem_keys]
    intro known
    have member := listed gone known
    rw [unknown] at member
    cases member
  have same : cluster.inboxes.erase gone = cluster.inboxes := by
    rw [Table.erase]
    congr 1
    exact Table.filter_eq_self_of_not_mem absent
  simp only [remove, unknown, same]

/-- What is refused changes nothing and is not told of. -/
theorem apply_of_refused (listed : cluster.Listed) {act : PeerAct}
    (refused : act.Refused cluster) : act.apply cluster = cluster := by
  cases act with
  | join member => cases refused
  | leave node => exact remove_of_unknown listed refused .left
  | fail node => exact remove_of_unknown listed refused .failed
  | update node metrics =>
      obtain ⟨error, refused⟩ := refused
      simp only [PeerAct.apply, refused]
  | send sender receiver topic payload =>
      obtain ⟨error, refused⟩ := refused
      simp only [PeerAct.apply, refused]
  | receive inbox =>
      have nothing : cluster.receive inbox = none := refused
      simp only [PeerAct.apply, nothing]
  | close inbox => cases refused

/-- Nobody but a receiver without an inbox is not found. -/
theorem send_eq_nodeNotFound_iff (sender receiver node : NodeId) (topic : String)
    (payload : Bytes) :
    cluster.send sender receiver topic payload = .error (.nodeNotFound node) ↔
      node = receiver ∧ cluster.inboxes.contains receiver = false := by
  rw [send, refusal?, Table.contains]
  cases cluster.inboxes.get? receiver with
  | none => simp [eq_comm]
  | some ref =>
      simp only [Option.isSome_some, Bool.true_eq_false, and_false, iff_false]
      intro refused
      split at refused
      · rename_i error reason
        cases refused
        split at reason
        · cases reason
        · split at reason <;> cases reason
      · cases refused

/-- Whatever happened since the grid was empty, no two members share an identity, exactly the
members have inboxes, and replaying the log from no members gives the members, in their order and
with their attributes and metrics. A message is refused for want of its receiver exactly if the
receiver is no member, and whatever is refused changes nothing: not the members, nor the inboxes
and what is in them, nor the log. -/
theorem membership_agrees (capacity : Nat) (acts : List PeerAct) :
    let cluster := acts.foldl PeerAct.apply (.empty capacity)
    (cluster.members.map Member.id).Nodup ∧
      (∀ node, cluster.inboxes.contains node = true ↔ node ∈ cluster.members.map Member.id) ∧
      cluster.events.toList.foldl DiscoveryEvent.replay [] = cluster.members ∧
      (∀ sender receiver node topic payload,
        cluster.send sender receiver topic payload = .error (.nodeNotFound node) ↔
          node = receiver ∧ receiver ∉ cluster.members.map Member.id) ∧
      ∀ act : PeerAct, act.Refused cluster → act.apply cluster = cluster := by
  intro cluster
  have housed : ∀ node,
      cluster.inboxes.contains node = true ↔ node ∈ cluster.members.map Member.id := by
    intro node
    rw [contains_inboxes_foldl, isSome_find?]
  have distinct : ((Cluster.empty capacity).members.map Member.id).Nodup := List.nodup_nil
  refine ⟨distinct_foldl distinct acts, housed, ?_, ?_, ?_⟩
  · rw [events_foldl, members_foldl]
    rfl
  · intro sender receiver node topic payload
    rw [send_eq_nodeNotFound_iff, ← housed, Bool.not_eq_true]
  · exact fun act refused => apply_of_refused (listed_foldl capacity acts) refused

end Cluster

end JobGrid
