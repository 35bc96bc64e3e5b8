import JobGrid.Proofs.Grid.Membership
import JobGrid.Proofs.Node.Course

/-!
# The other nodes of a grid

Other nodes may do many things to a cluster: join, leave, fail, publish figures, and send and
receive messages, in any order. Whatever they do, everybody who has an inbox is a member, and a
member that departed is told of in the log.
-/

namespace JobGrid

/-- What happens in the grid besides the turns of a node. -/
inductive PeerAct where
  /-- A node joins, perhaps not for the first time. -/
  | join (member : Member)
  | leave (node : NodeId)
  | fail (node : NodeId)
  | update (node : NodeId) (metrics : Metrics)
  | send (sender receiver : NodeId) (topic : String) (payload : Bytes)
  /-- A letter is taken out of an inbox. -/
  | receive (inbox : MailboxRef)
  | close (inbox : MailboxRef)

namespace PeerAct

/-- The node that comes or goes. -/
def moved? : PeerAct → Option NodeId
  | join member => some member.id
  | leave node => some node
  | fail node => some node
  | _ => none

/-- The cluster after something happened. What is refused changes nothing. -/
def apply (cluster : Cluster) : PeerAct → Cluster
  | join member => cluster.join member
  | leave node => cluster.leave node
  | fail node => cluster.fail node
  | update node metrics =>
      match cluster.updateMetrics node metrics with
      | .ok next => next
      | .error _ => cluster
  | send sender receiver topic payload =>
      match cluster.send sender receiver topic payload with
      | .ok next => next
      | .error _ => cluster
  | receive inbox =>
      match cluster.receive inbox with
      | some (_, next) => next
      | none => cluster
  | close inbox => cluster.close inbox

end PeerAct

namespace Cluster

section Letters

variable (cluster : Cluster)

theorem sameMembers_send (sender receiver : NodeId) (topic : String) (payload : Bytes) :
    cluster.SameMembers ((PeerAct.send sender receiver topic payload).apply cluster) := by
  simp only [PeerAct.apply]
  split
  · rename_i next sent
    exact (sameMembers_of_send sent).2
  · exact .refl cluster

theorem sameMembers_receive (inbox : MailboxRef) :
    cluster.SameMembers ((PeerAct.receive inbox).apply cluster) := by
  simp only [PeerAct.apply]
  split
  · rename_i letter next received
    exact sameMembers_of_receive received
  · exact .refl cluster

end Letters

/-- Everybody who has an inbox is a member. -/
def Listed (cluster : Cluster) : Prop :=
  ∀ node, cluster.inboxes.contains node = true → (cluster.find? node).isSome = true

/-- A node is a member, or its departure is in the log at some place or behind it. -/
def Knows (cluster : Cluster) (position : Nat) (node : NodeId) : Prop :=
  (cluster.find? node).isSome = true ∨ cluster.Tells position node

/-- Between two moments one node came or went, if any. The log only grew, and it tells of a member
that departed. -/
structure Evolves (moved : Option NodeId) (before after : Cluster) : Prop where
  events : ∃ more, after.events = before.events ++ more
  listed : before.Listed → after.Listed
  gone : ∀ {node}, (before.find? node).isSome = true → (after.find? node).isSome = true ∨
    moved = some node ∧ ∀ position ≤ before.events.size, after.Tells position node

theorem tells_append {before after : Cluster} {position : Nat} {node : NodeId}
    (events : ∃ more, after.events = before.events ++ more)
    (told : before.Tells position node) : after.Tells position node := by
  obtain ⟨more, events⟩ := events
  obtain ⟨index, event, behind, found, departs⟩ := told
  refine ⟨index, event, behind, ?_, departs⟩
  obtain ⟨bound, -⟩ := Array.getElem?_eq_some_iff.1 found
  rw [events, Array.getElem?_append_left bound, found]

namespace Evolves

variable {moved : Option NodeId} {before after : Cluster} {position : Nat} {node : NodeId}

theorem of_sameMembers (same : before.SameMembers after) : Evolves moved before after where
  events := ⟨#[], by rw [same.events, Array.append_empty]⟩
  listed listed node known := by
    rw [same.find?_eq]
    exact listed node (same.inboxes ▸ known)
  gone present := .inl (by rwa [same.find?_eq])

theorem knows (evolves : Evolves moved before after) (read : position ≤ before.events.size)
    (known : before.Knows position node) : after.Knows position node := by
  rcases known with present | told
  · exact (evolves.gone present).imp_right fun departed => departed.2 position read
  · exact .inr (tells_append evolves.events told)

theorem size_le (evolves : Evolves moved before after) :
    before.events.size ≤ after.events.size := by
  obtain ⟨more, events⟩ := evolves.events
  rw [events, Array.size_append]
  exact Nat.le_add_right _ _

theorem join (cluster : Cluster) (member : Member) :
    Evolves (some member.id) cluster (cluster.join member) where
  events := ⟨#[⟨.joined, member⟩], Array.push_eq_append⟩
  listed listed node known := by
    rw [isSome_find?_join]
    exact ((contains_insert _ _ _ _).1 known).imp_right (listed node)
  gone present := .inl ((isSome_find?_join _ _).2 (.inr present))

theorem remove (cluster : Cluster) {kind : EventKind} (departure : kind.isDeparture = true)
    (gone : NodeId) : Evolves (some gone) cluster (cluster.remove kind gone) := by
  cases present : (cluster.find? gone).isSome with
  | false =>
      rw [Option.isSome_eq_false_iff, Option.isNone_iff_eq_none] at present
      simp only [Cluster.remove, present]
      refine ⟨⟨#[], Array.append_empty.symm⟩, ?_, .inl⟩
      intro listed node known
      exact listed node ((contains_erase _ _ _).1 known).2
  | true =>
      obtain ⟨member, rfl, inboxes, -, events, found⟩ := remove_of_member present kind
      refine ⟨⟨#[⟨kind, member⟩], events.trans Array.push_eq_append⟩, ?_, ?_⟩
      · intro listed node known
        rw [inboxes, contains_erase] at known
        exact (found node).2 ⟨known.1, listed node known.2⟩
      · intro node there
        by_cases same : node = member.id
        · subst same
          refine .inr ⟨rfl, ?_⟩
          intro position read
          obtain ⟨index, event, rest⟩ := tells_departure departure read
          exact ⟨index, event, by rwa [events]⟩
        · exact .inl ((found node).2 ⟨same, there⟩)

theorem apply (cluster : Cluster) (act : PeerAct) :
    Evolves act.moved? cluster (act.apply cluster) := by
  cases act with
  | join member => exact join cluster member
  | leave node => exact remove cluster rfl node
  | fail node => exact remove cluster rfl node
  | update node metrics =>
      simp only [PeerAct.apply]
      split
      · rename_i next updated
        obtain ⟨inboxes, -, members, member, events⟩ := publish_of_updateMetrics updated
        refine ⟨⟨#[⟨.metricsUpdated, member⟩], events.trans Array.push_eq_append⟩, ?_, ?_⟩
        · intro listed node known
          rw [members]
          exact listed node (inboxes ▸ known)
        · exact fun present => .inl (by rwa [members])
      · exact .of_sameMembers (.refl cluster)
  | send sender receiver topic payload =>
      exact .of_sameMembers (sameMembers_send cluster sender receiver topic payload)
  | receive inbox => exact .of_sameMembers (sameMembers_receive cluster inbox)
  | close inbox => exact .of_sameMembers (sameMembers_setMailbox _ _ _)

end Evolves

/-- Everybody who has an inbox is a member, whatever happened since the grid was empty. -/
theorem listed_foldl (capacity : Nat) (acts : List PeerAct) :
    (acts.foldl PeerAct.apply (.empty capacity)).Listed := by
  have general : ∀ cluster : Cluster, cluster.Listed →
      (acts.foldl PeerAct.apply cluster).Listed := by
    induction acts with
    | nil => exact fun _ listed => listed
    | cons act rest ih =>
        exact fun cluster listed => ih _ ((Evolves.apply cluster act).listed listed)
  apply general
  intro node known
  cases known

end Cluster

end JobGrid
