import JobGrid.Cluster

/-!
# The log of departures

The log of the cluster tells about departures. What a node has yet to read of it changes when an
event is published and when the node catches up.
-/

namespace JobGrid

/-- Whether an event tells that a node departed. -/
def DiscoveryEvent.Departs (event : DiscoveryEvent) (node : NodeId) : Prop :=
  event.kind.isDeparture = true ∧ event.member.id = node

namespace Cluster

/-- Whether nobody departed so far. -/
def Whole (cluster : Cluster) : Prop := ∀ node, ∀ event ∈ cluster.events, ¬ event.Departs node

/-- Whether the departure of a node is in the log, at some place or behind it. -/
def Tells (cluster : Cluster) (position : Nat) (node : NodeId) : Prop :=
  ∃ index event, position ≤ index ∧ cluster.events[index]? = some event ∧ event.Departs node

variable {cluster : Cluster} {kind : EventKind} {member : Member} {position : Nat}
  {node : NodeId}

theorem mem_events_of_tells (told : cluster.Tells position node) :
    ∃ event ∈ cluster.events, event.Departs node := by
  obtain ⟨index, event, -, found, departs⟩ := told
  exact ⟨event, Array.mem_of_getElem? found, departs⟩

/-- As long as nobody departed, there is nothing to learn. -/
theorem Whole.not_tells (whole : cluster.Whole) : ¬ cluster.Tells position node := by
  intro told
  obtain ⟨event, member, departs⟩ := mem_events_of_tells told
  exact whole node event member departs

theorem mem_publish {event : DiscoveryEvent} :
    event ∈ (cluster.publish kind member).events ↔
      event ∈ cluster.events ∨ event = ⟨kind, member⟩ := by
  simp [publish]

theorem Whole.of_subset {later : Cluster} (whole : later.Whole)
    (older : ∀ event ∈ cluster.events, event ∈ later.events) : cluster.Whole :=
  fun node event inside => whole node event (older event inside)

theorem Whole.publish (whole : cluster.Whole) (stays : kind.isDeparture = false) (member : Member) :
    (cluster.publish kind member).Whole := by
  intro node event inside
  rcases mem_publish.1 inside with earlier | rfl
  · exact whole node event earlier
  · exact fun departs => Bool.false_ne_true (stays.symm.trans departs.1)

/-- What the log told, it still tells. -/
theorem tells_publish (told : cluster.Tells position node) :
    (cluster.publish kind member).Tells position node := by
  obtain ⟨index, event, behind, found, departs⟩ := told
  refine ⟨index, event, behind, ?_, departs⟩
  obtain ⟨bound, -⟩ := Array.getElem?_eq_some_iff.1 found
  rw [publish, Array.getElem?_push, if_neg (Nat.ne_of_lt bound), found]

/-- A departure that is published is told to everybody who read no further than the log. -/
theorem tells_departure (gone : kind.isDeparture = true)
    (read : position ≤ cluster.events.size) :
    (cluster.publish kind member).Tells position member.id :=
  ⟨cluster.events.size, ⟨kind, member⟩, read, by simp [publish], gone, rfl⟩

/-- Reading one event only takes note of the departure that it tells. -/
theorem tells_succ {event : DiscoveryEvent} (found : cluster.events[position]? = some event)
    (told : cluster.Tells position node) :
    cluster.Tells (position + 1) node ∨ event.Departs node := by
  obtain ⟨index, other, behind, there, departs⟩ := told
  by_cases same : index = position
  · subst same
    rw [found, Option.some.injEq] at there
    exact .inr (there ▸ departs)
  · exact .inl ⟨index, other, by omega, there, departs⟩

theorem isSome_find? (cluster : Cluster) (node : NodeId) :
    (cluster.find? node).isSome = true ↔ node ∈ cluster.members.map Member.id := by
  rw [find?, List.find?_isSome, List.mem_map]
  simp only [decide_eq_true_eq]

/-- New metrics of a member are published, and nothing else happens. -/
theorem publish_of_updateMetrics {next : Cluster} {metrics : Metrics}
    (updated : cluster.updateMetrics node metrics = .ok next) :
    next.inboxes = cluster.inboxes ∧ next.mailboxes = cluster.mailboxes ∧
      (∀ other, (next.find? other).isSome = (cluster.find? other).isSome) ∧
      ∃ member, next.events = (cluster.publish .metricsUpdated member).events := by
  simp only [updateMetrics] at updated
  split at updated
  · cases updated
  · rename_i member known
    cases updated
    refine ⟨rfl, rfl, ?_, _, rfl⟩
    intro other
    rw [Bool.eq_iff_iff, isSome_find?, isSome_find?, publish, List.map_map]
    have same : (Member.id ∘ fun member =>
        if member.id = node then { member with metrics } else member) = Member.id := by
      funext member
      simp only [Function.comp_apply]
      split
      · rfl
      · rfl
    rw [same]

end Cluster

end JobGrid
