import JobGrid.Proofs.Grid.State

/-!
# Joining and departing without losing jobs

No job of a member is lost when a node joins, and none when a node departs: whoever counted on
the departed node has yet to learn of it.
-/

namespace JobGrid

namespace Cluster

variable {cluster : Cluster}

theorem contains_erase (table : Table NodeId MailboxRef) (gone node : NodeId) :
    (table.erase gone).contains node = true ↔ node ≠ gone ∧ table.contains node = true := by
  rw [Table.contains, Table.get?_erase]
  split
  · rename_i same
    simp [same]
  · rename_i differs
    simp [Table.contains, Ne.symm differs]

theorem contains_insert (table : Table NodeId MailboxRef) (new node : NodeId) (ref : MailboxRef) :
    (table.insert new ref).contains node = true ↔ node = new ∨ table.contains node = true := by
  rw [Table.contains, Table.get?_insert]
  split
  · rename_i same
    simp [same]
  · rename_i differs
    simp [Table.contains, Ne.symm differs]

/-- A member departs: it has no inbox any more, and the log tells about it. -/
theorem remove_of_member {gone : NodeId} (present : (cluster.find? gone).isSome = true)
    (kind : EventKind) : ∃ member, member.id = gone ∧
      (cluster.remove kind gone).inboxes = cluster.inboxes.erase gone ∧
      (cluster.remove kind gone).mailboxes = cluster.mailboxes ∧
      (cluster.remove kind gone).events = (cluster.publish kind member).events ∧
      ∀ node, ((cluster.remove kind gone).find? node).isSome = true ↔
        node ≠ gone ∧ (cluster.find? node).isSome = true := by
  obtain ⟨member, found⟩ := Option.isSome_iff_exists.1 present
  have id : member.id = gone := by
    have holds := List.find?_some found
    exact of_decide_eq_true holds
  refine ⟨member, id, ?_⟩
  simp only [remove, found]
  refine ⟨rfl, rfl, rfl, ?_⟩
  intro node
  rw [isSome_find?, isSome_find?, publish]
  simp only [List.mem_map, List.mem_filter, decide_eq_true_eq]
  constructor
  · rintro ⟨other, ⟨inside, stays⟩, rfl⟩
    exact ⟨stays, other, inside, rfl⟩
  · rintro ⟨differs, other, inside, rfl⟩
    exact ⟨other, ⟨inside, differs⟩, rfl⟩

theorem isSome_find?_join (member : Member) (node : NodeId) :
    ((cluster.join member).find? node).isSome = true ↔
      node = member.id ∨ (cluster.find? node).isSome = true := by
  rw [isSome_find?, isSome_find?, join, publish]
  simp only [List.map_append, List.mem_append, List.mem_map, List.mem_filter, decide_eq_true_eq,
    List.map_cons, List.map_nil, List.mem_singleton]
  constructor
  · rintro (⟨other, ⟨inside, -⟩, rfl⟩ | new)
    · exact .inr ⟨other, inside, rfl⟩
    · exact .inl new
  · rintro (new | ⟨other, inside, rfl⟩)
    · exact .inr new
    · by_cases same : other.id = member.id
      · exact .inr same
      · exact .inl ⟨other, ⟨inside, same⟩, rfl⟩

/-- A new member comes with an empty inbox. -/
theorem messages_join (member : Member) (ref : MailboxRef) :
    (cluster.join member).messages ref =
      if ref = cluster.mailboxes.size then [] else cluster.messages ref := by
  simp only [messages, mailbox, join, publish, Array.getD_eq_getD_getElem?, Array.getElem?_push]
  split
  · rfl
  · rfl

end Cluster

namespace Grid

variable {owner : Owners} {before after : Grid}

/-- A report that was refused by a node that is no member does not matter. -/
theorem Safe.forget (safe : before.Safe owner)
    (gone : ∀ report ∈ before.refused, before.cluster.inboxes.contains report.1 = false) :
    ({ before with refused := [] } : Grid).Safe owner where
  wired := { safe.wired with }
  honest := safe.honest
  sound := safe.sound
  balanced := by
    refine safe.balanced.relax ⟨rfl, Iff.rfl, id, fun _ => Nat.le_refl _, id, id⟩ (fun _ _ => rfl)
      ?_ id ?_
    · intro origin job
      simp only [ledger, undelivered, List.filterMap_nil, List.count_nil, mail]
      omega
    · intro origin job node live _
      have none : before.undelivered origin = [] := by
        rw [undelivered, List.filterMap_eq_nil_iff]
        intro report member
        apply if_neg
        rintro rfl
        have live : before.cluster.inboxes.contains report.1 = true := live
        rw [gone report member] at live
        cases live
      simp only [ledger, none]
      rfl

/-- What a node has in its hand when it breaks a rule is dropped. It has to be written down if it is
pending and nowhere else. -/
theorem Safe.drop {dropped : JobId → Prop} (safe : before.Safe owner)
    (more : ∀ {job}, before.dropped job → dropped job)
    (after : Grid := { before with hand := fun _ => {}, dropped })
    (same : after = { before with hand := fun _ => {}, dropped })
    (lost : ∀ {origin job node}, after.ledger.live origin → after.ledger.pends origin job node →
      ¬ after.ledger.Located origin job node → dropped job) : after.Safe owner := by
  subst same
  refine ⟨{ safe.wired with }, safe.honest, ?_, ?_⟩
  · intro node work there
    obtain ⟨stocked, followed, -⟩ := safe.sound there
    exact ⟨stocked.release, followed, fun _ member => absurd member List.not_mem_nil⟩
  · refine safe.balanced.drop ⟨rfl, Iff.rfl, id, fun _ => Nat.le_refl _, id, more⟩ ?_ ?_ id lost
    · intro node job
      simp only [ledger, queued, mail, List.count_nil]
      omega
    · intro origin job
      simp only [ledger, undelivered, mail, List.count_nil]
      omega

/-- A member departs, and nobody else notices yet. Its own inbox may be closed. -/
structure Departure (gone : NodeId) (kind : EventKind) (member : Member) (before after : Grid) :
    Prop where
  departure : kind.isDeparture = true
  id : member.id = gone
  listed : gone ∈ before.names
  names : after.names = before.names
  node? : after.node? = before.node?
  hand : after.hand = before.hand
  refused : after.refused = before.refused
  dropped : after.dropped = before.dropped
  inboxes : after.cluster.inboxes = before.cluster.inboxes.erase gone
  size : after.cluster.mailboxes.size = before.cluster.mailboxes.size
  found : ∀ node, (after.cluster.find? node).isSome = true ↔
    node ≠ gone ∧ (before.cluster.find? node).isSome = true
  events : after.cluster.events = (before.cluster.publish kind member).events
  mail : ∀ node, node ≠ gone → after.mail node = before.mail node
  fewer : after.mail gone ⊆ before.mail gone

namespace Departure

variable {gone : NodeId} {kind : EventKind} {member : Member}

theorem live_iff (left : Departure gone kind member before after) (node : NodeId) :
    after.cluster.inboxes.contains node = true ↔
      node ≠ gone ∧ before.cluster.inboxes.contains node = true := by
  rw [left.inboxes, Cluster.contains_erase]

theorem wired (left : Departure gone kind member before after) (wired : before.Wired) :
    after.Wired where
  listed := by
    rw [left.names, left.node?]
    exact wired.listed
  distinct := left.names ▸ wired.distinct
  named there := wired.named (left.node? ▸ there)
  housed there := left.size ▸ wired.housed (left.node? ▸ there)
  apart one two := wired.apart (left.node? ▸ one) (left.node? ▸ two)
  read there := by
    rw [left.events, Cluster.publish, Array.size_push]
    exact Nat.le_succ_of_le (wired.read (left.node? ▸ there))
  reached there := by
    rw [left.inboxes, Table.get?_erase] at there
    split at there
    · cases there
    · rw [left.node?]
      exact wired.reached there
  enrolled {node} := by
    rw [left.live_iff, left.found, wired.enrolled]
  departed {node} event inside departs := by
    rw [left.names, ← Bool.not_eq_true, left.live_iff]
    rw [left.events, Cluster.mem_publish] at inside
    rcases inside with earlier | rfl
    · obtain ⟨known, absent⟩ := wired.departed event earlier departs
      exact ⟨known, fun both => by rw [absent] at both; cases both.2⟩
    · have same : node = gone := departs.2.symm.trans left.id
      exact ⟨same ▸ left.listed, fun both => both.1 same⟩

/-- Everybody has yet to learn of the departure. -/
theorem tells (left : Departure gone kind member before after) (wired : before.Wired)
    {origin : NodeId} (live : before.cluster.inboxes.contains origin = true) :
    after.ledger.awaits origin gone := by
  obtain ⟨work, there⟩ := wired.node_of_live live
  refine ⟨work, left.node? ▸ there, ?_⟩
  rw [Cluster.Tells, left.events, ← left.id]
  exact Cluster.tells_departure left.departure (wired.read there)

/-- What was on a node that departs is lost, but everybody has yet to learn of it. -/
theorem safe (left : Departure gone kind member before after) (safe : before.Safe owner) :
    after.Safe owner := by
  refine ⟨left.wired safe.wired, ?_, ?_, ?_⟩
  · intro node message inside
    by_cases own : node = gone
    · subst own
      exact safe.honest message (left.fewer inside)
    · rw [left.mail node own] at inside
      exact safe.honest message inside
  · intro node work there
    rw [left.node?] at there
    rw [left.hand]
    exact safe.sound there
  · refine safe.balanced.depart left.names ?_ ?_ ?_ ?_ ?_ ?_ ?_ ?_
    · exact fun live => ((left.live_iff _).1 live).2
    · intro whole
      have inside : ⟨kind, member⟩ ∈ after.cluster.events := by
        rw [left.events, Cluster.mem_publish]
        exact .inr rfl
      exact whole gone _ inside ⟨left.departure, left.id⟩
    · exact fun {job} lost => (congrFun left.dropped job).mpr lost
    · rintro origin node ⟨work, there, told⟩
      refine ⟨work, left.node? ▸ there, ?_⟩
      rw [Cluster.Tells, left.events]
      exact Cluster.tells_publish told
    · intro origin node live up down
      have same : node = gone := by
        by_contra differs
        exact down ((left.live_iff node).2 ⟨differs, up⟩)
      rw [same]
      exact left.tells safe.wired ((left.live_iff origin).1 live).2
    · intro node job live
      have differs := ((left.live_iff node).1 live).1
      simp only [ledger, queued, left.node?, left.hand, left.mail node differs]
    · intro node job live
      have differs := ((left.live_iff node).1 live).1
      simp only [ledger, undelivered, left.refused, left.hand, left.mail node differs]
    · rintro origin job node ⟨work, there, waits⟩
      exact ⟨work, left.node? ▸ there, waits⟩

end Departure

/-- A node that was never there before joins with nothing to do, between two turns. -/
structure Arrival (member : Member) (work : NodeWork) (before after : Grid) : Prop where
  fresh : before.node? member.id = none
  names : after.names = before.names ++ [member.id]
  node? : ∀ node, after.node? node = if node = member.id then some work else before.node? node
  hand : after.hand = before.hand
  empty : before.hand member.id = {}
  refused : after.refused = []
  none : before.refused = []
  submitted : after.submitted = before.submitted
  dropped : after.dropped = before.dropped
  cluster : after.cluster = before.cluster.join member
  id : work.id = member.id
  queue : work.queue.jobs = []
  executions : work.executions = []
  tasks : work.tasks = ∅
  inbox : work.inbox = before.cluster.mailboxes.size
  position : work.position = before.cluster.events.size

namespace Arrival

variable {member : Member} {work : NodeWork}

theorem not_mem_names (new : Arrival member work before after) (wired : before.Wired) :
    member.id ∉ before.names := by
  intro listed
  obtain ⟨work, there⟩ := wired.listed.1 listed
  rw [new.fresh] at there
  cases there

theorem ne_of_node? (new : Arrival member work before after) {node : NodeId} {known : NodeWork}
    (there : before.node? node = some known) : node ≠ member.id := by
  rintro rfl
  rw [new.fresh] at there
  cases there

/-- A node is the one that joined, or it was there before. -/
theorem cases_node? (new : Arrival member work before after) {node : NodeId} {known : NodeWork}
    (there : after.node? node = some known) :
    node = member.id ∧ known = work ∨ node ≠ member.id ∧ before.node? node = some known := by
  rw [new.node?] at there
  split at there
  · rename_i same
    exact .inl ⟨same, (Option.some.inj there).symm⟩
  · rename_i differs
    exact .inr ⟨differs, there⟩

theorem mail_eq (new : Arrival member work before after) (wired : before.Wired) (node : NodeId) :
    after.mail node = if node = member.id then [] else before.mail node := by
  rw [Grid.mail, new.node?, new.cluster]
  split
  · rw [Option.elim_some, Cluster.messages_join, if_pos new.inbox]
  · rw [Grid.mail]
    cases there : before.node? node with
    | none => rfl
    | some other =>
        rw [Option.elim_some, Option.elim_some, Cluster.messages_join,
          if_neg (Nat.ne_of_lt (wired.housed there))]

theorem mem_events_iff (new : Arrival member work before after) {event : DiscoveryEvent} :
    event ∈ after.cluster.events ↔ event ∈ before.cluster.events ∨ event = ⟨.joined, member⟩ := by
  rw [new.cluster, Cluster.join, Cluster.mem_publish]

theorem live_iff (new : Arrival member work before after) (node : NodeId) :
    after.cluster.inboxes.contains node = true ↔
      node = member.id ∨ before.cluster.inboxes.contains node = true := by
  rw [new.cluster, Cluster.join, Cluster.publish, Cluster.contains_insert]

theorem wired (new : Arrival member work before after) (wired : before.Wired) : after.Wired where
  listed {node} := by
    rw [new.names, List.mem_append, List.mem_singleton, wired.listed, new.node?]
    by_cases same : node = member.id
    · simp [same]
    · simp [same]
  distinct := by
    rw [new.names, ← List.concat_eq_append, List.nodup_concat]
    exact ⟨new.not_mem_names wired, wired.distinct⟩
  named there := by
    rcases new.cases_node? there with ⟨rfl, rfl⟩ | ⟨-, earlier⟩
    · exact new.id
    · exact wired.named earlier
  housed there := by
    rw [new.cluster, Cluster.join, Cluster.publish, Array.size_push]
    rcases new.cases_node? there with ⟨rfl, rfl⟩ | ⟨-, earlier⟩
    · rw [new.inbox]
      exact Nat.lt_succ_self _
    · exact Nat.lt_succ_of_lt (wired.housed earlier)
  apart left right equal := by
    rcases new.cases_node? left with ⟨rfl, rfl⟩ | ⟨-, one⟩
    · rcases new.cases_node? right with ⟨rfl, rfl⟩ | ⟨-, two⟩
      · rfl
      · exact absurd (equal.symm.trans new.inbox) (Nat.ne_of_lt (wired.housed two))
    · rcases new.cases_node? right with ⟨rfl, rfl⟩ | ⟨-, two⟩
      · exact absurd (equal.trans new.inbox) (Nat.ne_of_lt (wired.housed one))
      · exact wired.apart one two equal
  read there := by
    rw [new.cluster, Cluster.join, Cluster.publish, Array.size_push]
    rcases new.cases_node? there with ⟨rfl, rfl⟩ | ⟨-, earlier⟩
    · rw [new.position]
      exact Nat.le_succ _
    · exact Nat.le_succ_of_le (wired.read earlier)
  reached there := by
    rw [new.cluster, Cluster.join, Cluster.publish, Table.get?_insert] at there
    rw [new.node?]
    split at there
    · rename_i same
      rw [if_pos same.symm]
      exact ⟨work, rfl, new.inbox.trans (Option.some.inj there)⟩
    · obtain ⟨other, known, same⟩ := wired.reached there
      exact ⟨other, by rw [if_neg (new.ne_of_node? known), known], same⟩
  enrolled {node} := by
    rw [new.live_iff, wired.enrolled, new.cluster, Cluster.isSome_find?_join]
  departed {node} event inside departs := by
    rcases new.mem_events_iff.1 inside with earlier | rfl
    · obtain ⟨known, gone⟩ := wired.departed event earlier departs
      rw [new.names, ← Bool.not_eq_true, new.live_iff]
      refine ⟨List.mem_append_left _ known, ?_⟩
      rintro (rfl | there)
      · exact new.not_mem_names wired known
      · rw [gone] at there
        cases there
    · cases departs.1

/-- A node that joins takes no job away. -/
theorem safe (new : Arrival member work before after) (safe : before.Safe owner) :
    after.Safe owner := by
  refine ⟨new.wired safe.wired, ?_, ?_, ?_⟩
  · intro node message inside
    rw [new.mail_eq safe.wired] at inside
    split at inside
    · cases inside
    · exact safe.honest message inside
  · intro node known there
    rw [new.hand]
    rcases new.cases_node? there with ⟨rfl, rfl⟩ | ⟨-, earlier⟩
    · rw [new.empty]
      refine ⟨?_, ?_, fun _ member => absurd member List.not_mem_nil⟩
      · rw [new.executions]
        exact .empty owner new.queue _
      · rw [new.tasks]
        exact .empty owner _
    · exact safe.sound earlier
  · refine safe.balanced.join new.names (new.not_mem_names safe.wired) ?_ ?_ ?_ ?_ ?_ ?_ ?_ ?_
    · intro node
      exact (new.live_iff node).trans or_comm
    · rintro origin node ⟨other, there, told⟩
      refine ⟨other, by rw [new.node?, if_neg (new.ne_of_node? there), there], ?_⟩
      rw [Cluster.Tells, new.cluster]
      exact Cluster.tells_publish told
    · exact fun whole => whole.of_subset fun event inside => new.mem_events_iff.2 (.inl inside)
    · exact fun {job} lost => (congrFun new.dropped job).mpr lost
    · intro node job
      simp only [ledger, queued, new.node?, new.mail_eq safe.wired, new.hand]
      by_cases same : node = member.id
      · simp [same, new.queue, new.empty]
      · simp only [same, if_false]
    · intro node job
      simp only [ledger, undelivered, new.refused, new.none, new.mail_eq safe.wired, new.hand]
      by_cases same : node = member.id
      · simp [same, new.empty]
      · simp only [same, if_false]
    · simp only [ledger, new.submitted]
    · rintro origin job node ⟨other, there, session, placed, waits, believed⟩
      rcases new.cases_node? there with ⟨rfl, rfl⟩ | ⟨differs, earlier⟩
      · rw [new.tasks] at waits
        obtain ⟨task, found, -⟩ := waits
        cases found
      · exact ⟨differs, other, earlier, session, placed, waits, believed⟩

end Arrival

end Grid

end JobGrid
