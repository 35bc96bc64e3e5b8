import JobGrid.Proofs.Grid.Handlers
import JobGrid.Proofs.Node.Conduct

/-!
# Where pending jobs are noted

Pending jobs are noted on nodes that can have them. Every step of a turn notes a job only where
it was delivered, or where it is placed first: on the node itself or on a member. A turn that
places the jobs of a departed node again leaves none of them behind there.
-/

namespace JobGrid

namespace Turn

/-- Each pending job is entered under its own session and identity, and is noted on a node that
fits, unless it is one of some lost jobs. The node itself, all members and all receivers of
messages fit. -/
structure Homed (fits : NodeId → Prop) (lost : List JobTransfer) (turn : Turn) : Prop where
  own : fits turn.node.id
  listed : ∀ {node}, turn.cluster.inboxes.contains node = true → fits node
  present : ∀ {node}, (turn.cluster.find? node).isSome = true → fits node
  noted : ∀ {session job placed}, Awaiting turn.node.tasks session job placed →
    placed.transfer.session = session ∧ placed.transfer.spec.id = job ∧
      (fits placed.node ∨ placed.transfer ∈ lost)

/-- The jobs that are placed again after a change in the grid: those on a departed node. -/
def lostBy (turn : Turn) (event : DiscoveryEvent) : List JobTransfer :=
  if event.kind.isDeparture ∧ event.member.id ≠ turn.node.id then
    turn.node.chance.lost.arrange (turn.jobsOn event.member.id)
  else []

variable {watched : SessionId → Prop} {brought : Option JobTransfer} {fits : NodeId → Prop}
  {lost : List JobTransfer} {turn next : Turn} {deed : Deed}

/-- No job of a task that was ended is pending. -/
theorem not_awaiting_finish (turn : Turn) (session : SessionId) (error : Option String)
    {job : JobId} {placed : PendingJob} :
    ¬ Awaiting (turn.finish session error).node.tasks session job placed := by
  rintro ⟨task, there, -⟩
  simp only [finish] at there
  split at there
  · rename_i untracked
    rw [untracked] at there
    cases there
  · rw [update, notify, Table.get?_erase_self] at there
    cases there

namespace Homed

/-- Jobs may be taken off the books. -/
theorem shrink (homed : turn.Homed fits lost) (id : next.node.id = turn.node.id)
    (cluster : next.cluster = turn.cluster)
    (less : ∀ {session job placed}, Awaiting next.node.tasks session job placed →
      Awaiting turn.node.tasks session job placed) : next.Homed fits lost where
  own := id ▸ homed.own
  listed known := homed.listed (cluster ▸ known)
  present known := homed.present (cluster ▸ known)
  noted waits := homed.noted (less waits)

/-- Looking for a member does not matter. -/
theorem picks (homed : turn.Homed fits lost) (picks : Picks turn next) :
    next.Homed fits lost := by
  obtain ⟨balancer, drawn, rfl⟩ := picks
  exact homed.shrink rfl rfl id

theorem finish (homed : turn.Homed fits lost) (session : SessionId) (error : Option String) :
    (turn.finish session error).Homed fits lost := by
  simp only [Turn.finish]
  split
  · exact homed
  · exact homed.shrink rfl rfl fun waits => (awaiting_erase waits).2

/-- A job that was delivered is noted where it was delivered to. -/
theorem deliver {transfer : JobTransfer} {target : NodeId} (homed : turn.Homed fits lost)
    (delivered : turn.deliver target transfer = .ok next) :
    fits target ∧ (next.record transfer target).Homed fits lost := by
  obtain ⟨queue, store, attention, cluster, rfl, same, reached⟩ := delivered_of_deliver delivered
  have fit : fits target := by
    rcases reached with rfl | known
    · exact homed.own
    · exact homed.listed known
  refine ⟨fit, homed.own, ?_, ?_, ?_⟩
  · intro node known
    exact homed.listed (same.inboxes ▸ known)
  · intro node known
    apply homed.present
    rw [← same.find?_eq]
    exact known
  · intro session job placed waits
    rcases awaiting_assign waits with ⟨rfl, rfl, rfl⟩ | ⟨-, earlier⟩
    · exact ⟨rfl, rfl, .inl fit⟩
    · exact homed.noted earlier

/-- Every step of a turn notes jobs only on nodes that fit. -/
theorem stride (stride : Stride watched brought turn deed next) (homed : turn.Homed fits lost) :
    next.Homed fits lost := by
  cases stride with
  | rest quiet =>
      refine ⟨quiet.id ▸ homed.own, ?_, ?_, ?_⟩
      · intro node known
        exact homed.listed (quiet.inboxes ▸ known)
      · intro node known
        exact homed.present (quiet.members node ▸ known)
      · rw [quiet.tasks]
        exact homed.noted
  | seek licensed asked => exact homed.shrink rfl rfl id
  | seekInVain licensed => exact homed
  | offer licensed delivered => exact (homed.deliver delivered).2
  | offerInVain licensed failed => exact homed
  | enter found pending => exact homed.shrink rfl rfl fun waits => (awaiting_enter found waits).2
  | finish followed error => exact homed.finish _ error
  | follow free own =>
      obtain ⟨notices, equal⟩ := track_eq turn _ _
      rw [equal]
      refine ⟨homed.own, homed.listed, homed.present, ?_⟩
      intro session job placed waits
      rcases awaiting_track waits with ⟨rfl, assignment, member, rfl, rfl⟩ | ⟨-, earlier⟩
      · obtain ⟨same, self | there⟩ := own assignment member
        · exact ⟨same, rfl, .inl (self ▸ homed.own)⟩
        · exact ⟨same, rfl, .inl (homed.present there)⟩
      · exact homed.noted earlier
  | register free nodes => exact homed.shrink rfl rfl id

theorem leads (homed : turn.Homed fits lost) (leads : Leads watched brought turn next) :
    next.Homed fits lost := by
  obtain ⟨deeds, course⟩ := leads
  exact course.keeps Homed.stride homed

/-- After a turn in which no rule broke, a job that was placed again is not pending any more or
noted on a node that fits. -/
theorem placeWithin (homed : turn.Homed fits lost) (maxAttempts : UInt32)
    (transfer : JobTransfer) (target : NodeId) :
    (turn.placeWithin maxAttempts transfer target).fault?.isSome = true ∨
      ∀ placed, Awaiting (turn.placeWithin maxAttempts transfer target).node.tasks
        transfer.session transfer.spec.id placed → fits placed.node := by
  fun_induction Turn.placeWithin maxAttempts turn transfer target with
  | case1 turn transfer target delivered arrived =>
      right
      intro placed waits
      obtain ⟨fit, -⟩ := homed.deliver arrived
      rcases awaiting_assign waits with ⟨-, -, rfl⟩ | ⟨other, -⟩
      · exact fit
      · exact absurd ⟨rfl, rfl⟩ other
  | case2 turn transfer target refused failed next routed found ih =>
      exact ih (homed.picks (picks_of_failover found))
  | case3 turn transfer target refused failed cause found =>
      right
      exact fun placed waits => absurd waits (not_awaiting_finish turn _ _)
  | case4 turn transfer target refused failed fault found => exact .inl rfl

/-- A lost job whose entry was settled is not lost any more. -/
theorem found {job : JobTransfer} (homed : turn.Homed fits (job :: lost))
    (settled : ∀ placed, Awaiting turn.node.tasks job.session job.spec.id placed →
      fits placed.node) : turn.Homed fits lost where
  own := homed.own
  listed := homed.listed
  present := homed.present
  noted := by
    intro session id placed waits
    obtain ⟨rfl, rfl, home⟩ := homed.noted waits
    refine ⟨rfl, rfl, ?_⟩
    rcases home with fit | member
    · exact .inl fit
    · rcases List.mem_cons.1 member with rfl | other
      · exact .inl (settled placed waits)
      · exact .inr other

/-- A lost job is placed again, unless it is not pending any more. -/
theorem onRejected {job : JobTransfer} (homed : turn.Homed fits (job :: lost))
    (rejectedBy : NodeId) (thief : Option NodeId) :
    (turn.onRejected ⟨job, rejectedBy, thief⟩).fault?.isSome = true ∨
      (turn.onRejected ⟨job, rejectedBy, thief⟩).Homed fits lost := by
  have after : (turn.onRejected ⟨job, rejectedBy, thief⟩).Homed fits (job :: lost) :=
    homed.leads (leads_onRejected turn _ : Leads (fun _ => False) none _ _)
  -- Only the entry of this job may still name a node that does not fit.
  suffices settled : (turn.onRejected ⟨job, rejectedBy, thief⟩).fault?.isSome = true ∨
      ∀ placed, Awaiting (turn.onRejected ⟨job, rejectedBy, thief⟩).node.tasks job.session
        job.spec.id placed → fits placed.node by
    exact settled.imp_right after.found
  simp only [Turn.onRejected]
  split
  · split
    · rename_i found
      exact (homed.picks (picks_of_failover found)).placeWithin _ (again job) _
    · exact .inr fun placed waits => absurd waits (not_awaiting_finish turn _ _)
    · exact .inl rfl
  · rename_i untracked
    right
    rintro placed ⟨task, there, pending⟩
    refine absurd ?_ untracked
    simp only [tracks, there, TaskState.isPending, Table.contains, pending, Option.isSome_some]

/-- The jobs of a departed node are placed again, one after another. -/
theorem forEach_onRejected (departed : NodeId) (lost : List JobTransfer)
    (homed : turn.fault?.isSome = true ∨ turn.Homed fits lost) :
    let done := turn.forEach lost fun turn job => turn.onRejected ⟨job, departed, none⟩
    done.fault?.isSome = true ∨ done.Homed fits [] := by
  induction lost generalizing turn with
  | nil => exact homed
  | cons job rest ih =>
      rw [forEach, List.foldl_cons]
      apply ih
      split
      · rename_i broke
        exact .inl broke
      · rename_i unbroken
        exact (homed.resolve_left unbroken).onRejected departed none

/-- Asking for a look through the jobs does not matter. -/
theorem lookNext (homed : turn.fault?.isSome = true ∨ turn.Homed fits lost) :
    (if turn.fault?.isSome then turn else turn.requestCollision).fault?.isSome = true ∨
      (if turn.fault?.isSome then turn else turn.requestCollision).Homed fits lost := by
  split
  · exact homed
  · exact homed.imp_right fun homed => homed.shrink rfl rfl id

/-- A change in the grid leaves no job noted on a node that does not fit, if only jobs that are
placed again were noted on such nodes. -/
theorem onEvent {event : DiscoveryEvent} (homed : turn.Homed fits (turn.lostBy event)) :
    (turn.onEvent event).fault?.isSome = true ∨ (turn.onEvent event).Homed fits [] := by
  cases noted : turn.node.resolver.onEvent turn.node.id event with
  | error fault =>
      simp only [Turn.onEvent, noted]
      exact .inl rfl
  | ok resolver =>
      have told : (turn.update fun node =>
          { node with resolver, balancer := node.balancer.onEvent event }).Homed fits
            (turn.lostBy event) := homed.shrink rfl rfl id
      simp only [Turn.onEvent, noted]
      apply lookNext
      split
      · rename_i departs
        rw [lostBy, if_pos departs] at told
        exact forEach_onRejected event.member.id _ (.inr told)
      · rename_i stays
        rw [lostBy, if_neg stays] at told
        exact .inr told

end Homed

end Turn

end JobGrid
