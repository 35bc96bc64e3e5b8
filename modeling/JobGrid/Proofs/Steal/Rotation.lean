import JobGrid.Proofs.Steal.Messages
import JobGrid.Proofs.Steal.Queue

/-!
# Turns of the peers

A resolver comes by its peers in turn. A pass comes by the first ones in the queue, and each of
them moves behind all others or leaves the queue. So between two visits to a peer, from whatever
passes they are, all others in the queue are visited.
-/

namespace JobGrid

/-- How the peers in a queue take turns: the first one is visited, and then it waits behind all
others or is gone. -/
inductive Rotates : List NodeId → List NodeId → List NodeId → Prop where
  | rest (queue : List NodeId) : Rotates queue [] queue
  | again {peer : NodeId} {rest visits final : List NodeId} :
      Rotates (rest ++ [peer]) visits final → Rotates (peer :: rest) (peer :: visits) final
  | gone {peer : NodeId} {rest visits final : List NodeId} :
      Rotates rest visits final → Rotates (peer :: rest) (peer :: visits) final

namespace Rotates

variable {queue visits more middle final : List NodeId} {peer : NodeId}

protected theorem trans (first : Rotates queue visits middle)
    (second : Rotates middle more final) : Rotates queue (visits ++ more) final := by
  induction first with
  | rest queue => exact second
  | again _ ih => exact .again (ih second)
  | gone _ ih => exact .gone (ih second)

theorem split (rotates : Rotates queue (visits ++ more) final) :
    ∃ middle, Rotates queue visits middle ∧ Rotates middle more final := by
  induction visits generalizing queue with
  | nil => exact ⟨queue, .rest queue, rotates⟩
  | cons peer later ih =>
      cases rotates with
      | again next =>
          obtain ⟨middle, first, second⟩ := ih next
          exact ⟨middle, .again first, second⟩
      | gone next =>
          obtain ⟨middle, first, second⟩ := ih next
          exact ⟨middle, .gone first, second⟩

/-- The first peers are visited, and some of them wait behind all others afterwards. -/
theorem of_sublist {kept : List NodeId} (ordered : kept.Sublist visits)
    (unvisited : List NodeId) : Rotates (visits ++ unvisited) visits (unvisited ++ kept) := by
  induction ordered generalizing unvisited with
  | slnil =>
      rw [List.append_nil]
      exact .rest unvisited
  | cons peer _ ih => exact .gone (ih unvisited)
  | @cons_cons kept visits peer _ ih =>
      have behind := ih (unvisited ++ [peer])
      rw [← List.append_assoc, List.append_assoc unvisited, List.singleton_append] at behind
      exact .again behind

/-- Whoever is visited or stays was in the queue. -/
theorem subset (rotates : Rotates queue visits final) : visits ⊆ queue ∧ final ⊆ queue := by
  induction rotates with
  | rest queue => exact ⟨List.nil_subset queue, List.Subset.refl queue⟩
  | @again peer rest visits final _ ih =>
      have moved : rest ++ [peer] ⊆ peer :: rest := List.perm_append_comm.subset
      exact ⟨List.cons_subset.2 ⟨List.mem_cons_self, List.Subset.trans ih.1 moved⟩,
        List.Subset.trans ih.2 moved⟩
  | @gone peer rest visits final _ ih =>
      have fewer : rest ⊆ peer :: rest := List.subset_cons_self peer rest
      exact ⟨List.cons_subset.2 ⟨List.mem_cons_self, List.Subset.trans ih.1 fewer⟩,
        List.Subset.trans ih.2 fewer⟩

theorem nodup (rotates : Rotates queue visits final) (distinct : queue.Nodup) : final.Nodup := by
  induction rotates with
  | rest queue => exact distinct
  | again _ ih => exact ih (List.perm_append_comm.nodup_iff.1 distinct)
  | gone _ ih => exact ih (List.nodup_cons.1 distinct).2

/-- Nobody leaves the queue without a visit. -/
theorem mem_final (rotates : Rotates queue visits final) (queued : peer ∈ queue)
    (unvisited : peer ∉ visits) : peer ∈ final := by
  induction rotates with
  | rest queue => exact queued
  | @again first rest visits final _ ih =>
      rw [List.mem_cons, not_or] at unvisited
      exact ih (List.perm_append_comm.subset queued) unvisited.2
  | @gone first rest visits final _ ih =>
      rw [List.mem_cons, not_or] at unvisited
      exact ih ((List.mem_cons.1 queued).resolve_left unvisited.1) unvisited.2

/-- A peer is not visited before all those that are ahead of it. -/
theorem ahead_subset {ahead behind later : List NodeId}
    (rotates : Rotates (ahead ++ peer :: behind) (visits ++ peer :: later) final)
    (other : peer ∉ ahead) : ahead ⊆ visits := by
  induction ahead generalizing behind visits with
  | nil => exact List.nil_subset visits
  | cons first rest ih =>
      rw [List.mem_cons, not_or] at other
      cases visits with
      | nil =>
          rw [List.nil_append, List.cons_append] at rotates
          cases rotates with
          | again _ => exact absurd rfl other.1
          | gone _ => exact absurd rfl other.1
      | cons visited others =>
          rw [List.cons_append, List.cons_append] at rotates
          have next : ∃ behind, Rotates (rest ++ peer :: behind) (others ++ peer :: later) final ∧
              first = visited := by
            cases rotates with
            | again next => exact ⟨behind ++ [first], by simpa using next, rfl⟩
            | gone next => exact ⟨behind, next, rfl⟩
          obtain ⟨behind', next, rfl⟩ := next
          exact List.cons_subset_cons first (ih next other.2)

/-- Between two visits to a peer all others are visited that did not leave before. -/
theorem between {first between last : List NodeId} {other : NodeId}
    (rotates : Rotates queue (first ++ peer :: between ++ peer :: last) final)
    (distinct : queue.Nodup) (queued : other ∈ queue) (differs : other ≠ peer) :
    other ∈ between ∨ other ∈ first ∧ other ∉ final := by
  rw [List.append_assoc] at rotates
  obtain ⟨middle, earlier, later⟩ := rotates.split
  have apart := earlier.nodup distinct
  by_cases there : other ∈ middle
  · left
    cases later with
    | @again _ rest _ _ next =>
        rw [List.nodup_cons] at apart
        exact next.ahead_subset apart.1 ((List.mem_cons.1 there).resolve_left differs)
    | @gone _ rest _ _ next =>
        have again : peer ∈ rest := next.subset.1 (List.mem_append_right _ List.mem_cons_self)
        exact absurd again (List.nodup_cons.1 apart).1
  · right
    refine ⟨?_, fun back => there (later.subset.2 back)⟩
    by_contra unvisited
    exact there (earlier.mem_final queued unvisited)

end Rotates

/-! ## The visits of a pass -/

namespace Idle

variable {scene : PassScene} {accepts : NodeId → Bool}

/-- A tour that breaks no rule goes on as long as there is room. -/
theorem stops_of_visit (peers : List NodeId) {idle : Idle}
    (whole : (visit scene accepts peers idle).2.fault? = none) :
    (visit scene accepts peers idle).1 = [] ∨ (visit scene accepts peers idle).2.left = 0 := by
  induction peers generalizing idle with
  | nil => exact .inl rfl
  | cons peer rest ih =>
      simp only [visit] at whole ⊢
      split_ifs at whole ⊢ with full
      · exact .inr full
      · cases found : scene.view.find? peer with
        | none =>
            simp only [found] at whole
            exact ih whole
        | some member =>
            simp only [found] at whole ⊢
            split_ifs at whole ⊢ with failed
            · rw [whole] at failed
              cases failed
            · exact ih whole

end Idle

namespace Resolver

/-- How a node that holds some jobs asks for work: the peers that it does not come by, and what it
ends with. -/
def tour (resolver : Resolver) (scene : PassScene) (accepts : NodeId → Bool) (held : Nat) :
    List NodeId × Idle :=
  Idle.visit scene accepts resolver.queue
    { sent := resolver.sent, left := Idle.room resolver.config held }

/-- The peers that a pass comes by. -/
def visited (resolver : Resolver) (scene : PassScene) (accepts : NodeId → Bool) (store : JobStore)
    (waiting : List JobRef) (active : Nat) : List NodeId :=
  match Busy.run scene waiting active
      { received := resolver.received, counter := resolver.counter, store } with
  | .error _ => []
  | .ok busy =>
      if 0 < busy.rejected ∨ ¬ resolver.config.enabled then []
      else
        Idle.visited scene accepts resolver.queue
          { sent := resolver.sent, left := Idle.room resolver.config (waiting.length + active) }

variable {resolver : Resolver} {scene : PassScene} {store : JobStore} {waiting : List JobRef}
  {active : Nat} {busy : Busy}

/-- A pass that asks for work comes by the first peers, and those of them that it keeps wait behind
all others. -/
theorem queue_of_run (accepts : NodeId → Bool)
    (ran : Busy.run scene waiting active
      { received := resolver.received, counter := resolver.counter, store } = .ok busy)
    (asks : ¬ (0 < busy.rejected ∨ ¬ resolver.config.enabled)) :
    let tour := resolver.tour scene accepts (waiting.length + active)
    let visited := resolver.visited scene accepts store waiting active
    let pass := resolver.collide scene accepts store waiting active
    resolver.queue = visited ++ tour.1 ∧ pass.resolver.queue = tour.1 ++ tour.2.kept ∧
      pass.fault? = tour.2.fault? ∧
      ((resolver.messages scene accepts store waiting active).map SentRequest.peer).Sublist
        visited := by
  simp only [visited, messages, collide, ran, if_neg asks]
  exact ⟨(Idle.visited_append scene accepts resolver.queue _).symm, rfl, rfl,
    Idle.sublist_messages scene accepts resolver.queue _⟩

/-- A pass that asks for work comes by the first peers as long as there is room, or up to one whose
surplus does not fit into a word. -/
theorem ends_of_run (accepts : NodeId → Bool)
    (ran : Busy.run scene waiting active
      { received := resolver.received, counter := resolver.counter, store } = .ok busy)
    (asks : ¬ (0 < busy.rejected ∨ ¬ resolver.config.enabled)) :
    let tour := resolver.tour scene accepts (waiting.length + active)
    let visited := resolver.visited scene accepts store waiting active
    let pass := resolver.collide scene accepts store waiting active
    pass.fault? = none ∧ (tour.1 = [] ∨ tour.2.left = 0) ∧
        pass.resolver.queue = tour.1 ++ visited.filter scene.isMember ∨
      pass.fault? = some .overflow ∧ ∃ earlier last member, visited = earlier ++ [last] ∧
        scene.view.find? last = some member ∧ member.SurplusOverflows scene.config ∧
        pass.resolver.queue = tour.1 ++ earlier.filter scene.isMember := by
  intro tour visited pass
  obtain ⟨-, moved, ends, -⟩ := queue_of_run accepts ran asks
  have visits : visited = Idle.visited scene accepts resolver.queue
      { sent := resolver.sent, left := Idle.room resolver.config (waiting.length + active) } := by
    simp only [visited, Resolver.visited, ran, if_neg asks]
  cases broke : tour.2.fault? with
  | none =>
      refine .inl ⟨ends.trans broke, Idle.stops_of_visit resolver.queue broke, ?_⟩
      rw [visits]
      exact moved.trans (congrArg (_ ++ ·) (Idle.kept_visit resolver.queue broke))
  | some fault =>
      obtain ⟨rfl, earlier, last, member, came, found, overflows, kept⟩ :=
        Idle.overflows_of_visit resolver.queue rfl broke
      refine .inr ⟨ends.trans broke, earlier, last, member, visits.trans came, found, overflows, ?_⟩
      exact moved.trans (congrArg (_ ++ ·) kept)

/-- The peers take turns in a pass, whatever it does. -/
theorem rotates_collide (accepts : NodeId → Bool)
    (ran : Busy.run scene waiting active
      { received := resolver.received, counter := resolver.counter, store } = .ok busy) :
    Rotates resolver.queue (resolver.visited scene accepts store waiting active)
      (resolver.collide scene accepts store waiting active).resolver.queue := by
  by_cases quiet : 0 < busy.rejected ∨ ¬ resolver.config.enabled
  · simp only [visited, collide, ran, if_pos quiet]
    exact .rest resolver.queue
  · obtain ⟨split, -⟩ := queue_of_run accepts ran quiet
    have moved : ∃ kept, kept.Sublist (resolver.visited scene accepts store waiting active) ∧
        (resolver.collide scene accepts store waiting active).resolver.queue =
          (resolver.tour scene accepts (waiting.length + active)).1 ++ kept := by
      rcases ends_of_run accepts ran quiet with
        ⟨-, -, queue⟩ | ⟨-, earlier, last, -, visits, -, -, queue⟩
      · exact ⟨_, List.filter_sublist, queue⟩
      · refine ⟨_, List.filter_sublist.trans ?_, queue⟩
        rw [visits]
        exact List.sublist_append_left earlier [last]
    obtain ⟨kept, ordered, queue⟩ := moved
    have rotates := Rotates.of_sublist ordered
      (resolver.tour scene accepts (waiting.length + active)).1
    rwa [← split, ← queue] at rotates

end Resolver

/-! ## The visits of many passes -/

/-- Whether discovery tells that somebody came or left. -/
def StealEvent.TellsOfMembers : StealEvent → Prop
  | .discovery event => event.kind ≠ .metricsUpdated
  | _ => False

namespace Stealing

/-- The peers that are visited when something happens. -/
def visited (stealing : Stealing) : StealEvent → List NodeId
  | .pass store waiting active order accepts =>
      stealing.resolver.visited (stealing.scene order) accepts store waiting active
  | _ => []

/-- The peers that are visited while some things happen, one after another. -/
def visits (stealing : Stealing) : List StealEvent → List NodeId
  | [] => []
  | event :: later =>
      stealing.visited event ++
        match stealing.perform event with
        | .error _ => []
        | .ok next => next.visits later

variable {before after : Stealing} {event : StealEvent}

/-- The peers take turns when something happens that tells of nobody who comes or leaves. -/
theorem rotates_perform (quiet : ¬ event.TellsOfMembers)
    (performed : before.perform event = .ok after) :
    Rotates before.resolver.queue (before.visited event) after.resolver.queue := by
  cases event with
  | request peer request =>
      obtain ⟨⟨noted, resolver⟩, asked, rfl⟩ := Result.map_eq_ok.1 performed
      cases Resolver.heard_of_onStealRequest asked with
      | stranger absent => exact .rest _
      | member present added => exact .rest _
  | discovery event =>
      obtain ⟨resolver, noted, rfl⟩ := Result.map_eq_ok.1 performed
      have updated : event.kind = .metricsUpdated := not_not.1 quiet
      cases Resolver.told_of_onEvent noted with
      | kept silent => exact .rest _
      | queued remote joined new => simp [updated] at joined
      | dropped remote departed added => simp [updated] at departed
  | pass store waiting active order accepts =>
      obtain ⟨busy, ran, rfl⟩ := Result.map_eq_ok.1 performed
      exact Resolver.rotates_collide accepts ran
  | change view =>
      cases performed
      exact .rest _
  | restrict restrictions =>
      cases performed
      exact .rest _
  | wait millis =>
      cases performed
      exact .rest _

theorem rotates_run {later : List StealEvent} (quiet : ∀ event ∈ later, ¬ event.TellsOfMembers)
    (reached : before.run later = .ok after) :
    Rotates before.resolver.queue (before.visits later) after.resolver.queue := by
  induction later generalizing before with
  | nil =>
      cases reached
      exact .rest _
  | cons event rest ih =>
      obtain ⟨next, performed, reached⟩ := Result.bind_eq_ok.1 reached
      rw [List.forall_mem_cons] at quiet
      rw [visits, performed]
      exact (rotates_perform quiet.1 performed).trans (ih quiet.2 reached)

/-- Whatever happened before, a pass that asks for work comes by the first peers in the queue, each
of them once. It goes on to the last one as long as there is room, and the members that it came by
wait behind all others afterwards. This leaves out passes that come by a peer whose surplus, by what
it publishes, does not fit into a word: they end there, and the peer is lost. While nobody is told
to come or leave, between two visits to a peer all others in the queue are visited, except those
that an earlier visit dropped. -/
theorem peers_take_turns {config : StealingConfig} {view : GridView} {resolver : Resolver}
    (started : Resolver.start config view = .ok resolver)
    (distinct : (view.remote.map Member.id).Nodup) {restrictions : Restrictions} {now : Moment}
    {history : List StealEvent} {before : Stealing}
    (reached : ({ resolver, view, restrictions, now } : Stealing).run history = .ok before) :
    (∀ (store : JobStore) (waiting : List JobRef) (active : Nat) (order : Arrangement NodeId)
      (accepts : NodeId → Bool),
      let scene := before.scene order
      let pass := before.resolver.collide scene accepts store waiting active
      let visited := before.resolver.visited scene accepts store waiting active
      let messages := before.resolver.messages scene accepts store waiting active
      let tour := before.resolver.tour scene accepts (waiting.length + active)
      pass.outcome.rejected = 0 → config.enabled = true →
        before.resolver.queue = visited ++ tour.1 ∧ visited.Nodup ∧
        (messages.map SentRequest.peer).Sublist visited ∧ pass.resolver.queue.Nodup ∧
        (pass.fault? = none ∧ (tour.1 = [] ∨ tour.2.left = 0) ∧
            pass.resolver.queue = tour.1 ++ visited.filter scene.isMember ∨
          pass.fault? = some .overflow ∧ ∃ earlier last member, visited = earlier ++ [last] ∧
            before.view.find? last = some member ∧ member.SurplusOverflows config ∧
            pass.resolver.queue = tour.1 ++ earlier.filter scene.isMember)) ∧
      ∀ (later : List StealEvent) (after : Stealing),
        (∀ event ∈ later, ¬ event.TellsOfMembers) → before.run later = .ok after →
        ∀ (first between last : List NodeId) (peer : NodeId),
          before.visits later = first ++ peer :: between ++ peer :: last →
          ∀ other ∈ before.resolver.queue, other ≠ peer →
            other ∈ between ∨ other ∈ first ∧ other ∉ after.resolver.queue := by
  have nodup : before.resolver.queue.Nodup := by
    obtain ⟨-, -, rfl⟩ := Result.map_eq_ok.1 started
    exact run_keeps nodup_queue_perform history distinct reached
  have same : before.resolver.config = config := config_of_reached started reached
  refine ⟨?_, ?_⟩
  · intro store waiting active order accepts scene pass visited messages tour none enabled
    obtain ⟨busy, ran⟩ := exists_busy started reached scene store waiting active
    have asks : ¬ (0 < busy.rejected ∨ ¬ before.resolver.config.enabled) := by
      rw [← (outcome_of_run accepts ran).2, same]
      rintro (some | disabled)
      · exact Nat.ne_of_gt some none
      · exact disabled enabled
    obtain ⟨queue, -, -, sent⟩ := Resolver.queue_of_run accepts ran asks
    have ends := Resolver.ends_of_run accepts ran asks
    rw [show scene.config = config from same] at ends
    exact ⟨queue, (queue ▸ nodup).of_append_left, sent, Resolver.nodup_queue_collide nodup, ends⟩
  · intro later after quiet arrived first between last peer visits other queued differs
    have rotates := rotates_run quiet arrived
    rw [visits] at rotates
    exact rotates.between nodup queued differs

/-- Two members have as many surplus jobs each as there is room for, so that each pass comes by one
of them. After the first pass, the next ones come by the second member, the first and the second
again. -/
theorem peers_take_turns_of_two :
    let member (number : Nat) : Member :=
      { id := .ofNat number
        attributes := .ofList [(AttributeName.waitThreshold, .int 0)]
        metrics := { currentWaitingJobs := 5 } }
    let one := member 1
    let two := member 2
    let view : GridView := ⟨.ofNat 0, none, [one, two]⟩
    let config : StealingConfig := { waitThreshold := 0, activeThreshold := 5 }
    let resolver : Resolver := { config, queue := [one.id, two.id] }
    let accepts (_ : NodeId) : Bool := true
    let first := resolver.collide (resolver.scene view ∅ default 0) accepts ∅ [] 0
    let before : Stealing := { resolver := first.resolver, view }
    let scene := before.scene default
    let pass := before.resolver.collide scene accepts ∅ [] 0
    let event : StealEvent := .pass ∅ [] 0 default accepts
    Resolver.start config view = .ok resolver ∧ (view.remote.map Member.id).Nodup ∧
      ({ resolver, view } : Stealing).run [event] = .ok before ∧
      before.resolver.queue = [two.id, one.id] ∧ pass.resolver.queue = [one.id, two.id] ∧
      before.visits [event, event, event] = [two.id, one.id, two.id] ∧
      before.resolver.queue = before.resolver.visited scene accepts ∅ [] 0 ++
        (before.resolver.tour scene accepts 0).1 ∧
      ∀ after, before.run [event, event, event] = .ok after →
        ∀ other ∈ before.resolver.queue, other ≠ two.id →
          other ∈ [one.id] ∨ other ∈ ([] : List NodeId) ∧ other ∉ after.resolver.queue := by
  intro member one two view config resolver accepts first before scene pass event
  have started : Resolver.start config view = .ok resolver := rfl
  have reached : ({ resolver, view } : Stealing).run [event] = .ok before := rfl
  have visits : before.visits [event, event, event] = [two.id, one.id, two.id] := by
    decide +kernel
  obtain ⟨turns, fair⟩ := peers_take_turns started (by decide) reached
  refine ⟨started, by decide, reached, by decide +kernel, by decide +kernel, visits,
    (turns ∅ [] 0 default accepts (by decide +kernel) rfl).1, ?_⟩
  intro after arrived other
  have quiet : ∀ other ∈ [event, event, event], ¬ StealEvent.TellsOfMembers other := by
    simp [event, StealEvent.TellsOfMembers]
  exact fair _ after quiet arrived [] [one.id] [] two.id visits other

/-- One of two peers publishes that it keeps fewer jobs than any word holds. The pass that comes by
it ends there, with room left and the other peer not visited, and the peer is no longer in the queue
although it is a member. -/
theorem collide_drops_member :
    let one : Member :=
      { id := .ofNat 1
        attributes := .ofList [(AttributeName.waitThreshold, .int Int64.minValue)] }
    let two : Member :=
      { id := .ofNat 2
        attributes := .ofList [(AttributeName.waitThreshold, .int 0)]
        metrics := { currentWaitingJobs := 5 } }
    let view : GridView := ⟨.ofNat 0, none, [one, two]⟩
    let resolver : Resolver := { config := {}, queue := [one.id, two.id] }
    let scene := resolver.scene view ∅ default 0
    let pass := resolver.collide scene (fun _ => false) ∅ [] 0
    let tour := resolver.tour scene (fun _ => false) 0
    Resolver.start {} view = .ok resolver ∧ pass.outcome.rejected = 0 ∧
      resolver.config.enabled = true ∧ tour.1 = [two.id] ∧ tour.2.left ≠ 0 ∧
      resolver.visited scene (fun _ => false) ∅ [] 0 = [one.id] ∧
      scene.isMember one.id = true ∧ pass.resolver.queue = [two.id] := by
  intro one two view resolver scene pass tour
  exact ⟨rfl, by decide +kernel, rfl, by decide +kernel, by decide +kernel, by decide +kernel,
    by decide +kernel, by decide +kernel⟩

end Stealing

end JobGrid
