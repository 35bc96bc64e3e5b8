import JobGrid.Proofs.Steal.Outstanding
import JobGrid.Proofs.Steal.Unserved

/-!
# The queue of peers

A pass reorders the peers that a resolver keeps in mind. Those that it comes by move behind the
others, except those that are no members. It writes a request down for members only, and of the
requests that peers made it drops some and adds none.
-/

namespace JobGrid

/-- Whether somebody is a member where a pass looks. -/
def PassScene.isMember (scene : PassScene) (node : NodeId) : Bool := (scene.view.find? node).isSome

namespace Idle

variable {scene : PassScene} {accepts : NodeId → Bool}

@[simp] theorem kept_ask (idle : Idle) (scene : PassScene) (accepts : NodeId → Bool)
    (peer : NodeId) (surplus : Nat) : (idle.ask scene accepts peer surplus).kept = idle.kept := by
  simp only [ask]
  split_ifs <;> exact kept_refresh idle scene peer

/-- Only the peer that is asked may get an entry. -/
theorem mem_keys_ask {idle : Idle} {peer other : NodeId} {surplus : Nat}
    (known : other ∈ (idle.ask scene accepts peer surplus).sent.peers.keys) :
    other = peer ∨ other ∈ idle.sent.peers.keys := by
  have refreshed : other ∈ (idle.refresh scene peer).sent.peers.keys →
      other = peer ∨ other ∈ idle.sent.peers.keys := by
    intro there
    obtain ⟨entry, -, sent⟩ := idle.get?_refresh scene peer
    rw [sent] at there
    split_ifs at there
    · rcases (StealTable.mem_keys_reset _ _ _ _ _).1 there with same | ready
      · exact .inl same
      · exact (StealTable.mem_keys_ensure _ _ _ _).1 ready
    · exact (StealTable.mem_keys_ensure _ _ _ _).1 there
  simp only [ask] at known
  split_ifs at known
  · exact refreshed known
  · rcases (StealTable.mem_keys_reset _ _ _ _ _).1 known with same | there
    · exact .inl same
    · exact refreshed there
  · exact refreshed known

/-- Only the peer that is visited may get an entry, even if a rule breaks. -/
theorem mem_keys_visitMember {idle : Idle} {member : Member} {other : NodeId}
    (known : other ∈ (idle.visitMember scene accepts member).sent.peers.keys) :
    other = member.id ∨ other ∈ idle.sent.peers.keys := by
  simp only [visitMember] at known
  split at known
  · exact .inr known
  · exact .inr known
  · exact mem_keys_ask known

/-- Only members among the peers of a tour may get an entry, even if a rule breaks. -/
theorem mem_keys_visit (peers : List NodeId) {idle : Idle} {other : NodeId}
    (known : other ∈ (visit scene accepts peers idle).2.sent.peers.keys) :
    other ∈ idle.sent.peers.keys ∨ other ∈ peers ∧ scene.isMember other = true := by
  induction peers generalizing idle with
  | nil => exact .inl known
  | cons peer rest ih =>
      simp only [visit] at known
      split_ifs at known with full
      · exact .inl known
      · cases found : scene.view.find? peer with
        | none =>
            rw [found] at known
            exact (ih known).imp_right (And.imp_left (List.mem_cons_of_mem peer))
        | some member =>
            have identity : member.id = peer := by simpa using List.find?_some found
            have present : scene.isMember peer = true := by simp [PassScene.isMember, found]
            have first : other ∈ (idle.visitMember scene accepts member).sent.peers.keys →
                other ∈ idle.sent.peers.keys ∨
                  other ∈ peer :: rest ∧ scene.isMember other = true := by
              intro there
              rcases mem_keys_visitMember there with same | earlier
              · rw [same, identity]
                exact .inr ⟨List.mem_cons_self, present⟩
              · exact .inl earlier
            simp only [found] at known
            split_ifs at known
            · exact first known
            · rcases ih known with there | ⟨inside, member⟩
              · exact first there
              · exact .inr ⟨List.mem_cons_of_mem peer inside, member⟩

/-- A member that is visited moves behind the others, unless a rule breaks. -/
theorem kept_visitMember (idle : Idle) (scene : PassScene) (accepts : NodeId → Bool)
    (member : Member) :
    (idle.visitMember scene accepts member).kept = idle.kept ∧
        (idle.visitMember scene accepts member).fault?.isSome = true ∨
      (idle.visitMember scene accepts member).kept = idle.kept ++ [member.id] := by
  simp only [visitMember]
  split
  · exact .inl ⟨rfl, rfl⟩
  · exact .inr rfl
  · exact .inr (by rw [kept_ask])

theorem filter_of_absent {peer : NodeId} (gone : scene.view.find? peer = none) :
    [peer].filter scene.isMember = [] := by
  simp [PassScene.isMember, gone]

theorem kept_of_visitMember {idle : Idle} {peer : NodeId} {member : Member}
    (found : scene.view.find? peer = some member)
    (whole : (idle.visitMember scene accepts member).fault?.isSome = false) :
    (idle.visitMember scene accepts member).kept =
      idle.kept ++ [peer].filter scene.isMember := by
  have identity : member.id = peer := by simpa using List.find?_some found
  have alone : [peer].filter scene.isMember = [peer] := by simp [PassScene.isMember, found]
  rcases idle.kept_visitMember scene accepts member with ⟨-, broke⟩ | moved
  · rw [whole] at broke
    cases broke
  · rw [moved, alone, identity]

/-- The peers that a tour comes by. -/
def visited (scene : PassScene) (accepts : NodeId → Bool) : List NodeId → Idle → List NodeId
  | [], _ => []
  | peer :: rest, idle =>
      if idle.left = 0 then []
      else
        match scene.view.find? peer with
        | none => peer :: visited scene accepts rest idle
        | some member =>
            let after := idle.visitMember scene accepts member
            peer :: if after.fault?.isSome then [] else visited scene accepts rest after

/-- A tour comes by the first peers. -/
theorem visited_append (scene : PassScene) (accepts : NodeId → Bool) (peers : List NodeId)
    (idle : Idle) :
    visited scene accepts peers idle ++ (visit scene accepts peers idle).1 = peers := by
  induction peers generalizing idle with
  | nil => rfl
  | cons peer rest ih =>
      simp only [visited, visit]
      split_ifs with full
      · rfl
      · cases found : scene.view.find? peer with
        | none => exact congrArg (peer :: ·) (ih idle)
        | some member =>
            simp only
            split_ifs
            · rfl
            · exact congrArg (peer :: ·) (ih _)

theorem visited_sublist (scene : PassScene) (accepts : NodeId → Bool) (peers : List NodeId)
    (idle : Idle) : (visited scene accepts peers idle).Sublist peers := by
  have ahead := List.sublist_append_left (visited scene accepts peers idle)
    (visit scene accepts peers idle).1
  rwa [visited_append] at ahead

/-- A tour that breaks no rule keeps the members that it comes by, in order. -/
theorem kept_visit (peers : List NodeId) {idle : Idle}
    (whole : (visit scene accepts peers idle).2.fault? = none) :
    (visit scene accepts peers idle).2.kept =
      idle.kept ++ (visited scene accepts peers idle).filter scene.isMember := by
  induction peers generalizing idle with
  | nil => exact (List.append_nil idle.kept).symm
  | cons peer rest ih =>
      simp only [visited, visit] at whole ⊢
      split_ifs at whole ⊢ with full
      · exact (List.append_nil idle.kept).symm
      · cases found : scene.view.find? peer with
        | none =>
            simp only [found] at whole ⊢
            rw [ih whole, ← List.singleton_append, List.filter_append, filter_of_absent found,
              List.nil_append]
        | some member =>
            simp only [found] at whole ⊢
            split_ifs at whole ⊢ with failed
            · rw [whole] at failed
              cases failed
            · rw [ih whole, kept_of_visitMember found (Bool.eq_false_iff.2 failed),
                List.append_assoc, ← List.filter_append, List.singleton_append]

/-- A tour queues nobody twice, even if it breaks a rule. -/
theorem nodup_visit (peers : List NodeId) {idle : Idle}
    (distinct : (idle.kept ++ peers).Nodup) :
    ((visit scene accepts peers idle).2.kept ++ (visit scene accepts peers idle).1).Nodup := by
  induction peers generalizing idle with
  | nil => exact distinct
  | cons peer rest ih =>
      have fewer : (idle.kept ++ rest).Nodup :=
        distinct.sublist (List.Sublist.append_left (List.sublist_cons_self peer rest) idle.kept)
      simp only [visit]
      split_ifs with full
      · exact distinct
      · cases found : scene.view.find? peer with
        | none => exact ih fewer
        | some member =>
            have identity : member.id = peer := by simpa using List.find?_some found
            have visited : ((idle.visitMember scene accepts member).kept ++ rest).Nodup := by
              rcases idle.kept_visitMember scene accepts member with ⟨same, -⟩ | moved
              · rwa [same]
              · rwa [moved, identity, List.append_assoc]
            simp only
            split_ifs
            · exact visited
            · exact ih visited

end Idle

namespace Busy

/-- Serving peers adds no request. -/
theorem kept_keys (scene : PassScene) (waiting : Nat) (received : StealTable) :
    Kept scene waiting True fun busy => busy.received.peers.keys ⊆ received.peers.keys where
  start job known := by simpa only [start] using known
  forget {busy peer} known _ := by
    cases dropped : busy.forget peer with
    | error fault => trivial
    | ok next =>
        obtain ⟨counter, -, rfl⟩ := Result.map_eq_ok.1 dropped
        intro other there
        exact known ((busy.received.mem_keys_remove peer other).1 there).1
  expire {busy peer entry} known asked _ := by
    cases tookBack : busy.expire scene peer with
    | error fault => trivial
    | ok next =>
        obtain ⟨counter, -, rfl⟩ := Result.map_eq_ok.1 tookBack
        intro other there
        rcases (busy.received.mem_keys_reset scene.now peer other 0).1 there with rfl | earlier
        · exact known (Table.mem_keys_iff.2 ⟨entry, asked⟩)
        · exact known earlier
  give {busy peer entry job handle} known _ _ _ _ _ _ asked positive _ _ _ := by
    have asks : 0 < busy.received.jobs peer := StealTable.jobs_of_get? asked ▸ positive
    rw [give_of_asks busy _ scene job asks]
    cases busy.counter.add (-1) with
    | error fault => trivial
    | ok counter =>
        intro other there
        rcases (StealTable.mem_keys_served other).1 there with rfl | earlier
        · exact known (Table.mem_keys_iff.2 ⟨entry, asked⟩)
        · exact known earlier

theorem keys_of_run {scene : PassScene} {waiting : List JobRef} {active : Nat} {busy next : Busy}
    (ran : run scene waiting active busy = .ok next) :
    next.received.peers.keys ⊆ busy.received.peers.keys := by
  have ended : Ends True (fun next => next.received.peers.keys ⊆ busy.received.peers.keys)
      (run scene waiting active busy) :=
    run_keeps (kept_keys scene waiting.length busy.received) active (List.Subset.refl _)
  rwa [ran] at ended

end Busy

namespace Resolver

variable {resolver : Resolver} {scene : PassScene} {accepts : NodeId → Bool} {store : JobStore}
  {waiting : List JobRef} {active : Nat}

/-- A pass queues nobody twice, even if it breaks a rule. -/
theorem nodup_queue_collide (nodup : resolver.queue.Nodup) :
    (resolver.collide scene accepts store waiting active).resolver.queue.Nodup := by
  cases ran : Busy.run scene waiting active
      { received := resolver.received, counter := resolver.counter, store } with
  | error fault =>
      simp only [collide, ran]
      exact nodup
  | ok busy =>
      simp only [collide, ran]
      split
      · exact nodup
      · exact List.perm_append_comm.nodup_iff.1 (Idle.nodup_visit resolver.queue nodup)

theorem nodup_queue_onEvent {next : Resolver} {localId : NodeId} {event : DiscoveryEvent}
    (nodup : resolver.queue.Nodup) (noted : resolver.onEvent localId event = .ok next) :
    next.queue.Nodup := by
  cases told_of_onEvent noted with
  | kept silent => exact nodup
  | queued remote joined new =>
      refine List.nodup_append.2 ⟨nodup, List.nodup_cons.2 ⟨List.not_mem_nil, .nil⟩, ?_⟩
      rintro peer queued other last rfl
      exact new (List.mem_singleton.1 last ▸ queued)
  | dropped remote departed added => exact nodup.filter _

end Resolver

/-- Nobody is queued twice, whatever happens. -/
theorem Stealing.nodup_queue_perform {before after : Stealing} {event : StealEvent}
    (nodup : before.resolver.queue.Nodup) (performed : before.perform event = .ok after) :
    after.resolver.queue.Nodup := by
  cases event with
  | request peer request =>
      obtain ⟨⟨noted, resolver⟩, asked, rfl⟩ := Result.map_eq_ok.1 performed
      cases Resolver.heard_of_onStealRequest asked with
      | stranger absent => exact nodup
      | member present added => exact nodup
  | discovery event =>
      obtain ⟨resolver, noted, rfl⟩ := Result.map_eq_ok.1 performed
      exact Resolver.nodup_queue_onEvent nodup noted
  | pass store waiting active order accepts =>
      obtain ⟨busy, -, rfl⟩ := Result.map_eq_ok.1 performed
      exact Resolver.nodup_queue_collide nodup
  | change view =>
      cases performed
      exact nodup
  | restrict restrictions =>
      cases performed
      exact nodup
  | wait millis =>
      cases performed
      exact nodup

end JobGrid
