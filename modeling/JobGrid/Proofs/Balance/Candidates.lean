import JobGrid.Failover
import JobGrid.Proofs.Balance.Picks

/-!
# Picks among candidates

Balancers pick nobody but candidates, whatever they remember of earlier picks. So a job that
needs another node finds it among the members that its session may run on.
-/

namespace JobGrid

/-- A member is one of some candidates, perhaps with other attributes. -/
def Member.IsAmong (member : Member) (candidates : List Member) : Prop :=
  ∃ candidate ∈ candidates, candidate.id = member.id

theorem Member.isAmong_of_mem {member : Member} {candidates : List Member}
    (present : member ∈ candidates) : member.IsAmong candidates :=
  ⟨member, present, rfl⟩

namespace Layout

variable {layout : Layout} {candidates : List Member}

theorem members_of_build {probe : LoadProbe} {sent : NodeId → Nat}
    (built : build probe sent candidates = .ok layout) : layout.members = candidates := by
  obtain ⟨loads, -, rfl⟩ := Result.map_eq_ok.1 built
  rfl

theorem isAmong_of_within (within : layout.within candidates = true) {member : Member}
    (present : member ∈ layout.members) : member.IsAmong candidates := by
  obtain ⟨candidate, inside, same⟩ := List.any_eq_true.1 (List.all_eq_true.1 within member present)
  exact ⟨candidate, inside, of_decide_eq_true same⟩

theorem mem_of_pick {draw : Float} {member : Member} (picked : layout.pick draw = .ok member) :
    member ∈ layout.members := by
  simp only [pick] at picked
  split at picked
  · rename_i found there
    cases picked
    exact List.mem_of_getElem? there
  · cases picked

end Layout

namespace AdaptiveBalancer

variable {balancer : AdaptiveBalancer} {session : SessionId} {candidates : List Member}

/-- A remembered layout is used only while all its nodes are candidates. -/
theorem isAmong_of_layoutFor {layout : Layout} {tasks : SessionCache Layout}
    (found : balancer.layoutFor session candidates = .ok (layout, tasks)) {member : Member}
    (present : member ∈ layout.members) : member.IsAmong candidates := by
  have fresh : ∀ {built : Layout}, balancer.layout candidates = .ok built →
      member ∈ built.members → member.IsAmong candidates := by
    intro built made inside
    rw [Layout.members_of_build made] at inside
    exact Member.isAmong_of_mem inside
  simp only [layoutFor] at found
  cases known : balancer.tasks.lookup session with
  | cached stored =>
      simp only [known] at found
      split at found
      · rename_i within
        cases found
        exact Layout.isAmong_of_within within present
      · obtain ⟨built, made, equal⟩ := Result.map_eq_ok.1 found
        cases equal
        exact fresh made present
  | mapped =>
      simp only [known] at found
      obtain ⟨built, made, equal⟩ := Result.map_eq_ok.1 found
      cases equal
      exact fresh made present
  | miss =>
      simp only [known] at found
      obtain ⟨built, made, equal⟩ := Result.map_eq_ok.1 found
      -- Nothing is stored, so that the layout that was just built is the one to use.
      have unknown : balancer.tasks.get? session = none := by
        simp only [SessionCache.lookup] at known
        split at known
        · assumption
        · cases known
        · cases known
      simp only [SessionCache.store, unknown] at equal
      cases equal
      exact fresh made present

theorem isAmong_of_pick {draw : Draw} {member : Member} {next : AdaptiveBalancer}
    (picked : balancer.pick session candidates draw = .ok (member, next)) :
    member.IsAmong candidates := by
  obtain ⟨-, layout, tasks, found, chosen, -⟩ := pick_eq_ok.1 picked
  exact isAmong_of_layoutFor found (Layout.mem_of_pick chosen)

end AdaptiveBalancer

namespace AffinityBalancer

variable {balancer : AffinityBalancer} {session : SessionId} {candidates : List Member}

theorem mem_of_anyOf {draw : Draw} {member : Member}
    (chosen : anyOf session candidates draw = .ok member) : member ∈ candidates := by
  simp only [anyOf] at chosen
  split at chosen
  · rename_i found there
    cases chosen
    exact List.mem_of_getElem? there
  · cases chosen

theorem mem_of_ownerOf? {allowed : List NodeId} {key : String} {member : Member}
    (owner : balancer.ownerOf? allowed candidates key = some member) : member ∈ candidates := by
  obtain ⟨node, -, found⟩ := Option.bind_eq_some_iff.1 owner
  exact List.mem_of_find?_eq_some found

theorem mem_of_pick {key : Option String} {draw : Draw} {member : Member}
    {next : AffinityBalancer}
    (picked : balancer.pick session candidates key draw = .ok (member, next)) :
    member ∈ candidates := by
  cases Picked.of_pick picked with
  | keyless chosen => exact mem_of_anyOf chosen
  | owned owner => exact mem_of_ownerOf? owner
  | unowned chosen => exact mem_of_anyOf chosen

end AffinityBalancer

/-- A balancer picks one of the candidates. -/
theorem Balancer.isAmong_of_pick {balancer next : Balancer} {session : SessionId}
    {candidates : List Member} {spec : JobSpec} {draw : Draw} {member : Member}
    (picked : balancer.pick session candidates spec draw = .ok (member, next)) :
    member.IsAmong candidates := by
  cases balancer with
  | adaptive inner =>
      obtain ⟨found, chosen, equal⟩ := Result.map_eq_ok.1 picked
      cases equal
      exact AdaptiveBalancer.isAmong_of_pick chosen
  | affinity inner =>
      obtain ⟨found, chosen, equal⟩ := Result.map_eq_ok.1 picked
      cases equal
      exact Member.isAmong_of_mem (AffinityBalancer.mem_of_pick chosen)

namespace Rejection

variable {rejection : Rejection} {maxAttempts : UInt32} {balancer next : Balancer} {draw : Draw}
  {member : Member}

/-- The thief is present if it is a member other than the node that gave the job away. -/
theorem presentThief?_eq_some_iff :
    rejection.presentThief? = some member ↔ ∃ thief, rejection.thief = some thief ∧
      thief ≠ rejection.rejectedBy ∧
      rejection.topology.find? (fun member => member.id = thief) = some member := by
  cases known : rejection.thief with
  | none => simp [presentThief?, known]
  | some thief =>
      by_cases back : thief = rejection.rejectedBy
      · simp [presentThief?, known, back]
      · simp [presentThief?, known, back]

theorem mem_candidates_iff :
    member ∈ rejection.candidates ↔
      member ∈ rejection.topology ∧ member.id ≠ rejection.rejectedBy := by
  simp [candidates]

theorem failover_of_exhausted (exhausted : maxAttempts ≤ rejection.attempts) :
    rejection.failover maxAttempts balancer draw =
      .error (.error (.failoverExhausted rejection.spec.id)) := by
  simp only [failover, route, if_pos exhausted]

theorem failover_of_thief (fresh : ¬ maxAttempts ≤ rejection.attempts)
    (present : rejection.presentThief? = some member) :
    rejection.failover maxAttempts balancer draw = .ok (member, balancer) := by
  simp only [failover, route, if_neg fresh, present]

theorem failover_of_balance (fresh : ¬ maxAttempts ≤ rejection.attempts)
    (absent : rejection.presentThief? = none) :
    rejection.failover maxAttempts balancer draw =
      balancer.pick rejection.session rejection.candidates rejection.spec draw := by
  simp only [failover, route, if_neg fresh, absent]

/-- A job that needs another node does not go back to the one that gave it away. -/
theorem isAmong_candidates_of_failover
    (routed : rejection.failover maxAttempts balancer draw = .ok (member, next)) :
    member.IsAmong rejection.candidates := by
  by_cases exhausted : maxAttempts ≤ rejection.attempts
  · rw [failover_of_exhausted exhausted] at routed
    cases routed
  · cases present : rejection.presentThief? with
    | some thief =>
        rw [failover_of_thief exhausted present] at routed
        cases routed
        obtain ⟨node, -, other, found⟩ := presentThief?_eq_some_iff.1 present
        have same : member.id = node := by simpa using List.find?_some found
        apply Member.isAmong_of_mem
        exact mem_candidates_iff.2 ⟨List.mem_of_find?_eq_some found, same ▸ other⟩
    | none =>
        rw [failover_of_balance exhausted present] at routed
        exact Balancer.isAmong_of_pick routed

/-- A job that needs another node finds it among the members that its session may run on. -/
theorem isAmong_of_failover
    (routed : rejection.failover maxAttempts balancer draw = .ok (member, next)) :
    member.IsAmong rejection.topology := by
  obtain ⟨candidate, inside, same⟩ := isAmong_candidates_of_failover routed
  exact ⟨candidate, (mem_candidates_iff.1 inside).1, same⟩

end Rejection

end JobGrid
