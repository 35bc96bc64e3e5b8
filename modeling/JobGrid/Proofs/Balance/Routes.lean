import JobGrid.Proofs.Balance.Attempts
import JobGrid.Proofs.Balance.History

/-!
# Routes of jobs that need another node

The route of a job that a node refused, gave away or lost is the same whatever the balancer was
asked and told before. The job fails for good exactly if it was placed too often, it goes to its
thief if that one is there, and else the balancer places it among all other members. It never
goes back to the node that it comes from.
-/

namespace JobGrid

/-- Whether loads were measured with no use: a probe broke a rule, or gave a load that cannot be
laid out. -/
def Failure.IsLoad : Failure → Prop
  | .fault _ | .error (.illegalLoad _ _) => True
  | _ => False

namespace Layout

variable {probe : LoadProbe} {sent : NodeId → Nat} {failure : Failure} {members : List Member}

theorem isLoad_of_loads (failed : loads probe sent members = .error failure) : failure.IsLoad := by
  induction members with
  | nil => cases failed
  | cons member rest ih =>
      simp only [loads] at failed
      split at failed
      · cases failed
        trivial
      · split at failed
        · exact ih (Result.map_eq_error.1 failed)
        · cases failed
          trivial

/-- Nodes are laid out unless their loads cannot be. -/
theorem isLoad_of_build (failed : build probe sent members = .error failure) : failure.IsLoad :=
  isLoad_of_loads (Result.map_eq_error.1 failed)

end Layout

namespace AdaptiveBalancer

variable {balancer : AdaptiveBalancer} {session : SessionId} {candidates : List Member}
  {failure : Failure}

theorem isLoad_of_layoutFor (failed : balancer.layoutFor session candidates = .error failure) :
    failure.IsLoad := by
  simp only [layoutFor] at failed
  split at failed
  · split at failed
    · cases failed
    · exact Layout.isLoad_of_build (Result.map_eq_error.1 failed)
  · exact Layout.isLoad_of_build (Result.map_eq_error.1 failed)
  · exact Layout.isLoad_of_build (Result.map_eq_error.1 failed)

/-- If there are candidates, one of them is picked unless loads cannot be laid out. -/
theorem isLoad_of_pick {draw : Draw} (some : candidates ≠ [])
    (failed : balancer.pick session candidates draw = .error failure) : failure.IsLoad := by
  rw [pick, if_neg (by simpa using some)] at failed
  split at failed
  · rename_i other broke
    cases failed
    exact isLoad_of_layoutFor broke
  · split at failed
    · cases failed
      trivial
    · cases failed

end AdaptiveBalancer

namespace AffinityBalancer

/-- If there are candidates, one of them is picked. -/
theorem exists_pick (balancer : AffinityBalancer) (session : SessionId) {candidates : List Member}
    (some : candidates ≠ []) (key : Option String) (draw : Draw) :
    ∃ found, balancer.pick session candidates key draw = .ok found := by
  obtain ⟨other, chance⟩ := exists_anyOf some session draw
  have filled : ¬ candidates.isEmpty = true := by simpa using some
  simp only [pick, if_neg filled, chance]
  cases key with
  | none => exact ⟨_, rfl⟩
  | some key =>
      simp only
      split
      · exact ⟨_, rfl⟩
      · exact ⟨_, rfl⟩

end AffinityBalancer

namespace Balancer

variable {balancer : Balancer} {session : SessionId} {candidates : List Member} {spec : JobSpec}
  {draw : Draw}

theorem pick_nil (balancer : Balancer) (session : SessionId) (spec : JobSpec) (draw : Draw) :
    balancer.pick session [] spec draw = .error (.error (.emptyCandidates session)) := by
  cases balancer <;> rfl

/-- If there are candidates, a balancer picks one of them unless loads cannot be laid out. -/
theorem isLoad_of_pick {failure : Failure} (some : candidates ≠ [])
    (failed : balancer.pick session candidates spec draw = .error failure) : failure.IsLoad := by
  cases balancer with
  | adaptive inner => exact AdaptiveBalancer.isLoad_of_pick some (Result.map_eq_error.1 failed)
  | affinity inner =>
      obtain ⟨found, picked⟩ := inner.exists_pick session some spec.affinityKey draw
      rw [pick, picked] at failed
      cases failed

/-- A balancer complains about missing candidates exactly if there are none. -/
theorem pick_eq_emptyCandidates_iff {other : SessionId} :
    balancer.pick session candidates spec draw = .error (.error (.emptyCandidates other)) ↔
      other = session ∧ candidates = [] := by
  constructor
  · intro failed
    by_cases none : candidates = []
    · subst none
      rw [pick_nil] at failed
      cases failed
      exact ⟨rfl, rfl⟩
    · exact (isLoad_of_pick none failed).elim
  · rintro ⟨rfl, rfl⟩
    exact balancer.pick_nil other spec draw

/-- How often a job was placed is nothing that a balancer complains about. -/
theorem pick_ne_failoverExhausted (job : JobId) :
    balancer.pick session candidates spec draw ≠ .error (.error (.failoverExhausted job)) := by
  intro failed
  by_cases none : candidates = []
  · subst none
    rw [pick_nil] at failed
    cases failed
  · exact isLoad_of_pick none failed

end Balancer

namespace Rejection

section Failover

variable {rejection : Rejection} {thief : NodeId}

/-- The thief is present if some member has its identity, and the first such member is found. -/
theorem exists_presentThief (known : rejection.thief = some thief)
    (other : thief ≠ rejection.rejectedBy)
    (inside : ∃ member ∈ rejection.topology, member.id = thief) :
    ∃ first, rejection.topology.find? (fun member => member.id = thief) = some first ∧
      rejection.presentThief? = some first := by
  obtain ⟨member, listed, same⟩ := inside
  obtain ⟨first, found⟩ : ∃ first,
      rejection.topology.find? (fun member => member.id = thief) = some first := by
    apply Option.isSome_iff_exists.1
    rw [List.find?_isSome]
    exact ⟨member, listed, decide_eq_true same⟩
  exact ⟨first, found, presentThief?_eq_some_iff.2 ⟨thief, known, other, found⟩⟩

theorem presentThief?_eq_none
    (absent : ∀ thief, ¬ (rejection.thief = some thief ∧ thief ≠ rejection.rejectedBy ∧
      ∃ member ∈ rejection.topology, member.id = thief)) :
    rejection.presentThief? = none := by
  apply Option.eq_none_iff_forall_ne_some.2
  intro member present
  obtain ⟨thief, known, other, found⟩ := presentThief?_eq_some_iff.1 present
  have same : member.id = thief := by simpa using List.find?_some found
  exact absent thief ⟨known, other, member, List.mem_of_find?_eq_some found, same⟩

/-- A job fails for good exactly if it was placed too often. -/
theorem failover_eq_exhausted_iff {maxAttempts : UInt32} {balancer : Balancer} {draw : Draw}
    {job : JobId} :
    rejection.failover maxAttempts balancer draw = .error (.error (.failoverExhausted job)) ↔
      job = rejection.spec.id ∧ maxAttempts ≤ rejection.attempts := by
  by_cases exhausted : maxAttempts ≤ rejection.attempts
  · simp only [failover_of_exhausted exhausted, Except.error.injEq, Failure.error.injEq,
      PlacementError.failoverExhausted.injEq, exhausted, and_true]
    exact eq_comm
  · simp only [exhausted, and_false, iff_false]
    cases present : rejection.presentThief? with
    | some member =>
        rw [failover_of_thief exhausted present]
        exact fun same => nomatch same
    | none =>
        rw [failover_of_balance exhausted present]
        exact Balancer.pick_ne_failoverExhausted job

end Failover

/-- Whatever a balancer was asked and told before, a job that needs another node fails for good
exactly if it was placed too often. Else it goes to its thief, if that one is a member other than
the node that gave the job away, and the balancer takes no note of it. Else the balancer picks
among all members but that node, and complains about missing candidates exactly if there are no
others. In no case does the job go back to that node, or leave the members that its session may
run on, whatever the balancer remembers. -/
theorem failover_routes (start : Balancer) (history : List BalancerCall) (rejection : Rejection)
    (maxAttempts : UInt32) (draw : Draw) :
    let reached := start.run history
    let routed := rejection.failover maxAttempts reached draw
    let others := rejection.topology.filter fun member => member.id ≠ rejection.rejectedBy
    let isThief (thief : NodeId) : Prop :=
      rejection.thief = some thief ∧ thief ≠ rejection.rejectedBy ∧
        ∃ member ∈ rejection.topology, member.id = thief
    (∀ job, routed = .error (.error (.failoverExhausted job)) ↔
      job = rejection.spec.id ∧ maxAttempts ≤ rejection.attempts) ∧
      (rejection.attempts < maxAttempts → ∀ thief, isThief thief → ∃ member,
        rejection.topology.find? (fun member => member.id = thief) = some member ∧
          routed = .ok (member, reached)) ∧
      (rejection.attempts < maxAttempts → (∀ thief, ¬ isThief thief) →
        routed = reached.pick rejection.session others rejection.spec draw ∧
          ∀ session, routed = .error (.error (.emptyCandidates session)) ↔
            session = rejection.session ∧
              ∀ member ∈ rejection.topology, member.id = rejection.rejectedBy) ∧
      ∀ member next, routed = .ok (member, next) →
        member.IsAmong rejection.topology ∧ member.id ≠ rejection.rejectedBy := by
  intro reached routed others isThief
  refine ⟨?_, ?_, ?_, ?_⟩
  · exact fun job => failover_eq_exhausted_iff
  · rintro fresh thief ⟨known, other, inside⟩
    obtain ⟨first, found, present⟩ := exists_presentThief known other inside
    exact ⟨first, found, failover_of_thief (UInt32.not_le.2 fresh) present⟩
  · intro fresh absent
    have balanced : routed = reached.pick rejection.session others rejection.spec draw :=
      failover_of_balance (UInt32.not_le.2 fresh) (presentThief?_eq_none absent)
    refine ⟨balanced, fun session => ?_⟩
    rw [balanced, Balancer.pick_eq_emptyCandidates_iff]
    simp [others, List.filter_eq_nil_iff]
  · intro member next found
    obtain ⟨candidate, inside, same⟩ := isAmong_candidates_of_failover found
    obtain ⟨present, other⟩ := mem_candidates_iff.1 inside
    exact ⟨⟨candidate, present, same⟩, same ▸ other⟩

/-- A session shares a layout of two nodes, of which the first would be picked again. It gave the
job away, so that the job goes to the second one. -/
example :
    let one : Member := { id := .ofNat 1 }
    let two : Member := { id := .ofNat 2 }
    let session : SessionId := .ofNat 5
    let spec : JobSpec := { id := .ofNat 7 }
    let start : Balancer := .adaptive { probe := fun _ _ => .ok 1 }
    let reached := start.run [.pick session [one, two] spec ⟨0.25, 0⟩]
    let rejection : Rejection :=
      { session, spec, rejectedBy := one.id, thief := some one.id, attempts := 1
        topology := [one, two] }
    (reached.pick session [one, two] spec ⟨0.25, 0⟩).toOption.map (fun found => found.1.id) =
        some one.id ∧
      (rejection.failover 3 reached ⟨0.25, 0⟩).toOption.map (fun found => found.1.id) =
        some two.id := by
  decide +kernel

end Rejection

end JobGrid
