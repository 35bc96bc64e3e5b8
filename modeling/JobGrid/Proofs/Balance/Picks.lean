import JobGrid.Balance.Balancer
import JobGrid.Proofs.Result

/-!
# What a pick does

How a balancer came to the node that it picked, and what it is like afterwards, is said once for
both kinds of balancers.
-/

namespace JobGrid

variable {session : SessionId} {candidates : List Member} {draw : Draw} {member : Member}

/-- A balancer that spreads jobs by load picks the node that the draw finds in the layout of the
session, and counts one more job for it. -/
theorem AdaptiveBalancer.pick_eq_ok {balancer next : AdaptiveBalancer} :
    balancer.pick session candidates draw = .ok (member, next) ↔
      candidates ≠ [] ∧ ∃ layout tasks,
        balancer.layoutFor session candidates = .ok (layout, tasks) ∧
          layout.pick draw.fraction = .ok member ∧
            next = { balancer with
              sent := balancer.sent.insert member.id (balancer.sentJobs member.id + 1)
              tasks } := by
  constructor
  · intro picked
    simp only [pick] at picked
    split at picked
    · cases picked
    · rename_i filled
      split at picked
      · cases picked
      · rename_i layout tasks found
        split at picked
        · cases picked
        · rename_i chosen
          cases picked
          exact ⟨fun none => filled (List.isEmpty_iff.2 none), layout, tasks, found, chosen, rfl⟩
  · rintro ⟨filled, layout, tasks, found, chosen, rfl⟩
    simp only [pick, List.isEmpty_eq_false_iff.2 filled, found, chosen, Bool.false_eq_true,
      if_false]

namespace AffinityBalancer

/-- How a balancer with a ring came to a node for a key: without a key it took any candidate and
remembers nothing; for a key it took the owner, or any candidate if nobody owns the key. -/
inductive Picked (balancer : AffinityBalancer) (session : SessionId) (candidates : List Member)
    (draw : Draw) : Option String → Member → AffinityBalancer → Prop where
  | keyless {member : Member} (chosen : anyOf session candidates draw = .ok member) :
      Picked balancer session candidates draw none member balancer
  | owned {key : String} {member : Member}
      (owner : balancer.ownerOf? (balancer.allowedFor session candidates).1 candidates key =
        some member) :
      Picked balancer session candidates draw (some key) member
        { balancer with tasks := (balancer.allowedFor session candidates).2 }
  | unowned {key : String} {member : Member}
      (chosen : anyOf session candidates draw = .ok member) :
      Picked balancer session candidates draw (some key) member
        { balancer with tasks := (balancer.allowedFor session candidates).2 }

theorem Picked.of_pick {balancer next : AffinityBalancer} {key : Option String}
    (picked : balancer.pick session candidates key draw = .ok (member, next)) :
    balancer.Picked session candidates draw key member next := by
  simp only [pick] at picked
  split at picked
  · cases picked
  · cases key with
    | none =>
        obtain ⟨found, chosen, equal⟩ := Result.map_eq_ok.1 picked
        cases equal
        exact .keyless chosen
    | some key =>
        simp only at picked
        split at picked
        · rename_i owner
          cases picked
          exact .owned owner
        · obtain ⟨found, chosen, equal⟩ := Result.map_eq_ok.1 picked
          cases equal
          exact .unowned chosen

end AffinityBalancer

end JobGrid
