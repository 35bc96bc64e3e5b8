import JobGrid.Proofs.Balance.Candidates
import JobGrid.Proofs.Balance.Layouts

/-!
# Picks that fail

A pick takes its steps one after another, and each of them changes the balancer for good, also
where a later step fails. But no pick fails after such a change: a pick that fails leaves the
balancer as it was, and all others find a candidate.
-/

namespace JobGrid

/-- What a pick came to, and what the balancer is afterwards, whether it found a node or not. -/
structure Attempt (σ : Type) where
  result : Except Failure Member
  after : σ

namespace Attempt

variable {σ τ : Type}

/-- The same attempt, with the balancer seen as another. -/
def map (change : σ → τ) (attempt : Attempt σ) : Attempt τ := ⟨attempt.result, change attempt.after⟩

/-- The attempt that changes a balancer only if it finds a node. -/
def ofPick (before : σ) : Except Failure (Member × σ) → Attempt σ
  | .ok (member, next) => ⟨.ok member, next⟩
  | .error failure => ⟨.error failure, before⟩

@[simp] theorem result_ofPick (before : σ) (picked : Except Failure (Member × σ)) :
    (ofPick before picked).result = picked.map Prod.fst := by
  cases picked <;> rfl

theorem after_ofPick_of_error {before : σ} {picked : Except Failure (Member × σ)}
    {failure : Failure} (failed : (ofPick before picked).result = .error failure) :
    (ofPick before picked).after = before := by
  cases picked with
  | error other => rfl
  | ok found => cases failed

theorem map_ofPick (change : σ → τ) (before : σ) (picked : Except Failure (Member × σ)) :
    (ofPick before picked).map change =
      ofPick (change before) (picked.map fun found => (found.1, change found.2)) := by
  cases picked <;> rfl

end Attempt

namespace AdaptiveBalancer

variable {balancer : AdaptiveBalancer} {session : SessionId} {candidates : List Member}

/-- Picks from a layout, and then counts the job that is sent to the node. -/
def choose (balancer : AdaptiveBalancer) (layout : Layout) (draw : Draw) :
    Attempt AdaptiveBalancer :=
  match layout.pick draw.fraction with
  | .error fault => ⟨.error (.fault fault), balancer⟩
  | .ok member =>
      let sent := balancer.sent.insert member.id (balancer.sentJobs member.id + 1)
      ⟨.ok member, { balancer with sent }⟩

/-- Picks from a layout of the candidates that is made for this pick alone. -/
def chooseAfresh (balancer : AdaptiveBalancer) (candidates : List Member) (draw : Draw) :
    Attempt AdaptiveBalancer :=
  match balancer.layout candidates with
  | .error failure => ⟨.error failure, balancer⟩
  | .ok fresh => balancer.choose fresh draw

/-- Picks from the layout that a session shares, while all its nodes are candidates. -/
def chooseShared (balancer : AdaptiveBalancer) (shared : Layout) (candidates : List Member)
    (draw : Draw) : Attempt AdaptiveBalancer :=
  if shared.within candidates then balancer.choose shared draw
  else balancer.chooseAfresh candidates draw

/-- Picks a node for a job of a session, step by step. -/
def attempt (balancer : AdaptiveBalancer) (session : SessionId) (candidates : List Member)
    (draw : Draw) : Attempt AdaptiveBalancer :=
  if candidates.isEmpty then ⟨.error (.error (.emptyCandidates session)), balancer⟩
  else
    match balancer.tasks.lookup session with
    | .cached shared => balancer.chooseShared shared candidates draw
    | .mapped => balancer.chooseAfresh candidates draw
    | .miss =>
        match balancer.layout candidates with
        | .error failure => ⟨.error failure, balancer⟩
        | .ok fresh =>
            -- From here on the layout is stored, whatever becomes of the pick.
            let (shared, tasks) := balancer.tasks.store session fresh
            { balancer with tasks }.chooseShared shared candidates draw

/-- A layout that was made from some candidates has no other nodes. -/
theorem within_of_layout {fresh : Layout} (made : balancer.layout candidates = .ok fresh) :
    fresh.within candidates = true := by
  rw [Layout.within, Layout.members_of_build made]
  refine List.all_eq_true.2 fun member inside => List.any_eq_true.2 ⟨member, inside, ?_⟩
  exact decide_eq_true rfl

/-- The steps of a pick do what the pick does, and no step fails after one that changed
something. -/
theorem attempt_eq (balancer : AdaptiveBalancer) (session : SessionId) (candidates : List Member)
    (draw : Draw) :
    balancer.attempt session candidates draw =
      .ofPick balancer (balancer.pick session candidates draw) := by
  by_cases none : candidates.isEmpty = true
  · rw [attempt, pick, if_pos none, if_pos none]
    rfl
  have some : candidates ≠ [] := by simpa using none
  have chosen : ∀ layout : Layout, balancer.choose layout draw =
      .ofPick balancer (match layout.pick draw.fraction with
        | .error fault => .error (.fault fault)
        | .ok member => .ok (member, { balancer with
            sent := balancer.sent.insert member.id (balancer.sentJobs member.id + 1) })) := by
    intro layout
    rw [choose]
    cases layout.pick draw.fraction <;> rfl
  rw [attempt, pick, if_neg none, if_neg none]
  cases known : balancer.tasks.lookup session with
  | cached shared =>
      simp only [layoutFor, known, chooseShared, chooseAfresh]
      split
      · exact chosen shared
      · cases balancer.layout candidates with
        | error failure => rfl
        | ok fresh => exact chosen fresh
  | mapped =>
      simp only [layoutFor, known, chooseAfresh]
      cases balancer.layout candidates with
      | error failure => rfl
      | ok fresh => exact chosen fresh
  | miss =>
      simp only [layoutFor, known]
      cases made : balancer.layout candidates with
      | error failure => rfl
      | ok fresh =>
          have unknown := SessionCache.get?_of_lookup_miss known
          -- What is stored is the layout of these candidates, and it has a node for the draw.
          obtain ⟨member, picked⟩ := (Layout.sound_of_build made some).exists_pick draw.fraction
          simp only [SessionCache.store, unknown, chooseShared, within_of_layout made, if_true,
            choose, picked, Except.map]
          rfl

end AdaptiveBalancer

namespace AffinityBalancer

variable {session : SessionId} {candidates : List Member}

/-- Picks a node for a job of a session, step by step. -/
def attempt (balancer : AffinityBalancer) (session : SessionId) (candidates : List Member)
    (key : Option String) (draw : Draw) : Attempt AffinityBalancer :=
  if candidates.isEmpty then ⟨.error (.error (.emptyCandidates session)), balancer⟩
  else
    match key with
    | none => ⟨anyOf session candidates draw, balancer⟩
    | some key =>
        let (allowed, tasks) := balancer.allowedFor session candidates
        -- From here on the candidates are stored, whatever becomes of the pick.
        let noted := { balancer with tasks }
        match noted.ownerOf? allowed candidates key with
        | some member => ⟨.ok member, noted⟩
        | none => ⟨anyOf session candidates draw, noted⟩

/-- Chance finds a candidate if there is one. -/
theorem exists_anyOf (some : candidates ≠ []) (session : SessionId) (draw : Draw) :
    ∃ member, anyOf session candidates draw = .ok member := by
  have inRange : draw.index % candidates.length < candidates.length :=
    Nat.mod_lt _ (List.length_pos_iff.2 some)
  exact ⟨_, by rw [anyOf, List.getElem?_eq_getElem inRange]⟩

/-- The steps of a pick do what the pick does, and no step fails after one that changed
something. -/
theorem attempt_eq (balancer : AffinityBalancer) (session : SessionId)
    (candidates : List Member) (key : Option String) (draw : Draw) :
    balancer.attempt session candidates key draw =
      .ofPick balancer (balancer.pick session candidates key draw) := by
  by_cases none : candidates.isEmpty = true
  · simp only [attempt, pick, if_pos none]
    rfl
  obtain ⟨other, chance⟩ := exists_anyOf (by simpa using none) session draw
  simp only [attempt, pick, if_neg none]
  cases key with
  | none =>
      simp only [chance]
      rfl
  | some key =>
      simp only [chance]
      have same : ownerOf? { balancer with
            tasks := (balancer.allowedFor session candidates).2 }
          (balancer.allowedFor session candidates).1 candidates key =
          balancer.ownerOf? (balancer.allowedFor session candidates).1 candidates key := rfl
      rw [same]
      cases balancer.ownerOf? (balancer.allowedFor session candidates).1 candidates key <;> rfl

end AffinityBalancer

namespace Balancer

/-- Picks a node for a job of a session, step by step. -/
def attempt (balancer : Balancer) (session : SessionId) (candidates : List Member)
    (spec : JobSpec) (draw : Draw) : Attempt Balancer :=
  match balancer with
  | adaptive inner => (inner.attempt session candidates draw).map adaptive
  | affinity inner => (inner.attempt session candidates spec.affinityKey draw).map affinity

theorem attempt_eq (balancer : Balancer) (session : SessionId) (candidates : List Member)
    (spec : JobSpec) (draw : Draw) :
    balancer.attempt session candidates spec draw =
      .ofPick balancer (balancer.pick session candidates spec draw) := by
  cases balancer with
  | adaptive inner =>
      rw [attempt, AdaptiveBalancer.attempt_eq, Attempt.map_ofPick]
      rfl
  | affinity inner =>
      rw [attempt, AffinityBalancer.attempt_eq, Attempt.map_ofPick]
      rfl

/-- Whatever a balancer was asked and told before, a pick finds one of the candidates or leaves
the balancer as it was. Without candidates it fails at once. -/
theorem attempt_among (start : Balancer) (history : List BalancerCall) (session : SessionId)
    (candidates : List Member) (spec : JobSpec) (draw : Draw) :
    let reached := start.run history
    let attempt := reached.attempt session candidates spec draw
    attempt.result = (reached.pick session candidates spec draw).map Prod.fst ∧
      attempt.after = reached.perform (.pick session candidates spec draw) ∧
      (∀ member, attempt.result = .ok member → member.IsAmong candidates) ∧
      (candidates = [] →
        attempt = ⟨.error (.error (.emptyCandidates session)), reached⟩) ∧
      ∀ failure, attempt.result = .error failure → attempt.after = reached := by
  intro reached attempt
  have steps : attempt = .ofPick reached (reached.pick session candidates spec draw) :=
    attempt_eq reached session candidates spec draw
  refine ⟨?_, ?_, ?_, ?_, ?_⟩
  · rw [steps, Attempt.result_ofPick]
  · rw [steps, perform]
    cases reached.pick session candidates spec draw <;> rfl
  · intro member found
    rw [steps, Attempt.result_ofPick] at found
    obtain ⟨⟨one, next⟩, picked, rfl⟩ := Result.map_eq_ok.1 found
    exact isAmong_of_pick picked
  · rintro rfl
    simp only [attempt, Balancer.attempt]
    cases reached <;> rfl
  · intro failure failed
    rw [steps] at failed ⊢
    exact Attempt.after_ofPick_of_error failed

/-- A session shares a layout of two nodes when the first of them is no candidate any more. The
other one is picked, and a third one whose load is negative changes nothing. -/
theorem attempt_among_narrowed :
    let one : Member := { id := .ofNat 1 }
    let two : Member := { id := .ofNat 2 }
    let three : Member := { id := .ofNat 3 }
    let session : SessionId := .ofNat 5
    let spec : JobSpec := { id := .ofNat 7 }
    let start : Balancer :=
      .adaptive { probe := fun member _ => .ok (if member.id = three.id then -1 else 1) }
    let history : List BalancerCall := [.pick session [one, two] spec ⟨0.25, 0⟩]
    let reached := start.run history
    let narrow := reached.attempt session [two] spec ⟨0.25, 0⟩
    let illegal := reached.attempt session [three] spec ⟨0.25, 0⟩
    narrow.result.toOption.map Member.id = some two.id ∧
      (∀ member, narrow.result = .ok member → member.IsAmong [two]) ∧
      reached.attempt session [] spec ⟨0.25, 0⟩ =
        ⟨.error (.error (.emptyCandidates session)), reached⟩ ∧
      illegal.result.isOk = false ∧
      ∀ failure, illegal.result = .error failure → illegal.after = reached := by
  intro one two three session spec start history reached narrow illegal
  have among := attempt_among start history session [two] spec ⟨0.25, 0⟩
  have empty := attempt_among start history session [] spec ⟨0.25, 0⟩
  have kept := attempt_among start history session [three] spec ⟨0.25, 0⟩
  exact ⟨by decide +kernel, among.2.2.1, empty.2.2.2.1 rfl, by decide +kernel, kept.2.2.2.2⟩

end Balancer

end JobGrid
