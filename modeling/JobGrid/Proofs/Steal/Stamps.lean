import JobGrid.Proofs.Grid.Copies
import JobGrid.Proofs.Steal.Gift
import JobGrid.Proofs.Steal.Overlap
import JobGrid.Proofs.Steal.Thresholds

/-!
# Stamps of a pass

It can be counted how often the jobs of a node are stamped with a thief between two moments. A
pass leaves all jobs alone that it was not told of, and it stamps the only handle of a job that
it was told of at most once: the count of attempts of this handle grows by the stamps of the
job.
-/

namespace JobGrid

/-! ## Jobs that a pass was not told of -/

/-- A pass leaves the jobs alone that it was not told of. -/
theorem Resolver.get?_collide_of_not_mem (resolver : Resolver) (scene : PassScene)
    (accepts : NodeId → Bool) (store : JobStore) {waiting : List JobRef} (active : Nat)
    {ref : JobRef} (outside : ref ∉ waiting) :
    (resolver.collide scene accepts store waiting active).store.get? ref = store.get? ref := by
  cases resolver.dealt_collide scene accepts store waiting active ref with
  | kept same => exact same
  | started listed => exact absurd (List.mem_of_mem_take listed) outside
  | given listed => exact absurd (List.mem_of_mem_drop listed) outside

/-! ## Counting stamps -/

namespace JobStore

/-- The jobs that were stamped between two moments, each as often as its handles were. -/
def stamped : JobStore → JobStore → List JobId :=
  changes fun _ before after =>
    if after.thief = before.thief ∧ after.stealingAttempts = before.stealingAttempts then none
    else some after.id

variable {earlier later next : JobStore} {job : JobId} {ref : JobRef} {before after : JobHandle}

theorem mem_stamped :
    job ∈ earlier.stamped later ↔ ∃ ref before after, earlier.get? ref = some before ∧
      later.get? ref = some after ∧ after.id = job ∧
      ¬ (after.thief = before.thief ∧ after.stealingAttempts = before.stealingAttempts) := by
  rw [stamped, changes, List.mem_filterMap]
  constructor
  · rintro ⟨ref, -, noted⟩
    split at noted
    · rename_i before after found there
      split at noted
      · cases noted
      · rename_i differs
        cases noted
        exact ⟨ref, before, after, found, there, rfl, differs⟩
    · cases noted
  · rintro ⟨ref, before, after, found, there, rfl, differs⟩
    refine ⟨ref, List.mem_range.2 (lt_next_of_get? found), ?_⟩
    simp only [found, there, if_neg differs]

/-- A job of which only one handle can have changed was stamped as often as this handle was. -/
theorem count_stamped (found : earlier.get? ref = some before)
    (there : later.get? ref = some after) (id : after.id = job)
    (others : ∀ other old new, other ≠ ref → earlier.get? other = some old →
      later.get? other = some new → new.id = job →
      new.thief = old.thief ∧ new.stealingAttempts = old.stealingAttempts) :
    (earlier.stamped later).count job =
      if after.thief = before.thief ∧ after.stealingAttempts = before.stealingAttempts then 0
      else 1 := by
  split
  · rename_i same
    refine List.count_eq_zero.2 fun member => ?_
    obtain ⟨other, old, new, known, now, equal, differs⟩ := mem_stamped.1 member
    by_cases own : other = ref
    · subst own
      rw [found, Option.some.injEq] at known
      rw [there, Option.some.injEq] at now
      exact differs (known ▸ now ▸ same)
    · exact differs (others other old new own known now equal)
  · rename_i differs
    rw [stamped, changes, List.count, List.countP_filterMap]
    refine (List.countP_congr (q := (· == ref)) fun other _ => ?_).trans
      (List.nodup_range.count.trans (if_pos (List.mem_range.2 (lt_next_of_get? found))))
    by_cases own : other = ref
    · subst own
      simp [found, there, if_neg differs, id]
    · simp only [own, beq_iff_eq, iff_false, Bool.not_eq_true]
      split
      · rename_i old new known now
        split
        · rfl
        · rename_i changed
          refine Bool.eq_false_iff.2 fun equal => changed ?_
          exact others other old new own known now (by simpa using equal)
      · rfl

theorem stamped_congr {earlier later next : JobStore}
    (same : ∀ ref before, earlier.get? ref = some before → next.get? ref = later.get? ref) :
    earlier.stamped next = earlier.stamped later := by
  refine List.filterMap_congr fun ref _ => ?_
  cases found : earlier.get? ref with
  | none => rfl
  | some before => simp only [same ref before found]

theorem stamped_self (store : JobStore) : store.stamped store = [] := by
  refine List.eq_nil_iff_forall_not_mem.2 fun job member => ?_
  obtain ⟨ref, before, after, found, there, -, differs⟩ := mem_stamped.1 member
  rw [found, Option.some.injEq] at there
  exact differs (there ▸ ⟨rfl, rfl⟩)

end JobStore

/-! ## Stamps of a pass over a queue -/

section Pass

variable {owner : Owners} {leaving : List QueuedJob} {starting : List JobRef} {queue : JobQueue}
  {store : JobStore} {executions : List Execution} {job : JobId} {ref : JobRef}

/-- A pass stamps only waiting jobs. -/
theorem Resolver.waits_of_stamp (resolver : Resolver) (scene : PassScene)
    (accepts : NodeId → Bool) (active : Nat)
    (stocked : Stocked owner leaving starting queue store executions) {before after : JobHandle}
    (found : store.get? ref = some before)
    (there : (resolver.collide scene accepts store (queue.waiting.map QueuedJob.ref)
      active).store.get? ref = some after)
    (differs : ¬ (after.thief = before.thief ∧
      after.stealingAttempts = before.stealingAttempts)) : ⟨after.id, ref⟩ ∈ queue.waiting := by
  have told : ref ∈ queue.waiting.map QueuedJob.ref := by
    by_contra outside
    rw [resolver.get?_collide_of_not_mem scene accepts store active outside, found,
      Option.some.injEq] at there
    exact differs (there ▸ ⟨rfl, rfl⟩)
  obtain ⟨queued, waits, rfl⟩ := List.mem_map.1 told
  obtain ⟨handle, known, same, -⟩ := (stocked.extend
    (resolver.extends_collide scene accepts store _ active)).waits queued waits
  rw [there, Option.some.injEq] at known
  rw [known, same]
  exact waits

/-- A job in the queue says after a pass that it was stolen more often by the stamps of the
pass. Only a job that was not stolen too often is stamped. -/
theorem Resolver.attempts_collide (resolver : Resolver) (scene : PassScene)
    (accepts : NodeId → Bool) (active : Nat)
    (stocked : Stocked owner leaving starting queue store executions)
    (lists : queue.Lists job ref) {before : JobHandle} (found : store.get? ref = some before)
    (id : before.id = job) :
    let later := (resolver.collide scene accepts store (queue.waiting.map QueuedJob.ref)
      active).store
    ∃ after, later.get? ref = some after ∧ after.id = job ∧
      after.stealingAttempts.toNat =
        before.stealingAttempts.toNat + (store.stamped later).count job ∧
      ((store.stamped later).count job = 0 ∨
        after.stealingAttempts ≤ scene.config.maxStealing) := by
  intro later
  have others : ∀ other old new, other ≠ ref → store.get? other = some old →
      later.get? other = some new → new.id = job →
        new.thief = old.thief ∧ new.stealingAttempts = old.stealingAttempts := by
    intro other old new differs known now same
    by_contra changed
    have waits := resolver.waits_of_stamp scene accepts active stocked known now changed
    exact differs (JobQueue.Lists.unique stocked.distinct (same ▸ .inl waits) lists)
  cases resolver.fate_collide scene accepts store (queue.waiting.map QueuedJob.ref) active ref with
  | untouched same =>
      have there : later.get? ref = some before := same.trans found
      have count := JobStore.count_stamped found there id others
      rw [if_pos ⟨rfl, rfl⟩] at count
      exact ⟨before, there, id, by rw [count, Nat.add_zero], .inl count⟩
  | started handle known there =>
      rw [found, Option.some.injEq] at known
      subst known
      have count := JobStore.count_stamped found there id others
      rw [if_pos ⟨rfl, rfl⟩] at count
      exact ⟨_, there, id, by rw [count, Nat.add_zero], .inl count⟩
  | given handle thief known suits there =>
      rw [found, Option.some.injEq] at known
      subst known
      have fresh : before.stealingAttempts.toNat < scene.config.maxStealing.toNat := suits.fresh
      have bound : scene.config.maxStealing.toNat < 2 ^ 32 := scene.config.maxStealing.toNat_lt
      have grows : (before.stealingAttempts + 1).toNat = before.stealingAttempts.toNat + 1 := by
        rw [UInt32.toNat_add, UInt32.toNat_one, Nat.mod_eq_of_lt (by omega)]
      have count := JobStore.count_stamped found there id others
      rw [if_neg fun same => by
        have equal : before.stealingAttempts + 1 = before.stealingAttempts := same.2
        rw [equal] at grows
        omega] at count
      refine ⟨_, there, id, by rw [count]; exact grows, .inr (UInt32.le_iff_toNat_le.2 ?_)⟩
      have most : (before.stealingAttempts + 1).toNat ≤ scene.config.maxStealing.toNat := by omega
      exact most

end Pass

end JobGrid
