import Mathlib.Algebra.BigOperators.Ring.List
import Mathlib.Algebra.Order.BigOperators.Group.List
import Mathlib.Algebra.Order.Field.Rat
import Mathlib.Tactic.FieldSimp
import Mathlib.Tactic.Linarith
import Mathlib.Tactic.Positivity
import Mathlib.Tactic.Ring
import JobGrid.Proofs.Balance.Layouts

/-!
# Slices in exact numbers

Sums and quotients are exact in this module. A load that is missing is replaced by the average
of the others, which grows with each replacement. All loads are positive then, so no quotient
has a divisor of zero, the bounds of the slices increase, and the last of them is one. The width
of a slice is the share of its node in the inverse loads.
-/

namespace JobGrid

namespace Slices

/-! ## Equations over exact numbers -/

theorem sum_eq (numbers : List ℚ) : Slices.sum numbers = numbers.sum :=
  List.sum_eq_foldl.symm

/-- The load that stands in for one that is missing, by the total at that time. -/
def average (count : Nat) (total : ℚ) : ℚ := if count = 0 then 1 else total / count

theorem average_eq (count : Nat) (total : ℚ) :
    (if 0 < count then total / LoadNumber.ofCount count else 1) = average count total := by
  rw [average]
  cases count <;> rfl

theorem substitute_zero (count : Nat) (total : ℚ) (rest : List ℚ) :
    substitute count total (0 :: rest) =
      let later := substitute count (total + average count total) rest
      (average count total :: later.1, later.2) := by
  simp only [substitute, average_eq]
  rfl

theorem substitute_of_ne {load : ℚ} (present : load ≠ 0) (count : Nat) (total : ℚ)
    (rest : List ℚ) :
    substitute count total (load :: rest) =
      (load :: (substitute count total rest).1, (substitute count total rest).2) := by
  simp only [substitute]
  exact if_neg fun same => present (of_decide_eq_true same)

@[simp] theorem accumulate_nil (total start : ℚ) : accumulate total start [] = [] := rfl

@[simp] theorem accumulate_cons (total start weight : ℚ) (rest : List ℚ) :
    accumulate total start (weight :: rest) =
      (start + weight / total) :: accumulate total (start + weight / total) rest := rfl

@[simp] theorem widths_nil (start : ℚ) : widths start [] = [] := rfl

@[simp] theorem widths_cons (start bound : ℚ) (rest : List ℚ) :
    widths start (bound :: rest) = (bound - start) :: widths bound rest := rfl

/-! ## Missing loads -/

/-- The load that stands in for a missing one after so many others were replaced. -/
def standIn (count : Nat) (total : ℚ) (replaced : Nat) : ℚ :=
  if count = 0 then 1 else total * (1 + 1 / count) ^ replaced / count

theorem standIn_succ (count : Nat) (total : ℚ) (replaced : Nat) :
    standIn count total (replaced + 1) = standIn count (total + average count total) replaced := by
  by_cases none : count = 0
  · simp only [standIn, if_pos none]
  · simp only [standIn, average, if_neg none, pow_succ]
    ring

/-- Each load is kept, or it is missing and replaced by how many others were replaced before. -/
theorem getElem?_substitute (count : Nat) (total : ℚ) (loads : List ℚ) (index : Nat) :
    (substitute count total loads).1[index]? = loads[index]?.map fun load =>
      if load = 0 then standIn count total ((loads.take index).count 0) else load := by
  induction loads generalizing total index with
  | nil => simp [substitute]
  | cons load rest ih =>
      by_cases missing : load = 0
      · subst missing
        rw [substitute_zero]
        cases index with
        | zero => simp [standIn, average]
        | succ before => simp [ih, standIn_succ]
      · rw [substitute_of_ne missing]
        cases index with
        | zero => simp [missing]
        | succ before => simp [ih, missing]

/-- What is added to the loads is added to the total. -/
theorem total_substitute (count : Nat) (total : ℚ) (loads : List ℚ) :
    (substitute count total loads).2 + loads.sum =
      total + (substitute count total loads).1.sum := by
  induction loads generalizing total with
  | nil => simp [substitute]
  | cons load rest ih =>
      by_cases missing : load = 0
      · subst missing
        rw [substitute_zero]
        simp only [List.sum_cons, zero_add]
        rw [ih]
        ring
      · rw [substitute_of_ne missing]
        simp only [List.sum_cons]
        linarith [ih total]

theorem pos_substitute {count : Nat} {total : ℚ} {loads : List ℚ}
    (legal : ∀ load ∈ loads, 0 ≤ load) (positive : count ≠ 0 → 0 < total) :
    ∀ load ∈ (substitute count total loads).1, 0 < load := by
  have averages : ∀ {total : ℚ}, (count ≠ 0 → 0 < total) → 0 < average count total := by
    intro total positive
    rw [average]
    split
    · exact one_pos
    · rename_i some
      exact div_pos (positive some) (Nat.cast_pos.2 (Nat.pos_of_ne_zero some))
  induction loads generalizing total with
  | nil => simp [substitute]
  | cons load rest ih =>
      rw [List.forall_mem_cons] at legal
      by_cases missing : load = 0
      · subst missing
        rw [substitute_zero, List.forall_mem_cons]
        exact ⟨averages positive, ih legal.2 fun some =>
          add_pos (positive some) (averages positive)⟩
      · rw [substitute_of_ne missing, List.forall_mem_cons]
        exact ⟨lt_of_le_of_ne legal.1 (Ne.symm missing), ih legal.2 positive⟩

/-- The loads with stand-ins for those that are missing. -/
def levelled (loads : List ℚ) : List ℚ := (substituted loads).1

theorem substituted_eq (loads : List ℚ) :
    substituted loads = substitute (loads.countP (0 < ·)) loads.sum loads := by
  rw [substituted, sum_eq, List.countP_eq_length_filter]

theorem ne_nil_levelled {loads : List ℚ} (filled : loads ≠ []) : levelled loads ≠ [] := by
  rw [← List.length_pos_iff] at filled ⊢
  rwa [levelled, substituted, length_substitute]

/-- The final total is the sum of all loads with the stand-ins. -/
theorem total_eq_sum_levelled (loads : List ℚ) :
    (substituted loads).2 = (levelled loads).sum := by
  have total := total_substitute (loads.countP (0 < ·)) loads.sum loads
  rw [levelled, substituted_eq]
  linarith

section Legal

variable {loads : List ℚ} (legal : ∀ load ∈ loads, 0 ≤ load)
include legal

theorem sum_pos_of_count (some : loads.countP (0 < ·) ≠ 0) : 0 < loads.sum := by
  obtain ⟨load, inside, positive⟩ := List.countP_pos_iff.1 (Nat.pos_of_ne_zero some)
  exact lt_of_lt_of_le (of_decide_eq_true positive) (List.single_le_sum legal load inside)

theorem levelled_pos : ∀ load ∈ levelled loads, 0 < load := by
  rw [levelled, substituted_eq]
  exact pos_substitute legal (sum_pos_of_count legal)

theorem total_pos (filled : loads ≠ []) : 0 < (substituted loads).2 := by
  rw [total_eq_sum_levelled]
  exact List.sum_pos _ (levelled_pos legal) (ne_nil_levelled filled)

end Legal

/-! ## Bounds and shares -/

theorem weights_eq (loads : List ℚ) :
    weights loads = (levelled loads).map fun load => (substituted loads).2 / load := rfl

/-- The widths of slices that were laid side by side are the shares that they were made from. -/
theorem widths_accumulate (total start : ℚ) (weights : List ℚ) :
    widths start (accumulate total start weights) = weights.map (· / total) := by
  induction weights generalizing start with
  | nil => rfl
  | cons weight rest ih => simp [ih]

/-- Slices that were laid side by side end where all shares together end. -/
theorem getLast?_accumulate (total start : ℚ) {weights : List ℚ} (filled : weights ≠ []) :
    (accumulate total start weights).getLast? = some (start + weights.sum / total) := by
  induction weights generalizing start with
  | nil => exact absurd rfl filled
  | cons weight rest ih =>
      rw [accumulate_cons, List.sum_cons]
      cases rest with
      | nil => simp
      | cons next more =>
          rw [accumulate_cons, List.getLast?_cons_cons, ← accumulate_cons, ih _ (by simp)]
          exact congrArg some (by ring)

theorem pairwise_accumulate {total : ℚ} (positive : 0 < total) {weights : List ℚ}
    (wide : ∀ weight ∈ weights, 0 < weight) (start : ℚ) :
    (start :: accumulate total start weights).Pairwise (· < ·) := by
  induction weights generalizing start with
  | nil => simp
  | cons weight rest ih =>
      rw [List.forall_mem_cons] at wide
      have further : start < start + weight / total :=
        lt_add_of_pos_right start (div_pos wide.1 positive)
      have later := ih wide.2 (start + weight / total)
      rw [accumulate_cons, List.pairwise_cons]
      refine ⟨?_, later⟩
      rw [List.forall_mem_cons]
      exact ⟨further, fun bound inside => further.trans (List.rel_of_pairwise_cons later inside)⟩

/-- The last bound is left alone where it is one. -/
theorem close_eq {bounds : List ℚ} (ends : bounds.getLast? = some 1) : close bounds = bounds := by
  induction bounds with
  | nil => rfl
  | cons bound rest ih =>
      cases rest with
      | nil =>
          obtain rfl : bound = 1 := by simpa using ends
          rfl
      | cons next more =>
          rw [List.getLast?_cons_cons] at ends
          exact congrArg (bound :: ·) (ih ends)

section Laid

variable {loads : List ℚ} (filled : loads ≠ []) (legal : ∀ load ∈ loads, 0 ≤ load)
include filled legal

theorem weights_pos : ∀ weight ∈ weights loads, 0 < weight := by
  rw [weights_eq, List.forall_mem_map]
  exact fun load inside => div_pos (total_pos legal filled) (levelled_pos legal load inside)

theorem sum_weights_pos : 0 < (weights loads).sum := by
  refine List.sum_pos _ (weights_pos filled legal) ?_
  rw [weights_eq, ne_eq, List.map_eq_nil_iff]
  exact ne_nil_levelled filled

/-- The last bound is one, even before it is put there. -/
theorem getLast?_computed : (computed loads).getLast? = some 1 := by
  have positive := sum_weights_pos filled legal
  have some : weights loads ≠ [] := by
    intro none
    rw [none] at positive
    exact lt_irrefl _ positive
  rw [computed, sum_eq, getLast?_accumulate _ _ some, zero_add, div_self positive.ne']

theorem bounds_eq : bounds loads = computed loads := close_eq (getLast?_computed filled legal)

theorem pairwise_bounds : (0 :: bounds loads).Pairwise (· < ·) := by
  rw [bounds_eq filled legal, computed, sum_eq]
  exact pairwise_accumulate (sum_weights_pos filled legal) (weights_pos filled legal) 0

end Laid

/-- The shares of nodes: how much of the inverse loads is theirs. -/
def shares (loads : List ℚ) : List ℚ :=
  let levelled := levelled loads
  levelled.map fun load => 1 / load / (levelled.map fun load => 1 / load).sum

/-- Slices are as wide as the shares of their nodes. -/
theorem widths_bounds {loads : List ℚ} (filled : loads ≠ []) (legal : ∀ load ∈ loads, 0 ≤ load) :
    widths 0 (bounds loads) = shares loads := by
  have total := total_pos legal filled
  have inverse : (weights loads).sum =
      (substituted loads).2 * ((levelled loads).map fun load => 1 / load).sum := by
    rw [weights_eq, ← List.sum_map_mul_left]
    simp only [mul_one_div]
  rw [bounds_eq filled legal, computed, sum_eq, widths_accumulate, inverse, weights_eq,
    List.map_map, shares]
  refine List.map_congr_left fun load inside => ?_
  have positive := levelled_pos legal load inside
  simp only [Function.comp_apply]
  field_simp

end Slices

end JobGrid
