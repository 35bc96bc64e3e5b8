import Mathlib.MeasureTheory.Measure.Lebesgue.Basic
import JobGrid.Proofs.Balance.Slices

/-!
# Draws from slices

The draws from the interval from zero to one that pick a node are those above the bound of the
node before it, up to its own bound. They take up as much of the interval as the share of the
node. Draws are real numbers, and bounds read as real numbers are the same bounds. Read as
numbers that notice a division by zero they are the same, too, so that no such division occurs.
-/

namespace JobGrid

/-! ## Other numbers -/

/-- An exact number, or what a division by zero gives. -/
inductive Checked where
  | exact (value : ℚ)
  | undefined
  deriving DecidableEq

namespace Checked

/-- Combines two numbers if both are defined. -/
def combine (operation : ℚ → ℚ → ℚ) : Checked → Checked → Checked
  | exact left, exact right => exact (operation left right)
  | _, _ => undefined

def divide : Checked → Checked → Checked
  | exact left, exact right => if right = 0 then undefined else exact (left / right)
  | _, _ => undefined

def isLess : Checked → Checked → Bool
  | exact left, exact right => left < right
  | _, _ => false

instance : LoadNumber Checked where
  zero := exact 0
  one := exact 1
  add := combine (· + ·)
  sub := combine (· - ·)
  div := divide
  lt left right := isLess left right = true
  beq left right := left = right
  ofCount count := exact count
  decideLess _ _ := inferInstanceAs (Decidable (_ = true))

end Checked

noncomputable instance : LoadNumber ℝ where
  zero := 0
  one := 1
  ofCount count := count
  decideLess := inferInstance

namespace Slices

/-- The index of a slice in terms of the bounds below a draw. -/
theorem locate_eq {α : Type} [LoadNumber α] (bounds : List α) (draw : α) :
    locate bounds draw =
      min (bisect (fun index => bounds[index]?.any fun bound => bound < draw) 0 bounds.length)
        (bounds.length - 1) := by
  rw [locate]
  congr

/-- Exact numbers are read as other ones for which sums, comparisons and quotients are the same,
except that there may be no quotient by zero. -/
structure Reads {β : Type} [LoadNumber β] (read : ℚ → β) : Prop where
  zero : read 0 = 0
  one : read 1 = 1
  add : ∀ left right, read (left + right) = read left + read right
  div : ∀ left {right}, right ≠ 0 → read (left / right) = read left / read right
  less : ∀ left right, read left < read right ↔ left < right
  same : ∀ left right, (read left == read right) = (left == right)
  count : ∀ count : Nat, read count = LoadNumber.ofCount count

theorem reads_checked : Reads Checked.exact where
  zero := rfl
  one := rfl
  add _ _ := rfl
  div left right := fun some => (if_neg some).symm
  less left right := decide_eq_true_iff
  same left right := by
    exact decide_eq_decide.2 (Iff.of_eq (Checked.exact.injEq left right))
  count _ := rfl

theorem reads_real : Reads ((↑) : ℚ → ℝ) where
  zero := Rat.cast_zero
  one := Rat.cast_one
  add := Rat.cast_add
  div left right _ := Rat.cast_div left right
  less _ _ := Rat.cast_lt
  same _ _ := decide_eq_decide.2 Rat.cast_inj
  count := Rat.cast_natCast

namespace Reads

variable {β : Type} [LoadNumber β] {read : ℚ → β} (reads : Reads read)
include reads

theorem sum (numbers : List ℚ) : Slices.sum (numbers.map read) = read (Slices.sum numbers) := by
  have general : ∀ start, (numbers.map read).foldl (· + ·) (read start) =
      read (numbers.foldl (· + ·) start) := by
    induction numbers with
    | nil => exact fun _ => rfl
    | cons number rest ih =>
        intro start
        rw [List.map_cons, List.foldl_cons, List.foldl_cons, ← reads.add]
        exact ih _
  rw [Slices.sum, ← reads.zero]
  exact general 0

theorem average (count : Nat) (total : ℚ) :
    (if 0 < count then read total / LoadNumber.ofCount count else 1) =
      read (Slices.average count total) := by
  rw [Slices.average]
  cases count with
  | zero => exact reads.one.symm
  | succ less => rw [if_pos (Nat.succ_pos less), if_neg (Nat.succ_ne_zero less), ← reads.count,
      reads.div total (Nat.cast_ne_zero.2 (Nat.succ_ne_zero less))]

theorem substitute (count : Nat) (total : ℚ) (loads : List ℚ) :
    Slices.substitute count (read total) (loads.map read) =
      ((Slices.substitute count total loads).1.map read,
        read (Slices.substitute count total loads).2) := by
  induction loads generalizing total with
  | nil => rfl
  | cons load rest ih =>
      simp only [List.map_cons, Slices.substitute, ← reads.zero, reads.same, reads.average,
        average_eq, ← reads.add, ih]
      split <;> rfl

theorem positive_count (loads : List ℚ) :
    ((loads.map read).filter fun load => 0 < load).length =
      (loads.filter fun load => 0 < load).length := by
  simp only [List.filter_map, List.length_map, ← reads.zero, Function.comp_def, reads.less]

theorem substituted (loads : List ℚ) :
    Slices.substituted (loads.map read) =
      ((Slices.substituted loads).1.map read, read (Slices.substituted loads).2) := by
  rw [Slices.substituted, reads.positive_count, reads.sum, reads.substitute, Slices.substituted]

theorem weights {loads : List ℚ} (legal : ∀ load ∈ loads, 0 ≤ load) :
    Slices.weights (loads.map read) = (Slices.weights loads).map read := by
  simp only [Slices.weights, reads.substituted, List.map_map]
  refine List.map_congr_left fun load inside => ?_
  exact (reads.div _ (levelled_pos legal load inside).ne').symm

theorem accumulate {total : ℚ} (some : total ≠ 0) (start : ℚ) (weights : List ℚ) :
    Slices.accumulate (read total) (read start) (weights.map read) =
      (Slices.accumulate total start weights).map read := by
  induction weights generalizing start with
  | nil => rfl
  | cons weight rest ih =>
      simp only [List.map_cons, Slices.accumulate, ← reads.div weight some, ← reads.add, ih]

theorem close (bounds : List ℚ) :
    Slices.close (bounds.map read) = (Slices.close bounds).map read := by
  induction bounds with
  | nil => rfl
  | cons bound rest ih =>
      cases rest with
      | nil => exact congrArg (fun one => [one]) reads.one.symm
      | cons next more => exact congrArg (read bound :: ·) ih

/-- The bounds of slices are the same, however the loads are read. -/
theorem bounds {loads : List ℚ} (filled : loads ≠ []) (legal : ∀ load ∈ loads, 0 ≤ load) :
    Slices.bounds (loads.map read) = (Slices.bounds loads).map read := by
  have some : Slices.sum (Slices.weights loads) ≠ 0 := by
    rw [sum_eq]
    exact (sum_weights_pos filled legal).ne'
  rw [Slices.bounds, Slices.computed, reads.weights legal, reads.sum, ← reads.zero,
    reads.accumulate some, reads.close, Slices.bounds, Slices.computed]

/-- A draw falls into the same slice, however the bounds are read. -/
theorem locate (bounds : List ℚ) (draw : ℚ) :
    Slices.locate (bounds.map read) (read draw) = Slices.locate bounds draw := by
  simp only [locate_eq, List.getElem?_map, Option.any_map, reads.less,
    List.length_map]

end Reads

/-! ## The slice of a draw -/

/-- Halving finds the index where a test fails first, if it holds up to some index and fails from
there on. -/
theorem bisect_spec {holds : Nat → Bool} (falls : ∀ {low high}, low ≤ high → holds high → holds low)
    (base : Nat) {count : Nat} (some : 0 < count) :
    base ≤ bisect holds base count ∧ bisect holds base count ≤ base + count ∧
      ∀ index, base ≤ index → index < base + count →
        (index < bisect holds base count ↔ holds index = true) := by
  fun_induction bisect holds base count with
  | case1 base count small first =>
      refine ⟨by omega, by omega, fun index above below => ?_⟩
      obtain rfl : index = base := by omega
      exact ⟨fun _ => first, fun _ => Nat.lt_succ_self _⟩
  | case2 base count small first =>
      refine ⟨by omega, by omega, fun index above below => ?_⟩
      obtain rfl : index = base := by omega
      exact ⟨fun before => absurd before (Nat.lt_irrefl _), fun holds => absurd holds first⟩
  | case3 base count large half ih =>
      obtain ⟨above, below, decides⟩ := ih (by omega)
      cases middle : holds (base + half) with
      | true =>
          simp only [middle, if_true, dite_true] at above below decides ⊢
          refine ⟨by omega, by omega, fun index after before => ?_⟩
          by_cases early : index < base + half
          · exact ⟨fun _ => falls early.le middle, fun _ => by omega⟩
          · exact decides index (by omega) (by omega)
      | false =>
          simp only [middle, Bool.false_eq_true, if_false, dite_false] at above below decides ⊢
          refine ⟨above, by omega, fun index after before => ?_⟩
          by_cases early : index < base + (count - half)
          · exact decides index after early
          · have late : base + half ≤ index := by omega
            have fails : ¬ holds index = true := fun first => by
              rw [falls late first] at middle
              cases middle
            exact ⟨fun found => by omega, fun first => absurd first fails⟩

section Drawn

variable {bounds : List ℝ} {draw : ℝ}

theorem le_of_getElem? {numbers : List ℝ} (increasing : numbers.Pairwise (· < ·))
    {first second : Nat} (ordered : first ≤ second) {low high : ℝ}
    (lower : numbers[first]? = some low) (upper : numbers[second]? = some high) : low ≤ high := by
  obtain ⟨-, rfl⟩ := List.getElem?_eq_some_iff.1 lower
  obtain ⟨-, rfl⟩ := List.getElem?_eq_some_iff.1 upper
  rcases ordered.eq_or_lt with rfl | earlier
  · exact le_rfl
  · exact (List.pairwise_iff_getElem.1 increasing _ _ _ _ earlier).le

/-- The slices before the one of a draw are those whose bounds are below the draw. -/
theorem lt_locate_iff (increasing : bounds.Pairwise (· < ·)) (ends : bounds.getLast? = some 1)
    (below : draw < 1) {index : Nat} {bound : ℝ} (found : bounds[index]? = some bound) :
    index < locate bounds draw ↔ bound < draw := by
  let holds (index : Nat) : Bool := bounds[index]?.any fun bound => bound < draw
  have holds_iff : ∀ {index bound}, bounds[index]? = some bound → (holds index ↔ bound < draw) := by
    intro index bound found
    simp [holds, found]
  have falls : ∀ {low high}, low ≤ high → holds high → holds low := by
    intro low high ordered before
    cases upper : bounds[high]? with
    | none => simp [holds, upper] at before
    | some bound =>
        have inRange := (List.getElem?_eq_some_iff.1 upper).1
        have lower := List.getElem?_eq_getElem (ordered.trans_lt inRange)
        exact (holds_iff lower).2
          ((le_of_getElem? increasing ordered lower upper).trans_lt ((holds_iff upper).1 before))
  have inside : ∀ {index bound}, bounds[index]? = some bound → index < bounds.length := fun found =>
    (List.getElem?_eq_some_iff.1 found).1
  rw [List.getLast?_eq_getElem?] at ends
  have last := inside ends
  obtain ⟨-, -, decides⟩ := bisect_spec falls 0 (Nat.zero_lt_of_lt last)
  have within : bisect holds 0 bounds.length ≤ bounds.length - 1 := by
    have fails : ¬ holds (bounds.length - 1) := by
      rw [holds_iff ends]
      exact below.le.not_gt
    rw [← decides _ (Nat.zero_le _) (by omega)] at fails
    exact Nat.le_of_not_lt fails
  rw [locate_eq, Nat.min_eq_left within, ← holds_iff found]
  exact decides index (Nat.zero_le _) (by rw [Nat.zero_add]; exact inside found)

/-- A draw falls into a slice if it is above the bound before and not above that of the slice.
Nothing is below the first slice. -/
theorem locate_eq_iff (increasing : (0 :: bounds).Pairwise (· < ·))
    (ends : bounds.getLast? = some 1) (above : 0 ≤ draw) (below : draw < 1) {index : Nat}
    {low high : ℝ} (lower : (0 :: bounds)[index]? = some low)
    (upper : bounds[index]? = some high) :
    locate bounds draw = index ↔ (low < draw ∨ draw = 0 ∧ index = 0) ∧ draw ≤ high := by
  have located : ∀ {index bound}, bounds[index]? = some bound →
      (index < locate bounds draw ↔ bound < draw) := fun found =>
    lt_locate_iff (List.pairwise_cons.1 increasing).2 ends below found
  have notAbove : locate bounds draw ≤ index ↔ draw ≤ high := by
    rw [← not_lt, located upper, not_lt]
  have notBelow : index ≤ locate bounds draw ↔ low < draw ∨ draw = 0 ∧ index = 0 := by
    cases index with
    | zero =>
        obtain rfl : 0 = low := Option.some.inj lower
        exact ⟨fun _ => above.lt_or_eq.imp_right fun zero => ⟨zero.symm, rfl⟩,
          fun _ => Nat.zero_le _⟩
    | succ before =>
        rw [Nat.succ_le_iff, located lower]
        exact ⟨.inl, fun either => either.elim id fun first => absurd first.2 (Nat.succ_ne_zero _)⟩
  rw [← notAbove, ← notBelow, and_comm]
  exact Nat.le_antisymm_iff

end Drawn

open MeasureTheory in
/-- The draws that fall into a slice take up as much room as the slice. -/
theorem volume_located {bounds : List ℝ} (increasing : (0 :: bounds).Pairwise (· < ·))
    (ends : bounds.getLast? = some 1) {index : Nat} {low high : ℝ}
    (lower : (0 :: bounds)[index]? = some low) (upper : bounds[index]? = some high) :
    volume {draw : ℝ | 0 ≤ draw ∧ draw < 1 ∧ locate bounds draw = index} =
      ENNReal.ofReal (high - low) := by
  have positive : 0 ≤ low := le_of_getElem? increasing (Nat.zero_le index) rfl lower
  have atMost : high ≤ 1 := by
    rw [List.getLast?_eq_getElem?] at ends
    have inRange := (List.getElem?_eq_some_iff.1 upper).1
    exact le_of_getElem? (List.pairwise_cons.1 increasing).2 (by omega) upper ends
  apply le_antisymm
  · rw [← Real.volume_Icc]
    refine measure_mono ?_
    rintro draw ⟨above, below, found⟩
    obtain ⟨enters, within⟩ := (locate_eq_iff increasing ends above below lower upper).1 found
    refine ⟨?_, within⟩
    rcases enters with inner | ⟨rfl, rfl⟩
    · exact inner.le
    · exact (Option.some.inj lower).ge
  · rw [← Real.volume_Ioo]
    refine measure_mono ?_
    rintro draw ⟨enters, within⟩
    have above : 0 ≤ draw := positive.trans enters.le
    have below : draw < 1 := within.trans_le atMost
    exact ⟨above, below,
      (locate_eq_iff increasing ends above below lower upper).2 ⟨.inl enters, within.le⟩⟩

/-- The width of a slice is the distance of its bounds. -/
theorem getElem?_widths {start : ℚ} {bounds : List ℚ} {index : Nat} {width : ℚ}
    (found : (widths start bounds)[index]? = some width) :
    ∃ low high, (start :: bounds)[index]? = some low ∧ bounds[index]? = some high ∧
      width = high - low := by
  induction bounds generalizing start index with
  | nil => simp at found
  | cons bound rest ih =>
      cases index with
      | zero => exact ⟨start, bound, rfl, rfl, (Option.some.inj found).symm⟩
      | succ before => exact ih found

/-- Nodes with loads that are not negative are laid out in exact numbers. Each missing load gets a
stand-in, which depends on the sum of the loads and on how many others were replaced before. No
number is divided by zero. The bounds increase, and the last is one before it is put there. The
widths are the shares of the nodes in the inverse loads. A draw picks the node whose slice it falls
into, and the draws that pick a node make up its share of all draws. -/
theorem draws_exact {loads : List ℚ} (filled : loads ≠ []) (legal : ∀ load ∈ loads, 0 ≤ load) :
    let count := loads.countP (0 < ·)
    let edges : List ℝ := (bounds loads).map (↑)
    (∀ index, (levelled loads)[index]? = loads[index]?.map fun load =>
        if load = 0 then standIn count loads.sum ((loads.take index).count 0) else load) ∧
      bounds (loads.map Checked.exact) = (bounds loads).map Checked.exact ∧
      (0 :: bounds loads).Pairwise (· < ·) ∧
      (computed loads).getLast? = some 1 ∧ bounds loads = computed loads ∧
      widths 0 (bounds loads) = shares loads ∧
      (∀ draw : ℚ, locate (bounds loads) draw = locate edges draw) ∧
      (∀ draw : ℝ, 0 ≤ draw → draw < 1 → ∀ index low high,
        (0 :: edges)[index]? = some low → edges[index]? = some high →
          (locate edges draw = index ↔ (low < draw ∨ draw = 0 ∧ index = 0) ∧ draw ≤ high)) ∧
      ∀ index (share : ℚ), (shares loads)[index]? = some share →
        MeasureTheory.volume {draw : ℝ | 0 ≤ draw ∧ draw < 1 ∧ locate edges draw = index} =
          ENNReal.ofReal share := by
  intro count edges
  have first : (0 :: edges) = (0 :: bounds loads).map ((↑) : ℚ → ℝ) := by
    rw [List.map_cons, Rat.cast_zero]
  have increasing : (0 :: edges).Pairwise (· < ·) := by
    rw [first]
    exact (pairwise_bounds filled legal).map _ fun _ _ => Rat.cast_lt.2
  have ends : edges.getLast? = some 1 := by
    rw [List.getLast?_map, bounds_eq filled legal, getLast?_computed filled legal]
    exact congrArg some Rat.cast_one
  refine ⟨fun index => ?_, reads_checked.bounds filled legal, pairwise_bounds filled legal,
    getLast?_computed filled legal, bounds_eq filled legal, widths_bounds filled legal,
    fun draw => (reads_real.locate (bounds loads) draw).symm, ?_, ?_⟩
  · rw [levelled, substituted_eq]
    exact getElem?_substitute count loads.sum loads index
  · intro draw above below index low high lower upper
    exact locate_eq_iff increasing ends above below lower upper
  · intro index share found
    rw [← widths_bounds filled legal] at found
    obtain ⟨low, high, lower, upper, rfl⟩ := getElem?_widths found
    rw [Rat.cast_sub]
    refine volume_located increasing ends ?_ ?_
    · rw [first, List.getElem?_map, lower, Option.map_some]
    · rw [List.getElem?_map, upper, Option.map_some]

/-- One of three loads is there. The others get that load, and then twice as much; the last node is
picked by a fifth of all draws. -/
theorem draws_exact_of_missing :
    let loads : List ℚ := [0, 2, 0]
    let edges : List ℝ := (bounds loads).map (↑)
    loads ≠ [] ∧ (∀ load ∈ loads, 0 ≤ load) ∧
      levelled loads = [2, 2, 4] ∧ bounds loads = [2 / 5, 4 / 5, 1] ∧
      bounds (loads.map Checked.exact) = (bounds loads).map Checked.exact ∧
      MeasureTheory.volume {draw : ℝ | 0 ≤ draw ∧ draw < 1 ∧ locate edges draw = 2} =
        ENNReal.ofReal ((1 / 5 : ℚ) : ℝ) := by
  intro loads edges
  have filled : loads ≠ [] := List.cons_ne_nil _ _
  have legal : ∀ load ∈ loads, 0 ≤ load := by decide +kernel
  obtain ⟨-, checked, -, -, -, -, -, -, volumes⟩ := draws_exact filled legal
  exact ⟨filled, legal, by decide +kernel, by decide +kernel, checked,
    volumes 2 (1 / 5) (by decide +kernel)⟩

end Slices

end JobGrid
