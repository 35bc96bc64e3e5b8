import JobGrid.Balance.Ring
import JobGrid.Proofs.Table
import Mathlib.Data.List.Nodup

/-!
# Places and owners on a ring

While nodes come and go, the places of a ring stay in ascending order, and a position is taken
by a node exactly if the node is said to own it. A hash belongs to the accepted node with the
first position clockwise from it.
-/

namespace JobGrid

namespace Ring

/-! ## Positions in ascending order -/

theorem mem_distinct {position : UInt32} {positions : List UInt32} :
    position ∈ distinct positions ↔ position ∈ positions := by
  fun_induction distinct positions with
  | case1 first rest ih => simp [ih]
  | case2 first second rest differs ih => simp [ih]
  | case3 short whole => rfl

theorem pairwise_distinct {positions : List UInt32} (ordered : positions.Pairwise (· ≤ ·)) :
    (distinct positions).Pairwise (· < ·) := by
  fun_induction distinct positions with
  | case1 first rest ih => exact ih ordered.tail
  | case2 first second rest differs ih =>
      refine List.pairwise_cons.2 ⟨?_, ih ordered.tail⟩
      intro position later
      have least : second ≤ position := by
        rcases List.mem_cons.1 (mem_distinct.1 later) with rfl | behind
        · exact UInt32.le_refl position
        · exact (List.pairwise_cons.1 ordered.tail).1 position behind
      have step : first < second :=
        UInt32.lt_of_le_of_ne (List.rel_of_pairwise_cons ordered List.mem_cons_self) differs
      exact UInt32.lt_of_lt_of_le step least
  | case3 short whole =>
      match short with
      | [] => exact .nil
      | [only] => exact List.pairwise_singleton _ _
      | first :: second :: rest => exact absurd rfl (whole first second rest)

theorem pairwise_sorted (positions : List UInt32) :
    (positions.mergeSort fun left right => left ≤ right).Pairwise (· ≤ ·) := by
  have ordered : (positions.mergeSort fun left right => left ≤ right).Pairwise fun left right =>
      decide (left ≤ right) = true := by
    refine List.pairwise_mergeSort ?_ ?_ positions
    · intro first second third
      simpa using UInt32.le_trans
    · intro left right
      simpa using UInt32.le_total left right
  exact ordered.imp of_decide_eq_true

theorem sublist_vacant (positions : List UInt32) (places : List Place) :
    (vacant positions places).Sublist positions := by
  fun_induction vacant positions places with
  | case1 places => exact .refl _
  | case2 position rest => exact .refl _
  | case3 position rest place places before ih => exact ih.cons_cons position
  | case4 rest place places before ih => exact ih.cons place.position
  | case5 position rest place places before free ih => exact ih

theorem mem_vacant {positions : List UInt32} {places : List Place}
    (ordered : positions.Pairwise (· < ·))
    (ascending : places.Pairwise fun left right => left.position < right.position)
    {position : UInt32} : position ∈ vacant positions places ↔
      position ∈ positions ∧ ∀ place ∈ places, place.position ≠ position := by
  fun_induction vacant positions places with
  | case1 places => simp
  | case2 first rest => simp
  | case3 first rest place places before ih =>
      -- All places are behind the first position, so it is free.
      have free : ∀ other ∈ place :: places, other.position ≠ first := by
        intro other member same
        rcases List.mem_cons.1 member with rfl | behind
        · exact UInt32.lt_irrefl _ (same ▸ before)
        · have further := (List.pairwise_cons.1 ascending).1 other behind
          exact UInt32.lt_irrefl _ (UInt32.lt_trans (same ▸ before) further)
      rw [List.mem_cons, List.mem_cons, ih ordered.tail ascending]
      constructor
      · rintro (rfl | ⟨later, untaken⟩)
        · exact ⟨.inl rfl, free⟩
        · exact ⟨.inr later, untaken⟩
      · rintro ⟨rfl | later, untaken⟩
        · exact .inl rfl
        · exact .inr ⟨later, untaken⟩
  | case4 rest place places before ih =>
      rw [ih ordered.tail ascending, List.mem_cons]
      constructor
      · rintro ⟨later, untaken⟩
        exact ⟨.inr later, untaken⟩
      · rintro ⟨rfl | later, untaken⟩
        · exact absurd rfl (untaken place List.mem_cons_self)
        · exact ⟨later, untaken⟩
  | case5 first rest place places before free ih =>
      -- The place is before all positions that are left.
      have passed : place.position < first :=
        UInt32.lt_of_le_of_ne (UInt32.not_lt.1 before) (Ne.symm free)
      rw [ih ordered ascending.tail, List.forall_mem_cons]
      refine and_congr_right fun member => ⟨fun untaken => ⟨?_, untaken⟩, And.right⟩
      rintro rfl
      rcases List.mem_cons.1 member with same | later
      · exact free same.symm
      · have further := (List.pairwise_cons.1 ordered).1 _ later
        exact UInt32.lt_irrefl _ (UInt32.lt_trans passed further)

/-- Places that are merged stay in ascending order, if no position is taken twice. -/
theorem pairwise_merge {places won : List Place}
    (ascending : places.Pairwise fun left right => left.position < right.position)
    (ordered : won.Pairwise fun left right => left.position < right.position)
    (apart : ∀ left ∈ places, ∀ right ∈ won, left.position ≠ right.position) :
    (places.merge won fun left right => left.position ≤ right.position).Pairwise
      fun left right => left.position < right.position := by
  have weak : (places.merge won fun left right => left.position ≤ right.position).Pairwise
      fun left right => decide (left.position ≤ right.position) = true := by
    refine List.pairwise_merge ?_ ?_ places won ?_ ?_
    · intro first second third
      simpa using UInt32.le_trans
    · intro left right
      simpa using UInt32.le_total left.position right.position
    · exact ascending.imp fun less => decide_eq_true (UInt32.le_of_lt less)
    · exact ordered.imp fun less => decide_eq_true (UInt32.le_of_lt less)
  have joined : (places ++ won).Pairwise fun left right => left.position ≠ right.position :=
    List.pairwise_append.2 ⟨ascending.imp UInt32.ne_of_lt, ordered.imp UInt32.ne_of_lt, apart⟩
  have merged : (places.merge won fun left right => left.position ≤ right.position).Pairwise
      fun left right => left.position ≠ right.position :=
    joined.perm (List.merge_perm_append _).symm fun differs => differs.symm
  exact (weak.and merged).imp fun both =>
    UInt32.lt_of_le_of_ne (of_decide_eq_true both.1) both.2

/-! ## The places of a ring -/

/-- The places of a ring are in ascending order, and they are the positions that the nodes on
the ring are said to own, each of them once. -/
structure Sound (ring : Ring) : Prop where
  ascending : ring.places.Pairwise fun left right => left.position < right.position
  owns : ∀ {place : Place}, place ∈ ring.places ↔
    ∃ won, ring.owned.get? place.owner = some won ∧ place.position ∈ won
  once : ∀ {node won}, ring.owned.get? node = some won → won.Pairwise (· < ·)

variable {ring : Ring} {node other : NodeId} {replicas : Nat} {place : Place}

theorem sound_empty (seed : String) (digest : Digest) : (empty seed digest).Sound where
  ascending := .nil
  owns := by simp [empty]
  once found := by cases found

theorem pairwise_winnable (ring : Ring) (node : NodeId) (replicas : Nat) :
    (ring.winnable node replicas).Pairwise (· < ·) :=
  (pairwise_distinct (pairwise_sorted _)).sublist (sublist_vacant _ _)

@[simp] theorem seed_add (ring : Ring) (node : NodeId) (replicas : Nat) :
    (ring.add node replicas).seed = ring.seed := by
  simp only [add]
  split
  · rfl
  · rfl

@[simp] theorem digest_add (ring : Ring) (node : NodeId) (replicas : Nat) :
    (ring.add node replicas).digest = ring.digest := by
  simp only [add]
  split
  · rfl
  · rfl

@[simp] theorem seed_remove (ring : Ring) (node : NodeId) :
    (ring.remove node).seed = ring.seed := by
  simp only [remove]
  split
  · rfl
  · rfl

@[simp] theorem digest_remove (ring : Ring) (node : NodeId) :
    (ring.remove node).digest = ring.digest := by
  simp only [remove]
  split
  · rfl
  · rfl

theorem get?_owned_add (absent : ring.contains node = false) :
    (ring.add node replicas).owned.get? other =
      if node = other then some (ring.winnable node replicas) else ring.owned.get? other := by
  have unknown : ring.owned.contains node = false := absent
  simp only [add, unknown, Bool.false_eq_true, if_false, Table.get?_insert]

theorem get?_owned_remove (ring : Ring) (node other : NodeId) :
    (ring.remove node).owned.get? other =
      if node = other then none else ring.owned.get? other := by
  cases found : ring.owned.get? node with
  | none =>
      simp only [remove, found]
      split
      · rename_i same
        rw [← same, found]
      · rfl
  | some won => simp only [remove, found, Table.get?_erase]

@[simp] theorem contains_add (ring : Ring) (node other : NodeId) (replicas : Nat) :
    (ring.add node replicas).contains other = (decide (node = other) || ring.contains other) := by
  cases present : ring.contains node with
  | true =>
      rw [add_of_contains present]
      by_cases same : node = other
      · simp [← same, present]
      · simp [same]
  | false =>
      simp only [contains, Table.contains, get?_owned_add present]
      by_cases same : node = other
      · simp [same]
      · simp [same]

@[simp] theorem contains_remove (ring : Ring) (node other : NodeId) :
    (ring.remove node).contains other = (decide (node ≠ other) && ring.contains other) := by
  simp only [contains, Table.contains, get?_owned_remove]
  by_cases same : node = other
  · simp [same]
  · simp [same]

theorem mem_places_add : place ∈ (ring.add node replicas).places ↔
    place ∈ ring.places ∨ ring.contains node = false ∧ place.owner = node ∧
      place.position ∈ ring.winnable node replicas := by
  cases present : ring.contains node with
  | true => simp [add_of_contains present]
  | false =>
      have unknown : ring.owned.contains node = false := present
      simp only [add, unknown, Bool.false_eq_true, if_false, List.mem_merge, List.mem_map, true_and]
      refine or_congr_right ⟨?_, ?_⟩
      · rintro ⟨position, won, rfl⟩
        exact ⟨rfl, won⟩
      · rintro ⟨rfl, won⟩
        exact ⟨place.position, won, rfl⟩

namespace Sound

theorem nodup_positions (sound : ring.Sound) : (ring.places.map Place.position).Nodup :=
  List.pairwise_map.2 (sound.ascending.imp UInt32.ne_of_lt)

theorem nodup_places (sound : ring.Sound) : ring.places.Nodup := sound.nodup_positions.of_map _

/-- A position is taken by one node only. -/
theorem eq_of_position (sound : ring.Sound) {left right : Place} (one : left ∈ ring.places)
    (two : right ∈ ring.places) (same : left.position = right.position) : left = right :=
  List.inj_on_of_nodup_map sound.nodup_positions one two same

/-- Only nodes on the ring own places. -/
theorem contains_owner (sound : ring.Sound) (taken : place ∈ ring.places) :
    ring.contains place.owner = true := by
  obtain ⟨won, found, -⟩ := sound.owns.1 taken
  simp [contains, Table.contains, found]

theorem mem_winnable (sound : ring.Sound) {position : UInt32} :
    position ∈ ring.winnable node replicas ↔ position ∈ ring.wanted node replicas ∧
      ∀ place ∈ ring.places, place.position ≠ position := by
  rw [winnable, mem_vacant (pairwise_distinct (pairwise_sorted _)) sound.ascending, mem_distinct,
    List.mem_mergeSort]

/-- A node that goes takes exactly its places along. -/
theorem mem_places_remove (sound : ring.Sound) :
    place ∈ (ring.remove node).places ↔ place ∈ ring.places ∧ place.owner ≠ node := by
  cases found : ring.owned.get? node with
  | none =>
      simp only [remove, found, iff_self_and]
      rintro taken rfl
      obtain ⟨won, there, -⟩ := sound.owns.1 taken
      rw [found] at there
      cases there
  | some won =>
      simp only [remove, found, List.mem_filter, decide_eq_true_eq]
      refine and_congr_right fun taken => not_congr ⟨?_, ?_⟩
      · intro inside
        have own : (⟨place.position, node⟩ : Place) ∈ ring.places :=
          sound.owns.2 ⟨won, found, inside⟩
        rw [sound.eq_of_position taken own rfl]
      · rintro rfl
        obtain ⟨others, there, inside⟩ := sound.owns.1 taken
        rw [found, Option.some.injEq] at there
        exact there ▸ inside

theorem add (sound : ring.Sound) (node : NodeId) (replicas : Nat) :
    (ring.add node replicas).Sound := by
  cases present : ring.contains node with
  | true => rwa [add_of_contains present]
  | false =>
      have unknown : ring.owned.get? node = none := by
        simpa [contains, Table.contains] using present
      refine ⟨?_, ?_, ?_⟩
      · have absent : ring.owned.contains node = false := present
        simp only [Ring.add, absent, Bool.false_eq_true, if_false]
        refine pairwise_merge sound.ascending ?_ ?_
        · exact List.pairwise_map.2 (pairwise_winnable ring node replicas)
        · intro place taken won inside
          obtain ⟨position, there, rfl⟩ := List.mem_map.1 inside
          exact (sound.mem_winnable.1 there).2 place taken
      · intro place
        rw [mem_places_add, get?_owned_add present, sound.owns]
        by_cases own : node = place.owner
        · simp [← own, unknown, present]
        · simp [own, Ne.symm own]
      · intro other won found
        rw [get?_owned_add present] at found
        split at found
        · cases found
          exact pairwise_winnable ring node replicas
        · exact sound.once found

theorem remove (sound : ring.Sound) (node : NodeId) : (ring.remove node).Sound where
  ascending := by
    simp only [Ring.remove]
    split
    · exact sound.ascending
    · exact sound.ascending.filter _
  owns := by
    intro place
    rw [sound.mem_places_remove, get?_owned_remove, sound.owns]
    by_cases own : node = place.owner
    · simp [own]
    · simp [own, Ne.symm own]
  once := by
    intro other won found
    rw [get?_owned_remove] at found
    split at found
    · cases found
    · exact sound.once found

end Sound

/-! ## The first position clockwise -/

/-- The way from a hash to a position, clockwise. -/
def way (hash position : UInt32) : UInt32 := position - hash

theorem toNat_way_of_le {hash position : UInt32} (ahead : hash ≤ position) :
    (way hash position).toNat = position.toNat - hash.toNat :=
  UInt32.toNat_sub_of_le position hash ahead

theorem toNat_way_of_lt {hash position : UInt32} (behind : position < hash) :
    (way hash position).toNat = 2 ^ 32 - hash.toNat + position.toNat := by
  rw [UInt32.lt_iff_toNat_lt] at behind
  have bound := hash.toNat_lt
  rw [way, UInt32.toNat_sub, Nat.mod_eq_of_lt]
  omega

/-- The places in the order in which a hash comes by them. -/
def turned (hash : UInt32) (places : List Place) : List Place :=
  (places.dropWhile fun place => place.position < hash) ++
    places.takeWhile fun place => place.position < hash

theorem ownerAt?_eq (ring : Ring) (hash : UInt32) (accept : NodeId → Bool) :
    ring.ownerAt? hash accept = firstOwner? accept (turned hash ring.places) := by
  simp only [ownerAt?, firstOwner?, turned, List.find?_append]
  cases List.find? (fun place => accept place.owner)
      (ring.places.dropWhile fun place => place.position < hash) with
  | none => rfl
  | some place => rfl

theorem mem_turned {hash : UInt32} {places : List Place} :
    place ∈ turned hash places ↔ place ∈ places := by
  rw [turned, List.mem_append, or_comm, ← List.mem_append, List.takeWhile_append_dropWhile]

/-- The places that are not before a hash are the last ones. -/
theorem le_of_mem_dropWhile {hash : UInt32} {places : List Place}
    (ascending : places.Pairwise fun left right => left.position < right.position)
    (left : place ∈ places.dropWhile fun place => place.position < hash) :
    hash ≤ place.position := by
  induction places with
  | nil => cases left
  | cons first rest ih =>
      rw [List.dropWhile_cons] at left
      split at left
      · exact ih ascending.tail left
      · rename_i behind
        have least : hash ≤ first.position := by simpa using behind
        rcases List.mem_cons.1 left with rfl | later
        · exact least
        · have further := (List.pairwise_cons.1 ascending).1 place later
          exact UInt32.le_trans least (UInt32.le_of_lt further)

theorem lt_of_mem_takeWhile {hash : UInt32} {places : List Place}
    (left : place ∈ places.takeWhile fun place => place.position < hash) :
    place.position < hash :=
  of_decide_eq_true (List.all_eq_true.1 List.all_takeWhile place left)

theorem pairwise_turned {places : List Place}
    (ascending : places.Pairwise fun left right => left.position < right.position)
    (hash : UInt32) : (turned hash places).Pairwise fun left right =>
      way hash left.position < way hash right.position := by
  refine List.pairwise_append.2 ⟨?_, ?_, ?_⟩
  · refine (ascending.sublist (List.dropWhile_sublist _)).imp_of_mem ?_
    intro left right one two less
    have ahead := UInt32.le_iff_toNat_le.1 (le_of_mem_dropWhile ascending one)
    have one := toNat_way_of_le (le_of_mem_dropWhile ascending one)
    have two := toNat_way_of_le (le_of_mem_dropWhile ascending two)
    rw [UInt32.lt_iff_toNat_lt] at less ⊢
    omega
  · refine (ascending.sublist (List.takeWhile_sublist _)).imp_of_mem ?_
    intro left right one two less
    have one := toNat_way_of_lt (lt_of_mem_takeWhile one)
    have two := toNat_way_of_lt (lt_of_mem_takeWhile two)
    rw [UInt32.lt_iff_toNat_lt] at less ⊢
    omega
  -- What is before the hash is reached last, after a whole turn.
  · intro left one right two
    have one := toNat_way_of_le (le_of_mem_dropWhile ascending one)
    have two := toNat_way_of_lt (lt_of_mem_takeWhile two)
    have top := left.position.toNat_lt
    have bound := hash.toNat_lt
    rw [UInt32.lt_iff_toNat_lt]
    omega

/-- Of items in ascending order, the first that fits is the least that fits. -/
theorem find?_eq_some_iff_of_pairwise {α : Type} {measure : α → UInt32} {items : List α}
    (ordered : items.Pairwise fun left right => measure left < measure right)
    {fits : α → Bool} {item : α} : items.find? fits = some item ↔
      item ∈ items ∧ fits item = true ∧
        ∀ other ∈ items, fits other = true → measure item ≤ measure other := by
  induction items with
  | nil => simp
  | cons first rest ih =>
      obtain ⟨least, ordered⟩ := List.pairwise_cons.1 ordered
      cases fitting : fits first with
      | true =>
          rw [List.find?_cons_of_pos fitting, Option.some.injEq]
          constructor
          · rintro rfl
            refine ⟨List.mem_cons_self, fitting, ?_⟩
            intro other member _
            rcases List.mem_cons.1 member with rfl | later
            · exact UInt32.le_refl _
            · exact UInt32.le_of_lt (least other later)
          · rintro ⟨member, -, minimal⟩
            rcases List.mem_cons.1 member with rfl | later
            · rfl
            · have back := minimal first List.mem_cons_self fitting
              exact absurd (least item later) (UInt32.not_lt.2 back)
      | false =>
          have unfit : ¬ fits first = true := by rw [fitting]; decide
          rw [List.find?_cons_of_neg unfit, ih ordered, List.mem_cons, List.forall_mem_cons]
          constructor
          · rintro ⟨later, fit, minimal⟩
            exact ⟨.inr later, fit, fun other => absurd other unfit, minimal⟩
          · rintro ⟨rfl | later, fit, -, minimal⟩
            · exact absurd fit unfit
            · exact ⟨later, fit, minimal⟩

/-- A hash belongs to nobody exactly if no node that owns a position is accepted. -/
theorem ownerAt?_eq_none_iff {hash : UInt32} {accept : NodeId → Bool} :
    ring.ownerAt? hash accept = none ↔ ∀ place ∈ ring.places, accept place.owner = false := by
  rw [ownerAt?_eq, firstOwner?, Option.map_eq_none_iff, List.find?_eq_none]
  simp only [mem_turned, Bool.not_eq_true]

/-- A hash belongs to the accepted node with the first position clockwise from it. -/
theorem Sound.ownerAt?_eq_some_iff (sound : ring.Sound) {hash : UInt32}
    {accept : NodeId → Bool} : ring.ownerAt? hash accept = some node ↔
      ∃ place ∈ ring.places, place.owner = node ∧ accept node = true ∧
        ∀ other ∈ ring.places, accept other.owner = true →
          way hash place.position ≤ way hash other.position := by
  have ordered := pairwise_turned sound.ascending hash
  rw [ownerAt?_eq, firstOwner?, Option.map_eq_some_iff]
  simp only [find?_eq_some_iff_of_pairwise ordered, mem_turned]
  constructor
  · rintro ⟨place, ⟨taken, accepted, first⟩, rfl⟩
    exact ⟨place, taken, rfl, accepted, first⟩
  · rintro ⟨place, taken, rfl, accepted, first⟩
    exact ⟨place, ⟨taken, accepted, first⟩, rfl⟩

end Ring

end JobGrid
