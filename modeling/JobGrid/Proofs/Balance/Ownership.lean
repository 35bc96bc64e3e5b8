import JobGrid.Proofs.Balance.RingHistory
import Mathlib.Algebra.BigOperators.Group.Finset.Basic

/-!
# Who owns the positions of a ring

A ring says twice who owns a position: place by place, and node by node. This module shows that
both agree while nodes come and go, however often positions collide: each position that is taken is
listed once, under the node that holds it. So the sizes of both add up, a node takes away exactly
what it won, and nobody loses a position to a node that comes later. What a node wins is what is
left over when it claims its positions one after another.
-/

namespace JobGrid

/-- What the claims of a node have come to: the places that are taken, and the positions that the
node won, both in the order in which they were taken. -/
structure Claims where
  places : List Place
  won : List UInt32

/-- One more position is claimed. Whoever holds it already keeps it. -/
def Claims.claim (node : NodeId) (claims : Claims) (position : UInt32) : Claims :=
  if ∀ place ∈ claims.places, place.position ≠ position then
    ⟨claims.places ++ [⟨position, node⟩], claims.won ++ [position]⟩
  else claims

namespace Ring

/-- The claims of a node that comes: one for each replica, in order. -/
def claims (ring : Ring) (node : NodeId) (replicas : Nat) : Claims :=
  (ring.wanted node replicas).foldl (Claims.claim node) ⟨ring.places, []⟩

/-- What a call answers: how many positions the node won, or gave back. -/
def answer (ring : Ring) : RingCall → Nat
  | .add node replicas =>
      if ring.contains node then 0 else (ring.claims node replicas).won.length
  | .remove node =>
      match ring.owned.get? node with
      | none => 0
      | some won => won.length

/-- The node that holds a position. -/
def holder? (ring : Ring) (position : UInt32) : Option NodeId :=
  (ring.places.find? fun place => place.position = position).map Place.owner

end Ring

/-! ## Positions that are claimed one after another -/

/-- What is true of a node's claims after it asked a ring for some positions: the places of the
ring stay, the positions that were won come to them, and these are all the free ones. -/
structure Claims.Fair (ring : Ring) (node : NodeId) (asked : List UInt32) (claims : Claims) :
    Prop where
  distinct : (claims.places.map Place.position).Nodup
  splits : claims.places = ring.places ++ claims.won.map fun position => ⟨position, node⟩
  wins : ∀ position, position ∈ claims.won ↔
    position ∈ asked ∧ ∀ place ∈ ring.places, place.position ≠ position

namespace Claims.Fair

variable {ring : Ring} {node : NodeId} {asked : List UInt32} {claims : Claims}

theorem claim (fair : claims.Fair ring node asked) (position : UInt32) :
    (claims.claim node position).Fair ring node (asked ++ [position]) := by
  by_cases free : ∀ place ∈ claims.places, place.position ≠ position
  · rw [Claims.claim, if_pos free]
    have untaken : ∀ place ∈ ring.places, place.position ≠ position := by
      intro place taken
      exact free place (fair.splits ▸ List.mem_append_left _ taken)
    refine ⟨?_, ?_, fun other => ?_⟩
    · rw [List.map_append, List.nodup_append]
      refine ⟨fair.distinct, List.nodup_singleton _, ?_⟩
      simpa using free
    · rw [fair.splits, List.map_append, List.append_assoc]
      rfl
    · rw [List.mem_append, List.mem_append, List.mem_singleton, fair.wins, or_and_right]
      refine or_congr_right ⟨?_, And.left⟩
      rintro rfl
      exact ⟨rfl, untaken⟩
  · rw [Claims.claim, if_neg free]
    refine ⟨fair.distinct, fair.splits, fun other => ?_⟩
    rw [fair.wins, List.mem_append, List.mem_singleton, or_and_right]
    refine ⟨.inl, fun either => either.elim id ?_⟩
    -- What is not free on the ring was claimed before, by another replica of the node.
    rintro ⟨rfl, untaken⟩
    simp only [not_forall, not_not] at free
    obtain ⟨place, taken, rfl⟩ := free
    rw [fair.splits] at taken
    rcases List.mem_append.1 taken with before | won
    · exact absurd rfl (untaken place before)
    · obtain ⟨position, there, rfl⟩ := List.mem_map.1 won
      exact (fair.wins position).1 there

/-- No position is won twice. -/
theorem nodup_won (fair : claims.Fair ring node asked) : claims.won.Nodup := by
  have split := fair.distinct
  rw [fair.splits, List.map_append, List.map_map] at split
  simpa [Function.comp_def] using split.of_append_right

end Claims.Fair

namespace Ring

variable {ring : Ring} {node owner : NodeId} {position : UInt32} {replicas : Nat}

theorem owned_remove (ring : Ring) (node : NodeId) :
    (ring.remove node).owned = ring.owned.erase node := by
  cases found : ring.owned.get? node with
  | none =>
      simp only [remove, found]
      exact (Table.erase_of_not_mem (Table.get?_eq_none_iff.1 found)).symm
  | some won => simp only [remove, found]

theorem sum_positionsOf (ring : Ring) :
    (ring.owned.keys.map ring.positionsOf).sum = (ring.owned.values.map List.length).sum := by
  rw [← Table.map_keys ring.owned 0 List.length]
  congr 2
  funext node
  rw [positionsOf, Table.getD]
  cases ring.owned.get? node with
  | none => rfl
  | some won => rfl

namespace Sound

theorem fair_claims (sound : ring.Sound) (node : NodeId) (replicas : Nat) :
    (ring.claims node replicas).Fair ring node (ring.wanted node replicas) := by
  rw [claims]
  induction ring.wanted node replicas using List.reverseRecOn with
  | nil => exact ⟨sound.nodup_positions, by simp, by simp⟩
  | append_singleton earlier position ih =>
      rw [List.foldl_concat]
      exact ih.claim position

/-- A node wins the same positions, whether it claims them one after another or all at once. -/
theorem perm_won (sound : ring.Sound) (node : NodeId) (replicas : Nat) :
    (ring.claims node replicas).won.Perm (ring.winnable node replicas) := by
  have fair := sound.fair_claims node replicas
  have distinct := (pairwise_winnable ring node replicas).imp UInt32.ne_of_lt
  refine (List.perm_ext_iff_of_nodup fair.nodup_won distinct).2 fun position => ?_
  rw [fair.wins, sound.mem_winnable]

/-- The same places are taken, whether a node claims its positions one after another or all at
once. -/
theorem perm_places_claims (sound : ring.Sound) (absent : ring.contains node = false) :
    (ring.claims node replicas).places.Perm (ring.add node replicas).places := by
  have unknown : ring.owned.contains node = false := absent
  simp only [Ring.add, unknown, Bool.false_eq_true, if_false]
  rw [(sound.fair_claims node replicas).splits]
  exact (((sound.perm_won node replicas).map _).append_left _).trans
    (List.merge_perm_append _).symm

/-! ## Positions and their holders -/

theorem holder?_eq_some_iff (sound : ring.Sound) :
    ring.holder? position = some node ↔ (⟨position, node⟩ : Place) ∈ ring.places := by
  rw [holder?, Option.map_eq_some_iff]
  constructor
  · rintro ⟨place, found, rfl⟩
    have fits := List.find?_some found
    exact of_decide_eq_true fits ▸ List.mem_of_find?_eq_some found
  · intro taken
    cases found : ring.places.find? fun place => place.position = position with
    | none =>
        have missed := List.find?_eq_none.1 found _ taken
        simp at missed
    | some place =>
        have fits := List.find?_some found
        have one := sound.eq_of_position (List.mem_of_find?_eq_some found) taken
          (of_decide_eq_true fits)
        exact ⟨place, rfl, by rw [one]⟩

/-- A position is listed under the node that holds it. -/
theorem holder?_eq_some_iff_mem (sound : ring.Sound) :
    ring.holder? position = some node ↔ position ∈ ring.owned.getD node [] := by
  rw [sound.holder?_eq_some_iff, sound.owns, Table.getD]
  cases ring.owned.get? node with
  | none => simp
  | some won => simp

theorem pairwise_owned (sound : ring.Sound) (node : NodeId) :
    (ring.owned.getD node []).Pairwise (· < ·) := by
  rw [Table.getD]
  cases found : ring.owned.get? node with
  | none => exact .nil
  | some won => exact sound.once found

/-- The positions that are listed under a node are those of its places. -/
theorem perm_owned (sound : ring.Sound) (node : NodeId) : (ring.owned.getD node []).Perm
    ((ring.places.filter fun place => place.owner = node).map Place.position) := by
  have listed := (sound.pairwise_owned node).imp UInt32.ne_of_lt
  have taken : ((ring.places.filter fun place => place.owner = node).map Place.position).Nodup :=
    List.pairwise_map.2 ((sound.ascending.filter _).imp UInt32.ne_of_lt)
  refine (List.perm_ext_iff_of_nodup listed taken).2 fun position => ?_
  rw [← sound.holder?_eq_some_iff_mem, sound.holder?_eq_some_iff, List.mem_map]
  constructor
  · intro there
    exact ⟨_, List.mem_filter.2 ⟨there, by simp⟩, rfl⟩
  · rintro ⟨place, own, rfl⟩
    obtain ⟨there, rfl⟩ : place ∈ ring.places ∧ place.owner = node := by simpa using own
    exact there

theorem positionsOf_eq (sound : ring.Sound) (node : NodeId) :
    ring.positionsOf node = (ring.places.map Place.owner).count node := by
  rw [positionsOf, (sound.perm_owned node).length_eq, List.length_map, List.count,
    List.countP_map, List.countP_eq_length_filter]
  rfl

/-- All positions together are those of the nodes on the ring. -/
theorem size_eq_sum (sound : ring.Sound) :
    ring.size = (ring.owned.keys.map ring.positionsOf).sum := by
  have known : ∀ owner ∈ (↑(ring.places.map Place.owner) : Multiset NodeId),
      owner ∈ ring.owned.keys.toFinset := by
    intro owner there
    obtain ⟨place, taken, rfl⟩ := List.mem_map.1 (Multiset.mem_coe.1 there)
    exact List.mem_toFinset.2 (Table.contains_iff_mem_keys.1 (sound.contains_owner taken))
  calc ring.size
      = Multiset.card (↑(ring.places.map Place.owner) : Multiset NodeId) := by simp [size]
    _ = ∑ node ∈ ring.owned.keys.toFinset, ring.positionsOf node := by
        simp only [← Multiset.sum_count_eq_card known, Multiset.coe_count, sound.positionsOf_eq]
    _ = (ring.owned.keys.map ring.positionsOf).sum :=
        List.sum_toFinset _ ring.owned.keys_nodup

/-! ## What calls answer -/

/-- The ring grows by what is answered to a node that comes. -/
theorem size_add (sound : ring.Sound) (node : NodeId) (replicas : Nat) :
    (ring.add node replicas).size = ring.size + ring.answer (.add node replicas) := by
  cases present : ring.contains node with
  | true => simp [answer, present]
  | false =>
      have split := congrArg List.length (sound.fair_claims node replicas).splits
      rw [List.length_append, List.length_map] at split
      rw [size, ← (sound.perm_places_claims present).length_eq, split, answer, present, size]
      rfl

/-- The ring shrinks by what is answered to a node that goes. -/
theorem size_remove (sound : ring.Sound) (node : NodeId) :
    ring.size = (ring.remove node).size + ring.answer (.remove node) := by
  have erased := Table.sum_values_erase List.length ring.owned node
  rw [← owned_remove, ← sum_positionsOf, ← sum_positionsOf, ← sound.size_eq_sum,
    ← (sound.remove node).size_eq_sum] at erased
  rw [← erased, answer]
  cases ring.owned.get? node with
  | none => rfl
  | some won => rfl

/-! ## Holders that stay -/

/-- Whoever is on the ring after a call holds what he held before. -/
theorem holder?_perform (sound : ring.Sound) (held : ring.holder? position = some owner)
    {call : RingCall} (stays : (ring.perform call).contains owner = true) :
    (ring.perform call).holder? position = some owner := by
  have taken := sound.holder?_eq_some_iff.1 held
  cases call with
  | add node replicas =>
      exact (sound.add node replicas).holder?_eq_some_iff.2 (mem_places_add.2 (.inl taken))
  | remove node =>
      refine (sound.remove node).holder?_eq_some_iff.2 (sound.mem_places_remove.2 ⟨taken, ?_⟩)
      rintro rfl
      simp [perform] at stays

/-- A node that stays on the ring, whatever else happens, holds its positions all the time. -/
theorem holder?_run (sound : ring.Sound) (held : ring.holder? position = some owner)
    {history : List RingCall}
    (stays : ∀ earlier, earlier <+: history → (ring.run earlier).contains owner = true) :
    (ring.run history).holder? position = some owner := by
  induction history using List.reverseRecOn with
  | nil => exact held
  | append_singleton earlier call ih =>
      have before := ih fun front part => stays front (part.trans (List.prefix_append _ _))
      have after := stays _ List.prefix_rfl
      rw [run_concat] at after ⊢
      exact (sound.run earlier).holder?_perform before after

end Sound

/-- Whatever the digest is and whichever nodes came and went: a node holds a position exactly if
the position is listed under the node, where it is listed once. All positions together are those of
the nodes on the ring. A call answers by how much the number of positions grows when a node comes,
and by how much it shrinks when a node goes. A position does not change hands as long as the node
that holds it stays on the ring, and a node that is on the ring and comes once more changes
nothing. -/
theorem ownership_kept (seed : String) (digest : Digest) (history : List RingCall) :
    let ring := (empty seed digest).run history
    (∀ position node, ring.holder? position = some node ↔
        position ∈ ring.owned.getD node []) ∧
      (∀ node, (ring.owned.getD node []).Nodup) ∧
      ring.size = (ring.owned.keys.map ring.positionsOf).sum ∧
      (∀ node replicas, (ring.perform (.add node replicas)).size =
        ring.size + ring.answer (.add node replicas)) ∧
      (∀ node, ring.size =
        (ring.perform (.remove node)).size + ring.answer (.remove node)) ∧
      (∀ position owner later, ring.holder? position = some owner →
        (∀ earlier, earlier <+: later → (ring.run earlier).contains owner = true) →
        (ring.run later).holder? position = some owner) ∧
      ∀ node replicas, ring.contains node = true →
        ring.perform (.add node replicas) = ring ∧ ring.answer (.add node replicas) = 0 := by
  intro ring
  have sound : ring.Sound := (sound_empty seed digest).run history
  refine ⟨?_, ?_, sound.size_eq_sum, sound.size_add, sound.size_remove, ?_, ?_⟩
  · exact fun position node => sound.holder?_eq_some_iff_mem
  · exact fun node => (sound.pairwise_owned node).imp UInt32.ne_of_lt
  · exact fun position owner later held stays => sound.holder?_run held stays
  · intro node replicas present
    exact ⟨add_of_contains present, if_pos present⟩

/-- The replicas of two nodes collide. The second node comes, goes and comes back, and the first one
comes once more, but the first one holds what it won all the time. -/
theorem ownership_kept_of_collisions :
    let digest : Digest := fun bytes => some (bytes.length.toUInt32 % 3)
    let ring := (empty "" digest).run [.add (.ofNat 1) 12]
    let later : List RingCall :=
      [.add (.ofNat 2) 12, .remove (.ofNat 2), .add (.ofNat 2) 3, .add (.ofNat 1) 40]
    ring.holder? 2 = some (.ofNat 1) ∧
      (∀ earlier, earlier <+: later → (ring.run earlier).contains (.ofNat 1) = true) ∧
      (ring.run later).holder? 2 = some (.ofNat 1) ∧
      ring.contains (.ofNat 1) = true ∧
      ring.perform (.add (.ofNat 1) 40) = ring ∧ ring.answer (.add (.ofNat 1) 40) = 0 := by
  intro digest ring later
  obtain ⟨-, -, -, -, -, holds, again⟩ := ownership_kept "" digest [.add (.ofNat 1) 12]
  have sound := sound_empty "" digest
  have held : ring.holder? 2 = some (.ofNat 1) := by
    have asked : 2 ∈ (empty "" digest).wanted (.ofNat 1) 12 := by decide
    have won := sound.mem_winnable.2 ⟨asked, by simp [empty]⟩
    exact (sound.add _ _).holder?_eq_some_iff.2 (mem_places_add.2 (.inr ⟨rfl, rfl, won⟩))
  have stays : ∀ earlier, earlier <+: later →
      (ring.run earlier).contains (.ofNat 1) = true := by
    intro earlier front
    have known : ∀ earlier ∈ later.inits, (ring.run earlier).contains (.ofNat 1) = true := by
      decide +kernel
    exact known earlier ((List.mem_inits _ _).2 front)
  have there := stays [] List.nil_prefix
  exact ⟨held, stays, holds 2 _ later held stays, there, again _ 40 there⟩

end Ring

end JobGrid
