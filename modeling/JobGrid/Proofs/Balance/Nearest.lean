import JobGrid.Proofs.Balance.RingHistory

/-!
# The nearest owner on a ring

To whom a key belongs can be said in terms of the positions that nodes own: of all positions
whose owners are accepted, the one counts that comes next when the circle is followed from the
hash of the key. No other position is as near, and nobody gets the key only if no owner is
accepted.
-/

namespace JobGrid

namespace Ring

/-- A node owns a position, by what the ring keeps about the node. -/
def Owns (ring : Ring) (node : NodeId) (position : UInt32) : Prop :=
  ∃ won, ring.owned.get? node = some won ∧ position ∈ won

/-- How far ahead of a hash a position is on the circle. -/
def ahead (hash position : UInt32) : Int := ((position.toNat : Int) - hash.toNat) % 2 ^ 32

/-- Of all positions whose owners fit, the node owns the one that is least far ahead of a hash. -/
def Nearest (ring : Ring) (hash : UInt32) (fits : NodeId → Prop) (node : NodeId) : Prop :=
  ∃ position, ring.Owns node position ∧ fits node ∧
    ∀ other further, ring.Owns other further → fits other →
      other = node ∧ further = position ∨ ahead hash position < ahead hash further

theorem toNat_way (hash position : UInt32) :
    ((way hash position).toNat : Int) = ahead hash position := by
  have bound := hash.toNat_lt
  have top := position.toNat_lt
  rw [way, ahead, UInt32.toNat_sub]
  omega

theorem way_le_iff {hash left right : UInt32} :
    way hash left ≤ way hash right ↔ ahead hash left ≤ ahead hash right := by
  rw [UInt32.le_iff_toNat_le, ← toNat_way, ← toNat_way, Int.ofNat_le]

/-- Different positions are not equally far ahead. -/
theorem eq_of_ahead {hash left right : UInt32} (same : ahead hash left = ahead hash right) :
    left = right := by
  have bound := hash.toNat_lt
  have one := left.toNat_lt
  have two := right.toNat_lt
  simp only [ahead] at same
  apply UInt32.toNat_inj.1
  omega

variable {ring : Ring} {hash position : UInt32} {node : NodeId} {fits : NodeId → Prop}

theorem Sound.owns_iff (sound : ring.Sound) :
    ring.Owns node position ↔ (⟨position, node⟩ : Place) ∈ ring.places := by
  rw [sound.owns, Owns]

/-- Only one node owns the nearest position. -/
theorem Nearest.eq {other : NodeId} (left : ring.Nearest hash fits node)
    (right : ring.Nearest hash fits other) : node = other := by
  obtain ⟨position, owns, fit, least⟩ := left
  obtain ⟨further, there, fitting, lowest⟩ := right
  rcases least other further there fitting with ⟨same, -⟩ | before
  · exact same.symm
  · rcases lowest node position owns fit with ⟨same, -⟩ | behind
    · exact same
    · omega

/-- Who is nearest depends on nothing but who owns which positions and which of them fit. -/
theorem Nearest.congr {changed : Ring} {suits : NodeId → Prop}
    (nearest : ring.Nearest hash fits node)
    (owns : ∀ node position, changed.Owns node position ↔ ring.Owns node position)
    (same : ∀ node, suits node ↔ fits node) : changed.Nearest hash suits node := by
  obtain ⟨position, own, fit, least⟩ := nearest
  refine ⟨position, (owns node position).2 own, (same node).2 fit, ?_⟩
  exact fun other further there suit =>
    least other further ((owns other further).1 there) ((same other).1 suit)

/-- A hash belongs to the accepted node that owns the nearest position. -/
theorem Sound.ownerAt?_eq_nearest (sound : ring.Sound) {accept : NodeId → Bool} :
    ring.ownerAt? hash accept = some node ↔ ring.Nearest hash (accept · = true) node := by
  rw [sound.ownerAt?_eq_some_iff]
  constructor
  · rintro ⟨place, taken, rfl, accepted, least⟩
    refine ⟨place.position, sound.owns_iff.2 taken, accepted, fun other further there allowed => ?_⟩
    have there := sound.owns_iff.1 there
    rcases Int.lt_or_eq_of_le (way_le_iff.1 (least _ there allowed)) with before | same
    · exact .inr before
    -- Positions that are equally near are one, and so are their owners.
    · have one := sound.eq_of_position there taken (eq_of_ahead same).symm
      exact .inl ⟨congrArg Place.owner one, congrArg Place.position one⟩
  · rintro ⟨position, owns, accepted, least⟩
    refine ⟨_, sound.owns_iff.1 owns, rfl, accepted, fun other there allowed => ?_⟩
    rw [way_le_iff]
    rcases least other.owner other.position (sound.owns_iff.2 there) allowed with ⟨-, same⟩ | before
    · exact same ▸ Int.le_refl _
    · exact Int.le_of_lt before

/-- A hash belongs to nobody exactly if no owner is accepted. -/
theorem Sound.ownerAt?_eq_none (sound : ring.Sound) {accept : NodeId → Bool} :
    ring.ownerAt? hash accept = none ↔
      ∀ node position, ring.Owns node position → accept node = false := by
  rw [ownerAt?_eq_none_iff]
  constructor
  · intro none node position owns
    exact none _ (sound.owns_iff.1 owns)
  · intro none place taken
    exact none place.owner place.position (sound.owns_iff.2 taken)

/-- Whichever nodes came and went, and whatever the digest and the accepted nodes are: a key
belongs to nobody exactly if no node is accepted that owns a position. Otherwise it belongs to the
owner of the one position that is the least far ahead of the hash of the key, of all positions with
accepted owners. -/
theorem get?_nearest (seed : String) (digest : Digest) (history : List RingCall) (key : Bytes)
    (accept : NodeId → Bool) :
    let ring := (empty seed digest).run history
    (ring.get? key accept = none ↔
        ∀ node position, ring.Owns node position → accept node = false) ∧
      ∀ node, ring.get? key accept = some node ↔ ∃ position, ring.Owns node position ∧
        accept node = true ∧ ∀ other further, ring.Owns other further → accept other = true →
          other = node ∧ further = position ∨
            ((position.toNat : Int) - (ring.keyHash key).toNat) % 2 ^ 32 <
              ((further.toNat : Int) - (ring.keyHash key).toNat) % 2 ^ 32 := by
  intro ring
  have sound : ring.Sound := (sound_empty seed digest).run history
  exact ⟨sound.ownerAt?_eq_none, fun node => sound.ownerAt?_eq_nearest⟩

/-- The positions 1 and 9 are accepted. From 9 on the one at 9 itself is the nearest, and behind it
the circle starts again. -/
example :
    let digest : Digest := fun bytes => some (bytes.length.toUInt32 * 8 + 1)
    let places : List Place := [⟨1, .ofNat 1⟩, ⟨4, .ofNat 2⟩, ⟨9, .ofNat 3⟩]
    let ring : Ring := { seed := [], digest, places }
    let accept : NodeId → Bool := fun node => node ≠ .ofNat 2
    ring.get? [0] accept = some (.ofNat 3) ∧ ring.get? [0, 0] accept = some (.ofNat 1) := by
  decide

end Ring

end JobGrid
