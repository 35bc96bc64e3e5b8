import JobGrid.Proofs.Balance.Ring
import Mathlib.Data.List.Induction

/-!
# Histories of a ring

Rings arise when nodes are put on a ring and taken off it, in any order. A change of the nodes
moves only keys of the node that comes or goes. Unless two nodes ask for the same position, the
ring depends only on the nodes that are on it and on how many replicas each of them was placed
with.
-/

namespace JobGrid

/-- A change of a ring. -/
inductive RingCall where
  | add (node : NodeId) (replicas : Nat)
  | remove (node : NodeId)

namespace RingCall

def node : RingCall → NodeId
  | add node _ | remove node => node

/-- How many replicas of a node are placed after a call. A node that is on the ring is not placed
once more. -/
def placing (node : NodeId) (placed : Option Nat) : RingCall → Option Nat
  | add other replicas => if other = node then placed.or (some replicas) else placed
  | remove other => if other = node then none else placed

end RingCall

/-- How many replicas of a node were placed when it was put on the ring last, if it is there after
some calls. -/
def placedWith (history : List RingCall) (node : NodeId) : Option Nat :=
  history.foldl (RingCall.placing node) none

namespace Ring

/-- Lets a node come or go. -/
def perform (ring : Ring) : RingCall → Ring
  | .add node replicas => ring.add node replicas
  | .remove node => ring.remove node

/-- Lets some nodes come and go, one after another. -/
def run (ring : Ring) (history : List RingCall) : Ring := history.foldl perform ring

/-- The positions that a node asks for in a call. -/
def claimed (ring : Ring) : RingCall → List UInt32
  | .add node replicas => ring.wanted node replicas
  | .remove _ => []

/-- No two nodes ask for the same position. -/
def Apart (ring : Ring) (history : List RingCall) : Prop :=
  ∀ call ∈ history, ∀ other ∈ history, call.node ≠ other.node →
    ∀ position ∈ ring.claimed call, position ∉ ring.claimed other

-- The positions are those of a list: trying all of `UInt32` would not end.
instance (ring : Ring) (history : List RingCall) : Decidable (ring.Apart history) :=
  have (call other : RingCall) :
      Decidable (∀ position ∈ ring.claimed call, position ∉ ring.claimed other) :=
    List.decidableBAll _ _
  inferInstanceAs (Decidable (∀ call ∈ history, ∀ other ∈ history, call.node ≠ other.node →
    ∀ position ∈ ring.claimed call, position ∉ ring.claimed other))

theorem run_concat (ring : Ring) (history : List RingCall) (call : RingCall) :
    ring.run (history ++ [call]) = (ring.run history).perform call := by
  simp [run]

theorem placedWith_concat (history : List RingCall) (call : RingCall) (node : NodeId) :
    placedWith (history ++ [call]) node = call.placing node (placedWith history node) := by
  simp [placedWith]

variable {ring : Ring} {node : NodeId} {place : Place} {history : List RingCall}

section Run

variable (ring) (call : RingCall)

theorem seed_perform : (ring.perform call).seed = ring.seed := by
  cases call with
  | add node replicas => exact seed_add ring node replicas
  | remove node => exact seed_remove ring node

theorem digest_perform : (ring.perform call).digest = ring.digest := by
  cases call with
  | add node replicas => exact digest_add ring node replicas
  | remove node => exact digest_remove ring node

variable (history)

theorem seed_run : (ring.run history).seed = ring.seed := by
  induction history using List.reverseRecOn with
  | nil => rfl
  | append_singleton earlier call ih => rw [run_concat, seed_perform, ih]

theorem digest_run : (ring.run history).digest = ring.digest := by
  induction history using List.reverseRecOn with
  | nil => rfl
  | append_singleton earlier call ih => rw [run_concat, digest_perform, ih]

/-- What nodes ask for does not depend on who is on the ring. -/
theorem wanted_run (node : NodeId) (replicas : Nat) :
    (ring.run history).wanted node replicas = ring.wanted node replicas := by
  simp only [wanted, seed_run, digest_run]

theorem keyHash_run (key : Bytes) : (ring.run history).keyHash key = ring.keyHash key := by
  rw [keyHash, digest_run, keyHash]

end Run

theorem Sound.run (sound : ring.Sound) (history : List RingCall) : (ring.run history).Sound := by
  induction history using List.reverseRecOn with
  | nil => exact sound
  | append_singleton earlier call ih =>
      rw [run_concat]
      cases call with
      | add node replicas => exact ih.add node replicas
      | remove node => exact ih.remove node

/-- The nodes on a ring are those that were placed and did not go since. -/
theorem contains_run (seed : String) (digest : Digest) (history : List RingCall) (node : NodeId) :
    ((empty seed digest).run history).contains node = (placedWith history node).isSome := by
  induction history using List.reverseRecOn with
  | nil => rfl
  | append_singleton earlier call ih =>
      rw [run_concat, placedWith_concat]
      cases call with
      | add other replicas =>
          rw [perform, contains_add, ih, RingCall.placing]
          by_cases same : other = node
          · simp [same]
          · simp [same]
      | remove other =>
          rw [perform, contains_remove, ih, RingCall.placing]
          by_cases same : other = node
          · simp [same]
          · simp [same]

/-! ## Keys that move -/

namespace Sound

variable {hash : UInt32} {accept : NodeId → Bool} {replicas : Nat}

/-- Without a node, a hash belongs to whom it belonged to if the node was not accepted. -/
theorem ownerAt?_remove (sound : ring.Sound) :
    (ring.remove node).ownerAt? hash accept =
      ring.ownerAt? hash fun other => accept other && decide (other ≠ node) := by
  apply Option.ext
  intro found
  rw [(sound.remove node).ownerAt?_eq_some_iff, sound.ownerAt?_eq_some_iff]
  simp only [sound.mem_places_remove, Bool.and_eq_true, decide_eq_true_eq]
  constructor
  · rintro ⟨place, ⟨taken, stays⟩, rfl, accepted, first⟩
    refine ⟨place, taken, rfl, ⟨accepted, stays⟩, ?_⟩
    exact fun other there allowed => first other ⟨there, allowed.2⟩ allowed.1
  · rintro ⟨place, taken, rfl, ⟨accepted, stays⟩, first⟩
    refine ⟨place, ⟨taken, stays⟩, rfl, accepted, ?_⟩
    exact fun other there allowed => first other there.1 ⟨allowed, there.2⟩

/-- When a node comes, a hash belongs to it from then on, or to whom it belonged to before. -/
theorem ownerAt?_add (sound : ring.Sound) (node : NodeId) (replicas : Nat) :
    (ring.add node replicas).ownerAt? hash accept = some node ∨
      (ring.add node replicas).ownerAt? hash accept = ring.ownerAt? hash accept := by
  have older : ∀ {place}, place ∈ ring.places → place ∈ (ring.add node replicas).places :=
    fun taken => mem_places_add.2 (.inl taken)
  cases found : (ring.add node replicas).ownerAt? hash accept with
  | none =>
      refine .inr (ownerAt?_eq_none_iff.2 ?_).symm
      exact fun place taken => ownerAt?_eq_none_iff.1 found place (older taken)
  | some owner =>
      obtain ⟨place, taken, rfl, accepted, first⟩ :=
        (sound.add node replicas).ownerAt?_eq_some_iff.1 found
      rcases mem_places_add.1 taken with before | ⟨-, own, -⟩
      · refine .inr (sound.ownerAt?_eq_some_iff.2 ⟨place, before, rfl, accepted, ?_⟩).symm
        exact fun other there => first other (older there)
      · exact .inl (congrArg some own)

/-- The places of a ring are determined by which of them there are. -/
theorem places_eq {other : Ring} (sound : ring.Sound) (others : other.Sound)
    (same : ∀ place, place ∈ ring.places ↔ place ∈ other.places) :
    ring.places = other.places := by
  have perm := (List.perm_ext_iff_of_nodup sound.nodup_places others.nodup_places).2 same
  refine perm.eq_of_pairwise ?_ sound.ascending others.ascending
  exact fun left right _ _ less greater =>
    absurd (UInt32.lt_trans less greater) (UInt32.lt_irrefl _)

/-- A node that comes and goes leaves no place behind. -/
theorem places_remove_add (sound : ring.Sound) (absent : ring.contains node = false) :
    ((ring.add node replicas).remove node).places = ring.places := by
  have added := sound.add node replicas
  refine places_eq (added.remove node) sound fun place => ?_
  rw [added.mem_places_remove, mem_places_add]
  constructor
  · rintro ⟨before | ⟨-, own, -⟩, stays⟩
    · exact before
    · exact absurd own stays
  · intro taken
    refine ⟨.inl taken, ?_⟩
    rintro rfl
    rw [sound.contains_owner taken] at absent
    cases absent

end Sound

/-- Whoever came and went before: when a node goes, each key belongs to whom it belonged to if the
node was not accepted; when a node comes, each key belongs to it or to whom it belonged to before;
and when a node that was not there comes and goes, each key belongs again to whom it belonged to
before. -/
theorem get?_of_change (seed : String) (digest : Digest) (history : List RingCall) (node : NodeId)
    (replicas : Nat) (key : Bytes) (accept : NodeId → Bool) :
    let ring := (empty seed digest).run history
    (ring.remove node).get? key accept =
        ring.get? key (fun other => accept other && decide (other ≠ node)) ∧
      ((ring.add node replicas).get? key accept = some node ∨
        (ring.add node replicas).get? key accept = ring.get? key accept) ∧
      (ring.contains node = false →
        ((ring.add node replicas).remove node).get? key accept = ring.get? key accept) := by
  intro ring
  have sound : ring.Sound := (sound_empty seed digest).run history
  have hash : ∀ {changed : Ring}, changed.digest = ring.digest →
      changed.keyHash key = ring.keyHash key := by
    intro changed same
    rw [keyHash, same, keyHash]
  refine ⟨?_, ?_, ?_⟩
  · rw [get?, hash (digest_remove ring node), sound.ownerAt?_remove, get?]
  · rw [get?, hash (digest_add ring node replicas), get?]
    exact sound.ownerAt?_add node replicas
  · intro absent
    have same : ((ring.add node replicas).remove node).digest = ring.digest := by simp
    rw [get?, hash same, ownerAt?, sound.places_remove_add absent, get?, ownerAt?]

/-- A node that lost a position to another one and went comes back and goes again. -/
theorem get?_of_change_of_return :
    let history : List RingCall := [.add (.ofNat 1) 3, .add (.ofNat 2) 3, .remove (.ofNat 2)]
    let ring := (empty "seed" fun bytes => some (bytes.length.toUInt32 % 2)).run history
    let key := Bytes.ofString "k"
    let accept : NodeId → Bool := fun node => node ≠ .ofNat 3
    ring.contains (.ofNat 2) = false ∧
      ((ring.add (.ofNat 2) 5).remove (.ofNat 2)).get? key accept = ring.get? key accept := by
  intro history ring key accept
  have absent : ring.contains (.ofNat 2) = false := contains_run _ _ _ _
  exact ⟨absent, (get?_of_change _ _ history (.ofNat 2) 5 key accept).2.2 absent⟩

/-! ## Rings with the same nodes -/

/-- What a node is placed with was asked for in a call. -/
theorem mem_of_placedWith {replicas : Nat} (placed : placedWith history node = some replicas) :
    RingCall.add node replicas ∈ history := by
  induction history using List.reverseRecOn generalizing replicas with
  | nil => cases placed
  | append_singleton earlier call ih =>
      rw [placedWith_concat] at placed
      rw [List.mem_append, List.mem_singleton]
      cases call with
      | add other count =>
          simp only [RingCall.placing] at placed
          split at placed
          · rename_i same
            rcases Option.or_eq_some_iff.1 placed with before | ⟨-, now⟩
            · exact .inl (ih before)
            · rw [Option.some.injEq] at now
              exact .inr (by rw [same, now])
          · exact .inl (ih placed)
      | remove other =>
          simp only [RingCall.placing] at placed
          split at placed
          · cases placed
          · exact .inl (ih placed)

theorem Apart.of_subset {others : List RingCall} (apart : ring.Apart history)
    (subset : others ⊆ history) : ring.Apart others :=
  fun call member other there => apart call (subset member) other (subset there)

/-- Nobody else owns a position that a new node asks for. -/
theorem Apart.free {node : NodeId} {replicas : Nat}
    (apart : ring.Apart (history ++ [.add node replicas])) (new : placedWith history node = none)
    {other : NodeId} {count : Nat} (placed : placedWith history other = some count)
    {position : UInt32} (claimed : position ∈ ring.wanted other count) :
    position ∉ ring.wanted node replicas := by
  have differs : other ≠ node := by
    rintro rfl
    rw [placed] at new
    cases new
  exact apart (.add other count) (List.mem_append_left _ (mem_of_placedWith placed))
    (.add node replicas) (List.mem_append_right _ (List.mem_singleton.2 rfl)) differs position
    claimed

/-- Unless two nodes ask for the same position, each node on a ring owns all the positions that it
was placed with. -/
theorem mem_places_run {seed : String} {digest : Digest}
    (apart : (empty seed digest).Apart history) :
    place ∈ ((empty seed digest).run history).places ↔ ∃ replicas,
      placedWith history place.owner = some replicas ∧
        place.position ∈ (empty seed digest).wanted place.owner replicas := by
  induction history using List.reverseRecOn generalizing place with
  | nil => simp [run, empty, placedWith]
  | append_singleton earlier call ih =>
      have ih := fun place => @ih place (apart.of_subset (List.subset_append_left _ _))
      have sound := (sound_empty seed digest).run earlier
      rw [run_concat, placedWith_concat]
      cases call with
      | add node replicas =>
          rw [perform, mem_places_add, sound.mem_winnable, wanted_run, contains_run, ih,
            RingCall.placing]
          by_cases own : node = place.owner
          · cases placed : placedWith earlier place.owner with
            | some count => simp [own, placed]
            | none =>
                have free : place.position ∈ (empty seed digest).wanted place.owner replicas →
                    ∀ other ∈ ((empty seed digest).run earlier).places,
                      other.position ≠ place.position := by
                  intro asked other taken same
                  obtain ⟨count, there, claimed⟩ := (ih other).1 taken
                  rw [own] at apart
                  exact apart.free placed there (same ▸ claimed) asked
                simpa [own, placed] using free
          · simp [own, Ne.symm own]
      | remove node =>
          rw [perform, sound.mem_places_remove, ih, RingCall.placing]
          by_cases own : node = place.owner
          · simp [own]
          · simp [own, Ne.symm own]

/-- Two rings on which each node was placed with the same number of replicas have the same places,
and each key belongs to the same node on both. -/
theorem same_of_placedWith {seed : String} {digest : Digest} {left right : List RingCall}
    (apart : (empty seed digest).Apart left) (apart' : (empty seed digest).Apart right)
    (placed : ∀ node, placedWith left node = placedWith right node) :
    ((empty seed digest).run left).places = ((empty seed digest).run right).places ∧
      ∀ key accept, ((empty seed digest).run left).get? key accept =
        ((empty seed digest).run right).get? key accept := by
  have places : ((empty seed digest).run left).places = ((empty seed digest).run right).places := by
    refine ((sound_empty seed digest).run left).places_eq ((sound_empty seed digest).run right) ?_
    intro place
    rw [mem_places_run apart, mem_places_run apart', placed]
  refine ⟨places, fun key accept => ?_⟩
  rw [get?, ownerAt?, places, keyHash_run, get?, ownerAt?, keyHash_run]

/-- If two rings end with the same nodes, each of them placed last with the same number of
replicas, then the same nodes own the same positions, and each key belongs to the same node on
both: in whatever order nodes came, went, came again and were ignored, as long as no two of them
ask for the same position. -/
theorem same_of_members {seed : String} {digest : Digest} {left right : List RingCall}
    (apart : (empty seed digest).Apart left) (apart' : (empty seed digest).Apart right)
    (members : ∀ node, ((empty seed digest).run left).contains node =
      ((empty seed digest).run right).contains node)
    (counts : ∀ node, ((empty seed digest).run left).contains node = true →
      placedWith left node = placedWith right node) :
    ((empty seed digest).run left).places = ((empty seed digest).run right).places ∧
      ∀ key accept, ((empty seed digest).run left).get? key accept =
        ((empty seed digest).run right).get? key accept := by
  refine same_of_placedWith apart apart' fun node => ?_
  cases there : ((empty seed digest).run left).contains node with
  | true => exact counts node there
  | false =>
      have here := members node
      rw [there, contains_run] at here
      rw [contains_run] at there
      rw [Option.isSome_eq_false_iff, Option.isNone_iff_eq_none] at there
      rw [there, Option.isNone_iff_eq_none.1 (Option.isSome_eq_false_iff.1 here.symm)]

/-- One ring saw a node leave and come again with fewer replicas and ignored calls to add nodes once
more; the other one saw the nodes in another order. Two replicas of a node ask for the same
position. -/
theorem same_of_members_of_return :
    let digest : Digest := fun bytes =>
      some (bytes.foldl (fun hash byte => 31 * hash + byte.toUInt32) 0 / 2)
    let left : List RingCall :=
      [.add (.ofNat 1) 5, .add (.ofNat 2) 3, .remove (.ofNat 1), .add (.ofNat 1) 4,
        .add (.ofNat 1) 9]
    let right : List RingCall :=
      [.add (.ofNat 1) 4, .add (.ofNat 3) 2, .add (.ofNat 2) 3, .remove (.ofNat 3),
        .add (.ofNat 2) 6]
    let ring := (empty "seed" digest).run left
    let other := (empty "seed" digest).run right
    (empty "seed" digest).Apart left ∧ (empty "seed" digest).Apart right ∧
      (∀ node, ring.contains node = other.contains node) ∧
      (∀ node, ring.contains node = true → placedWith left node = placedWith right node) ∧
      ring.contains (.ofNat 1) = true ∧ ring.contains (.ofNat 2) = true ∧
      ring.places = other.places ∧
      ∀ key accept, ring.get? key accept = other.get? key accept := by
  intro digest left right ring other
  have apart : (empty "seed" digest).Apart left := by decide +kernel
  have apart' : (empty "seed" digest).Apart right := by decide +kernel
  have placed : ∀ node, placedWith left node = placedWith right node := by
    intro node
    by_cases one : Uuid.ofNat 1 = node
    · subst one
      decide
    · by_cases two : Uuid.ofNat 2 = node
      · subst two
        decide
      · simp [placedWith, RingCall.placing, left, right, one, two]
  have members : ∀ node, ring.contains node = other.contains node := by
    intro node
    rw [contains_run, contains_run, placed]
  obtain ⟨places, owners⟩ := same_of_members apart apart' members fun node _ => placed node
  exact ⟨apart, apart', members, fun node _ => placed node, contains_run _ _ _ _,
    contains_run _ _ _ _, places, owners⟩

end Ring

end JobGrid
