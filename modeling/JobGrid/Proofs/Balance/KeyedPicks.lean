import JobGrid.Proofs.Balance.Mapped
import JobGrid.Proofs.Balance.Nearest
import JobGrid.Proofs.Balance.Routes
import JobGrid.Proofs.Balance.SessionHistory
import JobGrid.Proofs.Balance.Shares

/-!
# Picks by key

After any history, an affinity balancer gives a job with a key to the nearest owner on the ring
among the candidates that its session may use, and to any candidate only if none of those owns a
position. Which candidates a session may use follows from its own history. As long as they are
the same and so is the ring, a key always goes to the same node.
-/

namespace JobGrid

/-- What a balancer by key notes about a session when it is asked or told something. A pick without
a key or without candidates leaves no note. -/
def BalancerCall.sessionCall? : BalancerCall → Option (SessionCall (List NodeId))
  | .pick session candidates spec _ =>
      if spec.affinityKey.isSome ∧ candidates ≠ [] then
        some ⟨session, .store (candidates.map Member.id)⟩
      else none
  | .event _ => none
  | .task (.mapped session) => some ⟨session, .markMapped⟩
  | .task (.finished session) | .task (.failed session) => some ⟨session, .forget⟩

/-- The nodes that a session may use in a pick: the candidates of its first pick with a key since
its task ended last, unless it was mapped after that pick, and else the present candidates. -/
def usableNodes (history : List BalancerCall) (session : SessionId) (candidates : List Member) :
    List NodeId :=
  (standing (notesOf session (history.filterMap BalancerCall.sessionCall?))).getD
    (candidates.map Member.id)

namespace AffinityBalancer

variable {balancer next : AffinityBalancer} {session : SessionId} {candidates : List Member}

/-- Lets something be asked or told. A pick that fails changes nothing. -/
def perform (balancer : AffinityBalancer) : BalancerCall → AffinityBalancer
  | .pick session candidates spec draw =>
      match balancer.pick session candidates spec.affinityKey draw with
      | .ok (_, next) => next
      | .error _ => balancer
  | .event event => balancer.onEvent event
  | .task event => balancer.onTask event

/-- Lets some things be asked and told, one after another. -/
def run (balancer : AffinityBalancer) (history : List BalancerCall) : AffinityBalancer :=
  history.foldl perform balancer

theorem run_concat (balancer : AffinityBalancer) (history : List BalancerCall)
    (call : BalancerCall) :
    balancer.run (history ++ [call]) = (balancer.run history).perform call := by
  simp [run]

/-- The balancer of a node that places jobs by their key goes through the same history. -/
theorem affinity_run (balancer : AffinityBalancer) (history : List BalancerCall) :
    (Balancer.affinity balancer).run history = .affinity (balancer.run history) := by
  induction history generalizing balancer with
  | nil => rfl
  | cons call later ih =>
      have step : (Balancer.affinity balancer).perform call =
          .affinity (balancer.perform call) := by
        cases call with
        | pick session candidates spec draw =>
            simp only [Balancer.perform, Balancer.pick, perform]
            cases balancer.pick session candidates spec.affinityKey draw <;> rfl
        | event event => rfl
        | task event => rfl
      rw [Balancer.run_cons, step, ih]
      rfl

/-! ## What is remembered -/

/-- The nodes that a session may use are what its cache gives back for the candidates. -/
theorem allowedFor_eq_store (balancer : AffinityBalancer) (session : SessionId)
    (candidates : List Member) :
    balancer.allowedFor session candidates =
      balancer.tasks.store session (candidates.map Member.id) := by
  simp only [allowedFor, SessionCache.lookup, SessionCache.store]
  cases balancer.tasks.get? session with
  | none => rfl
  | some entry => cases entry <;> rfl

theorem tasks_of_pick {key : Option String} {draw : Draw} {member : Member}
    (picked : balancer.pick session candidates key draw = .ok (member, next)) :
    next.tasks =
      if key.isSome then (balancer.tasks.store session (candidates.map Member.id)).2
      else balancer.tasks := by
  rw [← allowedFor_eq_store]
  cases Picked.of_pick picked with
  | keyless => rfl
  | owned => rfl
  | unowned => rfl

theorem tasks_perform (balancer : AffinityBalancer) (call : BalancerCall) :
    (balancer.perform call).tasks = balancer.tasks.run call.sessionCall?.toList := by
  cases call with
  | pick session candidates spec draw =>
      by_cases none : candidates = []
      · subst none
        simp only [perform, BalancerCall.sessionCall?, ne_eq, not_true_eq_false, and_false,
          if_false]
        rfl
      · obtain ⟨⟨member, next⟩, picked⟩ := balancer.exists_pick session none spec.affinityKey draw
        simp only [perform, picked, tasks_of_pick picked, BalancerCall.sessionCall?, none, ne_eq,
          not_false_eq_true, and_true]
        split <;> rfl
  | event event =>
      simp only [perform, onEvent, add]
      split
      · split <;> rfl
      all_goals rfl
  | task event => cases event <;> rfl

/-- What is remembered follows from the notes in the history. -/
theorem tasks_run (balancer : AffinityBalancer) (history : List BalancerCall) :
    (balancer.run history).tasks =
      balancer.tasks.run (history.filterMap BalancerCall.sessionCall?) := by
  induction history using List.reverseRecOn with
  | nil => rfl
  | append_singleton earlier call ih =>
      rw [run_concat, tasks_perform, ih, List.filterMap_append, SessionCache.run, SessionCache.run,
        SessionCache.run, List.foldl_append]
      cases found : call.sessionCall? with
      | none => simp [found]
      | some note => simp [found]

/-- The nodes that a session may use are those of its first pick, or the present candidates. -/
theorem allowedFor_run {start : AffinityBalancer} (fresh : start.tasks = ∅)
    (history : List BalancerCall) (session : SessionId) (candidates : List Member) :
    ((start.run history).allowedFor session candidates).1 =
      usableNodes history session candidates := by
  rw [allowedFor_eq_store, SessionCache.fst_store, tasks_run, fresh, SessionCache.lookup_run,
    usableNodes]

/-- The ring follows from what the balancer was told of the grid. -/
theorem ring_run (balancer : AffinityBalancer) (history : List BalancerCall) :
    (balancer.run history).ring = balancer.ring.run
      (balancer.config.calls (history.filterMap BalancerCall.event?)) := by
  have has : (Balancer.affinity balancer).HasRing balancer.config balancer.ring :=
    ⟨balancer, rfl, rfl, rfl⟩
  obtain ⟨inner, same, -, ring⟩ := has.run history
  rw [affinity_run, Balancer.affinity.injEq] at same
  rw [same, ring]

theorem digest_run (balancer : AffinityBalancer) (history : List BalancerCall) :
    (balancer.run history).ring.digest = balancer.ring.digest := by
  rw [ring_run, Ring.digest_run]

theorem sound_run (balancer : AffinityBalancer) (sound : balancer.ring.Sound)
    (history : List BalancerCall) : (balancer.run history).ring.Sound := by
  rw [ring_run]
  exact sound.run _

/-! ## Whom a key belongs to -/

/-- The nodes that a key may belong to: candidates that the session may use. -/
def Fits (allowed : List NodeId) (candidates : List Member) (node : NodeId) : Prop :=
  node ∈ allowed ∧ node ∈ candidates.map Member.id

/-- A pick with a key comes to a member: the candidate that owns the nearest position, or the one
that is drawn if none owns a position. -/
structure Chooses (balancer : AffinityBalancer) (allowed : List NodeId) (candidates : List Member)
    (key : String) (draw : Draw) (member : Member) : Prop where
  nearest : (∃ node position, balancer.ring.Owns node position ∧ Fits allowed candidates node) →
    balancer.ring.Nearest (balancer.ring.keyHash (Bytes.ofString key)) (Fits allowed candidates)
        member.id ∧
      candidates.find? (fun candidate => candidate.id = member.id) = some member
  drawn : (∀ node position, balancer.ring.Owns node position → ¬ Fits allowed candidates node) →
    candidates[draw.index % candidates.length]? = some member

section Owner

variable {allowed : List NodeId} {key : String} {member : Member} {draw : Draw}

theorem accepts_iff {node : NodeId} :
    (allowed.contains node && candidates.any fun candidate => candidate.id = node) = true ↔
      Fits allowed candidates node := by
  simp [Fits]

theorem nearest_of_ownerOf? (sound : balancer.ring.Sound)
    (owner : balancer.ownerOf? allowed candidates key = some member) :
    balancer.ring.Nearest (balancer.ring.keyHash (Bytes.ofString key)) (Fits allowed candidates)
        member.id ∧
      candidates.find? (fun candidate => candidate.id = member.id) = some member := by
  obtain ⟨node, found, first⟩ := Option.bind_eq_some_iff.1 owner
  have same : member.id = node := by simpa using List.find?_some first
  subst same
  have nearest := sound.ownerAt?_eq_nearest.1 found
  exact ⟨nearest.congr (fun _ _ => .rfl) fun _ => accepts_iff.symm, first⟩

/-- Without an owner among them, no candidate that may be used owns a position. -/
theorem not_fits_of_ownerOf? (sound : balancer.ring.Sound)
    (owner : balancer.ownerOf? allowed candidates key = none) {node : NodeId} {position : UInt32}
    (owns : balancer.ring.Owns node position) : ¬ Fits allowed candidates node := by
  intro fits
  rw [ownerOf?, Option.bind_eq_none_iff] at owner
  cases found : balancer.ring.get? (Bytes.ofString key) (fun node =>
      allowed.contains node && candidates.any fun candidate => candidate.id = node) with
  | none =>
      have refused := sound.ownerAt?_eq_none.1 found node position owns
      rw [accepts_iff.2 fits] at refused
      cases refused
  | some one =>
      -- The owner is a candidate, so that it is found among them.
      obtain ⟨-, -, accepted, -⟩ := sound.ownerAt?_eq_nearest.1 found
      obtain ⟨candidate, inside, same⟩ := List.mem_map.1 (accepts_iff.1 accepted).2
      have missing := List.find?_eq_none.1 (owner one found) candidate inside
      exact missing (decide_eq_true same)

/-- With candidates, a pick with a key comes to one of them. -/
theorem exists_chooses (sound : balancer.ring.Sound) (filled : candidates ≠ [])
    (allows : (balancer.allowedFor session candidates).1 = allowed) (key : String) (draw : Draw) :
    ∃ member next, balancer.pick session candidates (some key) draw = .ok (member, next) ∧
      balancer.Chooses allowed candidates key draw member := by
  obtain ⟨⟨member, next⟩, picked⟩ := balancer.exists_pick session filled (some key) draw
  refine ⟨member, next, picked, ?_⟩
  have decided := balancer.member_pick session candidates (some key) draw
  rw [picked, if_neg (by simpa using filled), Option.bind_some, allows] at decided
  cases owner : balancer.ownerOf? allowed candidates key with
  | some one =>
      rw [owner] at decided
      cases decided
      have nearest := nearest_of_ownerOf? sound owner
      obtain ⟨position, owns, fits, -⟩ := nearest.1
      exact ⟨fun _ => nearest, fun none => absurd fits (none _ position owns)⟩
  | none =>
      simp only [owner, anyOf] at decided
      refine ⟨?_, fun _ => ?_⟩
      · rintro ⟨node, position, owns, fits⟩
        exact absurd fits (not_fits_of_ownerOf? sound owner owns)
      · split at decided
        · rename_i found there
          cases decided
          exact there
        · cases decided

/-- Where the same nodes own the same positions and the candidates are the same, in any order, a
key goes to the same node as long as one of them owns a position. -/
theorem id_eq_of_chooses {other : AffinityBalancer} {usable : List NodeId}
    {others : List Member} {drawn : Draw} {chosen : Member}
    (chooses : balancer.Chooses allowed candidates key draw member)
    (chooses' : other.Chooses usable others key drawn chosen)
    (digest : other.ring.digest = balancer.ring.digest)
    (owns : ∀ node position, other.ring.Owns node position ↔ balancer.ring.Owns node position)
    (same : ∀ node, Fits usable others node ↔ Fits allowed candidates node)
    (some : ∃ node position, balancer.ring.Owns node position ∧ Fits allowed candidates node) :
    chosen.id = member.id := by
  obtain ⟨node, position, own, fits⟩ := some
  have nearest := (chooses.nearest ⟨node, position, own, fits⟩).1
  have there : ∃ node position, other.ring.Owns node position ∧ Fits usable others node :=
    ⟨node, position, (owns node position).2 own, (same node).2 fits⟩
  have nearest' := (chooses'.nearest there).1
  rw [Ring.keyHash, digest, ← Ring.keyHash] at nearest'
  exact nearest'.eq (nearest.congr owns same)

end Owner

/-- A session keeps to some candidates: those of its first pick are the same set, unless they do
not matter any more. -/
def KeepsTo (history : List BalancerCall) (session : SessionId) (candidates : List Member) : Prop :=
  ∀ node, node ∈ usableNodes history session candidates ↔ node ∈ candidates.map Member.id

/-- After any history a pick with a key finds the nearest owner on the ring among the candidates
that are usable for the session, and draws one of all candidates only if no usable one owns a
position. So a key goes to the same node in every other pick, after any other history, for any
session and in any order of the candidates, as long as the same nodes own the same positions, the
candidates are the same, both sessions keep to them, and one of them owns a position. -/
theorem pick_keyed {config : AffinityConfig} {digest : Digest} {start : AffinityBalancer}
    (made : ofConfig config digest = .ok start) (history : List BalancerCall) (session : SessionId)
    {candidates : List Member} (filled : candidates ≠ []) (key : String) (draw : Draw) :
    let reached := start.run history
    ∃ member next, reached.pick session candidates (some key) draw = .ok (member, next) ∧
      reached.Chooses (usableNodes history session candidates) candidates key draw member ∧
      (KeepsTo history session candidates →
        (∃ node position, reached.ring.Owns node position ∧ node ∈ candidates.map Member.id) →
        ∀ (history' : List BalancerCall) (session' : SessionId) (candidates' : List Member)
          (draw' : Draw),
          (∀ node position, (start.run history').ring.Owns node position ↔
            reached.ring.Owns node position) →
          (∀ node, node ∈ candidates'.map Member.id ↔ node ∈ candidates.map Member.id) →
          KeepsTo history' session' candidates' →
          ∃ member' next', (start.run history').pick session' candidates' (some key) draw' =
              .ok (member', next') ∧
            member'.id = member.id) := by
  intro reached
  obtain ⟨-, -, rfl⟩ := Result.map_eq_ok.1 made
  have sound := fun history => sound_run { config, ring := .empty config.seed digest }
    (Ring.sound_empty _ _) history
  obtain ⟨member, next, picked, chooses⟩ := exists_chooses (sound history) filled
    (allowedFor_run rfl history session candidates) key draw
  refine ⟨member, next, picked, chooses, ?_⟩
  rintro keeps ⟨node, position, owns, inside⟩ history' session' candidates' draw' same members
    keeps'
  obtain ⟨other, there, -⟩ := List.mem_map.1 ((members node).2 inside)
  have filled' : candidates' ≠ [] := List.ne_nil_of_mem there
  obtain ⟨member', next', picked', chooses'⟩ := exists_chooses (sound history') filled'
    (allowedFor_run rfl history' session' candidates') key draw'
  refine ⟨member', next', picked', id_eq_of_chooses chooses chooses' ?_ same ?_ ?_⟩
  · rw [digest_run, digest_run]
  · intro node
    simp only [Fits, keeps node, keeps' node, members node]
  · exact ⟨node, position, owns, (keeps node).2 inside, inside⟩

/-- The first pick of a session saw one member only. Another session was mapped since and a job
without a key was placed, so that the session keeps to that member when both are candidates. -/
theorem pick_keyed_of_first :
    let config : AffinityConfig := {}
    let digest : Digest := fun bytes => some (bytes.foldl (fun sum byte => sum + byte.toUInt32) 0)
    let start : AffinityBalancer := { config, ring := .empty config.seed digest }
    let one : Member :=
      { id := .ofNat 1, attributes := .ofList [(AttributeName.replicas, .int 1)] }
    let two : Member :=
      { id := .ofNat 2, attributes := .ofList [(AttributeName.replicas, .int 1)] }
    let session : SessionId := .ofNat 5
    let history : List BalancerCall := [
      .event ⟨.joined, one⟩, .event ⟨.joined, two⟩,
      .pick session [two] { id := .ofNat 7, affinityKey := some "k" } default,
      .task (.mapped (.ofNat 6)), .pick session [one] { id := .ofNat 8 } default]
    let reached := start.run history
    ofConfig config digest = .ok start ∧ [one, two] ≠ [] ∧
      usableNodes history session [one, two] = [two.id] ∧
      ∃ member next, reached.pick session [one, two] (some "k") default = .ok (member, next) ∧
        member.id = two.id ∧
        reached.Chooses (usableNodes history session [one, two]) [one, two] "k" default member := by
  intro config digest start one two session history reached
  have made : ofConfig config digest = .ok start := rfl
  have filled : [one, two] ≠ [] := List.cons_ne_nil _ _
  have usable : usableNodes history session [one, two] = [two.id] := rfl
  obtain ⟨member, next, picked, chooses, -⟩ := pick_keyed made history session filled "k" default
  refine ⟨made, filled, usable, member, next, picked, ?_, chooses⟩
  -- Both members are on the ring, so that the one that the session may use is nearest.
  let joins : List RingCall := [.add one.id 1, .add two.id 1]
  have owns : ∃ position, reached.ring.Owns two.id position := by
    have first : config.share? one = some 1 := by decide +kernel
    have second : config.share? two = some 1 := by decide +kernel
    have calls : config.calls (history.filterMap BalancerCall.event?) = joins := by
      simp [AffinityConfig.calls, AffinityConfig.call?, BalancerCall.event?, history, joins, first,
        second]
    have apart : (Ring.empty config.seed digest).Apart joins := by decide +kernel
    have asks : ∀ ring : Ring, ∃ position, position ∈ ring.wanted two.id 1 :=
      fun ring => ⟨_, List.mem_map_of_mem (List.mem_range.2 Nat.one_pos)⟩
    obtain ⟨position, asked⟩ := asks (.empty config.seed digest)
    refine ⟨position, ?_⟩
    rw [ring_run, calls, ((Ring.sound_empty _ _).run joins).owns_iff, Ring.mem_places_run apart]
    exact ⟨1, rfl, asked⟩
  obtain ⟨position, own⟩ := owns
  have fits : Fits (usableNodes history session [one, two]) [one, two] two.id := by
    rw [usable]
    exact ⟨List.mem_singleton.2 rfl, by simp⟩
  obtain ⟨-, -, ⟨inside, -⟩, -⟩ := (chooses.nearest ⟨two.id, position, own, fits⟩).1
  rw [usable] at inside
  exact List.mem_singleton.1 inside

end AffinityBalancer

end JobGrid
