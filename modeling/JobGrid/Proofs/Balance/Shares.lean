import JobGrid.Proofs.Balance.History
import JobGrid.Proofs.Balance.RingHistory

/-!
# The ring of an affinity balancer

An affinity balancer keeps a ring of the nodes that may take jobs. What the balancer was told of
the grid decides which nodes are on the ring and with how many replicas; what it was asked, and
what it was told of tasks, does not matter. A balancer that is built from the members of the
grid was told that each of them joined.
-/

namespace JobGrid

/-- A member is the one with its identity. -/
theorem Member.find?_of_mem {members : List Member} (distinct : (members.map Member.id).Nodup)
    {member : Member} (inside : member ∈ members) :
    (members.find? fun other => other.id = member.id) = some member := by
  cases found : members.find? fun other => other.id = member.id with
  | none => exact absurd (decide_eq_true rfl) (List.find?_eq_none.1 found member inside)
  | some other =>
      have same : other.id = member.id := by
        have holds := List.find?_some found
        exact of_decide_eq_true holds
      rw [List.inj_on_of_nodup_map distinct (List.mem_of_find?_eq_some found) inside same]

/-- What is told when some members join an empty grid. -/
def joinsOf (members : List Member) : List DiscoveryEvent :=
  members.map fun member => ⟨.joined, member⟩

namespace AffinityConfig

/-- A member, if the filter admits it. -/
def admitted? (config : AffinityConfig) (member : Member) : Option Member :=
  if config.nodeFilter.admits member then some member else none

/-- With how many replicas a member is placed, if the filter admits it. -/
def share? (config : AffinityConfig) (member : Member) : Option Nat :=
  (config.admitted? member).map AffinityBalancer.replicasOf

/-- What becomes of the ring when the balancer is told of a change in the grid. -/
def call? (config : AffinityConfig) (event : DiscoveryEvent) : Option RingCall :=
  match event.kind with
  | .joined => (config.share? event.member).map fun replicas => .add event.member.id replicas
  | .left | .failed => some (.remove event.member.id)
  | .metricsUpdated => none

/-- What becomes of the ring when the balancer is told of some changes. -/
def calls (config : AffinityConfig) (log : List DiscoveryEvent) : List RingCall :=
  log.filterMap config.call?

/-- As what a node is on the ring after an event. Of its joins the first one counts that the filter
admits, until the node goes. -/
def placing (config : AffinityConfig) (node : NodeId) (placed : Option Member)
    (event : DiscoveryEvent) : Option Member :=
  if event.member.id = node then
    match event.kind with
    | .joined => placed.or (config.admitted? event.member)
    | .left | .failed => none
    | .metricsUpdated => placed
  else placed

/-- As what a node is on the ring after some events, if it is there. -/
def placedAs (config : AffinityConfig) (log : List DiscoveryEvent) (node : NodeId) :
    Option Member :=
  log.foldl (config.placing node) none

variable (config : AffinityConfig)

theorem calls_concat (log : List DiscoveryEvent) (event : DiscoveryEvent) :
    config.calls (log ++ [event]) = config.calls log ++ (config.call? event).toList := by
  rw [calls, List.filterMap_append, ← calls]
  cases found : config.call? event with
  | none => simp [found]
  | some call => simp [found]

theorem run_calls_append (ring : Ring) (log later : List DiscoveryEvent) :
    ring.run (config.calls (log ++ later)) =
      (ring.run (config.calls log)).run (config.calls later) := by
  rw [calls, List.filterMap_append, Ring.run, List.foldl_append]
  rfl

theorem placedAs_concat (log : List DiscoveryEvent) (event : DiscoveryEvent) (node : NodeId) :
    config.placedAs (log ++ [event]) node =
      config.placing node (config.placedAs log node) event := by
  simp [placedAs]

/-- A node is placed with as many replicas as it asked for when it joined. -/
theorem placedWith_calls (log : List DiscoveryEvent) (node : NodeId) :
    placedWith (config.calls log) node =
      (config.placedAs log node).map AffinityBalancer.replicasOf := by
  induction log using List.reverseRecOn with
  | nil => rfl
  | append_singleton earlier event ih =>
      rw [placedAs_concat, calls_concat, call?, placing]
      cases event.kind with
      | joined =>
          cases shared : config.admitted? event.member with
          | none => simp [share?, shared, ih]
          | some member =>
              simp only [share?, shared, Option.map_some, Option.toList_some,
                Ring.placedWith_concat, RingCall.placing, ih]
              split
              · cases config.placedAs earlier node with
                | none => rfl
                | some placed => rfl
              · rfl
      | left =>
          simp only [Option.toList_some, Ring.placedWith_concat, RingCall.placing, ih]
          split
          · rfl
          · rfl
      | failed =>
          simp only [Option.toList_some, Ring.placedWith_concat, RingCall.placing, ih]
          split
          · rfl
          · rfl
      | metricsUpdated => simp [ih]

theorem of_admitted? {member other : Member} (admitted : config.admitted? member = some other) :
    other = member ∧ config.nodeFilter.admits member = true := by
  rw [admitted?, Option.ite_none_right_eq_some, Option.some.injEq] at admitted
  exact ⟨admitted.2.symm, admitted.1⟩

/-- A node is on the ring as itself. -/
theorem of_placedAs {log : List DiscoveryEvent} {node : NodeId} {member : Member}
    (placed : config.placedAs log node = some member) :
    member.id = node ∧ config.nodeFilter.admits member = true := by
  induction log using List.reverseRecOn with
  | nil => cases placed
  | append_singleton earlier event ih =>
      rw [placedAs_concat, placing] at placed
      split at placed
      · rename_i own
        split at placed
        · rcases Option.or_eq_some_iff.1 placed with before | ⟨-, now⟩
          · exact ih before
          · obtain ⟨rfl, admits⟩ := config.of_admitted? now
            exact ⟨own, admits⟩
        · cases placed
        · cases placed
        · exact ih placed
      · exact ih placed

/-- What the members of a grid are on the ring that is built from them. -/
theorem placedAs_joins (members : List Member) (distinct : (members.map Member.id).Nodup)
    (node : NodeId) :
    config.placedAs (joinsOf members) node =
      (members.find? fun member => member.id = node).bind config.admitted? := by
  induction members using List.reverseRecOn with
  | nil => rfl
  | append_singleton earlier last ih =>
      rw [List.map_append, List.nodup_append] at distinct
      rw [joinsOf, List.map_append, List.map_singleton, placedAs_concat, ← joinsOf,
        ih distinct.1, placing, List.find?_append]
      by_cases own : last.id = node
      · have absent : (earlier.find? fun member => member.id = node) = none := by
          rw [List.find?_eq_none]
          intro member inside same
          have known := List.mem_map_of_mem (f := Member.id) inside
          exact distinct.2.2 _ known _ (List.mem_singleton.2 rfl)
            ((of_decide_eq_true same).trans own.symm)
        simp [own, absent]
      · cases earlier.find? fun member => member.id = node with
        | none => simp [own]
        | some member => simp [own]

end AffinityConfig

namespace AffinityBalancer

variable {balancer next : AffinityBalancer}

theorem ring_of_pick {session : SessionId} {candidates : List Member} {key : Option String}
    {draw : Draw} {member : Member}
    (picked : balancer.pick session candidates key draw = .ok (member, next)) :
    next.config = balancer.config ∧ next.ring = balancer.ring := by
  cases Picked.of_pick picked with
  | keyless => exact ⟨rfl, rfl⟩
  | owned => exact ⟨rfl, rfl⟩
  | unowned => exact ⟨rfl, rfl⟩

theorem ring_onEvent (balancer : AffinityBalancer) (event : DiscoveryEvent) :
    (balancer.onEvent event).config = balancer.config ∧
      (balancer.onEvent event).ring = balancer.ring.run (balancer.config.calls [event]) := by
  simp only [onEvent, AffinityConfig.calls, AffinityConfig.call?, AffinityConfig.share?,
    AffinityConfig.admitted?, add, remove, List.filterMap_cons, List.filterMap_nil]
  cases event.kind with
  | joined =>
      cases balancer.config.nodeFilter.admits event.member with
      | true => exact ⟨rfl, rfl⟩
      | false => exact ⟨rfl, rfl⟩
  | left => exact ⟨rfl, rfl⟩
  | failed => exact ⟨rfl, rfl⟩
  | metricsUpdated => exact ⟨rfl, rfl⟩

theorem ring_onTask (balancer : AffinityBalancer) (event : TaskEvent) :
    (balancer.onTask event).config = balancer.config ∧
      (balancer.onTask event).ring = balancer.ring := by
  cases event with
  | mapped session => exact ⟨rfl, rfl⟩
  | finished session => exact ⟨rfl, rfl⟩
  | failed session => exact ⟨rfl, rfl⟩

end AffinityBalancer

/-- The change in the grid that a balancer is told of. -/
def BalancerCall.event? : BalancerCall → Option DiscoveryEvent
  | .event change => some change
  | .pick .. | .task _ => none

namespace Balancer

/-- A balancer places jobs by their key, has certain settings, and has a certain ring. -/
def HasRing (config : AffinityConfig) (ring : Ring) (balancer : Balancer) : Prop :=
  ∃ inner, balancer = .affinity inner ∧ inner.config = config ∧ inner.ring = ring

variable {config : AffinityConfig} {ring : Ring} {balancer : Balancer}

theorem HasRing.onEvent (has : balancer.HasRing config ring) (event : DiscoveryEvent) :
    (balancer.onEvent event).HasRing config (ring.run (config.calls [event])) := by
  obtain ⟨inner, rfl, rfl, rfl⟩ := has
  obtain ⟨settings, changed⟩ := inner.ring_onEvent event
  exact ⟨_, rfl, settings, changed⟩

theorem HasRing.perform (has : balancer.HasRing config ring) (call : BalancerCall) :
    (balancer.perform call).HasRing config (ring.run (config.calls call.event?.toList)) := by
  cases call with
  | pick session candidates spec draw =>
      obtain ⟨inner, rfl, rfl, rfl⟩ := has
      simp only [Balancer.perform]
      split
      · rename_i picked
        obtain ⟨found, chosen, equal⟩ := Result.map_eq_ok.1 picked
        cases equal
        obtain ⟨settings, same⟩ := AffinityBalancer.ring_of_pick chosen
        exact ⟨found.2, rfl, settings, same⟩
      · exact ⟨inner, rfl, rfl, rfl⟩
  | event event => exact has.onEvent event
  | task event =>
      obtain ⟨inner, rfl, rfl, rfl⟩ := has
      obtain ⟨settings, same⟩ := inner.ring_onTask event
      exact ⟨_, rfl, settings, same⟩

/-- The ring follows from what the balancer was told of the grid. -/
theorem HasRing.run (has : balancer.HasRing config ring) (history : List BalancerCall) :
    (balancer.run history).HasRing config
      (ring.run (config.calls (history.filterMap BalancerCall.event?))) := by
  induction history using List.reverseRecOn with
  | nil => exact has
  | append_singleton earlier call ih =>
      rw [run_append, List.filterMap_append, config.run_calls_append]
      have done := ih.perform call
      cases call with
      | pick session candidates spec draw => exact done
      | event event => exact done
      | task event => exact done

/-- With valid settings a balancer is built, and all members joined its ring. -/
theorem hasRing_of_build (valid : config.problem? = none) (members : List Member) :
    ∃ balancer, Balancer.build (.affinity config) members = .ok balancer ∧
      balancer.HasRing config ((Ring.empty config.seed Digest.md5).run
        (config.calls (joinsOf members))) := by
  have made : ofConfig (.affinity config) =
      .ok (.affinity { config, ring := .empty config.seed Digest.md5 }) := by
    simp only [ofConfig, AffinityBalancer.ofConfig, valid, checkConfig]
    rfl
  refine ⟨_, by rw [build, made, Except.map], ?_⟩
  induction members using List.reverseRecOn with
  | nil => exact ⟨_, rfl, rfl, rfl⟩
  | append_singleton earlier last ih =>
      rw [List.foldl_append, joinsOf, List.map_append, config.run_calls_append]
      exact ih.onEvent ⟨.joined, last⟩

/-- A ring gives each key to the node that it belongs to on the ring that is built from some
members. -/
def Serves (config : AffinityConfig) (ring : Ring) (members : List Member) : Prop :=
  ∃ fresh, Balancer.build (.affinity config) members = .ok (.affinity fresh) ∧
    ∀ key accept, ring.get? key accept = fresh.ring.get? key accept

/-- If the nodes on a ring are some members with their shares, then the ring is like one that is
built from them, unless two nodes ask for the same position. -/
theorem serves_of_shares (valid : config.problem? = none) {log : List DiscoveryEvent}
    {members : List Member} (distinct : (members.map Member.id).Nodup)
    (apart : (Ring.empty config.seed Digest.md5).Apart (config.calls log))
    (shares : ∀ node, placedWith (config.calls log) node =
      (members.find? fun member => member.id = node).bind config.share?) :
    Serves config ((Ring.empty config.seed Digest.md5).run (config.calls log)) members := by
  obtain ⟨built, made, fresh, rfl, -, ring⟩ := hasRing_of_build valid members
  have subset : config.calls (joinsOf members) ⊆ config.calls log := by
    intro call inside
    obtain ⟨event, told, called⟩ := List.mem_filterMap.1 inside
    obtain ⟨member, listed, rfl⟩ := List.mem_map.1 told
    obtain ⟨replicas, share, rfl⟩ := Option.map_eq_some_iff.1 called
    refine Ring.mem_of_placedWith ?_
    rw [shares, Member.find?_of_mem distinct listed, Option.bind_some, share]
  refine ⟨fresh, made, ?_⟩
  rw [ring]
  refine (Ring.same_of_placedWith apart (apart.of_subset subset) fun node => ?_).2
  rw [shares, config.placedWith_calls, config.placedAs_joins members distinct, Option.map_bind]
  rfl

end Balancer

end JobGrid
