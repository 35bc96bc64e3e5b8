import JobGrid.Proofs.Balance.Shares
import JobGrid.Proofs.Grid.Peers

/-!
# Affinity rings and the members of a grid

This module compares the ring of an affinity balancer that was told of the changes of a grid with
the members of that grid. A member is on the ring as it was when it joined: as what it joins again
does not matter. As long as no member asks for another share when it joins again, the ring is like
one that is built from the members at present.
-/

namespace JobGrid

/-- Who is known under an identity after an event. -/
def DiscoveryEvent.knowing (node : NodeId) (known : Option Member) (event : DiscoveryEvent) :
    Option Member :=
  if event.member.id = node then
    if event.kind.isDeparture then none else some event.member
  else known

/-- What the log tells of something that happens. -/
def PeerAct.news? (cluster : Cluster) : PeerAct → Option DiscoveryEvent
  | join member => some ⟨.joined, member⟩
  | leave node => (cluster.find? node).map fun member => ⟨.left, member⟩
  | fail node => (cluster.find? node).map fun member => ⟨.failed, member⟩
  | update node metrics =>
      (cluster.find? node).map fun member => ⟨.metricsUpdated, { member with metrics }⟩
  | send .. | receive _ | close _ => none

namespace Cluster

variable {cluster : Cluster}

/-- What the log tells of some things that happen, one after another. -/
def news (cluster : Cluster) : List PeerAct → List DiscoveryEvent
  | [] => []
  | act :: rest => (act.news? cluster).toList ++ news (act.apply cluster) rest

/-- The log tells what happens to the members, none of which has the identity of another one. -/
structure AsTold (news? : Option DiscoveryEvent) (before after : Cluster) : Prop where
  events : after.events.toList = before.events.toList ++ news?.toList
  found : ∀ node, after.find? node =
    news?.toList.foldl (DiscoveryEvent.knowing node) (before.find? node)
  distinct : (before.members.map Member.id).Nodup → (after.members.map Member.id).Nodup

theorem id_of_find? {node : NodeId} {member : Member} (found : cluster.find? node = some member) :
    member.id = node := by
  have holds := List.find?_some found
  exact of_decide_eq_true holds

theorem find?_filter (node gone : NodeId) (members : List Member) :
    ((members.filter fun member => member.id ≠ gone).find? fun member => member.id = node) =
      if gone = node then none else members.find? fun member => member.id = node := by
  rw [List.find?_filter]
  split
  · rename_i same
    simp [same]
  · rename_i differs
    congr 1
    funext member
    by_cases own : member.id = node
    · simp [own, Ne.symm differs]
    · simp [own]

namespace AsTold

theorem of_sameMembers {before after : Cluster} (same : before.SameMembers after) :
    AsTold none before after where
  events := by simp [same.events]
  found := same.find?_eq
  distinct := by simp [same.members]

theorem join (cluster : Cluster) (member : Member) :
    AsTold (some ⟨.joined, member⟩) cluster (cluster.join member) where
  events := by simp [Cluster.join, publish]
  found node := by
    simp only [find?, Cluster.join, publish, List.find?_append, find?_filter, Option.toList_some,
      List.foldl_cons, List.foldl_nil, DiscoveryEvent.knowing]
    by_cases own : member.id = node
    · simp [own, EventKind.isDeparture]
    · simp [own]
  distinct distinct := by
    simp only [Cluster.join, publish, List.map_append, List.map_singleton]
    rw [← List.concat_eq_append, List.nodup_concat]
    refine ⟨?_, distinct.sublist (List.filter_sublist.map _)⟩
    simp

theorem remove (cluster : Cluster) {kind : EventKind} (departure : kind.isDeparture = true)
    (gone : NodeId) :
    AsTold ((cluster.find? gone).map fun member => ⟨kind, member⟩) cluster
      (cluster.remove kind gone) := by
  cases known : cluster.find? gone with
  | none =>
      simp only [Cluster.remove, known]
      exact ⟨by simp, fun _ => rfl, id⟩
  | some member =>
      simp only [Cluster.remove, known]
      refine ⟨by simp [publish], ?_, ?_⟩
      · intro node
        simp only [find?, publish, find?_filter, Option.map_some, Option.toList_some,
          List.foldl_cons, List.foldl_nil, DiscoveryEvent.knowing, departure, if_true,
          id_of_find? known]
      · exact fun distinct => distinct.sublist (List.filter_sublist.map _)

theorem update {cluster next : Cluster} {node : NodeId} {metrics : Metrics}
    (updated : cluster.updateMetrics node metrics = .ok next) :
    AsTold ((cluster.find? node).map fun member => ⟨.metricsUpdated, { member with metrics }⟩)
      cluster next := by
  simp only [updateMetrics] at updated
  split at updated
  · cases updated
  · rename_i member known
    cases updated
    have same : ∀ other : Member,
        (if other.id = node then { other with metrics } else other).id = other.id := by
      intro other
      split
      · rfl
      · rfl
    rw [known]
    refine ⟨by simp [publish], ?_, ?_⟩
    · intro other
      simp only [find?, publish, List.find?_map, Function.comp_def, same, Option.map_some,
        Option.toList_some, List.foldl_cons, List.foldl_nil, DiscoveryEvent.knowing,
        id_of_find? known]
      split
      · rename_i own
        subst own
        have found : (cluster.members.find? fun member => member.id = node) = some member := known
        simp [found, id_of_find? known, EventKind.isDeparture]
      · rename_i differs
        cases found : cluster.members.find? fun member => member.id = other with
        | none => rfl
        | some stays =>
            have id : stays.id = other := id_of_find? found
            simp [id, Ne.symm differs]
    · simp only [publish, List.map_map, Function.comp_def, same]
      exact fun distinct => distinct

/-- Whatever happens, the log tells of it. -/
theorem apply (cluster : Cluster) (act : PeerAct) :
    AsTold (act.news? cluster) cluster (act.apply cluster) := by
  cases act with
  | join member => exact join cluster member
  | leave node => exact remove cluster rfl node
  | fail node => exact remove cluster rfl node
  | update node metrics =>
      simp only [PeerAct.apply]
      split
      · rename_i next updated
        exact update updated
      · rename_i refused
        have unknown : cluster.find? node = none := by
          simp only [updateMetrics] at refused
          split at refused
          · assumption
          · cases refused
        rw [PeerAct.news?, unknown]
        exact of_sameMembers (.refl cluster)
  | send sender receiver topic payload =>
      exact of_sameMembers (sameMembers_send cluster sender receiver topic payload)
  | receive inbox => exact of_sameMembers (sameMembers_receive cluster inbox)
  | close inbox => exact of_sameMembers (sameMembers_setMailbox _ _ _)

end AsTold

theorem events_foldl (cluster : Cluster) (acts : List PeerAct) :
    (acts.foldl PeerAct.apply cluster).events.toList =
      cluster.events.toList ++ cluster.news acts := by
  induction acts generalizing cluster with
  | nil => simp [news]
  | cons act rest ih =>
      rw [List.foldl_cons, ih, (AsTold.apply cluster act).events, news, List.append_assoc]

theorem distinct_foldl (distinct : (cluster.members.map Member.id).Nodup) (acts : List PeerAct) :
    ((acts.foldl PeerAct.apply cluster).members.map Member.id).Nodup := by
  induction acts generalizing cluster with
  | nil => exact distinct
  | cons act rest ih => exact ih ((AsTold.apply cluster act).distinct distinct)

end Cluster

namespace AffinityConfig

variable (config : AffinityConfig) {cluster : Cluster} {log : List DiscoveryEvent}
  {node : NodeId} {known placed : Option Member} {event : DiscoveryEvent}

/-! ## Who is on the ring -/

theorem isSome_placing (member : placed.isSome = true → known.isSome = true)
    (standing : (config.placing node placed event).isSome = true) :
    (event.knowing node known).isSome = true := by
  rw [placing] at standing
  rw [DiscoveryEvent.knowing]
  by_cases own : event.member.id = node
  · rw [if_pos own] at standing ⊢
    cases kind : event.kind with
    | joined => rfl
    | left => simp [kind] at standing
    | failed => simp [kind] at standing
    | metricsUpdated => rfl
  · rw [if_neg own] at standing ⊢
    exact member standing

/-- Only members are on the ring. -/
def Inside (cluster : Cluster) (log : List DiscoveryEvent) : Prop :=
  ∀ node, (config.placedAs log node).isSome = true → (cluster.find? node).isSome = true

theorem inside_foldl (inside : config.Inside cluster log) (acts : List PeerAct) :
    config.Inside (acts.foldl PeerAct.apply cluster) (log ++ cluster.news acts) := by
  induction acts generalizing cluster log with
  | nil => rwa [Cluster.news, List.append_nil]
  | cons act rest ih =>
      rw [Cluster.news, ← List.append_assoc]
      refine ih fun node standing => ?_
      rw [(Cluster.AsTold.apply cluster act).found]
      cases told : act.news? cluster with
      | none =>
          rw [told, Option.toList_none, List.append_nil] at standing
          exact inside node standing
      | some event =>
          rw [told, Option.toList_some, placedAs_concat] at standing
          exact config.isSome_placing (inside node) standing

/-! ## Shares that do not change -/

theorem share?_congr {left right : Member} (same : left.attributes = right.attributes) :
    config.share? left = config.share? right := by
  have admits : config.nodeFilter.admits left = config.nodeFilter.admits right := by
    simp only [AttributeFilter.admits, Member.attribute?, same]
  have replicas : AffinityBalancer.replicasOf left = AffinityBalancer.replicasOf right := by
    simp only [AffinityBalancer.replicasOf, Member.attribute?, same]
  rw [share?, admitted?, admits, share?, admitted?]
  split
  · rw [Option.map_some, Option.map_some, replicas]
  · rfl

/-- An event does not change the share of somebody who is known. -/
def Fits (known : Option Member) (event : DiscoveryEvent) : Prop :=
  event.kind.isDeparture = true ∨ event.kind = .joined ∧ known = none ∨
    ∃ old, known = some old ∧ config.share? event.member = config.share? old

theorem shares_placing (fits : event.member.id = node → config.Fits known event)
    (share : placed.map AffinityBalancer.replicasOf = known.bind config.share?) :
    (config.placing node placed event).map AffinityBalancer.replicasOf =
      (event.knowing node known).bind config.share? := by
  rw [placing, DiscoveryEvent.knowing]
  by_cases own : event.member.id = node
  · rw [if_pos own, if_pos own]
    cases kind : event.kind with
    | left => rfl
    | failed => rfl
    | joined =>
        cases placed with
        | none => rfl
        | some standing =>
            rcases fits own with departs | ⟨-, rfl⟩ | ⟨old, rfl, same⟩
            · simp [kind, EventKind.isDeparture] at departs
            · cases share
            · exact share.trans same.symm
    | metricsUpdated =>
        rcases fits own with departs | ⟨joins, -⟩ | ⟨old, rfl, same⟩
        · simp [kind, EventKind.isDeparture] at departs
        · rw [kind] at joins
          cases joins
        · exact share.trans same.symm
  · rw [if_neg own, if_neg own]
    exact share

/-- Nobody asks for another share by joining again while being a member. -/
def Steady (cluster : Cluster) (acts : List PeerAct) : Prop :=
  ∀ past member future, acts = past ++ .join member :: future →
    ∀ old, (past.foldl PeerAct.apply cluster).find? member.id = some old →
      config.share? member = config.share? old

/-- All members are on the ring with the share that they ask for at present. -/
def Current (cluster : Cluster) (log : List DiscoveryEvent) : Prop :=
  ∀ node, (config.placedAs log node).map AffinityBalancer.replicasOf =
    (cluster.find? node).bind config.share?

theorem fits_of_steady {act : PeerAct} {rest : List PeerAct}
    (steady : config.Steady cluster (act :: rest)) (told : act.news? cluster = some event) :
    config.Fits (cluster.find? event.member.id) event := by
  cases act with
  | join member =>
      cases told
      cases known : cluster.find? member.id with
      | none => exact .inr (.inl ⟨rfl, rfl⟩)
      | some old => exact .inr (.inr ⟨old, rfl, steady [] member rest rfl old known⟩)
  | leave node =>
      obtain ⟨member, -, rfl⟩ := Option.map_eq_some_iff.1 told
      exact .inl rfl
  | fail node =>
      obtain ⟨member, -, rfl⟩ := Option.map_eq_some_iff.1 told
      exact .inl rfl
  | update node metrics =>
      obtain ⟨member, known, rfl⟩ := Option.map_eq_some_iff.1 told
      refine .inr (.inr ⟨member, ?_, config.share?_congr rfl⟩)
      rwa [Cluster.id_of_find? known]
  | send sender receiver topic payload => cases told
  | receive inbox => cases told
  | close inbox => cases told

theorem current_foldl (current : config.Current cluster log) {acts : List PeerAct}
    (steady : config.Steady cluster acts) :
    config.Current (acts.foldl PeerAct.apply cluster) (log ++ cluster.news acts) := by
  induction acts generalizing cluster log with
  | nil => rwa [Cluster.news, List.append_nil]
  | cons act rest ih =>
      rw [Cluster.news, ← List.append_assoc]
      refine ih (fun node => ?_) fun past member future split old found => ?_
      · rw [(Cluster.AsTold.apply cluster act).found]
        cases told : act.news? cluster with
        | none =>
            rw [Option.toList_none, List.append_nil]
            exact current node
        | some event =>
            rw [Option.toList_some, placedAs_concat]
            refine config.shares_placing ?_ (current node)
            rintro rfl
            exact config.fits_of_steady steady told
      · exact steady (act :: past) member future (by rw [split, List.cons_append]) old found

/-! ## The members on the ring -/

/-- The members on the ring, each of them as it was when it came there. -/
def onRing (cluster : Cluster) (log : List DiscoveryEvent) : List Member :=
  cluster.members.filterMap fun member => config.placedAs log member.id

theorem mem_onRing (inside : config.Inside cluster log) {member : Member} :
    member ∈ config.onRing cluster log ↔ config.placedAs log member.id = some member := by
  rw [onRing, List.mem_filterMap]
  constructor
  · rintro ⟨other, -, placed⟩
    rwa [(config.of_placedAs placed).1]
  · intro placed
    obtain ⟨other, found⟩ := Option.isSome_iff_exists.1 (inside member.id (by rw [placed]; rfl))
    refine ⟨other, List.mem_of_find?_eq_some found, ?_⟩
    rwa [Cluster.id_of_find? found]

theorem distinct_onRing (distinct : (cluster.members.map Member.id).Nodup)
    (log : List DiscoveryEvent) : ((config.onRing cluster log).map Member.id).Nodup := by
  refine List.pairwise_map.2 (List.Pairwise.filterMap _ ?_ (List.pairwise_map.1 distinct))
  intro one two differs left first right second
  rwa [(config.of_placedAs first).1, (config.of_placedAs second).1]

theorem find?_onRing (distinct : (cluster.members.map Member.id).Nodup)
    (inside : config.Inside cluster log) (node : NodeId) :
    ((config.onRing cluster log).find? fun member => member.id = node) =
      config.placedAs log node := by
  cases placed : config.placedAs log node with
  | none =>
      rw [List.find?_eq_none]
      intro member standing same
      rw [mem_onRing config inside, of_decide_eq_true same, placed] at standing
      cases standing
  | some member =>
      have own := (config.of_placedAs placed).1
      rw [← own]
      refine Member.find?_of_mem (config.distinct_onRing distinct log) ?_
      rwa [mem_onRing config inside, own]

theorem inside_joins (distinct : (cluster.members.map Member.id).Nodup) :
    config.Inside cluster (joinsOf cluster.members) := by
  intro node standing
  rw [config.placedAs_joins _ distinct] at standing
  obtain ⟨member, placed⟩ := Option.isSome_iff_exists.1 standing
  obtain ⟨known, found, -⟩ := Option.bind_eq_some_iff.1 placed
  exact Option.isSome_iff_exists.2 ⟨known, found⟩

theorem current_joins (distinct : (cluster.members.map Member.id).Nodup) :
    config.Current cluster (joinsOf cluster.members) := by
  intro node
  rw [config.placedAs_joins _ distinct, Option.map_bind]
  rfl

theorem exists_onRing_iff (inside : config.Inside cluster log) (node : NodeId) :
    (∃ member ∈ config.onRing cluster log, member.id = node) ↔
      (config.placedAs log node).isSome = true := by
  rw [Option.isSome_iff_exists]
  constructor
  · rintro ⟨member, standing, rfl⟩
    exact ⟨member, (config.mem_onRing inside).1 standing⟩
  · rintro ⟨member, placed⟩
    have own := (config.of_placedAs placed).1
    exact ⟨member, (config.mem_onRing inside).2 (own.symm ▸ placed), own⟩

/-- Who is on the ring is there with its share. -/
theorem bind_placedAs (log : List DiscoveryEvent) (node : NodeId) :
    (config.placedAs log node).bind config.share? =
      (config.placedAs log node).map AffinityBalancer.replicasOf := by
  cases placed : config.placedAs log node with
  | none => rfl
  | some member =>
      rw [Option.bind_some, share?, admitted?, if_pos (config.of_placedAs placed).2]

theorem exists_member_iff (distinct : (cluster.members.map Member.id).Nodup) (node : NodeId) :
    ((cluster.find? node).bind config.share?).isSome = true ↔
      ∃ member ∈ cluster.members, member.id = node ∧
        config.nodeFilter.admits member = true := by
  constructor
  · intro shared
    obtain ⟨replicas, found⟩ := Option.isSome_iff_exists.1 shared
    obtain ⟨member, known, share⟩ := Option.bind_eq_some_iff.1 found
    obtain ⟨other, admitted, -⟩ := Option.map_eq_some_iff.1 share
    exact ⟨member, List.mem_of_find?_eq_some known, Cluster.id_of_find? known,
      (config.of_admitted? admitted).2⟩
  · rintro ⟨member, listed, rfl, admits⟩
    rw [Cluster.find?, Member.find?_of_mem distinct listed, Option.bind_some, share?, admitted?,
      if_pos admits]
    rfl

/-- A balancer is built from the members of a grid and told of everything that happens from then
on, between its picks. Then on its ring are the members one of whose joins the filter admitted
since they came, and unless two nodes ask for the same position, the ring gives each key to the
node that it belongs to on the ring built from these members as they were at that join. If nobody
asks for another share by joining again while being a member, then on the ring are the members
that the filter admits at present, and the ring gives each key to the node that it belongs to on
the ring built from the members at present. -/
theorem ring_follows_members (valid : config.problem? = none) (capacity : Nat)
    (earlier later : List PeerAct) (calls : List BalancerCall) :
    let before := earlier.foldl PeerAct.apply (.empty capacity)
    let after := later.foldl PeerAct.apply before
    let news := calls.filterMap BalancerCall.event?
    let log := joinsOf before.members ++ news
    let apart := (Ring.empty config.seed Digest.md5).Apart (config.calls log)
    after.events.toList = before.events.toList ++ news →
    ∃ start inner, Balancer.build (.affinity config) before.members = .ok start ∧
      start.run calls = .affinity inner ∧
      (∀ node, inner.ring.contains node = true ↔
        ∃ member ∈ config.onRing after log, member.id = node) ∧
      (apart → Balancer.Serves config inner.ring (config.onRing after log)) ∧
      (config.Steady before later →
        (∀ node, inner.ring.contains node = true ↔
          ∃ member ∈ after.members, member.id = node ∧
            config.nodeFilter.admits member = true) ∧
        (apart → Balancer.Serves config inner.ring after.members)) := by
  intro before after news log apart told
  have empty : ((Cluster.empty capacity).members.map Member.id).Nodup := List.nodup_nil
  have distinct : (before.members.map Member.id).Nodup := Cluster.distinct_foldl empty earlier
  have distinct' : (after.members.map Member.id).Nodup := Cluster.distinct_foldl distinct later
  have same : news = before.news later := by
    have grown := Cluster.events_foldl before later
    exact List.append_cancel_left (told.symm.trans grown)
  have inside : config.Inside after log := by
    rw [show log = joinsOf before.members ++ before.news later from same ▸ rfl]
    exact config.inside_foldl (config.inside_joins distinct) later
  obtain ⟨start, made, has⟩ := Balancer.hasRing_of_build valid before.members
  obtain ⟨inner, ran, -, ring⟩ := has.run calls
  rw [← config.run_calls_append] at ring
  have contains : ∀ node, inner.ring.contains node = (config.placedAs log node).isSome := by
    intro node
    rw [ring, Ring.contains_run, config.placedWith_calls, Option.isSome_map]
  refine ⟨start, inner, made, ran, fun node => ?_, fun apart => ?_, fun steady => ?_⟩
  · rw [contains, config.exists_onRing_iff inside]
  · rw [ring]
    refine Balancer.serves_of_shares valid (config.distinct_onRing distinct' log) apart ?_
    intro node
    rw [config.find?_onRing distinct' inside, config.placedWith_calls, config.bind_placedAs]
  · have current : config.Current after log := by
      rw [show log = joinsOf before.members ++ before.news later from same ▸ rfl]
      exact config.current_foldl (config.current_joins distinct) steady
    refine ⟨fun node => ?_, fun apart => ?_⟩
    · rw [contains, ← config.exists_member_iff distinct', ← current, Option.isSome_map]
    · rw [ring]
      refine Balancer.serves_of_shares valid distinct' apart fun node => ?_
      rw [config.placedWith_calls]
      exact current node

/-- A worker that publishes how many replicas it asks for. -/
def worker (node : Nat) (replicas : Int64) : Member :=
  { id := .ofNat node
    attributes := .ofList [("worker", .bool true), (AttributeName.replicas, .int replicas)] }

/-- The ring of workers. -/
def workers : AffinityConfig :=
  { nodeFilter := AttributeFilter.require {} "worker" (.bool true) }

/-- A worker joins twice, with the same share and other metrics; a node that is no worker leaves. -/
theorem ring_follows_members_of_return :
    let before := [.join (worker 1 3), .join { id := .ofNat 2 }].foldl PeerAct.apply (.empty 4)
    let again : Member := { worker 1 3 with metrics := { totalCpus := 2 } }
    let later : List PeerAct := [.join again, .leave (.ofNat 2), .join (worker 3 2)]
    let after := later.foldl PeerAct.apply before
    let calls : List BalancerCall := [.event ⟨.joined, again⟩, .task (.mapped (.ofNat 7)),
      .event ⟨.left, { id := .ofNat 2 }⟩, .event ⟨.joined, worker 3 2⟩]
    let news := calls.filterMap BalancerCall.event?
    let log := joinsOf before.members ++ news
    workers.problem? = none ∧ after.events.toList = before.events.toList ++ news ∧
      (Ring.empty workers.seed Digest.md5).Apart (workers.calls log) ∧
      workers.Steady before later ∧
      ∃ start inner, Balancer.build (.affinity workers) before.members = .ok start ∧
        start.run calls = .affinity inner ∧ inner.ring.contains (.ofNat 1) = true ∧
        inner.ring.contains (.ofNat 2) = false ∧ inner.ring.contains (.ofNat 3) = true ∧
        Balancer.Serves workers inner.ring after.members := by
  intro before again later after calls news log
  have told : after.events.toList = before.events.toList ++ news := rfl
  have apart : (Ring.empty workers.seed Digest.md5).Apart (workers.calls log) := by
    decide +kernel
  have steady : workers.Steady before later := by
    intro past member future split old found
    change [PeerAct.join again, .leave (.ofNat 2), .join (worker 3 2)] = _ at split
    rcases past with _ | ⟨one, _ | ⟨two, _ | ⟨three, past⟩⟩⟩
    · cases split
      cases found
      exact workers.share?_congr rfl
    · cases split
    · cases split
      cases found
    · cases past <;> cases split
  obtain ⟨start, inner, made, ran, -, -, current⟩ :=
    ring_follows_members workers rfl 4 [.join (worker 1 3), .join { id := .ofNat 2 }] later calls
      told
  obtain ⟨contains, serves⟩ := current steady
  have members : after.members = [again, worker 3 2] := rfl
  refine ⟨rfl, told, apart, steady, start, inner, made, ran, ?_, ?_, ?_, serves apart⟩
  · exact (contains _).2 ⟨again, members ▸ .head _, rfl, by decide +kernel⟩
  · refine Bool.eq_false_iff.2 fun there => ?_
    obtain ⟨member, listed, same, -⟩ := (contains _).1 there
    rw [members] at listed
    rcases listed with _ | ⟨_, _ | ⟨_, ⟨⟩⟩⟩
    all_goals cases same
  · exact (contains _).2 ⟨worker 3 2, members ▸ .tail _ (.head _), rfl, by decide +kernel⟩

/-- A worker joins again and is no worker any more. It stays on the ring, although the filter does
not admit it. -/
theorem contains_of_other_join :
    let changed : Member := { id := .ofNat 1 }
    let later : List PeerAct := [.join (worker 1 3), .join changed]
    let after := later.foldl PeerAct.apply (.empty 4)
    let calls : List BalancerCall := [.event ⟨.joined, worker 1 3⟩, .event ⟨.joined, changed⟩]
    workers.problem? = none ∧ after.events.toList = calls.filterMap BalancerCall.event? ∧
      ∃ start inner, Balancer.build (.affinity workers) [] = .ok start ∧
        start.run calls = .affinity inner ∧ inner.ring.contains (.ofNat 1) = true ∧
        ¬ ∃ member ∈ after.members, member.id = .ofNat 1 ∧
          workers.nodeFilter.admits member = true := by
  intro changed later after calls
  obtain ⟨start, made, has⟩ := Balancer.hasRing_of_build (show workers.problem? = none from rfl) []
  obtain ⟨inner, ran, -, ring⟩ := has.run calls
  rw [← run_calls_append] at ring
  refine ⟨rfl, rfl, start, inner, made, ran, ?_, ?_⟩
  · rw [ring, Ring.contains_run]
    decide +kernel
  · rintro ⟨member, listed, -, admits⟩
    have members : after.members = [changed] := rfl
    rw [members, List.mem_singleton] at listed
    rw [listed] at admits
    revert admits
    decide +kernel

end AffinityConfig

end JobGrid
