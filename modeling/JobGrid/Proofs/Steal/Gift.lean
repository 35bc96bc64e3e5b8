import JobGrid.Proofs.Steal.Busy
import JobGrid.Proofs.Steal.History

/-!
# Who is given jobs

The jobs that a pass gives away are jobs that waited and may be stolen, and they go to remote
members that may run them and whose latest request is still valid, each of which gets at most as
many as it asked for, counted over all passes since then.
-/

namespace JobGrid

namespace JobStore

/-- The number of jobs that a peer was given between two moments. -/
def giftsTo (earlier later : JobStore) (peer : NodeId) : Nat :=
  (List.range earlier.next).countP fun job => earlier.taker? later job = some peer

theorem taker?_of_get?_eq {earlier later : JobStore} {job : JobRef}
    (same : later.get? job = earlier.get? job) : earlier.taker? later job = none := by
  cases found : earlier.get? job with
  | none => simp [taker?, found]
  | some handle => simp [taker?, same, found]

@[simp] theorem giftsTo_self (store : JobStore) (peer : NodeId) : store.giftsTo store peer = 0 := by
  simp [giftsTo, taker?_of_get?_eq]

/-- A test that holds of one more of some distinct items holds once more. -/
theorem countP_eq_succ {items : List JobRef} {item : JobRef} {test wider : JobRef → Bool}
    (distinct : items.Nodup) (member : item ∈ items)
    (same : ∀ other, other ≠ item → wider other = test other)
    (fails : test item = false) (holds : wider item = true) :
    items.countP wider = items.countP test + 1 := by
  induction items with
  | nil => simp at member
  | cons head rest ih =>
      rw [List.nodup_cons] at distinct
      by_cases here : head = item
      · have unchanged : rest.countP wider = rest.countP test := by
          apply List.countP_congr
          intro other inRest
          rw [same other fun equal => distinct.1 (here ▸ equal ▸ inRest)]
        rw [List.countP_cons, List.countP_cons, unchanged, here, fails, holds]
        simp
      · have inRest : item ∈ rest := (List.mem_cons.1 member).resolve_left (Ne.symm here)
        rw [List.countP_cons, List.countP_cons, ih distinct.2 inRest, same head here]
        omega

/-- A job that goes to a peer is one more gift to this peer, and none to anybody else. -/
theorem giftsTo_succ {earlier later next : JobStore} {job : JobRef} {thief : NodeId}
    (known : job < earlier.next) (kept : earlier.taker? later job = none)
    (given : earlier.taker? next job = some thief)
    (others : ∀ other, other ≠ job → earlier.taker? next other = earlier.taker? later other)
    (peer : NodeId) :
    earlier.giftsTo next peer =
      if thief = peer then earlier.giftsTo later peer + 1 else earlier.giftsTo later peer := by
  by_cases same : thief = peer
  · rw [if_pos same]
    apply countP_eq_succ List.nodup_range (List.mem_range.2 known)
    · intro other differs
      rw [others other differs]
    · simp [kept]
    · simp [given, same]
  · rw [if_neg same]
    apply List.countP_congr
    intro other _
    by_cases here : other = job
    · simp [here, kept, given, same]
    · rw [others other here]

/-- The entries about the jobs given away count the gifts to each peer. -/
theorem givenSince_gifts (earlier later : JobStore) (peer : NodeId)
    (records : List StealRecord) :
    StealRecord.givenSince peer (earlier.gifts later ++ records) =
      earlier.giftsTo later peer + StealRecord.givenSince peer records := by
  have general : ∀ jobs : List JobRef,
      StealRecord.givenSince peer ((jobs.filterMap fun job =>
          (earlier.taker? later job).map fun peer => .given job peer) ++ records) =
        jobs.countP (fun job => earlier.taker? later job = some peer) +
          StealRecord.givenSince peer records := by
    intro jobs
    induction jobs with
    | nil => simp
    | cons job rest ih =>
        cases taker : earlier.taker? later job with
        | none => simp [taker, ih]
        | some thief =>
            by_cases same : thief = peer
            · simp [taker, same, StealRecord.givenSince, ih]
              omega
            · simp [taker, same, StealRecord.givenSince, ih]
  exact general (List.range earlier.next)

/-- The entries about the jobs given away hide no request. -/
theorem latest?_gifts (earlier later : JobStore) (peer : NodeId) (records : List StealRecord) :
    StealRecord.latest? peer (earlier.gifts later ++ records) =
      StealRecord.latest? peer records := by
  have general : ∀ jobs : List JobRef,
      StealRecord.latest? peer ((jobs.filterMap fun job =>
          (earlier.taker? later job).map fun peer => .given job peer) ++ records) =
        StealRecord.latest? peer records := by
    intro jobs
    induction jobs with
    | nil => rfl
    | cons job rest ih =>
        cases taker : earlier.taker? later job with
        | none => simp [taker, ih]
        | some thief => simp [taker, StealRecord.latest?, ih]
  exact general (List.range earlier.next)

end JobStore

/-- A job that may be given to a peer: it waits and may be stolen, and the peer is there,
may run it and asked for work in time. -/
structure PassScene.Suits (scene : PassScene) (received : StealTable) (handle : JobHandle)
    (peer : NodeId) : Prop where
  waits : handle.state = .waiting
  enabled : handle.spec.stealingDisabled = false
  fresh : handle.stealingAttempts < scene.config.maxStealing
  remote : scene.isRemote peer = true
  allowed : scene.restrictions.allows handle.session peer = true
  asked : ∃ entry, received.get? peer = some entry ∧ 0 < entry.jobs ∧
    entry.isExpired scene.expiry scene.now = false

/-- What a pass did to a job so far. -/
inductive JobFate (scene : PassScene) (received : StealTable) (earlier later : JobStore)
    (job : JobRef) : Prop where
  | untouched (same : later.get? job = earlier.get? job)
  | started (handle : JobHandle) (found : earlier.get? job = some handle)
      (moved : later.get? job = some { handle with state := .active })
  | given (handle : JobHandle) (thief : NodeId) (found : earlier.get? job = some handle)
      (suits : scene.Suits received handle thief)
      (moved : later.get? job =
        some (({ handle with state := .cancelled } : JobHandle).markStolen thief))

/-- What a pass did so far: each job has one fate, and gifts are taken off the requests that
they answer. -/
structure Busy.Follows (scene : PassScene) (before busy : Busy) : Prop where
  fate : ∀ job, JobFate scene before.received before.store busy.store job
  gifts_le : ∀ peer, before.store.giftsTo busy.store peer ≤ before.received.jobs peer
  remaining : ∀ peer entry, busy.received.get? peer = some entry → 0 < entry.jobs →
    ∃ asked, before.received.get? peer = some asked ∧ entry.since = asked.since ∧
      entry.jobs + before.store.giftsTo busy.store peer ≤ asked.jobs

namespace JobFate

variable {scene : PassScene} {received : StealTable} {earlier later : JobStore} {job : JobRef}

theorem congr {next : JobStore} (fate : JobFate scene received earlier later job)
    (same : next.get? job = later.get? job) : JobFate scene received earlier next job := by
  cases fate with
  | untouched kept => exact .untouched (same.trans kept)
  | started handle found moved => exact .started handle found (same.trans moved)
  | given handle thief found suits moved =>
      exact .given handle thief found suits (same.trans moved)

/-- Only a job that was given away has a taker. -/
theorem of_taker? {thief : NodeId} (fate : JobFate scene received earlier later job)
    (taken : earlier.taker? later job = some thief) :
    ∃ handle, earlier.get? job = some handle ∧ scene.Suits received handle thief := by
  cases fate with
  | untouched same => simp [JobStore.taker?_of_get?_eq same] at taken
  | started handle found moved => simp [JobStore.taker?, found, moved] at taken
  | given handle other found suits moved =>
      simp only [JobStore.taker?, found, moved, JobHandle.markStolen] at taken
      split at taken
      · simp at taken
      · cases taken
        exact ⟨handle, found, suits⟩

/-- A job that still waits was not touched. -/
theorem get?_eq_of_waiting {handle : JobHandle} (fate : JobFate scene received earlier later job)
    (found : later.get? job = some handle) (waits : handle.state = .waiting) :
    earlier.get? job = some handle := by
  cases fate with
  | untouched same => exact same ▸ found
  | started other _ moved =>
      rw [moved, Option.some.injEq] at found
      simp [← found] at waits
  | given other thief _ _ moved =>
      rw [moved, Option.some.injEq] at found
      simp [← found, JobHandle.markStolen] at waits

end JobFate

namespace Busy

theorem Follows.refl (scene : PassScene) (busy : Busy) : Follows scene busy busy where
  fate job := .untouched rfl
  gifts_le peer := by simp
  remaining peer entry found asks := ⟨entry, found, rfl, by simp⟩

variable {scene : PassScene} {waiting : Nat} {before : Busy}

/-- Starting a job gives nothing away. -/
theorem Follows.start {busy : Busy} (follows : Follows scene before busy) (job : JobRef) :
    Follows scene before (busy.start job) := by
  rcases busy.start_cases job with ⟨same, -⟩ | ⟨handle, found, waits, started⟩
  · rw [same]
    exact follows
  · have original := (follows.fate job).get?_eq_of_waiting found waits
    have looked := JobStore.get?_set_of_get? found
    have takers : ∀ other, before.store.taker?
        (busy.store.set job { handle with state := .active }) other =
          before.store.taker? busy.store other := by
      intro other
      by_cases here : job = other
      · subst here
        have nobody : before.store.taker? busy.store job = none :=
          JobStore.taker?_of_get?_eq (found.trans original.symm)
        rw [nobody]
        simp [JobStore.taker?, original, looked]
      · simp [JobStore.taker?, looked, here]
    have gifts : ∀ peer, before.store.giftsTo
        (busy.store.set job { handle with state := .active }) peer =
          before.store.giftsTo busy.store peer := by
      intro peer
      simp only [JobStore.giftsTo, takers]
    rw [started]
    refine ⟨?_, ?_, ?_⟩
    · intro other
      by_cases here : job = other
      · subst here
        exact .started handle original (by rw [looked, if_pos rfl])
      · have same : (busy.store.set job { handle with state := .active }).get? other =
            busy.store.get? other := by
          rw [looked, if_neg here]
        exact (follows.fate other).congr same
    · intro peer
      rw [gifts]
      exact follows.gifts_le peer
    · intro peer entry found asks
      rw [gifts]
      exact follows.remaining peer entry found asks

/-- Changing the requests without raising one gives nothing away. -/
theorem Follows.of_received {busy next : Busy} (follows : Follows scene before busy)
    (store : next.store = busy.store)
    (fewer : ∀ peer entry, next.received.get? peer = some entry → 0 < entry.jobs →
      busy.received.get? peer = some entry) :
    Follows scene before next where
  fate job := store ▸ follows.fate job
  gifts_le peer := store ▸ follows.gifts_le peer
  remaining peer entry found asks :=
    store ▸ follows.remaining peer entry (fewer peer entry found asks) asks

/-- Giving a job to a peer that it suits. -/
theorem Follows.give {busy next : Busy} {peer : NodeId} {entry : StealEntry} {job : JobRef}
    {handle : JobHandle} (follows : Follows scene before busy)
    (found : busy.store.get? job = some handle) (waits : handle.state = .waiting)
    (enabled : handle.spec.stealingDisabled = false)
    (fresh : handle.stealingAttempts < scene.config.maxStealing)
    (remote : scene.isRemote peer = true) (holds : busy.received.get? peer = some entry)
    (asks : 0 < entry.jobs) (inTime : entry.isExpired scene.expiry scene.now = false)
    (allowed : scene.restrictions.allows handle.session peer = true)
    (received : next.received = busy.received.served scene.now peer)
    (store : next.store =
      (busy.store.set job { handle with state := .cancelled }).markStolen job peer) :
    Follows scene before next := by
  obtain ⟨asked, was, since, amount⟩ := follows.remaining peer entry holds asks
  have original := (follows.fate job).get?_eq_of_waiting found waits
  have suits : scene.Suits before.received handle peer := by
    refine ⟨waits, enabled, fresh, remote, allowed, asked, was, by omega, ?_⟩
    rw [StealEntry.isExpired_eq_false_iff asks] at inTime
    rw [StealEntry.isExpired_eq_false_iff (by omega), StealEntry.age, ← since]
    exact inTime
  have looked : ∀ other, next.store.get? other =
      if job = other then
        some (({ handle with state := .cancelled } : JobHandle).markStolen peer)
      else busy.store.get? other := by
    intro other
    have cancelled := JobStore.get?_set_of_get? found
    have here : (busy.store.set job { handle with state := .cancelled }).get? job =
        some { handle with state := .cancelled } := by rw [cancelled, if_pos rfl]
    rw [store]
    simp only [JobStore.markStolen, here]
    rw [JobStore.get?_set_of_get? here, cancelled]
    by_cases same : job = other
    · rw [if_pos same, if_pos same]
    · rw [if_neg same, if_neg same, if_neg same]
  have kept : before.store.taker? busy.store job = none :=
    JobStore.taker?_of_get?_eq (found.trans original.symm)
  have given : before.store.taker? next.store job = some peer := by
    simp [JobStore.taker?, original, looked, JobHandle.markStolen]
  have others : ∀ other, other ≠ job →
      before.store.taker? next.store other = before.store.taker? busy.store other := by
    intro other differs
    simp [JobStore.taker?, looked, Ne.symm differs]
  have gifts := JobStore.giftsTo_succ (JobStore.lt_next_of_get? original) kept given others
  refine ⟨?_, ?_, ?_⟩
  · intro other
    by_cases here : job = other
    · subst here
      exact .given handle peer original suits (by rw [looked, if_pos rfl])
    · have same : next.store.get? other = busy.store.get? other := by rw [looked, if_neg here]
      exact (follows.fate other).congr same
  · intro other
    rw [gifts]
    by_cases same : peer = other
    · subst same
      rw [if_pos rfl, StealTable.jobs_of_get? was]
      omega
    · rw [if_neg same]
      exact follows.gifts_le other
  · intro other left noted asksMore
    rw [received, StealTable.get?_served] at noted
    rw [gifts]
    by_cases same : peer = other
    · subst same
      rw [if_pos rfl, holds, Option.getD_some, Option.some.injEq] at noted
      subst noted
      rw [if_pos rfl]
      exact ⟨asked, was, since, by simp only at asksMore ⊢; omega⟩
    · rw [if_neg same] at noted
      rw [if_neg same]
      exact follows.remaining other left noted asksMore

/-- Every step of a pass continues what the pass did so far. -/
theorem kept_follows (scene : PassScene) (waiting : Nat) (before : Busy) :
    Kept scene waiting True fun busy => Follows scene before busy where
  start := by
    intro busy job follows
    exact follows.start job
  forget := by
    intro busy peer follows _
    cases dropped : busy.forget peer with
    | error fault => exact trivial
    | ok next =>
        obtain ⟨counter, -, rfl⟩ := Result.map_eq_ok.1 dropped
        refine follows.of_received rfl ?_
        intro other entry found _
        have looked : (busy.received.remove peer).get? other = some entry := found
        rw [StealTable.get?_remove] at looked
        split_ifs at looked
        exact looked
  expire := by
    intro busy peer entry follows _ _
    cases tookBack : busy.expire scene peer with
    | error fault => exact trivial
    | ok next =>
        obtain ⟨counter, -, rfl⟩ := Result.map_eq_ok.1 tookBack
        refine follows.of_received rfl ?_
        intro other entry found asks
        have looked : (busy.received.reset scene.now peer 0).get? other = some entry := found
        rw [StealTable.get?_reset] at looked
        split_ifs at looked
        · rw [Option.some.injEq] at looked
          simp [← looked] at asks
        · exact looked
  give := by
    intro busy peer entry job handle follows found waits enabled fresh _ remote holds asks inTime
      allowed _
    have positive : 0 < busy.received.jobs peer := StealTable.jobs_of_get? holds ▸ asks
    simp only [Busy.give, StealTable.decrement_eq_ok positive]
    cases added : busy.counter.add (-1) with
    | error fault => exact trivial
    | ok counter =>
        exact follows.give found waits enabled fresh remote holds asks inTime allowed rfl rfl

end Busy

namespace Stealing

/-- Every open request is the latest one of its peer, and what it still asks for was not given
since. -/
structure Entitled (config : StealingConfig) (stealing : Stealing) : Prop where
  config_eq : stealing.resolver.config = config
  latest : ∀ peer entry, stealing.resolver.received.get? peer = some entry → 0 < entry.jobs →
    entry.since ≤ stealing.now ∧ ∃ asked,
      StealRecord.latest? peer stealing.records = some (asked, entry.since) ∧
        StealRecord.givenSince peer stealing.records + entry.jobs ≤ asked

variable {config : StealingConfig}

/-- Requests that stay as they are, or go, stay entitled. -/
theorem Entitled.of_received {before after : Stealing} (entitled : before.Entitled config)
    (same : after.resolver.config = before.resolver.config)
    (records : after.records = before.records) (later : before.now ≤ after.now)
    (fewer : ∀ peer entry, after.resolver.received.get? peer = some entry → 0 < entry.jobs →
      before.resolver.received.get? peer = some entry) : after.Entitled config where
  config_eq := same.trans entitled.config_eq
  latest peer entry found asks := by
    obtain ⟨since, recorded⟩ := entitled.latest peer entry (fewer peer entry found asks) asks
    rw [records]
    exact ⟨Nat.le_trans since later, recorded⟩

/-- A request is entitled to what it asks for. -/
theorem Entitled.request {before after : Stealing} {peer : NodeId} {request : StealRequest}
    (entitled : before.Entitled config)
    (performed : before.perform (.request peer request) = .ok after) :
    after.Entitled config := by
  obtain ⟨⟨noted, resolver⟩, asked, rfl⟩ := Result.map_eq_ok.1 performed
  cases Resolver.heard_of_onStealRequest asked with
  | stranger absent => exact entitled.of_received rfl rfl (Nat.le_refl _) fun _ _ found _ => found
  | member present added =>
      refine ⟨entitled.config_eq, ?_⟩
      intro other entry found asks
      simp only [StealTable.get?_reset] at found
      by_cases same : peer = other
      · rw [if_pos same, Option.some.injEq] at found
        subst found
        simp [StealRecord.latest?, StealRecord.givenSince, same]
      · rw [if_neg same] at found
        simp only [if_true, StealRecord.latest?, StealRecord.givenSince, if_neg same]
        exact entitled.latest other entry found asks

/-- What discovery reports only takes requests away. -/
theorem Entitled.discovery {before after : Stealing} {event : DiscoveryEvent}
    (entitled : before.Entitled config)
    (performed : before.perform (.discovery event) = .ok after) : after.Entitled config := by
  obtain ⟨resolver, noted, rfl⟩ := Result.map_eq_ok.1 performed
  obtain ⟨config, received⟩ := received_of_onEvent noted
  refine entitled.of_received config rfl (Nat.le_refl _) fun peer entry found _ => ?_
  simp only at found
  rcases received with same | removed
  · exact same ▸ found
  · rw [removed, StealTable.get?_remove] at found
    split_ifs at found
    exact found

/-- A pass leaves the requests that it does not drop with what it did not give. -/
theorem Entitled.pass {before after : Stealing} {store : JobStore} {waiting : List JobRef}
    {active : Nat} {order : Arrangement NodeId} {accepts : NodeId → Bool}
    (entitled : before.Entitled config)
    (performed : before.perform (.pass store waiting active order accepts) = .ok after) :
    after.Entitled config := by
  obtain ⟨busy, ran, received, -, same, -, now, records⟩ := perform_pass performed
  have follows : Busy.Ends True (Busy.Follows (before.scene order) (before.busy store))
      (Busy.run (before.scene order) waiting active (before.busy store)) :=
    Busy.run_keeps (Busy.kept_follows _ _ _) active (Busy.Follows.refl _ _)
  rw [ran] at follows
  refine ⟨same.trans entitled.config_eq, ?_⟩
  intro peer entry found asks
  rw [received] at found
  obtain ⟨asked, was, since, amount⟩ := follows.remaining peer entry found asks
  obtain ⟨earlier, total, recorded, bound⟩ := entitled.latest peer asked was (by omega)
  rw [now, records, since, JobStore.latest?_gifts, JobStore.givenSince_gifts]
  refine ⟨earlier, total, recorded, ?_⟩
  simp only [Stealing.busy] at amount
  omega

/-- Requests stay entitled whatever happens. -/
theorem Entitled.perform {before after : Stealing} {event : StealEvent}
    (entitled : before.Entitled config) (performed : before.perform event = .ok after) :
    after.Entitled config := by
  cases event with
  | request peer request => exact entitled.request performed
  | discovery event => exact entitled.discovery performed
  | pass store waiting active order accepts => exact entitled.pass performed
  | change view =>
      cases performed
      exact entitled.of_received rfl rfl (Nat.le_refl _) fun _ _ found _ => found
  | restrict restrictions =>
      cases performed
      exact entitled.of_received rfl rfl (Nat.le_refl _) fun _ _ found _ => found
  | wait millis =>
      cases performed
      exact entitled.of_received rfl rfl (Nat.le_add_right _ _) fun _ _ found _ => found

/-- Whatever happened before, a pass gives away only jobs that wait, may be stolen and were not
stolen too often, only to remote members that may run them, only while the latest request of
the peer is valid, and never more since that request than it asked for. -/
theorem given_jobs_suit {config : StealingConfig} {view : GridView} {resolver : Resolver}
    (started : Resolver.start config view = .ok resolver) {restrictions : Restrictions}
    {now : Moment} {history : List StealEvent} {before after : Stealing}
    (reached : ({ resolver, view, restrictions, now } : Stealing).run history = .ok before)
    {store : JobStore} {waiting : List JobRef} {active : Nat} {order : Arrangement NodeId}
    {accepts : NodeId → Bool}
    (passed : before.perform (.pass store waiting active order accepts) = .ok after)
    {job : JobRef} {thief : NodeId}
    (given : StealRecord.given job thief ∈ store.gifts
      (before.resolver.collide (before.scene order) accepts store waiting active).store) :
    ∃ handle, store.get? job = some handle ∧ handle.state = .waiting ∧
      handle.spec.stealingDisabled = false ∧ handle.stealingAttempts < config.maxStealing ∧
      (∃ member ∈ before.view.remote, member.id = thief) ∧
      (∃ member ∈ before.restrictions.topology handle.session before.view.remote,
        member.id = thief) ∧
      ∃ asked since, StealRecord.latest? thief before.records = some (asked, since) ∧
        since ≤ before.now ∧ before.now - since < config.requestExpiry.toNat ∧
        StealRecord.givenSince thief after.records ≤ asked := by
  obtain ⟨_, -, rfl⟩ := Result.map_eq_ok.1 started
  have begun : Stealing.Entitled config
      { resolver := { config, queue := view.remote.map Member.id }, view, restrictions, now } :=
    ⟨rfl, fun peer entry found => nomatch found⟩
  have entitled : before.Entitled config := run_keeps Entitled.perform history begun reached
  obtain ⟨busy, ran, -, -, -, -, -, records⟩ := perform_pass passed
  have follows : Busy.Ends True (Busy.Follows (before.scene order) (before.busy store))
      (Busy.run (before.scene order) waiting active (before.busy store)) :=
    Busy.run_keeps (Busy.kept_follows _ _ _) active (Busy.Follows.refl _ _)
  rw [ran] at follows
  obtain ⟨kept, -⟩ := collide_of_run accepts ran
  obtain ⟨other, -, taken⟩ := List.mem_filterMap.1 given
  obtain ⟨peer, taker, equal⟩ := Option.map_eq_some_iff.1 taken
  obtain ⟨rfl, rfl⟩ := StealRecord.given.inj equal
  rw [kept] at taker
  obtain ⟨handle, found, suits⟩ := (follows.fate other).of_taker? taker
  obtain ⟨entry, asked, asks, inTime⟩ := suits.asked
  obtain ⟨since, total, recorded, bound⟩ := entitled.latest peer entry asked asks
  obtain ⟨member, present, identity⟩ := List.any_eq_true.1 suits.remote
  have same : member.id = peer := of_decide_eq_true identity
  refine ⟨handle, found, suits.waits, suits.enabled, entitled.config_eq ▸ suits.fresh,
    ⟨member, present, same⟩, ⟨member, List.mem_filter.2 ⟨present, same ▸ suits.allowed⟩, same⟩,
    total, entry.since, recorded, since, ?_, ?_⟩
  · rw [StealEntry.isExpired_eq_false_iff asks] at inTime
    exact entitled.config_eq ▸ inTime
  · rw [records, JobStore.givenSince_gifts]
    have gifts := follows.gifts_le peer
    have amount : (before.busy store).received.jobs peer = entry.jobs :=
      StealTable.jobs_of_get? asked
    simp only [Stealing.busy] at gifts amount
    omega

/-- A member asks for two jobs and is given the first one that waits, five milliseconds
later. -/
theorem given_jobs_suit_of_asked :
    let peer : Member := { id := .ofNat 1 }
    let view : GridView := ⟨.ofNat 0, none, [peer]⟩
    let job (number : Nat) : JobHandle :=
      { spec := { id := .ofNat number }, session := default, origin := .ofNat 0, createdAt := 0 }
    let config : StealingConfig := { activeThreshold := 0 }
    let resolver : Resolver := { config, queue := [peer.id] }
    let store : JobStore := ⟨#[job 7, job 8]⟩
    let noted : StealTable := ⟨⟨[(peer.id, ⟨2, 0, 0⟩)], by simp⟩, 1⟩
    let before : Stealing :=
      { resolver := { resolver with received := noted, counter := 2 }
        view, now := 5, records := [.asked peer.id 2 0] }
    Resolver.start config view = .ok resolver ∧
      ({ resolver, view, restrictions := ∅, now := 0 } : Stealing).run
          [.request peer.id ⟨2⟩, .wait 5] = .ok before ∧
      StealRecord.given 0 peer.id ∈ store.gifts (before.resolver.collide
          (before.scene default) (fun _ => true) store [0, 1] 0).store ∧
      ∃ after, before.perform (.pass store [0, 1] 0 default fun _ => true) = .ok after ∧
        ∃ handle, store.get? 0 = some handle ∧ handle.state = .waiting ∧
          handle.spec.stealingDisabled = false ∧ handle.stealingAttempts < config.maxStealing ∧
          (∃ member ∈ before.view.remote, member.id = peer.id) ∧
          (∃ member ∈ before.restrictions.topology handle.session before.view.remote,
            member.id = peer.id) ∧
          ∃ asked since, StealRecord.latest? peer.id before.records = some (asked, since) ∧
            since ≤ before.now ∧ before.now - since < config.requestExpiry.toNat ∧
            StealRecord.givenSince peer.id after.records ≤ asked := by
  intro peer view job config resolver store noted before
  have started : Resolver.start config view = .ok resolver := rfl
  have reached : ({ resolver, view, restrictions := ∅, now := 0 } : Stealing).run
      [.request peer.id ⟨2⟩, .wait 5] = .ok before := rfl
  have given : StealRecord.given 0 peer.id ∈ store.gifts (before.resolver.collide
      (before.scene default) (fun _ => true) store [0, 1] 0).store := by decide
  exact ⟨started, reached, given, _, rfl, given_jobs_suit started reached rfl given⟩

end Stealing

/-- A pass starts jobs or gives them away, each job at most once, and leaves all others alone. -/
theorem Resolver.fate_collide (resolver : Resolver) (scene : PassScene)
    (accepts : NodeId → Bool) (store : JobStore) (waiting : List JobRef) (active : Nat)
    (job : JobRef) :
    JobFate scene resolver.received store
      (resolver.collide scene accepts store waiting active).store job := by
  let begun : Busy := { received := resolver.received, counter := resolver.counter, store }
  have follows : Busy.Ends True (Busy.Follows scene begun) (Busy.run scene waiting active begun) :=
    Busy.run_keeps (Busy.kept_follows _ _ _) active (Busy.Follows.refl _ _)
  cases ran : Busy.run scene waiting active begun with
  | error fault =>
      simp only [collide, show Busy.run scene waiting active
        { received := resolver.received, counter := resolver.counter, store } = _ from ran]
      exact .untouched rfl
  | ok busy =>
      rw [ran] at follows
      rw [(Stealing.collide_of_run accepts ran).1]
      exact follows.fate job

end JobGrid
