import JobGrid.Proofs.Steal.Gift

/-!
# Requests that stay open

A pass serves every request that it can: if a surplus job that may be stolen still waits
afterwards, then every request that is still open is valid and comes from a remote member that
may not run this job.
-/

namespace JobGrid

namespace StealTable

variable {table : StealTable}

/-- A table of requests that have not run out is live as a whole. -/
theorem liveTotal_eq_total {expiry : Nat} {now : Moment}
    (valid : ∀ peer entry, table.get? peer = some entry → 0 < entry.jobs →
      entry.isExpired expiry now = false) : table.liveTotal expiry now = table.total := by
  have each : table.peers.values.map (fun entry => entry.live expiry now) =
      table.peers.values.map StealEntry.jobs := by
    apply List.map_congr_left
    intro entry member
    obtain ⟨peer, found⟩ := Table.mem_values_iff.1 member
    by_cases asks : 0 < entry.jobs
    · simp [StealEntry.live, valid peer entry found asks]
    · simp [StealEntry.live, StealEntry.isExpired, asks]
  rw [liveTotal, total, each]

end StealTable

namespace StealCounter

/-- A sum that was entered is the sum. -/
theorem eq_of_add {counter delta updated : Int} (added : add counter delta = .ok updated) :
    updated = counter + delta := by
  simp only [add] at added
  split_ifs at added
  cases added
  rfl

end StealCounter

namespace StealTable

/-- A counter shows how many jobs are asked for. -/
def CountedBy (table : StealTable) (counter : Int) : Prop := counter = table.total

namespace CountedBy

variable {table : StealTable} {counter updated : Int} {peer : NodeId}

theorem reset {jobs : Nat} (counted : table.CountedBy counter) (now : Moment)
    (added : StealCounter.add counter (jobs - table.jobs peer) = .ok updated) :
    (table.reset now peer jobs).CountedBy updated := by
  have sum := table.total_reset now peer jobs
  have entered := StealCounter.eq_of_add added
  simp only [CountedBy] at counted ⊢
  omega

theorem remove (counted : table.CountedBy counter)
    (added : StealCounter.add counter (-(table.jobs peer : Int)) = .ok updated) :
    (table.remove peer).CountedBy updated := by
  have sum := table.total_remove peer
  have entered := StealCounter.eq_of_add added
  simp only [CountedBy] at counted ⊢
  omega

theorem served (counted : table.CountedBy counter) (now : Moment) (asks : 0 < table.jobs peer)
    (added : StealCounter.add counter (-1) = .ok updated) :
    (table.served now peer).CountedBy updated := by
  have sum : (table.served now peer).total + 1 = table.total := total_served asks
  have entered := StealCounter.eq_of_add added
  simp only [CountedBy] at counted ⊢
  omega

/-- Nobody asks for work if the counter shows zero. -/
theorem jobs_eq_zero (counted : table.CountedBy counter) (none : counter = 0) (peer : NodeId) :
    table.jobs peer = 0 := by
  have part := table.jobs_le_total peer
  simp only [CountedBy] at counted
  omega

end CountedBy

end StealTable

namespace JobStore

/-- A job that moved is in its new state. -/
theorem state?_of_transition {store next : JobStore} {ref : JobRef} {state : JobState}
    (moved : store.transition ref state = (true, next)) : next.state? ref = some state := by
  obtain ⟨job, found, -, rfl⟩ := transition_eq_true_iff.1 moved
  rw [state?, get?_set_of_get? found, if_pos rfl]
  rfl

end JobStore

namespace Busy

/-- What is left of a pass after a job went to a peer that asks for one. -/
theorem give_of_asks (busy : Busy) (store : JobStore) {peer : NodeId} (scene : PassScene)
    (job : JobRef) (asks : 0 < busy.received.jobs peer) :
    ({ busy with store } : Busy).give scene peer job = (busy.counter.add (-1)).map fun counter =>
      { busy with
        received := busy.received.served scene.now peer
        counter
        store := store.markStolen job peer
        rejected := busy.rejected + 1 } := by
  simp only [give, StealTable.decrement_eq_ok asks]
  cases busy.counter.add (-1) <;> rfl

/-- The open request of a peer, if there is one, is valid, and the peer is a remote member that
may not run jobs of a session. -/
def Withholds (busy : Busy) (scene : PassScene) (session : SessionId) (peer : NodeId) : Prop :=
  ∀ entry, busy.received.get? peer = some entry → 0 < entry.jobs →
    entry.isExpired scene.expiry scene.now = false ∧ scene.isRemote peer = true ∧
      scene.restrictions.allows session peer = false

/-- The peer, if it has an entry, is a remote member, and its request, if it is open, is valid but
not for jobs of a session. -/
def Refuses (busy : Busy) (scene : PassScene) (session : SessionId) (peer : NodeId) : Prop :=
  ∀ entry, busy.received.get? peer = some entry → scene.isRemote peer = true ∧
    (0 < entry.jobs → entry.isExpired scene.expiry scene.now = false ∧
      scene.restrictions.allows session peer = false)

variable {scene : PassScene} {waiting : Nat}

section Steps

variable {busy next : Busy} {session : SessionId} {peer other : NodeId}

theorem Refuses.withholds (refuses : busy.Refuses scene session peer) :
    busy.Withholds scene session peer := by
  intro entry found asks
  obtain ⟨remote, rest⟩ := refuses entry found
  exact ⟨(rest asks).1, remote, (rest asks).2⟩

/-- A peer that did not leave is a remote member. -/
theorem isRemote_of_offer (stayed : busy.offer scene session peer ≠ .gone) :
    scene.isRemote peer = true := by
  rwa [Ne, offer_eq_gone_iff, Bool.not_eq_false] at stayed

/-- A peer with an entry is passed over exactly if it refuses. -/
theorem offer_eq_unsuitable_iff {entry : StealEntry}
    (found : busy.received.get? peer = some entry) :
    busy.offer scene session peer = .unsuitable ↔ busy.Refuses scene session peer := by
  simp only [Refuses, found, Option.some.injEq, forall_eq']
  cases remote : scene.isRemote peer with
  | false => simp [offer, remote]
  | true =>
      by_cases asks : 0 < entry.jobs
      · cases valid : entry.isExpired scene.expiry scene.now <;>
          cases allowed : scene.restrictions.allows session peer <;>
            simp [offer, remote, found, asks, Nat.ne_of_gt asks, valid, allowed]
      · simp [offer, remote, found, Nat.eq_zero_of_not_pos asks]

/-- A peer that is passed over refuses. -/
theorem refuses_of_unsuitable (offered : busy.offer scene session peer = .unsuitable) :
    busy.Refuses scene session peer :=
  fun entry found => (offer_eq_unsuitable_iff found).1 offered entry found

/-- A peer whose request was dropped has no entry. -/
theorem refuses_of_forget (dropped : busy.forget peer = .ok next)
    (refuses : peer = other ∨ busy.Refuses scene session other) :
    next.Refuses scene session other := by
  obtain ⟨counter, -, rfl⟩ := Result.map_eq_ok.1 dropped
  intro entry found
  rw [StealTable.get?_remove] at found
  split_ifs at found with same
  exact refuses.resolve_left same entry found

/-- A request that was taken back is not open. -/
theorem refuses_of_expire (tookBack : busy.expire scene peer = .ok next)
    (remote : peer = other → scene.isRemote other = true)
    (refuses : peer = other ∨ busy.Refuses scene session other) :
    next.Refuses scene session other := by
  obtain ⟨counter, -, rfl⟩ := Result.map_eq_ok.1 tookBack
  intro entry found
  rw [StealTable.get?_reset] at found
  split_ifs at found with same
  · cases found
    exact ⟨remote same, fun asks => absurd asks (Nat.lt_irrefl 0)⟩
  · exact refuses.resolve_left same entry found

end Steps

/-- A peer that refuses goes on to do so in every step of a pass. -/
theorem kept_refuses (scene : PassScene) (waiting : Nat) (session : SessionId) (other : NodeId) :
    Kept scene waiting True fun busy => busy.Refuses scene session other where
  start := by
    intro busy job refuses
    exact refuses
  forget := by
    intro busy peer refuses _
    cases dropped : busy.forget peer with
    | error fault => exact trivial
    | ok next => exact refuses_of_forget dropped (.inr refuses)
  expire := by
    intro busy peer entry refuses found _
    cases tookBack : busy.expire scene peer with
    | error fault => exact trivial
    | ok next =>
        refine refuses_of_expire tookBack ?_ (.inr refuses)
        rintro rfl
        exact (refuses entry found).1
  give := by
    intro busy peer entry job handle refuses _ _ _ _ _ _ found asks _ _ _
    have positive : 0 < busy.received.jobs peer := StealTable.jobs_of_get? found ▸ asks
    rw [give_of_asks busy _ scene job positive]
    cases busy.counter.add (-1) with
    | error fault => exact trivial
    | ok counter =>
        intro left noted
        rw [StealTable.get?_served] at noted
        split_ifs at noted with same
        · subst same
          rw [found, Option.getD_some, Option.some.injEq] at noted
          obtain ⟨remote, rest⟩ := refuses entry found
          obtain ⟨valid, barred⟩ := rest asks
          rw [StealEntry.isExpired_eq_false_iff asks] at valid
          refine ⟨remote, fun asksMore => ⟨?_, barred⟩⟩
          rw [StealEntry.isExpired_eq_false_iff asksMore, ← noted]
          exact valid
        · exact refuses left noted

/-- Every step of a pass keeps the count of requested jobs right. -/
theorem kept_counted (scene : PassScene) (waiting : Nat) :
    Kept scene waiting True fun busy => busy.received.CountedBy busy.counter where
  start := by
    intro busy job counted
    exact counted
  forget := by
    intro busy peer counted _
    cases dropped : busy.forget peer with
    | error fault => exact trivial
    | ok next =>
        obtain ⟨counter, added, rfl⟩ := Result.map_eq_ok.1 dropped
        exact counted.remove added
  expire := by
    intro busy peer entry counted _ _
    cases tookBack : busy.expire scene peer with
    | error fault => exact trivial
    | ok next =>
        obtain ⟨counter, added, rfl⟩ := Result.map_eq_ok.1 tookBack
        rw [← Int.zero_sub, ← Int.natCast_zero] at added
        exact counted.reset scene.now added
  give := by
    intro busy peer entry job handle counted _ _ _ _ _ _ found asks _ _ _
    have positive : 0 < busy.received.jobs peer := StealTable.jobs_of_get? found ▸ asks
    rw [give_of_asks busy _ scene job positive]
    cases added : busy.counter.add (-1) with
    | error fault => exact trivial
    | ok counter => exact counted.served scene.now positive added

section Job

variable {busy next : Busy} {job : JobRef} {handle : JobHandle}

/-- A job that still waits after it was offered to some peers was refused by all of them. -/
theorem refuses_of_handOver {session : SessionId} {other : NodeId} (peers : List NodeId) :
    ∀ {busy : Busy}, handOver scene session job peers busy = .ok next →
      next.store.get? job = some handle → handle.state = .waiting →
      other ∈ peers ∨ busy.Refuses scene session other → next.Refuses scene session other := by
  induction peers with
  | nil =>
      intro busy handed _ _ refuses
      cases handed
      exact refuses.resolve_left List.not_mem_nil
  | cons peer rest ih =>
      intro busy handed found waits refuses
      rw [List.mem_cons] at refuses
      cases offered : busy.offer scene session peer with
      | unsuitable =>
          simp only [handOver, offered] at handed
          apply ih handed found waits
          rcases refuses with (rfl | later) | kept
          · exact .inr (refuses_of_unsuitable offered)
          · exact .inl later
          · exact .inr kept
      | gone =>
          simp only [handOver, offered] at handed
          obtain ⟨middle, dropped, handed⟩ := Result.bind_eq_ok.1 handed
          apply ih handed found waits
          rcases refuses with (rfl | later) | kept
          · exact .inr (refuses_of_forget dropped (.inl rfl))
          · exact .inl later
          · exact .inr (refuses_of_forget dropped (.inr kept))
      | expired =>
          simp only [handOver, offered] at handed
          obtain ⟨middle, tookBack, handed⟩ := Result.bind_eq_ok.1 handed
          have remote : peer = other → scene.isRemote other = true := by
            rintro rfl
            exact isRemote_of_offer (by rw [offered]; decide)
          apply ih handed found waits
          rcases refuses with (rfl | later) | kept
          · exact .inr (refuses_of_expire tookBack remote (.inl rfl))
          · exact .inl later
          · exact .inr (refuses_of_expire tookBack remote (.inr kept))
      | taker =>
          -- A taker gets the job, so that it waits no longer.
          obtain ⟨-, -, entry, asked, asks, -⟩ := taker_of_offer offered
          have positive : 0 < busy.received.jobs peer := StealTable.jobs_of_get? asked ▸ asks
          simp only [handOver, offered] at handed
          cases cancelled : busy.store.cancel job with
          | mk moved store =>
              cases moved with
              | false =>
                  simp only [cancelled, Except.ok.injEq] at handed
                  subst handed
                  have moves : busy.store.transition job .cancelled = (true, _) :=
                    JobStore.get?_transition_of_waiting found waits
                  cases cancelled.symm.trans moves
              | true =>
                  simp only [cancelled] at handed
                  rw [give_of_asks busy store scene job positive] at handed
                  obtain ⟨counter, -, rfl⟩ := Result.map_eq_ok.1 handed
                  have left : store.state? job = some .cancelled :=
                    JobStore.state?_of_transition cancelled
                  rw [← JobStore.state?_markStolen store job job peer] at left
                  simp [JobStore.state?, found, waits] at left

/-- A job that still waits after surplus jobs were given away was there before. -/
theorem get?_of_giveAway {jobs : List JobRef}
    (gave : giveAway scene waiting jobs busy = .ok next)
    (found : next.store.get? job = some handle) (waits : handle.state = .waiting) :
    busy.store.get? job = some handle := by
  have follows := giveAway_keeps (kept_follows scene waiting busy).toGives jobs
    (fun _ _ => trivial) busy (.refl scene busy)
  rw [gave] at follows
  exact (follows.fate job).get?_eq_of_waiting found waits

/-- While jobs are left that are surplus, the pass goes on to the next job. -/
theorem exists_tail_of_giveAway {first : JobRef} {rest : List JobRef}
    (gave : giveAway scene waiting (first :: rest) busy = .ok next)
    (surplus : 0 < next.surplus scene waiting) :
    ∃ middle : Busy, giveAway scene waiting rest middle = .ok next := by
  cases found : busy.store.get? first with
  | none =>
      simp only [giveAway, found] at gave
      exact ⟨busy, gave⟩
  | some handle =>
      simp only [giveAway, found] at gave
      split_ifs at gave with refused settled
      · exact ⟨busy, gave⟩
      · cases gave
        omega
      · obtain ⟨middle, -, gave⟩ := Result.bind_eq_ok.1 gave
        exact ⟨middle, gave⟩

/-- As long as nobody asks for work, nothing is given away. -/
theorem giveAway_of_counter_eq_zero (scene : PassScene) (waiting : Nat) (jobs : List JobRef)
    (none : busy.counter = 0) : giveAway scene waiting jobs busy = .ok busy := by
  induction jobs with
  | nil => rfl
  | cons job rest ih =>
      rw [giveAway]
      cases busy.store.get? job with
      | none => exact ih
      | some handle =>
          have kept : busy.mayGive scene handle = false := by simp [mayGive, none]
          simp only [kept, Bool.not_false, if_true]
          exact ih

/-- A surplus job that may be stolen and still waits was refused by everybody, if anybody still
asks for work. -/
theorem refuses_of_giveAway_head {rest : List JobRef}
    (gave : giveAway scene waiting (job :: rest) busy = .ok next)
    (found : next.store.get? job = some handle) (waits : handle.state = .waiting)
    (enabled : handle.spec.stealingDisabled = false)
    (fresh : handle.stealingAttempts < scene.config.maxStealing)
    (surplus : 0 < next.surplus scene waiting) :
    next.counter = 0 ∨ ∀ other, next.Refuses scene handle.session other := by
  have earlier := get?_of_giveAway gave found waits
  simp only [giveAway, earlier] at gave
  split_ifs at gave with refused settled
  · -- The job may be given away, so it was skipped because nobody asks for work.
    have none : busy.counter = 0 := by
      simpa [mayGive, enabled, fresh] using refused
    rw [giveAway_of_counter_eq_zero scene waiting rest none] at gave
    cases gave
    exact .inl none
  · cases gave
    omega
  · obtain ⟨middle, handed, gave⟩ := Result.bind_eq_ok.1 gave
    refine .inr fun other => ?_
    have refuses : middle.Refuses scene handle.session other := by
      apply refuses_of_handOver _ handed (get?_of_giveAway gave found waits) waits
      by_cases known : other ∈ busy.received.peers.keys
      · exact .inl ((Arrangement.mem_arrange _).2 known)
      · right
        intro entry noted
        exact absurd (Table.mem_keys_iff.2 ⟨entry, noted⟩) known
    have ended := giveAway_keeps (kept_refuses scene waiting handle.session other).toGives rest
      (fun _ _ => trivial) middle refuses
    rwa [gave] at ended

/-- Any surplus job that may be stolen and still waits was refused by everybody, if anybody still
asks for work. -/
theorem refuses_of_giveAway {jobs : List JobRef} (member : job ∈ jobs)
    (gave : giveAway scene waiting jobs busy = .ok next)
    (found : next.store.get? job = some handle) (waits : handle.state = .waiting)
    (enabled : handle.spec.stealingDisabled = false)
    (fresh : handle.stealingAttempts < scene.config.maxStealing)
    (surplus : 0 < next.surplus scene waiting) :
    next.counter = 0 ∨ ∀ other, next.Refuses scene handle.session other := by
  induction jobs generalizing busy with
  | nil => cases member
  | cons first rest ih =>
      cases List.mem_cons.1 member with
      | inl same =>
          subst same
          exact refuses_of_giveAway_head gave found waits enabled fresh surplus
      | inr later =>
          obtain ⟨middle, gave⟩ := exists_tail_of_giveAway gave surplus
          exact ih later gave

/-- What starting some jobs did continues what was done before. -/
theorem follows_started (jobs : List JobRef) {before busy : Busy}
    (follows : Follows scene before busy) : Follows scene before (jobs.foldl start busy) := by
  induction jobs generalizing busy with
  | nil => exact follows
  | cons first rest ih => exact ih (follows.start first)

/-- A job that was to be started does not wait any more. -/
theorem not_waiting_of_started (scene : PassScene) {jobs : List JobRef} (member : job ∈ jobs)
    (found : (jobs.foldl start busy).store.get? job = some handle) : handle.state ≠ .waiting := by
  intro waits
  induction jobs generalizing busy with
  | nil => cases member
  | cons first rest ih =>
      rw [List.foldl_cons] at found
      cases List.mem_cons.1 member with
      | inr later => exact ih later found
      | inl same =>
          subst same
          have follows : Follows scene (busy.start job) (rest.foldl start (busy.start job)) :=
            follows_started rest (.refl scene _)
          have started := (follows.fate job).get?_eq_of_waiting found waits
          rcases busy.start_cases job with ⟨same, settled⟩ | ⟨earlier, there, -, active⟩
          · rw [same] at started
            exact settled _ started waits
          · rw [active, JobStore.get?_set_of_get? there, if_pos rfl] at started
            cases started
            cases waits

/-- Any surplus job that may be stolen and still waits after the first half of a pass was refused
by everybody, if anybody still asks for work. -/
theorem refuses_of_run {jobs : List JobRef} {active : Nat} (member : job ∈ jobs)
    (ran : run scene jobs active busy = .ok next)
    (found : next.store.get? job = some handle) (waits : handle.state = .waiting)
    (enabled : handle.spec.stealingDisabled = false)
    (fresh : handle.stealingAttempts < scene.config.maxStealing)
    (surplus : 0 < next.surplus scene jobs.length) :
    next.counter = 0 ∨ ∀ other, next.Refuses scene handle.session other := by
  have parts : job ∈ jobs.take (room scene active) ∨ job ∈ jobs.drop (room scene active) := by
    rw [← List.mem_append, List.take_append_drop]
    exact member
  cases parts with
  | inl begun =>
      exact absurd waits (not_waiting_of_started scene begun (get?_of_giveAway ran found waits))
  | inr left => exact refuses_of_giveAway left ran found waits enabled fresh surplus

/-- Any surplus job that may be stolen and still waits after the first half of a pass was kept
from everybody. -/
theorem withholds_of_run {jobs : List JobRef} {active : Nat} (member : job ∈ jobs)
    (counted : busy.received.CountedBy busy.counter)
    (ran : run scene jobs active busy = .ok next)
    (found : next.store.get? job = some handle) (waits : handle.state = .waiting)
    (enabled : handle.spec.stealingDisabled = false)
    (fresh : handle.stealingAttempts < scene.config.maxStealing)
    (surplus : 0 < next.surplus scene jobs.length) (other : NodeId) :
    next.Withholds scene handle.session other := by
  rcases refuses_of_run member ran found waits enabled fresh surplus with none | refuses
  · have ended := run_keeps (kept_counted scene jobs.length) active counted
    rw [ran] at ended
    intro entry noted asks
    have nothing := ended.jobs_eq_zero none other
    rw [StealTable.jobs_of_get? noted] at nothing
    omega
  · exact (refuses other).withholds

end Job

end Busy

namespace Stealing

/-- A resolver knows how many jobs its peers ask for. -/
def Counted (stealing : Stealing) : Prop :=
  stealing.resolver.received.CountedBy stealing.resolver.counter

/-- The count stays right whatever happens. -/
theorem Counted.perform {before after : Stealing} {event : StealEvent}
    (counted : before.Counted) (performed : before.perform event = .ok after) :
    after.Counted := by
  cases event with
  | request peer request =>
      obtain ⟨⟨noted, resolver⟩, asked, rfl⟩ := Result.map_eq_ok.1 performed
      cases Resolver.heard_of_onStealRequest asked with
      | stranger absent => exact counted
      | member present added => exact counted.reset before.now added
  | discovery event =>
      obtain ⟨resolver, noted, rfl⟩ := Result.map_eq_ok.1 performed
      cases Resolver.told_of_onEvent noted with
      | kept silent => exact counted
      | queued remote joined new => exact counted
      | dropped remote departed added => exact counted.remove added
  | pass store waiting active order accepts =>
      obtain ⟨busy, ran, received, counter, -⟩ := perform_pass performed
      have begun : (before.busy store).received.CountedBy (before.busy store).counter := counted
      have ended := Busy.run_keeps (Busy.kept_counted (before.scene order) waiting.length) active
        begun
      rw [ran] at ended
      rw [Counted, received, counter]
      exact ended
  | change view =>
      cases performed
      exact counted
  | restrict restrictions =>
      cases performed
      exact counted
  | wait millis =>
      cases performed
      exact counted

/-- The figures of a pass are those of the part of it that serves peers. -/
theorem outcome_of_run {resolver : Resolver} {scene : PassScene} {store : JobStore}
    {waiting : List JobRef} {active : Nat} {busy : Busy} (accepts : NodeId → Bool)
    (ran : Busy.run scene waiting active
      { received := resolver.received, counter := resolver.counter, store } = .ok busy) :
    (resolver.collide scene accepts store waiting active).outcome.activated = busy.activated ∧
      (resolver.collide scene accepts store waiting active).outcome.rejected = busy.rejected := by
  simp only [Resolver.collide, ran]
  split
  · exact ⟨rfl, rfl⟩
  · exact ⟨rfl, rfl⟩

/-- Whatever happened before, a pass after which a surplus job that may be stolen still waits
leaves only valid requests open, of remote members that may not run this job. So the count of
requested jobs equals the sum of the requests that have not run out. -/
theorem open_requests_unsuitable {config : StealingConfig} {view : GridView} {resolver : Resolver}
    (started : Resolver.start config view = .ok resolver) {restrictions : Restrictions}
    {now : Moment} {history : List StealEvent} {before after : Stealing}
    (reached : ({ resolver, view, restrictions, now } : Stealing).run history = .ok before)
    {store : JobStore} {waiting : List JobRef} {active : Nat} {order : Arrangement NodeId}
    {accepts : NodeId → Bool} {pass : Pass}
    (passes : pass = before.resolver.collide (before.scene order) accepts store waiting active)
    (passed : before.perform (.pass store waiting active order accepts) = .ok after)
    {job : JobRef} {handle : JobHandle} (member : job ∈ waiting)
    (found : pass.store.get? job = some handle) (waits : handle.state = .waiting)
    (enabled : handle.spec.stealingDisabled = false)
    (fresh : handle.stealingAttempts < config.maxStealing)
    (surplus : config.waitThreshold.toNat + pass.outcome.activated + pass.outcome.rejected <
      waiting.length) :
    (∀ peer entry, after.resolver.received.get? peer = some entry → 0 < entry.jobs →
      entry.isExpired config.requestExpiry.toNat before.now = false ∧
        (∃ member ∈ before.view.remote, member.id = peer) ∧
        ∀ member ∈ before.restrictions.topology handle.session before.view.remote,
          member.id ≠ peer) ∧
      after.resolver.counter =
        after.resolver.received.liveTotal config.requestExpiry.toNat before.now := by
  obtain ⟨_, -, rfl⟩ := Result.map_eq_ok.1 started
  have none : Stealing.Counted
      { resolver := { config, queue := view.remote.map Member.id }, view, restrictions, now } := rfl
  have counts : before.Counted := run_keeps Counted.perform history none reached
  have counted : after.Counted := counts.perform passed
  have begun : Stealing.Entitled config
      { resolver := { config, queue := view.remote.map Member.id }, view, restrictions, now } :=
    ⟨rfl, fun peer entry found => nomatch found⟩
  have entitled : before.Entitled config := run_keeps Entitled.perform history begun reached
  have same : before.resolver.config = config := entitled.config_eq
  obtain ⟨busy, ran, received, -⟩ := perform_pass passed
  obtain ⟨kept, -⟩ := collide_of_run accepts ran
  obtain ⟨activated, rejected⟩ := outcome_of_run accepts ran
  subst passes
  rw [kept] at found
  rw [activated, rejected, ← same] at surplus
  have left : 0 < busy.surplus (before.scene order) waiting.length := by
    simp only [Busy.surplus, scene, Resolver.scene]
    omega
  have withheld : ∀ peer entry, after.resolver.received.get? peer = some entry → 0 < entry.jobs →
      entry.isExpired config.requestExpiry.toNat before.now = false ∧
        (before.scene order).isRemote peer = true ∧
        before.restrictions.allows handle.session peer = false := by
    intro peer entry asked asks
    have requested : (before.busy store).received.CountedBy (before.busy store).counter := counts
    have mayGo : handle.stealingAttempts < before.resolver.config.maxStealing := by
      rw [same]
      exact fresh
    rw [received] at asked
    rw [← same]
    exact Busy.withholds_of_run member requested ran found waits enabled mayGo left peer entry
      asked asks
  refine ⟨?_, ?_⟩
  · intro peer entry asked asks
    obtain ⟨valid, remote, barred⟩ := withheld peer entry asked asks
    obtain ⟨member, present, identity⟩ := List.any_eq_true.1 remote
    refine ⟨valid, ⟨member, present, of_decide_eq_true identity⟩, ?_⟩
    rintro other allowed rfl
    rw [(List.mem_filter.1 allowed).2] at barred
    cases barred
  · rw [StealTable.liveTotal_eq_total fun peer entry asked asks =>
      (withheld peer entry asked asks).1]
    exact counted

/-- A member asks for two jobs. It is given one of the two that wait, and its request for the
other one stays open, since that job belongs to a session of another node. -/
theorem open_requests_unsuitable_of_restricted :
    let peer : Member := { id := .ofNat 1 }
    let view : GridView := ⟨.ofNat 0, none, [peer]⟩
    let session : SessionId := .ofNat 9
    let bound : JobHandle :=
      { spec := { id := .ofNat 7 }, session, origin := .ofNat 0, createdAt := 0 }
    let free : JobHandle :=
      { spec := { id := .ofNat 8 }, session := default, origin := .ofNat 0, createdAt := 0 }
    let restrictions : Restrictions := ⟨[(session, [.ofNat 2])], by simp⟩
    let config : StealingConfig := { activeThreshold := 0 }
    let resolver : Resolver := { config, queue := [peer.id] }
    let noted : StealTable := ⟨⟨[(peer.id, ⟨2, 0, 0⟩)], by simp⟩, 1⟩
    let before : Stealing :=
      { resolver := { resolver with received := noted, counter := 2 }
        view, restrictions, now := 5, records := [.asked peer.id 2 0] }
    let pass := before.resolver.collide (before.scene default) (fun _ => true) ⟨#[bound, free]⟩
      [0, 1] 0
    Resolver.start config view = .ok resolver ∧
      ({ resolver, view, restrictions, now := 0 } : Stealing).run
          [.request peer.id ⟨2⟩, .wait 5] = .ok before ∧
      pass.store.get? 0 = some bound ∧
      config.waitThreshold.toNat + pass.outcome.activated + pass.outcome.rejected < 2 ∧
      ∃ after, before.perform (.pass ⟨#[bound, free]⟩ [0, 1] 0 default fun _ => true) =
          .ok after ∧
        after.resolver.received.jobs peer.id = 1 ∧
        (∀ other entry, after.resolver.received.get? other = some entry → 0 < entry.jobs →
          entry.isExpired config.requestExpiry.toNat before.now = false ∧
            (∃ member ∈ before.view.remote, member.id = other) ∧
            ∀ member ∈ before.restrictions.topology bound.session before.view.remote,
              member.id ≠ other) ∧
        after.resolver.counter =
          after.resolver.received.liveTotal config.requestExpiry.toNat before.now := by
  intro peer view session bound free restrictions config resolver noted before pass
  have started : Resolver.start config view = .ok resolver := rfl
  have reached : ({ resolver, view, restrictions, now := 0 } : Stealing).run
      [.request peer.id ⟨2⟩, .wait 5] = .ok before := rfl
  have found : pass.store.get? 0 = some bound := by decide
  have surplus :
      config.waitThreshold.toNat + pass.outcome.activated + pass.outcome.rejected < 2 := by decide
  refine ⟨started, reached, found, surplus, _, rfl, by decide, ?_⟩
  exact open_requests_unsuitable started reached rfl rfl (by decide) found rfl rfl (by decide)
    surplus

end Stealing

end JobGrid
