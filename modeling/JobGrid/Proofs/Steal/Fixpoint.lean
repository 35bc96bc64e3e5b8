import JobGrid.Proofs.Steal.Thresholds

/-!
# Passes that follow at once

One pass leaves nothing to do for another one that follows at once. The first pass fills the
room for active jobs. What still waits after it is not surplus, or may not be given away, or is
refused by every peer that the second pass could serve, in whatever order.
-/

namespace JobGrid

namespace Busy

variable {scene : PassScene} {waiting : Nat} {busy next : Busy}

/-- A job that every peer refuses stays where it is, and so do the requests. -/
theorem handOver_of_refuses {session : SessionId} (job : JobRef) {peers : List NodeId}
    (refuse : ∀ peer ∈ peers, busy.offer scene session peer = .unsuitable) :
    handOver scene session job peers busy = .ok busy := by
  induction peers with
  | nil => rfl
  | cons peer rest ih =>
      rw [handOver, refuse peer List.mem_cons_self]
      exact ih fun peer later => refuse peer (List.mem_cons_of_mem _ later)

/-- Nothing is given away if everybody refuses each job that may be given away and is surplus. -/
theorem giveAway_of_refuses {jobs : List JobRef}
    (refuse : ∀ job ∈ jobs, ∀ handle, busy.store.get? job = some handle →
      busy.mayGive scene handle = true → 0 < busy.surplus scene waiting →
      ∀ peer, busy.Refuses scene handle.session peer) :
    giveAway scene waiting jobs busy = .ok busy := by
  induction jobs with
  | nil => rfl
  | cons job rest ih =>
      have later := ih fun job later => refuse job (List.mem_cons_of_mem _ later)
      rw [giveAway]
      cases found : busy.store.get? job with
      | none => exact later
      | some handle =>
          cases may : busy.mayGive scene handle with
          | false =>
              simp only [may, Bool.not_false, if_true]
              exact later
          | true =>
              simp only [may, Bool.not_true, Bool.false_eq_true, if_false]
              by_cases exhausted : busy.surplus scene waiting ≤ 0
              · rw [if_pos exhausted]
              · have refused := refuse job List.mem_cons_self handle found may (by omega)
                have kept : handOver scene handle.session job
                    (scene.order.arrange busy.received.peers.keys) busy = .ok busy := by
                  apply handOver_of_refuses
                  intro peer listed
                  have arranged := (Arrangement.mem_arrange _).1 listed
                  obtain ⟨entry, noted⟩ := Table.mem_keys_iff.1 arranged
                  exact (offer_eq_unsuitable_iff noted).2 (refused peer)
                rw [if_neg exhausted, kept]
                exact later

section Again

variable {jobs : List JobRef} {active : Nat}

/-- After a pass over distinct jobs that all wait, either no job waits any more or there is no room
for one more. -/
theorem room_of_run (begins : busy.activated = 0) (distinct : jobs.Nodup)
    (wait : ∀ job ∈ jobs, busy.store.waits job = true)
    (ran : run scene jobs active busy = .ok next) :
    jobs.filter next.store.waits = [] ∨ room scene (active + next.activated) = 0 := by
  obtain ⟨activated, started⟩ := starts_of_run begins distinct wait ran
  by_cases all : jobs.length ≤ room scene active
  · left
    rw [List.take_of_length_le all] at started
    apply List.filter_eq_nil_iff.2
    intro job listed waits
    obtain ⟨handle, found, state⟩ := JobStore.waits_eq_true_iff.1 waits
    obtain ⟨original, -, -, there⟩ := started job listed
    rw [there, Option.some.injEq] at found
    simp [← found] at state
  · right
    rw [List.length_take] at activated
    simp only [room] at all activated ⊢
    omega

/-- After a pass over distinct jobs that all wait, a pass over those that still wait, beside the
active jobs and those that the first pass started, does nothing. -/
theorem run_again (begins : busy.activated = 0 ∧ busy.rejected = 0) (distinct : jobs.Nodup)
    (wait : ∀ job ∈ jobs, busy.store.waits job = true)
    (ran : run scene jobs active busy = .ok next) (order : Arrangement NodeId) :
    run { scene with order } (jobs.filter next.store.waits) (active + next.activated)
        { received := next.received, counter := next.counter, store := next.store } =
      .ok { received := next.received, counter := next.counter, store := next.store } := by
  have counted := countP_of_run distinct (List.Subset.refl jobs) ran
  rw [List.countP_eq_length.2 wait, List.countP_eq_length_filter] at counted
  rcases room_of_run begins.1 distinct wait ran with none | full
  · rw [none, run, List.take_nil, List.drop_nil]
    rfl
  · have full : room { scene with order } (active + next.activated) = 0 := full
    rw [run, full, List.drop_zero, List.take_zero, List.foldl_nil]
    apply giveAway_of_refuses
    intro job listed handle found may surplus peer
    obtain ⟨member, waits⟩ := List.mem_filter.1 listed
    obtain ⟨same, there, state⟩ := JobStore.waits_eq_true_iff.1 waits
    rw [show next.store.get? job = some handle from found, Option.some.injEq] at there
    subst there
    simp only [mayGive, Bool.and_eq_true, Bool.not_eq_true', decide_eq_true_eq] at may
    -- The shorter list makes up for the counts that start from zero again.
    have left : 0 < next.surplus scene jobs.length := by
      simp only [Busy.surplus] at surplus ⊢
      omega
    rcases refuses_of_run member ran found state may.1.1 may.2 left with none | refuses
    · simp [none] at may
    · exact refuses peer

/-- After a pass over distinct jobs that all wait, those of them are active that it started. -/
theorem length_active_of_run (begins : busy.activated = 0) (distinct : jobs.Nodup)
    (wait : ∀ job ∈ jobs, busy.store.waits job = true)
    (ran : run scene jobs active busy = .ok next) :
    (jobs.filter fun job => next.store.state? job = some .active).length = next.activated := by
  obtain ⟨activated, started⟩ := starts_of_run begins distinct wait ran
  have first : ∀ job ∈ jobs.take (room scene active), next.store.state? job = some .active := by
    intro job listed
    obtain ⟨handle, -, -, there⟩ := started job listed
    exact JobStore.state?_of_get? there
  have rest : ∀ job ∈ jobs.drop (room scene active), next.store.state? job ≠ some .active := by
    intro job listed moved
    cases dealt_of_run ran job with
    | kept same =>
        have waits := wait job (List.mem_of_mem_drop listed)
        simp only [JobStore.waits, JobStore.state?, ← same, decide_eq_true_eq] at waits
        rw [JobStore.state?, waits] at moved
        cases moved
    | started begun => exact List.disjoint_take_drop distinct (Nat.le_refl _) begun listed
    | given _ given =>
        obtain ⟨handle, thief, -, -, there⟩ := given
        rw [JobStore.state?_of_get? there] at moved
        cases moved
  calc (jobs.filter fun job => next.store.state? job = some .active).length
      = ((jobs.take (room scene active) ++ jobs.drop (room scene active)).filter fun job =>
          next.store.state? job = some .active).length := by rw [List.take_append_drop]
    _ = (jobs.take (room scene active)).length := by
        rw [List.filter_append, List.filter_eq_self.2 fun job listed => by simp [first job listed],
          List.filter_eq_nil_iff.2 fun job listed => by simp [rest job listed], List.append_nil]
    _ = next.activated := activated.symm

end Again

end Busy

namespace Stealing

/-- Whatever happened before, after a pass over distinct jobs that all wait, another pass at the
same instant over the jobs that still wait, with the jobs that were started among the active ones,
starts nothing, gives nothing away, and leaves all requests of peers and their count as they are.
It may serve peers in another order and reach others of them. -/
theorem pass_reaches_fixpoint {config : StealingConfig} {view : GridView} {resolver : Resolver}
    (started : Resolver.start config view = .ok resolver) {restrictions : Restrictions}
    {now : Moment} {history : List StealEvent} {before : Stealing}
    (reached : ({ resolver, view, restrictions, now } : Stealing).run history = .ok before)
    {store : JobStore} {waiting : List JobRef} (distinct : waiting.Nodup)
    (wait : ∀ job ∈ waiting, store.state? job = some .waiting) (active : List JobRef)
    {order later : Arrangement NodeId} {accepts reaches : NodeId → Bool} {pass again : Pass}
    (passes : pass = before.resolver.collide (before.scene order) accepts store waiting
      active.length)
    (repeats : again = pass.resolver.collide
      (pass.resolver.scene before.view before.restrictions later before.now) reaches pass.store
      (waiting.filter fun job => pass.store.state? job = some .waiting)
      (active ++ waiting.filter fun job => pass.store.state? job = some .active).length) :
    again.outcome.activated = 0 ∧ again.outcome.rejected = 0 ∧ again.store = pass.store ∧
      again.resolver.received = pass.resolver.received ∧
      again.resolver.counter = pass.resolver.counter := by
  obtain ⟨busy, ran⟩ := exists_busy started reached (before.scene order) store waiting active.length
  obtain ⟨kept, received, counter, config⟩ := collide_of_run accepts ran
  rw [← passes] at kept received counter config
  have waits : ∀ job ∈ waiting, store.waits job = true :=
    fun job listed => decide_eq_true (wait job listed)
  have scene : pass.resolver.scene before.view before.restrictions later before.now =
      { before.scene order with order := later } := by
    rw [Resolver.scene, config]
    rfl
  have held : (active ++ waiting.filter fun job => busy.store.state? job = some .active).length =
      active.length + busy.activated := by
    rw [List.length_append, Busy.length_active_of_run rfl distinct waits ran]
  have quiet := Busy.run_again ⟨rfl, rfl⟩ distinct waits ran later
  rw [← held, ← scene, ← received, ← counter, ← kept] at quiet
  obtain ⟨activated, rejected⟩ := outcome_of_run reaches quiet
  obtain ⟨store, requests, count, -⟩ := collide_of_run reaches quiet
  subst repeats
  exact ⟨activated, rejected, store, requests, count⟩

/-- Two members ask for jobs that belong to a session of the second one. The first pass starts a
job, and gives one to the second member. It leaves the request of the first member open, and so
does the next pass, which serves the members in the other order. -/
theorem pass_reaches_fixpoint_of_asked :
    let peer : Member := { id := .ofNat 1 }
    let owner : Member := { id := .ofNat 2 }
    let view : GridView := ⟨.ofNat 0, none, [peer, owner]⟩
    let session : SessionId := .ofNat 9
    let job (number : Nat) : JobHandle :=
      { spec := { id := .ofNat number }, session, origin := .ofNat 0, createdAt := 0 }
    let restrictions : Restrictions := ⟨[(session, [owner.id])], by simp⟩
    let config : StealingConfig := { activeThreshold := 1 }
    let resolver : Resolver := { config, queue := [peer.id, owner.id] }
    let store : JobStore := ⟨#[job 6, job 7, job 8]⟩
    let noted : StealTable := ⟨⟨[(peer.id, ⟨2, 0, 0⟩), (owner.id, ⟨1, 0, 1⟩)], by decide⟩, 2⟩
    let before : Stealing :=
      { resolver := { resolver with received := noted, counter := 3 }
        view, restrictions, records := [.asked owner.id 1 0, .asked peer.id 2 0] }
    let turned : Arrangement NodeId := ⟨List.reverse, List.reverse_perm⟩
    let pass := before.resolver.collide (before.scene default) (fun _ => true) store [0, 1, 2]
      ([] : List JobRef).length
    let still := ([0, 1, 2] : List JobRef).filter fun job => pass.store.state? job = some .waiting
    let begun := ([0, 1, 2] : List JobRef).filter fun job => pass.store.state? job = some .active
    let again := pass.resolver.collide
      (pass.resolver.scene before.view before.restrictions turned before.now) (fun _ => false)
      pass.store still ([] ++ begun).length
    Resolver.start config view = .ok resolver ∧
      ({ resolver, view, restrictions } : Stealing).run
          [.request peer.id ⟨2⟩, .request owner.id ⟨1⟩] = .ok before ∧
      still = [2] ∧ begun = [0] ∧ pass.resolver.counter = 2 ∧
      again.outcome.activated = 0 ∧ again.outcome.rejected = 0 ∧ again.store = pass.store ∧
      again.resolver.received = pass.resolver.received ∧
      again.resolver.counter = pass.resolver.counter := by
  intro peer owner view session job restrictions config resolver store noted before turned pass
    still begun again
  have started : Resolver.start config view = .ok resolver := rfl
  have reached : ({ resolver, view, restrictions } : Stealing).run
      [.request peer.id ⟨2⟩, .request owner.id ⟨1⟩] = .ok before := rfl
  have distinct : ([0, 1, 2] : List JobRef).Nodup := by decide
  have wait : ∀ job ∈ ([0, 1, 2] : List JobRef), store.state? job = some .waiting := by decide
  have passes : pass = before.resolver.collide (before.scene default) (fun _ => true) store
      [0, 1, 2] ([] : List JobRef).length := rfl
  have repeats : again = pass.resolver.collide
      (pass.resolver.scene before.view before.restrictions turned before.now) (fun _ => false)
      pass.store still ([] ++ begun).length := rfl
  refine ⟨started, reached, by decide, by decide, by decide, ?_⟩
  exact pass_reaches_fixpoint started reached distinct wait [] passes repeats

end Stealing

end JobGrid
