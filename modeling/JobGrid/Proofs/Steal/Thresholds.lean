import JobGrid.Proofs.Steal.PassLog
import JobGrid.Proofs.Steal.Words

/-!
# The thresholds of a pass

A pass keeps within the thresholds of a node. It may start the jobs that come first, as many as
there is room for, and it may give away the others, as long as more of them wait than the node
keeps for itself. All other jobs stay as they are.
-/

namespace JobGrid

/-! ## What becomes of a job -/

namespace JobStore

variable {store : JobStore} {ref other : JobRef} {handle : JobHandle} {refs : List JobRef}

/-- Whether a job waits. -/
def waits (store : JobStore) (ref : JobRef) : Bool := store.state? ref = some .waiting

/-- A job that waited was started. -/
def Started (earlier later : JobStore) (ref : JobRef) : Prop :=
  ∃ handle, earlier.get? ref = some handle ∧ handle.state = .waiting ∧
    later.get? ref = some { handle with state := .active }

/-- A job that waited was given to a peer. -/
def Given (earlier later : JobStore) (ref : JobRef) : Prop :=
  ∃ handle thief, earlier.get? ref = some handle ∧ handle.state = .waiting ∧
    later.get? ref = some (({ handle with state := .cancelled } : JobHandle).markStolen thief)

theorem waits_eq_true_iff :
    store.waits ref = true ↔ ∃ handle, store.get? ref = some handle ∧ handle.state = .waiting := by
  simp [waits, state?]

theorem waits_set (found : store.get? ref = some handle) (changed : JobHandle) :
    (store.set ref changed).waits other =
      if ref = other then decide (changed.state = .waiting) else store.waits other := by
  simp only [waits, state?, get?_set_of_get? found]
  split_ifs <;> simp

/-- When a job stops waiting, one less of the jobs waits. -/
theorem countP_waits_set (distinct : refs.Nodup) (member : ref ∈ refs)
    (found : store.get? ref = some handle) (waits : handle.state = .waiting)
    {changed : JobHandle} (moved : changed.state ≠ .waiting) :
    refs.countP (store.set ref changed).waits + 1 = refs.countP store.waits := by
  symm
  apply countP_eq_succ distinct member
  · intro other differs
    rw [waits_set found, if_neg (Ne.symm differs)]
  · rw [waits_set found, if_pos rfl, decide_eq_false moved]
  · exact waits_eq_true_iff.2 ⟨handle, found, waits⟩

end JobStore

/-- What becomes of a job in a pass: it stays as it is, or it is one of those that may be started
and is started, or one of those that may be given away and is given away. -/
inductive Dealt (first rest : List JobRef) (earlier later : JobStore) (ref : JobRef) : Prop where
  | kept (same : later.get? ref = earlier.get? ref)
  | started (listed : ref ∈ first) (started : earlier.Started later ref)
  | given (listed : ref ∈ rest) (given : earlier.Given later ref)

namespace Dealt

variable {first rest : List JobRef} {earlier middle later : JobStore} {ref : JobRef}

/-- A job that still waits stayed as it was. -/
theorem get?_eq_of_waiting {handle : JobHandle} (dealt : Dealt first rest earlier later ref)
    (found : later.get? ref = some handle) (waits : handle.state = .waiting) :
    earlier.get? ref = some handle := by
  cases dealt with
  | kept same => exact same ▸ found
  | started _ started =>
      obtain ⟨original, -, -, there⟩ := started
      rw [there, Option.some.injEq] at found
      simp [← found] at waits
  | given _ given =>
      obtain ⟨original, thief, -, -, there⟩ := given
      rw [there, Option.some.injEq] at found
      simp [← found, JobHandle.markStolen] at waits

theorem congr {next : JobStore} (dealt : Dealt first rest earlier later ref)
    (same : next.get? ref = later.get? ref) : Dealt first rest earlier next ref := by
  cases dealt with
  | kept kept => exact .kept (same.trans kept)
  | started listed started =>
      obtain ⟨handle, found, waits, there⟩ := started
      exact .started listed ⟨handle, found, waits, same.trans there⟩
  | given listed given =>
      obtain ⟨handle, thief, found, waits, there⟩ := given
      exact .given listed ⟨handle, thief, found, waits, same.trans there⟩

/-- Jobs are started first and given away afterwards. -/
theorem trans (begins : Dealt first [] earlier middle ref) (ends : Dealt [] rest middle later ref) :
    Dealt first rest earlier later ref := by
  cases ends with
  | kept same =>
      cases begins with
      | kept kept => exact .kept (same.trans kept)
      | started listed started => exact (Dealt.started listed started).congr same
      | given listed => exact absurd listed List.not_mem_nil
  | started listed => exact absurd listed List.not_mem_nil
  | given listed given =>
      obtain ⟨handle, thief, found, waits, there⟩ := given
      exact .given listed ⟨handle, thief, begins.get?_eq_of_waiting found waits, waits, there⟩

/-- Only a job that may be started is started. -/
theorem mem_of_started (dealt : Dealt first rest earlier later ref)
    (started : earlier.Started later ref) : ref ∈ first := by
  obtain ⟨handle, found, waits, there⟩ := started
  cases dealt with
  | kept same =>
      rw [same, found, Option.some.injEq] at there
      rw [there] at waits
      cases waits
  | started listed => exact listed
  | given _ given =>
      obtain ⟨original, thief, -, -, moved⟩ := given
      rw [moved, Option.some.injEq] at there
      have state : JobState.cancelled = .active := congrArg JobHandle.state there
      cases state

end Dealt

/-! ## What the parts of a pass do -/

namespace Busy

variable {scene : PassScene} {waiting : Nat} {before busy next : Busy} {job : JobRef}
  {first rest : List JobRef}

/-- What is said about jobs and how many of them were started and given away is kept as soon as it
is kept by giving a job away. -/
theorem gives_of_jobs {keeps : Busy → Prop} {offered : JobRef → Prop}
    (congr : ∀ {busy next : Busy}, keeps busy → next.store = busy.store →
      next.activated = busy.activated → next.rejected = busy.rejected → keeps next)
    (give : ∀ {busy next : Busy} {job : JobRef} {handle : JobHandle} {peer : NodeId}, keeps busy →
      offered job → busy.store.get? job = some handle → handle.state = .waiting →
      0 < busy.surplus scene waiting →
      next.store =
        busy.store.set job (({ handle with state := .cancelled } : JobHandle).markStolen peer) →
      next.activated = busy.activated → next.rejected = busy.rejected + 1 → keeps next) :
    Gives scene waiting True keeps offered where
  forget := by
    intro busy peer kept _
    cases dropped : busy.forget peer with
    | error fault => trivial
    | ok next =>
        obtain ⟨counter, -, rfl⟩ := Result.map_eq_ok.1 dropped
        exact congr kept rfl rfl rfl
  expire := by
    intro busy peer entry kept _ _
    cases tookBack : busy.expire scene peer with
    | error fault => trivial
    | ok next =>
        obtain ⟨counter, -, rfl⟩ := Result.map_eq_ok.1 tookBack
        exact congr kept rfl rfl rfl
  give := by
    intro busy peer entry job handle kept found waits _ _ surplus _ asked asks _ _ listed
    have positive : 0 < busy.received.jobs peer := StealTable.jobs_of_get? asked ▸ asks
    rw [give_of_asks busy _ scene job positive]
    cases busy.counter.add (-1) with
    | error fault => trivial
    | ok counter =>
        exact give kept listed found waits surplus (JobStore.markStolen_set found _ peer) rfl rfl

/-- What a part of a pass did: each job that stopped waiting was counted, and no more were given
away than were surplus. -/
structure Deals (scene : PassScene) (waiting : Nat) (first rest : List JobRef)
    (before busy : Busy) : Prop where
  job : ∀ ref, Dealt first rest before.store busy.store ref
  count : ∀ refs : List JobRef, refs.Nodup → first ++ rest ⊆ refs →
    refs.countP busy.store.waits + busy.activated + busy.rejected =
      refs.countP before.store.waits + before.activated + before.rejected
  surplus : busy.rejected = before.rejected ∨ 0 ≤ busy.surplus scene waiting

namespace Deals

theorem refl (scene : PassScene) (waiting : Nat) (first rest : List JobRef) (busy : Busy) :
    Deals scene waiting first rest busy busy where
  job _ := .kept rfl
  count _ _ _ := rfl
  surplus := .inl rfl

/-- Another job stops waiting and is counted. -/
theorem move {handle changed : JobHandle} (deals : Deals scene waiting first rest before busy)
    (found : busy.store.get? job = some handle) (waits : handle.state = .waiting)
    (fate : job ∈ first ∧ changed = { handle with state := .active } ∨
      job ∈ rest ∧ ∃ thief,
        changed = ({ handle with state := .cancelled } : JobHandle).markStolen thief)
    (store : next.store = busy.store.set job changed)
    (counted : next.activated + next.rejected = busy.activated + busy.rejected + 1)
    (surplus : next.rejected = before.rejected ∨ 0 ≤ next.surplus scene waiting) :
    Deals scene waiting first rest before next := by
  -- A job that waits was not dealt with yet.
  have original := (deals.job job).get?_eq_of_waiting found waits
  have looked := JobStore.get?_set_of_get? found
  refine ⟨?_, ?_, surplus⟩
  · intro ref
    by_cases own : job = ref
    · subst own
      have there : next.store.get? job = some changed := by rw [store, looked, if_pos rfl]
      rcases fate with ⟨listed, rfl⟩ | ⟨listed, thief, rfl⟩
      · exact .started listed ⟨handle, original, waits, there⟩
      · exact .given listed ⟨handle, thief, original, waits, there⟩
    · apply (deals.job ref).congr
      rw [store, looked, if_neg own]
  · intro refs distinct subset
    have member : job ∈ refs := by
      apply subset
      rw [List.mem_append]
      exact fate.imp And.left And.left
    have moved : changed.state ≠ .waiting := by
      rcases fate with ⟨-, rfl⟩ | ⟨-, thief, rfl⟩
      · exact fun same => nomatch same
      · exact fun same => nomatch same
    have less := JobStore.countP_waits_set distinct member found waits moved
    have before := deals.count refs distinct subset
    rw [store]
    omega

theorem start (deals : Deals scene waiting first rest before busy) (listed : job ∈ first)
    (none : busy.rejected = before.rejected) :
    Deals scene waiting first rest before (busy.start job) := by
  rcases busy.start_cases job with ⟨same, -⟩ | ⟨handle, found, waits, started⟩
  · rw [same]
    exact deals
  · rw [started]
    apply deals.move found waits (.inl ⟨listed, rfl⟩) rfl
    · simp only
      omega
    · exact .inl none

/-- Starting some jobs. -/
theorem starts {jobs : List JobRef} (deals : Deals scene waiting first rest before busy)
    (listed : jobs ⊆ first) (none : busy.rejected = before.rejected) :
    Deals scene waiting first rest before (jobs.foldl Busy.start busy) ∧
      (jobs.foldl Busy.start busy).rejected = before.rejected ∧
      (jobs.foldl Busy.start busy).activated ≤ busy.activated + jobs.length := by
  induction jobs generalizing busy with
  | nil => exact ⟨deals, none, Nat.le_refl _⟩
  | cons job more ih =>
      obtain ⟨head, tail⟩ := List.cons_subset.1 listed
      obtain ⟨activated, rejected⟩ := busy.counts_start job
      obtain ⟨ended, still, bound⟩ := ih (deals.start head none) tail (rejected.trans none)
      refine ⟨ended, still, ?_⟩
      rw [List.foldl_cons, List.length_cons]
      omega

/-- Giving some jobs away. -/
theorem giveAway {jobs : List JobRef} (gave : Busy.giveAway scene waiting jobs busy = .ok next) :
    Deals scene waiting [] jobs busy next ∧ next.activated = busy.activated := by
  have gives : Gives scene waiting True
      (fun next => Deals scene waiting [] jobs busy next ∧ next.activated = busy.activated)
      (fun job => job ∈ jobs) := by
    apply gives_of_jobs
    · rintro middle next ⟨deals, activated⟩ store started rejected
      refine ⟨⟨?_, ?_, ?_⟩, started.trans activated⟩
      · exact fun ref => (deals.job ref).congr (by rw [store])
      · rw [store, started, rejected]
        exact deals.count
      · rw [rejected, Busy.surplus, started, rejected]
        exact deals.surplus
    · rintro middle next job handle peer ⟨deals, activated⟩ listed found waits positive store
        started rejected
      refine ⟨?_, started.trans activated⟩
      apply deals.move found waits (.inr ⟨listed, peer, rfl⟩) store
      · omega
      · right
        simp only [Busy.surplus] at positive ⊢
        omega
  have ended := giveAway_keeps gives jobs (fun _ listed => listed) busy ⟨refl .., rfl⟩
  rwa [gave] at ended

end Deals

section Run

variable {jobs : List JobRef} {active : Nat} {ref : JobRef}

/-- What a pass did: it dealt with some jobs until it had tried to start the first ones, and with
some of the others after that. -/
theorem deals_of_run (ran : run scene jobs active busy = .ok next) :
    ∃ begun : Busy,
      begun = (jobs.take (room scene active)).foldl start busy ∧
        Deals scene jobs.length (jobs.take (room scene active)) [] busy begun ∧
        begun.rejected = busy.rejected ∧
        begun.activated ≤ busy.activated + (jobs.take (room scene active)).length ∧
        Deals scene jobs.length [] (jobs.drop (room scene active)) begun next ∧
        next.activated = begun.activated := by
  obtain ⟨begins, rejected, bound⟩ := (Deals.refl scene jobs.length
    (jobs.take (room scene active)) [] busy).starts (List.Subset.refl _) rfl
  obtain ⟨ends, activated⟩ := Deals.giveAway ran
  exact ⟨_, rfl, begins, rejected, bound, ends, activated⟩

/-- A pass starts only the first jobs and gives only the others away. -/
theorem dealt_of_run (ran : run scene jobs active busy = .ok next) (ref : JobRef) :
    Dealt (jobs.take (room scene active)) (jobs.drop (room scene active)) busy.store next.store
      ref := by
  obtain ⟨begun, -, begins, -, -, ends, -⟩ := deals_of_run ran
  exact (begins.job ref).trans (ends.job ref)

/-- A job that a pass tried to start is not given away, even if it is listed among the others,
too. -/
theorem not_given_of_run (ran : run scene jobs active busy = .ok next)
    (listed : ref ∈ jobs.take (room scene active)) : ¬ busy.store.Given next.store ref := by
  obtain ⟨begun, same, begins, -, -, ends, -⟩ := deals_of_run ran
  rintro ⟨handle, thief, found, waits, there⟩
  -- None of the first jobs waits when the others are gone through.
  have moved : ∀ other : JobHandle, begun.store.get? ref = some other → other.state ≠ .waiting :=
    fun other here => not_waiting_of_started scene listed (same ▸ here)
  cases ends.job ref with
  | kept kept =>
      rw [kept] at there
      cases begins.job ref with
      | kept unchanged => exact moved handle (unchanged.trans found) waits
      | started _ started =>
          obtain ⟨original, -, -, here⟩ := started
          rw [here, Option.some.injEq] at there
          have state : JobState.active = .cancelled := congrArg JobHandle.state there
          cases state
      | given none => cases none
  | started none => cases none
  | given _ given =>
      obtain ⟨other, -, here, waiting, -⟩ := given
      exact moved other here waiting

/-- Each job that stopped waiting in a pass was counted. -/
theorem countP_of_run {refs : List JobRef} (distinct : refs.Nodup) (subset : jobs ⊆ refs)
    (ran : run scene jobs active busy = .ok next) :
    refs.countP next.store.waits + next.activated + next.rejected =
      refs.countP busy.store.waits + busy.activated + busy.rejected := by
  obtain ⟨begun, -, begins, -, -, ends, -⟩ := deals_of_run ran
  have first : jobs.take (room scene active) ++ [] ⊆ refs := by
    rw [List.append_nil]
    exact List.Subset.trans (List.take_subset ..) subset
  have rest : [] ++ jobs.drop (room scene active) ⊆ refs :=
    List.Subset.trans (List.drop_subset ..) subset
  rw [ends.count refs distinct rest, begins.count refs distinct first]

/-- A pass starts no more jobs than there is room for and gives away no more than are surplus. -/
theorem counts_of_run (begins : busy.activated = 0 ∧ busy.rejected = 0)
    (ran : run scene jobs active busy = .ok next) :
    next.activated ≤ (jobs.take (room scene active)).length ∧
      (next.rejected = 0 ∨ 0 ≤ next.surplus scene jobs.length) := by
  obtain ⟨begun, -, -, rejected, bound, ends, activated⟩ := deals_of_run ran
  refine ⟨by omega, ?_⟩
  rw [← begins.2, ← rejected]
  exact ends.surplus

/-- A pass over distinct jobs that all wait starts all of the first ones. -/
theorem starts_of_run (begins : busy.activated = 0) (distinct : jobs.Nodup)
    (wait : ∀ job ∈ jobs, busy.store.waits job = true)
    (ran : run scene jobs active busy = .ok next) :
    next.activated = (jobs.take (room scene active)).length ∧
      ∀ job ∈ jobs.take (room scene active), busy.store.Started next.store job := by
  obtain ⟨begun, same, started, rejected, -, -, activated⟩ := deals_of_run ran
  have waited : ∀ job ∈ jobs.take (room scene active), busy.store.waits job = true :=
    fun job listed => wait job (List.mem_of_mem_take listed)
  have moved : ∀ job ∈ jobs.take (room scene active), begun.store.waits job = false := by
    intro job listed
    rw [Bool.eq_false_iff, Ne, JobStore.waits_eq_true_iff]
    rintro ⟨handle, found, waits⟩
    exact not_waiting_of_started scene listed (same ▸ found) waits
  refine ⟨?_, ?_⟩
  · have counted := started.count _ (distinct.sublist (List.take_sublist ..))
      (by rw [List.append_nil]; exact List.Subset.refl _)
    rw [List.countP_eq_length.2 waited, List.countP_eq_zero.2 fun job listed => by
      rw [moved job listed]; exact Bool.false_ne_true] at counted
    omega
  · intro job listed
    cases dealt_of_run ran job with
    | kept kept =>
        obtain ⟨handle, found, waits⟩ := JobStore.waits_eq_true_iff.1 (waited job listed)
        have stays := get?_of_giveAway ran (kept.trans found) waits
        exact absurd waits (not_waiting_of_started scene listed stays)
    | started _ started => exact started
    | given _ given => exact absurd given (not_given_of_run ran listed)

/-- If a pass over distinct jobs that all wait gives any away, the node keeps as many waiting ones
as it is to keep. -/
theorem threshold_le_of_run (begins : busy.activated = 0 ∧ busy.rejected = 0)
    (distinct : jobs.Nodup) (wait : ∀ job ∈ jobs, busy.store.waits job = true)
    (ran : run scene jobs active busy = .ok next) (given : 0 < next.rejected) :
    scene.config.waitThreshold.toNat ≤
      (jobs.filter fun job => next.store.state? job = some .waiting).length := by
  obtain ⟨-, nothing | surplus⟩ := counts_of_run begins ran
  · omega
  have counted := countP_of_run distinct (List.Subset.refl jobs) ran
  have before : jobs.countP busy.store.waits = jobs.length := List.countP_eq_length.2 wait
  have after : jobs.countP next.store.waits =
      (jobs.filter fun job => next.store.state? job = some .waiting).length :=
    List.countP_eq_length_filter
  simp only [Busy.surplus] at surplus
  omega

end Run

end Busy

/-! ## Passes over the jobs of a node -/

/-- A pass starts only the first jobs and gives only the others away. -/
theorem Resolver.dealt_collide (resolver : Resolver) (scene : PassScene)
    (accepts : NodeId → Bool) (store : JobStore) (waiting : List JobRef) (active : Nat)
    (job : JobRef) :
    Dealt (waiting.take (Busy.room scene active)) (waiting.drop (Busy.room scene active)) store
      (resolver.collide scene accepts store waiting active).store job := by
  cases ran : Busy.run scene waiting active
      { received := resolver.received, counter := resolver.counter, store } with
  | error fault =>
      simp only [collide, ran]
      exact .kept rfl
  | ok busy =>
      rw [(Stealing.collide_of_run accepts ran).1]
      exact Busy.dealt_of_run ran job

namespace Stealing

variable {config : StealingConfig} {view : GridView} {resolver : Resolver}
  {restrictions : Restrictions} {now : Moment} {history : List StealEvent} {before : Stealing}

/-- Whatever happened before, the first half of a pass gets to its end. -/
theorem exists_busy (started : Resolver.start config view = .ok resolver)
    (reached : ({ resolver, view, restrictions, now } : Stealing).run history = .ok before)
    (scene : PassScene) (store : JobStore) (waiting : List JobRef) (active : Nat) :
    ∃ busy, Busy.run scene waiting active (before.busy store) = .ok busy := by
  obtain ⟨-, -, rfl⟩ := Result.map_eq_ok.1 started
  have none : Fits
      { resolver := { config, queue := view.remote.map Member.id }, view, restrictions, now } :=
    ⟨rfl, (by decide : (0 : Int) < 2 ^ 63)⟩
  have fits : before.Fits := run_keeps Fits.perform history none reached
  obtain ⟨busy, ran, -⟩ := Busy.exists_run scene waiting active (before.busy store) fits
  exact ⟨busy, ran⟩

theorem config_of_reached (started : Resolver.start config view = .ok resolver)
    (reached : ({ resolver, view, restrictions, now } : Stealing).run history = .ok before) :
    before.resolver.config = config := by
  obtain ⟨-, -, rfl⟩ := Result.map_eq_ok.1 started
  have begun : Entitled config
      { resolver := { config, queue := view.remote.map Member.id }, view, restrictions, now } :=
    ⟨rfl, fun peer entry found => nomatch found⟩
  have entitled : before.Entitled config := run_keeps Entitled.perform history begun reached
  exact entitled.config_eq

/-- Whatever happened before, a pass starts only the jobs that come first, as many as fit beside
the active ones, and gives away only others, and no more than are left over when the node keeps as
many as it is to keep. If the jobs are distinct and all of them wait, then all of the first ones
are started, and if any are given away, enough of the others wait on. All jobs that are neither
started nor given away stay as they are. -/
theorem pass_within_thresholds (started : Resolver.start config view = .ok resolver)
    (reached : ({ resolver, view, restrictions, now } : Stealing).run history = .ok before)
    (store : JobStore) (waiting active : List JobRef) (order : Arrangement NodeId)
    (accepts : NodeId → Bool) :
    let k := min waiting.length (config.activeThreshold.toNat - active.length)
    let pass := before.resolver.collide (before.scene order) accepts store waiting active.length
    (∀ job ∉ waiting.take k, ¬ store.Started pass.store job) ∧
      (∀ job ∈ waiting.take k, ¬ store.Given pass.store job) ∧
      pass.outcome.activated ≤ k ∧
      pass.outcome.rejected ≤
        waiting.length - pass.outcome.activated - config.waitThreshold.toNat ∧
      (waiting.Nodup → (∀ job ∈ waiting, store.state? job = some .waiting) →
        pass.outcome.activated = k ∧ (∀ job ∈ waiting.take k, store.Started pass.store job) ∧
          (0 < pass.outcome.rejected →
            config.waitThreshold.toNat ≤
              (waiting.filter fun job => pass.store.state? job = some .waiting).length)) ∧
      ∀ job, ¬ store.Started pass.store job → ¬ store.Given pass.store job →
        pass.store.get? job = store.get? job := by
  intro k pass
  obtain ⟨busy, ran⟩ := exists_busy started reached (before.scene order) store waiting active.length
  obtain ⟨kept, -⟩ := collide_of_run accepts ran
  obtain ⟨activated, rejected⟩ := outcome_of_run accepts ran
  have same : before.resolver.config = config := config_of_reached started reached
  have room : Busy.room (before.scene order) active.length =
      config.activeThreshold.toNat - active.length := by
    rw [← same]
    rfl
  have first : waiting.take k = waiting.take (Busy.room (before.scene order) active.length) := by
    rw [room, List.take_eq_take_iff]
    omega
  have most : (waiting.take k).length = k := by simp [k]
  have counts := Busy.counts_of_run ⟨rfl, rfl⟩ ran
  have surplus : busy.surplus (before.scene order) waiting.length =
      waiting.length - busy.activated - busy.rejected - config.waitThreshold.toNat := by
    rw [← same]
    rfl
  have dealt := Busy.dealt_of_run ran
  rw [← first, most, surplus] at counts
  simp only [pass, kept, activated, rejected]
  refine ⟨?_, ?_, counts.1, by omega, ?_, ?_⟩
  · intro job outside started
    exact outside (first ▸ (dealt job).mem_of_started started)
  · intro job listed
    exact Busy.not_given_of_run ran (first ▸ listed)
  · intro distinct wait
    have waits : ∀ job ∈ waiting, store.waits job = true :=
      fun job listed => decide_eq_true (wait job listed)
    obtain ⟨all, each⟩ := Busy.starts_of_run rfl distinct waits ran
    rw [← first] at all each
    refine ⟨all.trans most, each, ?_⟩
    intro anyGiven
    rw [← same]
    exact Busy.threshold_le_of_run ⟨rfl, rfl⟩ distinct waits ran anyGiven
  · intro job notStarted notGiven
    cases dealt job with
    | kept same => exact same
    | started _ started => exact absurd started notStarted
    | given _ given => exact absurd given notGiven

/-- A node keeps one job running and one waiting. A member asks for five jobs. Of four distinct
jobs that wait, the first is started, two are given away, and one waits on. -/
theorem pass_within_thresholds_of_asked :
    let peer : Member := { id := .ofNat 1 }
    let view : GridView := ⟨.ofNat 0, none, [peer]⟩
    let job (number : Nat) : JobHandle :=
      { spec := { id := .ofNat number }, session := default, origin := .ofNat 0, createdAt := 0 }
    let config : StealingConfig := { activeThreshold := 1, waitThreshold := 1 }
    let resolver : Resolver := { config, queue := [peer.id] }
    let store : JobStore := ⟨#[job 6, job 7, job 8, job 9]⟩
    let noted : StealTable := ⟨⟨[(peer.id, ⟨5, 0, 0⟩)], by simp⟩, 1⟩
    let before : Stealing :=
      { resolver := { resolver with received := noted, counter := 5 }
        view, now := 5, records := [.asked peer.id 5 0] }
    let pass := before.resolver.collide (before.scene default) (fun _ => true) store [0, 1, 2, 3] 0
    Resolver.start config view = .ok resolver ∧
      ({ resolver, view, restrictions := ∅, now := 0 } : Stealing).run
          [.request peer.id ⟨5⟩, .wait 5] = .ok before ∧
      pass.outcome = { activated := 1, rejected := 2 } ∧
      (∀ job ∉ [0], ¬ store.Started pass.store job) ∧ ¬ store.Given pass.store 0 ∧
      store.Started pass.store 0 ∧
      1 ≤ (([0, 1, 2, 3] : List JobRef).filter fun job =>
        pass.store.state? job = some .waiting).length := by
  intro peer view job config resolver store noted before pass
  have started : Resolver.start config view = .ok resolver := rfl
  have reached : ({ resolver, view, restrictions := ∅, now := 0 } : Stealing).run
      [.request peer.id ⟨5⟩, .wait 5] = .ok before := rfl
  have outcome : pass.outcome = { activated := 1, rejected := 2 } := by decide
  obtain ⟨notStarted, notGiven, -, -, distinct, -⟩ := pass_within_thresholds started reached store
    [0, 1, 2, 3] [] default fun _ => true
  obtain ⟨-, first, kept⟩ := distinct (by decide) (by decide)
  exact ⟨started, reached, outcome, notStarted, notGiven 0 (by decide), first 0 (by decide),
    kept (by decide)⟩

end Stealing

end JobGrid
