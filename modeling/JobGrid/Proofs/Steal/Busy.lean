import Mathlib.Tactic.SplitIfs
import JobGrid.Proofs.Result
import JobGrid.Proofs.Steal.Request
import JobGrid.Steal.Pass

/-!
# Single steps of giving work away

The first half of a pass consists of single steps: a job is started, a request is dropped
because its peer left or because it ran out, or a job goes to a peer. Whatever each of these
steps keeps holds at the end of the pass.
-/

namespace JobGrid

namespace JobStore

theorem get?_transition_of_waiting {store : JobStore} {ref : JobRef} {job : JobHandle}
    {state : JobState} (found : store.get? ref = some job) (waits : job.state = .waiting) :
    store.transition ref state = (true, store.set ref { job with state }) := by
  simp [transition, found, waits]

/-- A job changes its state only if it waits, and nothing but its state changes. -/
theorem transition_eq_true_iff {store next : JobStore} {ref : JobRef} {state : JobState} :
    store.transition ref state = (true, next) ↔
      ∃ job, store.get? ref = some job ∧ job.state = .waiting ∧
        next = store.set ref { job with state } := by
  cases found : store.get? ref with
  | none => simp [transition, found]
  | some job =>
      by_cases waits : job.state = .waiting
      · simp [transition, found, waits, eq_comm]
      · simp [transition, found, waits]

theorem transition_eq_false {store next : JobStore} {ref : JobRef} {state : JobState}
    (moved : store.transition ref state = (false, next)) : next = store := by
  cases found : store.get? ref with
  | none =>
      simp only [transition, found, Prod.mk.injEq, true_and] at moved
      exact moved.symm
  | some job =>
      by_cases waits : job.state = .waiting
      · simp [transition, found, waits] at moved
      · simp only [transition, found, waits, if_false, Prod.mk.injEq, true_and] at moved
        exact moved.symm

theorem lt_next_of_get? {store : JobStore} {ref : JobRef} {job : JobHandle}
    (found : store.get? ref = some job) : ref < store.next :=
  (Array.getElem?_eq_some_iff.1 found).1

theorem state?_of_get? {store : JobStore} {ref : JobRef} {job : JobHandle}
    (found : store.get? ref = some job) : store.state? ref = some job.state := by
  rw [state?, found, Option.map_some]

theorem get?_set_of_get? {store : JobStore} {ref : JobRef} {job : JobHandle}
    (found : store.get? ref = some job) (other : JobRef) (changed : JobHandle) :
    (store.set ref changed).get? other =
      if ref = other then some changed else store.get? other := by
  have inBounds : ref < store.handles.size := lt_next_of_get? found
  rw [get?_set]
  by_cases same : ref = other
  · rw [if_pos ⟨same, inBounds⟩, if_pos same]
  · rw [if_neg fun both => same both.1, if_neg same]

@[simp] theorem next_set (store : JobStore) (ref : JobRef) (job : JobHandle) :
    (store.set ref job).next = store.next := by
  simp [next, set]

@[simp] theorem next_markStolen (store : JobStore) (ref : JobRef) (thief : NodeId) :
    (store.markStolen ref thief).next = store.next := by
  cases found : store.get? ref with
  | none => simp [markStolen, found]
  | some job => simp [markStolen, found]

/-- A job that is marked as given stays in its state. -/
theorem state?_markStolen (store : JobStore) (ref other : JobRef) (thief : NodeId) :
    (store.markStolen ref thief).state? other = store.state? other := by
  cases found : store.get? ref with
  | none => simp only [markStolen, found]
  | some job =>
      simp only [markStolen, found, state?, get?_set_of_get? found]
      split_ifs with same
      · rw [← same, found]
        rfl
      · rfl

end JobStore

namespace Busy

/-- What holds of the result of some steps: a property of the end, or, where faults may
happen at all, a fault. -/
def Ends (faults : Prop) (keeps : Busy → Prop) : Except Fault Busy → Prop
  | .ok busy => keeps busy
  | .error _ => faults

@[simp] theorem ends_ok {faults : Prop} {keeps : Busy → Prop} {busy : Busy} :
    Ends faults keeps (.ok busy) ↔ keeps busy := Iff.rfl

/-- Going on after a step. -/
theorem Ends.bind {faults : Prop} {first last : Busy → Prop} {result : Except Fault Busy}
    {next : Busy → Except Fault Busy} (ended : Ends faults first result)
    (goesOn : ∀ busy, first busy → Ends faults last (next busy)) :
    Ends faults last (result >>= next) := by
  cases result with
  | error fault => exact ended
  | ok busy => exact goesOn busy ended

/-- Where no faults happen, steps end well. -/
theorem exists_of_ends {keeps : Busy → Prop} {result : Except Fault Busy}
    (ended : Ends False keeps result) : ∃ busy, result = .ok busy ∧ keeps busy := by
  cases result with
  | error fault => exact ended.elim
  | ok busy => exact ⟨busy, rfl, ended⟩

/-- What giving away jobs of some kind in a pass over so many waiting jobs keeps, step by step. -/
structure Gives (scene : PassScene) (waiting : Nat) (faults : Prop) (keeps : Busy → Prop)
    (offered : JobRef → Prop := fun _ => True) : Prop where
  forget : ∀ {busy : Busy} {peer : NodeId}, keeps busy → scene.isRemote peer = false →
    Ends faults keeps (busy.forget peer)
  expire : ∀ {busy : Busy} {peer : NodeId} {entry : StealEntry}, keeps busy →
    busy.received.get? peer = some entry →
    entry.isExpired scene.expiry scene.now = true →
    Ends faults keeps (busy.expire scene peer)
  give : ∀ {busy : Busy} {peer : NodeId} {entry : StealEntry} {job : JobRef}
    {handle : JobHandle}, keeps busy → busy.store.get? job = some handle →
    handle.state = .waiting → handle.spec.stealingDisabled = false →
    handle.stealingAttempts < scene.config.maxStealing → 0 < busy.surplus scene waiting →
    scene.isRemote peer = true → busy.received.get? peer = some entry → 0 < entry.jobs →
    entry.isExpired scene.expiry scene.now = false →
    scene.restrictions.allows handle.session peer = true → offered job →
    Ends faults keeps
      ({ busy with store := busy.store.set job { handle with state := .cancelled } }.give
        scene peer job)

/-- What a pass over so many waiting jobs keeps, step by step. -/
structure Kept (scene : PassScene) (waiting : Nat) (faults : Prop) (keeps : Busy → Prop) : Prop
    extends Gives scene waiting faults keeps where
  start : ∀ {busy : Busy} (job : JobRef), keeps busy → keeps (busy.start job)

/-- A job starts if it waits; otherwise nothing happens. -/
theorem start_cases (busy : Busy) (job : JobRef) :
    (busy.start job = busy ∧
      ∀ handle, busy.store.get? job = some handle → handle.state ≠ .waiting) ∨
    ∃ handle, busy.store.get? job = some handle ∧ handle.state = .waiting ∧
      busy.start job = { busy with
        store := busy.store.set job { handle with state := .active }
        activated := busy.activated + 1 } := by
  cases found : busy.store.get? job with
  | none =>
      refine .inl ⟨?_, fun _ none => nomatch none⟩
      simp [start, JobStore.activate, JobStore.transition, found]
  | some handle =>
      by_cases waits : handle.state = .waiting
      · refine .inr ⟨handle, rfl, waits, ?_⟩
        simp [start, JobStore.activate, JobStore.get?_transition_of_waiting found waits]
      · refine .inl ⟨?_, fun other same => Option.some.inj same ▸ waits⟩
        simp [start, JobStore.activate, JobStore.transition, found, waits]

section Offers

variable {busy : Busy} {scene : PassScene} {session : SessionId} {peer : NodeId}

theorem offer_eq_gone_iff :
    busy.offer scene session peer = .gone ↔ scene.isRemote peer = false := by
  cases remote : scene.isRemote peer with
  | false => simp [offer, remote]
  | true =>
      simp only [offer, remote, Bool.not_true, Bool.false_eq_true, if_false, Bool.true_eq_false,
        iff_false]
      cases busy.received.get? peer with
      | none => simp
      | some entry => simp only; split_ifs <;> simp

/-- A request is taken back only when it ran out. -/
theorem expired_of_offer (offered : busy.offer scene session peer = .expired) :
    ∃ entry, busy.received.get? peer = some entry ∧
      entry.isExpired scene.expiry scene.now = true := by
  cases remote : scene.isRemote peer with
  | false => simp [offer, remote] at offered
  | true =>
      cases found : busy.received.get? peer with
      | none => simp [offer, remote, found] at offered
      | some entry =>
          refine ⟨entry, rfl, ?_⟩
          by_cases asks : entry.jobs = 0
          · simp [offer, remote, found, asks] at offered
          · cases ranOut : entry.isExpired scene.expiry scene.now with
            | true => rfl
            | false =>
                cases allowed : scene.restrictions.allows session peer <;>
                  simp [offer, remote, found, asks, ranOut, allowed] at offered

/-- A peer takes a job only if it is there, asks for work in time and may have the job. -/
theorem taker_of_offer (offered : busy.offer scene session peer = .taker) :
    scene.isRemote peer = true ∧ scene.restrictions.allows session peer = true ∧
      ∃ entry, busy.received.get? peer = some entry ∧ 0 < entry.jobs ∧
        entry.isExpired scene.expiry scene.now = false := by
  cases remote : scene.isRemote peer with
  | false => simp [offer, remote] at offered
  | true =>
      cases found : busy.received.get? peer with
      | none => simp [offer, remote, found] at offered
      | some entry =>
          by_cases asks : entry.jobs = 0
          · simp [offer, remote, found, asks] at offered
          · cases ranOut : entry.isExpired scene.expiry scene.now with
            | true => simp [offer, remote, found, asks, ranOut] at offered
            | false =>
                cases allowed : scene.restrictions.allows session peer with
                | false => simp [offer, remote, found, asks, ranOut, allowed] at offered
                | true => exact ⟨rfl, rfl, entry, rfl, Nat.pos_of_ne_zero asks, ranOut⟩

end Offers

section Keeping

variable {scene : PassScene} {waiting : Nat} {faults : Prop} {keeps : Busy → Prop}
  {offered : JobRef → Prop}

/-- Dropping a request touches no job. -/
theorem store_of_forget {busy next : Busy} {peer : NodeId} (scene : PassScene) (waiting : Nat)
    (dropped : busy.forget peer = .ok next) :
    next.store = busy.store ∧ next.surplus scene waiting = busy.surplus scene waiting := by
  obtain ⟨counter, -, rfl⟩ := Result.map_eq_ok.1 dropped
  exact ⟨rfl, rfl⟩

/-- Taking a request back touches no job. -/
theorem store_of_expire {busy next : Busy} {peer : NodeId} (waiting : Nat)
    (tookBack : busy.expire scene peer = .ok next) :
    next.store = busy.store ∧ next.surplus scene waiting = busy.surplus scene waiting := by
  obtain ⟨counter, -, rfl⟩ := Result.map_eq_ok.1 tookBack
  exact ⟨rfl, rfl⟩

/-- What every step keeps holds after a job was offered to some peers. -/
theorem handOver_keeps (gives : Gives scene waiting faults keeps offered) {job : JobRef}
    {handle : JobHandle} (listed : offered job) (enabled : handle.spec.stealingDisabled = false)
    (fresh : handle.stealingAttempts < scene.config.maxStealing) (peers : List NodeId) :
    ∀ busy : Busy, keeps busy → busy.store.get? job = some handle →
      0 < busy.surplus scene waiting →
      Ends faults keeps (handOver scene handle.session job peers busy) := by
  induction peers with
  | nil => exact fun busy holds _ _ => holds
  | cons peer rest ih =>
      intro busy holds found surplus
      simp only [handOver]
      cases meant : busy.offer scene handle.session peer with
      | unsuitable => exact ih busy holds found surplus
      | gone =>
          have ended := gives.forget holds (offer_eq_gone_iff.1 meant)
          cases dropped : busy.forget peer with
          | error fault => rwa [dropped] at ended
          | ok next =>
              rw [dropped] at ended
              obtain ⟨store, same⟩ := store_of_forget scene waiting dropped
              exact ih next ended (store ▸ found) (same ▸ surplus)
      | expired =>
          obtain ⟨entry, asked, ranOut⟩ := expired_of_offer meant
          have ended := gives.expire holds asked ranOut
          cases tookBack : busy.expire scene peer with
          | error fault => rwa [tookBack] at ended
          | ok next =>
              rw [tookBack] at ended
              obtain ⟨store, same⟩ := store_of_expire waiting tookBack
              exact ih next ended (store ▸ found) (same ▸ surplus)
      | taker =>
          obtain ⟨remote, allowed, entry, asked, positive, inTime⟩ := taker_of_offer meant
          by_cases waits : handle.state = .waiting
          · have moved : busy.store.cancel job =
                (true, busy.store.set job { handle with state := .cancelled }) :=
              JobStore.get?_transition_of_waiting found waits
            simp only [moved]
            exact gives.give holds found waits enabled fresh surplus remote asked positive inTime
              allowed listed
          · have stays : busy.store.cancel job = (false, busy.store) := by
              simp [JobStore.cancel, JobStore.transition, found, waits]
            simp only [stays]
            exact holds

/-- What every step keeps holds after surplus jobs were given away. -/
theorem giveAway_keeps (gives : Gives scene waiting faults keeps offered) (jobs : List JobRef)
    (listed : ∀ job ∈ jobs, offered job) :
    ∀ busy : Busy, keeps busy → Ends faults keeps (giveAway scene waiting jobs busy) := by
  induction jobs with
  | nil => exact fun busy holds => holds
  | cons job rest ih =>
      have ih := ih fun job later => listed job (List.mem_cons_of_mem _ later)
      intro busy holds
      cases found : busy.store.get? job with
      | none =>
          simp only [giveAway, found]
          exact ih busy holds
      | some handle =>
          cases may : busy.mayGive scene handle with
          | false =>
              simp only [giveAway, found, may, Bool.not_false, if_true]
              exact ih busy holds
          | true =>
              simp only [giveAway, found, may, Bool.not_true, Bool.false_eq_true, if_false]
              simp only [mayGive, Bool.and_eq_true, Bool.not_eq_true', decide_eq_true_eq] at may
              by_cases exhausted : busy.surplus scene waiting ≤ 0
              · rw [if_pos exhausted]
                exact holds
              · rw [if_neg exhausted]
                have ended := handOver_keeps gives (listed job List.mem_cons_self) may.1.1 may.2
                  (scene.order.arrange busy.received.peers.keys) busy holds found (by omega)
                exact ended.bind fun next => ih next

/-- What every step keeps holds at the end of the first half of a pass. -/
theorem run_keeps {waiting : List JobRef} (kept : Kept scene waiting.length faults keeps)
    (active : Nat) {busy : Busy} (holds : keeps busy) :
    Ends faults keeps (run scene waiting active busy) := by
  have started : ∀ (jobs : List JobRef) (busy : Busy), keeps busy →
      keeps (jobs.foldl Busy.start busy) := by
    intro jobs
    induction jobs with
    | nil => exact fun busy holds => holds
    | cons job rest ih => exact fun busy holds => ih _ (kept.start job holds)
  exact giveAway_keeps kept.toGives _ (fun _ _ => trivial) _ (started _ busy holds)

end Keeping

end Busy

end JobGrid
