import JobGrid.Proofs.Steal.Counter
import JobGrid.Proofs.Steal.PassLog
import JobGrid.Proofs.Steal.Words

/-!
# Jobs that passes share

Passes over the same jobs never act twice on one of them, however they overlap with each other and
with what others do to the jobs and to the requests. What the passes report, what the resolver
counts, what was taken off the requests and the stamps on the jobs all tell of the same jobs. Only
a pass that broke at a peer reports nothing; it may have started jobs before, but it gave none away.
-/

namespace JobGrid

/-! ## What the resolver counts -/

namespace Stealing

theorem stolen_of_onStealRequest {resolver : Resolver} {view : GridView} {now : Moment}
    {peer : NodeId} {request : StealRequest} {noted : Bool × Resolver}
    (asked : resolver.onStealRequest view now peer request = .ok noted) :
    noted.2.stolen = resolver.stolen := by
  cases Resolver.heard_of_onStealRequest asked with
  | stranger absent => rfl
  | member present added => rfl

theorem stolen_of_onEvent {resolver next : Resolver} {localId : NodeId} {event : DiscoveryEvent}
    (told : resolver.onEvent localId event = .ok next) : next.stolen = resolver.stolen := by
  cases Resolver.told_of_onEvent told with
  | kept silent => rfl
  | queued remote joined new => rfl
  | dropped remote departed added => rfl

end Stealing

/-- A pass proceeds where a member that is to be asked for work publishes that it keeps so few jobs
that its surplus does not fit into a word. -/
def OverlapEvent.MayBreak (config : StealingConfig) (key : Nat) : OverlapEvent → Prop
  | .proceed pass view _ _ _ _ =>
      pass = key ∧ ∃ node member, view.find? node = some member ∧ member.SurplusOverflows config
  | _ => False

/-! ## What passes report -/

namespace Overlap

/-- The jobs that passes started, as they report it or have in mind to report. -/
def activated (overlap : Overlap) : Nat :=
  (overlap.outcomes.map PassOutcome.activated).sum +
    (overlap.passes.values.map OpenPass.activated).sum

/-- The jobs that passes gave away, as they report it or have in mind to report. -/
def rejected (overlap : Overlap) : Nat :=
  (overlap.outcomes.map PassOutcome.rejected).sum +
    (overlap.passes.values.map OpenPass.rejected).sum

/-- All accounts of the jobs agree. -/
structure Sound (fresh : JobStore) (overlap : Overlap) : Prop where
  tells : overlap.log.Tells fresh overlap.store
  activated : overlap.activated = overlap.log.started.length
  rejected : overlap.rejected = overlap.log.stamped.length
  served : overlap.log.served = overlap.log.stamped.length
  stolen : overlap.resolver.stolen = (overlap.outcomes.map PassOutcome.rejected).sum
  /-- A job that a pass offers was not stolen too often before. -/
  offers : ∀ {key pass job original}, overlap.passes.get? key = some pass →
    pass.stage.offered? = some job → fresh.get? job = some original →
    original.stealingAttempts < overlap.resolver.config.maxStealing

namespace Sound

variable {fresh : JobStore} {overlap next : Overlap} {key : Nat} {pass : OpenPass}

/-- Nothing is written down while the jobs stay as they are. -/
theorem extend_of_same (log : PassLog) (proceeding : Bool) {before after : Overlap}
    (same : after.store = before.store) : log.extend proceeding before after = log := by
  simp only [PassLog.extend, same, JobStore.departures_self, JobStore.starts_self,
    JobStore.stamps_self, ite_self, if_true, List.append_nil, Nat.add_zero]

/-- A job that stops waiting without a stamp is written down as such. -/
theorem extend_of_move (log : PassLog) (proceeding : Bool) {before after : Overlap} {job : JobRef}
    {handle : JobHandle} (changed : JobHandle) (store : after.store = before.store.set job changed)
    (found : before.store.get? job = some handle) (waits : handle.state = .waiting)
    (moved : changed.state ≠ .waiting) (thief : changed.thief = handle.thief)
    (attempts : changed.stealingAttempts = handle.stealingAttempts) :
    log.extend proceeding before after =
      { log with
        left := log.left ++ [job]
        started := log.started ++
          if proceeding then (if changed.state = .active then [job] else []) else [] } := by
  simp only [PassLog.extend, store, JobStore.departures_set found waits moved,
    JobStore.starts_set found waits, JobStore.stamps_set found, thief, attempts, and_self,
    if_true, ite_self, List.append_nil, Nat.add_zero]

/-- A job that a pass gives away is written down together with what its peer is still owed. -/
theorem extend_of_stamp (log : PassLog) {before after : Overlap} {job : JobRef}
    {handle : JobHandle} (changed : JobHandle) (store : after.store = before.store.set job changed)
    (found : before.store.get? job = some handle) (waits : handle.state = .waiting)
    (cancelled : changed.state = .cancelled) (differs : changed.thief ≠ handle.thief) :
    log.extend true before after =
      { log with
        left := log.left ++ [job]
        stamped := log.stamped ++ [job]
        served := log.served +
          (before.resolver.received.total - after.resolver.received.total) } := by
  have moved : changed.state ≠ .waiting := by
    rw [cancelled]
    decide
  have stays : changed.state ≠ .active := by
    rw [cancelled]
    decide
  have stamped : ¬ (changed.thief = handle.thief ∧
      changed.stealingAttempts = handle.stealingAttempts) := fun same => differs same.1
  simp only [PassLog.extend, store, JobStore.departures_set found waits moved,
    JobStore.starts_set found waits, JobStore.stamps_set found, if_neg stays, if_neg stamped,
    if_true, List.cons_ne_nil, if_false, List.append_nil]

/-- Where the jobs stay as they are, what happens may be written down. -/
theorem written {acted : Overlap} (sound : acted.Sound fresh) (proceeding : Bool)
    (store : acted.store = overlap.store) (log : acted.log = overlap.log) :
    ({ acted with log := overlap.log.extend proceeding overlap acted } : Overlap).Sound fresh := by
  rwa [extend_of_same overlap.log proceeding store, ← log]

/-- Nothing that concerns the jobs happens to the resolver. -/
theorem note (sound : overlap.Sound fresh) {resolver : Resolver}
    (config : resolver.config = overlap.resolver.config)
    (stolen : resolver.stolen = overlap.resolver.stolen) :
    ({ overlap with resolver } : Overlap).Sound fresh where
  tells := sound.tells
  activated := sound.activated
  rejected := sound.rejected
  served := sound.served
  stolen := stolen.trans sound.stolen
  offers found offered original := config ▸ sound.offers found offered original

/-- A pass begins. -/
theorem start (sound : overlap.Sound fresh) (free : overlap.passes.get? key = none)
    (stage : PassStage) (nothing : stage.offered? = none) (waiting active : Nat) :
    ({ overlap with
        resolver := { overlap.resolver with waiting, active }
        passes := overlap.passes.insert key { stage, waiting, active } }
      : Overlap).Sound fresh := by
  have activated := Table.sum_values_insert OpenPass.activated overlap.passes key
    { stage, waiting, active }
  have rejected := Table.sum_values_insert OpenPass.rejected overlap.passes key
    { stage, waiting, active }
  rw [free] at activated rejected
  refine ⟨sound.tells, ?_, ?_, sound.served, sound.stolen, ?_⟩
  · rw [← sound.activated]
    exact congrArg (_ + ·) activated
  · rw [← sound.rejected]
    exact congrArg (_ + ·) rejected
  · intro other found job original there offered known
    rw [Table.get?_insert] at there
    split at there
    · cases there
      rw [nothing] at offered
      cases offered
    · exact sound.offers there offered known

/-- A pass ends and reports. -/
theorem report (sound : overlap.Sound fresh) (found : overlap.passes.get? key = some pass)
    {resolver : Resolver} {outcome : PassOutcome} (activated : outcome.activated = pass.activated)
    (rejected : outcome.rejected = pass.rejected)
    (config : resolver.config = overlap.resolver.config)
    (stolen : resolver.stolen = overlap.resolver.stolen + pass.rejected) :
    ({ overlap with
        resolver
        passes := overlap.passes.erase key
        outcomes := overlap.outcomes ++ [outcome] } : Overlap).Sound fresh := by
  have started := Table.sum_values_erase OpenPass.activated overlap.passes key
  have gave := Table.sum_values_erase OpenPass.rejected overlap.passes key
  have counted := sound.activated
  have given := sound.rejected
  have total := sound.stolen
  rw [found, Option.map_some, Option.getD_some] at started gave
  rw [Overlap.activated] at counted
  rw [Overlap.rejected] at given
  refine ⟨sound.tells, ?_, ?_, sound.served, ?_, ?_⟩
  · simp only [Overlap.activated, List.map_append, List.map_singleton, List.sum_append,
      List.sum_singleton, activated]
    omega
  · simp only [Overlap.rejected, List.map_append, List.map_singleton, List.sum_append,
      List.sum_singleton, rejected]
    omega
  · simp only [List.map_append, List.map_singleton, List.sum_append, List.sum_singleton, rejected,
      stolen]
    omega
  · intro other open? job original there offered known
    rw [Table.get?_erase] at there
    split at there
    · cases there
    · exact config ▸ sound.offers there offered known

/-- A pass comes to another stage, and what it started and gave away meanwhile is written down. -/
theorem resume (sound : overlap.Sound fresh) (found : overlap.passes.get? key = some pass)
    (busy : Busy) (stage : PassStage) {log : PassLog} (tells : log.Tells fresh busy.store)
    (activated : log.started.length + pass.activated =
      overlap.log.started.length + busy.activated)
    (rejected : log.stamped.length + pass.rejected = overlap.log.stamped.length + busy.rejected)
    (served : log.served + pass.rejected = overlap.log.served + busy.rejected)
    (offers : ∀ {job original}, stage.offered? = some job → fresh.get? job = some original →
      original.stealingAttempts < overlap.resolver.config.maxStealing) :
    ({ overlap.resume key pass stage busy with log } : Overlap).Sound fresh := by
  have started := Table.sum_values_insert OpenPass.activated overlap.passes key
    (pass.reach stage busy)
  have gave := Table.sum_values_insert OpenPass.rejected overlap.passes key (pass.reach stage busy)
  have counted := sound.activated
  have given := sound.rejected
  have total := sound.served
  rw [found, Option.map_some, Option.getD_some] at started gave
  rw [Overlap.activated] at counted
  rw [Overlap.rejected] at given
  refine ⟨tells, ?_, ?_, ?_, sound.stolen, ?_⟩
  · simp only [Overlap.activated, Overlap.resume, OpenPass.reach] at started ⊢
    omega
  · simp only [Overlap.rejected, Overlap.resume, OpenPass.reach] at gave ⊢
    omega
  · simp only
    omega
  · intro other there job original known offered same
    simp only [Overlap.resume, Table.get?_insert] at known
    split at known
    · cases known
      exact offers offered same
    · exact sound.offers known offered same

/-- A pass starts a job. -/
theorem startJob (sound : overlap.Sound fresh) (found : overlap.passes.get? key = some pass)
    {stage : PassStage} {job : JobRef} {handle : JobHandle}
    (known : overlap.store.get? job = some handle) (waits : handle.state = .waiting)
    (offers : ∀ {job original}, stage.offered? = some job → fresh.get? job = some original →
      original.stealingAttempts < overlap.resolver.config.maxStealing) :
    let next := overlap.resume key pass stage { pass.busy overlap.resolver overlap.store with
      store := overlap.store.set job { handle with state := .active }
      activated := pass.activated + 1 }
    ({ next with log := overlap.log.extend true overlap next } : Overlap).Sound fresh := by
  intro next
  have moved : ({ handle with state := .active } : JobHandle).state ≠ .waiting := fun same => by
    cases same
  have tells := sound.tells.leave { handle with state := .active } [job] [] known waits moved
    (.inr ⟨rfl, rfl⟩) (.inl ⟨rfl, rfl, rfl⟩) overlap.log.served
  rw [List.append_nil] at tells
  have written : overlap.log.extend true overlap next =
      { overlap.log with
        left := overlap.log.left ++ [job]
        started := overlap.log.started ++ [job] } :=
    extend_of_move overlap.log true _ rfl known waits moved rfl rfl
  rw [written]
  refine sound.resume found _ stage tells ?_ rfl rfl offers
  simp only [List.length_append, List.length_singleton]
  omega

/-- A pass gives the job away that it offers. -/
theorem stampJob (sound : overlap.Sound fresh) (found : overlap.passes.get? key = some pass)
    {stage : PassStage} {job : JobRef} {handle : JobHandle} {peer : NodeId} {now : Moment}
    {counter : Int} (offered : pass.stage.offered? = some job)
    (known : overlap.store.get? job = some handle) (waits : handle.state = .waiting)
    (asks : 0 < overlap.resolver.received.jobs peer)
    (offers : ∀ {job original}, stage.offered? = some job → fresh.get? job = some original →
      original.stealingAttempts < overlap.resolver.config.maxStealing) :
    let next := overlap.resume key pass stage { pass.busy overlap.resolver overlap.store with
      received := overlap.resolver.received.served now peer
      counter
      store := overlap.store.set job
        (({ handle with state := .cancelled } : JobHandle).markStolen peer)
      rejected := pass.rejected + 1 }
    ({ next with log := overlap.log.extend true overlap next } : Overlap).Sound fresh := by
  intro next
  obtain ⟨original, there, of⟩ := sound.tells.handles job handle known
  have unstolen := of.thief_of_waiting waits
  have few : handle.stealingAttempts.toNat + 1 < 2 ^ 32 := by
    have less := UInt32.lt_iff_toNat_lt.1 (sound.offers found offered there)
    have most := overlap.resolver.config.maxStealing.toNat_lt
    rw [of.unstamped unstolen]
    omega
  let changed := ({ handle with state := .cancelled } : JobHandle).markStolen peer
  have moved : changed.state ≠ .waiting := fun same => by cases same
  have attempts : changed.stealingAttempts.toNat = handle.stealingAttempts.toNat + 1 := by
    simp only [changed, JobHandle.markStolen, UInt32.toNat_add]
    exact Nat.mod_eq_of_lt few
  have tells := sound.tells.leave changed [] [job] known waits moved (.inl rfl)
    (.inr ⟨rfl, rfl, rfl, attempts⟩) (overlap.log.served + 1)
  rw [List.append_nil] at tells
  have total : overlap.resolver.received.total - next.resolver.received.total = 1 := by
    have taken : (overlap.resolver.received.served now peer).total + 1 =
        overlap.resolver.received.total := StealTable.total_served asks
    simp only [next, Overlap.resume]
    omega
  have written : overlap.log.extend true overlap next =
      { overlap.log with
        left := overlap.log.left ++ [job]
        stamped := overlap.log.stamped ++ [job]
        served := overlap.log.served + 1 } := by
    have differs : changed.thief ≠ handle.thief := fun same => by
      rw [unstolen] at same
      cases same
    rw [extend_of_stamp overlap.log changed rfl known waits rfl differs, total]
  rw [written]
  refine sound.resume found _ stage tells rfl ?_ ?_ offers
  · simp only [List.length_append, List.length_singleton]
    omega
  · simp only
    omega

/-- A pass proceeds by one step. -/
theorem proceed (sound : overlap.Sound fresh) (found : overlap.passes.get? key = some pass)
    {busy : Busy} {stage : PassStage}
    (did : Busy.Did pass.stage (pass.busy overlap.resolver overlap.store) busy)
    (offers : ∀ {job original}, stage.offered? = some job → fresh.get? job = some original →
      original.stealingAttempts < overlap.resolver.config.maxStealing) :
    ({ overlap.resume key pass stage busy with
        log := overlap.log.extend true overlap (overlap.resume key pass stage busy) }
      : Overlap).Sound fresh := by
  cases did with
  | nothing store activated rejected =>
      have same : (overlap.resume key pass stage busy).store = overlap.store := store
      have tells : overlap.log.Tells fresh busy.store := store ▸ sound.tells
      rw [extend_of_same overlap.log true same]
      refine sound.resume found busy stage tells ?_ ?_ ?_ offers
      · rw [activated, OpenPass.busy]
      · rw [rejected, OpenPass.busy]
      · rw [rejected, OpenPass.busy]
  | start known waits => exact sound.startJob found known waits offers
  | stamp offered known waits asks => exact sound.stampJob found offered known waits asks offers

/-- Somebody else moves a job out of its waiting state, or fails to. -/
theorem move (sound : overlap.Sound fresh) (job : JobRef) {state : JobState}
    (moved : state ≠ .waiting) :
    let next := { overlap with store := (overlap.store.transition job state).2 }
    ({ next with log := overlap.log.extend false overlap next } : Overlap).Sound fresh := by
  intro next
  cases transition : overlap.store.transition job state with
  | mk done store =>
      have store_eq : next.store = store := by simp only [next, transition]
      cases done with
      | false =>
          have same : next.store = overlap.store :=
            store_eq.trans (JobStore.transition_eq_false transition)
          rw [extend_of_same overlap.log false same]
          refine { sound with tells := ?_ }
          rw [same]
          exact sound.tells
      | true =>
          obtain ⟨handle, found, waits, rfl⟩ := JobStore.transition_eq_true_iff.1 transition
          have tells := sound.tells.leave { handle with state } [] [] found waits moved
            (.inl rfl) (.inl ⟨rfl, rfl, rfl⟩) overlap.log.served
          rw [List.append_nil, List.append_nil] at tells
          have written : overlap.log.extend false overlap next =
              { overlap.log with
                left := overlap.log.left ++ [job]
                started := overlap.log.started ++ [] } :=
            extend_of_move overlap.log false _ store_eq found waits moved rfl rfl
          rw [List.append_nil] at written
          rw [written]
          refine ⟨?_, sound.activated, sound.rejected, sound.served, sound.stolen, sound.offers⟩
          rw [← store_eq] at tells
          exact tells

theorem finish (sound : overlap.Sound fresh) (found : overlap.passes.get? key = some pass)
    (scene : PassScene) (accepts : NodeId → Bool) :
    (overlap.finish key pass scene accepts).Sound fresh := by
  simp only [Overlap.finish]
  split
  · exact sound.report found rfl rfl rfl rfl
  · rename_i none
    have gaveNone : pass.rejected = 0 := Nat.eq_zero_of_not_pos fun gave => none (.inl gave)
    split
    · have broken := sound.resume found (pass.busy overlap.resolver overlap.store) .broken
        sound.tells rfl rfl rfl (fun same => by cases same)
      refine broken.note rfl ?_
      simp only [Resolver.askForWork, Overlap.resume, gaveNone, Nat.add_zero]
    · exact sound.report found rfl rfl rfl rfl

/-- A pass that ends leaves the jobs as they are. -/
theorem same_of_finish (overlap : Overlap) (key : Nat) (pass : OpenPass) (scene : PassScene)
    (accepts : NodeId → Bool) :
    (overlap.finish key pass scene accepts).store = overlap.store ∧
      (overlap.finish key pass scene accepts).log = overlap.log := by
  simp only [Overlap.finish]
  split
  · exact ⟨rfl, rfl⟩
  · split
    · exact ⟨rfl, rfl⟩
    · exact ⟨rfl, rfl⟩

/-- Whatever happens, all accounts of the jobs go on to agree. -/
theorem perform {event : OverlapEvent} (sound : overlap.Sound fresh)
    (performed : overlap.perform event = .ok next) : next.Sound fresh := by
  obtain ⟨acted, act, rfl⟩ := Result.map_eq_ok.1 performed
  cases event with
  | begin key waiting active =>
      simp only [Overlap.act] at act
      split at act
      · cases act
        exact sound.written _ rfl rfl
      · rename_i free
        cases act
        have absent : overlap.passes.get? key = none :=
          Option.isNone_iff_eq_none.1 (Option.isSome_eq_false_iff.1 (Bool.eq_false_iff.2 free))
        exact (sound.start absent _ rfl _ _).written _ rfl rfl
  | proceed key view restrictions order now accepts =>
      simp only [Overlap.act] at act
      split at act
      · cases act
        exact sound.written _ rfl rfl
      · rename_i pass found
        split at act
        · cases act
          obtain ⟨store, log⟩ := same_of_finish overlap key pass
            (overlap.resolver.scene view restrictions order now) accepts
          exact (sound.finish found _ accepts).written _ store log
        · obtain ⟨⟨stage, busy⟩, advanced, rfl⟩ := Result.map_eq_ok.1 act
          refine sound.proceed found (Busy.did_of_advance advanced) ?_
          intro job original offered known
          rcases Busy.offered_of_advance advanced offered with earlier | ⟨handle, there, few⟩
          · exact sound.offers found earlier known
          · exact UInt32.lt_iff_toNat_lt.2 (Nat.lt_of_le_of_lt
              (sound.tells.attempts_le known there) (UInt32.lt_iff_toNat_lt.1 few))
  | activate job =>
      cases act
      exact sound.move job (by decide)
  | cancel job =>
      cases act
      exact sound.move job (by decide)
  | request view now peer request =>
      obtain ⟨⟨noted, resolver⟩, asked, rfl⟩ := Result.map_eq_ok.1 act
      exact (sound.note (Stealing.config_of_onStealRequest asked)
        (Stealing.stolen_of_onStealRequest asked)).written _ rfl rfl
  | discovery localId event =>
      obtain ⟨resolver, told, rfl⟩ := Result.map_eq_ok.1 act
      exact (sound.note (Stealing.received_of_onEvent told).1
        (Stealing.stolen_of_onEvent told)).written _ rfl rfl

end Sound

/-! ## Nothing breaks a rule -/

/-- The count of requested jobs is right as long as only known peers asked for work. -/
def Counts (peers : List NodeId) (overlap : Overlap) : Prop :=
  Booked peers overlap.resolver.received overlap.resolver.counter

variable {peers : List NodeId} (few : peers.length ≤ StealCounter.capacity)

include few

/-- No step of a pass breaks a rule about requests, and every step keeps the count. -/
theorem exists_advance (scene : PassScene) (waiting : Nat) (stage : PassStage) (busy : Busy)
    (booked : Booked peers busy.received busy.counter) :
    ∃ next, busy.advance scene waiting stage = .ok next ∧
      Booked peers next.2.received next.2.counter := by
  have steps := Booked.kept_busy few scene waiting
  unfold Busy.advance
  split
  · exact ⟨_, rfl, booked⟩
  · exact ⟨_, rfl, booked⟩
  · split
    · exact ⟨_, rfl, booked⟩
    · split
      · exact ⟨_, rfl, booked⟩
      · split
        · exact ⟨_, rfl, booked⟩
        · exact ⟨_, rfl, booked⟩
  · exact ⟨_, rfl, booked⟩
  · split
    · exact ⟨_, rfl, booked⟩
    · split
      · exact ⟨_, rfl, booked⟩
      · rename_i offered
        obtain ⟨next, dropped, kept⟩ :=
          Busy.exists_of_ends (steps.forget booked (Busy.offer_eq_gone_iff.1 offered))
        exact ⟨_, by rw [dropped, Except.map], kept⟩
      · rename_i offered
        obtain ⟨entry, asked, ranOut⟩ := Busy.expired_of_offer offered
        obtain ⟨next, tookBack, kept⟩ := Busy.exists_of_ends (steps.expire booked asked ranOut)
        exact ⟨_, by rw [tookBack, Except.map], kept⟩
      · rename_i offered
        have asks := Busy.jobs_pos_of_taker offered
        split
        · exact ⟨_, rfl, booked⟩
        · obtain ⟨counter, added, taken⟩ := booked.served few scene.now asks
          simp only [Busy.give, StealTable.decrement_eq_ok asks, added, Result.ok_bind]
          exact ⟨_, rfl, taken⟩
  · exact ⟨_, rfl, booked⟩

/-- Nothing that happens breaks a rule about requests, and everything keeps the count. -/
theorem Counts.perform {overlap : Overlap} (counts : overlap.Counts peers) (event : OverlapEvent)
    (known : ∀ peer, event.requester? = some peer → peer ∈ peers) :
    ∃ next, overlap.perform event = .ok next ∧ next.Counts peers := by
  have acted : ∃ next, overlap.act event = .ok next ∧ next.Counts peers := by
    cases event with
    | begin key waiting active =>
        simp only [act]
        split
        · exact ⟨_, rfl, counts⟩
        · exact ⟨_, rfl, counts⟩
    | proceed key view restrictions order now accepts =>
        simp only [act]
        split
        · exact ⟨_, rfl, counts⟩
        · rename_i pass found
          split
          · refine ⟨_, rfl, ?_⟩
            simp only [finish]
            split
            · exact counts
            · split <;> exact counts
          · obtain ⟨next, advanced, kept⟩ := exists_advance few
              (overlap.resolver.scene view restrictions order now) pass.waiting pass.stage
              (pass.busy overlap.resolver overlap.store) counts
            exact ⟨overlap.resume key pass next.1 next.2, by rw [advanced, Except.map], kept⟩
    | activate job => exact ⟨_, rfl, counts⟩
    | cancel job => exact ⟨_, rfl, counts⟩
    | request view now peer request =>
        let stealing : Stealing := { resolver := overlap.resolver, view, restrictions := ∅, now }
        have begins : stealing.Counts peers := counts
        obtain ⟨told, performed, kept⟩ := begins.perform few (.request peer request) known
        obtain ⟨⟨noted, resolver⟩, asked, rfl⟩ := Result.map_eq_ok.1 performed
        exact ⟨{ overlap with resolver }, by rw [act, asked, Except.map], kept⟩
    | discovery localId event =>
        let view : GridView := ⟨localId, none, []⟩
        let stealing : Stealing :=
          { resolver := overlap.resolver, view, restrictions := ∅, now := 0 }
        have begins : stealing.Counts peers := counts
        obtain ⟨told, performed, kept⟩ :=
          begins.perform few (.discovery event) fun _ asks => by cases asks
        obtain ⟨resolver, told, rfl⟩ := Result.map_eq_ok.1 performed
        exact ⟨{ overlap with resolver }, by rw [act, told, Except.map], kept⟩
  obtain ⟨next, act, kept⟩ := acted
  exact ⟨{ next with log := overlap.log.extend event.isProceeding overlap next },
    by rw [Overlap.perform, act, Except.map], kept⟩

/-- No history of requests of known peers breaks a rule. -/
theorem Counts.exists_run (history : List OverlapEvent)
    (known : ∀ event ∈ history, ∀ peer, event.requester? = some peer → peer ∈ peers)
    {overlap : Overlap} (counts : overlap.Counts peers) :
    ∃ final, overlap.run history = .ok final := by
  induction history generalizing overlap with
  | nil => exact ⟨overlap, rfl⟩
  | cons event later ih =>
      obtain ⟨next, performed, kept⟩ := counts.perform few event (known event List.mem_cons_self)
      obtain ⟨final, rest⟩ := ih (fun other member => known other (.tail event member)) kept
      exact ⟨final, Result.bind_eq_ok.2 ⟨next, performed, rest⟩⟩

omit few

/-! ## Passes that broke -/

/-- No pass that broke gave a job away, and each of them broke at a member that is to blame. -/
structure Broke (config : StealingConfig) (history : List OverlapEvent) (overlap : Overlap) :
    Prop where
  settings : overlap.resolver.config = config
  broken : ∀ {key pass}, overlap.passes.get? key = some pass → pass.stage = .broken →
    pass.rejected = 0 ∧ ∃ event ∈ history, event.MayBreak config key

namespace Broke

variable {config : StealingConfig} {history : List OverlapEvent}
  {overlap acted next final : Overlap} {key : Nat} {pass : OpenPass}

/-- No pass breaks while it looks at jobs and offers them. -/
theorem broken_of_advance {scene : PassScene} {waiting : Nat} {busy after : Busy}
    {stage : PassStage} (advanced : busy.advance scene waiting stage = .ok (.broken, after)) :
    stage = .broken ∧ after = busy := by
  unfold Busy.advance at advanced
  split at advanced
  · cases advanced
  · cases advanced
  · split at advanced
    · cases advanced
    · split_ifs at advanced <;> cases advanced
  · cases advanced
  · split_ifs at advanced
    · cases advanced
    · split at advanced
      · cases advanced
      · obtain ⟨_, -, reached⟩ := Result.map_eq_ok.1 advanced
        cases reached
      · obtain ⟨_, -, reached⟩ := Result.map_eq_ok.1 advanced
        cases reached
      · split at advanced
        · cases advanced
        · obtain ⟨_, -, reached⟩ := Result.map_eq_ok.1 advanced
          cases reached
  · cases advanced
    exact ⟨rfl, rfl⟩

/-- Where nothing else happens to the passes. -/
theorem same (broke : overlap.Broke config history)
    (configs : acted.resolver.config = overlap.resolver.config)
    (passes : acted.passes = overlap.passes) : acted.Broke config history where
  settings := configs.trans broke.settings
  broken found := broke.broken (passes ▸ found)

/-- A pass comes to some stage, which accounts for itself. -/
theorem insert (broke : overlap.Broke config history)
    (configs : acted.resolver.config = overlap.resolver.config)
    (passes : acted.passes = overlap.passes.insert key pass)
    (accounts : pass.stage = .broken →
      pass.rejected = 0 ∧ ∃ event ∈ history, event.MayBreak config key) :
    acted.Broke config history where
  settings := configs.trans broke.settings
  broken := by
    intro other found there broken
    rw [passes, Table.get?_insert] at there
    split at there
    · rename_i same
      cases there
      exact same ▸ accounts broken
    · exact broke.broken there broken

theorem erase (broke : overlap.Broke config history)
    (configs : acted.resolver.config = overlap.resolver.config)
    (passes : acted.passes = overlap.passes.erase key) : acted.Broke config history where
  settings := configs.trans broke.settings
  broken := by
    intro other found there broken
    rw [passes, Table.get?_erase] at there
    split at there
    · cases there
    · exact broke.broken there broken

theorem finish (broke : overlap.Broke config history) (pass : OpenPass) {view : GridView}
    {restrictions : Restrictions} {order : Arrangement NodeId} {now : Moment}
    {accepts : NodeId → Bool}
    (happens : .proceed key view restrictions order now accepts ∈ history) :
    (overlap.finish key pass (overlap.resolver.scene view restrictions order now)
      accepts).Broke config history := by
  simp only [Overlap.finish]
  split
  · exact broke.erase rfl rfl
  · rename_i none
    split
    · rename_i failed
      refine broke.insert rfl rfl fun _ => ?_
      refine ⟨Nat.eq_zero_of_not_pos fun gave => none (.inl gave), _, happens, rfl, ?_⟩
      obtain ⟨fault, failed⟩ := Option.isSome_iff_exists.1 failed
      obtain ⟨-, -, last, member, -, found, overflows, -⟩ :=
        Idle.overflows_of_visit overlap.resolver.queue rfl failed
      exact ⟨last, member, found, broke.settings ▸ overflows⟩
    · exact broke.erase rfl rfl

theorem perform (broke : overlap.Broke config history) {event : OverlapEvent}
    (happens : event ∈ history) (performed : overlap.perform event = .ok next) :
    next.Broke config history := by
  obtain ⟨acted, act, rfl⟩ := Result.map_eq_ok.1 performed
  suffices acted.Broke config history from this.same rfl rfl
  cases event with
  | begin key waiting active =>
      simp only [Overlap.act] at act
      split at act
      · cases act
        exact broke
      · cases act
        exact broke.insert rfl rfl fun broken => by cases broken
  | proceed key view restrictions order now accepts =>
      simp only [Overlap.act] at act
      split at act
      · cases act
        exact broke
      · rename_i pass found
        split at act
        · cases act
          exact broke.finish pass happens
        · obtain ⟨⟨stage, busy⟩, advanced, rfl⟩ := Result.map_eq_ok.1 act
          refine broke.insert rfl rfl fun broken => ?_
          have breaks : stage = .broken := broken
          rw [breaks] at advanced
          obtain ⟨earlier, rfl⟩ := broken_of_advance advanced
          obtain ⟨none, blame⟩ := broke.broken found earlier
          exact ⟨none, blame⟩
  | activate job | cancel job =>
      cases act
      exact broke.same rfl rfl
  | request view now peer request =>
      obtain ⟨⟨noted, resolver⟩, asked, rfl⟩ := Result.map_eq_ok.1 act
      exact broke.same (Stealing.config_of_onStealRequest asked) rfl
  | discovery localId event =>
      obtain ⟨resolver, told, rfl⟩ := Result.map_eq_ok.1 act
      exact broke.same (Stealing.received_of_onEvent told).1 rfl

theorem run (broke : overlap.Broke config history) {later : List OverlapEvent}
    (happens : later ⊆ history) (reached : overlap.run later = .ok final) :
    final.Broke config history := by
  induction later generalizing overlap with
  | nil =>
      cases reached
      exact broke
  | cons event rest ih =>
      obtain ⟨next, performed, reached⟩ := Result.bind_eq_ok.1 reached
      rw [List.cons_subset] at happens
      exact ih (broke.perform happens.1 performed) happens.2 reached

end Broke

/-! ## What becomes of fresh jobs -/

end Overlap

end JobGrid
