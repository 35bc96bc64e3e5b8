import JobGrid.Proofs.Balance.KeyedPicks
import JobGrid.Proofs.Balance.Routes
import JobGrid.Proofs.Grid.Books
import JobGrid.Proofs.Node.Pick
import JobGrid.Proofs.Table

/-!
# How the placing of a job ends

A job can be followed while it is placed. Between the moments at which the node acts, anything
may happen to it and to the grid, so that deliveries succeed and fail in every pattern. Each
delivery that is refused is followed by one to another node, and counts, so that there are only
so many. In the end a node takes the job, which is noted, or the task fails with the reason why
there is no further node. A balancer that has to add up times that do not fit into a word is left
out.
-/

namespace JobGrid

/-! ## Balancers in use -/

/-- The settings ask for a sum of the times that a candidate published, and for one candidate that
sum does not fit into a word. -/
def BalancerConfig.OverflowsOn (settings : BalancerConfig) (candidates : List Member) : Prop :=
  ∃ useAverage, settings = .adaptive ⟨.processingTime useAverage⟩ ∧
    ∃ member ∈ candidates, member.metrics.TimesOverflow useAverage

namespace Balancer

/-- A balancer that places jobs by key breaks no rule. -/
theorem pick_affinity_ne_fault (inner : AffinityBalancer) (session : SessionId)
    (candidates : List Member) (spec : JobSpec) (draw : Draw) (fault : Fault) :
    (affinity inner).pick session candidates spec draw ≠ .error (.fault fault) := by
  intro broke
  by_cases none : candidates = []
  · subst none
    rw [pick_nil] at broke
    cases broke
  · obtain ⟨found, picked⟩ := inner.exists_pick session none spec.affinityKey draw
    rw [pick, picked] at broke
    cases broke

/-- The balancer was made from some settings, and was asked and told some things since. -/
def MadeFrom (settings : BalancerConfig) (balancer : Balancer) : Prop :=
  ∃ start history, ofConfig settings = .ok start ∧ balancer = start.run history

namespace MadeFrom

variable {settings : BalancerConfig} {balancer next : Balancer} {session : SessionId}
  {candidates : List Member} {spec : JobSpec} {draw : Draw}

theorem pick (made : balancer.MadeFrom settings) {member : Member}
    (picked : balancer.pick session candidates spec draw = .ok (member, next)) :
    next.MadeFrom settings := by
  obtain ⟨start, history, built, rfl⟩ := made
  refine ⟨start, history ++ [.pick session candidates spec draw], built, ?_⟩
  rw [run_append, run_cons, perform, picked]
  rfl

/-- No pick breaks a rule but one that adds up times that do not fit into a word together. -/
theorem overflow_of_pick (made : balancer.MadeFrom settings) {fault : Fault}
    (broke : balancer.pick session candidates spec draw = .error (.fault fault)) :
    fault = .overflow ∧ settings.OverflowsOn candidates := by
  obtain ⟨start, history, built, rfl⟩ := made
  cases settings with
  | adaptive config =>
      obtain ⟨inner, fresh, rfl⟩ := Result.map_eq_ok.1 built
      obtain ⟨-, -, rfl⟩ := Result.map_eq_ok.1 fresh
      have unused : (Balancer.adaptive { probe := config.probe.probe }).Measures
          config.probe.probe := ⟨rfl, fun _ _ none => by cases none⟩
      have measures := unused.run history
      cases reached : (Balancer.adaptive { probe := config.probe.probe }).run history with
      | affinity inner =>
          rw [reached] at measures
          exact measures.elim
      | adaptive inner =>
          rw [reached] at measures broke
          obtain ⟨probe, sound⟩ := measures
          obtain ⟨member, inside, failed⟩ :=
            sound.exists_fault_of_pick (Result.map_eq_error.1 broke)
          rw [probe] at failed
          obtain ⟨rfl, useAverage, chosen, large⟩ := ProbeConfig.overflow_of_probe failed
          exact ⟨rfl, useAverage, by rw [← chosen], member, inside, large⟩
  | affinity config =>
      obtain ⟨inner, -, rfl⟩ := Result.map_eq_ok.1 built
      rw [AffinityBalancer.affinity_run] at broke
      exact absurd broke (pick_affinity_ne_fault _ session candidates spec draw fault)

end MadeFrom

end Balancer

/-! ## One look for another node -/

namespace Rejection

variable {settings : BalancerConfig} {rejection : Rejection} {maxAttempts : UInt32}
  {balancer next : Balancer} {draw : Draw}

theorem madeFrom_of_failover (made : balancer.MadeFrom settings) {member : Member}
    (routed : rejection.failover maxAttempts balancer draw = .ok (member, next)) :
    next.MadeFrom settings := by
  simp only [failover] at routed
  split at routed
  · cases routed
  · cases routed
    exact made
  · exact made.pick routed

/-- The look for another node breaks a rule only where the pick among the others does. -/
theorem overflow_of_failover (made : balancer.MadeFrom settings) {fault : Fault}
    (broke : rejection.failover maxAttempts balancer draw = .error (.fault fault)) :
    fault = .overflow ∧ settings.OverflowsOn rejection.candidates := by
  by_cases exhausted : maxAttempts ≤ rejection.attempts
  · rw [failover_of_exhausted exhausted] at broke
    cases broke
  · cases present : rejection.presentThief? with
    | some thief =>
        rw [failover_of_thief exhausted present] at broke
        cases broke
    | none =>
        rw [failover_of_balance exhausted present] at broke
        exact made.overflow_of_pick broke

end Rejection

namespace Turn

variable {settings : BalancerConfig} {turn routed : Turn} {maxAttempts : UInt32}
  {transfer : JobTransfer} {rejectedBy next : NodeId} {thief : Option NodeId}

/-- A job that is placed again counts one attempt more, which is within the limit. -/
theorem attempts_again
    (found : turn.failover maxAttempts transfer rejectedBy thief = .ok (next, routed)) :
    (again transfer).failoverAttempts.toNat = transfer.failoverAttempts.toNat + 1 ∧
      (again transfer).failoverAttempts ≤ maxAttempts := by
  have less := UInt32.lt_iff_toNat_lt.1 (attempts_lt_of_failover found)
  have bound := maxAttempts.toNat_lt
  have counted : (again transfer).failoverAttempts.toNat =
      transfer.failoverAttempts.toNat + 1 := by
    simp only [again, UInt32.toNat_add, UInt32.toNat_one]
    omega
  refine ⟨counted, UInt32.le_iff_toNat_le.2 ?_⟩
  omega

/-- A job that is placed again does not go back to where it comes from. -/
theorem ne_of_failover
    (found : turn.failover maxAttempts transfer rejectedBy thief = .ok (next, routed)) :
    next ≠ rejectedBy := by
  obtain ⟨⟨member, balancer⟩, chosen, equal⟩ := Result.map_eq_ok.1 found
  cases equal
  obtain ⟨candidate, inside, same⟩ := Rejection.isAmong_candidates_of_failover chosen
  exact same ▸ (Rejection.mem_candidates_iff.1 inside).2

theorem madeFrom_of_failover (made : turn.node.balancer.MadeFrom settings)
    (found : turn.failover maxAttempts transfer rejectedBy thief = .ok (next, routed)) :
    routed.node.balancer.MadeFrom settings := by
  obtain ⟨⟨member, balancer⟩, chosen, equal⟩ := Result.map_eq_ok.1 found
  cases equal
  exact Rejection.madeFrom_of_failover made chosen

theorem overflow_of_failover (made : turn.node.balancer.MadeFrom settings) {fault : Fault}
    (broke : turn.failover maxAttempts transfer rejectedBy thief = .error (.fault fault)) :
    fault = .overflow ∧ settings.OverflowsOn
      ((turn.taskNodes transfer.session).filter fun member => member.id ≠ rejectedBy) :=
  Rejection.overflow_of_failover made (Result.map_eq_error.1 broke)

/-- A job whose task is followed is noted where it was brought. -/
theorem awaiting_record {target : NodeId}
    (followed : turn.tracks transfer.session transfer.spec.id = true) :
    Awaiting (turn.record transfer target).node.tasks transfer.session transfer.spec.id
      ⟨transfer, target⟩ := by
  simp only [tracks] at followed
  split at followed
  · rename_i task found
    obtain ⟨earlier, pending⟩ := Option.isSome_iff_exists.1 followed
    refine ⟨task.assign transfer target, ?_, ?_⟩
    · rw [record, update, Table.get?_modify, if_pos rfl, found, Option.map_some]
    · rw [TaskState.assign, Table.get?_modify, if_pos rfl, pending, Option.map_some]
  · cases followed

theorem get?_finish (turn : Turn) (session : SessionId) (error : Option String) :
    (turn.finish session error).node.tasks.get? session = none := by
  simp only [finish]
  split
  · assumption
  · exact Table.get?_erase_self _ _

end Turn

/-! ## Placing a job while other things happen -/

/-- A delivery that was tried: the job as it was, the node that it was for, and the moment. -/
structure Trial where
  transfer : JobTransfer
  target : NodeId
  turn : Turn

namespace Trial

/-- What the delivery came to. -/
def result (trial : Trial) : Except PlacementError Turn :=
  trial.turn.deliver trial.target trial.transfer

def IsRefused (trial : Trial) : Prop := ∃ cause, trial.result = .error cause

/-- A delivery that was refused is followed by one to another node. The job is the same but for
one attempt more, which is within the limit. -/
structure LeadsTo (maxAttempts : UInt32) (trial next : Trial) : Prop where
  refused : trial.IsRefused
  elsewhere : next.target ≠ trial.target
  transfer : next.transfer = Turn.again trial.transfer
  counted : next.transfer.failoverAttempts.toNat = trial.transfer.failoverAttempts.toNat + 1
  within : next.transfer.failoverAttempts ≤ maxAttempts

end Trial

/-- How the placing of a job ends. -/
inductive PlacingEnd where
  /-- A node took the job. -/
  | taken
  /-- The task failed. -/
  | failed (cause : PlacementError)
  /-- A rule broke. -/
  | broken (fault : Fault)

namespace PlacingEnd

/-- What the end of a placing means, where its last delivery and the turn afterwards are given.
Either the last delivery worked and is noted if the job is still pending, or it was refused as
well. Then the look for another node ends the task with its error, or it adds up times that do
not fit into a word. -/
def Explains (settings : BalancerConfig) (maxAttempts : UInt32) (meanwhile : Nat → Turn → Turn)
    (last : Trial) (final : Turn) : PlacingEnd → Prop
  | taken => ∃ delivered moment, last.result = .ok delivered ∧
      let noting := meanwhile moment delivered
      final = noting.record last.transfer last.target ∧
        (noting.tracks last.transfer.session last.transfer.spec.id = true →
          Awaiting final.node.tasks last.transfer.session last.transfer.spec.id
            ⟨last.transfer, last.target⟩)
  | failed cause => last.IsRefused ∧ ∃ moment later,
      let refused := meanwhile moment last.turn
      refused.failover maxAttempts last.transfer last.target none = .error (.error cause) ∧
        final = (meanwhile later refused).finish last.transfer.session (some cause.message) ∧
          final.node.tasks.get? last.transfer.session = none
  | broken fault => last.IsRefused ∧ ∃ moment,
      let refused := meanwhile moment last.turn
      refused.failover maxAttempts last.transfer last.target none = .error (.fault fault) ∧
        final = refused.stopWith fault ∧ fault = .overflow ∧
          settings.OverflowsOn ((refused.taskNodes last.transfer.session).filter fun member =>
            member.id ≠ last.target)

end PlacingEnd

/-- The placing of a job: the deliveries that were tried, how it ended, and the turn then. -/
structure Placing where
  trials : List Trial
  ending : PlacingEnd
  turn : Turn

/-- The placing that goes on after a delivery that was refused. -/
def Placing.after (placing : Placing) (trial : Trial) : Placing :=
  { placing with trials := trial :: placing.trials }

namespace Turn

/-- Brings a job to a node, or to others until one takes it or the task has to fail. Before each
delivery, before each look for another node and before the end is noted, something happens in the
meantime; these moments are counted from a given one on. -/
def placeAmid (maxAttempts : UInt32) (meanwhile : Nat → Turn → Turn) (moment : Nat) (turn : Turn)
    (transfer : JobTransfer) (target : NodeId) : Placing :=
  let trying := meanwhile moment turn
  match trying.deliver target transfer with
  | .ok delivered =>
      ⟨[⟨transfer, target, trying⟩], .taken,
        (meanwhile (moment + 1) delivered).record transfer target⟩
  | .error _ =>
      let refused := meanwhile (moment + 1) trying
      match _routed : refused.failover maxAttempts transfer target none with
      | .ok (next, routed) =>
          (placeAmid maxAttempts meanwhile (moment + 2) routed (again transfer) next).after
            ⟨transfer, target, trying⟩
      | .error (.error cause) =>
          ⟨[⟨transfer, target, trying⟩], .failed cause,
            (meanwhile (moment + 2) refused).finish transfer.session (some cause.message)⟩
      | .error (.fault fault) =>
          ⟨[⟨transfer, target, trying⟩], .broken fault, refused.stopWith fault⟩
  termination_by maxAttempts.toNat - transfer.failoverAttempts.toNat
  decreasing_by
    have counted := attempts_again _routed
    have bound := UInt32.le_iff_toNat_le.1 counted.2
    omega

/-- The first delivery is the one that was asked for. -/
theorem exists_trials_placeAmid (maxAttempts : UInt32) (meanwhile : Nat → Turn → Turn)
    (moment : Nat) (turn : Turn) (transfer : JobTransfer) (target : NodeId) :
    ∃ later, (turn.placeAmid maxAttempts meanwhile moment transfer target).trials =
      ⟨transfer, target, meanwhile moment turn⟩ :: later := by
  fun_cases placeAmid maxAttempts meanwhile moment turn transfer target with
  | case1 => exact ⟨[], rfl⟩
  | case2 => exact ⟨_, rfl⟩
  | case3 => exact ⟨[], rfl⟩
  | case4 => exact ⟨[], rfl⟩

/-- Each delivery uses up one of the attempts that are left. -/
theorem length_trials_placeAmid (maxAttempts : UInt32) (meanwhile : Nat → Turn → Turn)
    (moment : Nat) (turn : Turn) (transfer : JobTransfer) (target : NodeId) :
    (turn.placeAmid maxAttempts meanwhile moment transfer target).trials.length ≤
      (maxAttempts.toNat - transfer.failoverAttempts.toNat) + 1 := by
  fun_induction placeAmid maxAttempts meanwhile moment turn transfer target with
  | case1 => exact Nat.le_add_left _ _
  | case2 moment turn transfer target trying cause refusal refused next routed found ih =>
      have counted := attempts_again found
      have bound := UInt32.le_iff_toNat_le.1 counted.2
      rw [Placing.after, List.length_cons]
      omega
  | case3 => exact Nat.le_add_left _ _
  | case4 => exact Nat.le_add_left _ _

theorem isChain_trials_placeAmid (maxAttempts : UInt32) (meanwhile : Nat → Turn → Turn)
    (moment : Nat) (turn : Turn) (transfer : JobTransfer) (target : NodeId) :
    (turn.placeAmid maxAttempts meanwhile moment transfer target).trials.IsChain
      (Trial.LeadsTo maxAttempts) := by
  fun_induction placeAmid maxAttempts meanwhile moment turn transfer target with
  | case1 => exact .singleton _
  | case2 moment turn transfer target trying cause refusal refused next routed found ih =>
      obtain ⟨later, first⟩ := exists_trials_placeAmid maxAttempts meanwhile (moment + 2) routed
        (again transfer) next
      have counted := attempts_again found
      rw [first] at ih
      rw [Placing.after, first]
      exact ih.cons_cons ⟨⟨cause, refusal⟩, ne_of_failover found, rfl, counted.1, counted.2⟩
  | case3 => exact .singleton _
  | case4 => exact .singleton _

/-- However the placing ends, the last delivery and the turn afterwards tell why. -/
theorem explains_placeAmid {settings : BalancerConfig} {meanwhile : Nat → Turn → Turn}
    (keeps : ∀ moment turn, turn.node.balancer.MadeFrom settings →
      (meanwhile moment turn).node.balancer.MadeFrom settings)
    (maxAttempts : UInt32) (moment : Nat) {turn : Turn}
    (made : turn.node.balancer.MadeFrom settings) (transfer : JobTransfer) (target : NodeId) :
    let placing := turn.placeAmid maxAttempts meanwhile moment transfer target
    ∃ earlier last, placing.trials = earlier ++ [last] ∧ (∀ trial ∈ earlier, trial.IsRefused) ∧
      placing.ending.Explains settings maxAttempts meanwhile last placing.turn := by
  fun_induction placeAmid maxAttempts meanwhile moment turn transfer target with
  | case1 moment turn transfer target trying delivered taken =>
      refine ⟨[], _, rfl, fun _ none => (List.not_mem_nil none).elim, ?_⟩
      exact ⟨delivered, moment + 1, taken, rfl, awaiting_record⟩
  | case2 moment turn transfer target trying cause refusal refused next routed found ih =>
      have reached := madeFrom_of_failover (keeps _ _ (keeps _ _ made)) found
      obtain ⟨earlier, last, split, turnedDown, explained⟩ := ih reached
      refine ⟨⟨transfer, target, trying⟩ :: earlier, last, ?_, ?_, explained⟩
      · rw [Placing.after, split, List.cons_append]
      · exact List.forall_mem_cons.2 ⟨⟨cause, refusal⟩, turnedDown⟩
  | case3 moment turn transfer target trying reason refusal refused cause broke =>
      refine ⟨[], _, rfl, fun _ none => (List.not_mem_nil none).elim, ⟨reason, refusal⟩, ?_⟩
      exact ⟨moment + 1, moment + 2, broke, rfl, get?_finish _ _ _⟩
  | case4 moment turn transfer target trying reason refusal refused fault broke =>
      refine ⟨[], _, rfl, fun _ none => (List.not_mem_nil none).elim, ⟨reason, refusal⟩, ?_⟩
      obtain ⟨rfl, large⟩ := overflow_of_failover (keeps _ _ (keeps _ _ made)) broke
      exact ⟨moment + 1, broke, rfl, rfl, large⟩

/-- What a node does after a delivery that was refused. -/
theorem placeWithin_of_refused {turn : Turn} {transfer : JobTransfer} {target : NodeId}
    {cause : PlacementError} (refusal : turn.deliver target transfer = .error cause)
    (maxAttempts : UInt32) :
    turn.placeWithin maxAttempts transfer target =
      match turn.failover maxAttempts transfer target none with
      | .ok (next, routed) => routed.placeWithin maxAttempts (again transfer) next
      | .error (.error cause) => turn.finish transfer.session (some cause.message)
      | .error (.fault fault) => turn.stopWith fault := by
  rw [placeWithin, refusal]
  simp only
  split
  · rename_i next routed found
    rw [found]
  · rename_i cause broke
    rw [broke]
  · rename_i fault broke
    rw [broke]

/-- While nothing else happens, the job is placed as ever. -/
theorem turn_placeAmid_idle (maxAttempts : UInt32) (moment : Nat) (turn : Turn)
    (transfer : JobTransfer) (target : NodeId) :
    (turn.placeAmid maxAttempts (fun _ turn => turn) moment transfer target).turn =
      turn.placeWithin maxAttempts transfer target := by
  fun_induction placeAmid maxAttempts (fun _ turn => turn) moment turn transfer target with
  | case1 moment turn transfer target trying delivered taken =>
      rw [placeWithin, show turn.deliver target transfer = .ok delivered from taken]
  | case2 moment turn transfer target trying cause refusal refused next routed found ih =>
      rw [placeWithin_of_refused refusal,
        show turn.failover maxAttempts transfer target none = .ok (next, routed) from found]
      exact ih
  | case3 moment turn transfer target trying reason refusal refused cause broke =>
      rw [placeWithin_of_refused refusal,
        show turn.failover maxAttempts transfer target none = .error (.error cause) from broke]
  | case4 moment turn transfer target trying reason refusal refused fault broke =>
      rw [placeWithin_of_refused refusal,
        show turn.failover maxAttempts transfer target none = .error (.fault fault) from broke]

/-- A job of a rejection is placed again where it is sent next. -/
theorem onRejected_eq_place {turn : Turn} {rejected : JobRejected} {next : NodeId} {routed : Turn}
    (followed : turn.tracks rejected.job.session rejected.job.spec.id = true)
    (found : turn.failover turn.node.config.failover.maxAttempts rejected.job rejected.rejectedBy
      rejected.thief = .ok (next, routed)) :
    turn.onRejected rejected = routed.place (again rejected.job) next := by
  simp only [onRejected, followed, if_true, found]

/-- A job is placed in a bounded number of deliveries, whatever happens in the meantime: as many
as it has attempts left, and one more. The first is the one that was asked for. Each further one
follows a refusal, goes to another node than the one before, and counts as one attempt more, which
never passes the limit. The last one works, and then the job is noted with its node if it is
still pending; or it is refused like all others, and the look for another node ends the task with
its error. This leaves out the sum of times that do not fit into a word. Where nothing else
happens in the meantime, this is how the node places its jobs. A job that another node refused or
gave away has been counted before in the same way, and does not go back there. -/
theorem placing_ends {settings : BalancerConfig} {meanwhile : Nat → Turn → Turn}
    (keeps : ∀ moment turn, turn.node.balancer.MadeFrom settings →
      (meanwhile moment turn).node.balancer.MadeFrom settings)
    {turn : Turn} (made : turn.node.balancer.MadeFrom settings) (maxAttempts : UInt32)
    (transfer : JobTransfer) (target : NodeId) :
    let placing := turn.placeAmid maxAttempts meanwhile 0 transfer target
    let limit := turn.node.config.failover.maxAttempts
    placing.trials.length ≤ (maxAttempts.toNat - transfer.failoverAttempts.toNat) + 1 ∧
      (∃ later, placing.trials = ⟨transfer, target, meanwhile 0 turn⟩ :: later) ∧
      placing.trials.IsChain (Trial.LeadsTo maxAttempts) ∧
      (∃ earlier last, placing.trials = earlier ++ [last] ∧
        (∀ trial ∈ earlier, trial.IsRefused) ∧
          placing.ending.Explains settings maxAttempts meanwhile last placing.turn) ∧
      turn.place transfer target =
        (turn.placeAmid limit (fun _ turn => turn) 0 transfer target).turn ∧
      ∀ rejected next routed,
        turn.tracks rejected.job.session rejected.job.spec.id = true →
        turn.failover limit rejected.job rejected.rejectedBy rejected.thief = .ok (next, routed) →
          turn.onRejected rejected = routed.place (again rejected.job) next ∧
            next ≠ rejected.rejectedBy ∧
            (again rejected.job).failoverAttempts.toNat =
              rejected.job.failoverAttempts.toNat + 1 ∧
            (again rejected.job).failoverAttempts ≤ limit := by
  intro placing limit
  refine ⟨?_, ?_, ?_, ?_, ?_, ?_⟩
  · exact length_trials_placeAmid maxAttempts meanwhile 0 turn transfer target
  · exact exists_trials_placeAmid maxAttempts meanwhile 0 turn transfer target
  · exact isChain_trials_placeAmid maxAttempts meanwhile 0 turn transfer target
  · exact explains_placeAmid keeps maxAttempts 0 made transfer target
  · exact (turn_placeAmid_idle limit 0 turn transfer target).symm
  · intro rejected next routed followed found
    exact ⟨onRejected_eq_place followed found, ne_of_failover found, attempts_again found⟩

/-- The inbox of a member is closed and the own queue is full, so that a job goes to and fro, until
that member opens its inbox again in the meantime. -/
theorem placing_ends_late :
    let spec : JobSpec := { id := .ofNat 7 }
    let transfer : JobTransfer := { session := .ofNat 5, origin := .ofNat 0, spec }
    let task : TaskState :=
      { pending := ⟨[(spec.id, ⟨transfer, .ofNat 1⟩)], by simp⟩, ticket := 0 }
    let node : Node := {
      id := .ofNat 0
      config := { balancer := .affinity {} }
      chance := {}
      queue := { capacity := 1, waiting := [⟨.ofNat 8, 0⟩] }
      resolver := { config := {} }
      balancer := .affinity { config := {}, ring := .empty "" Digest.md5 }
      tracker := { started := 0, cpus := 1 }
      tasks := ⟨[(transfer.session, task)], by simp⟩
      inbox := 0
      position := 0 }
    let cluster : Cluster := {
      capacity := 9
      members := [{ id := .ofNat 0 }, { id := .ofNat 1 }]
      inboxes := ⟨[(.ofNat 0, 0), (.ofNat 1, 1)], by decide⟩
      mailboxes := #[{}, { isOpen := false }] }
    let turn : Turn := { now := 0, node, cluster }
    let opened (turn : Turn) : Turn :=
      { turn with cluster := { turn.cluster with mailboxes := #[{}, {}] } }
    let meanwhile (moment : Nat) (turn : Turn) : Turn :=
      if moment = 4 then opened turn else turn
    let placing := turn.placeAmid 5 meanwhile 0 transfer (.ofNat 1)
    let limit := turn.node.config.failover.maxAttempts
    let settings := turn.node.config.balancer
    (∀ moment turn, turn.node.balancer.MadeFrom settings →
        (meanwhile moment turn).node.balancer.MadeFrom settings) ∧
      turn.node.balancer.MadeFrom settings ∧
      placing.trials.map Trial.target = [.ofNat 1, .ofNat 0, .ofNat 1] ∧
      (placing.turn.node.tasks.get? transfer.session).map (fun task => task.pending.values) =
        some [⟨again (again transfer), .ofNat 1⟩] ∧
      placing.trials.length ≤ (5 - 0) + 1 ∧
      (∃ later, placing.trials = ⟨transfer, .ofNat 1, meanwhile 0 turn⟩ :: later) ∧
      placing.trials.IsChain (Trial.LeadsTo 5) ∧
      (∃ earlier last, placing.trials = earlier ++ [last] ∧
        (∀ trial ∈ earlier, trial.IsRefused) ∧
          placing.ending.Explains settings 5 meanwhile last placing.turn) ∧
      turn.place transfer (.ofNat 1) =
        (turn.placeAmid limit (fun _ turn => turn) 0 transfer (.ofNat 1)).turn ∧
      ∀ rejected next routed,
        turn.tracks rejected.job.session rejected.job.spec.id = true →
        turn.failover limit rejected.job rejected.rejectedBy rejected.thief = .ok (next, routed) →
          turn.onRejected rejected = routed.place (again rejected.job) next ∧
            next ≠ rejected.rejectedBy ∧
            (again rejected.job).failoverAttempts.toNat =
              rejected.job.failoverAttempts.toNat + 1 ∧
            (again rejected.job).failoverAttempts ≤ limit := by
  intro spec transfer task node cluster turn opened meanwhile placing limit settings
  have keeps : ∀ moment turn, turn.node.balancer.MadeFrom settings →
      (meanwhile moment turn).node.balancer.MadeFrom settings := by
    intro moment turn made
    simp only [meanwhile]
    split
    · exact made
    · exact made
  have made : turn.node.balancer.MadeFrom settings := ⟨_, [], rfl, rfl⟩
  refine ⟨keeps, made, by decide +kernel, by decide +kernel, ?_⟩
  exact placing_ends keeps made 5 transfer (.ofNat 1)

/-- The own queue is full, and the only other member published two times that do not fit into a
word together. The job is brought to nobody, and its task is followed on without an end. -/
theorem placing_overflows :
    let spec : JobSpec := { id := .ofNat 7 }
    let transfer : JobTransfer := { session := .ofNat 5, origin := .ofNat 0, spec }
    let task : TaskState :=
      { pending := ⟨[(spec.id, ⟨transfer, .ofNat 0⟩)], by simp⟩, ticket := 0 }
    let node : Node := {
      id := .ofNat 0
      config := {}
      chance := {}
      queue := { capacity := 1, waiting := [⟨.ofNat 8, 0⟩] }
      resolver := { config := {} }
      balancer := .adaptive { probe := ({} : AdaptiveConfig).probe.probe }
      tracker := { started := 0, cpus := 1 }
      tasks := ⟨[(transfer.session, task)], by simp⟩
      inbox := 0
      position := 0 }
    let busy : Metrics := { currentExecuteTime := 18446744073709551615, currentWaitTime := 1 }
    let cluster : Cluster := {
      capacity := 9
      members := [{ id := .ofNat 0 }, { id := .ofNat 1, metrics := busy }]
      inboxes := ⟨[(.ofNat 0, 0), (.ofNat 1, 1)], by decide⟩
      mailboxes := #[{}, {}] }
    let turn : Turn := { now := 0, node, cluster }
    let placed := turn.place transfer (.ofNat 0)
    turn.node.balancer.MadeFrom turn.node.config.balancer ∧
      placed.fault? = some .overflow ∧ placed.notices = [] ∧
      placed.tracks transfer.session spec.id = true ∧
      placed.node.queue.waiting = node.queue.waiting ∧
      placed.cluster.mailboxes.toList.map Mailbox.letters = [[], []] := by
  intro spec transfer task node busy cluster turn placed
  exact ⟨⟨_, [], rfl, rfl⟩, by decide +kernel, by decide +kernel, by decide +kernel,
    by decide +kernel, by decide +kernel⟩

end Turn

end JobGrid
