import Mathlib.Data.List.Dedup
import JobGrid.Proofs.Steal.Busy
import JobGrid.Proofs.Steal.History

/-!
# The count of requested jobs

The count of requested jobs always equals the sum of the requests that are noted, whatever
happens and in whatever order. On the way, the count never becomes negative and no job is taken
off a request for none.
-/

namespace JobGrid

namespace StealEvent

/-- The node that asks for work, if this is a request. -/
def requester? : StealEvent → Option NodeId
  | request peer _ => some peer
  | _ => none

/-- The nodes that ask for work in a history, each of them once. -/
def requesters (history : List StealEvent) : List NodeId :=
  (history.filterMap requester?).dedup

end StealEvent

/-- One more than the largest amount that a request can name. -/
def StealRequest.limit : Nat := 2 ^ 32

/-- How many nodes may ask for work without leaving the range of the count. -/
def StealCounter.capacity : Nat := 2 ^ 31

/-- The count of a table of requests is its total, the requests come from known peers, and
each of them fits into a word. -/
structure Booked (peers : List NodeId) (table : StealTable) (counter : Int) : Prop where
  counter_eq : counter = table.total
  keys_subset : table.peers.keys ⊆ peers
  jobs_lt : ∀ peer, table.jobs peer < StealRequest.limit

namespace Booked

variable {peers : List NodeId} {table : StealTable} {counter : Int}

theorem empty (peers : List NodeId) : Booked peers ∅ 0 where
  counter_eq := rfl
  keys_subset := List.nil_subset peers
  jobs_lt _ := Nat.pow_pos (by omega)

/-- The requests of few peers stay in the range of the count. -/
theorem total_lt (booked : Booked peers table counter)
    (few : peers.length ≤ StealCounter.capacity) : table.total < 2 ^ 63 := by
  have each : ∀ peer, table.jobs peer ≤ 2 ^ 32 - 1 := fun peer =>
    Nat.le_sub_one_of_lt (booked.jobs_lt peer)
  have total := StealTable.total_le_mul each
  have keys : table.peers.keys.length ≤ 2 ^ 31 :=
    Nat.le_trans (table.peers.keys_nodup.length_le_of_subset booked.keys_subset) few
  have bound := Nat.mul_le_mul_right (2 ^ 32 - 1) keys
  omega

section Steps

variable (few : peers.length ≤ StealCounter.capacity)

include few

/-- A request of a known peer can be noted. -/
theorem reset (booked : Booked peers table counter) (now : Moment) {peer : NodeId}
    (known : peer ∈ peers) {jobs : Nat} (small : jobs < StealRequest.limit) :
    ∃ next, StealCounter.add counter (jobs - table.jobs peer) = .ok next ∧
      Booked peers (table.reset now peer jobs) next := by
  have sum := table.total_reset now peer jobs
  have part := table.jobs_le_total peer
  have counted := booked.counter_eq
  have noted : Booked peers (table.reset now peer jobs)
      ((table.reset now peer jobs).total : Int) := {
    counter_eq := rfl
    keys_subset := by
      intro other member
      rcases (table.mem_keys_reset now peer other jobs).1 member with same | earlier
      · exact same ▸ known
      · exact booked.keys_subset earlier
    jobs_lt := by
      intro other
      rw [StealTable.jobs_reset]
      split_ifs
      · exact small
      · exact booked.jobs_lt other }
  have range := noted.total_lt few
  have updated : (counter : Int) + (jobs - table.jobs peer) =
      ((table.reset now peer jobs).total : Int) := by omega
  refine ⟨_, ?_, noted⟩
  rw [StealCounter.add_eq_ok (by omega) (by omega), updated]

/-- A request can be dropped. -/
theorem remove (booked : Booked peers table counter) (peer : NodeId) :
    ∃ next, StealCounter.add counter (-(table.jobs peer : Int)) = .ok next ∧
      Booked peers (table.remove peer) next := by
  have sum := table.total_remove peer
  have counted := booked.counter_eq
  have range := booked.total_lt few
  have dropped : Booked peers (table.remove peer) ((table.remove peer).total : Int) := {
    counter_eq := rfl
    keys_subset := fun other member =>
      booked.keys_subset ((table.mem_keys_remove peer other).1 member).1
    jobs_lt := by
      intro other
      rw [StealTable.jobs_remove]
      split_ifs
      · exact Nat.pow_pos (by omega)
      · exact booked.jobs_lt other }
  have updated : (counter : Int) + -(table.jobs peer : Int) =
      ((table.remove peer).total : Int) := by omega
  refine ⟨_, ?_, dropped⟩
  rw [StealCounter.add_eq_ok (by omega) (by omega), updated]

/-- A job can be taken off a request that asks for one. -/
theorem served (booked : Booked peers table counter) (now : Moment) {peer : NodeId}
    (asks : 0 < table.jobs peer) :
    ∃ next, StealCounter.add counter (-1) = .ok next ∧
      Booked peers (table.served now peer) next := by
  have sum : (table.served now peer).total + 1 = table.total := StealTable.total_served asks
  have counted := booked.counter_eq
  have range := booked.total_lt few
  obtain ⟨entry, found, -⟩ := StealTable.get?_of_jobs_pos asks
  have known : peer ∈ peers := booked.keys_subset (Table.mem_keys_iff.2 ⟨entry, found⟩)
  have taken : Booked peers (table.served now peer) ((table.served now peer).total : Int) := {
    counter_eq := rfl
    keys_subset := by
      intro other member
      rcases (StealTable.mem_keys_served other).1 member with same | earlier
      · exact same ▸ known
      · exact booked.keys_subset earlier
    jobs_lt := by
      intro other
      have amount := booked.jobs_lt other
      rw [StealTable.jobs_served]
      split_ifs <;> omega }
  have updated : (counter : Int) + -1 = ((table.served now peer).total : Int) := by omega
  refine ⟨_, ?_, taken⟩
  rw [StealCounter.add_eq_ok (by omega) (by omega), updated]

/-- No step of a pass breaks a rule, and every step keeps the count. -/
theorem kept_busy (scene : PassScene) (waiting : Nat) :
    Busy.Kept scene waiting False fun busy => Booked peers busy.received busy.counter where
  start := by
    intro busy job booked
    exact booked
  forget := by
    intro busy peer booked _
    obtain ⟨next, added, dropped⟩ := booked.remove few peer
    simp only [Busy.forget, added]
    exact dropped
  expire := by
    intro busy peer entry booked found _
    have known : peer ∈ peers := booked.keys_subset (Table.mem_keys_iff.2 ⟨entry, found⟩)
    have small : 0 < StealRequest.limit := Nat.pow_pos (by omega)
    obtain ⟨next, added, tookBack⟩ := booked.reset few scene.now known small
    rw [Int.natCast_zero, Int.zero_sub] at added
    simp only [Busy.expire, added]
    exact tookBack
  give := by
    intro busy peer entry job handle booked _ _ _ _ _ _ found asks _ _ _
    have positive : 0 < busy.received.jobs peer := StealTable.jobs_of_get? found ▸ asks
    obtain ⟨next, added, taken⟩ := booked.served few scene.now positive
    simp only [Busy.give, StealTable.decrement_eq_ok positive, added]
    exact taken

end Steps

end Booked

namespace Stealing

/-- The count of a resolver is right as long as only known peers asked for work. -/
def Counts (peers : List NodeId) (stealing : Stealing) : Prop :=
  Booked peers stealing.resolver.received stealing.resolver.counter

variable {peers : List NodeId}

/-- Nothing that happens breaks a rule about requests, and everything keeps the count. -/
theorem Counts.perform (few : peers.length ≤ StealCounter.capacity) {stealing : Stealing}
    (counts : stealing.Counts peers) (event : StealEvent)
    (known : ∀ peer, event.requester? = some peer → peer ∈ peers) :
    ∃ next, stealing.perform event = .ok next ∧ next.Counts peers := by
  cases event with
  | request peer request =>
      cases present : stealing.view.contains peer with
      | false =>
          simp only [Stealing.perform, Resolver.onStealRequest, present, Bool.false_eq_true,
            if_false]
          exact ⟨_, rfl, counts⟩
      | true =>
          obtain ⟨counter, added, noted⟩ :=
            Booked.reset few counts stealing.now (known peer rfl) request.delta.toNat_lt
          simp only [Stealing.perform, Resolver.onStealRequest, present, if_true, added]
          exact ⟨_, rfl, noted⟩
  | discovery event =>
      simp only [Stealing.perform, Resolver.onEvent]
      by_cases own : event.member.id = stealing.view.localId
      · rw [if_pos own]
        exact ⟨_, rfl, counts⟩
      · rw [if_neg own]
        obtain ⟨counter, added, dropped⟩ := Booked.remove few counts event.member.id
        cases event.kind with
        | joined =>
            simp only
            split_ifs
            · exact ⟨_, rfl, counts⟩
            · exact ⟨_, rfl, counts⟩
        | left =>
            simp only [Resolver.forgetReceived, added]
            exact ⟨_, rfl, dropped⟩
        | failed =>
            simp only [Resolver.forgetReceived, added]
            exact ⟨_, rfl, dropped⟩
        | metricsUpdated => exact ⟨_, rfl, counts⟩
  | pass store waiting active order accepts =>
      have ended : Busy.Ends False (fun busy => Booked peers busy.received busy.counter)
          (Busy.run (stealing.scene order) waiting active (stealing.busy store)) :=
        Busy.run_keeps (Booked.kept_busy few (stealing.scene order) waiting.length) active counts
      cases ran : Busy.run (stealing.scene order) waiting active (stealing.busy store) with
      | error fault =>
          rw [ran] at ended
          exact ended.elim
      | ok busy =>
          rw [ran] at ended
          obtain ⟨-, received, counter, -⟩ := collide_of_run accepts ran
          simp only [Stealing.perform, ran]
          refine ⟨_, rfl, ?_⟩
          simp only [Counts, received, counter]
          exact ended
  | change view => exact ⟨_, rfl, counts⟩
  | restrict restrictions => exact ⟨_, rfl, counts⟩
  | wait millis => exact ⟨_, rfl, counts⟩

/-- No history of requests of known peers breaks a rule, and all of them keep the count. -/
theorem Counts.run (few : peers.length ≤ StealCounter.capacity) (history : List StealEvent)
    (known : ∀ event ∈ history, ∀ peer, event.requester? = some peer → peer ∈ peers) :
    ∀ {stealing : Stealing}, stealing.Counts peers →
      ∃ final, stealing.run history = .ok final ∧ final.Counts peers := by
  induction history with
  | nil => exact fun counts => ⟨_, rfl, counts⟩
  | cons event later ih =>
      intro stealing counts
      obtain ⟨next, performed, kept⟩ := counts.perform few event (known event (by simp))
      obtain ⟨final, rest, ended⟩ := ih (fun event member => known event (by simp [member])) kept
      exact ⟨final, Result.bind_eq_ok.2 ⟨next, performed, rest⟩, ended⟩

/-- The count of requested jobs equals the sum of the noted requests after every history of
requests, reported changes, passes, unreported changes and waiting, and no history breaks a
rule: no sum is negative on the way and no job is taken off a request for none. -/
theorem counter_eq_total {config : StealingConfig} {view : GridView} {resolver : Resolver}
    (started : Resolver.start config view = .ok resolver) (restrictions : Restrictions)
    (now : Moment) (history : List StealEvent)
    (few : (StealEvent.requesters history).length ≤ StealCounter.capacity) :
    ∃ final : Stealing,
      ({ resolver, view, restrictions, now } : Stealing).run history = .ok final ∧
        final.resolver.counter = final.resolver.received.total := by
  obtain ⟨_, -, rfl⟩ := Result.map_eq_ok.1 started
  have known : ∀ event ∈ history, ∀ peer, event.requester? = some peer →
      peer ∈ StealEvent.requesters history := by
    intro event member peer asks
    exact List.mem_dedup.2 (List.mem_filterMap.2 ⟨event, member, asks⟩)
  have counts : Stealing.Counts (StealEvent.requesters history)
      { resolver := { config, queue := view.remote.map Member.id }, view, restrictions, now } :=
    Booked.empty (StealEvent.requesters history)
  obtain ⟨final, reached, kept⟩ := counts.run few history known
  exact ⟨final, reached, kept.counter_eq⟩

/-- A member asks, is served a job of the two that wait, and departs. -/
theorem counter_eq_total_of_departure :
    let peer : Member := { id := .ofNat 1 }
    let view : GridView := ⟨.ofNat 0, none, [peer]⟩
    let job (number : Nat) : JobHandle :=
      { spec := { id := .ofNat number }, session := default, origin := .ofNat 0, createdAt := 0 }
    let config : StealingConfig := { activeThreshold := 0 }
    let resolver : Resolver := { config, queue := [peer.id] }
    let history : List StealEvent := [.request peer.id ⟨3⟩,
      .pass ⟨#[job 7, job 8]⟩ [0, 1] 0 default fun _ => true, .discovery ⟨.left, peer⟩]
    Resolver.start config view = .ok resolver ∧
      (StealEvent.requesters history).length ≤ StealCounter.capacity ∧
      ∃ final : Stealing,
        ({ resolver, view, restrictions := ∅, now := 0 } : Stealing).run history = .ok final ∧
          final.resolver.counter = final.resolver.received.total := by
  intro peer view job config resolver history
  have started : Resolver.start config view = .ok resolver := rfl
  have few : (StealEvent.requesters history).length ≤ StealCounter.capacity := by decide
  exact ⟨started, few, counter_eq_total started ∅ 0 history few⟩

end Stealing

end JobGrid
