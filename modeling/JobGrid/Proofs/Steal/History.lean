import JobGrid.Proofs.Result
import JobGrid.Steal.Pass

/-!
# Histories of work stealing

Anything can happen to the resolver of a node, in any order: requests of anybody, changes that
discovery reports, passes over any jobs in any state, changes of the grid and of the
restrictions that are not reported, and the passing of time. What was asked for and what was
given away is written down, the latest entry first.
-/

namespace JobGrid

/-- What is written down about stealing. -/
inductive StealRecord where
  /-- A member asked for jobs. -/
  | asked (peer : NodeId) (jobs : Nat) (since : Moment)
  /-- A job was given to a peer. -/
  | given (job : JobRef) (peer : NodeId)
  deriving DecidableEq

namespace StealRecord

/-- The latest request of a peer: the jobs that it asked for, and when. -/
def latest? (peer : NodeId) : List StealRecord → Option (Nat × Moment)
  | [] => none
  | .asked other jobs since :: earlier =>
      if other = peer then some (jobs, since) else latest? peer earlier
  | .given _ _ :: earlier => latest? peer earlier

/-- The number of jobs that a peer was given since its latest request. -/
def givenSince (peer : NodeId) : List StealRecord → Nat
  | [] => 0
  | .asked other _ _ :: earlier => if other = peer then 0 else givenSince peer earlier
  | .given _ other :: earlier =>
      if other = peer then givenSince peer earlier + 1 else givenSince peer earlier

end StealRecord

namespace JobStore

/-- The peer that a job was given to between two moments: its count of attempts changed. -/
def taker? (earlier later : JobStore) (job : JobRef) : Option NodeId :=
  match earlier.get? job, later.get? job with
  | some before, some after =>
      if after.stealingAttempts = before.stealingAttempts then none else after.thief
  | _, _ => none

/-- The jobs that were given away between two moments, each with its peer. -/
def gifts (earlier later : JobStore) : List StealRecord :=
  (List.range earlier.next).filterMap fun job =>
    (earlier.taker? later job).map fun peer => .given job peer

end JobStore

namespace Resolver

/-- What a resolver makes of a request for work: it takes note of what a member asks for. -/
inductive Heard (resolver : Resolver) (view : GridView) (now : Moment) (peer : NodeId)
    (request : StealRequest) : Bool × Resolver → Prop where
  | stranger (absent : view.contains peer = false) :
      Heard resolver view now peer request (false, resolver)
  | member {counter : StealCounter} (present : view.contains peer = true)
      (added : resolver.counter.add
        (request.delta.toNat - resolver.received.jobs peer) = .ok counter) :
      Heard resolver view now peer request (true, { resolver with
        counter
        received := resolver.received.reset now peer request.delta.toNat })

/-- What a resolver makes of what discovery reports: it queues a peer that is new, and drops
whatever it keeps about a peer that departed. -/
inductive Told (resolver : Resolver) (localId : NodeId) (event : DiscoveryEvent) :
    Resolver → Prop where
  | kept (silent : event.member.id = localId ∨ event.kind = .metricsUpdated ∨
      event.kind = .joined ∧ event.member.id ∈ resolver.queue) :
      Told resolver localId event resolver
  | queued (remote : event.member.id ≠ localId) (joined : event.kind = .joined)
      (new : event.member.id ∉ resolver.queue) :
      Told resolver localId event
        { resolver with queue := resolver.queue ++ [event.member.id] }
  | dropped {counter : StealCounter} (remote : event.member.id ≠ localId)
      (departed : event.kind = .left ∨ event.kind = .failed)
      (added : resolver.counter.add
        (-(resolver.received.jobs event.member.id : Int)) = .ok counter) :
      Told resolver localId event { resolver with
        counter
        received := resolver.received.remove event.member.id
        queue := resolver.queue.filter (· ≠ event.member.id)
        sent := resolver.sent.remove event.member.id }

theorem heard_of_onStealRequest {resolver : Resolver} {view : GridView} {now : Moment}
    {peer : NodeId} {request : StealRequest} {noted : Bool × Resolver}
    (asked : resolver.onStealRequest view now peer request = .ok noted) :
    resolver.Heard view now peer request noted := by
  cases present : view.contains peer with
  | false =>
      simp only [onStealRequest, present, Bool.false_eq_true, if_false] at asked
      cases asked
      exact .stranger present
  | true =>
      simp only [onStealRequest, present, if_true] at asked
      obtain ⟨counter, added, rfl⟩ := Result.map_eq_ok.1 asked
      exact .member present added

theorem told_of_onEvent {resolver next : Resolver} {localId : NodeId} {event : DiscoveryEvent}
    (noted : resolver.onEvent localId event = .ok next) :
    resolver.Told localId event next := by
  simp only [onEvent] at noted
  by_cases own : event.member.id = localId
  · rw [if_pos own] at noted
    cases noted
    exact .kept (.inl own)
  rw [if_neg own] at noted
  cases kind : event.kind with
  | joined =>
      simp only [kind] at noted
      by_cases known : event.member.id ∈ resolver.queue
      · rw [if_pos known] at noted
        cases noted
        exact .kept (.inr (.inr ⟨kind, known⟩))
      · rw [if_neg known] at noted
        cases noted
        exact .queued own kind known
  | left | failed =>
      simp only [kind] at noted
      obtain ⟨forgotten, forgot, rfl⟩ := Result.map_eq_ok.1 noted
      obtain ⟨counter, added, rfl⟩ := Result.map_eq_ok.1 forgot
      exact .dropped own (by simp [kind]) added
  | metricsUpdated =>
      simp only [kind] at noted
      cases noted
      exact .kept (.inr (.inl kind))

end Resolver

/-- The resolver of a node, what it sees of the grid, and what was written down. -/
structure Stealing where
  resolver : Resolver
  view : GridView
  restrictions : Restrictions := ∅
  now : Moment := 0
  records : List StealRecord := []

/-- Something that happens to a resolver or around it. -/
inductive StealEvent where
  /-- Somebody asks for work. -/
  | request (peer : NodeId) (request : StealRequest)
  /-- Discovery tells about a node. -/
  | discovery (event : DiscoveryEvent)
  /-- A pass over the jobs of the node, as they are at that time. Peers are served in some
  order, and some of them can be reached. -/
  | pass (store : JobStore) (waiting : List JobRef) (active : Nat)
      (order : Arrangement NodeId) (accepts : NodeId → Bool)
  /-- The grid changes. -/
  | change (view : GridView)
  /-- The restrictions of sessions change. -/
  | restrict (restrictions : Restrictions)
  /-- Time passes. -/
  | wait (millis : Nat)

namespace Stealing

/-- What a pass starts from. -/
def busy (stealing : Stealing) (store : JobStore) : Busy where
  received := stealing.resolver.received
  counter := stealing.resolver.counter
  store := store

/-- What a pass looks at. -/
def scene (stealing : Stealing) (order : Arrangement NodeId) : PassScene :=
  stealing.resolver.scene stealing.view stealing.restrictions order stealing.now

/-- Lets something happen, unless a rule about the requests of peers breaks. -/
def perform (stealing : Stealing) : StealEvent → Except Fault Stealing
  | .request peer request =>
      (stealing.resolver.onStealRequest stealing.view stealing.now peer request).map
        fun (noted, resolver) =>
          let entry : StealRecord := .asked peer request.delta.toNat stealing.now
          { stealing with
            resolver
            records := if noted then entry :: stealing.records else stealing.records }
  | .discovery event =>
      (stealing.resolver.onEvent stealing.view.localId event).map fun resolver =>
        { stealing with resolver }
  | .pass store waiting active order accepts =>
      let scene := stealing.scene order
      (Busy.run scene waiting active (stealing.busy store)).map fun _ =>
        let pass := stealing.resolver.collide scene accepts store waiting active
        { stealing with
          resolver := pass.resolver
          records := store.gifts pass.store ++ stealing.records }
  | .change view => .ok { stealing with view }
  | .restrict restrictions => .ok { stealing with restrictions }
  | .wait millis => .ok { stealing with now := stealing.now + millis }

/-- Lets some things happen, one after another. -/
def run (stealing : Stealing) : List StealEvent → Except Fault Stealing
  | [] => .ok stealing
  | event :: later => stealing.perform event >>= fun next => next.run later

/-- What every single event keeps holds after every history. -/
theorem run_keeps {keeps : Stealing → Prop}
    (step : ∀ {before after : Stealing} {event : StealEvent}, keeps before →
      before.perform event = .ok after → keeps after)
    (history : List StealEvent) {start final : Stealing} (holds : keeps start)
    (reached : start.run history = .ok final) : keeps final := by
  induction history generalizing start with
  | nil =>
      cases reached
      exact holds
  | cons event later ih =>
      obtain ⟨next, performed, rest⟩ := Result.bind_eq_ok.1 reached
      exact ih (step holds performed) rest

/-- What discovery reports leaves the noted requests alone, or drops those of one peer. -/
theorem received_of_onEvent {resolver next : Resolver} {localId : NodeId}
    {event : DiscoveryEvent} (noted : resolver.onEvent localId event = .ok next) :
    next.config = resolver.config ∧ (next.received = resolver.received ∨
      next.received = resolver.received.remove event.member.id) := by
  cases Resolver.told_of_onEvent noted with
  | kept silent => exact ⟨rfl, .inl rfl⟩
  | queued remote joined new => exact ⟨rfl, .inl rfl⟩
  | dropped remote departed added => exact ⟨rfl, .inr rfl⟩

/-- A request for work leaves the settings alone. -/
theorem config_of_onStealRequest {resolver : Resolver} {view : GridView} {now : Moment}
    {peer : NodeId} {request : StealRequest} {noted : Bool × Resolver}
    (asked : resolver.onStealRequest view now peer request = .ok noted) :
    noted.2.config = resolver.config := by
  cases Resolver.heard_of_onStealRequest asked with
  | stranger absent => rfl
  | member present added => rfl

/-- The part of a pass that serves peers decides what peers ask for afterwards. -/
theorem collide_of_run {resolver : Resolver} {scene : PassScene} {store : JobStore}
    {waiting : List JobRef} {active : Nat} {busy : Busy} (accepts : NodeId → Bool)
    (ran : Busy.run scene waiting active
      { received := resolver.received, counter := resolver.counter, store } = .ok busy) :
    (resolver.collide scene accepts store waiting active).store = busy.store ∧
      (resolver.collide scene accepts store waiting active).resolver.received = busy.received ∧
      (resolver.collide scene accepts store waiting active).resolver.counter = busy.counter ∧
      (resolver.collide scene accepts store waiting active).resolver.config =
        resolver.config := by
  simp only [Resolver.collide, ran]
  split
  · exact ⟨rfl, rfl, rfl, rfl⟩
  · exact ⟨rfl, rfl, rfl, rfl⟩

/-- A pass in which no rule breaks leaves behind what the part of it leaves that serves
peers. -/
theorem perform_pass {stealing after : Stealing} {store : JobStore} {waiting : List JobRef}
    {active : Nat} {order : Arrangement NodeId} {accepts : NodeId → Bool}
    (performed : stealing.perform (.pass store waiting active order accepts) = .ok after) :
    ∃ busy, Busy.run (stealing.scene order) waiting active (stealing.busy store) = .ok busy ∧
      after.resolver.received = busy.received ∧ after.resolver.counter = busy.counter ∧
      after.resolver.config = stealing.resolver.config ∧ after.view = stealing.view ∧
      after.now = stealing.now ∧
      after.records = store.gifts busy.store ++ stealing.records := by
  obtain ⟨busy, ran, rfl⟩ := Result.map_eq_ok.1 performed
  obtain ⟨kept, received, counter, config⟩ := collide_of_run accepts ran
  exact ⟨busy, ran, received, counter, config, rfl, rfl, by rw [← kept]⟩

end Stealing

/-- A pass leaves the configuration as it is. -/
theorem Resolver.config_collide (resolver : Resolver) (scene : PassScene)
    (accepts : NodeId → Bool) (store : JobStore) (waiting : List JobRef) (active : Nat) :
    (resolver.collide scene accepts store waiting active).resolver.config = resolver.config := by
  cases ran : Busy.run scene waiting active
      { received := resolver.received, counter := resolver.counter, store } with
  | error fault => simp only [collide, ran]
  | ok busy => exact (Stealing.collide_of_run accepts ran).2.2.2

end JobGrid
