import Mathlib.Data.List.Dedup
import JobGrid.Proofs.Steal.Busy
import JobGrid.Proofs.Steal.History

/-!
# Passes that overlap

Passes really proceed in steps: a pass tries to start one job, it decides whether a job may be
given away and notes who asks for work, it comes by one of those that asked, it ends. Between
two steps other passes over the same jobs may proceed, somebody else may start or cancel a job,
peers may ask for work and depart, and requests may run out. What happens to the jobs is written
down.
-/

namespace JobGrid

/-! ## The steps of a pass -/

/-- What a pass that others may interrupt has yet to do. -/
inductive PassStage where
  /-- It looks at jobs, the first of which it tries to start as far as there is room. -/
  | looks (room : Nat) (jobs : List JobRef)
  /-- It offers a job of a session to peers, each of them with the ticket of the request that it
  noted, and looks at other jobs then. -/
  | offers (job : JobRef) (session : SessionId) (peers : List (NodeId × Nat)) (rest : List JobRef)
  /-- A rule broke, and the pass is over without an outcome. -/
  | broken
  deriving DecidableEq

namespace PassStage

/-- The job that a pass offers. -/
def offered? : PassStage → Option JobRef
  | offers job _ _ _ => some job
  | _ => none

/-- Whether a pass has looked at all its jobs. -/
def isOver : PassStage → Bool
  | looks _ [] => true
  | _ => false

end PassStage

namespace Busy

/-- The peers whose requests are noted, in some order, each with the ticket of its request. -/
def asking (busy : Busy) (scene : PassScene) : List (NodeId × Nat) :=
  (scene.order.arrange busy.received.peers.keys).filterMap fun peer =>
    (busy.received.get? peer).map fun entry => (peer, entry.ticket)

/-- Whether the request with a ticket is not the one of its peer any more. -/
def isStale (busy : Busy) (peer : NodeId) (ticket : Nat) : Bool :=
  (busy.received.get? peer).map StealEntry.ticket != some ticket

/-- The next step of a pass that was told of so many jobs. -/
def advance (scene : PassScene) (waiting : Nat) (busy : Busy) :
    PassStage → Except Fault (PassStage × Busy)
  | .looks room [] => .ok (.looks room [], busy)
  | .looks (room + 1) (job :: rest) => .ok (.looks room rest, busy.start job)
  | .looks 0 (job :: rest) =>
      match busy.store.get? job with
      | none => .ok (.looks 0 rest, busy)
      | some handle =>
          if !busy.mayGive scene handle then .ok (.looks 0 rest, busy)
          else if busy.surplus scene waiting ≤ 0 then .ok (.looks 0 [], busy)
          else .ok (.offers job handle.session (busy.asking scene) rest, busy)
  | .offers _ _ [] rest => .ok (.looks 0 rest, busy)
  | .offers job session ((peer, ticket) :: peers) rest =>
      if scene.isRemote peer && busy.isStale peer ticket then
        .ok (.offers job session peers rest, busy)
      else
        match busy.offer scene session peer with
        | .unsuitable => .ok (.offers job session peers rest, busy)
        | .gone => (busy.forget peer).map fun next => (.offers job session peers rest, next)
        | .expired =>
            (busy.expire scene peer).map fun next => (.offers job session peers rest, next)
        | .taker =>
            match busy.store.cancel job with
            | (false, _) => .ok (.looks 0 rest, busy)
            | (true, store) =>
                ({ busy with store }.give scene peer job).map fun next => (.looks 0 rest, next)
  | .broken => .ok (.broken, busy)

end Busy

/-- A pass that began and has not ended yet. -/
structure OpenPass where
  stage : PassStage
  /-- How many jobs it was told of, and how many others were active then. -/
  waiting : Nat
  active : Nat
  activated : Nat := 0
  rejected : Nat := 0

/-- A pass in the midst of the jobs and the requests that it shares with others. -/
def OpenPass.busy (pass : OpenPass) (resolver : Resolver) (store : JobStore) : Busy where
  received := resolver.received
  counter := resolver.counter
  store := store
  activated := pass.activated
  rejected := pass.rejected

/-- The pass after it has come to some stage. -/
def OpenPass.reach (pass : OpenPass) (stage : PassStage) (busy : Busy) : OpenPass :=
  { pass with stage, activated := busy.activated, rejected := busy.rejected }

/-! ## What is written down -/

namespace JobStore

/-- What is noted about the jobs that changed between two moments. -/
def changes {α : Type} (note : JobRef → JobHandle → JobHandle → Option α)
    (earlier later : JobStore) : List α :=
  (List.range earlier.next).filterMap fun ref =>
    match earlier.get? ref, later.get? ref with
    | some before, some after => note ref before after
    | _, _ => none

/-- The jobs that stopped waiting between two moments. -/
def departures : JobStore → JobStore → List JobRef :=
  changes fun ref before after =>
    if before.state = .waiting ∧ after.state ≠ .waiting then some ref else none

/-- The jobs that were started between two moments. -/
def starts : JobStore → JobStore → List JobRef :=
  changes fun ref before after =>
    if before.state ≠ .active ∧ after.state = .active then some ref else none

/-- The jobs whose thief or whose count of attempts changed between two moments. -/
def stamps : JobStore → JobStore → List JobRef :=
  changes fun ref before after =>
    if after.thief = before.thief ∧ after.stealingAttempts = before.stealingAttempts then none
    else some ref

end JobStore

/-- What happened to the jobs that several passes share. -/
structure PassLog where
  /-- The jobs that stopped waiting, as often as they did. -/
  left : List JobRef := []
  /-- The jobs that passes started. -/
  started : List JobRef := []
  /-- The jobs that passes stamped. -/
  stamped : List JobRef := []
  /-- What was taken off the requests of peers in the steps in which jobs were stamped. -/
  served : Nat := 0

/-- The resolver of a node, jobs that are shared, and the passes over them. -/
structure Overlap where
  resolver : Resolver
  store : JobStore
  /-- The passes that began and have not ended yet. -/
  passes : Table Nat OpenPass := ∅
  /-- The outcomes of the passes that ended. -/
  outcomes : List PassOutcome := []
  log : PassLog := {}

/-- Something that happens to a resolver and to the jobs of its node. Each step finds the grid as
it is then. -/
inductive OverlapEvent where
  /-- A pass begins. -/
  | begin (pass : Nat) (waiting : List JobRef) (active : Nat)
  /-- A pass proceeds by one step. -/
  | proceed (pass : Nat) (view : GridView) (restrictions : Restrictions)
      (order : Arrangement NodeId) (now : Moment) (accepts : NodeId → Bool)
  /-- Somebody else tries to start a job. -/
  | activate (job : JobRef)
  /-- Somebody else tries to cancel a job. -/
  | cancel (job : JobRef)
  /-- Somebody asks for work. -/
  | request (view : GridView) (now : Moment) (peer : NodeId) (request : StealRequest)
  /-- Discovery tells about a node. -/
  | discovery (localId : NodeId) (event : DiscoveryEvent)

namespace OverlapEvent

/-- Whether a pass proceeds. -/
def isProceeding : OverlapEvent → Bool
  | proceed .. => true
  | _ => false

/-- The node that asks for work, if this is a request. -/
def requester? : OverlapEvent → Option NodeId
  | request _ _ peer _ => some peer
  | _ => none

/-- The nodes that ask for work in a history, each of them once. -/
def requesters (history : List OverlapEvent) : List NodeId :=
  (history.filterMap requester?).dedup

end OverlapEvent

namespace PassLog

/-- Goes on after something happened. -/
def extend (log : PassLog) (proceeding : Bool) (before after : Overlap) : PassLog :=
  let stamps := before.store.stamps after.store
  { left := log.left ++ before.store.departures after.store
    started := log.started ++ if proceeding then before.store.starts after.store else []
    stamped := log.stamped ++ if proceeding then stamps else []
    served := log.served +
      if stamps = [] then 0 else before.resolver.received.total - after.resolver.received.total }

end PassLog

namespace Overlap

/-- A pass that has looked at all its jobs asks for work if it gave none away, and reports. -/
def finish (overlap : Overlap) (key : Nat) (pass : OpenPass) (scene : PassScene)
    (accepts : NodeId → Bool) : Overlap :=
  let noted := { overlap.resolver with stolen := overlap.resolver.stolen + pass.rejected }
  let outcome : PassOutcome := { activated := pass.activated, rejected := pass.rejected }
  if 0 < pass.rejected ∨ ¬ noted.config.enabled then
    { overlap with
      resolver := noted
      passes := overlap.passes.erase key
      outcomes := overlap.outcomes ++ [outcome] }
  else
    let (asked, idle) := noted.askForWork scene accepts (pass.waiting + pass.active)
    if idle.fault?.isSome then
      { overlap with
        resolver := asked
        passes := overlap.passes.insert key { pass with stage := .broken } }
    else
      { overlap with
        resolver := asked
        passes := overlap.passes.erase key
        outcomes := overlap.outcomes ++ [{ outcome with requested := idle.requested }] }

/-- Where a pass has come, and what it made of the requests and the jobs. -/
def resume (overlap : Overlap) (key : Nat) (pass : OpenPass) (stage : PassStage) (busy : Busy) :
    Overlap :=
  { overlap with
    resolver := { overlap.resolver with received := busy.received, counter := busy.counter }
    store := busy.store
    passes := overlap.passes.insert key (pass.reach stage busy) }

/-- What happens, without what is written down. -/
def act (overlap : Overlap) : OverlapEvent → Except Fault Overlap
  | .begin key waiting active =>
      if overlap.passes.contains key then .ok overlap
      else
        let room := overlap.resolver.config.activeThreshold.toNat - active
        .ok { overlap with
          resolver := { overlap.resolver with waiting := waiting.length, active }
          passes := overlap.passes.insert key
            { stage := .looks room waiting, waiting := waiting.length, active } }
  | .proceed key view restrictions order now accepts =>
      match overlap.passes.get? key with
      | none => .ok overlap
      | some pass =>
          let scene := overlap.resolver.scene view restrictions order now
          if pass.stage.isOver then .ok (overlap.finish key pass scene accepts)
          else
            (Busy.advance scene pass.waiting (pass.busy overlap.resolver overlap.store)
              pass.stage).map fun (stage, busy) => overlap.resume key pass stage busy
  | .activate job => .ok { overlap with store := (overlap.store.activate job).2 }
  | .cancel job => .ok { overlap with store := (overlap.store.cancel job).2 }
  | .request view now peer request =>
      (overlap.resolver.onStealRequest view now peer request).map fun (_, resolver) =>
        { overlap with resolver }
  | .discovery localId event =>
      (overlap.resolver.onEvent localId event).map fun resolver => { overlap with resolver }

/-- Lets something happen and writes down what it does to the jobs. -/
def perform (overlap : Overlap) (event : OverlapEvent) : Except Fault Overlap :=
  (overlap.act event).map fun next =>
    { next with log := overlap.log.extend event.isProceeding overlap next }

/-- Lets some things happen, one after another. -/
def run (overlap : Overlap) : List OverlapEvent → Except Fault Overlap
  | [] => .ok overlap
  | event :: later => overlap.perform event >>= fun next => next.run later

/-- What every single event keeps holds after every history. -/
theorem run_keeps {keeps : Overlap → Prop}
    (step : ∀ {before after : Overlap} {event : OverlapEvent}, keeps before →
      before.perform event = .ok after → keeps after)
    (history : List OverlapEvent) {start final : Overlap} (holds : keeps start)
    (reached : start.run history = .ok final) : keeps final := by
  induction history generalizing start with
  | nil =>
      cases reached
      exact holds
  | cons event later ih =>
      obtain ⟨next, performed, rest⟩ := Result.bind_eq_ok.1 reached
      exact ih (step holds performed) rest

theorem run_append {overlap middle : Overlap} {earlier later : List OverlapEvent}
    (reached : overlap.run earlier = .ok middle) :
    overlap.run (earlier ++ later) = middle.run later := by
  induction earlier generalizing overlap with
  | nil =>
      cases reached
      rfl
  | cons event rest ih =>
      obtain ⟨next, performed, goesOn⟩ := Result.bind_eq_ok.1 reached
      rw [List.cons_append, run, performed, Result.ok_bind]
      exact ih goesOn

end Overlap

/-! ## Passes without interruption -/

namespace Busy

/-- Steps of a pass that nobody interrupts, one after another. -/
inductive Advances (scene : PassScene) (waiting : Nat) (last : PassStage) (after : Busy) :
    PassStage → Busy → Prop where
  | arrived : Advances scene waiting last after last after
  | step {stage next : PassStage} {busy middle : Busy} (going : stage.isOver = false)
      (advanced : busy.advance scene waiting stage = .ok (next, middle))
      (later : Advances scene waiting last after next middle) :
      Advances scene waiting last after stage busy

variable {scene : PassScene} {waiting : Nat} {last : PassStage} {after : Busy}

theorem map_fst_asking (busy : Busy) (scene : PassScene) :
    (busy.asking scene).map Prod.fst = scene.order.arrange busy.received.peers.keys := by
  have general : ∀ peers : List NodeId, (∀ peer ∈ peers, peer ∈ busy.received.peers.keys) →
      (peers.filterMap fun peer =>
        (busy.received.get? peer).map fun entry => (peer, entry.ticket)).map Prod.fst = peers := by
    intro peers
    induction peers with
    | nil => exact fun _ => rfl
    | cons peer rest ih =>
        intro known
        obtain ⟨entry, found⟩ := Table.mem_keys_iff.1 (known peer List.mem_cons_self)
        have noted : busy.received.get? peer = some entry := found
        rw [List.filterMap_cons, noted]
        exact congrArg (peer :: ·) (ih fun other member => known other (.tail peer member))
  exact general _ fun peer member => scene.order.mem_arrange.1 member

/-- The noted requests of the members among some peers are still those that they were. -/
def AllNoted (busy : Busy) (scene : PassScene) (peers : List (NodeId × Nat)) : Prop :=
  ∀ peer ∈ peers, scene.isRemote peer.1 = true → busy.isStale peer.1 peer.2 = false

theorem allNoted_asking (busy : Busy) (scene : PassScene) :
    busy.AllNoted scene (busy.asking scene) := by
  rintro ⟨peer, ticket⟩ member -
  obtain ⟨other, -, noted⟩ := List.mem_filterMap.1 member
  obtain ⟨entry, found, same⟩ := Option.map_eq_some_iff.1 noted
  cases same
  rw [isStale, found, Option.map_some, bne_self_eq_false]

theorem AllNoted.of_get? {busy next : Busy} {peers : List (NodeId × Nat)}
    (noted : busy.AllNoted scene peers)
    (same : ∀ peer, scene.isRemote peer = true →
      (next.received.get? peer).map StealEntry.ticket =
        (busy.received.get? peer).map StealEntry.ticket) : next.AllNoted scene peers := by
  intro peer member remote
  have kept := noted peer member remote
  rwa [isStale, same peer.1 remote]

theorem AllNoted.forget {busy next : Busy} {gone : NodeId} {peers : List (NodeId × Nat)}
    (noted : busy.AllNoted scene peers) (absent : scene.isRemote gone = false)
    (dropped : busy.forget gone = .ok next) : next.AllNoted scene peers := by
  obtain ⟨counter, -, rfl⟩ := Result.map_eq_ok.1 dropped
  refine noted.of_get? fun peer remote => ?_
  have differs : gone ≠ peer := by
    rintro rfl
    rw [absent] at remote
    cases remote
  rw [StealTable.get?_remove, if_neg differs]

theorem AllNoted.expire {busy next : Busy} {late : NodeId} {entry : StealEntry}
    {peers : List (NodeId × Nat)} (noted : busy.AllNoted scene peers)
    (asked : busy.received.get? late = some entry)
    (tookBack : busy.expire scene late = .ok next) : next.AllNoted scene peers := by
  obtain ⟨counter, -, rfl⟩ := Result.map_eq_ok.1 tookBack
  refine noted.of_get? fun peer _ => ?_
  rw [StealTable.get?_reset]
  split
  · rename_i same
    rw [← same, asked]
    rfl
  · rfl

/-- A job is offered to one peer after another. -/
theorem advances_handOver {session : SessionId} {job : JobRef} {rest : List JobRef}
    (peers : List (NodeId × Nat)) {busy middle : Busy} (noted : busy.AllNoted scene peers)
    (handed : handOver scene session job (peers.map Prod.fst) busy = .ok middle)
    (later : Advances scene waiting last after (.looks 0 rest) middle) :
    Advances scene waiting last after (.offers job session peers rest) busy := by
  induction peers generalizing busy with
  | nil =>
      cases handed
      exact .step rfl rfl later
  | cons peer others ih =>
      obtain ⟨peer, ticket⟩ := peer
      have fresh : (scene.isRemote peer && busy.isStale peer ticket) = false := by
        cases remote : scene.isRemote peer with
        | false => rfl
        | true => exact noted (peer, ticket) List.mem_cons_self remote
      have tail : busy.AllNoted scene others := fun other member =>
        noted other (List.mem_cons_of_mem _ member)
      simp only [List.map_cons, handOver] at handed
      cases offered : busy.offer scene session peer with
      | unsuitable =>
          simp only [offered] at handed
          refine .step rfl ?_ (ih tail handed)
          simp only [advance, fresh, Bool.false_eq_true, if_false, offered]
      | gone =>
          simp only [offered] at handed
          obtain ⟨next, dropped, goesOn⟩ := Result.bind_eq_ok.1 handed
          refine .step rfl ?_ (ih (tail.forget (offer_eq_gone_iff.1 offered) dropped) goesOn)
          simp only [advance, fresh, Bool.false_eq_true, if_false, offered, dropped, Except.map]
      | expired =>
          simp only [offered] at handed
          obtain ⟨next, tookBack, goesOn⟩ := Result.bind_eq_ok.1 handed
          obtain ⟨entry, asked, -⟩ := expired_of_offer offered
          refine .step rfl ?_ (ih (tail.expire asked tookBack) goesOn)
          simp only [advance, fresh, Bool.false_eq_true, if_false, offered, tookBack, Except.map]
      | taker =>
          simp only [offered] at handed
          refine .step rfl ?_ later
          cases moved : busy.store.cancel job with
          | mk done store =>
              cases done with
              | false =>
                  simp only [moved] at handed
                  cases handed
                  simp only [advance, fresh, Bool.false_eq_true, if_false, offered, moved]
              | true =>
                  simp only [moved] at handed
                  simp only [advance, fresh, Bool.false_eq_true, if_false, offered, moved, handed,
                    Except.map]

/-- Surplus jobs are given away, one after another. -/
theorem advances_giveAway (jobs : List JobRef) {busy : Busy}
    (gave : giveAway scene waiting jobs busy = .ok after) :
    Advances scene waiting (.looks 0 []) after (.looks 0 jobs) busy := by
  induction jobs generalizing busy with
  | nil =>
      cases gave
      exact .arrived
  | cons job rest ih =>
      simp only [giveAway] at gave
      cases found : busy.store.get? job with
      | none =>
          simp only [found] at gave
          refine .step rfl ?_ (ih gave)
          simp only [advance, found]
      | some handle =>
          simp only [found] at gave
          split at gave
          · rename_i refused
            refine .step rfl ?_ (ih gave)
            simp only [advance, found, refused, if_true]
          · rename_i may
            split at gave
            · rename_i exhausted
              cases gave
              refine .step rfl ?_ .arrived
              simp only [advance, found, may, exhausted, if_true, Bool.false_eq_true, if_false]
            · rename_i surplus
              obtain ⟨middle, handed, goesOn⟩ := Result.bind_eq_ok.1 gave
              rw [← map_fst_asking] at handed
              refine .step rfl ?_
                (advances_handOver _ (busy.allNoted_asking scene) handed (ih goesOn))
              simp only [advance, found, may, surplus, Bool.false_eq_true, if_false]

/-- The first jobs are started as far as there is room, and surplus ones are given away. -/
theorem advances_run (jobs : List JobRef) (room : Nat) {busy : Busy}
    (ran : giveAway scene waiting (jobs.drop room) ((jobs.take room).foldl start busy) =
      .ok after) :
    ∃ left, Advances scene waiting (.looks left []) after (.looks room jobs) busy := by
  induction jobs generalizing room busy with
  | nil =>
      rw [List.drop_nil, List.take_nil] at ran
      cases ran
      exact ⟨room, .arrived⟩
  | cons job rest ih =>
      cases room with
      | zero => exact ⟨0, advances_giveAway (job :: rest) ran⟩
      | succ room =>
          obtain ⟨left, advances⟩ := ih room ran
          exact ⟨left, .step rfl rfl advances⟩

end Busy

namespace Overlap

variable {base overlap : Overlap} {key : Nat} {pass : OpenPass} {stage next : PassStage}
  {busy after : Busy} {view : GridView} {restrictions : Restrictions}
  {order : Arrangement NodeId} {now : Moment} {accepts : NodeId → Bool}

/-- How far a pass has come since some moment while nothing else happened. -/
structure At (base : Overlap) (key : Nat) (pass : OpenPass) (stage : PassStage) (busy : Busy)
    (overlap : Overlap) : Prop where
  resolver : overlap.resolver =
    { base.resolver with received := busy.received, counter := busy.counter }
  store : overlap.store = busy.store
  passes : overlap.passes.get? key = some (pass.reach stage busy)
  outcomes : overlap.outcomes = base.outcomes

theorem At.step (here : base.At key pass stage busy overlap) (accepts : NodeId → Bool)
    (going : stage.isOver = false)
    (advanced : busy.advance (base.resolver.scene view restrictions order now) pass.waiting
      stage = .ok (next, after)) :
    ∃ reached, overlap.perform (.proceed key view restrictions order now accepts) = .ok reached ∧
      base.At key pass next after reached := by
  have scene : overlap.resolver.scene view restrictions order now =
      base.resolver.scene view restrictions order now := by
    rw [here.resolver]
    rfl
  have same : (pass.reach stage busy).busy overlap.resolver overlap.store = busy := by
    rw [here.resolver, here.store]
    rfl
  have acted : overlap.act (.proceed key view restrictions order now accepts) =
      .ok (overlap.resume key (pass.reach stage busy) next after) := by
    have told : (pass.reach stage busy).waiting = pass.waiting := rfl
    have comes : (pass.reach stage busy).stage = stage := rfl
    simp only [act, here.passes, comes, going, told, Bool.false_eq_true, if_false, scene, same,
      advanced, Except.map]
  refine ⟨_, by rw [perform, acted, Except.map], ?_⟩
  refine ⟨?_, rfl, Table.get?_insert_self _ _ _, here.outcomes⟩
  simp only [resume, here.resolver]

theorem At.follow (here : base.At key pass stage busy overlap)
    (advances : Busy.Advances (base.resolver.scene view restrictions order now) pass.waiting
      next after stage busy) :
    ∃ history reached, overlap.run history = .ok reached ∧
      base.At key pass next after reached := by
  induction advances generalizing overlap with
  | arrived => exact ⟨[], overlap, rfl, here⟩
  | step going advanced _ ih =>
      obtain ⟨middle, performed, there⟩ := here.step (fun _ => true) going advanced
      obtain ⟨history, reached, ran, arrived⟩ := ih there
      refine ⟨.proceed key view restrictions order now (fun _ => true) :: history, reached, ?_,
        arrived⟩
      rw [run, performed, Result.ok_bind, ran]

/-- A whole pass over the jobs is one of the histories in which a pass goes through all its
steps. -/
theorem exists_run_of_collide (free : overlap.passes.contains key = false) (view : GridView)
    (restrictions : Restrictions) (order : Arrangement NodeId) (now : Moment)
    (accepts : NodeId → Bool) (waiting : List JobRef) (active : Nat)
    (ran : Busy.run (overlap.resolver.scene view restrictions order now) waiting active
      { received := overlap.resolver.received, counter := overlap.resolver.counter
        store := overlap.store } = .ok after) :
    let pass := overlap.resolver.collide (overlap.resolver.scene view restrictions order now)
      accepts overlap.store waiting active
    ∃ history final, overlap.run history = .ok final ∧ final.resolver = pass.resolver ∧
      final.store = pass.store ∧
      (pass.fault? = none → final.outcomes = overlap.outcomes ++ [pass.outcome]) := by
  let room := overlap.resolver.config.activeThreshold.toNat - active
  let fresh : OpenPass := { stage := .looks room waiting, waiting := waiting.length, active }
  let base : Overlap := { overlap with
    resolver := { overlap.resolver with waiting := waiting.length, active }
    passes := overlap.passes.insert key fresh }
  have begun : overlap.perform (.begin key waiting active) =
      .ok { base with log := overlap.log.extend false overlap base } := by
    simp only [perform, act, free, Bool.false_eq_true, if_false, Except.map]
    rfl
  have here : base.At key fresh (.looks room waiting)
      { received := overlap.resolver.received, counter := overlap.resolver.counter
        store := overlap.store } { base with log := overlap.log.extend false overlap base } :=
    ⟨rfl, rfl, Table.get?_insert_self _ _ _, rfl⟩
  obtain ⟨left, advances⟩ := Busy.advances_run waiting room ran
  obtain ⟨history, reached, went, there⟩ := here.follow advances
  let scene := reached.resolver.scene view restrictions order now
  let last := reached.finish key (fresh.reach (.looks left []) after) scene accepts
  have ended : reached.perform (.proceed key view restrictions order now accepts) =
      .ok { last with log := reached.log.extend true reached last } := by
    have ends : (fresh.reach (.looks left []) after).stage.isOver = true := rfl
    simp only [perform, act, there.passes, ends, if_true, Except.map]
    rfl
  refine ⟨.begin key waiting active :: (history ++ [.proceed key view restrictions order now
    accepts]), { last with log := reached.log.extend true reached last }, ?_, ?_⟩
  · rw [run, begun, Result.ok_bind, run_append went, run, ended]
    rfl
  · have told : scene = overlap.resolver.scene view restrictions order now := by
      simp only [scene, there.resolver]
      rfl
    simp only [last, Overlap.finish, told, there.resolver, there.store, there.outcomes,
      Resolver.collide, ran, OpenPass.reach, fresh, base]
    split
    · exact ⟨rfl, rfl, fun _ => rfl⟩
    · split
      · rename_i broken
        refine ⟨rfl, rfl, fun sound => ?_⟩
        dsimp only at sound
        rw [sound] at broken
        cases broken
      · exact ⟨rfl, rfl, fun _ => rfl⟩

end Overlap

end JobGrid
