import Mathlib.Tactic.SplitIfs
import JobGrid.Proofs.Steal.History
import JobGrid.Proofs.Steal.Request

/-!
# Work on order

There is a bound on the work that a node has on order after a pass. What a peer was asked for
before uses up room once the pass comes by that peer, and not earlier: requests to the peers
ahead of it in the queue are made as if nothing was on order there.
-/

namespace JobGrid

namespace StealEntry

theorem live_le_jobs (entry : StealEntry) (expiry : Nat) (now : Moment) :
    entry.live expiry now ≤ entry.jobs := by
  simp only [live]
  split_ifs
  · exact Nat.zero_le _
  · exact Nat.le_refl _

end StealEntry

namespace StealTable

/-- The jobs that a peer asks for in time. -/
def live (table : StealTable) (expiry : Nat) (now : Moment) (peer : NodeId) : Nat :=
  ((table.get? peer).map fun entry => entry.live expiry now).getD 0

/-- The requests of all peers besides some. -/
def besides (table : StealTable) (peers : List NodeId) : StealTable := peers.foldl remove table

variable (table : StealTable) (expiry : Nat) (now : Moment) (peer other : NodeId) (jobs : Nat)

theorem live_of_get?_eq {next : StealTable} (same : next.get? other = table.get? other) :
    next.live expiry now other = table.live expiry now other := by
  rw [live, live, same]

theorem live_remove :
    (table.remove peer).live expiry now other =
      if peer = other then 0 else table.live expiry now other := by
  rw [live, get?_remove]
  split_ifs
  · rfl
  · rfl

theorem liveTotal_remove :
    (table.remove peer).liveTotal expiry now + table.live expiry now peer =
      table.liveTotal expiry now :=
  Table.sum_values_erase (fun entry : StealEntry => entry.live expiry now) table.peers peer

/-- A new entry asks for nothing. -/
theorem live_ensure :
    (table.ensure now peer).live expiry now other = table.live expiry now other := by
  rw [live, get?_ensure]
  split_ifs with same
  · rw [live, ← same]
    cases table.get? peer <;> simp [StealEntry.live]
  · rfl

theorem liveTotal_ensure :
    (table.ensure now peer).liveTotal expiry now = table.liveTotal expiry now := by
  cases found : table.peers.get? peer with
  | none =>
      have inserted := Table.sum_values_insert
        (fun entry : StealEntry => entry.live expiry now) table.peers peer ⟨0, now, table.issued⟩
      rw [found] at inserted
      simpa [ensure, Table.contains, found, liveTotal, StealEntry.live] using inserted
  | some entry => simp [ensure, Table.contains, found]

theorem live_reset_of_ne (differs : peer ≠ other) :
    (table.reset now peer jobs).live expiry now other = table.live expiry now other := by
  apply live_of_get?_eq
  rw [get?_reset, if_neg differs]

/-- A request counts instead of the earlier one of its peer, unless it runs out at once. -/
theorem liveTotal_reset_le :
    (table.reset now peer jobs).liveTotal expiry now + table.live expiry now peer ≤
      table.liveTotal expiry now + jobs := by
  have ready := table.liveTotal_ensure expiry now peer
  have amount := table.live_ensure expiry now peer peer
  obtain ⟨entry, found⟩ : ∃ entry, (table.ensure now peer).peers.get? peer = some entry := by
    have looked := table.get?_ensure now peer peer
    rw [if_pos rfl] at looked
    exact ⟨_, looked⟩
  have inserted := Table.sum_values_insert (fun entry : StealEntry => entry.live expiry now)
    (table.ensure now peer).peers peer { entry with jobs, since := now }
  have fresh := StealEntry.live_le_jobs { entry with jobs, since := now } expiry now
  rw [live, get?, found] at amount
  rw [found] at inserted
  simp only [liveTotal, reset, Table.modify, found, Option.map_some, Option.getD_some]
    at ready amount inserted fresh ⊢
  omega

end StealTable

namespace Idle

variable {scene : PassScene}

/-- The jobs on order that may still come. -/
def onOrder (idle : Idle) (scene : PassScene) : Nat := idle.sent.liveTotal scene.expiry scene.now

/-- What visits do, one or many: room is used up by what is ordered, and nothing that was on
order is called off. -/
structure Follows (scene : PassScene) (before idle : Idle) : Prop where
  left_le : idle.left ≤ before.left
  live_le : ∀ peer, before.sent.live scene.expiry scene.now peer ≤
    idle.sent.live scene.expiry scene.now peer
  onOrder_le : idle.onOrder scene + idle.left ≤ before.onOrder scene + before.left
  silent : ∃ sent, idle.requests = before.requests ++ sent ∧
    (sent = [] → idle.onOrder scene ≤ before.onOrder scene)

namespace Follows

theorem refl (scene : PassScene) (idle : Idle) : Follows scene idle idle where
  left_le := Nat.le_refl _
  live_le _ := Nat.le_refl _
  onOrder_le := Nat.le_refl _
  silent := ⟨[], by simp, fun _ => Nat.le_refl _⟩

theorem trans {before middle idle : Idle} (first : Follows scene before middle)
    (second : Follows scene middle idle) : Follows scene before idle where
  left_le := Nat.le_trans second.left_le first.left_le
  live_le peer := Nat.le_trans (first.live_le peer) (second.live_le peer)
  onOrder_le := Nat.le_trans second.onOrder_le first.onOrder_le
  silent := by
    obtain ⟨sent, requests, silent⟩ := first.silent
    obtain ⟨more, later, quiet⟩ := second.silent
    refine ⟨sent ++ more, by rw [later, requests, List.append_assoc], ?_⟩
    intro none
    obtain ⟨noneSent, noneMore⟩ := List.append_eq_nil_iff.1 none
    exact Nat.le_trans (quiet noneMore) (silent noneSent)

end Follows

section Ask

variable (idle : Idle) (scene : PassScene) (peer other : NodeId)

/-- Nothing but the entries changes when a request is taken back. -/
theorem refresh_eq :
    idle.refresh scene peer = { idle with sent := (idle.refresh scene peer).sent } := by
  simp only [refresh]
  split
  · split_ifs <;> rfl
  · rfl

@[simp] theorem left_refresh : (idle.refresh scene peer).left = idle.left := by
  rw [refresh_eq]

@[simp] theorem requests_refresh : (idle.refresh scene peer).requests = idle.requests := by
  rw [refresh_eq]

@[simp] theorem kept_refresh : (idle.refresh scene peer).kept = idle.kept := by
  rw [refresh_eq]

@[simp] theorem fault?_refresh : (idle.refresh scene peer).fault? = idle.fault? := by
  rw [refresh_eq]

/-- The entry of a peer whose request was taken back if it had run out. -/
theorem get?_refresh :
    ∃ entry, (idle.sent.ensure scene.now peer).get? peer = some entry ∧
      (idle.refresh scene peer).sent =
        if entry.isExpired scene.expiry scene.now then
          (idle.sent.ensure scene.now peer).reset scene.now peer 0
        else idle.sent.ensure scene.now peer := by
  obtain ⟨entry, found⟩ : ∃ entry, (idle.sent.ensure scene.now peer).get? peer = some entry := by
    have looked := idle.sent.get?_ensure scene.now peer peer
    rw [if_pos rfl] at looked
    exact ⟨_, looked⟩
  refine ⟨entry, found, ?_⟩
  simp only [refresh, found]
  split_ifs <;> rfl

/-- What a peer was asked for too long ago did not count before either. -/
theorem live_refresh :
    (idle.refresh scene peer).sent.live scene.expiry scene.now other =
      idle.sent.live scene.expiry scene.now other := by
  obtain ⟨entry, found, sent⟩ := idle.get?_refresh scene peer
  rw [← idle.sent.live_ensure scene.expiry scene.now peer other, sent]
  split_ifs with expired
  · by_cases same : peer = other
    · subst same
      rw [StealTable.live, StealTable.get?_reset, if_pos rfl, StealTable.live, found]
      simp [StealEntry.live, expired]
    · exact StealTable.live_reset_of_ne _ _ _ _ _ _ same
  · rfl

theorem onOrder_refresh_le : (idle.refresh scene peer).onOrder scene ≤ idle.onOrder scene := by
  obtain ⟨entry, -, sent⟩ := idle.get?_refresh scene peer
  have ready := idle.sent.liveTotal_ensure scene.expiry scene.now peer
  have reset := (idle.sent.ensure scene.now peer).liveTotal_reset_le scene.expiry scene.now peer 0
  simp only [onOrder, sent]
  split_ifs <;> omega

/-- What is left of the earlier request of a peer is what is still on order there. -/
theorem jobs_refresh :
    (idle.refresh scene peer).sent.jobs peer = idle.sent.live scene.expiry scene.now peer := by
  obtain ⟨entry, found, sent⟩ := idle.get?_refresh scene peer
  rw [← idle.sent.live_ensure scene.expiry scene.now peer peer, StealTable.live, found, sent]
  split_ifs with expired
  · simp [StealTable.jobs_reset, StealEntry.live, expired]
  · simp [StealTable.jobs_of_get? found, StealEntry.live, expired]

theorem amount_le (surplus left : Nat) : min (min surplus left) largestRequest ≤ left :=
  Nat.le_trans (Nat.min_le_left _ _) (Nat.min_le_right _ _)

/-- Asking a peer: what is on order there already uses up room, and otherwise what is
ordered. -/
theorem follows_ask (accepts : NodeId → Bool) (surplus : Nat) :
    Follows scene idle (idle.ask scene accepts peer surplus) ∧
      ((idle.ask scene accepts peer surplus).left ≠ 0 →
        (idle.ask scene accepts peer surplus).onOrder scene +
            (idle.ask scene accepts peer surplus).left +
            idle.sent.live scene.expiry scene.now peer ≤
          idle.onOrder scene + idle.left) := by
  have outstanding := idle.jobs_refresh scene peer
  have fewer := idle.onOrder_refresh_le scene peer
  have same := idle.live_refresh scene peer
  simp only [ask, outstanding, left_refresh, requests_refresh]
  split_ifs with ordered accepted
  · refine ⟨⟨Nat.sub_le _ _, fun other => Nat.le_of_eq (same other).symm, ?_, ?_⟩, ?_⟩
    · simp only [onOrder] at fewer ⊢
      omega
    · exact ⟨[], by simp, fun _ => fewer⟩
    · intro some
      simp only [onOrder] at fewer some ⊢
      omega
  · -- Nothing is on order at this peer, so that the request only adds to what is.
    have nothing : (idle.refresh scene peer).sent.live scene.expiry scene.now peer = 0 := by
      rw [same peer]
      omega
    have total := (idle.refresh scene peer).sent.liveTotal_reset_le scene.expiry scene.now peer
      (min (min surplus idle.left) largestRequest)
    have bound := amount_le surplus idle.left
    refine ⟨⟨Nat.sub_le _ _, ?_, ?_, ?_⟩, ?_⟩
    · intro other
      by_cases here : peer = other
      · rw [← here, ← same peer, nothing]
        exact Nat.zero_le _
      · rw [← same other]
        exact Nat.le_of_eq (StealTable.live_reset_of_ne _ _ _ _ _ _ here).symm
    · simp only [onOrder] at fewer ⊢
      omega
    · exact ⟨_, rfl, fun none => absurd none (List.cons_ne_nil _ _)⟩
    · intro _
      simp only [onOrder] at fewer ⊢
      omega
  · refine ⟨⟨Nat.le_of_eq (left_refresh ..), fun other => Nat.le_of_eq (same other).symm, ?_, ?_⟩,
      ?_⟩
    · rw [left_refresh]
      omega
    · exact ⟨[], by simp, fun _ => fewer⟩
    · intro _
      rw [left_refresh]
      omega

end Ask

/-- Whether a pass takes note of what is on order at a peer when it comes by: the peer must be
a member that is to be asked and publishes more jobs than it keeps. -/
def meets (scene : PassScene) (peer : NodeId) : Bool :=
  match scene.view.find? peer with
  | none => false
  | some member =>
      match surplusOf scene.config member with
      | .ok (_ + 1) => true
      | _ => false

section Visit

variable {accepts : NodeId → Bool}

/-- A visit to a member that is not asked for anything changes neither what is on order nor
the room that is left. -/
theorem visitMember_cases (idle : Idle) (scene : PassScene) (accepts : NodeId → Bool)
    {peer : NodeId} {member : Member} (found : scene.view.find? peer = some member) :
    ((idle.visitMember scene accepts member).sent = idle.sent ∧
        (idle.visitMember scene accepts member).left = idle.left ∧
        (idle.visitMember scene accepts member).requests = idle.requests ∧
        ((idle.visitMember scene accepts member).fault?.isSome ∨ meets scene peer = false)) ∨
      ∃ surplus, meets scene peer = true ∧
        idle.visitMember scene accepts member =
          { idle.ask scene accepts peer surplus with
            kept := (idle.ask scene accepts peer surplus).kept ++ [peer] } := by
  have identity : member.id = peer := by simpa using List.find?_some found
  cases surplus : surplusOf scene.config member with
  | error fault =>
      left
      simp [visitMember, surplus]
  | ok amount =>
      cases amount with
      | zero =>
          left
          simp [visitMember, meets, found, surplus]
      | succ less =>
          right
          refine ⟨less + 1, ?_, ?_⟩
          · simp [meets, found, surplus]
          · simp [visitMember, surplus, identity]

/-- Nothing but what is on order, the room and the requests matters for what was done. -/
theorem Follows.congr {before idle next : Idle} (follows : Follows scene before idle)
    (sent : next.sent = idle.sent) (left : next.left = idle.left)
    (requests : next.requests = idle.requests) : Follows scene before next := by
  have onOrder : next.onOrder scene = idle.onOrder scene := by rw [Idle.onOrder, sent]; rfl
  refine ⟨left ▸ follows.left_le, sent ▸ follows.live_le, ?_, ?_⟩
  · rw [onOrder, left]
    exact follows.onOrder_le
  · rw [onOrder, requests]
    exact follows.silent

theorem follows_visitMember (idle : Idle) (scene : PassScene) (accepts : NodeId → Bool)
    {peer : NodeId} {member : Member} (found : scene.view.find? peer = some member) :
    Follows scene idle (idle.visitMember scene accepts member) := by
  rcases visitMember_cases idle scene accepts found with
    ⟨sent, left, requests, -⟩ | ⟨surplus, -, visited⟩
  · exact (Follows.refl scene idle).congr sent left requests
  · rw [visited]
    exact (follows_ask idle scene peer accepts surplus).1.congr rfl rfl rfl

theorem follows_visit (scene : PassScene) (accepts : NodeId → Bool) (peers : List NodeId)
    (idle : Idle) : Follows scene idle (visit scene accepts peers idle).2 := by
  induction peers generalizing idle with
  | nil => exact Follows.refl scene idle
  | cons peer rest ih =>
      simp only [visit]
      split_ifs with full
      · exact Follows.refl scene idle
      · cases found : scene.view.find? peer with
        | none => exact ih idle
        | some member =>
            have visited := follows_visitMember idle scene accepts found
            simp only
            split_ifs with failed
            · exact visited
            · exact visited.trans (ih _)

/-- Only peers that are visited are asked. -/
theorem peer_mem_of_visit (peers : List NodeId) {idle : Idle} {request : SentRequest}
    (asked : request ∈ (visit scene accepts peers idle).2.requests) :
    request ∈ idle.requests ∨ request.peer ∈ peers := by
  induction peers generalizing idle with
  | nil => exact .inl asked
  | cons peer rest ih =>
      simp only [visit] at asked
      split_ifs at asked with full
      · exact .inl asked
      · cases found : scene.view.find? peer with
        | none =>
            simp only [found] at asked
            exact (ih asked).imp_right (List.mem_cons_of_mem peer)
        | some member =>
            have one : ∀ {request : SentRequest},
                request ∈ (idle.visitMember scene accepts member).requests →
                  request ∈ idle.requests ∨ request.peer ∈ peer :: rest := by
              intro request asked
              rcases visitMember_cases idle scene accepts found with
                ⟨-, -, requests, -⟩ | ⟨surplus, -, visited⟩
              · exact .inl (requests ▸ asked)
              · simp only [visited, ask, requests_refresh] at asked
                split_ifs at asked
                · exact .inl asked
                · rcases List.mem_append.1 asked with earlier | new
                  · exact .inl earlier
                  · rw [List.mem_singleton.1 new]
                    exact .inr List.mem_cons_self
                · exact .inl (by simpa using asked)
            simp only [found] at asked
            split_ifs at asked with failed
            · exact one asked
            · rcases ih asked with earlier | later
              · exact one earlier
              · exact .inr (List.mem_cons_of_mem _ later)

/-- A pass goes on to further peers as long as room is left and no rule broke. -/
theorem visit_append (scene : PassScene) (accepts : NodeId → Bool) (earlier rest : List NodeId)
    {idle : Idle} (sound : idle.fault? = none) :
    (visit scene accepts (earlier ++ rest) idle).2 =
      if (visit scene accepts earlier idle).2.left = 0 ∨
          (visit scene accepts earlier idle).2.fault?.isSome then
        (visit scene accepts earlier idle).2
      else (visit scene accepts rest (visit scene accepts earlier idle).2).2 := by
  induction earlier generalizing idle with
  | nil =>
      simp only [List.nil_append, visit, sound, Option.isSome_none, Bool.false_eq_true, or_false]
      split_ifs with full
      · cases rest <;> simp [visit, full]
      · rfl
  | cons peer others ih =>
      simp only [List.cons_append, visit]
      by_cases full : idle.left = 0
      · simp [full]
      · simp only [if_neg full]
        cases found : scene.view.find? peer with
        | none => exact ih sound
        | some member =>
            simp only
            by_cases failed : (idle.visitMember scene accepts member).fault?.isSome
            · simp [failed]
            · rw [if_neg failed, if_neg failed]
              exact ih (by simpa using failed)

/-- As long as a pass goes on, everything on order at the peers that it took note of has used
up room. -/
theorem onOrder_visit_le (peers : List NodeId) {idle : Idle} (table : StealTable) {room : Nat}
    (goesOn : (visit scene accepts peers idle).2.left ≠ 0)
    (sound : ¬ (visit scene accepts peers idle).2.fault?.isSome)
    (covers : ∀ peer, table.live scene.expiry scene.now peer ≤
      idle.sent.live scene.expiry scene.now peer)
    (bound : idle.onOrder scene + idle.left ≤
      room + table.liveTotal scene.expiry scene.now) :
    (visit scene accepts peers idle).2.onOrder scene + (visit scene accepts peers idle).2.left ≤
      room + (table.besides (peers.filter (meets scene))).liveTotal scene.expiry scene.now := by
  induction peers generalizing idle table with
  | nil => exact bound
  | cons peer rest ih =>
      simp only [visit] at goesOn sound ⊢
      by_cases full : idle.left = 0
      · simp [full] at goesOn
      · simp only [if_neg full] at goesOn sound ⊢
        cases found : scene.view.find? peer with
        | none =>
            have passes : meets scene peer = false := by simp [meets, found]
            simp only [found] at goesOn sound ⊢
            rw [List.filter_cons_of_neg (by simp [passes])]
            exact ih table goesOn sound covers bound
        | some member =>
            simp only [found] at goesOn sound ⊢
            by_cases failed : (idle.visitMember scene accepts member).fault?.isSome
            · simp [failed] at sound
            · rw [if_neg failed] at goesOn sound ⊢
              have grows := (follows_visitMember idle scene accepts found).live_le
              rcases visitMember_cases idle scene accepts found with
                ⟨sent, left, -, refused⟩ | ⟨surplus, met, visited⟩
              · rw [List.filter_cons_of_neg (by simp [refused.resolve_left failed])]
                apply ih table goesOn sound
                · exact fun other => Nat.le_trans (covers other) (grows other)
                · rw [onOrder, sent, left]
                  exact bound
              · -- The table without this peer is smaller by what is on order there at most.
                have some : (idle.ask scene accepts peer surplus).left ≠ 0 := by
                  intro none
                  apply goesOn
                  apply Nat.le_zero.1
                  have less := (follows_visit scene accepts rest
                    (idle.visitMember scene accepts member)).left_le
                  rw [visited] at less ⊢
                  exact none ▸ less
                have paid := (follows_ask idle scene peer accepts surplus).2 some
                have smaller := table.liveTotal_remove scene.expiry scene.now peer
                have known := covers peer
                rw [List.filter_cons_of_pos met]
                apply ih (table.remove peer) goesOn sound
                · intro other
                  rw [StealTable.live_remove]
                  split_ifs
                  · exact Nat.zero_le _
                  · exact Nat.le_trans (covers other) (grows other)
                · rw [visited]
                  simp only [onOrder] at paid bound ⊢
                  omega

end Visit

end Idle

namespace Resolver

/-- Asking for work orders no more than there is room for, besides what is on order at peers
that the pass did not take note of before it sent its last request. -/
theorem onOrder_askForWork_le (resolver : Resolver) (scene : PassScene)
    (accepts : NodeId → Bool) (held : Nat) {earlier rest : List NodeId}
    (queue : resolver.queue = earlier ++ rest)
    (last : ∀ request ∈ (resolver.askForWork scene accepts held).2.requests.getLast?,
      request.peer ∉ earlier) :
    (resolver.askForWork scene accepts held).1.sent.liveTotal scene.expiry scene.now ≤
      max (resolver.sent.liveTotal scene.expiry scene.now)
        (Idle.room resolver.config held +
          (resolver.sent.besides (earlier.filter (Idle.meets scene))).liveTotal scene.expiry
            scene.now) := by
  let start : Idle := { sent := resolver.sent, left := Idle.room resolver.config held }
  have whole : Idle.Follows scene start (Idle.visit scene accepts resolver.queue start).2 :=
    Idle.follows_visit scene accepts _ _
  change (Idle.visit scene accepts resolver.queue start).2.onOrder scene ≤ _
  change ∀ request ∈ (Idle.visit scene accepts resolver.queue start).2.requests.getLast?, _ at last
  obtain ⟨sent, requests, silent⟩ := whole.silent
  cases sent with
  | nil => exact Nat.le_trans (silent rfl) (Nat.le_max_left _ _)
  | cons first more =>
      apply Nat.le_trans _ (Nat.le_max_right _ _)
      rw [requests, List.nil_append, List.getLast?_eq_some_getLast (List.cons_ne_nil _ _)] at last
      have outside := last _ rfl
      have asked := List.getLast_mem (List.cons_ne_nil first more)
      have unfold : (Idle.visit scene accepts (earlier ++ rest) start).2 = _ :=
        Idle.visit_append scene accepts earlier rest rfl
      rw [← queue] at unfold
      split_ifs at unfold with stopped
      · -- Only earlier peers were asked, the last one included.
        have there : (first :: more).getLast (List.cons_ne_nil _ _) ∈
            (Idle.visit scene accepts earlier start).2.requests := by
          rw [← unfold, requests]
          exact asked
        rcases Idle.peer_mem_of_visit earlier there with none | early
        · cases none
        · exact absurd early outside
      · rw [not_or] at stopped
        have begun : start.onOrder scene + start.left ≤
            Idle.room resolver.config held + start.onOrder scene :=
          Nat.le_of_eq (Nat.add_comm _ _)
        have used := Idle.onOrder_visit_le earlier resolver.sent stopped.1 stopped.2
          (fun peer => Nat.le_refl _) begun
        have later := (Idle.follows_visit scene accepts rest
          (Idle.visit scene accepts earlier start).2).onOrder_le
        rw [unfold]
        omega

/-- After any pass, a node has no more jobs on order than before, or than there is room for
besides the jobs on order at peers that the pass did not take note of before it sent its last
request. -/
theorem onOrder_collide_le (resolver : Resolver) (view : GridView)
    (restrictions : Restrictions) (order : Arrangement NodeId) (now : Moment)
    (accepts : NodeId → Bool) (store : JobStore) (waiting : List JobRef) (active : Nat)
    {pass : Pass}
    (passes : pass = resolver.collide (resolver.scene view restrictions order now) accepts store
      waiting active)
    {earlier rest : List NodeId} (queue : resolver.queue = earlier ++ rest)
    (last : ∀ request ∈ pass.requests.getLast?, request.peer ∉ earlier) :
    pass.resolver.sent.liveTotal resolver.expiry now ≤
      max (resolver.sent.liveTotal resolver.expiry now)
        (resolver.config.waitThreshold.toNat + resolver.config.activeThreshold.toNat -
            (waiting.length + active) +
          (resolver.sent.besides (earlier.filter
            (Idle.meets (resolver.scene view restrictions order now)))).liveTotal
              resolver.expiry now) := by
  subst passes
  cases ran : Busy.run (resolver.scene view restrictions order now) waiting active
      { received := resolver.received, counter := resolver.counter, store } with
  | error fault =>
      simp only [collide, ran]
      exact Nat.le_max_left _ _
  | ok busy =>
      simp only [collide, ran] at last ⊢
      split_ifs at last ⊢ with refuses
      · exact Nat.le_max_left _ _
      · exact onOrder_askForWork_le
          { resolver with
            waiting := waiting.length
            active
            received := busy.received
            counter := busy.counter
            stolen := resolver.stolen + busy.rejected }
          (resolver.scene view restrictions order now) accepts (waiting.length + active) queue last

/-- A node with room for ten jobs has four on order at the first of two members and orders only
six from the second one. -/
theorem onOrder_collide_le_of_first :
    let busyMember (number : Nat) (jobs : UInt32) : Member :=
      { id := .ofNat number
        attributes := ⟨[(AttributeName.waitThreshold, .int 0)], by simp⟩
        metrics := { currentWaitingJobs := jobs } }
    let view : GridView := ⟨.ofNat 0, none, [busyMember 1 4, busyMember 2 8]⟩
    let noted : StealTable := ⟨⟨[(.ofNat 1, ⟨4, 0, 0⟩)], by simp⟩, 1⟩
    let resolver : Resolver :=
      { config := { activeThreshold := 10 }, sent := noted, queue := [.ofNat 1, .ofNat 2] }
    let scene := resolver.scene view ∅ default 5
    let pass := resolver.collide scene (fun _ => true) ∅ [] 0
    pass.outcome.requested = 6 ∧
      (∀ request ∈ pass.requests.getLast?, request.peer ∉ ([.ofNat 1] : List NodeId)) ∧
      pass.resolver.sent.liveTotal resolver.expiry 5 ≤
        max (resolver.sent.liveTotal resolver.expiry 5)
          (resolver.config.waitThreshold.toNat + resolver.config.activeThreshold.toNat - (0 + 0) +
            (resolver.sent.besides (([.ofNat 1] : List NodeId).filter
              (Idle.meets scene))).liveTotal resolver.expiry 5) := by
  intro busyMember view noted resolver scene pass
  have others : ∀ request ∈ pass.requests.getLast?, request.peer ∉ [.ofNat 1] := by decide
  have queue : resolver.queue = [.ofNat 1] ++ [.ofNat 2] := rfl
  have passes : pass = resolver.collide scene (fun _ => true) ∅ [] 0 := rfl
  refine ⟨by decide, others, ?_⟩
  exact onOrder_collide_le resolver view ∅ default 5 (fun _ => true) ∅ [] 0 passes queue others

/-- The queue turns between two passes. Ten jobs are ordered from the first of two members, and
then the pass comes by the second one first, so that five more are on order than there is room
for. -/
theorem onOrder_exceeds_room :
    let busyMember (number : Nat) (jobs : UInt32) : Member :=
      { id := .ofNat number
        attributes := ⟨[(AttributeName.waitThreshold, .int 0)], by simp⟩
        metrics := { currentWaitingJobs := jobs } }
    let view : GridView := ⟨.ofNat 0, none, [busyMember 1 10, busyMember 2 5]⟩
    let config : StealingConfig := { activeThreshold := 10 }
    let resolver : Resolver := { config, queue := [.ofNat 1, .ofNat 2] }
    Resolver.start config view = .ok resolver ∧
      ∃ before, ({ resolver, view } : Stealing).run [.pass ∅ [] 0 default fun _ => true] =
          .ok before ∧
        let pass := before.resolver.collide (before.scene default) (fun _ => true) ∅ [] 0
        ¬ pass.resolver.sent.liveTotal config.requestExpiry.toNat before.now ≤
          max (before.resolver.sent.liveTotal config.requestExpiry.toNat before.now)
            (config.waitThreshold.toNat + config.activeThreshold.toNat - (0 + 0)) := by
  intro busyMember view config resolver
  exact ⟨rfl, _, rfl, by decide⟩

end Resolver

end JobGrid
