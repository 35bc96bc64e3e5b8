import JobGrid.Proofs.Steal.Queue
import JobGrid.Proofs.Steal.Thresholds

/-!
# The messages of a pass

This module shows which messages a pass that asks for work sends, whether they arrive or not, and
that its books agree about them: what it writes down for each peer, what it says that it asked for,
and what it counts. A message that does not arrive leaves no trace but an entry for no jobs.
-/

namespace JobGrid

namespace StealTable

variable {table : StealTable} {expiry : Nat} {now : Moment} {peer other : NodeId}
  {entry : StealEntry}

theorem live_of_get? (found : table.get? peer = some entry) :
    table.live expiry now peer = entry.live expiry now := by
  rw [live, found, Option.map_some, Option.getD_some]

/-- Where jobs may still come from a peer, there is an entry that has not run out. -/
theorem live_pos_iff :
    0 < table.live expiry now peer ↔ ∃ entry, table.get? peer = some entry ∧ 0 < entry.jobs ∧
      entry.isExpired expiry now = false := by
  cases found : table.get? peer with
  | none => simp [live, found]
  | some entry =>
      rw [live_of_get? found, StealEntry.live]
      cases ranOut : entry.isExpired expiry now <;> simp [ranOut]

/-- A request is valid when it is made. -/
theorem live_reset (valid : 0 < expiry) (jobs : Nat) :
    (table.reset now peer jobs).live expiry now other =
      if peer = other then jobs else table.live expiry now other := by
  split_ifs with same
  · have found := table.get?_reset now peer other jobs
    rw [if_pos same] at found
    have young : ¬ expiry ≤ 0 := Nat.not_le_of_lt valid
    simp [live_of_get? found, StealEntry.live, StealEntry.isExpired, StealEntry.age, Moment.since,
      young]
  · exact live_reset_of_ne _ _ _ _ _ _ same

theorem jobs?_reset (jobs : Nat) :
    (table.reset now peer jobs).jobs? other =
      if peer = other then some jobs else table.jobs? other := by
  rw [jobs?, get?_reset]
  split_ifs
  · rfl
  · rfl

end StealTable

namespace Idle

/-! ## What is sent -/

/-- The message that a visit to a member sends, if it sends one: it asks for surplus jobs if
nothing is on order at the member. -/
def message? (idle : Idle) (scene : PassScene) (member : Member) : Option SentRequest :=
  match surplusOf scene.config member with
  | .ok (less + 1) =>
      if 0 < (idle.refresh scene member.id).sent.jobs member.id then none
      else some ⟨member.id, UInt32.ofNat (min (min (less + 1) idle.left) largestRequest)⟩
  | _ => none

/-- The messages that are sent while some peers are visited in turn, whether they arrive or
not. -/
def messages (scene : PassScene) (accepts : NodeId → Bool) : List NodeId → Idle → List SentRequest
  | [], _ => []
  | peer :: rest, idle =>
      if idle.left = 0 then []
      else
        match scene.view.find? peer with
        | none => messages scene accepts rest idle
        | some member =>
            let visited := idle.visitMember scene accepts member
            (idle.message? scene member).toList ++
              if visited.fault?.isSome then [] else messages scene accepts rest visited

section Refresh

variable (idle : Idle) (scene : PassScene) {peer other : NodeId}

theorem get?_refresh_of_ne (differs : peer ≠ other) :
    (idle.refresh scene peer).sent.get? other = idle.sent.get? other := by
  obtain ⟨entry, -, sent⟩ := idle.get?_refresh scene peer
  rw [sent]
  split_ifs
  · rw [StealTable.get?_reset, if_neg differs, StealTable.get?_ensure, if_neg differs]
  · rw [StealTable.get?_ensure, if_neg differs]

/-- What is on order stays on order. -/
theorem get?_refresh_of_live (ordered : 0 < idle.sent.live scene.expiry scene.now other) :
    (idle.refresh scene peer).sent.get? other = idle.sent.get? other := by
  by_cases same : peer = other
  · subst same
    obtain ⟨entry, found, asks, inTime⟩ := StealTable.live_pos_iff.1 ordered
    have ready := idle.sent.get?_ensure scene.now peer peer
    rw [if_pos rfl, found, Option.getD_some] at ready
    obtain ⟨known, there, sent⟩ := idle.get?_refresh scene peer
    rw [ready, Option.some.injEq] at there
    subst there
    rw [sent, inTime, if_neg Bool.false_ne_true, ready, found]
  · exact idle.get?_refresh_of_ne scene same

/-- The entry of the peer says what is on order. -/
theorem jobs?_refresh :
    (idle.refresh scene peer).sent.jobs? peer =
      some (idle.sent.live scene.expiry scene.now peer) := by
  obtain ⟨entry, found, sent⟩ := idle.get?_refresh scene peer
  rw [← idle.sent.live_ensure scene.expiry scene.now peer peer, StealTable.live_of_get? found,
    StealEntry.live, sent]
  split_ifs
  · rw [StealTable.jobs?_reset, if_pos rfl]
  · rw [StealTable.jobs?, found, Option.map_some]

end Refresh

section Ask

variable {idle : Idle} {scene : PassScene} {accepts : NodeId → Bool} {peer : NodeId}
  {surplus : Nat}

theorem ask_of_ordered (ordered : 0 < idle.sent.live scene.expiry scene.now peer) :
    idle.ask scene accepts peer surplus =
      { idle.refresh scene peer with
        left := idle.left - idle.sent.live scene.expiry scene.now peer } := by
  simp only [ask, jobs_refresh, if_pos ordered, left_refresh]

theorem ask_of_accepted (none : idle.sent.live scene.expiry scene.now peer = 0)
    (arrives : accepts peer = true) :
    idle.ask scene accepts peer surplus =
      { idle.refresh scene peer with
        sent := (idle.refresh scene peer).sent.reset scene.now peer
          (min (min surplus idle.left) largestRequest)
        left := idle.left - min (min surplus idle.left) largestRequest
        requests := idle.requests ++
          [⟨peer, UInt32.ofNat (min (min surplus idle.left) largestRequest)⟩] } := by
  simp only [ask, jobs_refresh, none, Nat.lt_irrefl, if_false, arrives, if_true, left_refresh,
    requests_refresh]

theorem ask_of_lost (none : idle.sent.live scene.expiry scene.now peer = 0)
    (lost : accepts peer = false) :
    idle.ask scene accepts peer surplus = idle.refresh scene peer := by
  simp only [ask, jobs_refresh, none, Nat.lt_irrefl, if_false, lost, Bool.false_eq_true]

end Ask

end Idle

/-- A message that a pass may send: it asks a member that is to be asked for some of the jobs that
wait there beyond those that the member says it keeps. -/
def PassScene.MaySend (scene : PassScene) (message : SentRequest) : Prop :=
  ∃ member threshold, scene.view.find? message.peer = some member ∧
    scene.config.peerFilter.admits member = true ∧
    (member.attribute? AttributeName.waitThreshold).bind Attribute.int? = some threshold ∧
    1 ≤ message.jobs.toNat ∧
    (message.jobs.toNat : Int) ≤ member.metrics.currentWaitingJobs.toNat - threshold.toInt

namespace Idle

variable {scene : PassScene} {accepts : NodeId → Bool} {before middle idle : Idle}

/-- Only a member that is to be asked and publishes how many jobs it keeps has surplus ones. -/
theorem surplusOf_eq_succ {config : StealingConfig} {member : Member} {less : Nat}
    (measured : surplusOf config member = .ok (less + 1)) :
    config.peerFilter.admits member = true ∧ ∃ threshold,
      (member.attribute? AttributeName.waitThreshold).bind Attribute.int? = some threshold ∧
        ((less + 1 : Nat) : Int) = member.metrics.currentWaitingJobs.toNat - threshold.toInt := by
  simp only [surplusOf] at measured
  split_ifs at measured with admitted
  · refine ⟨admitted, ?_⟩
    split at measured
    · cases measured
    · rename_i threshold published
      split_ifs at measured
      refine ⟨threshold, published, ?_⟩
      have amount := Except.ok.inj measured
      omega
  · cases measured

/-- What a message asks for is what is taken off the room. -/
theorem toNat_amount (surplus left : Nat) :
    (UInt32.ofNat (min (min surplus left) largestRequest)).toNat =
      min (min surplus left) largestRequest := by
  apply UInt32.toNat_ofNat_of_lt'
  exact Nat.lt_succ_of_le (Nat.min_le_right _ _)

/-- What visits did that sent some messages. A message that arrives is a request and is written
down. One that is lost leaves an entry for no jobs. Peers at which something is on order get none,
and their entries stay. -/
structure Sends (scene : PassScene) (accepts : NodeId → Bool) (before : Idle)
    (messages : List SentRequest) (idle : Idle) : Prop where
  requests : idle.requests =
    before.requests ++ messages.filter fun message => accepts message.peer
  spent : idle.requested + idle.left ≤ before.requested + before.left
  may : ∀ message ∈ messages, scene.MaySend message ∧ meets scene message.peer = true
  kept : ∀ peer, 0 < before.sent.live scene.expiry scene.now peer →
    (∀ message ∈ messages, message.peer ≠ peer) ∧ idle.sent.get? peer = before.sent.get? peer
  noted : ∀ message ∈ messages, accepts message.peer = true →
    idle.sent.jobs? message.peer = some message.jobs.toNat ∧
      idle.sent.live scene.expiry scene.now message.peer = message.jobs.toNat
  lost : ∀ message ∈ messages, accepts message.peer = false →
    idle.sent.jobs? message.peer = some 0
  unreached : ∀ peer, accepts peer = false → before.sent.jobs? peer = some 0 →
    idle.sent.jobs? peer = some 0
  once : ((messages.filter fun message => accepts message.peer).map SentRequest.peer).Nodup

namespace Sends

variable {messages more : List SentRequest}

theorem refl (scene : PassScene) (accepts : NodeId → Bool) (idle : Idle) :
    Sends scene accepts idle [] idle where
  requests := (List.append_nil _).symm
  spent := Nat.le_refl _
  may _ member := nomatch member
  kept _ _ := ⟨(fun _ member => nomatch member), rfl⟩
  noted _ member := nomatch member
  lost _ member := nomatch member
  unreached _ _ none := none
  once := List.nodup_nil

theorem congr {next : Idle} (sends : Sends scene accepts before messages idle)
    (sent : next.sent = idle.sent) (left : next.left = idle.left)
    (requests : next.requests = idle.requests) : Sends scene accepts before messages next where
  requests := requests.trans sends.requests
  spent := by
    rw [requested, requests, left]
    exact sends.spent
  may := sends.may
  kept := by
    rw [sent]
    exact sends.kept
  noted := by
    rw [sent]
    exact sends.noted
  lost := by
    rw [sent]
    exact sends.lost
  unreached := by
    rw [sent]
    exact sends.unreached
  once := sends.once

/-- A peer that got a message is not sent another one. -/
theorem ne_of_noted (first : Sends scene accepts before messages middle)
    (second : Sends scene accepts middle more idle) {message other : SentRequest}
    (member : message ∈ messages) (arrives : accepts message.peer = true) (later : other ∈ more) :
    other.peer ≠ message.peer := by
  obtain ⟨-, live⟩ := first.noted message member arrives
  obtain ⟨⟨-, -, -, -, -, positive, -⟩, -⟩ := first.may message member
  exact (second.kept message.peer (by omega)).1 other later

theorem trans (first : Sends scene accepts before messages middle)
    (second : Sends scene accepts middle more idle) :
    Sends scene accepts before (messages ++ more) idle where
  requests := by
    rw [second.requests, first.requests, List.filter_append, List.append_assoc]
  spent := Nat.le_trans second.spent first.spent
  may message member := (List.mem_append.1 member).elim (first.may message) (second.may message)
  kept peer ordered := by
    obtain ⟨others, same⟩ := first.kept peer ordered
    -- The entry did not change, so that the later visits find the same on order.
    have still : 0 < middle.sent.live scene.expiry scene.now peer := by
      rwa [StealTable.live_of_get?_eq _ _ _ _ same]
    obtain ⟨later, stays⟩ := second.kept peer still
    refine ⟨?_, stays.trans same⟩
    intro message member
    exact (List.mem_append.1 member).elim (others message) (later message)
  noted message member arrives := by
    rcases List.mem_append.1 member with earlier | later
    · obtain ⟨jobs, live⟩ := first.noted message earlier arrives
      obtain ⟨⟨-, -, -, -, -, positive, -⟩, -⟩ := first.may message earlier
      obtain ⟨-, stays⟩ := second.kept message.peer (by omega)
      rw [StealTable.jobs?, stays, StealTable.live_of_get?_eq _ _ _ _ stays]
      exact ⟨jobs, live⟩
    · exact second.noted message later arrives
  lost message member lost := by
    rcases List.mem_append.1 member with earlier | later
    · exact second.unreached message.peer lost (first.lost message earlier lost)
    · exact second.lost message later lost
  unreached peer lost none := second.unreached peer lost (first.unreached peer lost none)
  once := by
    rw [List.filter_append, List.map_append, List.nodup_append]
    refine ⟨first.once, second.once, ?_⟩
    intro peer earlier other later
    obtain ⟨message, one, rfl⟩ := List.mem_map.1 earlier
    obtain ⟨following, two, rfl⟩ := List.mem_map.1 later
    obtain ⟨member, arrives⟩ := List.mem_filter.1 one
    exact (first.ne_of_noted second member arrives (List.mem_filter.1 two).1).symm

/-- Where something is on order, room is used up and nothing is sent. -/
theorem ask_ordered {peer : NodeId} (surplus : Nat)
    (ordered : 0 < idle.sent.live scene.expiry scene.now peer) :
    Sends scene accepts idle [] (idle.ask scene accepts peer surplus) where
  requests := by rw [ask_of_ordered ordered, requests_refresh, List.filter_nil, List.append_nil]
  spent := requested_ask_le ..
  may _ member := nomatch member
  kept other there := by
    rw [ask_of_ordered ordered]
    exact ⟨(fun _ member => nomatch member), idle.get?_refresh_of_live scene there⟩
  noted _ member := nomatch member
  lost _ member := nomatch member
  unreached other lost none := by
    rw [ask_of_ordered ordered]
    by_cases same : peer = other
    · subst same
      rw [StealTable.jobs?, idle.get?_refresh_of_live scene ordered]
      exact none
    · rw [StealTable.jobs?, idle.get?_refresh_of_ne scene same]
      exact none
  once := List.nodup_nil

/-- A message that arrives. -/
theorem ask_accepted (valid : 0 < scene.expiry) {peer : NodeId} {surplus : Nat}
    (none : idle.sent.live scene.expiry scene.now peer = 0) (arrives : accepts peer = true)
    (may : scene.MaySend
      ⟨peer, UInt32.ofNat (min (min surplus idle.left) largestRequest)⟩)
    (meets : meets scene peer = true) :
    Sends scene accepts idle [⟨peer, UInt32.ofNat (min (min surplus idle.left) largestRequest)⟩]
      (idle.ask scene accepts peer surplus) where
  requests := by simp [ask_of_accepted none arrives, arrives]
  spent := requested_ask_le idle scene accepts peer surplus
  may message member := by
    rw [List.mem_singleton.1 member]
    exact ⟨may, meets⟩
  kept other there := by
    have differs : peer ≠ other := by
      rintro rfl
      omega
    rw [ask_of_accepted none arrives]
    refine ⟨?_, ?_⟩
    · intro message member
      rw [List.mem_singleton.1 member]
      exact differs
    · rw [StealTable.get?_reset, if_neg differs, idle.get?_refresh_of_ne scene differs]
  noted message member _ := by
    rw [List.mem_singleton.1 member, ask_of_accepted none arrives, toNat_amount,
      StealTable.jobs?_reset, if_pos rfl, StealTable.live_reset valid, if_pos rfl]
    exact ⟨rfl, rfl⟩
  lost message member lost := by
    rw [List.mem_singleton.1 member, arrives] at lost
    cases lost
  unreached other lost nothing := by
    have differs : peer ≠ other := by
      rintro rfl
      rw [arrives] at lost
      cases lost
    rw [ask_of_accepted none arrives, StealTable.jobs?_reset, if_neg differs, StealTable.jobs?,
      idle.get?_refresh_of_ne scene differs]
    exact nothing
  once := by simp [arrives]

/-- A message that is lost. -/
theorem ask_lost {peer : NodeId} {surplus : Nat}
    (none : idle.sent.live scene.expiry scene.now peer = 0) (lost : accepts peer = false)
    (may : scene.MaySend
      ⟨peer, UInt32.ofNat (min (min surplus idle.left) largestRequest)⟩)
    (meets : meets scene peer = true) :
    Sends scene accepts idle [⟨peer, UInt32.ofNat (min (min surplus idle.left) largestRequest)⟩]
      (idle.ask scene accepts peer surplus) where
  requests := by simp [ask_of_lost none lost, lost]
  spent := requested_ask_le idle scene accepts peer surplus
  may message member := by
    rw [List.mem_singleton.1 member]
    exact ⟨may, meets⟩
  kept other there := by
    have differs : peer ≠ other := by
      rintro rfl
      omega
    rw [ask_of_lost none lost]
    refine ⟨?_, idle.get?_refresh_of_live scene there⟩
    intro message member
    rw [List.mem_singleton.1 member]
    exact differs
  noted message member arrives := by
    rw [List.mem_singleton.1 member, lost] at arrives
    cases arrives
  lost message member _ := by
    rw [List.mem_singleton.1 member, ask_of_lost none lost, jobs?_refresh, none]
  unreached other _ nothing := by
    rw [ask_of_lost none lost]
    by_cases same : peer = other
    · subst same
      rw [jobs?_refresh, none]
    · rw [StealTable.jobs?, idle.get?_refresh_of_ne scene same]
      exact nothing
  once := by simp [lost]

/-- A visit sends the message that it is said to send. -/
theorem visitMember (valid : 0 < scene.expiry) {peer : NodeId} {member : Member}
    (found : scene.view.find? peer = some member) (room : idle.left ≠ 0) :
    Sends scene accepts idle (idle.message? scene member).toList
      (idle.visitMember scene accepts member) := by
  have identity : member.id = peer := by simpa using List.find?_some found
  cases measured : surplusOf scene.config member with
  | error fault =>
      simp only [message?, Idle.visitMember, measured, Option.toList_none]
      exact (refl scene accepts idle).congr rfl rfl rfl
  | ok amount =>
      cases amount with
      | zero =>
          simp only [message?, Idle.visitMember, measured, Option.toList_none]
          exact (refl scene accepts idle).congr rfl rfl rfl
      | succ less =>
          simp only [message?, Idle.visitMember, measured, jobs_refresh, identity]
          split_ifs with ordered
          · exact (ask_ordered (less + 1) ordered).congr rfl rfl rfl
          · have none : idle.sent.live scene.expiry scene.now peer = 0 := by omega
            have meets : Idle.meets scene peer = true := by simp [Idle.meets, found, measured]
            obtain ⟨admitted, threshold, published, surplus⟩ := surplusOf_eq_succ measured
            have may : scene.MaySend
                ⟨peer, UInt32.ofNat (min (min (less + 1) idle.left) largestRequest)⟩ := by
              refine ⟨member, threshold, found, admitted, published, ?_, ?_⟩
              · rw [toNat_amount, largestRequest]
                omega
              · rw [toNat_amount]
                omega
            rw [Option.toList_some]
            cases arrives : accepts peer with
            | true => exact (ask_accepted valid none arrives may meets).congr rfl rfl rfl
            | false => exact (ask_lost none arrives may meets).congr rfl rfl rfl

/-- Visits send the messages that they are said to send. -/
theorem visit (valid : 0 < scene.expiry) (peers : List NodeId) (idle : Idle) :
    Sends scene accepts idle (Idle.messages scene accepts peers idle)
      (Idle.visit scene accepts peers idle).2 := by
  induction peers generalizing idle with
  | nil => exact refl scene accepts idle
  | cons peer rest ih =>
      simp only [Idle.messages, Idle.visit]
      split_ifs with full
      · exact refl scene accepts idle
      · cases found : scene.view.find? peer with
        | none => exact ih idle
        | some member =>
            have first : Sends scene accepts idle _ _ := .visitMember valid found full
            simp only
            split_ifs with failed
            · rwa [List.append_nil]
            · exact first.trans (ih _)

end Sends

theorem peer_of_message? {member : Member} {message : SentRequest}
    (sent : idle.message? scene member = some message) : message.peer = member.id := by
  simp only [message?] at sent
  split at sent
  · split_ifs at sent
    cases sent
    rfl
  · cases sent

/-- Messages go to visited peers, in the order in which they are visited. -/
theorem sublist_messages (scene : PassScene) (accepts : NodeId → Bool) (peers : List NodeId)
    (idle : Idle) : ((messages scene accepts peers idle).map SentRequest.peer).Sublist
      (visited scene accepts peers idle) := by
  induction peers generalizing idle with
  | nil => exact List.Sublist.refl _
  | cons peer rest ih =>
      simp only [messages, visited]
      split_ifs with full
      · exact List.Sublist.refl _
      · cases found : scene.view.find? peer with
        | none => exact (ih idle).cons peer
        | some member =>
            have identity : member.id = peer := by simpa using List.find?_some found
            have later : ((if (idle.visitMember scene accepts member).fault?.isSome then []
                else messages scene accepts rest (idle.visitMember scene accepts member)).map
                  SentRequest.peer).Sublist
                (if (idle.visitMember scene accepts member).fault?.isSome then []
                else visited scene accepts rest (idle.visitMember scene accepts member)) := by
              split_ifs
              · exact List.Sublist.refl _
              · exact ih _
            rw [List.map_append]
            cases sent : idle.message? scene member with
            | none => exact later.cons peer
            | some message =>
                have same : message.peer = peer := (peer_of_message? sent).trans identity
                rw [Option.toList_some, List.map_cons, same]
                exact later.cons_cons peer

/-! ## Messages that are lost -/

theorem surplusOf_of_meets {peer : NodeId} {member : Member}
    (found : scene.view.find? peer = some member) (meets : meets scene peer = true) :
    ∃ less, surplusOf scene.config member = .ok (less + 1) := by
  simp only [Idle.meets, found] at meets
  split at meets
  · rename_i less measured
    exact ⟨less, measured⟩
  · cases meets

/-- Two states of a tour that differ only in what is known of a peer at which nothing is on
order. -/
structure Alike (scene : PassScene) (peer : NodeId) (one other : Idle) : Prop where
  left : other.left = one.left
  requests : other.requests = one.requests
  fault? : other.fault? = one.fault?
  live : ∀ node, node ≠ peer →
    other.sent.live scene.expiry scene.now node = one.sent.live scene.expiry scene.now node
  nothing : one.sent.live scene.expiry scene.now peer = 0

namespace Alike

variable {peer node : NodeId} {member : Member} {one other : Idle}

/-- Another peer is asked for the same. -/
theorem ask (valid : 0 < scene.expiry) (alike : Alike scene peer one other)
    (differs : node ≠ peer) (surplus : Nat) :
    Alike scene peer (one.ask scene accepts node surplus)
      (other.ask scene accepts node surplus) := by
  have same := alike.live node differs
  by_cases ordered : 0 < one.sent.live scene.expiry scene.now node
  · rw [ask_of_ordered ordered, ask_of_ordered (same ▸ ordered)]
    refine ⟨?_, ?_, ?_, ?_, ?_⟩
    · simp only [same, alike.left]
    · simp only [requests_refresh, alike.requests]
    · simp only [fault?_refresh, alike.fault?]
    · intro third differs
      simp only [live_refresh, alike.live third differs]
    · simp only [live_refresh, alike.nothing]
  · have none : one.sent.live scene.expiry scene.now node = 0 := by omega
    cases arrives : accepts node with
    | true =>
        rw [ask_of_accepted none arrives, ask_of_accepted (same.trans none) arrives]
        refine ⟨?_, ?_, ?_, ?_, ?_⟩
        · simp only [alike.left]
        · simp only [alike.left, alike.requests]
        · simp only [fault?_refresh, alike.fault?]
        · intro third differs
          simp only [StealTable.live_reset valid, live_refresh, alike.live third differs,
            alike.left]
        · simp only [StealTable.live_reset valid, if_neg differs, live_refresh, alike.nothing]
    | false =>
        rw [ask_of_lost none arrives, ask_of_lost (same.trans none) arrives]
        refine ⟨?_, ?_, ?_, ?_, ?_⟩
        · simp only [left_refresh, alike.left]
        · simp only [requests_refresh, alike.requests]
        · simp only [fault?_refresh, alike.fault?]
        · intro third differs
          simp only [live_refresh, alike.live third differs]
        · simp only [live_refresh, alike.nothing]

theorem congr {first second : Idle} (alike : Alike scene peer one other)
    (sent : first.sent = one.sent ∧ second.sent = other.sent)
    (left : first.left = one.left ∧ second.left = other.left)
    (requests : first.requests = one.requests ∧ second.requests = other.requests)
    (fault? : second.fault? = first.fault?) : Alike scene peer first second where
  left := by rw [left.1, left.2, alike.left]
  requests := by rw [requests.1, requests.2, alike.requests]
  fault? := fault?
  live := by
    rw [sent.1, sent.2]
    exact alike.live
  nothing := by
    rw [sent.1]
    exact alike.nothing

/-- A visit to another peer comes to the same. -/
theorem visitMember (valid : 0 < scene.expiry) (alike : Alike scene peer one other)
    (found : scene.view.find? node = some member) (differs : node ≠ peer) :
    Alike scene peer (one.visitMember scene accepts member)
      (other.visitMember scene accepts member) := by
  have identity : member.id = node := by simpa using List.find?_some found
  cases measured : surplusOf scene.config member with
  | error fault =>
      simp only [Idle.visitMember, measured]
      exact alike.congr ⟨rfl, rfl⟩ ⟨rfl, rfl⟩ ⟨rfl, rfl⟩ rfl
  | ok amount =>
      cases amount with
      | zero =>
          simp only [Idle.visitMember, measured]
          exact alike.congr ⟨rfl, rfl⟩ ⟨rfl, rfl⟩ ⟨rfl, rfl⟩ alike.fault?
      | succ less =>
          have asked : Alike scene peer (one.ask scene accepts node (less + 1))
              (other.ask scene accepts node (less + 1)) := alike.ask valid differs (less + 1)
          simp only [Idle.visitMember, measured, identity]
          exact asked.congr ⟨rfl, rfl⟩ ⟨rfl, rfl⟩ ⟨rfl, rfl⟩ asked.fault?

/-- A visit to the peer sends a message that is lost, and changes nothing else. -/
theorem visitLost (alike : Alike scene peer one other)
    (found : scene.view.find? peer = some member) (lost : accepts peer = false)
    (meets : meets scene peer = true) :
    Alike scene peer (one.visitMember scene accepts member) other ∧
      (one.visitMember scene accepts member).fault? = one.fault? := by
  have identity : member.id = peer := by simpa using List.find?_some found
  obtain ⟨less, measured⟩ := surplusOf_of_meets found meets
  simp only [Idle.visitMember, measured, identity, ask_of_lost alike.nothing lost]
  refine ⟨⟨?_, ?_, ?_, ?_, ?_⟩, ?_⟩
  · rw [left_refresh, alike.left]
  · rw [requests_refresh, alike.requests]
  · rw [fault?_refresh, alike.fault?]
  · intro node differs
    rw [live_refresh, alike.live node differs]
  · rw [live_refresh, alike.nothing]
  · rw [fault?_refresh]

end Alike

theorem visit_of_full {peers : List NodeId} (full : idle.left = 0) :
    (visit scene accepts peers idle).2 = idle := by
  cases peers with
  | nil => rfl
  | cons peer rest => rw [visit, if_pos full]

/-- A tour that leaves out a peer, to which nothing but lost messages would be sent, comes to the
same. -/
theorem visit_without (valid : 0 < scene.expiry) {peer : NodeId} (lost : accepts peer = false)
    (meets : meets scene peer = true) (peers : List NodeId) {one other : Idle}
    (alike : Alike scene peer one other) (sound : one.fault? = none) :
    (visit scene accepts (peers.filter (· ≠ peer)) other).2.requests =
        (visit scene accepts peers one).2.requests ∧
      (visit scene accepts (peers.filter (· ≠ peer)) other).2.fault? =
        (visit scene accepts peers one).2.fault? := by
  induction peers generalizing one other with
  | nil => exact ⟨alike.requests, alike.fault?⟩
  | cons node rest ih =>
      by_cases full : one.left = 0
      · rw [visit_of_full full, visit_of_full (alike.left.trans full)]
        exact ⟨alike.requests, alike.fault?⟩
      -- Both tours have the same room left whenever they come by the same peer.
      have room : ¬ other.left = 0 := by rwa [alike.left]
      by_cases same : node = peer
      · subst same
        rw [List.filter_cons_of_neg (by simp), visit, if_neg full]
        cases found : scene.view.find? node with
        | none => exact ih alike sound
        | some member =>
            obtain ⟨visited, whole⟩ := alike.visitLost found lost meets
            have goesOn : ¬ (one.visitMember scene accepts member).fault?.isSome := by
              rw [whole, sound]
              exact Bool.false_ne_true
            simp only [if_neg goesOn]
            exact ih visited (whole.trans sound)
      · rw [List.filter_cons_of_pos (by simpa using same), visit, visit, if_neg full, if_neg room]
        cases found : scene.view.find? node with
        | none => exact ih alike sound
        | some member =>
            have visited : Alike scene peer (one.visitMember scene accepts member)
                (other.visitMember scene accepts member) := alike.visitMember valid found same
            simp only [visited.fault?]
            cases failed : (one.visitMember scene accepts member).fault? with
            | some fault =>
                simp only [Option.isSome_some, if_true, visited.requests, visited.fault?, failed]
                exact ⟨trivial, trivial⟩
            | none =>
                simp only [Option.isSome_none, Bool.false_eq_true, if_false]
                exact ih visited failed

end Idle

/-! ## The books of a pass -/

/-- The messages that a pass sends, whether they arrive or not. -/
def Resolver.messages (resolver : Resolver) (scene : PassScene) (accepts : NodeId → Bool)
    (store : JobStore) (waiting : List JobRef) (active : Nat) : List SentRequest :=
  match Busy.run scene waiting active
      { received := resolver.received, counter := resolver.counter, store } with
  | .error _ => []
  | .ok busy =>
      if 0 < busy.rejected ∨ ¬ resolver.config.enabled then []
      else
        Idle.messages scene accepts resolver.queue
          { sent := resolver.sent, left := Idle.room resolver.config (waiting.length + active) }

/-- How the books of a pass that asks for work agree with the messages that it sends while the node
holds some jobs. -/
structure Pass.Agrees (pass : Pass) (before : Resolver) (scene : PassScene)
    (accepts : NodeId → Bool) (held : Nat) (messages : List SentRequest) : Prop where
  /-- The messages that arrive are the requests that the pass makes. -/
  requests : pass.requests = messages.filter fun message => accepts message.peer
  requested : pass.outcome.requested = (pass.requests.map fun request => request.jobs.toNat).sum
  grows : pass.resolver.requested = before.requested + pass.outcome.requested
  room : pass.outcome.requested ≤
    before.config.waitThreshold.toNat + before.config.activeThreshold.toNat - held
  may : ∀ message ∈ messages, scene.MaySend message
  once : (pass.requests.map SentRequest.peer).Nodup
  /-- Not even lost messages go to a peer twice, unless it is queued twice. -/
  tried : before.queue.Nodup → (messages.map SentRequest.peer).Nodup
  noted : ∀ request ∈ pass.requests,
    pass.resolver.sent.jobs? request.peer = some request.jobs.toNat
  /-- What is on order at a peer and has not run out stays as it is. -/
  kept : ∀ peer entry, before.sent.get? peer = some entry → 0 < entry.jobs →
    entry.isExpired scene.expiry scene.now = false →
    (∀ message ∈ messages, message.peer ≠ peer) ∧ pass.resolver.sent.get? peer = some entry
  lost : ∀ message ∈ messages, accepts message.peer = false →
    pass.resolver.sent.jobs? message.peer = some 0

namespace Resolver

variable {resolver : Resolver} {scene : PassScene} {accepts : NodeId → Bool} {store : JobStore}
  {waiting : List JobRef} {active : Nat} {busy : Busy} {view : GridView} {config : StealingConfig}

/-- Requests of a node that was set up stay valid for some time. -/
theorem expiry_pos_of_start (started : start config view = .ok resolver) :
    0 < config.requestExpiry.toNat := by
  obtain ⟨_, sound, -⟩ := Result.map_eq_ok.1 started
  have fine : config.problem? = none := by
    cases problem : config.problem? with
    | none => rfl
    | some reason =>
        rw [problem] at sound
        cases sound
  apply Nat.pos_of_ne_zero
  intro zero
  have never : config.requestExpiry = 0 := UInt64.toNat_inj.1 zero
  simp only [StealingConfig.problem?, never] at fine
  split at fine
  · cases fine
  · cases fine

/-- A pass that gave jobs away, or is not to ask for any, asks for none. -/
theorem quiet_of_run
    (ran : Busy.run scene waiting active
      { received := resolver.received, counter := resolver.counter, store } = .ok busy)
    (quiet : 0 < busy.rejected ∨ ¬ resolver.config.enabled) :
    resolver.messages scene accepts store waiting active = [] ∧
      (resolver.collide scene accepts store waiting active).requests = [] ∧
      (resolver.collide scene accepts store waiting active).outcome.requested = 0 ∧
      (resolver.collide scene accepts store waiting active).resolver.sent = resolver.sent := by
  simp only [messages, collide, ran, if_pos quiet]
  exact ⟨trivial, trivial, trivial, trivial⟩

/-- The books of a pass that asks for work agree. -/
theorem agrees_of_run (valid : 0 < scene.expiry)
    (ran : Busy.run scene waiting active
      { received := resolver.received, counter := resolver.counter, store } = .ok busy)
    (asks : ¬ (0 < busy.rejected ∨ ¬ resolver.config.enabled)) :
    (resolver.collide scene accepts store waiting active).Agrees resolver scene accepts
      (waiting.length + active) (resolver.messages scene accepts store waiting active) := by
  let idle : Idle :=
    { sent := resolver.sent, left := Idle.room resolver.config (waiting.length + active) }
  have sends : Idle.Sends scene accepts idle (Idle.messages scene accepts resolver.queue idle)
      (Idle.visit scene accepts resolver.queue idle).2 := .visit valid resolver.queue idle
  have requests : (Idle.visit scene accepts resolver.queue idle).2.requests =
      (Idle.messages scene accepts resolver.queue idle).filter
        fun message => accepts message.peer := by
    rw [sends.requests]
    rfl
  simp only [messages, collide, ran, if_neg asks]
  refine ⟨requests, rfl, rfl, ?_, fun message sent => (sends.may message sent).1, ?_, ?_, ?_, ?_,
    sends.lost⟩
  · have spent := sends.spent
    have fresh : idle.requested = 0 := rfl
    have room : idle.left = Idle.room resolver.config (waiting.length + active) := rfl
    rw [Idle.room] at room
    change (Idle.visit scene accepts resolver.queue idle).2.requested ≤ _
    omega
  · simp only [askForWork]
    rw [requests]
    exact sends.once
  · intro distinct
    have visits := Idle.sublist_messages scene accepts resolver.queue idle
    exact distinct.sublist (visits.trans (Idle.visited_sublist scene accepts resolver.queue idle))
  · intro request made
    simp only [askForWork] at made ⊢
    rw [requests] at made
    obtain ⟨sent, arrives⟩ := List.mem_filter.1 made
    exact (sends.noted request sent arrives).1
  · intro peer entry found positive inTime
    have ordered : 0 < idle.sent.live scene.expiry scene.now peer :=
      StealTable.live_pos_iff.2 ⟨entry, found, positive, inTime⟩
    obtain ⟨others, same⟩ := sends.kept peer ordered
    exact ⟨others, same.trans found⟩

/-- A message that is lost uses up no room: had its peer been left out, the pass would have asked
for the same. -/
theorem collide_without (valid : 0 < scene.expiry) {message : SentRequest}
    (sent : message ∈ resolver.messages scene accepts store waiting active)
    (lost : accepts message.peer = false) :
    let without := { resolver with
      queue := resolver.queue.filter (· ≠ message.peer) }.collide scene accepts store waiting active
    without.outcome = (resolver.collide scene accepts store waiting active).outcome ∧
      without.requests = (resolver.collide scene accepts store waiting active).requests := by
  cases ran : Busy.run scene waiting active
      { received := resolver.received, counter := resolver.counter, store } with
  | error fault =>
      simp only [messages, ran] at sent
      cases sent
  | ok busy =>
      simp only [messages, ran] at sent
      split_ifs at sent with quiet
      · cases sent
      · let idle : Idle :=
          { sent := resolver.sent, left := Idle.room resolver.config (waiting.length + active) }
        have sends : Idle.Sends scene accepts idle
            (Idle.messages scene accepts resolver.queue idle)
            (Idle.visit scene accepts resolver.queue idle).2 := .visit valid resolver.queue idle
        have nothing : idle.sent.live scene.expiry scene.now message.peer = 0 := by
          apply Nat.eq_zero_of_not_pos
          intro ordered
          exact (sends.kept message.peer ordered).1 message sent rfl
        have alike : Idle.Alike scene message.peer idle idle :=
          ⟨rfl, rfl, rfl, fun _ _ => rfl, nothing⟩
        obtain ⟨requests, -⟩ := Idle.visit_without valid lost (sends.may message sent).2
          resolver.queue alike rfl
        simp only [idle] at requests
        simp only [collide, ran, if_neg quiet, askForWork, Idle.requested, requests]
        exact ⟨trivial, trivial⟩

end Resolver

namespace Stealing

/-- Whatever happened before and whichever messages are lost, a pass that gave jobs away, or is not
to ask for any, sends no message and leaves what is on order as it is. The books of any other pass
that comes to its end agree with the messages that it sends. A message that is lost uses up no
room: had its peer been left out, the pass would have asked for the same. No peer is queued twice,
unless the node saw it twice at first. -/
theorem books_of_pass_agree {config : StealingConfig} {view : GridView} {resolver : Resolver}
    (started : Resolver.start config view = .ok resolver) {restrictions : Restrictions}
    {now : Moment} {history : List StealEvent} {before : Stealing}
    (reached : ({ resolver, view, restrictions, now } : Stealing).run history = .ok before)
    {store : JobStore} {waiting active : List JobRef} {order : Arrangement NodeId}
    {accepts : NodeId → Bool} {pass : Pass}
    (passes : pass = before.resolver.collide (before.scene order) accepts store waiting
      active.length)
    (returns : pass.fault? = none) {messages : List SentRequest}
    (sends : messages = before.resolver.messages (before.scene order) accepts store waiting
      active.length) :
    (0 < pass.outcome.rejected ∨ config.enabled = false → messages = [] ∧ pass.requests = [] ∧
      pass.outcome.requested = 0 ∧ pass.resolver.sent = before.resolver.sent) ∧
      (pass.outcome.rejected = 0 → config.enabled = true →
        pass.Agrees before.resolver (before.scene order) accepts (waiting.length + active.length)
          messages) ∧
      (∀ message ∈ messages, accepts message.peer = false →
        let without := { before.resolver with
          queue := before.resolver.queue.filter (· ≠ message.peer) }.collide (before.scene order)
            accepts store waiting active.length
        without.outcome = pass.outcome ∧ without.requests = pass.requests) ∧
      ((view.remote.map Member.id).Nodup → before.resolver.queue.Nodup) := by
  subst passes sends
  have same : before.resolver.config = config := config_of_reached started reached
  have valid : 0 < (before.scene order).expiry := by
    have positive := Resolver.expiry_pos_of_start started
    rwa [← same] at positive
  obtain ⟨busy, ran⟩ := exists_busy started reached (before.scene order) store waiting active.length
  obtain ⟨-, rejected⟩ := outcome_of_run accepts ran
  rw [rejected, ← same]
  refine ⟨?_, ?_, ?_, ?_⟩
  · intro quiet
    apply Resolver.quiet_of_run ran
    exact quiet.imp_right fun disabled => by rw [disabled]; exact Bool.false_ne_true
  · intro none enabled
    apply Resolver.agrees_of_run valid ran
    rintro (some | disabled)
    · omega
    · exact disabled enabled
  · intro message sent lost
    exact Resolver.collide_without valid sent lost
  · intro distinct
    obtain ⟨-, -, rfl⟩ := Result.map_eq_ok.1 started
    exact run_keeps nodup_queue_perform history distinct reached

/-- Two jobs are on order at the first of four members. The next pass comes by that one last. Its
message to the second member is lost, and the other two are asked for all of their surplus jobs. -/
theorem books_of_pass_agree_of_lost :
    let member (number : Nat) (jobs : UInt32) : Member :=
      { id := .ofNat number
        attributes := ⟨[(AttributeName.waitThreshold, .int 0)], by simp⟩
        metrics := { currentWaitingJobs := jobs } }
    let view : GridView := ⟨.ofNat 0, none, [member 1 4, member 2 3, member 3 3, member 4 2]⟩
    let config : StealingConfig := { activeThreshold := 8 }
    let resolver : Resolver := { config, queue := view.remote.map Member.id }
    let accepts (peer : NodeId) : Bool := peer ≠ .ofNat 2
    let first := resolver.collide (resolver.scene view ∅ default 0) accepts ∅ [] 6
    let before : Stealing := { resolver := first.resolver, view }
    let pass := before.resolver.collide (before.scene default) accepts ∅ []
      ([] : List JobRef).length
    let messages := before.resolver.messages (before.scene default) accepts ∅ []
      ([] : List JobRef).length
    Resolver.start config view = .ok resolver ∧
      ({ resolver, view } : Stealing).run [.pass ∅ [] 6 default accepts] = .ok before ∧
      pass.fault? = none ∧ pass.outcome.requested = 5 ∧
      messages = [⟨.ofNat 2, 3⟩, ⟨.ofNat 3, 3⟩, ⟨.ofNat 4, 2⟩] ∧
      pass.Agrees before.resolver (before.scene default) accepts (0 + 0) messages ∧
      ∀ message ∈ messages, accepts message.peer = false →
        let without := { before.resolver with
          queue := before.resolver.queue.filter (· ≠ message.peer) }.collide
            (before.scene default) accepts ∅ [] ([] : List JobRef).length
        without.outcome = pass.outcome ∧ without.requests = pass.requests := by
  intro member view config resolver accepts first before pass messages
  have started : Resolver.start config view = .ok resolver := rfl
  have reached : ({ resolver, view } : Stealing).run [.pass ∅ [] 6 default accepts] =
      .ok before := rfl
  have passes : pass = before.resolver.collide (before.scene default) accepts ∅ []
      ([] : List JobRef).length := rfl
  have sends : messages = before.resolver.messages (before.scene default) accepts ∅ []
      ([] : List JobRef).length := rfl
  have returns : pass.fault? = none := by decide
  obtain ⟨-, agrees, lost, -⟩ := books_of_pass_agree started reached passes returns sends
  exact ⟨started, reached, returns, by decide, by decide, agrees (by decide) rfl, lost⟩

end Stealing

end JobGrid
