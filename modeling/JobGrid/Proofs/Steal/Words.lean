import JobGrid.Proofs.Steal.Queue

/-!
# Passes in words

A node computes its passes in words of 64 bits. Each sum and each difference must fit into a
word, or else the pass ends where it does not. All of them fit but one: how many jobs of a peer
are surplus, which depends on nothing but what the peer publishes.
-/

namespace JobGrid

namespace Word

/-- A number that is put into a signed word. -/
def signed (number : Int) : Except Fault Int :=
  if -2 ^ 63 ≤ number ∧ number < 2 ^ 63 then .ok number else .error .overflow

/-- A number that is put into a word without a sign. -/
def unsigned (number : Int) : Except Fault Nat :=
  if 0 ≤ number ∧ number < 2 ^ 64 then .ok number.toNat else .error .overflow

theorem signed_eq_ok {number : Int} (above : -2 ^ 63 ≤ number) (below : number < 2 ^ 63) :
    signed number = .ok number := if_pos ⟨above, below⟩

theorem unsigned_eq_ok {number : Int} {value : Nat} (same : number = value)
    (small : value < 2 ^ 64) : unsigned number = .ok value := by
  have fits : 0 ≤ number ∧ number < 2 ^ 64 := by omega
  rw [unsigned, if_pos fits, same, Int.toNat_natCast]

end Word

namespace Busy

variable {scene : PassScene} {waiting : Nat} {busy next : Busy}

/-- Tries to start a job and counts it. -/
def startInWords (busy : Busy) (job : JobRef) : Except Fault Busy :=
  let (started, store) := busy.store.activate job
  if started then
    (Word.unsigned (busy.activated + 1)).map fun activated => { busy with store, activated }
  else .ok { busy with store }

/-- How many more of so many waiting jobs are surplus, one difference after another. -/
def surplusInWords (busy : Busy) (scene : PassScene) (waiting : Nat) : Except Fault Int := do
  let unstarted ← Word.signed (waiting - busy.activated)
  let unsettled ← Word.signed (unstarted - busy.rejected)
  Word.signed (unsettled - scene.config.waitThreshold.toNat)

/-- Goes through the jobs once. Those that come first are started as long as there is room for
one more; after that, surplus ones are given away. -/
def runInWords (scene : PassScene) (waiting room : Nat) :
    Nat → List JobRef → Busy → Except Fault Busy
  | _, [], busy => .ok busy
  | attempted, job :: rest, busy =>
      if attempted < room then do
        let attempted ← Word.unsigned (attempted + 1)
        runInWords scene waiting room attempted rest (← busy.startInWords job)
      else
        match busy.store.get? job with
        | none => runInWords scene waiting room attempted rest busy
        | some handle =>
            if !busy.mayGive scene handle then runInWords scene waiting room attempted rest busy
            else do
              let surplus ← busy.surplusInWords scene waiting
              if surplus ≤ 0 then return busy
              else
                let peers := scene.order.arrange busy.received.peers.keys
                let next ← handOver scene handle.session job peers busy
                let _ ← Word.unsigned next.rejected
                runInWords scene waiting room attempted rest next

theorem startInWords_eq (busy : Busy) (job : JobRef) (small : busy.activated + 1 < 2 ^ 64) :
    busy.startInWords job = .ok (busy.start job) := by
  have counted : Word.unsigned (busy.activated + 1) = .ok (busy.activated + 1) :=
    Word.unsigned_eq_ok (by omega) small
  simp only [startInWords, start]
  split_ifs with started
  · rw [counted]
    rfl
  · rfl

theorem counts_start (busy : Busy) (job : JobRef) :
    (busy.start job).activated ≤ busy.activated + 1 ∧
      (busy.start job).rejected = busy.rejected := by
  simp only [start]
  split_ifs
  · exact ⟨Nat.le_refl _, trivial⟩
  · exact ⟨Nat.le_succ _, trivial⟩

theorem surplusInWords_eq (settled : busy.activated + busy.rejected ≤ waiting)
    (small : waiting < 2 ^ 63) :
    busy.surplusInWords scene waiting = .ok (busy.surplus scene waiting) := by
  have threshold := scene.config.waitThreshold.toNat_lt
  have first : Word.signed ((waiting : Int) - busy.activated) = .ok (waiting - busy.activated) :=
    Word.signed_eq_ok (by omega) (by omega)
  have second : Word.signed ((waiting : Int) - busy.activated - busy.rejected) =
      .ok (waiting - busy.activated - busy.rejected) :=
    Word.signed_eq_ok (by omega) (by omega)
  rw [surplusInWords, first, Result.ok_bind, second, Result.ok_bind]
  exact Word.signed_eq_ok (by omega) (by omega)

/-- One job at most is given away at once. -/
theorem counts_handOver {session : SessionId} {job : JobRef} (peers : List NodeId)
    (ended : handOver scene session job peers busy = .ok next) :
    next.activated = busy.activated ∧ next.rejected ≤ busy.rejected + 1 := by
  induction peers generalizing busy with
  | nil =>
      cases ended
      exact ⟨rfl, Nat.le_succ _⟩
  | cons peer rest ih =>
      simp only [handOver] at ended
      cases offered : busy.offer scene session peer with
      | unsuitable =>
          rw [offered] at ended
          exact ih ended
      | gone =>
          rw [offered] at ended
          obtain ⟨middle, dropped, later⟩ := Result.bind_eq_ok.1 ended
          obtain ⟨counter, -, rfl⟩ := Result.map_eq_ok.1 dropped
          have counts := ih later
          exact counts
      | expired =>
          rw [offered] at ended
          obtain ⟨middle, tookBack, later⟩ := Result.bind_eq_ok.1 ended
          obtain ⟨counter, -, rfl⟩ := Result.map_eq_ok.1 tookBack
          have counts := ih later
          exact counts
      | taker =>
          rw [offered] at ended
          simp only at ended
          split at ended
          · cases ended
            exact ⟨rfl, Nat.le_succ _⟩
          · obtain ⟨received, -, counting⟩ := Result.bind_eq_ok.1 ended
            obtain ⟨counter, -, finished⟩ := Result.bind_eq_ok.1 counting
            cases finished
            exact ⟨rfl, Nat.le_refl _⟩

/-- Every number fits, as no more jobs are started or given away than there are. -/
theorem runInWords_eq (scene : PassScene) {waiting : Nat} (small : waiting < 2 ^ 63) (room : Nat)
    (jobs : List JobRef) (attempted : Nat) (busy : Busy)
    (begun : attempted + jobs.length ≤ waiting)
    (settled : busy.activated + busy.rejected + jobs.length ≤ waiting) :
    runInWords scene waiting room attempted jobs busy =
      giveAway scene waiting (jobs.drop (room - attempted))
        ((jobs.take (room - attempted)).foldl start busy) := by
  induction jobs generalizing attempted busy with
  | nil => simp [runInWords, giveAway]
  | cons job rest ih =>
      rw [List.length_cons] at begun settled
      by_cases free : attempted < room
      · obtain ⟨less, more⟩ : ∃ less, room - attempted = less + 1 :=
          ⟨room - attempted - 1, by omega⟩
        have counted : Word.unsigned (attempted + 1) = .ok (attempted + 1) :=
          Word.unsigned_eq_ok (by omega) (by omega)
        have counts := busy.counts_start job
        have started := busy.startInWords_eq job (by omega)
        rw [runInWords, if_pos free, counted, Result.ok_bind, started, Result.ok_bind, more,
          List.drop_succ_cons, List.take_succ_cons, List.foldl_cons]
        have rest := ih (attempted + 1) (busy.start job) (by omega) (by omega)
        rwa [show room - (attempted + 1) = less by omega] at rest
      · have full : room - attempted = 0 := by omega
        have later : ∀ {next : Busy}, next.activated + next.rejected + rest.length ≤ waiting →
            runInWords scene waiting room attempted rest next =
              giveAway scene waiting rest next := by
          intro next settled
          have rest := ih attempted next (by omega) settled
          rwa [full, List.drop_zero, List.take_zero, List.foldl_nil] at rest
        rw [full, List.drop_zero, List.take_zero, List.foldl_nil, runInWords, if_neg free, giveAway]
        cases found : busy.store.get? job with
        | none => exact later (by omega)
        | some handle =>
            simp only
            split_ifs with kept exhausted
            · exact later (by omega)
            · rw [surplusInWords_eq (Nat.le_of_add_right_le settled) small, Result.ok_bind,
                if_pos exhausted]
              rfl
            · rw [surplusInWords_eq (Nat.le_of_add_right_le settled) small, Result.ok_bind,
                if_neg exhausted]
              cases ended : handOver scene handle.session job
                  (scene.order.arrange busy.received.peers.keys) busy with
              | error fault => rw [Result.error_bind, Result.error_bind]
              | ok next =>
                  obtain ⟨activated, rejected⟩ := counts_handOver _ ended
                  have counted : Word.unsigned next.rejected = .ok next.rejected :=
                    Word.unsigned_eq_ok rfl (by omega)
                  rw [Result.ok_bind, Result.ok_bind, counted, Result.ok_bind]
                  exact later (by omega)

theorem runInWords_eq_run {waiting : List JobRef} (short : waiting.length < 2 ^ 63) (active : Nat)
    {busy : Busy} (fresh : busy.activated + busy.rejected = 0) :
    runInWords scene waiting.length (room scene active) 0 waiting busy =
      run scene waiting active busy :=
  runInWords_eq scene short (room scene active) waiting 0 busy (by omega) (by omega)

end Busy

namespace Idle

variable {scene : PassScene} {accepts : NodeId → Bool} {idle : Idle}

/-- How many jobs of a peer are surplus; none if it publishes nothing or is not to be asked. -/
def surplusInWords (config : StealingConfig) (peer : Member) : Except Fault Int :=
  if config.peerFilter.admits peer then
    match (peer.attribute? AttributeName.waitThreshold).bind Attribute.int? with
    | none => .ok 0
    | some threshold =>
        Word.signed (peer.metrics.currentWaitingJobs.toNat - threshold.toInt)
  else .ok 0

/-- Asks a peer for some of its surplus jobs. -/
def askInWords (idle : Idle) (scene : PassScene) (accepts : NodeId → Bool) (peer : NodeId)
    (surplus : Nat) : Except Fault Idle :=
  let idle := idle.refresh scene peer
  let outstanding := idle.sent.jobs peer
  if 0 < outstanding then .ok { idle with left := idle.left - outstanding }
  else if accepts peer then
    let jobs := min (min surplus idle.left) largestRequest
    (Word.unsigned (idle.left - jobs)).map fun left =>
      { idle with
        sent := idle.sent.reset scene.now peer jobs
        left
        requests := idle.requests ++ [⟨peer, UInt32.ofNat jobs⟩] }
  else .ok idle

/-- Visits some peers in turn, and adds up the jobs that were asked for. -/
def visitInWords (scene : PassScene) (accepts : NodeId → Bool) :
    List NodeId → Idle → Except Fault (List NodeId × Idle)
  | [], idle => .ok ([], idle)
  | peer :: rest, idle =>
      if idle.left = 0 then .ok (peer :: rest, idle)
      else
        match scene.view.find? peer with
        | none => visitInWords scene accepts rest idle
        | some member => do
            let surplus ← surplusInWords scene.config member
            if surplus ≤ 0 then
              visitInWords scene accepts rest { idle with kept := idle.kept ++ [member.id] }
            else
              let asked ← idle.askInWords scene accepts member.id surplus.toNat
              let _ ← Word.unsigned asked.requested
              visitInWords scene accepts rest { asked with kept := asked.kept ++ [member.id] }

theorem surplusOf_eq (config : StealingConfig) (peer : Member) :
    surplusOf config peer = (surplusInWords config peer).map Int.toNat := by
  simp only [surplusOf, surplusInWords]
  split_ifs with asked
  · cases published : (peer.attribute? AttributeName.waitThreshold).bind Attribute.int? with
    | none => rfl
    | some threshold =>
        have above := threshold.le_toInt
        have below := threshold.toInt_lt
        have waiting := peer.metrics.currentWaitingJobs.toNat_lt
        by_cases fits : (peer.metrics.currentWaitingJobs.toNat : Int) - threshold.toInt < 2 ^ 63
        · simp only [if_pos fits, Word.signed_eq_ok (by omega) fits, Except.map]
        · have large :
              ¬ (-2 ^ 63 ≤ (peer.metrics.currentWaitingJobs.toNat : Int) - threshold.toInt ∧
                (peer.metrics.currentWaitingJobs.toNat : Int) - threshold.toInt < 2 ^ 63) :=
            fun both => fits both.2
          simp only [if_neg fits, Word.signed, if_neg large, Except.map]
  · rfl

theorem requested_append (idle : Idle) (request : SentRequest) :
    requested { idle with requests := idle.requests ++ [request] } =
      idle.requested + request.jobs.toNat := by
  simp [requested]

@[simp] theorem requested_refresh (idle : Idle) (scene : PassScene) (peer : NodeId) :
    (idle.refresh scene peer).requested = idle.requested := by
  rw [requested, requests_refresh, requested]

@[simp] theorem fault?_ask (idle : Idle) (scene : PassScene) (accepts : NodeId → Bool)
    (peer : NodeId) (surplus : Nat) :
    (idle.ask scene accepts peer surplus).fault? = idle.fault? := by
  simp only [ask]
  split_ifs <;> exact fault?_refresh idle scene peer

theorem askInWords_eq (small : idle.left < 2 ^ 64) (peer : NodeId) (surplus : Nat) :
    idle.askInWords scene accepts peer surplus = .ok (idle.ask scene accepts peer surplus) := by
  have room := amount_le surplus idle.left
  have counted : Word.unsigned
        (idle.left - (min (min surplus idle.left) largestRequest : Nat)) =
      .ok (idle.left - min (min surplus idle.left) largestRequest) :=
    Word.unsigned_eq_ok (by omega) (by omega)
  simp only [askInWords, ask, left_refresh, counted]
  split_ifs <;> rfl

/-- The jobs that are asked for use up room. -/
theorem requested_ask_le (idle : Idle) (scene : PassScene) (accepts : NodeId → Bool)
    (peer : NodeId) (surplus : Nat) :
    (idle.ask scene accepts peer surplus).requested + (idle.ask scene accepts peer surplus).left ≤
      idle.requested + idle.left := by
  have before := idle.requested_refresh scene peer
  simp only [ask, left_refresh]
  split_ifs
  · exact Nat.add_le_add (Nat.le_of_eq before) (Nat.sub_le _ _)
  · have room := amount_le surplus idle.left
    have jobs : (UInt32.ofNat (min (min surplus idle.left) largestRequest)).toNat ≤
        min (min surplus idle.left) largestRequest := by
      rw [UInt32.toNat_ofNat']
      exact Nat.mod_le _ _
    have total := (idle.refresh scene peer).requested_append
      ⟨peer, UInt32.ofNat (min (min surplus idle.left) largestRequest)⟩
    rw [before] at total
    simp only [requested] at total ⊢
    omega
  · exact Nat.le_of_eq (by rw [left_refresh, before])

/-- Every number fits but the surplus of a peer. -/
theorem visitInWords_eq (peers : List NodeId) {idle : Idle}
    (small : idle.requested + idle.left < 2 ^ 64) (whole : idle.fault? = none) :
    visitInWords scene accepts peers idle =
      match (visit scene accepts peers idle).2.fault? with
      | none => .ok (visit scene accepts peers idle)
      | some fault => .error fault := by
  induction peers generalizing idle with
  | nil => simp only [visitInWords, visit, whole]
  | cons peer rest ih =>
      rw [visitInWords, visit]
      split_ifs with full
      · simp only [whole]
      · cases found : scene.view.find? peer with
        | none => exact ih small whole
        | some member =>
            simp only [visitMember, surplusOf_eq]
            cases measured : surplusInWords scene.config member with
            | error fault => rfl
            | ok surplus =>
                rw [Result.ok_bind]
                cases amount : surplus.toNat with
                | zero =>
                    have none : surplus ≤ 0 := Int.toNat_eq_zero.1 amount
                    simp only [if_pos none, Except.map, amount, whole, Option.isSome_none,
                      Bool.false_eq_true, if_false]
                    exact ih small rfl
                | succ less =>
                    have some : ¬ surplus ≤ 0 := by omega
                    have room := idle.requested_ask_le scene accepts member.id (less + 1)
                    have asked : idle.askInWords scene accepts member.id (less + 1) = _ :=
                      askInWords_eq (by omega) member.id (less + 1)
                    have fits : Word.unsigned
                          (idle.ask scene accepts member.id (less + 1)).requested =
                        .ok (idle.ask scene accepts member.id (less + 1)).requested :=
                      Word.unsigned_eq_ok rfl (by omega)
                    rw [if_neg some, asked, Result.ok_bind, fits, Result.ok_bind]
                    simp only [Except.map, amount, fault?_ask, whole, Option.isSome_none,
                      Bool.false_eq_true, if_false]
                    exact ih (Nat.lt_of_le_of_lt room small) rfl

end Idle

/-- A node is to be asked for work, and the number of jobs that it keeps by what it publishes is so
far below zero that its surplus does not fit into a word. -/
def Member.SurplusOverflows (config : StealingConfig) (member : Member) : Prop :=
  config.peerFilter.admits member = true ∧ ∃ threshold : Int64,
    (member.attribute? AttributeName.waitThreshold).bind Attribute.int? = some threshold ∧
      threshold.toInt + 2 ^ 63 ≤ member.metrics.currentWaitingJobs.toNat

namespace Idle

variable {scene : PassScene} {accepts : NodeId → Bool} {fault : Fault}

theorem overflows_of_surplusOf {config : StealingConfig} {member : Member}
    (broke : surplusOf config member = .error fault) :
    fault = .overflow ∧ member.SurplusOverflows config := by
  simp only [surplusOf] at broke
  split_ifs at broke with asked
  · split at broke
    · cases broke
    · rename_i threshold published
      split_ifs at broke with fits
      cases broke
      exact ⟨rfl, asked, threshold, published, by omega⟩

/-- A visit that breaks a rule does not keep the peer. -/
theorem overflows_of_visitMember {idle : Idle} (whole : idle.fault? = none) {member : Member}
    (broke : (idle.visitMember scene accepts member).fault? = some fault) :
    fault = .overflow ∧ member.SurplusOverflows scene.config ∧
      (idle.visitMember scene accepts member).kept = idle.kept := by
  cases measured : surplusOf scene.config member with
  | error cause =>
      obtain ⟨rfl, overflows⟩ := overflows_of_surplusOf measured
      simp only [visitMember, measured] at broke ⊢
      exact ⟨(Option.some.inj broke).symm, overflows, trivial⟩
  | ok surplus =>
      cases surplus with
      | zero =>
          simp only [visitMember, measured, whole] at broke
          cases broke
      | succ less =>
          simp only [visitMember, measured, fault?_ask, whole] at broke
          cases broke

/-- Only the surplus of a peer may break a rule. The tour ends there and keeps the members that it
came by before. -/
theorem overflows_of_visit (peers : List NodeId) {idle : Idle} (whole : idle.fault? = none)
    (broke : (visit scene accepts peers idle).2.fault? = some fault) :
    fault = .overflow ∧ ∃ earlier last member,
      visited scene accepts peers idle = earlier ++ [last] ∧
        scene.view.find? last = some member ∧ member.SurplusOverflows scene.config ∧
        (visit scene accepts peers idle).2.kept = idle.kept ++ earlier.filter scene.isMember := by
  induction peers generalizing idle with
  | nil => exact absurd (whole.symm.trans broke) nofun
  | cons peer rest ih =>
      have later : ∀ {next : Idle}, next.kept = idle.kept ++ [peer].filter scene.isMember →
          next.fault? = none →
          (visit scene accepts rest next).2.fault? = some fault →
          fault = .overflow ∧ ∃ earlier last member,
            peer :: visited scene accepts rest next = earlier ++ [last] ∧
              scene.view.find? last = some member ∧ member.SurplusOverflows scene.config ∧
              (visit scene accepts rest next).2.kept =
                idle.kept ++ earlier.filter scene.isMember := by
        intro next first sound failed
        obtain ⟨same, earlier, last, member, visits, found, overflows, kept⟩ := ih sound failed
        refine ⟨same, peer :: earlier, last, member, congrArg (peer :: ·) visits, found, overflows,
          ?_⟩
        rw [kept, first, List.append_assoc, ← List.filter_append, List.singleton_append]
      simp only [visited, visit] at broke ⊢
      split_ifs at broke ⊢ with full
      · exact absurd (whole.symm.trans broke) nofun
      · cases found : scene.view.find? peer with
        | none =>
            rw [found] at broke
            exact later (by rw [filter_of_absent found, List.append_nil]) whole broke
        | some member =>
            simp only [found] at broke ⊢
            split_ifs at broke ⊢ with failed
            · obtain ⟨same, overflows, kept⟩ := overflows_of_visitMember whole broke
              exact ⟨same, [], peer, member, rfl, found, overflows,
                kept.trans (List.append_nil _).symm⟩
            · have sound : (idle.visitMember scene accepts member).fault?.isSome = false :=
                Bool.eq_false_iff.2 failed
              exact later (kept_of_visitMember found sound)
                (Option.isNone_iff_eq_none.1 (Option.isSome_eq_false_iff.1 sound)) broke

end Idle

namespace StealCounter

theorem lt_of_add {counter delta updated : Int} (added : add counter delta = .ok updated) :
    updated < 2 ^ 63 := by
  simp only [add] at added
  split_ifs at added with large negative
  cases added
  rw [not_or] at large
  exact Int.not_le.1 large.2

end StealCounter

namespace StealTable

/-- A counter keeps the sum of a table, which fits into a word. -/
def FitsInto (table : StealTable) (counter : Int) : Prop :=
  table.CountedBy counter ∧ counter < 2 ^ 63

namespace FitsInto

variable {table : StealTable} {counter : Int}

theorem exists_sub (fits : table.FitsInto counter) {amount : Nat} (part : amount ≤ table.total) :
    ∃ updated, StealCounter.add counter (-amount) = .ok updated := by
  obtain ⟨counted, small⟩ := fits
  have total : counter = table.total := counted
  exact ⟨_, StealCounter.add_eq_ok (by omega) (by omega)⟩

end FitsInto

end StealTable

namespace Busy

/-- No step of serving peers breaks a rule while the counter keeps the sum of what they ask for. -/
theorem kept_fits (scene : PassScene) (waiting : Nat) :
    Kept scene waiting False fun busy => busy.received.FitsInto busy.counter where
  start _ fits := fits
  forget {busy peer} fits _ := by
    obtain ⟨counter, added⟩ := fits.exists_sub (busy.received.jobs_le_total peer)
    simp only [Busy.forget, added]
    exact ⟨fits.1.remove added, StealCounter.lt_of_add added⟩
  expire {busy peer entry} fits _ _ := by
    obtain ⟨counter, added⟩ := fits.exists_sub (busy.received.jobs_le_total peer)
    simp only [Busy.expire, added]
    refine ⟨?_, StealCounter.lt_of_add added⟩
    rw [← Int.zero_sub, ← Int.natCast_zero] at added
    exact fits.1.reset scene.now added
  give {busy peer entry job handle} fits _ _ _ _ _ _ asked positive _ _ _ := by
    have asks : 0 < busy.received.jobs peer := StealTable.jobs_of_get? asked ▸ positive
    have one : 1 ≤ busy.received.total := Nat.le_trans asks (busy.received.jobs_le_total peer)
    obtain ⟨counter, added⟩ := fits.exists_sub one
    rw [Int.natCast_one] at added
    rw [give_of_asks busy _ scene job asks, added]
    exact ⟨fits.1.served scene.now asks added, StealCounter.lt_of_add added⟩

theorem exists_run (scene : PassScene) (waiting : List JobRef) (active : Nat) (busy : Busy)
    (fits : busy.received.FitsInto busy.counter) :
    ∃ next, run scene waiting active busy = .ok next ∧ next.received.FitsInto next.counter := by
  have ended : Ends False (fun busy => busy.received.FitsInto busy.counter)
      (run scene waiting active busy) := run_keeps (kept_fits scene waiting.length) active fits
  cases ran : run scene waiting active busy with
  | error fault =>
      rw [ran] at ended
      exact ended.elim
  | ok next =>
      rw [ran] at ended
      exact ⟨next, rfl, ended⟩

end Busy

namespace Resolver

variable {resolver : Resolver} {scene : PassScene} {accepts : NodeId → Bool} {store : JobStore}
  {waiting : List JobRef}

/-- A pass over the waiting jobs of a node that runs some others. -/
def collideInWords (resolver : Resolver) (scene : PassScene) (accepts : NodeId → Bool)
    (store : JobStore) (waiting : List JobRef) (active : Nat) : Except Fault Pass := do
  let noted := { resolver with waiting := waiting.length, active }
  let busy ← Busy.runInWords scene waiting.length (Busy.room scene active) 0 waiting
    { received := noted.received, counter := noted.counter, store }
  let noted := { noted with
    received := busy.received
    counter := busy.counter
    stolen := noted.stolen + busy.rejected }
  let outcome : PassOutcome := { activated := busy.activated, rejected := busy.rejected }
  if 0 < busy.rejected ∨ ¬ noted.config.enabled then
    return { resolver := noted, store := busy.store, outcome }
  else
    let capacity ← Word.unsigned
      (noted.config.waitThreshold.toNat + noted.config.activeThreshold.toNat)
    -- More jobs than a word holds count as many as it holds.
    let held := min (waiting.length + active) (2 ^ 64 - 1)
    let (unvisited, idle) ← Idle.visitInWords scene accepts noted.queue
      { sent := noted.sent, left := capacity - held }
    return {
      resolver := { noted with
        sent := idle.sent
        queue := unvisited ++ idle.kept
        requested := noted.requested + idle.requested }
      store := busy.store
      outcome := { outcome with requested := idle.requested }
      requests := idle.requests }

/-- A pass in which serving peers breaks no rule may only break one with the surplus of a peer. -/
theorem overflows_of_collide {active : Nat} {busy : Busy} {fault : Fault}
    (ran : Busy.run scene waiting active
      { received := resolver.received, counter := resolver.counter, store } = .ok busy)
    (broke : (resolver.collide scene accepts store waiting active).fault? = some fault) :
    fault = .overflow ∧ ∃ peer ∈ resolver.queue, ∃ member,
      scene.view.find? peer = some member ∧ member.SurplusOverflows scene.config := by
  simp only [collide, ran] at broke
  split_ifs at broke
  obtain ⟨same, earlier, last, member, visits, found, overflows, -⟩ :=
    Idle.overflows_of_visit resolver.queue rfl broke
  have queued := (Idle.visited_sublist scene accepts resolver.queue _).subset
    (visits ▸ List.mem_append_right earlier (List.mem_singleton_self last))
  exact ⟨same, last, queued, member, found, overflows⟩

/-- A pass in words does what a pass does, and it ends where that breaks a rule. -/
theorem collideInWords_eq (resolver : Resolver) (scene : PassScene) (accepts : NodeId → Bool)
    (store : JobStore) {waiting : List JobRef} (short : waiting.length < 2 ^ 63) (active : Nat) :
    resolver.collideInWords scene accepts store waiting active =
      match (resolver.collide scene accepts store waiting active).fault? with
      | none => .ok (resolver.collide scene accepts store waiting active)
      | some fault => .error fault := by
  rw [collideInWords, Busy.runInWords_eq_run short active rfl]
  cases ran : Busy.run scene waiting active
      { received := resolver.received, counter := resolver.counter, store } with
  | error fault => simp only [collide, ran, Result.error_bind]
  | ok busy =>
      simp only [collide, ran, Result.ok_bind]
      split_ifs with done
      · rfl
      · have wait := resolver.config.waitThreshold.toNat_lt
        have active' := resolver.config.activeThreshold.toNat_lt
        have capacity : Word.unsigned ((resolver.config.waitThreshold.toNat : Int) +
              resolver.config.activeThreshold.toNat) =
            .ok (resolver.config.waitThreshold.toNat + resolver.config.activeThreshold.toNat) :=
          Word.unsigned_eq_ok (by omega) (by omega)
        have left : resolver.config.waitThreshold.toNat + resolver.config.activeThreshold.toNat -
              min (waiting.length + active) (2 ^ 64 - 1) =
            Idle.room resolver.config (waiting.length + active) := by
          rw [Idle.room]
          omega
        have small : Idle.room resolver.config (waiting.length + active) < 2 ^ 64 := by
          rw [Idle.room]
          omega
        let idle : Idle :=
          { sent := resolver.sent, left := Idle.room resolver.config (waiting.length + active) }
        have visits : Idle.visitInWords scene accepts resolver.queue idle = _ :=
          Idle.visitInWords_eq resolver.queue (by simpa [idle, Idle.requested] using small) rfl
        rw [capacity, Result.ok_bind, left]
        simp only [idle] at visits
        rw [visits]
        simp only [askForWork]
        cases (Idle.visit scene accepts resolver.queue
          { sent := resolver.sent
            left := Idle.room resolver.config (waiting.length + active) }).2.fault? with
        | none => rfl
        | some fault => rfl

end Resolver

namespace Stealing

/-- A resolver knows how many jobs its peers ask for, and the number fits into a word. -/
def Fits (stealing : Stealing) : Prop :=
  stealing.resolver.received.FitsInto stealing.resolver.counter

theorem Fits.perform {before after : Stealing} {event : StealEvent} (fits : before.Fits)
    (performed : before.perform event = .ok after) : after.Fits := by
  have counted : after.Counted := Counted.perform fits.1 performed
  have small := fits.2
  refine ⟨counted, ?_⟩
  cases event with
  | request peer request =>
      obtain ⟨⟨noted, resolver⟩, asked, rfl⟩ := Result.map_eq_ok.1 performed
      cases Resolver.heard_of_onStealRequest asked with
      | stranger absent => exact small
      | member present added => exact StealCounter.lt_of_add added
  | discovery event =>
      obtain ⟨resolver, noted, rfl⟩ := Result.map_eq_ok.1 performed
      have fewer : resolver.received.total ≤ before.resolver.received.total := by
        rcases (received_of_onEvent noted).2 with same | removed
        · exact Nat.le_of_eq (congrArg StealTable.total same)
        · rw [removed]
          exact Nat.le.intro (before.resolver.received.total_remove event.member.id)
      calc resolver.counter = (resolver.received.total : Int) := counted
        _ ≤ before.resolver.received.total := Int.ofNat_le.2 fewer
        _ = before.resolver.counter := fits.1.symm
        _ < 2 ^ 63 := small
  | pass store waiting active order accepts =>
      obtain ⟨busy, ran, -, counter, -⟩ := perform_pass performed
      obtain ⟨next, finished, fits⟩ :=
        Busy.exists_run (before.scene order) waiting active (before.busy store) fits
      cases ran.symm.trans finished
      rw [counter]
      exact fits.2
  | change view =>
      cases performed
      exact small
  | restrict restrictions =>
      cases performed
      exact small
  | wait millis =>
      cases performed
      exact small

/-- Whatever happened before, each number of a pass fits into its word, and no count is taken below
zero. This leaves out passes that come by a peer whose surplus, by what it publishes, does not fit
into a word: they may end there. -/
theorem collide_completes {config : StealingConfig} {view : GridView} {resolver : Resolver}
    (started : Resolver.start config view = .ok resolver) {restrictions : Restrictions}
    {now : Moment} {history : List StealEvent} {before : Stealing}
    (reached : ({ resolver, view, restrictions, now } : Stealing).run history = .ok before)
    (store : JobStore) {waiting : List JobRef} (short : waiting.length < 2 ^ 63) (active : Nat)
    (order : Arrangement NodeId) (accepts : NodeId → Bool) :
    let scene := before.scene order
    let passed := before.resolver.collideInWords scene accepts store waiting active
    passed = .ok (before.resolver.collide scene accepts store waiting active) ∨
      passed = .error .overflow ∧ ∃ peer ∈ before.resolver.queue, ∃ member,
        before.view.find? peer = some member ∧ member.SurplusOverflows before.resolver.config := by
  intro scene passed
  obtain ⟨-, -, rfl⟩ := Result.map_eq_ok.1 started
  have none : Fits
      { resolver := { config, queue := view.remote.map Member.id }, view, restrictions, now } :=
    ⟨rfl, (by decide : (0 : Int) < 2 ^ 63)⟩
  have fits : before.Fits := run_keeps Fits.perform history none reached
  obtain ⟨busy, ran, -⟩ := Busy.exists_run scene waiting active (before.busy store) fits
  have words := before.resolver.collideInWords_eq scene accepts store short active
  cases broke : (before.resolver.collide scene accepts store waiting active).fault? with
  | none =>
      rw [broke] at words
      exact .inl words
  | some fault =>
      rw [broke] at words
      obtain ⟨rfl, overflows⟩ := Resolver.overflows_of_collide ran broke
      exact .inr ⟨words, overflows⟩

/-- A member asks for one job. The pass after that starts the first of three jobs, hands over the
second and keeps the third. -/
theorem collide_completes_of_asked :
    let peer : Member :=
      { id := .ofNat 1
        attributes := .ofList [(AttributeName.waitThreshold, .int (-7))] }
    let job (number : Nat) : JobHandle :=
      { spec := { id := .ofNat number }, session := default, origin := .ofNat 0, createdAt := 0 }
    let store : JobStore := ⟨#[job 7, job 8, job 9]⟩
    let config : StealingConfig := { activeThreshold := 1 }
    let start : Stealing :=
      { resolver := { config, queue := [peer.id] }
        view := ⟨.ofNat 0, none, [peer]⟩
        restrictions := ∅
        now := 0 }
    let history : List StealEvent := [.request peer.id ⟨1⟩]
    let passed (before : Stealing) : Except Fault Pass :=
      before.resolver.collideInWords (before.scene default) (fun _ => true) store [0, 1, 2] 0
    Resolver.start config start.view = .ok start.resolver ∧
      ((start.run history).toOption.map fun before => (passed before).toOption.map Pass.outcome) =
        some (some { activated := 1, rejected := 1 }) ∧
      ∀ before, start.run history = .ok before →
        passed before = .ok
            (before.resolver.collide (before.scene default) (fun _ => true) store [0, 1, 2] 0) ∨
          passed before = .error .overflow ∧ ∃ peer ∈ before.resolver.queue, ∃ member,
            before.view.find? peer = some member ∧
              member.SurplusOverflows before.resolver.config := by
  intro peer job store config start history passed
  have started : Resolver.start config start.view = .ok start.resolver := rfl
  refine ⟨started, by decide +kernel, ?_⟩
  intro before reached
  exact collide_completes started reached store (by decide) 0 default fun _ => true

/-- A peer publishes that it keeps fewer jobs than any word holds. The first pass that comes by
ends there, and the peer is lost from the queue. -/
theorem collide_overflows :
    let peer : Member :=
      { id := .ofNat 1
        attributes := .ofList [(AttributeName.waitThreshold, .int Int64.minValue)] }
    let view : GridView := ⟨.ofNat 0, none, [peer]⟩
    let resolver : Resolver := { config := {}, queue := [peer.id] }
    let scene := resolver.scene view ∅ default 0
    Resolver.start {} view = .ok resolver ∧
      resolver.collideInWords scene (fun _ => true) ∅ [] 0 = .error .overflow ∧
      (resolver.collide scene (fun _ => true) ∅ [] 0).resolver.queue = [] := by
  intro peer view resolver scene
  have words := resolver.collideInWords_eq scene (fun _ => true) ∅
    (by decide : ([] : List JobRef).length < 2 ^ 63) 0
  have broke : (resolver.collide scene (fun _ => true) ∅ [] 0).fault? = some .overflow := by
    decide +kernel
  rw [broke] at words
  exact ⟨rfl, words, by decide +kernel⟩

end Stealing

end JobGrid
