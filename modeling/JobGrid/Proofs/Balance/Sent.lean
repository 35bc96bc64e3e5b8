import JobGrid.Proofs.Balance.Attempts
import Mathlib.Data.List.DropRight
import Mathlib.Data.List.Induction

/-!
# Jobs sent

A balancer that spreads jobs by load tells its probe how many jobs it sent. The count of jobs
that it sent to a node is the number of its picks that found the node since discovery told about
the node last. A layout asks the probe about one candidate after another, each with this count,
and stops at the first one that cannot be laid out. To see this, the calls of the probe are
written down beside what they come to.
-/

namespace JobGrid

/-- A question to a probe: the load of a node that was sent so many jobs. -/
structure ProbeCall where
  member : Member
  sent : Nat

/-- What something came to, and what the probe was asked on the way. -/
structure Probed (α : Type) where
  calls : List ProbeCall
  result : α

namespace Layout

variable {probe : LoadProbe} {sent : NodeId → Nat} {members : List Member}

/-- The loads of some nodes, up to the first illegal one, with the calls of the probe. -/
def probedLoads (probe : LoadProbe) (sent : NodeId → Nat) :
    List Member → Probed (Except Failure (List Float))
  | [] => ⟨[], .ok []⟩
  | member :: rest =>
      let call : ProbeCall := ⟨member, sent member.id⟩
      match probe call.member call.sent with
      | .error fault => ⟨[call], .error (.fault fault)⟩
      | .ok load =>
          if isLegal load then
            let others := probedLoads probe sent rest
            ⟨call :: others.calls, others.result.map (load :: ·)⟩
          else ⟨[call], .error (.error (.illegalLoad member.id load))⟩

/-- Whether the probe gives a load for a node that can be laid out. -/
def fits (probe : LoadProbe) (sent : NodeId → Nat) (member : Member) : Bool :=
  match probe member (sent member.id) with
  | .ok load => isLegal load
  | .error _ => false

/-- The nodes up to the first one that cannot be laid out, which is among them. -/
def asked (probe : LoadProbe) (sent : NodeId → Nat) (members : List Member) : List Member :=
  members.takeWhile (fits probe sent) ++ (members.dropWhile (fits probe sent)).take 1

theorem result_probedLoads (members : List Member) :
    (probedLoads probe sent members).result = loads probe sent members := by
  induction members with
  | nil => rfl
  | cons member rest ih =>
      simp only [probedLoads, loads]
      cases probe member (sent member.id) with
      | error fault => rfl
      | ok load =>
          simp only
          split
          · exact congrArg (Except.map (load :: ·)) ih
          · rfl

/-- The probe is asked once about each node up to the first one that cannot be laid out. -/
theorem calls_probedLoads (members : List Member) :
    (probedLoads probe sent members).calls =
      (asked probe sent members).map fun member => ⟨member, sent member.id⟩ := by
  induction members with
  | nil => rfl
  | cons member rest ih =>
      simp only [probedLoads]
      cases measured : probe member (sent member.id) with
      | error fault => simp [asked, fits, measured]
      | ok load =>
          simp only
          split
          · rename_i legal
            simp [asked, fits, measured, legal, ih]
          · rename_i illegal
            simp [asked, fits, measured, illegal]

end Layout

namespace AdaptiveBalancer

variable {session : SessionId} {candidates : List Member}

/-! ## The calls of the probe -/

/-- The layout of some candidates at present, with the calls of the probe. -/
def probedLayout (balancer : AdaptiveBalancer) (candidates : List Member) :
    Probed (Except Failure Layout) :=
  let measured := Layout.probedLoads balancer.probe balancer.sentJobs candidates
  ⟨measured.calls, measured.result.map fun loads => ⟨Slices.bounds loads, candidates⟩⟩

/-- Picks from a layout of the candidates that is made for this pick alone. -/
def probedAfresh (balancer : AdaptiveBalancer) (candidates : List Member) (draw : Draw) :
    Probed (Attempt AdaptiveBalancer) :=
  let laid := balancer.probedLayout candidates
  match laid.result with
  | .error failure => ⟨laid.calls, ⟨.error failure, balancer⟩⟩
  | .ok fresh => ⟨laid.calls, balancer.choose fresh draw⟩

/-- Picks from the layout that a session shares, while all its nodes are candidates. -/
def probedShared (balancer : AdaptiveBalancer) (shared : Layout) (candidates : List Member)
    (draw : Draw) : Probed (Attempt AdaptiveBalancer) :=
  if shared.within candidates then ⟨[], balancer.choose shared draw⟩
  else balancer.probedAfresh candidates draw

/-- Picks a node for a job of a session, step by step, with the calls of the probe. -/
def probedAttempt (balancer : AdaptiveBalancer) (session : SessionId) (candidates : List Member)
    (draw : Draw) : Probed (Attempt AdaptiveBalancer) :=
  if candidates.isEmpty then ⟨[], ⟨.error (.error (.emptyCandidates session)), balancer⟩⟩
  else
    match balancer.tasks.lookup session with
    | .cached shared => balancer.probedShared shared candidates draw
    | .mapped => balancer.probedAfresh candidates draw
    | .miss =>
        let laid := balancer.probedLayout candidates
        match laid.result with
        | .error failure => ⟨laid.calls, ⟨.error failure, balancer⟩⟩
        | .ok fresh =>
            let (shared, tasks) := balancer.tasks.store session fresh
            let picked := { balancer with tasks }.probedShared shared candidates draw
            ⟨laid.calls ++ picked.calls, picked.result⟩

/-- Whether a pick uses a layout that was made for an earlier pick. -/
def reuses (balancer : AdaptiveBalancer) (session : SessionId) (candidates : List Member) : Bool :=
  match balancer.tasks.lookup session with
  | .cached shared => shared.within candidates
  | .mapped | .miss => false

theorem result_probedLayout (balancer : AdaptiveBalancer) (candidates : List Member) :
    (balancer.probedLayout candidates).result = balancer.layout candidates := by
  rw [probedLayout, Layout.result_probedLoads, layout, Layout.build]

theorem probedAfresh_eq (balancer : AdaptiveBalancer) (candidates : List Member) (draw : Draw) :
    balancer.probedAfresh candidates draw =
      ⟨(balancer.probedLayout candidates).calls, balancer.chooseAfresh candidates draw⟩ := by
  simp only [probedAfresh, result_probedLayout, chooseAfresh]
  cases balancer.layout candidates <;> rfl

/-- To write the calls down changes nothing about a pick. -/
theorem result_probedAttempt (balancer : AdaptiveBalancer) (session : SessionId)
    (candidates : List Member) (draw : Draw) :
    (balancer.probedAttempt session candidates draw).result =
      balancer.attempt session candidates draw := by
  have shares : ∀ (balancer : AdaptiveBalancer) (shared : Layout),
      (balancer.probedShared shared candidates draw).result =
        balancer.chooseShared shared candidates draw := by
    intro balancer shared
    rw [probedShared, probedAfresh_eq, chooseShared]
    split <;> rfl
  rw [probedAttempt, attempt]
  split
  · rfl
  · cases balancer.tasks.lookup session with
    | cached shared => exact shares balancer shared
    | mapped => exact congrArg Probed.result (balancer.probedAfresh_eq candidates draw)
    | miss =>
        simp only [result_probedLayout]
        cases balancer.layout candidates with
        | error failure => rfl
        | ok fresh => exact shares _ _

/-- A pick asks what a layout of its candidates asks, or nothing. It makes no second layout. -/
theorem calls_probedAttempt (balancer : AdaptiveBalancer) (session : SessionId)
    (candidates : List Member) (draw : Draw) :
    (balancer.probedAttempt session candidates draw).calls =
      if balancer.reuses session candidates then []
      else (balancer.probedLayout candidates).calls := by
  rw [probedAttempt, reuses]
  split
  · rename_i none
    rw [List.isEmpty_iff.1 none]
    exact (ite_self _).symm
  · cases known : balancer.tasks.lookup session with
    | cached shared =>
        simp only [probedShared, probedAfresh_eq]
        split <;> rfl
    | mapped => simp [probedAfresh_eq]
    | miss =>
        simp only [result_probedLayout]
        cases made : balancer.layout candidates with
        | error failure => simp
        | ok fresh =>
            -- What is stored is the layout of these candidates, so all its nodes are candidates.
            have unknown := SessionCache.get?_of_lookup_miss known
            simp [SessionCache.store, unknown, probedShared, within_of_layout made]

/-! ## Histories -/

/-- Lets something be asked or told. A pick that fails changes nothing. -/
def perform (balancer : AdaptiveBalancer) : BalancerCall → AdaptiveBalancer
  | .pick session candidates _ draw => (balancer.attempt session candidates draw).after
  | .event event => balancer.onEvent event
  | .task event => balancer.onTask event

/-- Lets some things be asked and told, one after another. -/
def run (balancer : AdaptiveBalancer) (history : List BalancerCall) : AdaptiveBalancer :=
  history.foldl perform balancer

end AdaptiveBalancer

/-- What a call says about the jobs that were sent to a node. -/
inductive SentNote where
  /-- A pick found the node. -/
  | picked (node : NodeId)
  /-- Discovery told about the node. -/
  | told (node : NodeId)
  deriving DecidableEq

namespace SentNote

/-- The number of picks that found a node since discovery told about it last. -/
def since (node : NodeId) (notes : List SentNote) : Nat :=
  (notes.rtakeWhile fun note => note ≠ told node).count (picked node)

theorem since_concat_picked (node other : NodeId) (notes : List SentNote) :
    since node (notes ++ [picked other]) =
      since node notes + if other = node then 1 else 0 := by
  by_cases same : other = node <;> simp [since, same]

theorem since_concat_told (node other : NodeId) (notes : List SentNote) :
    since node (notes ++ [told other]) = if other = node then 0 else since node notes := by
  by_cases same : other = node <;> simp [since, same]

end SentNote

namespace AdaptiveBalancer

/-- What a call says about the jobs that were sent, if it says anything. -/
def note? (balancer : AdaptiveBalancer) : BalancerCall → Option SentNote
  | .pick session candidates _ draw =>
      match balancer.pick session candidates draw with
      | .ok (member, _) => some (.picked member.id)
      | .error _ => none
  | .event event => some (.told event.member.id)
  | .task _ => none

/-- What some calls say about the jobs that were sent, one after another. -/
def notes (balancer : AdaptiveBalancer) : List BalancerCall → List SentNote
  | [] => []
  | call :: later => (balancer.note? call).toList ++ (balancer.perform call).notes later

theorem run_concat (balancer : AdaptiveBalancer) (history : List BalancerCall)
    (call : BalancerCall) :
    balancer.run (history ++ [call]) = (balancer.run history).perform call := by
  simp [run]

theorem notes_concat (balancer : AdaptiveBalancer) (history : List BalancerCall)
    (call : BalancerCall) :
    balancer.notes (history ++ [call]) =
      balancer.notes history ++ ((balancer.run history).note? call).toList := by
  induction history generalizing balancer with
  | nil => simp [notes, run]
  | cons first later ih =>
      rw [List.cons_append, notes, notes, ih, List.append_assoc]
      rfl

/-- The balancer of a node that spreads jobs by load goes through the same history. -/
theorem adaptive_run (balancer : AdaptiveBalancer) (history : List BalancerCall) :
    (Balancer.adaptive balancer).run history = .adaptive (balancer.run history) := by
  induction history generalizing balancer with
  | nil => rfl
  | cons call later ih =>
      have step : (Balancer.adaptive balancer).perform call =
          .adaptive (balancer.perform call) := by
        cases call with
        | pick session candidates spec draw =>
            simp only [Balancer.perform, Balancer.pick, perform, attempt_eq]
            cases balancer.pick session candidates draw <;> rfl
        | event event => rfl
        | task event => rfl
      rw [Balancer.run_cons, step, ih]
      rfl

theorem sent_of_pick {balancer next : AdaptiveBalancer} {member : Member} {draw : Draw}
    (picked : balancer.pick session candidates draw = .ok (member, next)) :
    next.sent = balancer.sent.insert member.id (balancer.sentJobs member.id + 1) := by
  obtain ⟨-, layout, tasks, -, -, rfl⟩ := pick_eq_ok.1 picked
  rfl

/-- What one call does to the counts: a pick adds to that of the node it found, and whatever
discovery tells about a node sets its count back. -/
theorem sentJobs_perform (balancer : AdaptiveBalancer) (call : BalancerCall) (node : NodeId) :
    (balancer.perform call).sentJobs node =
      match balancer.note? call with
      | some (.picked other) => balancer.sentJobs node + if other = node then 1 else 0
      | some (.told other) => if other = node then 0 else balancer.sentJobs node
      | none => balancer.sentJobs node := by
  cases call with
  | pick session candidates spec draw =>
      simp only [perform, attempt_eq, note?]
      cases picked : balancer.pick session candidates draw with
      | error failure => rfl
      | ok found =>
          obtain ⟨member, next⟩ := found
          simp only [Attempt.ofPick, sentJobs, Table.getD, sent_of_pick picked, Table.get?_insert]
          by_cases same : member.id = node <;> simp [same]
  | event event =>
      simp only [perform, note?, onEvent]
      split
      · simp only [sentJobs, Table.getD, Table.get?_erase]
        split <;> rfl
      · simp only [sentJobs, Table.getD, Table.get?_insert]
        split <;> rfl
  | task event => cases event <;> rfl

theorem probe_run (balancer : AdaptiveBalancer) (history : List BalancerCall) :
    (balancer.run history).probe = balancer.probe := by
  induction history using List.reverseRecOn with
  | nil => rfl
  | append_singleton earlier call ih =>
      rw [run_concat, ← ih]
      cases call with
      | pick session candidates spec draw =>
          simp only [perform, attempt_eq]
          cases picked : (balancer.run earlier).pick session candidates draw with
          | error failure => rfl
          | ok found => exact probe_of_pick picked
      | event event =>
          simp only [perform, onEvent]
          split <;> rfl
      | task event => cases event <;> rfl

theorem sentJobs_run (probe : LoadProbe) (history : List BalancerCall) (node : NodeId) :
    (run { probe } history).sentJobs node = SentNote.since node (notes { probe } history) := by
  induction history using List.reverseRecOn with
  | nil => rfl
  | append_singleton earlier call ih =>
      rw [run_concat, sentJobs_perform, notes_concat, ih]
      cases (run { probe } earlier).note? call with
      | none => simp
      | some note =>
          cases note with
          | picked other => exact (SentNote.since_concat_picked node other _).symm
          | told other => exact (SentNote.since_concat_told node other _).symm

/-- After any history, the count of a node is the number of picks that found it since discovery told
about it last. Whoever lays out some candidates then, asks the probe once about each of them, in
order and with these counts, up to the first one that cannot be laid out. A pick asks just this when
it makes a layout, and nothing when it uses an earlier one. -/
theorem probed_with_counts (probe : LoadProbe) (history : List BalancerCall) :
    let reached := run { probe } history
    let count (node : NodeId) : Nat := SentNote.since node (notes { probe } history)
    let calls (candidates : List Member) : List ProbeCall :=
      (Layout.asked probe count candidates).map fun member => ⟨member, count member.id⟩
    (Balancer.adaptive { probe }).run history = .adaptive reached ∧
      (∀ node, reached.sentJobs node = count node) ∧
      (∀ candidates, (reached.probedLayout candidates).result = reached.layout candidates ∧
        (reached.probedLayout candidates).calls = calls candidates) ∧
      ∀ session candidates draw,
        let picked := reached.probedAttempt session candidates draw
        picked.result = .ofPick reached (reached.pick session candidates draw) ∧
          picked.calls = if reached.reuses session candidates then [] else calls candidates := by
  intro reached count calls
  have counted : reached.sentJobs = count := funext (sentJobs_run probe history)
  have unchanged : reached.probe = probe := probe_run { probe } history
  have laid : ∀ candidates, (reached.probedLayout candidates).calls = calls candidates := by
    intro candidates
    simp only [probedLayout, counted, unchanged]
    exact Layout.calls_probedLoads candidates
  refine ⟨adaptive_run { probe } history, congrFun counted, fun candidates => ?_,
    fun session candidates draw => ⟨?_, ?_⟩⟩
  · exact ⟨reached.result_probedLayout candidates, laid candidates⟩
  · rw [result_probedAttempt, attempt_eq]
  · rw [calls_probedAttempt, laid]

end AdaptiveBalancer

end JobGrid
