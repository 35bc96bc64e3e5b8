import JobGrid.Proofs.Balance.Picks

/-!
# Histories of balancers

A history is anything that a balancer can be asked and told, in any order. It shows how far the
balancer has come with a task session: nothing is known about the session, its picks share what
the first of them stored, or it has been mapped. A pick stores something only for a session that
is unknown; nothing but the end of its task makes a session unknown again.
-/

namespace JobGrid

/-- How far a balancer has come with a session. -/
inductive SessionPhase where
  | unknown
  /-- Something is stored that all picks share. -/
  | mapping
  | mapped
  deriving DecidableEq

namespace SessionCache

variable {α : Type}

def phase (cache : SessionCache α) (session : SessionId) : SessionPhase :=
  match cache.get? session with
  | none => .unknown
  | some (.cached _) => .mapping
  | some .mapped => .mapped

/-- Nothing changed, or something was stored for a session that was unknown. -/
def Stores (session : SessionId) (before after : SessionCache α) : Prop :=
  after = before ∨
    before.get? session = none ∧ ∃ value, after = before.insert session (.cached value)

theorem phase_eq_unknown_iff {cache : SessionCache α} {session : SessionId} :
    cache.phase session = .unknown ↔ cache.get? session = none := by
  simp only [phase]
  split <;> simp_all

theorem stores_store (cache : SessionCache α) (session : SessionId) (value : α) :
    Stores session cache (cache.store session value).2 := by
  simp only [store]
  split
  · rename_i unknown
    exact .inr ⟨unknown, value, rfl⟩
  · exact .inl rfl
  · exact .inl rfl

/-- After something was to be stored for a session, the session is known. -/
theorem phase_store_ne_unknown (cache : SessionCache α) (session : SessionId) (value : α) :
    (cache.store session value).2.phase session ≠ .unknown := by
  simp only [store]
  split
  · simp [phase]
  · rename_i known
    simp [phase, known]
  · rename_i known
    simp [phase, known]

namespace Stores

variable {session : SessionId} {before after : SessionCache α}

theorem phase_of_ne {other : SessionId} (stores : Stores session before after)
    (differs : session ≠ other) : after.phase other = before.phase other := by
  rcases stores with rfl | ⟨-, value, rfl⟩
  · rfl
  · rw [phase, Table.get?_insert_of_ne _ _ differs, phase]

theorem phase_of_known (stores : Stores session before after) {other : SessionId}
    (known : before.phase other ≠ .unknown) : after.phase other = before.phase other := by
  by_cases same : session = other
  · subst same
    rcases stores with rfl | ⟨unknown, -⟩
    · rfl
    · exact absurd (phase_eq_unknown_iff.2 unknown) known
  · exact stores.phase_of_ne same

end Stores

theorem phase_markMapped (cache : SessionCache α) (session other : SessionId) :
    (cache.markMapped session).2.phase other =
      if session = other ∧ cache.phase other ≠ .unknown then .mapped else cache.phase other := by
  by_cases same : session = other
  · subst same
    cases found : cache.get? session with
    | none => simp [markMapped, phase, found]
    | some entry => cases entry <;> simp [markMapped, phase, found]
  · simp only [same, false_and, if_false, markMapped]
    split
    · rw [phase, Table.get?_insert_of_ne _ _ same, phase]
    · rfl

theorem phase_forget (cache : SessionCache α) (session other : SessionId) :
    (cache.forget session).2.phase other =
      if session = other then .unknown else cache.phase other := by
  by_cases same : session = other
  · simp [forget, phase, same]
  · simp [forget, phase, same, Table.get?_erase_of_ne]

end SessionCache

/-- What a balancer can be asked and told. -/
inductive BalancerCall where
  /-- It is asked for a node. -/
  | pick (session : SessionId) (candidates : List Member) (spec : JobSpec) (draw : Draw)
  /-- It is told about a change in the grid. -/
  | event (event : DiscoveryEvent)
  /-- It is told what became of a session. -/
  | task (event : TaskEvent)

/-- The balancer is told that the task of a session ended. -/
def BalancerCall.Ends (session : SessionId) (call : BalancerCall) : Prop :=
  call = .task (.finished session) ∨ call = .task (.failed session)

section Stores

variable {session : SessionId} {candidates : List Member} {draw : Draw} {member : Member}

/-- The layout that a session uses is stored for a session that is unknown. -/
theorem AdaptiveBalancer.stores_of_layoutFor {balancer : AdaptiveBalancer} {layout : Layout}
    {tasks : SessionCache Layout}
    (found : balancer.layoutFor session candidates = .ok (layout, tasks)) :
    SessionCache.Stores session balancer.tasks tasks ∧ tasks.phase session ≠ .unknown := by
  cases known : balancer.tasks.get? session with
  | none =>
      simp only [layoutFor, SessionCache.lookup, known] at found
      obtain ⟨fresh, -, equal⟩ := Result.map_eq_ok.1 found
      have same : tasks = (balancer.tasks.store session fresh).2 := by rw [equal]
      rw [same]
      exact ⟨SessionCache.stores_store _ _ _, SessionCache.phase_store_ne_unknown _ _ _⟩
  | some entry =>
      have same : tasks = balancer.tasks := by
        cases entry with
        | cached stored =>
            simp only [layoutFor, SessionCache.lookup, known] at found
            split at found
            · cases found
              rfl
            · obtain ⟨fresh, -, equal⟩ := Result.map_eq_ok.1 found
              cases equal
              rfl
        | mapped =>
            simp only [layoutFor, SessionCache.lookup, known] at found
            obtain ⟨fresh, -, equal⟩ := Result.map_eq_ok.1 found
            cases equal
            rfl
      rw [same]
      exact ⟨.inl rfl, by simp [SessionCache.phase_eq_unknown_iff, known]⟩

theorem AdaptiveBalancer.stores_of_pick {balancer next : AdaptiveBalancer}
    (picked : balancer.pick session candidates draw = .ok (member, next)) :
    SessionCache.Stores session balancer.tasks next.tasks ∧
      next.tasks.phase session ≠ .unknown := by
  obtain ⟨-, layout, tasks, found, -, rfl⟩ := pick_eq_ok.1 picked
  exact stores_of_layoutFor found

theorem AffinityBalancer.stores_allowedFor (balancer : AffinityBalancer) (session : SessionId)
    (candidates : List Member) :
    SessionCache.Stores session balancer.tasks (balancer.allowedFor session candidates).2 ∧
      (balancer.allowedFor session candidates).2.phase session ≠ .unknown := by
  cases known : balancer.tasks.get? session with
  | none =>
      simp only [allowedFor, SessionCache.lookup, known]
      exact ⟨SessionCache.stores_store _ _ _, SessionCache.phase_store_ne_unknown _ _ _⟩
  | some entry =>
      have same : (balancer.allowedFor session candidates).2 = balancer.tasks := by
        cases entry <;> simp only [allowedFor, SessionCache.lookup, known]
      rw [same]
      exact ⟨.inl rfl, by simp [SessionCache.phase_eq_unknown_iff, known]⟩

/-- A pick with a key stores something for a session that is unknown; others store nothing. -/
theorem AffinityBalancer.stores_of_pick {balancer next : AffinityBalancer} {key : Option String}
    (picked : balancer.pick session candidates key draw = .ok (member, next)) :
    SessionCache.Stores session balancer.tasks next.tasks ∧
      (key.isSome → next.tasks.phase session ≠ .unknown) := by
  have stores := balancer.stores_allowedFor session candidates
  cases Picked.of_pick picked with
  | keyless => exact ⟨.inl rfl, fun keyed => absurd keyed (by simp)⟩
  | owned => exact ⟨stores.1, fun _ => stores.2⟩
  | unowned => exact ⟨stores.1, fun _ => stores.2⟩

end Stores

namespace Balancer

/-- How far the balancer has come with a session. -/
def phase : Balancer → SessionId → SessionPhase
  | adaptive inner, session => inner.tasks.phase session
  | affinity inner, session => inner.tasks.phase session

/-- Whether the picks for a job share what the first of them stored. -/
def remembers : Balancer → JobSpec → Bool
  | adaptive _, _ => true
  | affinity _, spec => spec.affinityKey.isSome

/-- Lets something be asked or told. A pick that fails changes nothing. -/
def perform (balancer : Balancer) : BalancerCall → Balancer
  | .pick session candidates spec draw =>
      match balancer.pick session candidates spec draw with
      | .ok (_, next) => next
      | .error _ => balancer
  | .event event => balancer.onEvent event
  | .task event => balancer.onTask event

/-- Lets some things be asked and told, one after another. -/
def run (balancer : Balancer) (history : List BalancerCall) : Balancer :=
  history.foldl perform balancer

theorem run_append (balancer : Balancer) (history later : List BalancerCall) :
    balancer.run (history ++ later) = (balancer.run history).run later :=
  List.foldl_append

theorem run_cons (balancer : Balancer) (call : BalancerCall) (later : List BalancerCall) :
    balancer.run (call :: later) = (balancer.perform call).run later := rfl

variable {balancer next : Balancer} {session other : SessionId} {candidates : List Member}
  {spec : JobSpec} {draw : Draw} {member : Member}

section Pick

variable (picked : balancer.pick session candidates spec draw = .ok (member, next))

include picked

theorem phase_pick_of_ne (differs : session ≠ other) :
    next.phase other = balancer.phase other := by
  cases balancer with
  | adaptive inner =>
      obtain ⟨found, chosen, equal⟩ := Result.map_eq_ok.1 picked
      cases equal
      exact (AdaptiveBalancer.stores_of_pick chosen).1.phase_of_ne differs
  | affinity inner =>
      obtain ⟨found, chosen, equal⟩ := Result.map_eq_ok.1 picked
      cases equal
      exact (AffinityBalancer.stores_of_pick chosen).1.phase_of_ne differs

theorem phase_pick_of_known (known : balancer.phase other ≠ .unknown) :
    next.phase other = balancer.phase other := by
  cases balancer with
  | adaptive inner =>
      obtain ⟨found, chosen, equal⟩ := Result.map_eq_ok.1 picked
      cases equal
      exact (AdaptiveBalancer.stores_of_pick chosen).1.phase_of_known known
  | affinity inner =>
      obtain ⟨found, chosen, equal⟩ := Result.map_eq_ok.1 picked
      cases equal
      exact (AffinityBalancer.stores_of_pick chosen).1.phase_of_known known

/-- After a pick whose like share what is stored, the session is known. -/
theorem phase_pick_ne_unknown (remembered : balancer.remembers spec = true) :
    next.phase session ≠ .unknown := by
  cases balancer with
  | adaptive inner =>
      obtain ⟨found, chosen, equal⟩ := Result.map_eq_ok.1 picked
      cases equal
      exact (AdaptiveBalancer.stores_of_pick chosen).2
  | affinity inner =>
      obtain ⟨found, chosen, equal⟩ := Result.map_eq_ok.1 picked
      cases equal
      exact (AffinityBalancer.stores_of_pick chosen).2 remembered

end Pick

@[simp] theorem phase_onEvent (balancer : Balancer) (event : DiscoveryEvent)
    (session : SessionId) : (balancer.onEvent event).phase session = balancer.phase session := by
  cases balancer with
  | adaptive inner =>
      simp only [onEvent, AdaptiveBalancer.onEvent, phase]
      split
      · rfl
      · rfl
  | affinity inner =>
      simp only [onEvent, AffinityBalancer.onEvent, AffinityBalancer.add, phase]
      split
      · split
        · rfl
        · rfl
      all_goals rfl

theorem phase_mapped (balancer : Balancer) (session other : SessionId) :
    (balancer.onTask (.mapped session)).phase other =
      if session = other ∧ balancer.phase other ≠ .unknown then .mapped
      else balancer.phase other := by
  cases balancer with
  | adaptive inner => exact inner.tasks.phase_markMapped session other
  | affinity inner => exact inner.tasks.phase_markMapped session other

theorem phase_ended (balancer : Balancer) {event : TaskEvent} {session : SessionId}
    (ended : event = .finished session ∨ event = .failed session) (other : SessionId) :
    (balancer.onTask event).phase other =
      if session = other then .unknown else balancer.phase other := by
  cases balancer with
  | adaptive inner =>
      rcases ended with rfl | rfl
      all_goals exact inner.tasks.phase_forget session other
  | affinity inner =>
      rcases ended with rfl | rfl
      all_goals exact inner.tasks.phase_forget session other

/-- A session that is known stays so, and a mapped one stays mapped, until its task ends. -/
theorem phase_perform {call : BalancerCall} (known : balancer.phase session ≠ .unknown)
    (goesOn : ¬ call.Ends session) :
    (balancer.perform call).phase session = balancer.phase session ∨
      (balancer.perform call).phase session = .mapped := by
  cases call with
  | pick other candidates spec draw =>
      left
      simp only [perform]
      split
      · rename_i picked
        exact phase_pick_of_known picked known
      · rfl
  | event event => exact .inl (phase_onEvent balancer event session)
  | task event =>
      simp only [perform]
      cases event with
      | mapped other =>
          rw [phase_mapped]
          split
          · exact .inr rfl
          · exact .inl rfl
      | finished other =>
          have differs : other ≠ session := fun same => goesOn (same ▸ .inl rfl)
          rw [phase_ended _ (.inl rfl), if_neg differs]
          exact .inl rfl
      | failed other =>
          have differs : other ≠ session := fun same => goesOn (same ▸ .inr rfl)
          rw [phase_ended _ (.inr rfl), if_neg differs]
          exact .inl rfl

/-- A session stays known until its task ends. -/
theorem known_run {history : List BalancerCall} (known : balancer.phase session ≠ .unknown)
    (goesOn : ∀ call ∈ history, ¬ call.Ends session) :
    (balancer.run history).phase session ≠ .unknown := by
  induction history generalizing balancer with
  | nil => exact known
  | cons call later ih =>
      rw [List.forall_mem_cons] at goesOn
      refine ih ?_ goesOn.2
      rcases phase_perform known goesOn.1 with same | mapped
      · rw [same]
        exact known
      · rw [mapped]
        decide

/-- A session stays mapped until its task ends. -/
theorem mapped_run {history : List BalancerCall} (mapped : balancer.phase session = .mapped)
    (goesOn : ∀ call ∈ history, ¬ call.Ends session) :
    (balancer.run history).phase session = .mapped := by
  induction history generalizing balancer with
  | nil => exact mapped
  | cons call later ih =>
      rw [List.forall_mem_cons] at goesOn
      refine ih ?_ goesOn.2
      rcases phase_perform (by rw [mapped]; decide) goesOn.1 with same | done
      · exact same.trans mapped
      · exact done

end Balancer

end JobGrid
