import JobGrid.Proofs.Balance.History

/-!
# Picks after a session was mapped

What was picked earlier for a session has no say once the session is mapped: each pick is
decided over its own candidates, as by a balancer that remembers nothing. A session that is
mapped before anything was stored for it is the exception, since the balancer takes the next
pick for its first one and stores what that pick saw.
-/

namespace JobGrid

namespace AdaptiveBalancer

variable {balancer : AdaptiveBalancer} {session : SessionId}

/-- Unless a stored layout is shared, the layout is that of the candidates. -/
theorem layout_of_not_mapping (alone : balancer.tasks.phase session ≠ .mapping)
    (candidates : List Member) :
    (balancer.layoutFor session candidates).map Prod.fst = balancer.layout candidates := by
  have undone : ∀ {built : Except Failure Layout}
      {remember : Layout → Layout × SessionCache Layout}, (∀ fresh, (remember fresh).1 = fresh) →
      (built.map remember).map Prod.fst = built := by
    intro built remember same
    cases built with
    | error failure => rfl
    | ok fresh => exact congrArg Except.ok (same fresh)
  cases known : balancer.tasks.get? session with
  | none =>
      simp only [layoutFor, SessionCache.lookup, known]
      apply undone
      intro fresh
      simp only [SessionCache.store, known]
  | some entry =>
      cases entry with
      | cached stored => exact absurd (by simp [SessionCache.phase, known]) alone
      | mapped =>
          simp only [layoutFor, SessionCache.lookup, known]
          exact undone fun _ => rfl

/-- A pick is decided by the layout that the session uses. -/
theorem member_pick (balancer : AdaptiveBalancer) (session : SessionId)
    (candidates : List Member) (draw : Draw) :
    (balancer.pick session candidates draw).map Prod.fst =
      if candidates.isEmpty then .error (.error (.emptyCandidates session))
      else
        match (balancer.layoutFor session candidates).map Prod.fst with
        | .error failure => .error failure
        | .ok layout =>
            match layout.pick draw.fraction with
            | .error fault => .error (.fault fault)
            | .ok member => .ok member := by
  simp only [pick]
  split
  · rfl
  · cases balancer.layoutFor session candidates with
    | error failure => rfl
    | ok found =>
        simp only [Except.map]
        cases found.1.pick draw.fraction with
        | error fault => rfl
        | ok member => rfl

theorem pick_of_not_mapping (alone : balancer.tasks.phase session ≠ .mapping)
    (candidates : List Member) (draw : Draw) :
    (balancer.pick session candidates draw).map Prod.fst =
      (({ balancer with tasks := ∅ } : AdaptiveBalancer).pick session candidates draw).map
        Prod.fst := by
  have fresh : ({ balancer with tasks := ∅ } : AdaptiveBalancer).tasks.phase session ≠
      .mapping := by
    simp [SessionCache.phase]
  rw [member_pick, member_pick, layout_of_not_mapping alone, layout_of_not_mapping fresh]
  rfl

end AdaptiveBalancer

namespace AffinityBalancer

variable {balancer : AffinityBalancer} {session : SessionId}

/-- Unless stored nodes are shared, a session may use all candidates. -/
theorem allowed_of_not_mapping (alone : balancer.tasks.phase session ≠ .mapping)
    (candidates : List Member) :
    (balancer.allowedFor session candidates).1 = candidates.map Member.id := by
  cases known : balancer.tasks.get? session with
  | none => simp only [allowedFor, SessionCache.lookup, known, SessionCache.store]
  | some entry =>
      cases entry with
      | cached nodes => exact absurd (by simp [SessionCache.phase, known]) alone
      | mapped => simp only [allowedFor, SessionCache.lookup, known]

/-- A pick is decided by the nodes that the session may use. -/
theorem member_pick (balancer : AffinityBalancer) (session : SessionId)
    (candidates : List Member) (key : Option String) (draw : Draw) :
    (balancer.pick session candidates key draw).map Prod.fst =
      if candidates.isEmpty then .error (.error (.emptyCandidates session))
      else
        match key.bind
            (balancer.ownerOf? (balancer.allowedFor session candidates).1 candidates) with
        | some member => .ok member
        | none => anyOf session candidates draw := by
  have chance : ∀ next : AffinityBalancer,
      ((anyOf session candidates draw).map fun member => (member, next)).map Prod.fst =
        anyOf session candidates draw := by
    intro next
    cases anyOf session candidates draw with
    | error failure => rfl
    | ok member => rfl
  simp only [pick]
  split
  · rfl
  · cases key with
    | none => exact chance balancer
    | some key =>
        simp only [Option.bind_some]
        cases balancer.ownerOf? (balancer.allowedFor session candidates).1 candidates key with
        | none => exact chance _
        | some member => rfl

theorem pick_of_not_mapping (alone : balancer.tasks.phase session ≠ .mapping)
    (candidates : List Member) (key : Option String) (draw : Draw) :
    (balancer.pick session candidates key draw).map Prod.fst =
      (({ balancer with tasks := ∅ } : AffinityBalancer).pick session candidates key draw).map
        Prod.fst := by
  have fresh : ({ balancer with tasks := ∅ } : AffinityBalancer).tasks.phase session ≠
      .mapping := by
    simp [SessionCache.phase]
  rw [member_pick, member_pick, allowed_of_not_mapping alone, allowed_of_not_mapping fresh]
  rfl

end AffinityBalancer

namespace Balancer

variable {balancer : Balancer} {session : SessionId}

/-- The balancer with the same ring and the same figures that knows no session. -/
def withoutMemory : Balancer → Balancer
  | adaptive inner => adaptive { inner with tasks := ∅ }
  | affinity inner => affinity { inner with tasks := ∅ }

/-- Unless the picks of a session share what is stored, each of them is decided over its
candidates. -/
theorem pick_of_not_mapping (alone : balancer.phase session ≠ .mapping)
    (candidates : List Member) (spec : JobSpec) (draw : Draw) :
    (balancer.pick session candidates spec draw).map Prod.fst =
      (balancer.withoutMemory.pick session candidates spec draw).map Prod.fst := by
  have outer : ∀ {β : Type} (picked : Except Failure (Member × β)) (wrap : β → Balancer),
      (picked.map fun found => (found.1, wrap found.2)).map Prod.fst = picked.map Prod.fst := by
    intro β picked wrap
    cases picked with
    | error failure => rfl
    | ok found => rfl
  cases balancer with
  | adaptive inner =>
      simp only [pick, withoutMemory, outer]
      exact AdaptiveBalancer.pick_of_not_mapping alone candidates draw
  | affinity inner =>
      simp only [pick, withoutMemory, outer]
      exact AffinityBalancer.pick_of_not_mapping alone candidates spec.affinityKey draw

/-- A pick of the session after which the balancer remembers it. -/
def Remembered (balancer : Balancer) (session : SessionId) (call : BalancerCall) : Prop :=
  ∃ candidates spec draw, call = .pick session candidates spec draw ∧
    balancer.remembers spec = true

/-- Balancers stay what they are. -/
theorem remembers_perform (balancer : Balancer) (call : BalancerCall) (spec : JobSpec) :
    (balancer.perform call).remembers spec = balancer.remembers spec := by
  cases call with
  | pick session candidates other draw =>
      simp only [perform]
      split
      · rename_i picked
        cases balancer with
        | adaptive inner =>
            obtain ⟨found, -, equal⟩ := Result.map_eq_ok.1 picked
            cases equal
            rfl
        | affinity inner =>
            obtain ⟨found, -, equal⟩ := Result.map_eq_ok.1 picked
            cases equal
            rfl
      · rfl
  | event event => cases balancer <;> rfl
  | task event => cases balancer <;> rfl

theorem remembers_run (balancer : Balancer) (history : List BalancerCall) (spec : JobSpec) :
    (balancer.run history).remembers spec = balancer.remembers spec := by
  induction history generalizing balancer with
  | nil => rfl
  | cons call later ih => rw [run_cons, ih, remembers_perform]

/-- A session is unknown until something is stored for it. -/
theorem unknown_perform {call : BalancerCall} (unknown : balancer.phase session = .unknown)
    (forgettable : ¬ balancer.Remembered session call) :
    (balancer.perform call).phase session = .unknown := by
  cases call with
  | pick other candidates spec draw =>
      simp only [perform]
      split
      · rename_i member next picked
        by_cases same : other = session
        · subst same
          cases balancer with
          | adaptive inner => exact absurd ⟨candidates, spec, draw, rfl, rfl⟩ forgettable
          | affinity inner =>
              have keyless : spec.affinityKey = none := by
                rw [← Option.not_isSome_iff_eq_none]
                exact fun keyed => forgettable ⟨candidates, spec, draw, rfl, keyed⟩
              obtain ⟨found, chosen, equal⟩ := Result.map_eq_ok.1 picked
              simp only [AffinityBalancer.pick, keyless] at chosen
              split at chosen
              · cases chosen
              · obtain ⟨one, -, kept⟩ := Result.map_eq_ok.1 chosen
                cases kept
                cases equal
                exact unknown
        · rw [phase_pick_of_ne picked same]
          exact unknown
      · exact unknown
  | event event => exact (phase_onEvent balancer event session).trans unknown
  | task event =>
      simp only [perform]
      cases event with
      | mapped other => simp [phase_mapped, unknown]
      | finished other => simp [phase_ended balancer (.inl rfl), unknown]
      | failed other => simp [phase_ended balancer (.inr rfl), unknown]

theorem unknown_run {history : List BalancerCall} (unknown : balancer.phase session = .unknown)
    (forgettable : ∀ call ∈ history, ¬ balancer.Remembered session call) :
    (balancer.run history).phase session = .unknown := by
  induction history generalizing balancer with
  | nil => exact unknown
  | cons call later ih =>
      rw [List.forall_mem_cons] at forgettable
      refine ih (unknown_perform unknown forgettable.1) ?_
      intro other member remembered
      simp only [Remembered, remembers_perform] at remembered
      exact forgettable.2 other member remembered

/-- A session is known after a pick that is remembered, until its task ends. -/
theorem known_of_remembered {earlier between : List BalancerCall} {candidates : List Member}
    {spec : JobSpec} {draw : Draw} {found : Member × Balancer}
    (picked : (balancer.run earlier).pick session candidates spec draw = .ok found)
    (remembered : balancer.remembers spec = true)
    (goesOn : ∀ call ∈ between, ¬ call.Ends session) :
    (balancer.run (earlier ++ .pick session candidates spec draw :: between)).phase session ≠
      .unknown := by
  rw [run_append, run_cons]
  refine known_run ?_ goesOn
  rw [perform, picked]
  exact phase_pick_ne_unknown picked (by rw [remembers_run, remembered])

/-- After a session was mapped and until its task ends, each pick of the session is decided over
its own candidates, as by a balancer that knows no session. This leaves out sessions that were
unknown when they were mapped and of which a pick has been remembered since. -/
theorem pick_of_mapped {balancer : Balancer} {session : SessionId}
    {earlier later : List BalancerCall} (goesOn : ∀ call ∈ later, ¬ call.Ends session)
    (forgettable : (balancer.run earlier).phase session = .unknown →
      ∀ call ∈ later, ¬ balancer.Remembered session call)
    (candidates : List Member) (spec : JobSpec) (draw : Draw) :
    let reached := balancer.run (earlier ++ .task (.mapped session) :: later)
    (reached.pick session candidates spec draw).map Prod.fst =
      (reached.withoutMemory.pick session candidates spec draw).map Prod.fst := by
  intro reached
  apply pick_of_not_mapping
  simp only [reached, run_append, run_cons, perform]
  -- Mapping does not mark a session that is unknown, so it must stay unknown instead.
  by_cases unknown : (balancer.run earlier).phase session = .unknown
  · have still : ((balancer.run earlier).onTask (.mapped session)).phase session = .unknown := by
      simp [phase_mapped, unknown]
    have same : ∀ spec, ((balancer.run earlier).onTask (.mapped session)).remembers spec =
        balancer.remembers spec := by
      intro spec
      rw [← remembers_run balancer earlier]
      exact remembers_perform _ (.task (.mapped session)) spec
    rw [unknown_run still]
    · decide
    · intro call member remembered
      simp only [Remembered, same] at remembered
      exact forgettable unknown call member remembered
  · have mapped : ((balancer.run earlier).onTask (.mapped session)).phase session = .mapped := by
      simp [phase_mapped, unknown]
    rw [mapped_run mapped goesOn]
    decide

/-- The first pick of a session saw one member only. Once the session is mapped, a pick finds the
other member that owns its key. -/
theorem pick_of_mapped_of_narrow :
    let session : SessionId := .ofNat 5
    let one : Member := { id := .ofNat 1 }
    let two : Member := { id := .ofNat 2 }
    let spec : JobSpec := { id := .ofNat 7, affinityKey := some "k" }
    let places : List Place := [⟨5, two.id⟩, ⟨9, one.id⟩]
    let balancer : Balancer :=
      .affinity { config := {}, ring := { seed := [], digest := fun _ => some 3, places } }
    let earlier : List BalancerCall := [.pick session [one] spec default]
    let later : List BalancerCall := [.pick session [one] spec default]
    let reached := balancer.run (earlier ++ .task (.mapped session) :: later)
    (∀ call ∈ later, ¬ call.Ends session) ∧ (balancer.run earlier).phase session ≠ .unknown ∧
      (reached.pick session [one, two] spec default).toOption.map (·.1.id) = some two.id ∧
      (reached.pick session [one, two] spec default).map Prod.fst =
        (reached.withoutMemory.pick session [one, two] spec default).map Prod.fst := by
  intro session one two spec places balancer earlier later reached
  have goesOn : ∀ call ∈ later, ¬ call.Ends session := by simp [later, BalancerCall.Ends]
  have known : (balancer.run earlier).phase session ≠ .unknown := by
    obtain ⟨found, picked⟩ : ∃ found, balancer.pick session [one] spec default = .ok found :=
      ⟨_, rfl⟩
    show (balancer.run ([] ++ .pick session [one] spec default :: [])).phase session ≠ .unknown
    exact known_of_remembered picked rfl fun _ none => absurd none List.not_mem_nil
  refine ⟨goesOn, known, by decide, ?_⟩
  exact pick_of_mapped goesOn (fun unknown => absurd unknown known) _ _ _

/-- A session is mapped before anything was picked for it, as when its jobs stayed on their own
node. The next pick sees one member only, and the pick after it does not find the other member,
which owns its key. -/
theorem pick_of_mapped_stale :
    let session : SessionId := .ofNat 5
    let one : Member := { id := .ofNat 1 }
    let two : Member := { id := .ofNat 2 }
    let spec : JobSpec := { id := .ofNat 7, affinityKey := some "k" }
    let places : List Place := [⟨5, two.id⟩, ⟨9, one.id⟩]
    let balancer : Balancer :=
      .affinity { config := {}, ring := { seed := [], digest := fun _ => some 3, places } }
    let later : List BalancerCall := [.pick session [one] spec default]
    let reached := balancer.run (.task (.mapped session) :: later)
    (∀ call ∈ later, ¬ call.Ends session) ∧
      (reached.pick session [one, two] spec default).map Prod.fst ≠
        (reached.withoutMemory.pick session [one, two] spec default).map Prod.fst := by
  intro session one two spec places balancer later reached
  refine ⟨by simp [later, BalancerCall.Ends], ?_⟩
  intro same
  have owners := congrArg (fun picked => picked.toOption.map Member.id) same
  revert owners
  decide

end Balancer

end JobGrid
