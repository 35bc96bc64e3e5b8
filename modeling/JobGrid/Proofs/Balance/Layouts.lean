import JobGrid.Proofs.Balance.History

/-!
# Picks by load

A balancer that spreads jobs by load breaks no rule of its own. Every layout that it makes or
remembers has a node for each draw, whatever it was asked and told. Only a probe can break a
rule: the one that adds up the times that a candidate publishes.
-/

namespace JobGrid

namespace Slices

variable {α : Type} [LoadNumber α]

theorem length_substitute (count : Nat) (total : α) (loads : List α) :
    (substitute count total loads).1.length = loads.length := by
  induction loads generalizing total with
  | nil => rfl
  | cons load rest ih =>
      simp only [substitute]
      split
      · exact congrArg Nat.succ (ih _)
      · exact congrArg Nat.succ (ih _)

theorem length_accumulate (total start : α) (weights : List α) :
    (accumulate total start weights).length = weights.length := by
  induction weights generalizing start with
  | nil => rfl
  | cons weight rest ih => exact congrArg Nat.succ (ih _)

theorem length_close (bounds : List α) : (close bounds).length = bounds.length := by
  induction bounds with
  | nil => rfl
  | cons bound rest ih =>
      cases rest with
      | nil => rfl
      | cons next more => exact congrArg Nat.succ ih

/-- Each node gets one slice. -/
@[simp] theorem length_bounds (loads : List α) : (bounds loads).length = loads.length := by
  have weighed : (weights loads).length = loads.length := by
    simp [weights, substituted, length_substitute]
  rw [bounds, length_close, computed, length_accumulate, weighed]

/-- Every draw falls into a slice, if there is one. -/
theorem locate_lt {bounds : List α} (some : bounds ≠ []) (draw : α) :
    locate bounds draw < bounds.length := by
  have positive : 0 < bounds.length := List.length_pos_iff.2 some
  exact Nat.lt_of_le_of_lt (Nat.min_le_right _ _) (Nat.sub_lt positive Nat.one_pos)

end Slices

namespace Layout

variable {layout : Layout} {probe : LoadProbe} {sent : NodeId → Nat} {members : List Member}

/-- Each node of a layout has a slice, and there is one at least. -/
structure Sound (layout : Layout) : Prop where
  length_bounds : layout.bounds.length = layout.members.length
  members_ne_nil : layout.members ≠ []

/-- Every draw picks a node. -/
theorem Sound.exists_pick (sound : layout.Sound) (draw : Float) :
    ∃ member, layout.pick draw = .ok member := by
  have bounds : layout.bounds ≠ [] := by
    rw [← List.length_pos_iff, sound.length_bounds, List.length_pos_iff]
    exact sound.members_ne_nil
  have inRange : Slices.locate layout.bounds draw < layout.members.length :=
    sound.length_bounds ▸ Slices.locate_lt bounds draw
  exact ⟨_, by rw [pick, List.getElem?_eq_getElem inRange]⟩

theorem length_of_loads {measured : List Float} (loaded : loads probe sent members = .ok measured) :
    measured.length = members.length := by
  induction members generalizing measured with
  | nil =>
      cases loaded
      rfl
  | cons member rest ih =>
      simp only [loads] at loaded
      split at loaded
      · cases loaded
      · split at loaded
        · obtain ⟨others, found, rfl⟩ := Result.map_eq_ok.1 loaded
          exact congrArg Nat.succ (ih found)
        · cases loaded

theorem sound_of_build (built : build probe sent members = .ok layout) (some : members ≠ []) :
    layout.Sound := by
  obtain ⟨measured, loaded, rfl⟩ := Result.map_eq_ok.1 built
  exact ⟨(Slices.length_bounds measured).trans (length_of_loads loaded), some⟩

theorem exists_fault_of_loads {fault : Fault}
    (broke : loads probe sent members = .error (.fault fault)) :
    ∃ member ∈ members, probe member (sent member.id) = .error fault := by
  induction members with
  | nil => cases broke
  | cons member rest ih =>
      simp only [loads] at broke
      split at broke
      · rename_i found measured
        cases broke
        exact ⟨member, List.mem_cons_self, measured⟩
      · split at broke
        · obtain ⟨one, inside, failed⟩ := ih (Result.map_eq_error.1 broke)
          exact ⟨one, List.mem_cons_of_mem _ inside, failed⟩
        · cases broke

/-- Where laying out nodes breaks a rule, the probe of one of them does. -/
theorem exists_fault_of_build {fault : Fault}
    (broke : build probe sent members = .error (.fault fault)) :
    ∃ member ∈ members, probe member (sent member.id) = .error fault :=
  exists_fault_of_loads (Result.map_eq_error.1 broke)

end Layout

namespace SessionCache

variable {α : Type} {good : α → Prop} {cache : SessionCache α} {session : SessionId}

theorem get?_of_lookup_miss (unknown : cache.lookup session = .miss) :
    cache.get? session = none := by
  simp only [lookup] at unknown
  split at unknown
  · assumption
  · cases unknown
  · cases unknown

theorem get?_of_lookup_cached {value : α} (known : cache.lookup session = .cached value) :
    cache.get? session = some (.cached value) := by
  simp only [lookup] at known
  split at known
  · cases known
  · cases known
    assumption
  · cases known

/-- Everything that the picks of a session share has a property. -/
def Holds (good : α → Prop) (cache : SessionCache α) : Prop :=
  ∀ session value, cache.get? session = some (.cached value) → good value

theorem Holds.insert (holds : cache.Holds good) (session : SessionId) {entry : SessionEntry α}
    (new : ∀ value, entry = .cached value → good value) :
    SessionCache.Holds good (cache.insert session entry) := by
  intro other value found
  rw [Table.get?_insert] at found
  split at found
  · exact new value (Option.some.inj found)
  · exact holds other value found

theorem Holds.store (holds : cache.Holds good) (session : SessionId) {value : α}
    (fits : good value) :
    good (cache.store session value).1 ∧ SessionCache.Holds good (cache.store session value).2 := by
  simp only [SessionCache.store]
  split
  · refine ⟨fits, holds.insert session ?_⟩
    intro stored same
    cases same
    exact fits
  · rename_i first found
    exact ⟨holds session first found, holds⟩
  · exact ⟨fits, holds⟩

theorem Holds.markMapped (holds : cache.Holds good) (session : SessionId) :
    SessionCache.Holds good (cache.markMapped session).2 := by
  simp only [SessionCache.markMapped]
  split
  · exact holds.insert session fun value same => by cases same
  · exact holds

theorem Holds.forget (holds : cache.Holds good) (session : SessionId) :
    SessionCache.Holds good (cache.forget session).2 := by
  intro other value found
  simp only [SessionCache.forget, Table.get?_erase] at found
  split at found
  · cases found
  · exact holds other value found

end SessionCache

namespace AdaptiveBalancer

variable {balancer next : AdaptiveBalancer} {session : SessionId} {candidates : List Member}
  {draw : Draw} {member : Member} {fault : Fault}

/-- All layouts that a balancer remembers are sound. -/
def Sound (balancer : AdaptiveBalancer) : Prop := balancer.tasks.Holds Layout.Sound

/-- The layout that a session uses is sound, and so are those that are remembered. -/
theorem Sound.layoutFor (sound : balancer.Sound) (some : candidates ≠ []) {layout : Layout}
    {tasks : SessionCache Layout}
    (found : balancer.layoutFor session candidates = .ok (layout, tasks)) :
    layout.Sound ∧ tasks.Holds Layout.Sound := by
  simp only [AdaptiveBalancer.layoutFor] at found
  split at found
  · rename_i stored known
    split at found
    · cases found
      exact ⟨sound session _ (SessionCache.get?_of_lookup_cached known), sound⟩
    · obtain ⟨fresh, built, equal⟩ := Result.map_eq_ok.1 found
      cases equal
      exact ⟨Layout.sound_of_build built some, sound⟩
  · obtain ⟨fresh, built, equal⟩ := Result.map_eq_ok.1 found
    cases equal
    exact ⟨Layout.sound_of_build built some, sound⟩
  · obtain ⟨fresh, built, equal⟩ := Result.map_eq_ok.1 found
    have stored := SessionCache.Holds.store sound session (Layout.sound_of_build built some)
    rwa [equal] at stored

theorem exists_fault_of_layoutFor
    (broke : balancer.layoutFor session candidates = .error (.fault fault)) :
    ∃ member ∈ candidates,
      balancer.probe member (balancer.sentJobs member.id) = .error fault := by
  simp only [layoutFor] at broke
  split at broke
  · split at broke
    · cases broke
    · exact Layout.exists_fault_of_build (Result.map_eq_error.1 broke)
  · exact Layout.exists_fault_of_build (Result.map_eq_error.1 broke)
  · exact Layout.exists_fault_of_build (Result.map_eq_error.1 broke)

theorem probe_of_pick (picked : balancer.pick session candidates draw = .ok (member, next)) :
    next.probe = balancer.probe := by
  obtain ⟨-, layout, tasks, -, -, rfl⟩ := pick_eq_ok.1 picked
  rfl

theorem Sound.pick (sound : balancer.Sound)
    (picked : balancer.pick session candidates draw = .ok (member, next)) : next.Sound := by
  obtain ⟨some, layout, tasks, found, -, rfl⟩ := pick_eq_ok.1 picked
  exact (sound.layoutFor some found).2

/-- A pick that breaks a rule breaks it while it measures a candidate: the layout that it uses has
a node for every draw. -/
theorem Sound.exists_fault_of_pick (sound : balancer.Sound)
    (broke : balancer.pick session candidates draw = .error (.fault fault)) :
    ∃ member ∈ candidates,
      balancer.probe member (balancer.sentJobs member.id) = .error fault := by
  simp only [AdaptiveBalancer.pick] at broke
  split at broke
  · cases broke
  · rename_i some
    split at broke
    · rename_i failure found
      cases broke
      exact exists_fault_of_layoutFor found
    · rename_i layout tasks found
      obtain ⟨one, chosen⟩ :=
        (sound.layoutFor (by simpa using some) found).1.exists_pick draw.fraction
      rw [chosen] at broke
      cases broke

theorem Sound.onTask (sound : balancer.Sound) (event : TaskEvent) :
    (balancer.onTask event).Sound := by
  cases event with
  | mapped session => exact SessionCache.Holds.markMapped sound session
  | finished session => exact SessionCache.Holds.forget sound session
  | failed session => exact SessionCache.Holds.forget sound session

end AdaptiveBalancer

namespace Balancer

/-- A balancer that spreads jobs by load, measures it with a probe and remembers sound layouts
only. -/
def Measures (probe : LoadProbe) : Balancer → Prop
  | adaptive inner => inner.probe = probe ∧ inner.Sound
  | affinity _ => False

variable {probe : LoadProbe} {balancer : Balancer}

theorem Measures.perform (measures : balancer.Measures probe) (call : BalancerCall) :
    (balancer.perform call).Measures probe := by
  cases balancer with
  | affinity inner => exact measures.elim
  | adaptive inner =>
      obtain ⟨rfl, sound⟩ := measures
      cases call with
      | pick session candidates spec draw =>
          simp only [Balancer.perform, Balancer.pick]
          cases picked : inner.pick session candidates draw with
          | error failure => exact ⟨rfl, sound⟩
          | ok found =>
              exact ⟨AdaptiveBalancer.probe_of_pick picked, sound.pick picked⟩
      | event event =>
          simp only [Balancer.perform, onEvent, AdaptiveBalancer.onEvent]
          split
          · exact ⟨rfl, sound⟩
          · exact ⟨rfl, sound⟩
      | task event =>
          refine ⟨?_, sound.onTask event⟩
          cases event <;> rfl

theorem Measures.run (measures : balancer.Measures probe) (history : List BalancerCall) :
    (balancer.run history).Measures probe := by
  induction history generalizing balancer with
  | nil => exact measures
  | cons call later ih => exact ih (measures.perform call)

end Balancer

/-- The times that a node published at last do not fit into a word together, and no average stands
in for them. -/
def Metrics.TimesOverflow (metrics : Metrics) (useAverage : Bool) : Prop :=
  ¬ (useAverage = true ∧ 0 < metrics.averageExecuteTime + metrics.averageWaitTime) ∧
    2 ^ 64 ≤ metrics.currentExecuteTime.toNat + metrics.currentWaitTime.toNat

/-- No probe breaks a rule but the one that adds times up. -/
theorem ProbeConfig.overflow_of_probe {config : ProbeConfig} {member : Member} {sent : Nat}
    {fault : Fault} (broke : config.probe member sent = .error fault) :
    fault = .overflow ∧
      ∃ useAverage, config = .processingTime useAverage ∧
        member.metrics.TimesOverflow useAverage := by
  cases config with
  | cpu useAverage useProcessors coefficient => cases broke
  | jobCount useAverage => cases broke
  | benchmark weights => cases broke
  | processingTime useAverage =>
      simp only [probe, Metrics.timeLoad] at broke
      split at broke
      · cases broke
      · rename_i current
        split at broke
        · cases broke
        · rename_i large
          cases broke
          exact ⟨rfl, useAverage, rfl, current, Nat.le_of_not_lt large⟩

namespace AdaptiveBalancer

/-- With settings that are valid and after any history, a pick finds a node or says why it finds
none: no draw misses the nodes of the layout, and no number leaves its range. This leaves out
candidates whose times the pick has to add up although they do not fit into a word. -/
theorem pick_completes {config : AdaptiveConfig} {start : AdaptiveBalancer}
    (made : ofConfig config = .ok start) (history : List BalancerCall) (session : SessionId)
    (candidates : List Member) (spec : JobSpec) (draw : Draw) :
    let picked := ((Balancer.adaptive start).run history).pick session candidates spec draw
    (∃ found, picked = .ok found) ∨ (∃ cause, picked = .error (.error cause)) ∨
      picked = .error (.fault .overflow) ∧
        ∃ useAverage, config.probe = .processingTime useAverage ∧
          ∃ member ∈ candidates, member.metrics.TimesOverflow useAverage := by
  intro picked
  obtain ⟨-, -, rfl⟩ := Result.map_eq_ok.1 made
  have fresh : (Balancer.adaptive { probe := config.probe.probe }).Measures config.probe.probe :=
    ⟨rfl, fun _ _ none => by cases none⟩
  have measures := fresh.run history
  cases reached : (Balancer.adaptive { probe := config.probe.probe }).run history with
  | affinity inner =>
      rw [reached] at measures
      exact measures.elim
  | adaptive inner =>
      rw [reached] at measures
      obtain ⟨probe, sound⟩ := measures
      have chosen : picked = (inner.pick session candidates draw).map fun found =>
          (found.1, .adaptive found.2) := by
        simp only [picked, reached, Balancer.pick]
      rw [chosen]
      cases result : inner.pick session candidates draw with
      | ok found => exact .inl ⟨_, rfl⟩
      | error failure =>
          cases failure with
          | error cause => exact .inr (.inl ⟨cause, rfl⟩)
          | fault fault =>
              obtain ⟨member, inside, broke⟩ := sound.exists_fault_of_pick result
              rw [probe] at broke
              obtain ⟨rfl, useAverage, settings, overflow⟩ := ProbeConfig.overflow_of_probe broke
              exact .inr (.inr ⟨rfl, useAverage, settings, member, inside, overflow⟩)

/-- A candidate that published times finds the job, and so does the next pick of the session. -/
theorem pick_completes_busy :
    let one : Member := { id := .ofNat 1, metrics := { currentExecuteTime := 40 } }
    let start : AdaptiveBalancer := { probe := ({} : AdaptiveConfig).probe.probe }
    let call : BalancerCall := .pick (.ofNat 5) [one] { id := .ofNat 7 } default
    let picked := ((Balancer.adaptive start).run [call]).pick (.ofNat 5) [one] { id := .ofNat 7 }
      default
    ofConfig {} = .ok start ∧
      (picked.toOption.map fun found => found.1.id) = some one.id ∧
        ((∃ found, picked = .ok found) ∨ (∃ cause, picked = .error (.error cause)) ∨
          picked = .error (.fault .overflow) ∧
            ∃ useAverage, ({} : AdaptiveConfig).probe = .processingTime useAverage ∧
              ∃ member ∈ [one], member.metrics.TimesOverflow useAverage) := by
  intro one start call picked
  have made : ofConfig {} = .ok start := rfl
  exact ⟨made, by decide +kernel, pick_completes made [call] _ _ _ _⟩

/-- Two times that a candidate published do not fit into a word together. With the usual settings
the first pick of all breaks a rule. -/
theorem pick_overflows :
    let one : Member :=
      { id := .ofNat 1
        metrics := { currentExecuteTime := 18446744073709551615, currentWaitTime := 1 } }
    ∃ start, ofConfig {} = .ok start ∧
      (Balancer.adaptive start).pick (.ofNat 5) [one] { id := .ofNat 7 } default =
        .error (.fault .overflow) :=
  ⟨{ probe := ({} : AdaptiveConfig).probe.probe }, rfl, rfl⟩

end AdaptiveBalancer

end JobGrid
