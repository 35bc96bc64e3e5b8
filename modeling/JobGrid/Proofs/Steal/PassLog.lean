import JobGrid.Proofs.Steal.Overlap

/-!
# What is written down about passes

What is written down about the steps of passes tells what became of each job since it was fresh,
because each step does to the jobs what is written down.
-/

namespace JobGrid

/-! ## What is written down about one change -/

namespace JobStore

variable {α : Type} {note : JobRef → JobHandle → JobHandle → Option α} {store : JobStore}
  {ref : JobRef} {handle : JobHandle}

/-- Of numbers of which only one is noted, nothing else is noted. -/
theorem filterMap_range_eq {count item : Nat} {pick : Nat → Option α} (within : item < count)
    (others : ∀ other, other ≠ item → pick other = none) :
    (List.range count).filterMap pick = (pick item).toList := by
  induction count with
  | zero => exact absurd within (Nat.not_lt_zero item)
  | succ count ih =>
      rw [List.range_succ, List.filterMap_append]
      by_cases last : item = count
      · subst last
        have nothing : (List.range item).filterMap pick = [] := by
          refine List.filterMap_eq_nil_iff.2 fun other member => ?_
          exact others other (Nat.ne_of_lt (List.mem_range.1 member))
        rw [nothing, List.nil_append]
        cases picked : pick item <;> simp [picked]
      · rw [ih (by omega)]
        simp [others count (Ne.symm last)]

theorem changes_self (quiet : ∀ ref handle, note ref handle handle = none) (store : JobStore) :
    changes note store store = [] := by
  refine List.filterMap_eq_nil_iff.2 fun ref _ => ?_
  cases store.get? ref with
  | none => rfl
  | some handle => exact quiet ref handle

theorem changes_set (quiet : ∀ ref handle, note ref handle handle = none)
    (found : store.get? ref = some handle) (changed : JobHandle) :
    changes note store (store.set ref changed) = (note ref handle changed).toList := by
  have looked := get?_set_of_get? found
  rw [changes, filterMap_range_eq (lt_next_of_get? found)]
  · simp only [found, looked, if_true]
  · intro other differs
    simp only [looked, if_neg (Ne.symm differs)]
    cases store.get? other with
    | none => rfl
    | some handle => exact quiet other handle

theorem departures_self (store : JobStore) : store.departures store = [] :=
  changes_self (fun _ _ => if_neg fun both => both.2 both.1) store

theorem starts_self (store : JobStore) : store.starts store = [] :=
  changes_self (fun _ _ => if_neg fun both => both.1 both.2) store

theorem stamps_self (store : JobStore) : store.stamps store = [] :=
  changes_self (fun _ _ => if_pos ⟨rfl, rfl⟩) store

theorem departures_set (found : store.get? ref = some handle) (waits : handle.state = .waiting)
    {changed : JobHandle} (moved : changed.state ≠ .waiting) :
    store.departures (store.set ref changed) = [ref] := by
  rw [departures, changes_set (fun _ _ => if_neg fun both => both.2 both.1) found,
    if_pos ⟨waits, moved⟩, Option.toList_some]

theorem starts_set (found : store.get? ref = some handle) (waits : handle.state = .waiting)
    (changed : JobHandle) :
    store.starts (store.set ref changed) = if changed.state = .active then [ref] else [] := by
  rw [starts, changes_set (fun _ _ => if_neg fun both => both.1 both.2) found]
  by_cases active : changed.state = .active
  · simp [active, waits]
  · simp [active]

theorem stamps_set (found : store.get? ref = some handle) (changed : JobHandle) :
    store.stamps (store.set ref changed) =
      if changed.thief = handle.thief ∧ changed.stealingAttempts = handle.stealingAttempts then []
      else [ref] := by
  rw [stamps, changes_set (fun _ _ => if_pos ⟨rfl, rfl⟩) found]
  split <;> rfl

theorem markStolen_set (found : store.get? ref = some handle) (changed : JobHandle)
    (thief : NodeId) :
    (store.set ref changed).markStolen ref thief = store.set ref (changed.markStolen thief) := by
  have there : (store.set ref changed).get? ref = some changed := by
    rw [get?_set_of_get? found, if_pos rfl]
  rw [markStolen, there]
  simp only [set, Array.setIfInBounds_setIfInBounds]

/-- The number of jobs with a thief. -/
def thieves (store : JobStore) : Nat := store.handles.countP fun handle => handle.thief.isSome

theorem thieves_set (found : store.get? ref = some handle) (changed : JobHandle) :
    (store.set ref changed).thieves + (if handle.thief.isSome then 1 else 0) =
      store.thieves + if changed.thief.isSome then 1 else 0 := by
  obtain ⟨within, same⟩ := Array.getElem?_eq_some_iff.1 found
  have counted := Array.countP_set (p := fun handle => handle.thief.isSome) (a := changed) within
  have positive : handle.thief.isSome = true → 0 < store.thieves := by
    intro stamped
    refine Array.countP_pos_iff.2 ⟨handle, ?_, stamped⟩
    exact same ▸ Array.getElem_mem within
  rw [same] at counted
  simp only [thieves, set, Array.setIfInBounds, within, dif_pos, counted]
  by_cases stamped : handle.thief.isSome = true
  · have least := positive stamped
    simp only [thieves] at least
    simp only [stamped, if_true]
    omega
  · simp [stamped]

/-- Whether all jobs wait and none of them was stolen from here. -/
def Fresh (store : JobStore) : Prop :=
  ∀ handle ∈ store.handles.toList, handle.state = .waiting ∧ handle.thief = none

theorem Fresh.of_get? (fresh : store.Fresh) (found : store.get? ref = some handle) :
    handle.state = .waiting ∧ handle.thief = none := by
  obtain ⟨within, same⟩ := Array.getElem?_eq_some_iff.1 found
  exact fresh handle (same ▸ Array.mem_toList_iff.2 (Array.getElem_mem within))

end JobStore

/-! ## What one step of a pass does -/

namespace Busy

/-- What one step of a pass does to the jobs: nothing, or it starts one, or it gives away the one
that it offers. -/
inductive Did (stage : PassStage) (busy : Busy) : Busy → Prop where
  | nothing {after : Busy} (store : after.store = busy.store)
      (activated : after.activated = busy.activated) (rejected : after.rejected = busy.rejected) :
      Did stage busy after
  | start {job : JobRef} {handle : JobHandle} (found : busy.store.get? job = some handle)
      (waits : handle.state = .waiting) :
      Did stage busy { busy with
        store := busy.store.set job { handle with state := .active }
        activated := busy.activated + 1 }
  | stamp {job : JobRef} {handle : JobHandle} {peer : NodeId} {now : Moment} {counter : Int}
      (offered : stage.offered? = some job) (found : busy.store.get? job = some handle)
      (waits : handle.state = .waiting) (asks : 0 < busy.received.jobs peer) :
      Did stage busy { busy with
        received := busy.received.served now peer
        counter
        store := busy.store.set job
          (({ handle with state := .cancelled } : JobHandle).markStolen peer)
        rejected := busy.rejected + 1 }

variable {scene : PassScene} {waiting : Nat} {busy after : Busy} {stage next : PassStage}

theorem did_start (stage : PassStage) (busy : Busy) (job : JobRef) :
    Did stage busy (busy.start job) := by
  rcases busy.start_cases job with ⟨same, -⟩ | ⟨handle, found, waits, started⟩
  · rw [same]
    exact .nothing rfl rfl rfl
  · rw [started]
    exact .start found waits

/-- A request of a peer is there as long as the peer is asked for. -/
theorem jobs_pos_of_taker {session : SessionId} {peer : NodeId}
    (offered : busy.offer scene session peer = .taker) : 0 < busy.received.jobs peer := by
  obtain ⟨-, -, entry, asked, positive, -⟩ := taker_of_offer offered
  rwa [StealTable.jobs_of_get? asked]

theorem did_of_give {job : JobRef} {peer : NodeId} {store : JobStore}
    (asks : 0 < busy.received.jobs peer) (offered : stage.offered? = some job)
    (moved : busy.store.cancel job = (true, store))
    (gave : ({ busy with store } : Busy).give scene peer job = .ok after) :
    Did stage busy after := by
  obtain ⟨handle, found, waits, rfl⟩ := JobStore.transition_eq_true_iff.1 moved
  simp only [give, StealTable.decrement_eq_ok asks, Result.ok_bind] at gave
  obtain ⟨counter, -, given⟩ := Result.bind_eq_ok.1 gave
  cases given
  rw [JobStore.markStolen_set found]
  exact .stamp offered found waits asks

theorem did_of_advance (advanced : busy.advance scene waiting stage = .ok (next, after)) :
    Did stage busy after := by
  unfold advance at advanced
  split at advanced
  · cases advanced
    exact .nothing rfl rfl rfl
  · cases advanced
    exact did_start _ busy _
  · split at advanced
    · cases advanced
      exact .nothing rfl rfl rfl
    · split at advanced
      · cases advanced
        exact .nothing rfl rfl rfl
      · split at advanced <;> cases advanced <;> exact .nothing rfl rfl rfl
  · cases advanced
    exact .nothing rfl rfl rfl
  · split at advanced
    · cases advanced
      exact .nothing rfl rfl rfl
    · split at advanced
      · cases advanced
        exact .nothing rfl rfl rfl
      · obtain ⟨dropped, forgot, same⟩ := Result.map_eq_ok.1 advanced
        cases same
        obtain ⟨counter, -, rfl⟩ := Result.map_eq_ok.1 forgot
        exact .nothing rfl rfl rfl
      · obtain ⟨late, tookBack, same⟩ := Result.map_eq_ok.1 advanced
        cases same
        obtain ⟨counter, -, rfl⟩ := Result.map_eq_ok.1 tookBack
        exact .nothing rfl rfl rfl
      · rename_i offered
        split at advanced
        · cases advanced
          exact .nothing rfl rfl rfl
        · rename_i store moved
          obtain ⟨given, gave, same⟩ := Result.map_eq_ok.1 advanced
          cases same
          exact did_of_give (jobs_pos_of_taker offered) rfl moved gave
  · cases advanced
    exact .nothing rfl rfl rfl

/-- A job that a pass begins to offer was not stolen too often. -/
theorem offered_of_advance {job : JobRef}
    (advanced : busy.advance scene waiting stage = .ok (next, after))
    (offered : next.offered? = some job) :
    stage.offered? = some job ∨ ∃ handle, busy.store.get? job = some handle ∧
      handle.stealingAttempts < scene.config.maxStealing := by
  unfold advance at advanced
  split at advanced
  · cases advanced
    cases offered
  · cases advanced
    cases offered
  · split at advanced
    · cases advanced
      cases offered
    · rename_i handle found
      split at advanced
      · cases advanced
        cases offered
      · rename_i may
        split at advanced
        · cases advanced
          cases offered
        · cases advanced
          cases offered
          simp only [mayGive, Bool.not_eq_true, Bool.not_eq_false', Bool.and_eq_true,
            decide_eq_true_eq] at may
          exact .inr ⟨handle, found, may.2⟩
  · cases advanced
    cases offered
  · split at advanced
    · cases advanced
      exact .inl offered
    · split at advanced
      · cases advanced
        exact .inl offered
      · obtain ⟨dropped, -, same⟩ := Result.map_eq_ok.1 advanced
        cases same
        exact .inl offered
      · obtain ⟨late, -, same⟩ := Result.map_eq_ok.1 advanced
        cases same
        exact .inl offered
      · split at advanced
        · cases advanced
          cases offered
        · obtain ⟨given, -, same⟩ := Result.map_eq_ok.1 advanced
          cases same
          cases offered
  · cases advanced
    cases offered

end Busy

/-! ## What is written down tells -/

/-- What is written down about a job tells what became of it since it was fresh. -/
structure PassLog.TellsOf (log : PassLog) (ref : JobRef) (fresh handle : JobHandle) : Prop where
  left : ref ∈ log.left ↔ handle.state ≠ .waiting
  started : ref ∈ log.started → handle.state = .active
  stamped : ref ∈ log.stamped ↔ handle.thief.isSome = true
  stamp : handle.thief.isSome = true → handle.state = .cancelled ∧
    handle.stealingAttempts.toNat = fresh.stealingAttempts.toNat + 1
  unstamped : handle.thief = none → handle.stealingAttempts = fresh.stealingAttempts

/-- A job that waits has no thief. -/
theorem PassLog.TellsOf.thief_of_waiting {log : PassLog} {ref : JobRef} {fresh handle : JobHandle}
    (of : log.TellsOf ref fresh handle) (waits : handle.state = .waiting) :
    handle.thief = none := by
  cases thief : handle.thief with
  | none => rfl
  | some peer =>
      rw [(of.stamp (by rw [thief]; rfl)).1] at waits
      cases waits

/-- What is written down about some jobs tells what became of each of them, and never the same
twice. -/
structure PassLog.Tells (log : PassLog) (fresh store : JobStore) : Prop where
  handles : ∀ ref handle, store.get? ref = some handle →
    ∃ original, fresh.get? ref = some original ∧ log.TellsOf ref original handle
  known : ∀ ref ∈ log.left, (store.get? ref).isSome = true
  started_sub : log.started ⊆ log.left
  stamped_sub : log.stamped ⊆ log.left
  left_once : log.left.Nodup
  started_once : log.started.Nodup
  stamped_once : log.stamped.Nodup
  thieves : store.thieves = log.stamped.length

namespace PassLog.Tells

variable {log : PassLog} {fresh store : JobStore} {ref : JobRef} {handle : JobHandle}

/-- Nothing is written down about a job that waits. -/
theorem not_mem_left (tells : log.Tells fresh store) (found : store.get? ref = some handle)
    (waits : handle.state = .waiting) : ref ∉ log.left := by
  obtain ⟨original, -, of⟩ := tells.handles ref handle found
  exact fun member => of.left.1 member waits

theorem nodup_concat {items : List JobRef} {more : List JobRef} (once : items.Nodup)
    (new : ref ∉ items) (one : more = [] ∨ more = [ref]) : (items ++ more).Nodup := by
  rcases one with rfl | rfl
  · rwa [List.append_nil]
  · rw [← List.concat_eq_append, List.nodup_concat]
    exact ⟨new, once⟩

theorem mem_concat_of_ne {items more : List JobRef} {other : JobRef}
    (one : more = [] ∨ more = [ref]) (differs : other ≠ ref) :
    other ∈ items ++ more ↔ other ∈ items := by
  rcases one with rfl | rfl
  · rw [List.append_nil]
  · simp [differs]

/-- A job stops waiting. It is started or cancelled, perhaps by a pass, and a pass that cancels it
stamps it. -/
theorem leave (tells : log.Tells fresh store) (changed : JobHandle) (starts stamps : List JobRef)
    (found : store.get? ref = some handle) (waits : handle.state = .waiting)
    (moved : changed.state ≠ .waiting)
    (started : starts = [] ∨ starts = [ref] ∧ changed.state = .active)
    (stamped : stamps = [] ∧ changed.thief = handle.thief ∧
        changed.stealingAttempts = handle.stealingAttempts ∨
      stamps = [ref] ∧ changed.thief.isSome = true ∧ changed.state = .cancelled ∧
        changed.stealingAttempts.toNat = handle.stealingAttempts.toNat + 1) (served : Nat) :
    ({ left := log.left ++ [ref], started := log.started ++ starts
       stamped := log.stamped ++ stamps, served } : PassLog).Tells fresh
      (store.set ref changed) := by
  have new := tells.not_mem_left found waits
  have looked := JobStore.get?_set_of_get? found
  obtain ⟨original, there, of⟩ := tells.handles ref handle found
  have nobody := of.thief_of_waiting waits
  have unstolen : handle.thief.isSome = false := by rw [nobody, Option.isSome_none]
  have startsOne : starts = [] ∨ starts = [ref] := started.imp_right And.left
  have stampsOne : stamps = [] ∨ stamps = [ref] := stamped.imp And.left And.left
  have notStarted : ref ∉ log.started := fun member => new (tells.started_sub member)
  have notStamped : ref ∉ log.stamped := fun member => new (tells.stamped_sub member)
  refine ⟨?_, ?_, ?_, ?_, nodup_concat tells.left_once new (.inr rfl),
    nodup_concat tells.started_once notStarted startsOne,
    nodup_concat tells.stamped_once notStamped stampsOne, ?_⟩
  · intro other later same
    by_cases own : other = ref
    · subst own
      rw [looked, if_pos rfl, Option.some.injEq] at same
      subst same
      refine ⟨original, there, ?_, ?_, ?_, ?_, ?_⟩
      · simp [moved]
      · intro member
        rcases started with rfl | ⟨rfl, active⟩
        · rw [List.append_nil] at member
          exact absurd member notStarted
        · exact active
      · rcases stamped with ⟨rfl, thief, -⟩ | ⟨rfl, thief, -⟩
        · simp [notStamped, thief, nobody]
        · simp [thief]
      · intro stolen
        rcases stamped with ⟨rfl, thief, -⟩ | ⟨rfl, -, cancelled, attempts⟩
        · rw [thief, unstolen] at stolen
          cases stolen
        · rw [of.unstamped nobody] at attempts
          exact ⟨cancelled, attempts⟩
      · intro none
        rcases stamped with ⟨rfl, -, attempts⟩ | ⟨rfl, thief, -⟩
        · rw [attempts, of.unstamped nobody]
        · rw [none] at thief
          cases thief
    · rw [looked, if_neg (Ne.symm own)] at same
      obtain ⟨original, there, of⟩ := tells.handles other later same
      refine ⟨original, there, ?_, ?_, ?_, of.stamp, of.unstamped⟩
      · exact (mem_concat_of_ne (.inr rfl) own).trans of.left
      · exact fun member => of.started ((mem_concat_of_ne startsOne own).1 member)
      · exact (mem_concat_of_ne stampsOne own).trans of.stamped
  · intro other member
    rw [looked]
    split
    · rfl
    · rename_i differs
      exact tells.known other ((mem_concat_of_ne (.inr rfl) (Ne.symm differs)).1 member)
  · intro other member
    by_cases own : other = ref
    · exact List.mem_append_right _ (List.mem_singleton.2 own)
    · exact List.mem_append_left _ (tells.started_sub ((mem_concat_of_ne startsOne own).1 member))
  · intro other member
    by_cases own : other = ref
    · exact List.mem_append_right _ (List.mem_singleton.2 own)
    · exact List.mem_append_left _ (tells.stamped_sub ((mem_concat_of_ne stampsOne own).1 member))
  · have counted := JobStore.thieves_set found changed
    have before := tells.thieves
    rw [unstolen] at counted
    rcases stamped with ⟨rfl, thief, -⟩ | ⟨rfl, thief, -⟩
    · rw [thief, unstolen] at counted
      simpa [before] using counted
    · rw [thief] at counted
      simpa [before] using counted

/-- A job was stolen no less often than when it was fresh. -/
theorem attempts_le {original : JobHandle} (tells : log.Tells fresh store)
    (known : fresh.get? ref = some original) (found : store.get? ref = some handle) :
    original.stealingAttempts.toNat ≤ handle.stealingAttempts.toNat := by
  obtain ⟨same, there, of⟩ := tells.handles ref handle found
  rw [known, Option.some.injEq] at there
  subst there
  cases thief : handle.thief with
  | none => exact Nat.le_of_eq (congrArg UInt32.toNat (of.unstamped thief).symm)
  | some peer =>
      have more := (of.stamp (by rw [thief]; rfl)).2
      omega

end PassLog.Tells

end JobGrid
