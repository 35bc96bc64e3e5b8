import JobGrid.Job.Spec
import JobGrid.Time.Timestamp

/-!
# Job handles

Queue, resolver and executor of a node share its jobs, so handles of them live in a store and
are passed around by reference. A job leaves its waiting state at most once: to become active,
or to be cancelled.
-/

namespace JobGrid

/-- A job that a node holds. -/
structure JobHandle where
  spec : JobSpec
  session : SessionId
  /-- The node that submitted the task; results and rejections go there. -/
  origin : NodeId
  createdAt : Moment
  state : JobState := .waiting
  stealingAttempts : UInt32 := 0
  failoverAttempts : UInt32 := 0
  thief : Option NodeId := none
  deriving DecidableEq

namespace JobHandle

instance : Inhabited JobHandle :=
  ⟨{ spec := { id := default }, session := default, origin := default, createdAt := 0 }⟩

def id (job : JobHandle) : JobId := job.spec.id

/-- Marks the job as given to a thief. The count of attempts wraps. -/
def markStolen (job : JobHandle) (thief : NodeId) : JobHandle :=
  { job with thief := some thief, stealingAttempts := job.stealingAttempts + 1 }

/-- How long the job has been here, in milliseconds. -/
def waited (job : JobHandle) (now : Moment) : Nat := now.since job.createdAt

@[simp] theorem id_markStolen (job : JobHandle) (thief : NodeId) :
    (job.markStolen thief).id = job.id := rfl

end JobHandle

/-- A reference to a handle. -/
abbrev JobRef := Nat

/-- All handles of a node. -/
structure JobStore where
  handles : Array JobHandle := #[]

namespace JobStore

instance : EmptyCollection JobStore := ⟨{}⟩

/-- The handle behind a reference. -/
def get? (store : JobStore) (ref : JobRef) : Option JobHandle := store.handles[ref]?

/-- The reference of the next new handle. -/
def next (store : JobStore) : JobRef := store.handles.size

/-- Adds a handle under the next reference. -/
def push (store : JobStore) (job : JobHandle) : JobStore := ⟨store.handles.push job⟩

/-- Replaces the handle behind a reference. -/
def set (store : JobStore) (ref : JobRef) (job : JobHandle) : JobStore :=
  ⟨store.handles.setIfInBounds ref job⟩

/-- The state of the handle behind a reference. -/
def state? (store : JobStore) (ref : JobRef) : Option JobState :=
  (store.get? ref).map JobHandle.state

/-- Tries to move a waiting job to another state; says whether it did. -/
def transition (store : JobStore) (ref : JobRef) (state : JobState) : Bool × JobStore :=
  match store.get? ref with
  | some job =>
      if job.state = .waiting then (true, store.set ref { job with state }) else (false, store)
  | none => (false, store)

/-- Tries to start a job. -/
def activate (store : JobStore) (ref : JobRef) : Bool × JobStore := store.transition ref .active

/-- Tries to cancel a job. -/
def cancel (store : JobStore) (ref : JobRef) : Bool × JobStore :=
  store.transition ref .cancelled

/-- Marks a job as given to a thief. -/
def markStolen (store : JobStore) (ref : JobRef) (thief : NodeId) : JobStore :=
  match store.get? ref with
  | some job => store.set ref (job.markStolen thief)
  | none => store

theorem get?_set (store : JobStore) (ref other : JobRef) (job : JobHandle) :
    (store.set ref job).get? other =
      if ref = other ∧ ref < store.handles.size then some job else store.get? other := by
  simp only [get?, set, Array.getElem?_setIfInBounds]
  split <;> split <;> simp_all

@[simp] theorem get?_push (store : JobStore) (ref : JobRef) (job : JobHandle) :
    (store.push job).get? ref = if ref = store.next then some job else store.get? ref :=
  Array.getElem?_push

end JobStore

end JobGrid
