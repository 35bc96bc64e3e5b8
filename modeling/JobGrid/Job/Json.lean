import JobGrid.Job.Message
import JobGrid.Json.Reader
import JobGrid.Json.Writer
import JobGrid.Member.Json

/-!
# Messages in JSON

Messages are sent as JSON texts. Each kind of message is written and read by its name.
-/

namespace JobGrid

namespace JobSpec

def toJson (spec : JobSpec) : Json :=
  .ofMembers [
    ("id", encode spec.id),
    ("affinity_key", encode spec.affinityKey),
    ("stealing_disabled", .bool spec.stealingDisabled),
    ("work_ms", encode spec.work)]

def ofJson? (value : Json) : Option JobSpec := do
  let [id, key, disabled, work] ←
    Json.fields? ["id", "affinity_key", "stealing_disabled", "work_ms"] true value | none
  some {
    id := ← Json.required Uuid.ofJson? id
    affinityKey := ← Json.nullable Json.string? key
    stealingDisabled := ← Json.required Json.bool? disabled
    work := ← Json.required Json.word64? work }

instance : Encode JobSpec := ⟨toJson⟩

instance : Decode JobSpec := ⟨ofJson?⟩

end JobSpec

namespace JobState

def toJson (state : JobState) : Json := .ofString state.name

def ofJson? (value : Json) : Option JobState :=
  (Json.name? (all.map name) value).bind ofName?

instance : Encode JobState := ⟨toJson⟩

instance : Decode JobState := ⟨ofJson?⟩

end JobState

namespace StealRequest

def toJson (request : StealRequest) : Json := .ofMembers [("delta", encode request.delta)]

def ofJson? (value : Json) : Option StealRequest := do
  let [delta] ← Json.fields? ["delta"] true value | none
  some ⟨← Json.required Json.word32? delta⟩

instance : Encode StealRequest := ⟨toJson⟩

instance : Decode StealRequest := ⟨ofJson?⟩

end StealRequest

namespace JobTransfer

def toJson (transfer : JobTransfer) : Json :=
  .ofMembers [
    ("session", encode transfer.session),
    ("origin", encode transfer.origin),
    ("spec", transfer.spec.toJson),
    ("stealing_attempts", encode transfer.stealingAttempts),
    ("failover_attempts", encode transfer.failoverAttempts)]

/-- The names of the fields. -/
def fieldNames : List String :=
  ["session", "origin", "spec", "stealing_attempts", "failover_attempts"]

def ofJson? (value : Json) : Option JobTransfer := do
  let [session, origin, spec, stealing, failover] ← Json.fields? fieldNames true value | none
  some {
    session := ← Json.required Uuid.ofJson? session
    origin := ← Json.required Uuid.ofJson? origin
    spec := ← Json.required JobSpec.ofJson? spec
    stealingAttempts := ← Json.required Json.word32? stealing
    failoverAttempts := ← Json.required Json.word32? failover }

instance : Encode JobTransfer := ⟨toJson⟩

instance : Decode JobTransfer := ⟨ofJson?⟩

end JobTransfer

namespace JobRejected

def toJson (rejected : JobRejected) : Json :=
  .ofMembers [
    ("job", rejected.job.toJson),
    ("rejected_by", encode rejected.rejectedBy),
    ("thief", encode rejected.thief)]

def ofJson? (value : Json) : Option JobRejected := do
  let [job, rejectedBy, thief] ← Json.fields? ["job", "rejected_by", "thief"] true value | none
  some {
    job := ← Json.required JobTransfer.ofJson? job
    rejectedBy := ← Json.required Uuid.ofJson? rejectedBy
    thief := ← Json.nullable Uuid.ofJson? thief }

instance : Encode JobRejected := ⟨toJson⟩

instance : Decode JobRejected := ⟨ofJson?⟩

end JobRejected

namespace JobResult

def toJson (result : JobResult) : Json :=
  .ofMembers [
    ("session", encode result.session),
    ("job_id", encode result.job),
    ("executed_by", encode result.executedBy),
    ("stealing_attempts", encode result.stealingAttempts),
    ("completed_at", .ofString result.completedAt.text)]

/-- The names of the fields. -/
def fieldNames : List String :=
  ["session", "job_id", "executed_by", "stealing_attempts", "completed_at"]

def ofJson? (value : Json) : Option JobResult := do
  let [session, job, executedBy, stealing, completed] ←
    Json.fields? fieldNames true value | none
  some {
    session := ← Json.required Uuid.ofJson? session
    job := ← Json.required Uuid.ofJson? job
    executedBy := ← Json.required Uuid.ofJson? executedBy
    stealingAttempts := ← Json.required Json.word32? stealing
    completedAt := ← (← Json.required Json.string? completed) |> Timestamp.ofText? }

instance : Encode JobResult := ⟨toJson⟩

instance : Decode JobResult := ⟨ofJson?⟩

end JobResult

namespace TaskEvent

def toJson : TaskEvent → Json
  | mapped session => .ofMembers [("JobMapped", encode session)]
  | finished session => .ofMembers [("TaskFinished", encode session)]
  | failed session => .ofMembers [("TaskFailed", encode session)]

/-- Reads an event: its name is the only member, the session its value. -/
def ofJson? : Json → Option TaskEvent
  | .object [(some name, value)] => do
      let session ← Uuid.ofJson? value
      if name = "JobMapped" then some (mapped session)
      else if name = "TaskFinished" then some (finished session)
      else if name = "TaskFailed" then some (failed session)
      else none
  | _ => none

instance : Encode TaskEvent := ⟨toJson⟩

instance : Decode TaskEvent := ⟨ofJson?⟩

end TaskEvent

/-- A message of any kind. -/
inductive Message where
  | stealRequest (request : StealRequest)
  | jobSubmit (transfer : JobTransfer)
  | jobRejected (rejected : JobRejected)
  | jobResult (result : JobResult)
  deriving DecidableEq

namespace Message

/-- The topic under which a message is sent. -/
def topic : Message → String
  | stealRequest _ => Topic.stealRequest
  | jobSubmit _ => Topic.jobSubmit
  | jobRejected _ => Topic.jobRejected
  | jobResult _ => Topic.jobResult

def toJson : Message → Json
  | stealRequest request => request.toJson
  | jobSubmit transfer => transfer.toJson
  | jobRejected rejected => rejected.toJson
  | jobResult result => result.toJson

/-- The octets of a message. -/
def encode (message : Message) : Bytes := message.toJson.write

/-- Why an arrived message was not understood. -/
inductive DecodeError where
  | unknownTopic
  | malformed
  deriving DecidableEq, Repr

/-- The message that arrived under a topic. -/
def decode (topic : String) (payload : Bytes) : Except DecodeError Message :=
  let read {α : Type} (ofJson? : Json → Option α) (wrap : α → Message) :
      Except DecodeError Message :=
    match (Json.parse? payload).bind ofJson? with
    | some content => .ok (wrap content)
    | none => .error .malformed
  if topic = Topic.stealRequest then read StealRequest.ofJson? .stealRequest
  else if topic = Topic.jobSubmit then read JobTransfer.ofJson? .jobSubmit
  else if topic = Topic.jobRejected then read JobRejected.ofJson? .jobRejected
  else if topic = Topic.jobResult then read JobResult.ofJson? .jobResult
  else .error .unknownTopic

end Message

end JobGrid
