import JobGrid.Job.Json
import JobGrid.Proofs.Json.Fields

/-!
# Messages on the wire

Every message that is sent is understood as it was meant: a request for work, a job on its way,
a job that was refused, and the result of a job, as long as its time can be read back.
-/

namespace JobGrid

open Json

/-! ## Reading the values of messages -/

theorem JobSpec.ofJson?_toJson (spec : JobSpec) : JobSpec.ofJson? spec.toJson = some spec := by
  have found := fields?_ofMembers [
    ("id", encode spec.id),
    ("affinity_key", encode spec.affinityKey),
    ("stealing_disabled", .bool spec.stealingDisabled),
    ("work_ms", encode spec.work)] true (by simp)
  have key : nullable Json.string? (some (encode spec.affinityKey)) = some spec.affinityKey :=
    nullable_encode spec.affinityKey (fun _ => by simp [encode, ofString]) fun _ => rfl
  simp only [List.map_cons, List.map_nil] at found
  simp [ofJson?, toJson, found, required, key, Json.bool?]

theorem StealRequest.ofJson?_toJson (request : StealRequest) :
    StealRequest.ofJson? request.toJson = some request := by
  have found := fields?_ofMembers [("delta", encode request.delta)] true (by simp)
  simp only [List.map_cons, List.map_nil] at found
  simp [ofJson?, toJson, found, required]

theorem JobTransfer.ofJson?_toJson (transfer : JobTransfer) :
    JobTransfer.ofJson? transfer.toJson = some transfer := by
  have found := fields?_ofMembers [
    ("session", encode transfer.session),
    ("origin", encode transfer.origin),
    ("spec", transfer.spec.toJson),
    ("stealing_attempts", encode transfer.stealingAttempts),
    ("failover_attempts", encode transfer.failoverAttempts)] true (by simp)
  simp only [List.map_cons, List.map_nil] at found
  simp [ofJson?, toJson, fieldNames, found, required, JobSpec.ofJson?_toJson]

theorem JobRejected.ofJson?_toJson (rejected : JobRejected) :
    JobRejected.ofJson? rejected.toJson = some rejected := by
  have found := fields?_ofMembers [
    ("job", rejected.job.toJson),
    ("rejected_by", encode rejected.rejectedBy),
    ("thief", encode rejected.thief)] true (by simp)
  have thief : nullable Uuid.ofJson? (some (encode rejected.thief)) = some rejected.thief :=
    nullable_encode rejected.thief (fun _ => by simp [encode, ofString])
      uuid_ofJson?_encode
  simp only [List.map_cons, List.map_nil] at found
  simp [ofJson?, toJson, found, required, JobTransfer.ofJson?_toJson, thief]

theorem JobResult.ofJson?_toJson {result : JobResult}
    (readable : Timestamp.ofText? result.completedAt.text = some result.completedAt) :
    JobResult.ofJson? result.toJson = some result := by
  have found := fields?_ofMembers [
    ("session", encode result.session),
    ("job_id", encode result.job),
    ("executed_by", encode result.executedBy),
    ("stealing_attempts", encode result.stealingAttempts),
    ("completed_at", .ofString result.completedAt.text)] true (by simp)
  simp only [List.map_cons, List.map_nil] at found
  simp [ofJson?, toJson, fieldNames, found, required, readable]

/-! ## Writing the values of messages -/

namespace Message

/-- Whether the times of a message can be read back. -/
def Readable : Message → Prop
  | jobResult result => Timestamp.ofText? result.completedAt.text = some result.completedAt
  | _ => True

theorem wellFormed_spec (spec : JobSpec) : spec.toJson.WellFormed := by
  apply wellFormed_ofMembers
  simp only [List.mem_cons, List.not_mem_nil, or_false]
  rintro member (rfl | rfl | rfl | rfl)
  · exact wellFormed_ofString _
  · cases spec.affinityKey with
    | none => trivial
    | some key => exact wellFormed_ofString _
  · trivial
  · exact wellFormed_ofNat _

theorem wellFormed_transfer (transfer : JobTransfer) : transfer.toJson.WellFormed := by
  apply wellFormed_ofMembers
  simp only [List.mem_cons, List.not_mem_nil, or_false]
  rintro member (rfl | rfl | rfl | rfl | rfl)
  · exact wellFormed_ofString _
  · exact wellFormed_ofString _
  · exact wellFormed_spec transfer.spec
  · exact wellFormed_ofNat _
  · exact wellFormed_ofNat _

theorem wellFormed_toJson (message : Message) : message.toJson.WellFormed := by
  cases message with
  | stealRequest request =>
      apply wellFormed_ofMembers
      simp only [List.mem_cons, List.not_mem_nil, or_false]
      rintro member rfl
      exact wellFormed_ofNat _
  | jobSubmit transfer => exact wellFormed_transfer transfer
  | jobRejected rejected =>
      apply wellFormed_ofMembers
      simp only [List.mem_cons, List.not_mem_nil, or_false]
      rintro member (rfl | rfl | rfl)
      · exact wellFormed_transfer rejected.job
      · exact wellFormed_ofString _
      · cases rejected.thief with
        | none => trivial
        | some thief => exact wellFormed_ofString _
  | jobResult result =>
      apply wellFormed_ofMembers
      simp only [List.mem_cons, List.not_mem_nil, or_false]
      rintro member (rfl | rfl | rfl | rfl | rfl)
      · exact wellFormed_ofString _
      · exact wellFormed_ofString _
      · exact wellFormed_ofString _
      · exact wellFormed_ofNat _
      · exact wellFormed_ofString _

/-- A message that is sent is understood as it was meant. -/
theorem decode_encode {message : Message} (readable : message.Readable) :
    decode message.topic message.encode = .ok message := by
  have parsed := parse?_write message.wellFormed_toJson
  cases message with
  | stealRequest request =>
      simp only [toJson] at parsed
      simp [decode, topic, encode, toJson, parsed, StealRequest.ofJson?_toJson]
  | jobSubmit transfer =>
      simp only [toJson] at parsed
      simp [decode, topic, encode, toJson, parsed, JobTransfer.ofJson?_toJson,
        Topic.stealRequest, Topic.jobSubmit]
  | jobRejected rejected =>
      simp only [toJson] at parsed
      simp [decode, topic, encode, toJson, parsed, JobRejected.ofJson?_toJson,
        Topic.stealRequest, Topic.jobSubmit, Topic.jobRejected]
  | jobResult result =>
      simp only [toJson] at parsed
      simp [decode, topic, encode, toJson, parsed, JobResult.ofJson?_toJson readable,
        Topic.stealRequest, Topic.jobSubmit, Topic.jobRejected, Topic.jobResult]

end Message

/-! ## Jobs that travel -/

/-- What arrives of a job is a new handle that waits and has no thief. -/
theorem JobTransfer.toHandle_ofHandle (job : JobHandle) (arrival : Moment) :
    (ofHandle job).toHandle arrival =
      { job with createdAt := arrival, state := .waiting, thief := none } := rfl

namespace Message

/-- A job survives its way to another node. Whatever state its handle is in, whatever its key
spells and however often it was tried, its transfer is understood, and the handle that is made of
it on arrival waits, has no thief and is else the job that was sent. So are refusals understood,
with and without a thief, and requests for work. -/
theorem job_survives (job : JobHandle) (arrival : Moment) (rejected : JobRejected)
    (request : StealRequest) :
    (∃ transfer, decode Topic.jobSubmit (encode (.jobSubmit (.ofHandle job))) =
        .ok (.jobSubmit transfer) ∧
      let arrived := transfer.toHandle arrival
      arrived.state = .waiting ∧ arrived.thief = none ∧ arrived.id = job.id ∧
        arrived.session = job.session ∧ arrived.origin = job.origin ∧ arrived.spec = job.spec ∧
        arrived.stealingAttempts = job.stealingAttempts ∧
        arrived.failoverAttempts = job.failoverAttempts) ∧
      decode Topic.jobRejected (encode (.jobRejected rejected)) = .ok (.jobRejected rejected) ∧
      decode Topic.stealRequest (encode (.stealRequest request)) =
        .ok (.stealRequest request) := by
  refine ⟨⟨.ofHandle job, ?_, ?_⟩, ?_, ?_⟩
  · exact @decode_encode (.jobSubmit (.ofHandle job)) trivial
  · rw [JobTransfer.toHandle_ofHandle]
    exact ⟨rfl, rfl, rfl, rfl, rfl, rfl, rfl, rfl⟩
  · exact @decode_encode (.jobRejected rejected) trivial
  · exact @decode_encode (.stealRequest request) trivial

end Message

end JobGrid
