import ClearFeature.BatchScope
import ClearFeature.BatchStatus
import ClearFeature.Lib.Prog
import ClearFeature.Planner

/-!
# Batch jobs (`api/app.py`)

The idempotency key of a request is the id of its job. A job that is there and
has not failed to publish is compared with the request; otherwise the job is
written and its chunks are published one by one.
-/

namespace ClearFeature

structure BatchSettings where
  batchMaxChunkSize : Int
  batchMaxItems : Nat
  batchMaxManifestItems : Nat

/-! ## Identity -/

structure BatchIdentity where
  scopeCategory : String
  provenance : List String
  view : String
  viewVersion : Int
  requestedOutputs : List (String × Int)
  writeOnline : Bool
  onlineRefreshMode : Option String
  totalItems : Nat
  chunkCount : Int
  deriving DecidableEq

def outputLe (a b : String × Int) : Prop := a.1 < b.1 ∨ a.1 = b.1 ∧ a.2 ≤ b.2

instance : DecidableRel outputLe := fun a b => inferInstanceAs (Decidable (_ ∨ _))

def sortOutputs (outputs : List FeatureRef) : List (String × Int) :=
  (outputs.map fun ref => (ref.name, ref.version)).insertionSort outputLe

def batchRequestIdentity (view : String) (viewVersion : Int) (requestedOutputs : List FeatureRef)
    (manifestId : Option String) (manifestIds : List String) (writeOnline : Bool) (onlineRefreshMode : Option String)
    (totalItems : Nat) (chunkCount : Int) : BatchIdentity :=
  let (scopeCategory, provenance) := match manifestId with
    | some manifestId => ("source_dataset_manifest", [manifestId])
    | none =>
      if manifestIds ≠ [] then ("source_dataset_manifests", sortNames manifestIds) else ("inline", [])
  { scopeCategory, provenance, view, viewVersion, requestedOutputs := sortOutputs requestedOutputs
    writeOnline, onlineRefreshMode, totalItems, chunkCount }

/-- `_find_view` and `plan_features` -/
def planRequest (registry : Registry) (view : String) (viewVersion : Int) (features groups : List String) :
    Except PyErr (FeatureViewDef × FeaturePlan) := do
  let viewDef ← registry.findView view viewVersion
  let plan ← planFeatures viewDef features groups
  return (viewDef, plan)

/-- `_existing_job_identity`; `none` where the stored request does not plan. -/
def existingJobIdentity (registry : Registry) (job : BatchJobStatus) : Option BatchIdentity :=
  match planRequest registry job.view job.viewVersion job.requestedFeatures job.requestedFeatureGroups with
  | .error _ => none
  | .ok (_, plan) =>
    some (batchRequestIdentity job.view job.viewVersion plan.requestedOutputs job.manifestId job.manifestIds
      job.writeOnline job.onlineRefreshMode job.totalItems job.chunkCount)

/-! ## Requests that are accepted -/

structure PreparedBatch where
  plan : FeaturePlan
  items : List BatchItem
  manifestId : Option String
  manifestIds : List String

def scopeItems (registry : Registry) (datasets : SourceDatasets) (request : BatchJobIn) (viewDef : FeatureViewDef) :
    Except HttpError (List BatchItem × Option String × List String) :=
  if request.scope.type = "inline" then
    .ok (request.scope.items.map fun item =>
      { entityType := item.entityType, entityKey := item.entityKey, inlineSources := item.inlineSources }, none, [])
  else if request.scope.type = "source_dataset_manifest" then do
    let (items, manifestId) ← manifestBatchItems datasets request
    return (items, some manifestId, [manifestId])
  else if request.scope.type = "source_dataset_manifests" then do
    let (items, manifestIds) ← multiManifestBatchItems registry datasets request viewDef
    return (items, none, manifestIds)
  else
    .error (badRequest (s!"unsupported scope type {reprStr request.scope.type}; expected " ++
      "'inline', 'source_dataset_manifest' or 'source_dataset_manifests'"))

def prepareBatch (settings : BatchSettings) (registry : Registry) (datasets : SourceDatasets) (request : BatchJobIn) :
    Except HttpError PreparedBatch := do
  refuseIf (request.chunkSize ≤ 0 ∨ settings.batchMaxChunkSize < request.chunkSize)
    s!"chunk_size must be in 1..{settings.batchMaxChunkSize}"
  match planRequest registry request.view request.viewVersion request.requestedFeatures request.requestedFeatureGroups with
  | .error e => .error (badRequest e.msg)
  | .ok (viewDef, plan) => do
    let (items, manifestId, manifestIds) ← scopeItems registry datasets request viewDef
    refuseIf (items.isEmpty = true) "scope produced no eligible items"
    let maxItems := if manifestIds ≠ [] then settings.batchMaxManifestItems else settings.batchMaxItems
    refuseIf (maxItems < items.length) s!"total items {items.length} exceeds cap {maxItems}"
    return { plan, items, manifestId, manifestIds }

/-- The identity of a request; the chunk count is `-(-n // size)`. -/
def PreparedBatch.identity (prepared : PreparedBatch) (request : BatchJobIn) : BatchIdentity :=
  batchRequestIdentity request.view request.viewVersion prepared.plan.requestedOutputs prepared.manifestId
    prepared.manifestIds request.writeOnline request.onlineRefreshMode prepared.items.length
    (-(-(prepared.items.length : Int) / request.chunkSize))

/-! ## Chunks -/

/-- `[items[i : i + size] for i in range(0, len(items), size)]`; the fuel is the number of items. -/
def slices {α : Type} (size : Nat) : Nat → List α → List (List α)
  | 0, _ => []
  | fuel + 1, items =>
    if items.isEmpty then [] else items.take size :: slices size fuel (items.drop size)

def PreparedBatch.chunks (prepared : PreparedBatch) (request : BatchJobIn) : List (List BatchItem) :=
  slices request.chunkSize.toNat prepared.items.length prepared.items

/-- The event of one chunk with the fields that only the metadata projection reads. -/
structure BatchChunkEvent extends BatchChunkRequested where
  correlationId : String
  occurredAt : Int
  totalItems : Nat
  manifestIds : List String

def chunkIdOf (jobId : String) (index : Nat) : String := s!"{jobId}:{index}"

def PreparedBatch.chunkEvents (prepared : PreparedBatch) (request : BatchJobIn) (now : Int) :
    List (Nat × BatchChunkEvent) :=
  let chunks := prepared.chunks request
  (chunks.zipIdx).map fun (items, index) => (index, {
    batchJobId := request.idempotencyKey
    chunkId := chunkIdOf request.idempotencyKey index
    chunkIndex := index
    chunkCount := chunks.length
    correlationId := request.idempotencyKey
    occurredAt := now
    view := request.view
    viewVersion := request.viewVersion
    items
    requestedFeatures := request.requestedFeatures
    requestedFeatureGroups := request.requestedFeatureGroups
    writeOnline := request.writeOnline
    totalItems := prepared.items.length
    manifestId := prepared.manifestId
    manifestIds := prepared.manifestIds })

def PreparedBatch.chunkStatuses (prepared : PreparedBatch) (request : BatchJobIn) (now : Int) :
    List (String × BatchChunkStatus) :=
  ((prepared.chunks request).zipIdx).foldl (fun statuses (items, index) =>
    let chunkId := chunkIdOf request.idempotencyKey index
    Dict.set statuses chunkId
      { chunkId, chunkIndex := index, status := .accepted, itemCount := items.length, updatedAt := now }) []

def PreparedBatch.job (prepared : PreparedBatch) (request : BatchJobIn) (now : Int) : BatchJobStatus where
  jobId := request.idempotencyKey
  status := .accepted
  view := request.view
  viewVersion := request.viewVersion
  createdAt := now
  updatedAt := now
  totalItems := prepared.items.length
  chunkCount := (prepared.chunks request).length
  writeOnline := request.writeOnline
  requestedFeatures := request.requestedFeatures
  requestedFeatureGroups := request.requestedFeatureGroups
  chunks := prepared.chunkStatuses request now
  manifestId := prepared.manifestId
  manifestIds := prepared.manifestIds
  onlineRefreshMode := request.onlineRefreshMode

/-! ## The endpoint -/

structure BatchJobResponse where
  jobId : String
  status : String
  chunkCount : Nat
  totalItems : Nat
  manifestId : Option String
  manifestIds : List String
  deriving DecidableEq

def acceptedJob (job : BatchJobStatus) : BatchJobResponse where
  jobId := job.jobId
  status := "accepted"
  chunkCount := job.chunkCount
  totalItems := job.totalItems
  manifestId := job.manifestId
  manifestIds := job.manifestIds

/-- The status store answers every call; a publish may raise. -/
inductive BatchApiCall where
  | now
  | get (jobId : String)
  | put (job : BatchJobStatus)
  | publish (event : BatchChunkEvent)

abbrev BatchApiCall.Ans : BatchApiCall → Type
  | .now => Int
  | .get _ => Option BatchJobStatus
  | .put _ => Unit
  | .publish _ => Except PyErr Unit

namespace BatchApi

abbrev Program : Type → Type := Prog BatchApiCall BatchApiCall.Ans

abbrev now : Program Int := Prog.ask BatchApiCall.now

abbrev get (jobId : String) : Program (Option BatchJobStatus) := Prog.ask (BatchApiCall.get jobId)

abbrev put (job : BatchJobStatus) : Program Unit := Prog.ask (BatchApiCall.put job)

abbrev publish (event : BatchChunkEvent) : Program (Except PyErr Unit) := Prog.ask (BatchApiCall.publish event)

def failedToPublish (job : BatchJobStatus) (failedAt : Int) (error : PublishError) : BatchJobStatus :=
  { job with status := .publishFailed, updatedAt := failedAt, errorSummary := some error }

/-- The loop over the chunks. Where one is not published, the job is put again as it was before the first. -/
def publishChunks (job : BatchJobStatus) (response : BatchJobResponse) :
    Nat → List (Nat × BatchChunkEvent) → Program (Except HttpError BatchJobResponse)
  | _, [] => return .ok response
  | published, (index, event) :: events => do
    match ← publish event with
    | .ok () => publishChunks job response (published + 1) events
    | .error e =>
      let failedAt ← now
      put (failedToPublish job failedAt ⟨published, index, e.msg⟩)
      return .error ⟨503, s!"failed to publish chunk {index}: {e.msg}"⟩

def createAndPublish (prepared : PreparedBatch) (request : BatchJobIn) (startedAt : Int) :
    Program (Except HttpError BatchJobResponse) := do
  let job := prepared.job request startedAt
  put job
  publishChunks job (acceptedJob job) 0 (prepared.chunkEvents request startedAt)

def conflict (jobId : String) : HttpError :=
  ⟨409, s!"idempotency_key {reprStr jobId} is already used by a different batch request; " ++
    "reuse the key only for an identical resubmission or choose a new key"⟩

/-- An existing job that is not to be published again is returned to an identical request. -/
def replayJob (registry : Registry) (prepared : PreparedBatch) (request : BatchJobIn) (existing : BatchJobStatus) :
    Except HttpError BatchJobResponse :=
  if some (prepared.identity request) = existingJobIdentity registry existing then
    .ok (acceptedJob existing)
  else .error (conflict request.idempotencyKey)

/-- `POST /v1/batch/jobs` -/
def createBatchJob (settings : BatchSettings) (registry : Registry) (datasets : SourceDatasets) (request : BatchJobIn) :
    Program (Except HttpError BatchJobResponse) := do
  match prepareBatch settings registry datasets request with
  | .error e => return .error e
  | .ok prepared =>
    let startedAt ← now
    match ← get request.idempotencyKey with
    | none => createAndPublish prepared request startedAt
    | some existing =>
      if existing.status = .publishFailed then createAndPublish prepared request startedAt
      else return replayJob registry prepared request existing

end BatchApi

end ClearFeature
