import ClearFeature.BatchStatus
import ClearFeature.Lib.Writing
import ClearFeature.Wire

/-!
# Durable batch metadata (`fs_core/stores/batch_metadata.py`)

Rows of jobs and of chunks, filled from events that may come in any order. The
status of a job is derived from its chunk rows after each write.
-/

namespace ClearFeature.BatchMetadata

structure BatchChunkRecord where
  chunkId : Value
  jobId : Value
  chunkIndex : Value
  chunkCount : Value
  status : Value
  itemCount : Value
  createdAt : Int
  updatedAt : Int
  okItems : Value := .int 0
  failedItems : Value := .int 0
  firstErrors : List Value := []
  finishedAt : Option Int := none

structure BatchJobRecord where
  jobId : Value
  status : JobState
  createdAt : Int
  updatedAt : Int
  view : Value := .null
  viewVersion : Value := .null
  requestedFeatures : List Value := []
  requestedFeatureGroups : List Value := []
  totalItems : Value := .int 0
  chunkCount : Value := .int 0
  writeOnline : Value := .bool false
  finishedAt : Option Int := none
  manifestId : Value := .null
  manifestIds : List Value := []

/-- `status in (…)` -/
def isOneOf (status : Value) (names : List String) : Bool := names.any fun name => status.pyEq (.str name)

/-- `status in _TERMINAL` -/
def isTerminal (status : Value) : Bool := isOneOf status ["completed", "completed_with_errors", "failed"]

/-- Equality of `_processed_identity`. -/
def sameResult (a b : BatchChunkRecord) : Bool :=
  a.status.pyEq b.status && a.itemCount.pyEq b.itemCount && a.okItems.pyEq b.okItems &&
    a.failedItems.pyEq b.failedItems && (Value.arr a.firstErrors).pyEq (.arr b.firstErrors)

/-- `{chunk_id!r}`; a chunk id that was hashed is no container. -/
def reprId : Value → String
  | .str s => reprStr s
  | .int n => toString n
  | .bool b => if b then "True" else "False"
  | v => v.typeName

/-- Whether the incoming result is one more of the stored one; a different one is refused. -/
def checkProcessedConflict (existing : Option BatchChunkRecord) (incoming : BatchChunkRecord) : Except PyErr Bool :=
  match existing with
  | none => .ok false
  | some existing =>
    if isTerminal existing.status = false then .ok false
    else if sameResult existing incoming then .ok true
    else
      .error (.other "BatchMetadataConflictError"
        s!"chunk {reprId incoming.chunkId} re-processed with a different result")

/-- `any(c.failed_items > 0 for c in chunks)` -/
def anyFailedItems : List BatchChunkRecord → Except PyErr Bool
  | [] => .ok false
  | c :: cs => do
    if ← c.failedItems.gtInt 0 then return true
    else anyFailedItems cs

def deriveJobStatus (chunks : List BatchChunkRecord) (chunkCount : Value) : Except PyErr JobState :=
  if chunks.isEmpty then .ok .accepted
  else do
    let allThere ← chunkCount.leInt chunks.length
    if !(allThere && chunks.all fun c => isTerminal c.status) then
      return if chunks.all fun c => isOneOf c.status ["accepted", "requested"] then .accepted else .running
    else if chunks.all fun c => c.status.pyEq (.str "failed") then return .failed
    else if chunks.any fun c => isOneOf c.status ["failed", "completed_with_errors"] then return .completedWithErrors
    else if ← anyFailedItems chunks then return .completedWithErrors
    else return .completed

/-- `inc if inc else exi` -/
def pickTruthy (inc exi : Value) : Value := if inc.truthy then inc else exi

def mergeJobSnapshot (existing : Option BatchJobRecord) (incoming : BatchJobRecord) (now : Int) : BatchJobRecord :=
  match existing with
  | none => { incoming with updatedAt := now }
  | some existing =>
    { existing with
      view := pickTruthy incoming.view existing.view
      viewVersion := pickTruthy incoming.viewVersion existing.viewVersion
      requestedFeatures := if incoming.requestedFeatures.isEmpty then existing.requestedFeatures else incoming.requestedFeatures
      requestedFeatureGroups :=
        if incoming.requestedFeatureGroups.isEmpty then existing.requestedFeatureGroups else incoming.requestedFeatureGroups
      totalItems := pickTruthy incoming.totalItems existing.totalItems
      chunkCount := pickTruthy incoming.chunkCount existing.chunkCount
      writeOnline := pickTruthy incoming.writeOnline existing.writeOnline
      manifestId := pickTruthy incoming.manifestId existing.manifestId
      manifestIds := if incoming.manifestIds.isEmpty then existing.manifestIds else incoming.manifestIds
      updatedAt := now }

/-! ## The store -/

structure BatchMetadataStore where
  jobs : List (Value.Key × BatchJobRecord) := []
  chunks : List (Value.Key × BatchChunkRecord) := []

namespace BatchMetadataStore

abbrev Program : Type → Type := Writing PyErr BatchMetadataStore

def listChunks (store : BatchMetadataStore) (jobId : Value) : List BatchChunkRecord :=
  (Dict.values store.chunks).filter fun c => c.jobId.pyEq jobId

/-- The chunk count of the job row counts once it is known. -/
def effectiveCount (existing : Option BatchJobRecord) (chunkCount : Value) : Value :=
  match existing with
  | some job => if job.chunkCount.truthy then job.chunkCount else chunkCount
  | none => chunkCount

/-- The job row with a status derived at the time `now`. -/
def derivedRow (existing : Option BatchJobRecord) (jobId chunkCount : Value) (status : JobState) (now : Int) :
    BatchJobRecord :=
  let finishedAt := if status.terminal then some now else none
  match existing with
  | none => { jobId, status, createdAt := now, updatedAt := now, chunkCount, finishedAt }
  | some job => { job with status, updatedAt := now, finishedAt }

/-- `_recompute_job_status` -/
def recomputed (store : BatchMetadataStore) (jobId chunkCount : Value) (now : Int) : Except PyErr BatchMetadataStore := do
  let chunks := store.listChunks jobId
  let key ← jobId.asKey
  let existing := Dict.get? store.jobs key
  let status ← deriveJobStatus chunks (effectiveCount existing chunkCount)
  return { store with jobs := Dict.set store.jobs key (derivedRow existing jobId chunkCount status now) }

def recomputeJobStatus (jobId chunkCount : Value) (now : Int) : Program Unit :=
  Writing.write fun store => store.recomputed jobId chunkCount now

def putJob (store : BatchMetadataStore) (key : Value.Key) (job : BatchJobRecord) : BatchMetadataStore :=
  { store with jobs := Dict.set store.jobs key job }

def putChunk (store : BatchMetadataStore) (key : Value.Key) (chunk : BatchChunkRecord) : BatchMetadataStore :=
  { store with chunks := Dict.set store.chunks key chunk }

/-- The clock is read by the merge and by the derivation. -/
def upsertJob (job : BatchJobRecord) (mergedAt derivedAt : Int) : Program Unit := do
  let key ← Writing.need job.jobId.asKey
  let store ← get
  let merged := mergeJobSnapshot (Dict.get? store.jobs key) job mergedAt
  set (store.putJob key merged)
  recomputeJobStatus job.jobId merged.chunkCount derivedAt

/-- A chunk row keeps the creation time of the row it replaces. -/
def replacing (existing : Option BatchChunkRecord) (chunk : BatchChunkRecord) : BatchChunkRecord :=
  match existing with
  | none => chunk
  | some existing => { chunk with createdAt := existing.createdAt }

def upsertChunkRequested (chunk : BatchChunkRecord) (derivedAt : Int) : Program Unit := do
  let key ← Writing.need chunk.chunkId.asKey
  let store ← get
  let existing := Dict.get? store.chunks key
  if existing.any fun e => isTerminal e.status then return ()
  else
    set (store.putChunk key (replacing existing chunk))
    recomputeJobStatus chunk.jobId chunk.chunkCount derivedAt

def upsertChunkProcessed (chunk : BatchChunkRecord) (derivedAt : Int) : Program Unit := do
  let key ← Writing.need chunk.chunkId.asKey
  let store ← get
  let existing := Dict.get? store.chunks key
  if ← Writing.need (checkProcessedConflict existing chunk) then return ()
  else
    set (store.putChunk key (replacing existing chunk))
    recomputeJobStatus chunk.jobId chunk.chunkCount derivedAt

/-! ## What the programs do -/

section
variable (store : BatchMetadataStore)

theorem run_upsertJob (job : BatchJobRecord) (mergedAt derivedAt : Int) :
    EStateM.run (upsertJob job mergedAt derivedAt) store =
      match job.jobId.asKey with
      | .error e => .error e store
      | .ok key =>
        let merged := mergeJobSnapshot (Dict.get? store.jobs key) job mergedAt
        EStateM.run (recomputeJobStatus job.jobId merged.chunkCount derivedAt) (store.putJob key merged) := by
  unfold upsertJob
  cases job.jobId.asKey with
  | error e => rfl
  | ok key => rfl

theorem run_upsertChunkRequested (chunk : BatchChunkRecord) (derivedAt : Int) :
    EStateM.run (upsertChunkRequested chunk derivedAt) store =
      match chunk.chunkId.asKey with
      | .error e => .error e store
      | .ok key =>
        if (Dict.get? store.chunks key).any fun e => isTerminal e.status then .ok () store
        else EStateM.run (recomputeJobStatus chunk.jobId chunk.chunkCount derivedAt)
          (store.putChunk key (replacing (Dict.get? store.chunks key) chunk)) := by
  unfold upsertChunkRequested
  cases chunk.chunkId.asKey with
  | error e => rfl
  | ok key =>
    rw [Writing.run_bind_of_ok (Writing.run_need_ok key store), EStateM.run_bind]
    show EStateM.run (if _ then _ else _) store = _
    dsimp only
    split <;> rfl

theorem run_upsertChunkProcessed (chunk : BatchChunkRecord) (derivedAt : Int) :
    EStateM.run (upsertChunkProcessed chunk derivedAt) store =
      match chunk.chunkId.asKey with
      | .error e => .error e store
      | .ok key =>
        match checkProcessedConflict (Dict.get? store.chunks key) chunk with
        | .error e => .error e store
        | .ok true => .ok () store
        | .ok false =>
          EStateM.run (recomputeJobStatus chunk.jobId chunk.chunkCount derivedAt)
            (store.putChunk key (replacing (Dict.get? store.chunks key) chunk)) := by
  unfold upsertChunkProcessed
  cases chunk.chunkId.asKey with
  | error e => rfl
  | ok key =>
    rw [Writing.run_bind_of_ok (Writing.run_need_ok key store), EStateM.run_bind]
    show EStateM.run (Writing.need (checkProcessedConflict (Dict.get? store.chunks key) chunk) >>= _) store = _
    dsimp only
    cases checkProcessedConflict (Dict.get? store.chunks key) chunk with
    | error e => rfl
    | ok same => cases same <;> rfl

end

end BatchMetadataStore

end ClearFeature.BatchMetadata
