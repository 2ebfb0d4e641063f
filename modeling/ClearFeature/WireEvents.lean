import ClearFeature.Wire

/-!
# Events on the wire (`fs_core/events/models.py`, `FeatureWriteSet.from_dict`)

`from_dict` takes the fields of a decoded message in order. It parses times and
copies containers; it does not check the types of the other fields.
-/

namespace ClearFeature.Wire

open Value

/-- `data.items()` -/
def items (data : Value) : Except PyErr (List (String × Value)) :=
  match data with
  | .obj kvs => .ok kvs
  | v => .error (.attributeError s!"{reprStr v.typeName} object has no attribute 'items'")

/-- `list(data.get(name, []))` -/
def listOr (data : Value) (name : String) : Except PyErr (List Value) := do
  let v ← data.getOr name (.arr [])
  v.toList

structure EntityRef where
  entityType : Value
  entityKey : Mapping

def EntityRef.fromDict (data : Value) : Except PyErr EntityRef := do
  let entityType ← data.item "entity_type"
  let key ← data.item "entity_key"
  let entityKey ← key.toMapping
  return { entityType, entityKey }

section
variable (codec : WireCodec)

/-- `_parse_dt(data[name])` -/
def timeAt (data : Value) (name : String) : Except PyErr WireTime := do
  let v ← data.item name
  v.toTime codec

/-- `_parse_dt(value) if value is not None else None`, the value being `data.get(name)`. -/
def timeAt? (data : Value) (name : String) : Except PyErr (Option WireTime) := do
  let v ← data.getOr name .null
  v.toTime? codec

/-! ## Requests -/

structure ReportDescriptor where
  reportRef : Value
  sourceName : Value
  reportType : Value
  schemaVersion : Value
  reportTs : WireTime
  objectKey : Value
  contentHash : Value
  sizeBytes : Value
  compression : Value
  format : Value
  availableAt : Option WireTime

def ReportDescriptor.fromDict (data : Value) : Except PyErr ReportDescriptor := do
  let reportRef ← data.item "report_ref"
  let sourceName ← data.item "source_name"
  let reportType ← data.item "report_type"
  let schemaVersion ← data.item "schema_version"
  let reportTs ← timeAt codec data "report_ts"
  let objectKey ← data.item "object_key"
  let contentHash ← data.item "content_hash"
  let sizeBytes ← data.item "size_bytes"
  let compression ← data.item "compression"
  let format ← data.item "format"
  let availableAt ← timeAt? codec data "available_at"
  return { reportRef, sourceName, reportType, schemaVersion, reportTs, objectKey, contentHash, sizeBytes,
           compression, format, availableAt }

structure FeatureComputeRequested where
  requestId : Value
  jobId : Value
  priority : Value
  deadlineMs : Value
  entity : EntityRef
  view : Value
  viewVersion : Value
  reports : List ReportDescriptor
  writePolicy : Value
  idempotencyKey : Value
  correlationId : Value
  occurredAt : WireTime
  requestedFeatureGroups : List Value
  requestedFeatures : List Value
  eventTs : Option WireTime
  expiresAt : Option WireTime
  eventType : Value
  eventVersion : Value

/-- `_iso(value)`, called for its check. -/
def requireIso (time : WireTime) : Except PyErr Int :=
  match time with
  | .aware instant => .ok instant
  | .naive _ => .error (.valueError "event datetimes must be timezone-aware")

/-- `__post_init__`: the two times of the deadline. -/
def checkDeadline (eventTs expiresAt : Option WireTime) : Except PyErr Unit := do
  let event ← eventTs.mapM requireIso
  let expires ← expiresAt.mapM requireIso
  match event, expires with
  | some event, some expires => raiseIf (expires ≤ event) "expires_at must be strictly after event_ts"
  | _, _ => return ()

def FeatureComputeRequested.fromDict (data : Value) : Except PyErr FeatureComputeRequested := do
  let requestId ← data.item "request_id"
  let jobId ← data.item "job_id"
  let priority ← data.item "priority"
  let deadlineMs ← data.item "deadline_ms"
  let entity ← EntityRef.fromDict (← data.item "entity")
  let view ← data.item "view"
  let viewVersion ← data.item "view_version"
  let reports ← (← (← data.item "reports").toList).mapM (ReportDescriptor.fromDict codec)
  let writePolicy ← data.item "write_policy"
  let idempotencyKey ← data.item "idempotency_key"
  let correlationId ← data.item "correlation_id"
  let occurredAt ← timeAt codec data "occurred_at"
  let requestedFeatureGroups ← listOr data "requested_feature_groups"
  let requestedFeatures ← listOr data "requested_features"
  let eventTs ← timeAt? codec data "event_ts"
  let expiresAt ← timeAt? codec data "expires_at"
  let eventType ← data.getOr "event_type" (.str "feature_compute.requested")
  let eventVersion ← data.getOr "event_version" (.int 1)
  checkDeadline eventTs expiresAt
  return { requestId, jobId, priority, deadlineMs, entity, view, viewVersion, reports, writePolicy, idempotencyKey,
           correlationId, occurredAt, requestedFeatureGroups, requestedFeatures, eventTs, expiresAt, eventType,
           eventVersion }

structure FeatureComputeCompleted where
  requestId : Value
  jobId : Value
  entity : EntityRef
  view : Value
  viewVersion : Value
  correlationId : Value
  occurredAt : WireTime
  writtenFeatures : List Value
  onlineWriteStatus : Value
  eventType : Value
  eventVersion : Value

def FeatureComputeCompleted.fromDict (data : Value) : Except PyErr FeatureComputeCompleted := do
  let requestId ← data.item "request_id"
  let jobId ← data.item "job_id"
  let entity ← EntityRef.fromDict (← data.item "entity")
  let view ← data.item "view"
  let viewVersion ← data.item "view_version"
  let correlationId ← data.item "correlation_id"
  let occurredAt ← timeAt codec data "occurred_at"
  let writtenFeatures ← listOr data "written_features"
  let onlineWriteStatus ← data.getOr "online_write_status" .null
  let eventType ← data.getOr "event_type" (.str "feature_compute.completed")
  let eventVersion ← data.getOr "event_version" (.int 1)
  return { requestId, jobId, entity, view, viewVersion, correlationId, occurredAt, writtenFeatures, onlineWriteStatus,
           eventType, eventVersion }

/-! ## Offline writes -/

structure FeatureResult where
  featureName : Value
  featureVersion : Value
  value : Value
  dataTs : Int
  calcTs : Int
  maxInputDataTs : Option Int
  inputFingerprint : Value
  valueHash : Value
  availableAt : Option Int
  availabilitySource : Value
  modelUri : Value
  modelDigest : Value
  modelOutputName : Value
  bundleDigest : Value

/-- `FeatureRef.__post_init__` -/
def checkRef (name version : Value) : Except PyErr Unit := do
  match name with
  | .str n => raiseIf (isBlank n = true) "feature name must be non-empty"
  | v =>
    if v.truthy then .error (.attributeError s!"{reprStr v.typeName} object has no attribute 'strip'")
    else .error (.valueError "feature name must be non-empty")
  raiseIf ((← version.ltInt 1) = true) "feature version must be >= 1"

def FeatureResult.fromDict (data : Value) : Except PyErr FeatureResult := do
  let featureName ← data.item "feature_name"
  let featureVersion ← data.item "feature_version"
  checkRef featureName featureVersion
  let value ← data.item "value"
  let dataTs ← timeAt codec data "data_ts"
  let calcTs ← timeAt codec data "calc_ts"
  let maxInputDataTs ← timeAt? codec data "max_input_data_ts"
  let inputFingerprint ← data.getOr "input_fingerprint" .null
  let valueHash ← data.getOr "value_hash" .null
  let availableAt ← timeAt? codec data "available_at"
  let availabilitySource ← data.getOr "availability_source" .null
  let modelUri ← data.getOr "model_uri" .null
  let modelDigest ← data.getOr "model_digest" .null
  let modelOutputName ← data.getOr "model_output_name" .null
  let bundleDigest ← data.getOr "bundle_digest" .null
  let dataTs ← requireAware dataTs "data_ts"
  let calcTs ← requireAware calcTs "calc_ts"
  let maxInputDataTs ← maxInputDataTs.mapM (requireAware · "max_input_data_ts")
  let availableAt ← availableAt.mapM (requireAware · "available_at")
  return { featureName, featureVersion, value, dataTs, calcTs, maxInputDataTs, inputFingerprint, valueHash, availableAt,
           availabilitySource, modelUri, modelDigest, modelOutputName, bundleDigest }

structure FeatureWriteSet where
  view : Value
  viewVersion : Value
  entityKey : EntityKey
  results : List (String × FeatureResult)
  sourceRefs : Mapping
  requestId : Value
  jobId : Value
  runId : Value
  correlationId : Value
  writePolicy : Value

def FeatureWriteSet.fromDict (data : Value) : Except PyErr FeatureWriteSet := do
  let pairs ← (← (← data.item "entity_key").toList).mapM unpackPair
  let entityKey ← EntityKey.ofWire pairs
  let entries ← items (← data.item "results")
  let results ← entries.mapM fun entry => do return (entry.1, ← FeatureResult.fromDict codec entry.2)
  let view ← data.item "view"
  let viewVersion ← data.item "view_version"
  let sourceRefs ← (← data.item "source_refs").toMapping
  let requestId ← data.getOr "request_id" .null
  let jobId ← data.getOr "job_id" .null
  let runId ← data.getOr "run_id" .null
  let correlationId ← data.getOr "correlation_id" .null
  let writePolicy ← data.getOr "write_policy" (.str "online_first")
  return { view, viewVersion, entityKey, results, sourceRefs, requestId, jobId, runId, correlationId, writePolicy }

structure FeatureOfflineWriteRequested where
  requestId : Value
  jobId : Value
  correlationId : Value
  occurredAt : WireTime
  writeSet : FeatureWriteSet
  eventType : Value
  eventVersion : Value

def FeatureOfflineWriteRequested.fromDict (data : Value) : Except PyErr FeatureOfflineWriteRequested := do
  let requestId ← data.item "request_id"
  let jobId ← data.item "job_id"
  let correlationId ← data.item "correlation_id"
  let occurredAt ← timeAt codec data "occurred_at"
  let writeSet ← FeatureWriteSet.fromDict codec (← data.item "write_set")
  let eventType ← data.getOr "event_type" (.str "feature_write.offline.requested")
  let eventVersion ← data.getOr "event_version" (.int 1)
  return { requestId, jobId, correlationId, occurredAt, writeSet, eventType, eventVersion }

/-! ## Scores -/

structure ScoreItem where
  feature : Value
  value : Value
  dataTs : WireTime
  calcTs : WireTime
  modelName : Value
  modelVersion : Value
  sourceRequestId : Value
  decisionRequestId : Value
  context : Mapping

def ScoreItem.fromDict (data : Value) : Except PyErr ScoreItem := do
  let feature ← data.item "feature"
  let value ← data.item "value"
  let dataTs ← timeAt codec data "data_ts"
  let calcTs ← timeAt codec data "calc_ts"
  let modelName ← data.item "model_name"
  let modelVersion ← data.item "model_version"
  let sourceRequestId ← data.getOr "source_request_id" .null
  let decisionRequestId ← data.getOr "decision_request_id" .null
  let context ← (← data.getOr "context" (.obj [])).toMapping
  return { feature, value, dataTs, calcTs, modelName, modelVersion, sourceRequestId, decisionRequestId, context }

structure ModelScoreWriteRequested where
  scoreWriteId : Value
  correlationId : Value
  occurredAt : WireTime
  entity : EntityRef
  view : Value
  viewVersion : Value
  scores : List ScoreItem
  idempotencyKey : Value
  writeOnline : Value
  writeOffline : Value
  eventType : Value
  eventVersion : Value

def ModelScoreWriteRequested.fromDict (data : Value) : Except PyErr ModelScoreWriteRequested := do
  let scoreWriteId ← data.item "score_write_id"
  let correlationId ← data.item "correlation_id"
  let occurredAt ← timeAt codec data "occurred_at"
  let entity ← EntityRef.fromDict (← data.item "entity")
  let view ← data.item "view"
  let viewVersion ← data.item "view_version"
  let scores ← (← (← data.item "scores").toList).mapM (ScoreItem.fromDict codec)
  let idempotencyKey ← data.item "idempotency_key"
  let writeOnline ← data.getOr "write_online" (.bool true)
  let writeOffline ← data.getOr "write_offline" (.bool true)
  let eventType ← data.getOr "event_type" (.str "model_score.write.requested")
  let eventVersion ← data.getOr "event_version" (.int 1)
  return { scoreWriteId, correlationId, occurredAt, entity, view, viewVersion, scores, idempotencyKey, writeOnline,
           writeOffline, eventType, eventVersion }

/-! ## Batch chunks -/

structure BatchItem where
  entityType : Value
  entityKey : Mapping
  inlineSources : List (String × Mapping)
  sourceRefs : Mapping

def BatchItem.fromDict (data : Value) : Except PyErr BatchItem := do
  let entityType ← data.item "entity_type"
  let entityKey ← (← data.item "entity_key").toMapping
  let sources ← items (← data.getOr "inline_sources" (.obj []))
  let inlineSources ← sources.mapM fun source => do return (source.1, ← source.2.toMapping)
  let sourceRefs ← (← data.getOr "source_refs" (.obj [])).toMapping
  return { entityType, entityKey, inlineSources, sourceRefs }

structure BatchChunkRequested where
  batchJobId : Value
  chunkId : Value
  chunkIndex : Value
  chunkCount : Value
  correlationId : Value
  occurredAt : WireTime
  view : Value
  viewVersion : Value
  items : List BatchItem
  requestedFeatures : List Value
  requestedFeatureGroups : List Value
  writeOnline : Value
  totalItems : Value
  manifestId : Value
  manifestIds : List Value
  eventType : Value
  eventVersion : Value

def BatchChunkRequested.fromDict (data : Value) : Except PyErr BatchChunkRequested := do
  let batchJobId ← data.item "batch_job_id"
  let chunkId ← data.item "chunk_id"
  let chunkIndex ← data.item "chunk_index"
  let chunkCount ← data.item "chunk_count"
  let correlationId ← data.item "correlation_id"
  let occurredAt ← timeAt codec data "occurred_at"
  let view ← data.item "view"
  let viewVersion ← data.item "view_version"
  let items ← (← (← data.item "items").toList).mapM BatchItem.fromDict
  let requestedFeatures ← listOr data "requested_features"
  let requestedFeatureGroups ← listOr data "requested_feature_groups"
  let writeOnline ← data.getOr "write_online" (.bool false)
  let totalItems ← data.getOr "total_items" (.int 0)
  let manifestId ← data.getOr "manifest_id" .null
  let manifestIds ← listOr data "manifest_ids"
  let eventType ← data.getOr "event_type" (.str "batch.chunk.requested")
  let eventVersion ← data.getOr "event_version" (.int 1)
  return { batchJobId, chunkId, chunkIndex, chunkCount, correlationId, occurredAt, view, viewVersion, items,
           requestedFeatures, requestedFeatureGroups, writeOnline, totalItems, manifestId, manifestIds, eventType,
           eventVersion }

structure BatchChunkProcessed where
  batchJobId : Value
  chunkId : Value
  chunkIndex : Value
  chunkCount : Value
  correlationId : Value
  processedAt : WireTime
  status : Value
  itemCount : Value
  okItems : Value
  failedItems : Value
  firstErrors : List Value
  manifestId : Value
  onlineRefreshCounts : Option Mapping
  eventType : Value
  eventVersion : Value

def BatchChunkProcessed.fromDict (data : Value) : Except PyErr BatchChunkProcessed := do
  let refresh ← data.getOr "online_refresh_counts" .null
  let batchJobId ← data.item "batch_job_id"
  let chunkId ← data.item "chunk_id"
  let chunkIndex ← data.item "chunk_index"
  let chunkCount ← data.item "chunk_count"
  let correlationId ← data.item "correlation_id"
  let processedAt ← timeAt codec data "processed_at"
  let status ← data.item "status"
  let itemCount ← data.item "item_count"
  let okItems ← data.item "ok_items"
  let failedItems ← data.item "failed_items"
  let firstErrors ← listOr data "first_errors"
  let manifestId ← data.getOr "manifest_id" .null
  let onlineRefreshCounts ← if refresh.isNone then pure none else some <$> refresh.toMapping
  let eventType ← data.getOr "event_type" (.str "batch.chunk.processed")
  let eventVersion ← data.getOr "event_version" (.int 1)
  return { batchJobId, chunkId, chunkIndex, chunkCount, correlationId, processedAt, status, itemCount, okItems,
           failedItems, firstErrors, manifestId, onlineRefreshCounts, eventType, eventVersion }

/-! ## Dead letters -/

structure DeadLetterEvent where
  sourceTopic : Value
  failureStage : Value
  failureStatus : Value
  error : Value
  occurredAt : WireTime
  sourcePayloadB64 : Value
  originalRequestId : Value
  originalJobId : Value
  originalCorrelationId : Value
  attemptCount : Value
  maxAttempts : Value
  originalEventType : Value
  eventType : Value
  eventVersion : Value

def DeadLetterEvent.fromDict (data : Value) : Except PyErr DeadLetterEvent := do
  let sourceTopic ← data.item "source_topic"
  let failureStage ← data.item "failure_stage"
  let failureStatus ← data.item "failure_status"
  let error ← data.getOr "error" .null
  let occurredAt ← timeAt codec data "occurred_at"
  let sourcePayloadB64 ← data.item "source_payload_b64"
  let originalRequestId ← data.getOr "original_request_id" .null
  let originalJobId ← data.getOr "original_job_id" .null
  let originalCorrelationId ← data.getOr "original_correlation_id" .null
  let attemptCount ← data.getOr "attempt_count" .null
  let maxAttempts ← data.getOr "max_attempts" .null
  let originalEventType ← data.getOr "original_event_type" .null
  let eventType ← data.getOr "event_type" (.str "event.dlq")
  let eventVersion ← data.getOr "event_version" (.int 1)
  return { sourceTopic, failureStage, failureStatus, error, occurredAt, sourcePayloadB64, originalRequestId,
           originalJobId, originalCorrelationId, attemptCount, maxAttempts, originalEventType, eventType,
           eventVersion }

end

end ClearFeature.Wire
