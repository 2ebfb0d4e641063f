import ClearFeature.CanonicalJson
import ClearFeature.OfflineRunner
import ClearFeature.OnlineRunner
import ClearFeature.Validator
import ClearFeature.WireEvents

/-!
# Writing events (`to_dict`, `to_json` of `fs_core/events/models.py`, `FeatureWriteSet.to_dict`)

An event is written as a dictionary of its fields and printed with sorted keys.
Read back it is the same event: dictionaries are equal whatever the order of
their entries, and here they come back in key order.
-/

namespace ClearFeature

open StableSort

/-! ## Values that Python can hold -/

mutual
/-- No dictionary has a key twice. -/
def Value.Proper : Value → Prop
  | .arr xs => Value.ProperList xs
  | .obj kvs => (Dict.keys kvs).Nodup ∧ Value.ProperFields kvs
  | _ => True
def Value.ProperList : List Value → Prop
  | [] => True
  | x :: xs => x.Proper ∧ Value.ProperList xs
def Value.ProperFields : List (String × Value) → Prop
  | [] => True
  | (_, v) :: kvs => v.Proper ∧ Value.ProperFields kvs
end

mutual
/-- No integer has more than so many digits. -/
def Value.digitsFit (digits : Nat) : Value → Bool
  | .int n => decide (n.natAbs < 10 ^ digits)
  | .arr xs => Value.digitsFitList digits xs
  | .obj kvs => Value.digitsFitFields digits kvs
  | _ => true
def Value.digitsFitList (digits : Nat) : List Value → Bool
  | [] => true
  | x :: xs => x.digitsFit digits && Value.digitsFitList digits xs
def Value.digitsFitFields (digits : Nat) : List (String × Value) → Bool
  | [] => true
  | (_, v) :: kvs => v.digitsFit digits && Value.digitsFitFields digits kvs
end

/-- How far `json` goes, beyond which it raises: the digits of an integer (`sys.get_int_max_str_digits()`, 4300 unless it
is set) and the nesting. -/
structure JsonLimits where
  digits : Option Nat
  depth : Option Nat

def Value.Printable (limits : JsonLimits) (v : Value) : Prop :=
  (∀ n ∈ limits.digits, v.digitsFit n = true) ∧ ∀ n ∈ limits.depth, v.depth ≤ n

/-- The JSON text and the time text: what is written is read back, dictionaries in the order of the printed keys. The
offset that a time text also shows is not part of the instant. -/
structure JsonText extends WireCodec where
  dumps : Value → Bytes
  isoformat : Int → String
  limits : JsonLimits
  loads_printed : ∀ {v : Value}, v.Proper → v.Printable limits → loads (dumps v) = .ok (v.normal false)
  fromisoformat_isoformat : ∀ t, fromisoformat (isoformat t) = some (.aware t)

/-- The limits are switched off. -/
structure WireText extends JsonText where
  unlimited : limits = ⟨none, none⟩

instance : Coe WireText JsonText := ⟨WireText.toJsonText⟩

theorem WireText.printable (text : WireText) (v : Value) : v.Printable text.limits := by
  rw [text.unlimited]
  exact ⟨fun n h => (nomatch h), fun n h => (nomatch h)⟩

theorem WireText.loads_dumps (text : WireText) {v : Value} (hv : v.Proper) : text.loads (text.dumps v) = .ok (v.normal false) :=
  text.loads_printed hv (text.printable v)

/-- Texts that tell values and instants apart can be read back. -/
noncomputable def WireText.ofInjective (write : List JsonTok → Bytes) (hwrite : Function.Injective write)
    (isoformat : Int → String) (hiso : Function.Injective isoformat) : WireText where
  loads raw :=
    open Classical in
    if h : ∃ v : Value, v.Proper ∧ write (canonicalValueJson v) = raw then .ok (h.choose.normal false)
    else .error "Expecting value"
  fromisoformat s := open Classical in if h : ∃ t, isoformat t = s then some (.aware h.choose) else none
  sha256 _ := ""
  dumps v := write (canonicalValueJson v)
  isoformat := isoformat
  limits := ⟨none, none⟩
  unlimited := rfl
  loads_printed {v} hv _ := by
    have h : ∃ w : Value, w.Proper ∧ write (canonicalValueJson w) = write (canonicalValueJson v) := ⟨v, hv, rfl⟩
    rw [dif_pos h, Value.toks_eq_iff.mp (hwrite h.choose_spec.2)]
  fromisoformat_isoformat t := by
    have h : ∃ t', isoformat t' = isoformat t := ⟨t, rfl⟩
    rw [dif_pos h, hiso h.choose_spec]

namespace Wire

/-- The entries of a dictionary whose keys are text, as they are declared to be; no other is written. -/
def textKeys : Value.Mapping → Except PyErr (List (String × Value))
  | [] => .ok []
  | (.str k, v) :: m => do
    let kvs ← textKeys m
    return (k, v) :: kvs
  | (k, _) :: _ => .error (.typeError s!"keys must be str, not {k.typeName}")

/-- A dictionary as it is read back. -/
def normalMapping (m : Value.Mapping) : Value.Mapping :=
  match textKeys m with
  | .ok kvs => (sortedBy Prod.fst (kvs.map fun kv => (kv.1, kv.2.normal false))).map fun kv => (.str kv.1, kv.2)
  | .error _ => m

/-- A dictionary of named parts as it is read back. -/
def normalEntries {α : Type} (normal : α → α) (entries : List (String × α)) : List (String × α) :=
  (sortedBy Prod.fst entries).map fun e => (e.1, normal e.2)

def EntityRef.toDict (e : EntityRef) : Except PyErr Value := do
  let entityKey ← textKeys e.entityKey
  return .obj [("entity_type", e.entityType), ("entity_key", .obj entityKey)]

def EntityRef.normal (e : EntityRef) : EntityRef where
  entityType := e.entityType.normal false
  entityKey := normalMapping e.entityKey

/-- `encode_entity_key(self.entity_key)` -/
def EntityRef.encoded (e : EntityRef) : Except PyErr String := do
  let parts ← wireParts e.entityKey
  encodeEntityKey parts none

section
variable (text : JsonText)

/-- `_iso(value)` -/
def iso (time : WireTime) : Except PyErr Value := do
  let instant ← requireIso time
  return .str (text.isoformat instant)

def iso? : Option WireTime → Except PyErr Value
  | none => .ok .null
  | some time => iso text time

def toJson {T : Type} (toDict : T → Except PyErr Value) (e : T) : Except PyErr Bytes := do
  let data ← toDict e
  return text.dumps data

def fromJson {T : Type} (fromDict : Value → Except PyErr T) (raw : Bytes) : Except PyErr T :=
  match text.loads raw with
  | .error msg => .error (.valueError msg)
  | .ok data => fromDict data

/-! ## Requests -/

def ReportDescriptor.entries (r : ReportDescriptor) (reportTs availableAt : Value) : List (String × Value) :=
  [("report_ref", r.reportRef), ("source_name", r.sourceName), ("report_type", r.reportType),
   ("schema_version", r.schemaVersion), ("report_ts", reportTs), ("object_key", r.objectKey),
   ("content_hash", r.contentHash), ("size_bytes", r.sizeBytes), ("compression", r.compression), ("format", r.format),
   ("available_at", availableAt)]

def ReportDescriptor.toDict (r : ReportDescriptor) : Except PyErr Value := do
  let reportTs ← iso text r.reportTs
  let availableAt ← iso? text r.availableAt
  return .obj (r.entries reportTs availableAt)

def ReportDescriptor.normal (r : ReportDescriptor) : ReportDescriptor := {
  r with
  reportRef := r.reportRef.normal false
  sourceName := r.sourceName.normal false
  reportType := r.reportType.normal false
  schemaVersion := r.schemaVersion.normal false
  objectKey := r.objectKey.normal false
  contentHash := r.contentHash.normal false
  sizeBytes := r.sizeBytes.normal false
  compression := r.compression.normal false
  format := r.format.normal false }

def FeatureComputeRequested.entries (e : FeatureComputeRequested) (entity : Value) (reports : List Value)
    (occurredAt eventTs expiresAt : Value) : List (String × Value) :=
  [("event_type", e.eventType), ("event_version", e.eventVersion), ("request_id", e.requestId), ("job_id", e.jobId),
   ("priority", e.priority), ("deadline_ms", e.deadlineMs), ("entity", entity), ("view", e.view),
   ("view_version", e.viewVersion), ("requested_feature_groups", .arr e.requestedFeatureGroups),
   ("requested_features", .arr e.requestedFeatures), ("reports", .arr reports), ("write_policy", e.writePolicy),
   ("idempotency_key", e.idempotencyKey), ("correlation_id", e.correlationId), ("occurred_at", occurredAt),
   ("event_ts", eventTs), ("expires_at", expiresAt)]

def FeatureComputeRequested.toDict (e : FeatureComputeRequested) : Except PyErr Value := do
  let entity ← e.entity.toDict
  let reports ← e.reports.mapM (ReportDescriptor.toDict text)
  let occurredAt ← iso text e.occurredAt
  let eventTs ← iso? text e.eventTs
  let expiresAt ← iso? text e.expiresAt
  return .obj (e.entries entity reports occurredAt eventTs expiresAt)

def FeatureComputeRequested.normal (e : FeatureComputeRequested) : FeatureComputeRequested := {
  e with
  requestId := e.requestId.normal false
  jobId := e.jobId.normal false
  priority := e.priority.normal false
  deadlineMs := e.deadlineMs.normal false
  entity := e.entity.normal
  view := e.view.normal false
  viewVersion := e.viewVersion.normal false
  reports := e.reports.map ReportDescriptor.normal
  writePolicy := e.writePolicy.normal false
  idempotencyKey := e.idempotencyKey.normal false
  correlationId := e.correlationId.normal false
  requestedFeatureGroups := e.requestedFeatureGroups.map (Value.normal false)
  requestedFeatures := e.requestedFeatures.map (Value.normal false)
  eventType := e.eventType.normal false
  eventVersion := e.eventVersion.normal false }

/-- `event.expires_at is not None and now >= event.expires_at` -/
def FeatureComputeRequested.expired (e : FeatureComputeRequested) (now : Int) : Except PyErr Bool :=
  match e.expiresAt with
  | none => .ok false
  | some (.aware expiresAt) => .ok (decide (expiresAt ≤ now))
  | some (.naive _) => .error (.typeError "can't compare offset-naive and offset-aware datetimes")

def computeEvents : ComputeEvents FeatureComputeRequested Value where
  fromJson := fromJson text (FeatureComputeRequested.fromDict text.toWireCodec)
  requestId e := e.requestId
  encoded e := e.entity.encoded
  expired := FeatureComputeRequested.expired

def FeatureComputeCompleted.entries (e : FeatureComputeCompleted) (entity occurredAt : Value) : List (String × Value) :=
  [("event_type", e.eventType), ("event_version", e.eventVersion), ("request_id", e.requestId), ("job_id", e.jobId),
   ("entity", entity), ("view", e.view), ("view_version", e.viewVersion), ("written_features", .arr e.writtenFeatures),
   ("online_write_status", e.onlineWriteStatus), ("correlation_id", e.correlationId), ("occurred_at", occurredAt)]

def FeatureComputeCompleted.toDict (e : FeatureComputeCompleted) : Except PyErr Value := do
  let entity ← e.entity.toDict
  let occurredAt ← iso text e.occurredAt
  return .obj (e.entries entity occurredAt)

def FeatureComputeCompleted.normal (e : FeatureComputeCompleted) : FeatureComputeCompleted := {
  e with
  requestId := e.requestId.normal false
  jobId := e.jobId.normal false
  entity := e.entity.normal
  view := e.view.normal false
  viewVersion := e.viewVersion.normal false
  correlationId := e.correlationId.normal false
  writtenFeatures := e.writtenFeatures.map (Value.normal false)
  onlineWriteStatus := e.onlineWriteStatus.normal false
  eventType := e.eventType.normal false
  eventVersion := e.eventVersion.normal false }

/-! ## Feature updates -/

structure FeatureUpdated where
  updateId : Value
  entity : EntityRef
  view : Value
  viewVersion : Value
  featureName : Value
  featureVersion : Value
  dataTs : WireTime
  calcTs : WireTime
  source : Value
  occurredAt : WireTime
  maxInputDataTs : Option WireTime
  inputFingerprint : Value
  valueHash : Value
  runId : Value
  jobId : Value
  manifestId : Value
  eventType : Value
  eventVersion : Value

/-- `FEATURE_UPDATE_SOURCES` -/
def featureUpdateSources : List String :=
  ["offline_writer", "batch_worker", "dwh_import", "table_import", "recompute_wave"]

/-- `__post_init__`. A source that is not text is shown by its type. -/
def FeatureUpdated.check (e : FeatureUpdated) : Except PyErr Unit := do
  let unknown := fun shown : String =>
    s!"FeatureUpdated has unknown source {shown}; must be one of {reprNames featureUpdateSources}"
  match e.source with
  | .str s => raiseIf (s ∉ featureUpdateSources) (unknown (reprStr s))
  | v => .error (.valueError (unknown v.typeName))
  let _ ← requireIso e.dataTs
  let _ ← requireIso e.calcTs
  let _ ← e.maxInputDataTs.mapM requireIso
  return ()

def FeatureUpdated.entries (e : FeatureUpdated) (entity dataTs calcTs maxInputDataTs occurredAt : Value) :
    List (String × Value) :=
  [("event_type", e.eventType), ("event_version", e.eventVersion), ("update_id", e.updateId), ("entity", entity),
   ("view", e.view), ("view_version", e.viewVersion), ("feature_name", e.featureName),
   ("feature_version", e.featureVersion), ("data_ts", dataTs), ("calc_ts", calcTs),
   ("max_input_data_ts", maxInputDataTs), ("input_fingerprint", e.inputFingerprint), ("value_hash", e.valueHash),
   ("run_id", e.runId), ("job_id", e.jobId), ("manifest_id", e.manifestId), ("source", e.source),
   ("occurred_at", occurredAt)]

def FeatureUpdated.toDict (e : FeatureUpdated) : Except PyErr Value := do
  let entity ← e.entity.toDict
  let dataTs ← iso text e.dataTs
  let calcTs ← iso text e.calcTs
  let maxInputDataTs ← iso? text e.maxInputDataTs
  let occurredAt ← iso text e.occurredAt
  return .obj (e.entries entity dataTs calcTs maxInputDataTs occurredAt)

def FeatureUpdated.fromDict (codec : WireCodec) (data : Value) : Except PyErr FeatureUpdated := do
  let maxInput ← data.getOr "max_input_data_ts" .null
  let updateId ← data.item "update_id"
  let entity ← EntityRef.fromDict (← data.item "entity")
  let view ← data.item "view"
  let viewVersion ← data.item "view_version"
  let featureName ← data.item "feature_name"
  let featureVersion ← data.item "feature_version"
  let dataTs ← timeAt codec data "data_ts"
  let calcTs ← timeAt codec data "calc_ts"
  let source ← data.item "source"
  let occurredAt ← timeAt codec data "occurred_at"
  let maxInputDataTs ← maxInput.toTime? codec
  let inputFingerprint ← data.getOr "input_fingerprint" .null
  let valueHash ← data.getOr "value_hash" .null
  let runId ← data.getOr "run_id" .null
  let jobId ← data.getOr "job_id" .null
  let manifestId ← data.getOr "manifest_id" .null
  let eventType ← data.getOr "event_type" (.str "feature_updated")
  let eventVersion ← data.getOr "event_version" (.int 1)
  let e : FeatureUpdated := {
    updateId, entity, view, viewVersion, featureName, featureVersion, dataTs, calcTs, source, occurredAt,
    maxInputDataTs, inputFingerprint, valueHash, runId, jobId, manifestId, eventType, eventVersion }
  e.check
  return e

def FeatureUpdated.normal (e : FeatureUpdated) : FeatureUpdated := {
  e with
  updateId := e.updateId.normal false
  entity := e.entity.normal
  view := e.view.normal false
  viewVersion := e.viewVersion.normal false
  featureName := e.featureName.normal false
  featureVersion := e.featureVersion.normal false
  source := e.source.normal false
  inputFingerprint := e.inputFingerprint.normal false
  valueHash := e.valueHash.normal false
  runId := e.runId.normal false
  jobId := e.jobId.normal false
  manifestId := e.manifestId.normal false
  eventType := e.eventType.normal false
  eventVersion := e.eventVersion.normal false }

/-! ## Offline writes -/

/-- `value.isoformat()`, the value being aware. -/
def isoformat? (time : Option Int) : Value :=
  match time with
  | none => .null
  | some t => .str (text.isoformat t)

def FeatureResult.entries (r : FeatureResult) : List (String × Value) :=
  [("feature_name", r.featureName), ("feature_version", r.featureVersion), ("value", r.value),
   ("data_ts", .str (text.isoformat r.dataTs)), ("calc_ts", .str (text.isoformat r.calcTs)),
   ("max_input_data_ts", isoformat? text r.maxInputDataTs), ("input_fingerprint", r.inputFingerprint),
   ("value_hash", r.valueHash), ("available_at", isoformat? text r.availableAt),
   ("availability_source", r.availabilitySource), ("model_uri", r.modelUri), ("model_digest", r.modelDigest),
   ("model_output_name", r.modelOutputName), ("bundle_digest", r.bundleDigest)]

def FeatureResult.normal (r : FeatureResult) : FeatureResult := {
  r with
  featureName := r.featureName.normal false
  featureVersion := r.featureVersion.normal false
  value := r.value.normal false
  inputFingerprint := r.inputFingerprint.normal false
  valueHash := r.valueHash.normal false
  availabilitySource := r.availabilitySource.normal false
  modelUri := r.modelUri.normal false
  modelDigest := r.modelDigest.normal false
  modelOutputName := r.modelOutputName.normal false
  bundleDigest := r.bundleDigest.normal false }

def FeatureWriteSet.entries (w : FeatureWriteSet) (results sourceRefs : List (String × Value)) :
    List (String × Value) :=
  [("view", w.view), ("view_version", w.viewVersion),
   ("entity_key", .arr (w.entityKey.parts.map fun p => .arr [.str p.1, .str p.2])), ("results", .obj results),
   ("source_refs", .obj sourceRefs), ("request_id", w.requestId), ("job_id", w.jobId), ("run_id", w.runId),
   ("correlation_id", w.correlationId), ("write_policy", w.writePolicy)]

def FeatureWriteSet.toDict (w : FeatureWriteSet) : Except PyErr Value := do
  let sourceRefs ← textKeys w.sourceRefs
  return .obj (w.entries (w.results.map fun r => (r.1, .obj (r.2.entries text))) sourceRefs)

def FeatureWriteSet.normal (w : FeatureWriteSet) : FeatureWriteSet := {
  w with
  view := w.view.normal false
  viewVersion := w.viewVersion.normal false
  results := normalEntries FeatureResult.normal w.results
  sourceRefs := normalMapping w.sourceRefs
  requestId := w.requestId.normal false
  jobId := w.jobId.normal false
  runId := w.runId.normal false
  correlationId := w.correlationId.normal false
  writePolicy := w.writePolicy.normal false }

def FeatureOfflineWriteRequested.entries (e : FeatureOfflineWriteRequested) (occurredAt writeSet : Value) :
    List (String × Value) :=
  [("event_type", e.eventType), ("event_version", e.eventVersion), ("request_id", e.requestId), ("job_id", e.jobId),
   ("correlation_id", e.correlationId), ("occurred_at", occurredAt), ("write_set", writeSet)]

def FeatureOfflineWriteRequested.toDict (e : FeatureOfflineWriteRequested) : Except PyErr Value := do
  let occurredAt ← iso text e.occurredAt
  let writeSet ← e.writeSet.toDict text
  return .obj (e.entries occurredAt writeSet)

def FeatureOfflineWriteRequested.normal (e : FeatureOfflineWriteRequested) : FeatureOfflineWriteRequested := {
  e with
  requestId := e.requestId.normal false
  jobId := e.jobId.normal false
  correlationId := e.correlationId.normal false
  writeSet := e.writeSet.normal
  eventType := e.eventType.normal false
  eventVersion := e.eventVersion.normal false }

/-- A write set with its fields taken at their declared types; the entity key has been checked. -/
structure TypedWriteSet where
  of : FeatureWriteSet → ClearFeature.FeatureWriteSet
  entityKey_of : ∀ w, (of w).entityKey = w.entityKey

def offlineEvents (typed : TypedWriteSet) : OfflineEvents FeatureOfflineWriteRequested Value where
  fromJson := fromJson text (FeatureOfflineWriteRequested.fromDict text.toWireCodec)
  requestId e := e.requestId
  writeSet e := .ok (typed.of e.writeSet)

/-! ## Scores -/

def ScoreItem.entries (s : ScoreItem) (dataTs calcTs : Value) (context : List (String × Value)) :
    List (String × Value) :=
  [("feature", s.feature), ("value", s.value), ("data_ts", dataTs), ("calc_ts", calcTs), ("model_name", s.modelName),
   ("model_version", s.modelVersion), ("source_request_id", s.sourceRequestId),
   ("decision_request_id", s.decisionRequestId), ("context", .obj context)]

def ScoreItem.toDict (s : ScoreItem) : Except PyErr Value := do
  let dataTs ← iso text s.dataTs
  let calcTs ← iso text s.calcTs
  let context ← textKeys s.context
  return .obj (s.entries dataTs calcTs context)

def ScoreItem.normal (s : ScoreItem) : ScoreItem := {
  s with
  feature := s.feature.normal false
  value := s.value.normal false
  modelName := s.modelName.normal false
  modelVersion := s.modelVersion.normal false
  sourceRequestId := s.sourceRequestId.normal false
  decisionRequestId := s.decisionRequestId.normal false
  context := normalMapping s.context }

def ModelScoreWriteRequested.entries (e : ModelScoreWriteRequested) (occurredAt entity : Value) (scores : List Value) :
    List (String × Value) :=
  [("event_type", e.eventType), ("event_version", e.eventVersion), ("score_write_id", e.scoreWriteId),
   ("correlation_id", e.correlationId), ("occurred_at", occurredAt), ("entity", entity), ("view", e.view),
   ("view_version", e.viewVersion), ("scores", .arr scores), ("idempotency_key", e.idempotencyKey),
   ("write_online", e.writeOnline), ("write_offline", e.writeOffline)]

def ModelScoreWriteRequested.toDict (e : ModelScoreWriteRequested) : Except PyErr Value := do
  let occurredAt ← iso text e.occurredAt
  let entity ← e.entity.toDict
  let scores ← e.scores.mapM (ScoreItem.toDict text)
  return .obj (e.entries occurredAt entity scores)

def ModelScoreWriteRequested.normal (e : ModelScoreWriteRequested) : ModelScoreWriteRequested := {
  e with
  scoreWriteId := e.scoreWriteId.normal false
  correlationId := e.correlationId.normal false
  entity := e.entity.normal
  view := e.view.normal false
  viewVersion := e.viewVersion.normal false
  scores := e.scores.map ScoreItem.normal
  idempotencyKey := e.idempotencyKey.normal false
  writeOnline := e.writeOnline.normal false
  writeOffline := e.writeOffline.normal false
  eventType := e.eventType.normal false
  eventVersion := e.eventVersion.normal false }

/-! ## Batch chunks -/

def BatchItem.entries (i : BatchItem) (entityKey inlineSources sourceRefs : List (String × Value)) :
    List (String × Value) :=
  [("entity_type", i.entityType), ("entity_key", .obj entityKey), ("inline_sources", .obj inlineSources),
   ("source_refs", .obj sourceRefs)]

def BatchItem.toDict (i : BatchItem) : Except PyErr Value := do
  let entityKey ← textKeys i.entityKey
  let inlineSources ← i.inlineSources.mapM fun source => do return (source.1, .obj (← textKeys source.2))
  let sourceRefs ← textKeys i.sourceRefs
  return .obj (i.entries entityKey inlineSources sourceRefs)

def BatchItem.normal (i : BatchItem) : BatchItem := {
  i with
  entityType := i.entityType.normal false
  entityKey := normalMapping i.entityKey
  inlineSources := normalEntries normalMapping i.inlineSources
  sourceRefs := normalMapping i.sourceRefs }

def BatchChunkRequested.entries (e : BatchChunkRequested) (occurredAt : Value) (items : List Value) :
    List (String × Value) :=
  [("event_type", e.eventType), ("event_version", e.eventVersion), ("batch_job_id", e.batchJobId),
   ("chunk_id", e.chunkId), ("chunk_index", e.chunkIndex), ("chunk_count", e.chunkCount),
   ("correlation_id", e.correlationId), ("occurred_at", occurredAt), ("view", e.view), ("view_version", e.viewVersion),
   ("items", .arr items), ("requested_features", .arr e.requestedFeatures),
   ("requested_feature_groups", .arr e.requestedFeatureGroups), ("write_online", e.writeOnline),
   ("total_items", e.totalItems), ("manifest_id", e.manifestId), ("manifest_ids", .arr e.manifestIds)]

def BatchChunkRequested.toDict (e : BatchChunkRequested) : Except PyErr Value := do
  let occurredAt ← iso text e.occurredAt
  let items ← e.items.mapM BatchItem.toDict
  return .obj (e.entries occurredAt items)

def BatchChunkRequested.normal (e : BatchChunkRequested) : BatchChunkRequested := {
  e with
  batchJobId := e.batchJobId.normal false
  chunkId := e.chunkId.normal false
  chunkIndex := e.chunkIndex.normal false
  chunkCount := e.chunkCount.normal false
  correlationId := e.correlationId.normal false
  view := e.view.normal false
  viewVersion := e.viewVersion.normal false
  items := e.items.map BatchItem.normal
  requestedFeatures := e.requestedFeatures.map (Value.normal false)
  requestedFeatureGroups := e.requestedFeatureGroups.map (Value.normal false)
  writeOnline := e.writeOnline.normal false
  totalItems := e.totalItems.normal false
  manifestId := e.manifestId.normal false
  manifestIds := e.manifestIds.map (Value.normal false)
  eventType := e.eventType.normal false
  eventVersion := e.eventVersion.normal false }

/-- `dict(value) if value is not None else None` -/
def textKeys? : Option Value.Mapping → Except PyErr Value
  | none => .ok .null
  | some m => do
    let kvs ← textKeys m
    return .obj kvs

def BatchChunkProcessed.entries (e : BatchChunkProcessed) (processedAt onlineRefreshCounts : Value) :
    List (String × Value) :=
  [("event_type", e.eventType), ("event_version", e.eventVersion), ("batch_job_id", e.batchJobId),
   ("chunk_id", e.chunkId), ("chunk_index", e.chunkIndex), ("chunk_count", e.chunkCount),
   ("correlation_id", e.correlationId), ("processed_at", processedAt), ("status", e.status),
   ("item_count", e.itemCount), ("ok_items", e.okItems), ("failed_items", e.failedItems),
   ("first_errors", .arr e.firstErrors), ("manifest_id", e.manifestId), ("online_refresh_counts", onlineRefreshCounts)]

def BatchChunkProcessed.toDict (e : BatchChunkProcessed) : Except PyErr Value := do
  let processedAt ← iso text e.processedAt
  let onlineRefreshCounts ← textKeys? e.onlineRefreshCounts
  return .obj (e.entries processedAt onlineRefreshCounts)

def BatchChunkProcessed.normal (e : BatchChunkProcessed) : BatchChunkProcessed := {
  e with
  batchJobId := e.batchJobId.normal false
  chunkId := e.chunkId.normal false
  chunkIndex := e.chunkIndex.normal false
  chunkCount := e.chunkCount.normal false
  correlationId := e.correlationId.normal false
  status := e.status.normal false
  itemCount := e.itemCount.normal false
  okItems := e.okItems.normal false
  failedItems := e.failedItems.normal false
  firstErrors := e.firstErrors.map (Value.normal false)
  manifestId := e.manifestId.normal false
  onlineRefreshCounts := e.onlineRefreshCounts.map normalMapping
  eventType := e.eventType.normal false
  eventVersion := e.eventVersion.normal false }

/-! ## Dead letters -/

def DeadLetterEvent.entries (e : DeadLetterEvent) (occurredAt : Value) : List (String × Value) :=
  [("event_type", e.eventType), ("event_version", e.eventVersion), ("source_topic", e.sourceTopic),
   ("failure_stage", e.failureStage), ("failure_status", e.failureStatus), ("error", e.error),
   ("occurred_at", occurredAt), ("source_payload_b64", e.sourcePayloadB64),
   ("original_request_id", e.originalRequestId), ("original_job_id", e.originalJobId),
   ("original_correlation_id", e.originalCorrelationId), ("attempt_count", e.attemptCount),
   ("max_attempts", e.maxAttempts), ("original_event_type", e.originalEventType)]

def DeadLetterEvent.toDict (e : DeadLetterEvent) : Except PyErr Value := do
  let occurredAt ← iso text e.occurredAt
  return .obj (e.entries occurredAt)

def DeadLetterEvent.normal (e : DeadLetterEvent) : DeadLetterEvent := {
  e with
  sourceTopic := e.sourceTopic.normal false
  failureStage := e.failureStage.normal false
  failureStatus := e.failureStatus.normal false
  error := e.error.normal false
  sourcePayloadB64 := e.sourcePayloadB64.normal false
  originalRequestId := e.originalRequestId.normal false
  originalJobId := e.originalJobId.normal false
  originalCorrelationId := e.originalCorrelationId.normal false
  attemptCount := e.attemptCount.normal false
  maxAttempts := e.maxAttempts.normal false
  originalEventType := e.originalEventType.normal false
  eventType := e.eventType.normal false
  eventVersion := e.eventVersion.normal false }

end

end Wire

end ClearFeature
