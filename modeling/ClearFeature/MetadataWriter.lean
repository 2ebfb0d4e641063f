import ClearFeature.BatchMetadata
import ClearFeature.Raw
import ClearFeature.RequestMetadata
import ClearFeature.WireEvents

/-!
# Metadata writer (`api/metadata_writer.py`)

A message is decoded and projected into three stores, one write after another. An
error that is raised between two writes leaves the first one made; it decides
only how the message is reported.
-/

namespace ClearFeature

open BatchMetadata (BatchMetadataStore)

/-! ## Rows of reports -/

/-- `RawReportMeta` as the writer builds it: the fields nobody checks have any type. -/
structure ReportMetaRow where
  reportRef : String
  reportType : Value
  entityType : Value
  entityKey : EntityKey
  reportTs : Int
  payloadSizeBytes : Value
  contentHash : Value
  storageUri : Value
  createdAt : Int
  format : Value
  compression : Value
  availableAt : Option Int
  availabilitySource : Option AvailabilitySource

def ReportMetaRow.conflicts (a b : ReportMetaRow) : Bool :=
  !(a.reportType.pyEq b.reportType && a.entityType.pyEq b.entityType && decide (a.entityKey = b.entityKey) &&
    decide (a.reportTs = b.reportTs) && a.payloadSizeBytes.pyEq b.payloadSizeBytes &&
    a.contentHash.pyEq b.contentHash && a.storageUri.pyEq b.storageUri && a.format.pyEq b.format &&
    a.compression.pyEq b.compression)

structure ReportMetaRepository where
  metas : List (String × ReportMetaRow) := []
  availabilityChanges : List AvailabilityChange := []

/-- `upsert` of a row that claims no trusted availability, so that it corrects none. -/
def ReportMetaRepository.upsert (repo : ReportMetaRepository) (incoming : ReportMetaRow) :
    Except PyErr ReportMetaRepository :=
  match Dict.get? repo.metas incoming.reportRef with
  | none => .ok { repo with metas := Dict.set repo.metas incoming.reportRef incoming }
  | some existing =>
    if existing.conflicts incoming then .error (.other "RawReportMetaConflictError" incoming.reportRef)
    else .ok repo

/-! ## The stores and their writes -/

structure Stores where
  requests : MetadataStore := {}
  rawMeta : ReportMetaRepository := {}
  batch : BatchMetadataStore := {}

/-- What the clock shows: to the projection, to the merge, and to the two derivations of a job status. -/
structure Readings where
  projected : Int
  merged : Int
  derived : Int
  rederived : Int

namespace Writer

abbrev Program : Type → Type := Writing PyErr Stores

def upsertRequest (metadata : RequestMetadata) (now : Int) : Program Unit :=
  Writing.write fun s => do
    let requests ← s.requests.upsertRequest metadata now
    return { s with requests }

def appendEvent (event : RequestEvent) : Program Unit :=
  Writing.write fun s => .ok { s with requests := (s.requests.appendEvent event).1 }

def upsertMeta (row : ReportMetaRow) : Program Unit :=
  Writing.write fun s => do
    let rawMeta ← s.rawMeta.upsert row
    return { s with rawMeta }

def onBatch (w : BatchMetadataStore.Program Unit) : Program Unit :=
  Writing.within Stores.batch (fun s batch => { s with batch }) w

/-- `RequestEvent(…)` without its summary, which the store does not keep. -/
def auditEvent (eventHash : String) (eventType : Value) (occurredAt : WireTime) (createdAt : Int) (requestId : Value) :
    Except PyErr RequestEvent := do
  let occurredAt ← requireAware occurredAt "occurred_at"
  return { eventHash, eventType, occurredAt, createdAt, requestId }

def audit (eventHash : String) (eventType : Value) (occurredAt : WireTime) (createdAt : Int) (requestId : Value) :
    Program Unit := do
  let event ← Writing.need (auditEvent eventHash eventType occurredAt createdAt requestId)
  appendEvent event

/-! ## Projections of decoded events -/

section
variable (ehash : String) (t : Readings)

def requestedSnapshot (event : Wire.FeatureComputeRequested) (createdAt : Int) : RequestMetadata where
  requestId := event.requestId
  updatedAt := t.projected
  jobId := event.jobId
  status := some .accepted
  entityType := event.entity.entityType
  entityKey := some event.entity.entityKey
  view := event.view
  viewVersion := event.viewVersion
  requestedFeatures := event.requestedFeatures
  requestedFeatureGroups := event.requestedFeatureGroups
  createdAt := some createdAt

/-- `not report_ref or not report_ref.strip()` raises, and so does a reference that is no text. -/
def checkReportRef (reportRef : Value) : Except PyErr String :=
  match reportRef with
  | .str ref => if isBlank ref then .error (.valueError "report_ref must be non-empty") else .ok ref
  | v =>
    if v.truthy then .error (.attributeError s!"{reprStr v.typeName} object has no attribute 'strip'")
    else .error (.valueError "report_ref must be non-empty")

/-- `RawReportMeta(…)` for one descriptor of the event. -/
def reportMeta (event : Wire.FeatureComputeRequested) (descriptor : Wire.ReportDescriptor) : Except PyErr ReportMetaRow := do
  let entityKey ← EntityKey.fromWire event.entity.entityKey
  let reportRef ← checkReportRef descriptor.reportRef
  let negative ← descriptor.sizeBytes.ltInt 0
  raiseIf (negative = true) "payload_size_bytes must be >= 0"
  let reportTs ← requireAware descriptor.reportTs "report_ts"
  let availableAt ← descriptor.availableAt.mapM (requireAware · "available_at")
  return {
    reportRef
    reportType := descriptor.reportType
    entityType := event.entity.entityType
    entityKey
    reportTs
    payloadSizeBytes := descriptor.sizeBytes
    contentHash := descriptor.contentHash
    storageUri := descriptor.objectKey
    createdAt := t.projected
    format := descriptor.format
    compression := descriptor.compression
    availableAt
    availabilitySource := availableAt.map fun _ => .ingestionTime }

def projectReport (event : Wire.FeatureComputeRequested) (descriptor : Wire.ReportDescriptor) : Program Unit := do
  let row ← Writing.need (reportMeta t event descriptor)
  upsertMeta row

def projectRequested (event : Wire.FeatureComputeRequested) : Program Value := do
  let createdAt ← Writing.need (requireAware event.occurredAt "created_at")
  upsertRequest (requestedSnapshot t event createdAt) t.merged
  audit ehash event.eventType event.occurredAt t.projected event.requestId
  Writing.each (projectReport t event) event.reports
  return event.requestId

def completedSnapshot (event : Wire.FeatureComputeCompleted) : RequestMetadata where
  requestId := event.requestId
  updatedAt := t.projected
  jobId := event.jobId
  status := some .completed
  entityType := event.entity.entityType
  entityKey := some event.entity.entityKey
  view := event.view
  viewVersion := event.viewVersion
  onlineWriteStatus := if event.onlineWriteStatus.truthy then event.onlineWriteStatus else .str "written"
  finishedAt := some t.projected

def projectCompleted (event : Wire.FeatureComputeCompleted) : Program Value := do
  upsertRequest (completedSnapshot t event) t.merged
  audit ehash event.eventType event.occurredAt t.projected event.requestId
  return event.requestId

def offlineSnapshot (event : Wire.FeatureOfflineWriteRequested) : RequestMetadata where
  requestId := event.requestId
  updatedAt := t.projected
  jobId := event.jobId
  view := event.writeSet.view
  viewVersion := event.writeSet.viewVersion
  offlineWriteStatus := some .pending

def projectOfflineRequested (event : Wire.FeatureOfflineWriteRequested) : Program Value := do
  upsertRequest (offlineSnapshot t event) t.merged
  audit ehash event.eventType event.occurredAt t.projected event.requestId
  return event.requestId

/-- The snapshot a dead letter makes; a projection failure is no failure of the request. -/
def dlqSnapshot (event : Wire.DeadLetterEvent) : Option RequestMetadata :=
  if event.originalRequestId.truthy = false then none
  else if event.failureStage.pyEq (.str "metadata_writer") then none
  else if event.failureStage.pyEq (.str "offline_writer") then
    some { requestId := event.originalRequestId, updatedAt := t.projected, offlineWriteStatus := some .failedDlq
           error := event.error }
  else
    some { requestId := event.originalRequestId, updatedAt := t.projected, status := some .failed, error := event.error }

def projectDlq (event : Wire.DeadLetterEvent) : Program Value := do
  audit ehash event.eventType event.occurredAt t.projected event.originalRequestId
  match dlqSnapshot t event with
  | none => return event.originalRequestId
  | some metadata =>
    upsertRequest metadata t.merged
    return event.originalRequestId

def projectModelScore (event : Wire.ModelScoreWriteRequested) : Program Value := do
  audit ehash event.eventType event.occurredAt t.projected event.scoreWriteId
  return event.scoreWriteId

def requestedJob (event : Wire.BatchChunkRequested) : BatchMetadata.BatchJobRecord where
  jobId := event.batchJobId
  status := .accepted
  createdAt := t.projected
  updatedAt := t.projected
  view := event.view
  viewVersion := event.viewVersion
  requestedFeatures := event.requestedFeatures
  requestedFeatureGroups := event.requestedFeatureGroups
  totalItems := event.totalItems
  chunkCount := event.chunkCount
  writeOnline := event.writeOnline
  manifestId := event.manifestId
  manifestIds := event.manifestIds

def requestedChunk (event : Wire.BatchChunkRequested) : BatchMetadata.BatchChunkRecord where
  chunkId := event.chunkId
  jobId := event.batchJobId
  chunkIndex := event.chunkIndex
  chunkCount := event.chunkCount
  status := .str "requested"
  itemCount := .int event.items.length
  createdAt := t.projected
  updatedAt := t.projected

def projectBatchChunkRequested (event : Wire.BatchChunkRequested) : Program Value := do
  onBatch (BatchMetadataStore.upsertJob (requestedJob t event) t.merged t.derived)
  onBatch (BatchMetadataStore.upsertChunkRequested (requestedChunk t event) t.rederived)
  audit ehash event.eventType event.occurredAt t.projected event.batchJobId
  return event.batchJobId

def processedChunk (event : Wire.BatchChunkProcessed) (finishedAt : Int) : BatchMetadata.BatchChunkRecord where
  chunkId := event.chunkId
  jobId := event.batchJobId
  chunkIndex := event.chunkIndex
  chunkCount := event.chunkCount
  status := event.status
  itemCount := event.itemCount
  okItems := event.okItems
  failedItems := event.failedItems
  firstErrors := event.firstErrors
  createdAt := t.projected
  updatedAt := t.projected
  finishedAt := some finishedAt

def projectBatchChunkProcessed (event : Wire.BatchChunkProcessed) : Program Value := do
  let finishedAt ← Writing.need (requireAware event.processedAt "finished_at")
  onBatch (BatchMetadataStore.upsertChunkProcessed (processedChunk t event finishedAt) t.derived)
  audit ehash event.eventType event.processedAt t.projected event.batchJobId
  return event.batchJobId

end

end Writer

/-! ## Messages -/

/-- A decoded event of one of the types that have a handler. -/
inductive MetadataEvent where
  | requested (event : Wire.FeatureComputeRequested)
  | completed (event : Wire.FeatureComputeCompleted)
  | offlineRequested (event : Wire.FeatureOfflineWriteRequested)
  | modelScore (event : Wire.ModelScoreWriteRequested)
  | batchChunkRequested (event : Wire.BatchChunkRequested)
  | batchChunkProcessed (event : Wire.BatchChunkProcessed)
  | dlq (event : Wire.DeadLetterEvent)

/-- `_HANDLERS.get(event_type)`, as the decoding of the events of that type. -/
def handlerOf (codec : WireCodec) (eventType : Value) : Option (Value → Except PyErr MetadataEvent) :=
  match eventType with
  | .str "feature_compute.requested" => some fun data => .requested <$> Wire.FeatureComputeRequested.fromDict codec data
  | .str "feature_compute.completed" => some fun data => .completed <$> Wire.FeatureComputeCompleted.fromDict codec data
  | .str "feature_write.offline.requested" =>
    some fun data => .offlineRequested <$> Wire.FeatureOfflineWriteRequested.fromDict codec data
  | .str "model_score.write.requested" => some fun data => .modelScore <$> Wire.ModelScoreWriteRequested.fromDict codec data
  | .str "batch.chunk.requested" => some fun data => .batchChunkRequested <$> Wire.BatchChunkRequested.fromDict codec data
  | .str "batch.chunk.processed" => some fun data => .batchChunkProcessed <$> Wire.BatchChunkProcessed.fromDict codec data
  | .str "event.dlq" => some fun data => .dlq <$> Wire.DeadLetterEvent.fromDict codec data
  | _ => none

def MetadataEvent.project (ehash : String) (t : Readings) : MetadataEvent → Writer.Program Value
  | .requested event => Writer.projectRequested ehash t event
  | .completed event => Writer.projectCompleted ehash t event
  | .offlineRequested event => Writer.projectOfflineRequested ehash t event
  | .modelScore event => Writer.projectModelScore ehash t event
  | .batchChunkRequested event => Writer.projectBatchChunkRequested ehash t event
  | .batchChunkProcessed event => Writer.projectBatchChunkProcessed ehash t event
  | .dlq event => Writer.projectDlq ehash t event

inductive ProjectionStatus where
  | ok
  | unknownEventType
  | deserializationFailed
  | structuralConflict
  | storeFailed
  deriving DecidableEq, Repr

structure ProjectionResult where
  status : ProjectionStatus
  eventType : Value := .null
  requestId : Value := .null
  error : Option String := none

/-- The `except` clauses in their order. -/
def classifyError (eventType : Value) : PyErr → ProjectionResult
  | .keyError msg | .typeError msg | .valueError msg =>
    { status := .deserializationFailed, eventType, error := some msg }
  | .other "RawReportMetaConflictError" msg =>
    { status := .structuralConflict, eventType, error := some s!"RawReportMetaConflictError: {msg}" }
  | .other "BatchMetadataConflictError" msg =>
    { status := .structuralConflict, eventType, error := some s!"BatchMetadataConflictError: {msg}" }
  | e => { status := .storeFailed, eventType, error := some e.msg }

def eventTypeOf (data : Value) : Value :=
  match data with
  | .obj kvs => (Dict.get? kvs "event_type").getD .null
  | _ => .null

/-- `project_event`: the result, unless the event type cannot be looked up, and the stores it leaves. -/
def projectEvent (codec : WireCodec) (s : Stores) (raw : Bytes) (t : Readings) :
    Except PyErr ProjectionResult × Stores :=
  let ehash := codec.sha256 raw
  match codec.loads raw with
  | .error msg => (.ok { status := .deserializationFailed, error := some msg }, s)
  | .ok data =>
    let eventType := eventTypeOf data
    match eventType.asKey with
    | .error e => (.error e, s)
    | .ok _ =>
      match handlerOf codec eventType with
      | none => (.ok { status := .unknownEventType, eventType }, s)
      | some decode =>
        let handled : Writer.Program Value := do
          let event ← Writing.need (decode data)
          event.project ehash t
        match handled.run s with
        | .ok requestId s => (.ok { status := .ok, eventType, requestId }, s)
        | .error e s => (.ok (classifyError eventType e), s)

/-! ## What a message carries -/

/-- The event of a message that reaches a handler and can be decoded. -/
def decoded (codec : WireCodec) (raw : Bytes) : Option MetadataEvent :=
  match codec.loads raw with
  | .error _ => none
  | .ok data =>
    match handlerOf codec (eventTypeOf data) with
    | none => none
    | some decode => (decode data).toOption

theorem handlerOf_asKey {codec : WireCodec} {eventType : Value} {decode : Value → Except PyErr MetadataEvent}
    (h : handlerOf codec eventType = some decode) : ∃ key, eventType.asKey = .ok key := by
  cases eventType with
  | arr xs => cases h
  | obj kvs => cases h
  | _ => exact ⟨_, rfl⟩

/-- A decoded event is projected, and what its handler raises is classified. -/
theorem projectEvent_eq {codec : WireCodec} {raw : Bytes} {event : MetadataEvent} (s : Stores) (t : Readings)
    (h : decoded codec raw = some event) : ∃ eventType, projectEvent codec s raw t =
      match EStateM.run (event.project (codec.sha256 raw) t) s with
      | .ok requestId s' => (.ok { status := .ok, eventType, requestId }, s')
      | .error e s' => (.ok (classifyError eventType e), s') := by
  unfold decoded at h
  unfold projectEvent
  cases hl : codec.loads raw with
  | error msg => rw [hl] at h; cases h
  | ok data =>
    rw [hl] at h
    dsimp only at h ⊢
    cases hh : handlerOf codec (eventTypeOf data) with
    | none => rw [hh] at h; cases h
    | some decode =>
      obtain ⟨key, hkey⟩ := handlerOf_asKey hh
      rw [hh] at h
      dsimp only at h
      cases hd : decode data with
      | error e => rw [hd] at h; cases h
      | ok event' =>
        rw [hd] at h
        cases h
        rw [hkey]
        dsimp only
        rw [hd, Writing.run_bind_of_ok (Writing.run_need_ok event s)]
        refine ⟨eventTypeOf data, ?_⟩
        cases EStateM.run (event.project (codec.sha256 raw) t) s <;> rfl

theorem projectEvent_decoded {codec : WireCodec} {raw : Bytes} {event : MetadataEvent} (s : Stores) (t : Readings)
    (h : decoded codec raw = some event) :
    (projectEvent codec s raw t).2 = Writing.left (EStateM.run (event.project (codec.sha256 raw) t) s) := by
  obtain ⟨eventType, heq⟩ := projectEvent_eq s t h
  rw [heq]
  cases EStateM.run (event.project (codec.sha256 raw) t) s <;> rfl

theorem projectEvent_undecoded {codec : WireCodec} {raw : Bytes} (s : Stores) (t : Readings)
    (h : decoded codec raw = none) : (projectEvent codec s raw t).2 = s := by
  unfold decoded at h
  unfold projectEvent
  cases hl : codec.loads raw with
  | error msg => rfl
  | ok data =>
    rw [hl] at h
    dsimp only at h ⊢
    cases (eventTypeOf data).asKey with
    | error e => rfl
    | ok key =>
      dsimp only
      cases hh : handlerOf codec (eventTypeOf data) with
      | none => rfl
      | some decode =>
        rw [hh] at h
        dsimp only at h ⊢
        cases hd : decode data with
        | error e => rfl
        | ok event => rw [hd] at h; cases h

/-! ## Messages of known text -/

/-- The text of an object whose first field has a name that begins with `tag`, and what it decodes to. -/
structure KnownMessage where
  tag : Char
  rest : String
  value : Value

@[irreducible] def KnownMessage.raw (m : KnownMessage) : Bytes := asciiBytes ("\x7b\"" ++ String.singleton m.tag ++ m.rest)

/-- A codec that knows a few messages and one time. -/
def codecOf (known : List KnownMessage) : WireCodec where
  loads raw :=
    match known.find? fun m => decide (m.raw = raw) with
    | some m => .ok m.value
    | none => .error "Expecting value: line 1 column 1 (char 0)"
  fromisoformat text := if text = "2024-01-01T00:00:00+00:00" then some (.aware 1704067200000000) else none
  sha256 raw := String.ofList (raw.map fun b => Char.ofNat b.toNat)

theorem KnownMessage.raw_tag {m m' : KnownMessage} (h : m.raw = m'.raw) :
    UInt8.ofNat m.tag.toNat = UInt8.ofNat m'.tag.toNat := by
  simp only [raw, asciiBytes, String.toList_append, String.toList_singleton, List.map_append, List.append_assoc,
    List.append_cancel_left_eq, List.map_cons, List.singleton_append, List.cons.injEq] at h
  exact h.1

theorem codecOf_loads {known : List KnownMessage} {m : KnownMessage}
    (hn : (known.map fun m => UInt8.ofNat m.tag.toNat).Nodup) (hm : m ∈ known) :
    (codecOf known).loads m.raw = .ok m.value := by
  have hfind : known.find? (fun m' => decide (m'.raw = m.raw)) = some m := by
    induction known with
    | nil => cases hm
    | cons m' known ih =>
      obtain ⟨hnew, hn⟩ := List.nodup_cons.mp hn
      by_cases hraw : m'.raw = m.raw
      · rcases List.mem_cons.mp hm with rfl | hm
        · simp
        · refine absurd (List.mem_map.mpr ⟨m, hm, ?_⟩) hnew
          exact (KnownMessage.raw_tag hraw).symm
      · rcases List.mem_cons.mp hm with rfl | hm
        · exact absurd rfl hraw
        · rw [List.find?_cons_of_neg (by simpa using hraw)]
          exact ih hn hm
  simp only [codecOf, hfind]

theorem decoded_codecOf {known : List KnownMessage} {m : KnownMessage} {event : MetadataEvent}
    (hn : (known.map fun m => UInt8.ofNat m.tag.toNat).Nodup) (hm : m ∈ known)
    (h : (handlerOf (codecOf known) (eventTypeOf m.value)).bind (fun decode => (decode m.value).toOption) = some event) :
    decoded (codecOf known) m.raw = some event := by
  unfold decoded
  rw [codecOf_loads hn hm]
  dsimp only
  cases hh : handlerOf (codecOf known) (eventTypeOf m.value) with
  | none =>
    rw [hh] at h
    cases h
  | some decode =>
    rw [hh] at h
    exact h

end ClearFeature
