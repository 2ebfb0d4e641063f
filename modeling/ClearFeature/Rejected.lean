import ClearFeature.RequestProjection

/-!
# Rejected events

No store undoes a write. A rejected event leaves what was written before the
point where its projection stopped, so it leaves no trace only if that point
comes before the first write.
-/

namespace ClearFeature

open BatchMetadata (BatchJobRecord BatchChunkRecord BatchMetadataStore)

/-! ## Where a projection stops -/

namespace BatchMetadata.BatchMetadataStore

/-- Where an upsert of a job stops, and the rows it leaves: the row is put before its status is derived. -/
inductive JobStops (job : BatchJobRecord) (mergedAt derivedAt : Int) (store : BatchMetadataStore) : BatchMetadataStore → Prop where
  | id {e : PyErr} (h : job.jobId.asKey = .error e) : JobStops job mergedAt derivedAt store store
  | status {key : Value.Key} {row : BatchJobRecord} {e : PyErr} (hkey : job.jobId.asKey = .ok key)
      (hrow : row = mergeJobSnapshot (Dict.get? store.jobs key) job mergedAt)
      (h : (store.putJob key row).recomputed job.jobId row.chunkCount derivedAt = .error e) :
      JobStops job mergedAt derivedAt store (store.putJob key row)

/-- Where an upsert of a chunk stops. -/
inductive ChunkStops (chunk : BatchChunkRecord) (derivedAt : Int) (store : BatchMetadataStore) : BatchMetadataStore → Prop where
  | id {e : PyErr} (h : chunk.chunkId.asKey = .error e) : ChunkStops chunk derivedAt store store
  | status {key : Value.Key} {row : BatchChunkRecord} {e : PyErr} (hkey : chunk.chunkId.asKey = .ok key)
      (hrow : row = replacing (Dict.get? store.chunks key) chunk)
      (h : (store.putChunk key row).recomputed chunk.jobId chunk.chunkCount derivedAt = .error e) :
      ChunkStops chunk derivedAt store (store.putChunk key row)

section
variable {store store' : BatchMetadataStore} {e : PyErr}

theorem jobStops {job : BatchJobRecord} {mergedAt derivedAt : Int}
    (h : EStateM.run (upsertJob job mergedAt derivedAt) store = .error e store') :
    JobStops job mergedAt derivedAt store store' := by
  rw [run_upsertJob] at h
  cases hkey : job.jobId.asKey with
  | error e' =>
    rw [hkey] at h
    cases h
    exact .id hkey
  | ok key =>
    rw [hkey] at h
    obtain ⟨hderived, rfl⟩ := Writing.write_error.mp h
    exact .status hkey rfl hderived

theorem chunkStops_requested {chunk : BatchChunkRecord} {derivedAt : Int}
    (h : EStateM.run (upsertChunkRequested chunk derivedAt) store = .error e store') :
    ChunkStops chunk derivedAt store store' := by
  rw [run_upsertChunkRequested] at h
  cases hkey : chunk.chunkId.asKey with
  | error e' =>
    rw [hkey] at h
    cases h
    exact .id hkey
  | ok key =>
    rw [hkey] at h
    dsimp only at h
    by_cases hterminal : ((Dict.get? store.chunks key).any fun e => isTerminal e.status) = true
    · rw [if_pos hterminal] at h
      cases h
    · rw [if_neg hterminal] at h
      obtain ⟨hderived, rfl⟩ := Writing.write_error.mp h
      exact .status hkey rfl hderived

theorem chunkStops_processed {chunk : BatchChunkRecord} {derivedAt : Int}
    (h : EStateM.run (upsertChunkProcessed chunk derivedAt) store = .error e store') :
    ChunkStops chunk derivedAt store store' ∨
      store' = store ∧ ∃ key, chunk.chunkId.asKey = .ok key ∧
        checkProcessedConflict (Dict.get? store.chunks key) chunk = .error e := by
  rw [run_upsertChunkProcessed] at h
  cases hkey : chunk.chunkId.asKey with
  | error e' =>
    rw [hkey] at h
    cases h
    exact .inl (.id hkey)
  | ok key =>
    rw [hkey] at h
    dsimp only at h
    cases hconflict : checkProcessedConflict (Dict.get? store.chunks key) chunk with
    | error e' =>
      rw [hconflict] at h
      cases h
      exact .inr ⟨rfl, key, rfl, hconflict⟩
    | ok same =>
      rw [hconflict] at h
      cases same with
      | true => cases h
      | false =>
        obtain ⟨hderived, rfl⟩ := Writing.write_error.mp h
        exact .inl (.status hkey rfl hderived)

end

end BatchMetadata.BatchMetadataStore

def Stores.withEvent (s : Stores) (event : RequestEvent) : Stores :=
  { s with requests := (s.requests.appendEvent event).1 }

/-- The row of one report, made and stored. -/
def ReportMetaRepository.withReport (t : Readings) (event : Wire.FeatureComputeRequested) (repo : ReportMetaRepository)
    (descriptor : Wire.ReportDescriptor) : Except PyErr ReportMetaRepository := do
  let row ← Writer.reportMeta t event descriptor
  repo.upsert row

section
variable (ehash : String) (t : Readings)

/-- The points where a projection can stop, and the stores it leaves there. -/
inductive MetadataEvent.Stops (s : Stores) : MetadataEvent → Stores → Prop where
  | requestedTime {e : Wire.FeatureComputeRequested} {clock : Int} (h : e.occurredAt = .naive clock) : Stops s (.requested e) s
  | requestedId {e : Wire.FeatureComputeRequested} {err : PyErr} (h : e.requestId.asKey = .error err) : Stops s (.requested e) s
  | report {e : Wire.FeatureComputeRequested} {instant : Int} {key : Value.Key} {before after : List Wire.ReportDescriptor}
      {descriptor : Wire.ReportDescriptor} {rawMeta : ReportMetaRepository} {err : PyErr}
      (htime : e.occurredAt = .aware instant) (hid : e.requestId.asKey = .ok key)
      (hreports : e.reports = before ++ descriptor :: after)
      (hbefore : before.foldlM (ReportMetaRepository.withReport t e) s.rawMeta = .ok rawMeta)
      (h : rawMeta.withReport t e descriptor = .error err) :
      Stops s (.requested e)
        { (s.withSnapshot (Writer.requestedSnapshot t e instant) t.merged).withEvent
            ⟨ehash, e.eventType, instant, t.projected, e.requestId⟩ with rawMeta }
  | completedId {e : Wire.FeatureComputeCompleted} {err : PyErr} (h : e.requestId.asKey = .error err) : Stops s (.completed e) s
  | completedTime {e : Wire.FeatureComputeCompleted} {key : Value.Key} {clock : Int} (hid : e.requestId.asKey = .ok key)
      (h : e.occurredAt = .naive clock) : Stops s (.completed e) (s.withSnapshot (Writer.completedSnapshot t e) t.merged)
  | offlineId {e : Wire.FeatureOfflineWriteRequested} {err : PyErr} (h : e.requestId.asKey = .error err) :
      Stops s (.offlineRequested e) s
  | offlineTime {e : Wire.FeatureOfflineWriteRequested} {key : Value.Key} {clock : Int} (hid : e.requestId.asKey = .ok key)
      (h : e.occurredAt = .naive clock) : Stops s (.offlineRequested e) (s.withSnapshot (Writer.offlineSnapshot t e) t.merged)
  | deadLetterTime {e : Wire.DeadLetterEvent} {clock : Int} (h : e.occurredAt = .naive clock) : Stops s (.dlq e) s
  | deadLetterId {e : Wire.DeadLetterEvent} {instant : Int} {metadata : RequestMetadata} {err : PyErr}
      (htime : e.occurredAt = .aware instant) (hsnapshot : Writer.dlqSnapshot t e = some metadata)
      (h : metadata.requestId.asKey = .error err) :
      Stops s (.dlq e) (s.withEvent ⟨ehash, e.eventType, instant, t.projected, e.originalRequestId⟩)
  | scoreTime {e : Wire.ModelScoreWriteRequested} {clock : Int} (h : e.occurredAt = .naive clock) : Stops s (.modelScore e) s
  | job {e : Wire.BatchChunkRequested} {batch : BatchMetadataStore}
      (h : s.batch.JobStops (Writer.requestedJob t e) t.merged t.derived batch) : Stops s (.batchChunkRequested e) { s with batch }
  | requestedChunk {e : Wire.BatchChunkRequested} {store batch : BatchMetadataStore}
      (hjob : EStateM.run (BatchMetadataStore.upsertJob (Writer.requestedJob t e) t.merged t.derived) s.batch = .ok () store)
      (h : store.ChunkStops (Writer.requestedChunk t e) t.rederived batch) : Stops s (.batchChunkRequested e) { s with batch }
  | requestedChunkTime {e : Wire.BatchChunkRequested} {store batch : BatchMetadataStore} {clock : Int}
      (hjob : EStateM.run (BatchMetadataStore.upsertJob (Writer.requestedJob t e) t.merged t.derived) s.batch = .ok () store)
      (hchunk : EStateM.run (BatchMetadataStore.upsertChunkRequested (Writer.requestedChunk t e) t.rederived) store = .ok () batch)
      (h : e.occurredAt = .naive clock) : Stops s (.batchChunkRequested e) { s with batch }
  | processedTime {e : Wire.BatchChunkProcessed} {clock : Int} (h : e.processedAt = .naive clock) :
      Stops s (.batchChunkProcessed e) s
  | processedConflict {e : Wire.BatchChunkProcessed} {instant : Int} {key : Value.Key} {err : PyErr}
      (htime : e.processedAt = .aware instant) (hid : e.chunkId.asKey = .ok key)
      (h : BatchMetadata.checkProcessedConflict (Dict.get? s.batch.chunks key) (Writer.processedChunk t e instant) = .error err) :
      Stops s (.batchChunkProcessed e) s
  | processedChunk {e : Wire.BatchChunkProcessed} {instant : Int} {batch : BatchMetadataStore}
      (htime : e.processedAt = .aware instant)
      (h : s.batch.ChunkStops (Writer.processedChunk t e instant) t.derived batch) : Stops s (.batchChunkProcessed e) { s with batch }

end

/-! ## The steps of a projection -/

section
variable {s s' : Stores} {e : PyErr}

theorem naive_of_requireAware {time : WireTime} {name : String} (h : requireAware time name = .error e) :
    ∃ clock, time = .naive clock := by
  cases time with
  | aware instant => cases h
  | naive clock => exact ⟨clock, rfl⟩

theorem aware_of_requireAware {time : WireTime} {name : String} {instant : Int} (h : requireAware time name = .ok instant) :
    time = .aware instant := by
  cases time with
  | aware _ =>
    cases h
    rfl
  | naive _ => cases h

theorem upsertRequest_stops {metadata : RequestMetadata} {now : Int}
    (h : EStateM.run (Writer.upsertRequest metadata now) s = .error e s') :
    metadata.requestId.asKey = .error e ∧ s' = s := by
  rw [upsertRequest_eq] at h
  cases hk : metadata.requestId.asKey with
  | error e' =>
    rw [hk] at h
    cases h
    exact ⟨rfl, rfl⟩
  | ok key =>
    rw [hk] at h
    cases h

theorem upsertRequest_goes {metadata : RequestMetadata} {now : Int} {u : Unit}
    (h : EStateM.run (Writer.upsertRequest metadata now) s = .ok u s') :
    (∃ key, metadata.requestId.asKey = .ok key) ∧ s' = s.withSnapshot metadata now := by
  rw [upsertRequest_eq] at h
  cases hk : metadata.requestId.asKey with
  | error e' =>
    rw [hk] at h
    cases h
  | ok key =>
    rw [hk] at h
    cases h
    exact ⟨⟨key, rfl⟩, rfl⟩

theorem audit_stops {ehash : String} {eventType requestId : Value} {occurredAt : WireTime} {createdAt : Int}
    (h : EStateM.run (Writer.audit ehash eventType occurredAt createdAt requestId) s = .error e s') :
    (∃ clock, occurredAt = .naive clock) ∧ s' = s := by
  cases occurredAt with
  | naive clock =>
    cases h
    exact ⟨⟨clock, rfl⟩, rfl⟩
  | aware instant =>
    rw [run_audit] at h
    cases h

/-- A projection that ends with the audit stops there if the time is naive. -/
theorem audited_stops {ehash : String} {eventType requestId : Value} {occurredAt : WireTime} {createdAt : Int}
    (h : EStateM.run (Writer.audit ehash eventType occurredAt createdAt requestId >>= fun _ => pure requestId) s = .error e s') :
    (∃ clock, occurredAt = .naive clock) ∧ s' = s := by
  rcases Writing.bind_error.mp h with h | ⟨_, _, _, h⟩
  · exact audit_stops h
  · cases h

theorem projectReport_eq (s : Stores) (t : Readings) (event : Wire.FeatureComputeRequested) (descriptor : Wire.ReportDescriptor) :
    EStateM.run (Writer.projectReport t event descriptor) s =
      match s.rawMeta.withReport t event descriptor with
      | .error e => .error e s
      | .ok rawMeta => .ok () { s with rawMeta } := by
  unfold Writer.projectReport ReportMetaRepository.withReport
  cases Writer.reportMeta t event descriptor with
  | error e => rfl
  | ok row =>
    rw [Writing.run_bind_of_ok (Writing.run_need_ok row s)]
    show EStateM.run (Writer.upsertMeta row) s = match s.rawMeta.upsert row with
      | .error e => .error e s
      | .ok rawMeta => .ok () { s with rawMeta }
    cases hrow : s.rawMeta.upsert row with
    | error e =>
      refine Writing.run_write_error ?_
      rw [hrow]
      rfl
    | ok rawMeta =>
      refine Writing.run_write_ok ?_
      rw [hrow]
      rfl

theorem projectReports_goes {t : Readings} {event : Wire.FeatureComputeRequested} {s' : Stores} {u : Unit} :
    ∀ {descriptors : List Wire.ReportDescriptor} {s : Stores},
      EStateM.run (Writing.each (Writer.projectReport t event) descriptors) s = .ok u s' →
      ∃ rawMeta, descriptors.foldlM (ReportMetaRepository.withReport t event) s.rawMeta = .ok rawMeta ∧
        s' = { s with rawMeta }
  | [], _, h => by
    cases h
    exact ⟨_, rfl, rfl⟩
  | descriptor :: descriptors, s, h => by
    obtain ⟨_, s₁, hone, hrest⟩ := Writing.bind_ok.mp h
    rw [projectReport_eq] at hone
    cases hreport : s.rawMeta.withReport t event descriptor with
    | error e =>
      rw [hreport] at hone
      cases hone
    | ok rawMeta =>
      rw [hreport] at hone
      cases hone
      obtain ⟨rawMeta', hfold, rfl⟩ := projectReports_goes hrest
      refine ⟨rawMeta', ?_, rfl⟩
      rw [List.foldlM_cons, hreport]
      exact hfold

theorem projectReport_stops {t : Readings} {event : Wire.FeatureComputeRequested} {descriptor : Wire.ReportDescriptor}
    (h : EStateM.run (Writer.projectReport t event descriptor) s = .error e s') :
    s.rawMeta.withReport t event descriptor = .error e ∧ s' = s := by
  rw [projectReport_eq] at h
  cases hreport : s.rawMeta.withReport t event descriptor with
  | error e' =>
    rw [hreport] at h
    cases h
    exact ⟨rfl, rfl⟩
  | ok rawMeta =>
    rw [hreport] at h
    cases h

theorem requested_stops {ehash : String} {t : Readings} {event : Wire.FeatureComputeRequested}
    (h : EStateM.run (Writer.projectRequested ehash t event) s = .error e s') :
    MetadataEvent.Stops ehash t s (.requested event) s' := by
  rcases Writing.bind_error.mp h with hcheck | ⟨instant, s₁, hcheck, h₁⟩
  · obtain ⟨hnaive, rfl⟩ := Writing.need_error.mp hcheck
    obtain ⟨clock, htime⟩ := naive_of_requireAware hnaive
    exact .requestedTime htime
  obtain ⟨hok, rfl⟩ := Writing.need_ok.mp hcheck
  have htime := aware_of_requireAware hok
  rcases Writing.bind_error.mp h₁ with hsnapshot | ⟨_, s₂, hsnapshot, h₂⟩
  · obtain ⟨hid, rfl⟩ := upsertRequest_stops hsnapshot
    exact .requestedId hid
  obtain ⟨⟨key, hid⟩, rfl⟩ := upsertRequest_goes hsnapshot
  rw [htime, Writing.run_bind_of_ok (run_audit _ _ _ _ _)] at h₂
  rcases Writing.bind_error.mp h₂ with hreports | ⟨_, _, _, h₃⟩
  · obtain ⟨before, descriptor, after, s₃, hsplit, hbefore, hstop⟩ := Writing.each_error hreports
    obtain ⟨rawMeta, hfold, rfl⟩ := projectReports_goes hbefore
    obtain ⟨hreport, rfl⟩ := projectReport_stops hstop
    exact .report htime hid hsplit hfold hreport
  · cases h₃

theorem requestedChunk_stops {ehash : String} {t : Readings} {event : Wire.BatchChunkRequested}
    (h : EStateM.run (Writer.projectBatchChunkRequested ehash t event) s = .error e s') :
    MetadataEvent.Stops ehash t s (.batchChunkRequested event) s' := by
  rcases Writing.bind_error.mp h with h | ⟨_, s₁, hjob, h⟩
  · obtain ⟨batch, hstop, rfl⟩ := Writing.within_error.mp h
    exact .job (BatchMetadataStore.jobStops hstop)
  obtain ⟨store, hstore, rfl⟩ := Writing.within_ok.mp hjob
  rcases Writing.bind_error.mp h with h | ⟨_, s₂, hchunk, h⟩
  · obtain ⟨batch, hstop, rfl⟩ := Writing.within_error.mp h
    exact .requestedChunk hstore (BatchMetadataStore.chunkStops_requested hstop)
  obtain ⟨batch, hbatch, rfl⟩ := Writing.within_ok.mp hchunk
  obtain ⟨⟨clock, htime⟩, rfl⟩ := audited_stops h
  exact .requestedChunkTime hstore hbatch htime

theorem processedChunk_stops {ehash : String} {t : Readings} {event : Wire.BatchChunkProcessed}
    (h : EStateM.run (Writer.projectBatchChunkProcessed ehash t event) s = .error e s') :
    MetadataEvent.Stops ehash t s (.batchChunkProcessed event) s' := by
  rcases Writing.bind_error.mp h with hcheck | ⟨instant, s₁, hcheck, h₁⟩
  · obtain ⟨hnaive, rfl⟩ := Writing.need_error.mp hcheck
    obtain ⟨clock, htime⟩ := naive_of_requireAware hnaive
    exact .processedTime htime
  obtain ⟨hok, rfl⟩ := Writing.need_ok.mp hcheck
  have htime := aware_of_requireAware hok
  rcases Writing.bind_error.mp h₁ with hchunk | ⟨_, s₂, _, h₂⟩
  · obtain ⟨batch, hstop, rfl⟩ := Writing.within_error.mp hchunk
    rcases BatchMetadataStore.chunkStops_processed hstop with hstop | ⟨rfl, key, hid, hconflict⟩
    · exact .processedChunk htime hstop
    · exact .processedConflict htime hid hconflict
  · obtain ⟨⟨clock, hnaive⟩, -⟩ := audited_stops h₂
    rw [htime] at hnaive
    cases hnaive

theorem deadLetter_stops {ehash : String} {t : Readings} {event : Wire.DeadLetterEvent}
    (h : EStateM.run (Writer.projectDlq ehash t event) s = .error e s') :
    MetadataEvent.Stops ehash t s (.dlq event) s' := by
  rcases Writing.bind_error.mp h with h | ⟨_, s₁, haudit, h⟩
  · obtain ⟨⟨clock, htime⟩, rfl⟩ := audit_stops h
    exact .deadLetterTime htime
  cases htime : event.occurredAt with
  | naive clock =>
    rw [htime] at haudit
    cases haudit
  | aware instant =>
    rw [htime, run_audit] at haudit
    cases haudit
    cases hsnapshot : Writer.dlqSnapshot t event with
    | none =>
      rw [hsnapshot] at h
      cases h
    | some metadata =>
      rw [hsnapshot] at h
      rcases Writing.bind_error.mp h with h | ⟨_, _, _, h⟩
      · obtain ⟨hid, rfl⟩ := upsertRequest_stops h
        exact .deadLetterId htime hsnapshot hid
      · cases h

/-- What a projection that raises leaves is what it wrote before one of the points where it can stop. -/
theorem project_stops {ehash : String} {t : Readings} {event : MetadataEvent}
    (h : EStateM.run (event.project ehash t) s = .error e s') : event.Stops ehash t s s' := by
  cases event with
  | requested event => exact requested_stops h
  | completed event =>
    rcases Writing.bind_error.mp h with h | ⟨_, s₁, hsnapshot, h⟩
    · obtain ⟨hid, rfl⟩ := upsertRequest_stops h
      exact .completedId hid
    · obtain ⟨⟨key, hid⟩, rfl⟩ := upsertRequest_goes hsnapshot
      obtain ⟨⟨clock, htime⟩, rfl⟩ := audited_stops h
      exact .completedTime hid htime
  | offlineRequested event =>
    rcases Writing.bind_error.mp h with h | ⟨_, s₁, hsnapshot, h⟩
    · obtain ⟨hid, rfl⟩ := upsertRequest_stops h
      exact .offlineId hid
    · obtain ⟨⟨key, hid⟩, rfl⟩ := upsertRequest_goes hsnapshot
      obtain ⟨⟨clock, htime⟩, rfl⟩ := audited_stops h
      exact .offlineTime hid htime
  | modelScore event =>
    obtain ⟨⟨clock, htime⟩, rfl⟩ := audited_stops h
    exact .scoreTime htime
  | batchChunkRequested event => exact requestedChunk_stops h
  | batchChunkProcessed event => exact processedChunk_stops h
  | dlq event => exact deadLetter_stops h

end

/-! ## Requests with two reports -/

def reportText (ref size : String) : String :=
  "\x7b\"report_ref\": \"" ++ ref ++ "\", \"source_name\": \"bureau\", \"report_type\": \"credit_report\", " ++
  "\"schema_version\": \"1\", \"report_ts\": \"2024-01-01T00:00:00+00:00\", \"object_key\": \"raw/1\", " ++
  "\"content_hash\": \"h\", \"size_bytes\": " ++ size ++ ", \"compression\": \"gzip\", \"format\": \"json\"\x7d"

def reportValue (ref : String) (size : Int) : Value :=
  .obj [("report_ref", .str ref), ("source_name", .str "bureau"), ("report_type", .str "credit_report"),
    ("schema_version", .str "1"), ("report_ts", .str "2024-01-01T00:00:00+00:00"), ("object_key", .str "raw/1"),
    ("content_hash", .str "h"), ("size_bytes", .int size), ("compression", .str "gzip"), ("format", .str "json")]

/-- The fields of a compute request after the first two. -/
def withReportsText (first second : String) : String :=
  ", \"event_type\": \"feature_compute.requested\", \"priority\": \"normal\", \"deadline_ms\": 1000, " ++
  userEntityText ++ ", \"view\": \"users\", \"view_version\": 1, \"reports\": [" ++ first ++ ", " ++ second ++
  "], \"write_policy\": \"online_first\", \"idempotency_key\": \"k\", \"correlation_id\": \"freq_1\", " ++
  "\"occurred_at\": \"2024-01-01T00:00:00+00:00\"\x7d"

def withReportsFields (first second : Value) : List (String × Value) :=
  [("event_type", .str "feature_compute.requested"), ("priority", .str "normal"), ("deadline_ms", .int 1000),
    ("entity", userItem "1"), ("view", .str "users"), ("view_version", .int 1), ("reports", .arr [first, second]),
    ("write_policy", .str "online_first"), ("idempotency_key", .str "k"), ("correlation_id", .str "freq_1"),
    ("occurred_at", .str "2024-01-01T00:00:00+00:00")]

/-- The second report has a negative size. -/
def negativeReport : KnownMessage where
  tag := 'r'
  rest := "equest_id\": \"freq_1\", \"job_id\": \"fjob_1\"" ++ withReportsText (reportText "rep_1" "1") (reportText "rep_2" "-1")
  value := .obj (("request_id", .str "freq_1") :: ("job_id", .str "fjob_1") ::
    withReportsFields (reportValue "rep_1" 1) (reportValue "rep_2" (-1)))

/-- The second report is the first one with another size. -/
def otherReport : KnownMessage where
  tag := 'j'
  rest := "ob_id\": \"fjob_1\", \"request_id\": \"freq_1\"" ++ withReportsText (reportText "rep_1" "1") (reportText "rep_1" "2")
  value := .obj (("job_id", .str "fjob_1") :: ("request_id", .str "freq_1") ::
    withReportsFields (reportValue "rep_1" 1) (reportValue "rep_1" 2))

def reportCodec : WireCodec := codecOf [negativeReport, otherReport]

def descriptorOf (ref : String) (size : Int) : Wire.ReportDescriptor where
  reportRef := .str ref
  sourceName := .str "bureau"
  reportType := .str "credit_report"
  schemaVersion := .str "1"
  reportTs := .aware 1704067200000000
  objectKey := .str "raw/1"
  contentHash := .str "h"
  sizeBytes := .int size
  compression := .str "gzip"
  format := .str "json"
  availableAt := none

def requestOf (first second : Wire.ReportDescriptor) : Wire.FeatureComputeRequested where
  requestId := .str "freq_1"
  jobId := .str "fjob_1"
  priority := .str "normal"
  deadlineMs := .int 1000
  entity := { entityType := .str "user", entityKey := [(.str "user_id", .str "1")] }
  view := .str "users"
  viewVersion := .int 1
  reports := [first, second]
  writePolicy := .str "online_first"
  idempotencyKey := .str "k"
  correlationId := .str "freq_1"
  occurredAt := .aware 1704067200000000
  requestedFeatureGroups := []
  requestedFeatures := []
  eventTs := none
  expiresAt := none
  eventType := .str "feature_compute.requested"
  eventVersion := .int 1

theorem reportTags_nodup : ([negativeReport, otherReport].map fun m => UInt8.ofNat m.tag.toNat).Nodup := by
  show ((['r', 'j'] : List Char).map fun c => UInt8.ofNat c.toNat).Nodup
  decide

theorem decoded_negativeReport : decoded reportCodec negativeReport.raw =
    some (.requested (requestOf (descriptorOf "rep_1" 1) (descriptorOf "rep_2" (-1)))) :=
  decoded_codecOf reportTags_nodup (by simp) rfl

theorem decoded_otherReport : decoded reportCodec otherReport.raw =
    some (.requested (requestOf (descriptorOf "rep_1" 1) (descriptorOf "rep_1" 2))) :=
  decoded_codecOf reportTags_nodup (by simp) rfl

theorem run_negativeReport (ehash : String) (t : Readings) : ∃ s,
    EStateM.run (MetadataEvent.project ehash t
      (.requested (requestOf (descriptorOf "rep_1" 1) (descriptorOf "rep_2" (-1))))) {} =
      .error (.valueError "payload_size_bytes must be >= 0") s ∧
    (s.requests.requests.length, s.requests.eventHashes.length, s.rawMeta.metas.length) = (1, 1, 1) :=
  ⟨_, rfl, rfl⟩

theorem run_otherReport (ehash : String) (t : Readings) : ∃ s,
    EStateM.run (MetadataEvent.project ehash t
      (.requested (requestOf (descriptorOf "rep_1" 1) (descriptorOf "rep_1" 2)))) {} =
      .error (.other "RawReportMetaConflictError" "rep_1") s ∧
    (s.requests.requests.length, s.requests.eventHashes.length, s.rawMeta.metas.length) = (1, 1, 1) :=
  ⟨_, rfl, rfl⟩

theorem rejected_negativeReport (t : Readings) : ∃ r s, projectEvent reportCodec {} negativeReport.raw t = (.ok r, s) ∧
    r.status = .deserializationFailed ∧
    (s.requests.requests.length, s.requests.eventHashes.length, s.rawMeta.metas.length) = (1, 1, 1) := by
  obtain ⟨eventType, heq⟩ := projectEvent_eq {} t decoded_negativeReport
  obtain ⟨s, hrun, hrows⟩ := run_negativeReport (reportCodec.sha256 negativeReport.raw) t
  rw [hrun] at heq
  exact ⟨_, s, heq, rfl, hrows⟩

theorem rejected_otherReport (t : Readings) : ∃ r s, projectEvent reportCodec {} otherReport.raw t = (.ok r, s) ∧
    r.status = .structuralConflict ∧
    (s.requests.requests.length, s.requests.eventHashes.length, s.rawMeta.metas.length) = (1, 1, 1) := by
  obtain ⟨eventType, heq⟩ := projectEvent_eq {} t decoded_otherReport
  obtain ⟨s, hrun, hrows⟩ := run_otherReport (reportCodec.sha256 otherReport.raw) t
  rw [hrun] at heq
  exact ⟨_, s, heq, rfl, hrows⟩

/-- A rejected event that cannot be decoded changes nothing. Any other one leaves what its projection wrote before the
point where it stopped, and nothing else. -/
theorem rejected_event_stops (codec : WireCodec) (s : Stores) (raw : Bytes) (t : Readings) (r : ProjectionResult)
    (h : (projectEvent codec s raw t).1 = .ok r)
    (hr : r.status = .deserializationFailed ∨ r.status = .structuralConflict) :
    (decoded codec raw = none ∧ (projectEvent codec s raw t).2 = s) ∨
      ∃ event, decoded codec raw = some event ∧ event.Stops (codec.sha256 raw) t s (projectEvent codec s raw t).2 := by
  cases hd : decoded codec raw with
  | none => exact .inl ⟨rfl, projectEvent_undecoded s t hd⟩
  | some event =>
    refine .inr ⟨event, rfl, ?_⟩
    obtain ⟨eventType, heq⟩ := projectEvent_eq s t hd
    cases hrun : EStateM.run (event.project (codec.sha256 raw) t) s with
    | ok requestId s' =>
      rw [heq, hrun] at h
      cases h
      rcases hr with hr | hr <;> cases hr
    | error e s' =>
      rw [heq, hrun]
      exact project_stops hrun

/-- The request stays, and so does its first report. -/
theorem rejected_event_stops_report : ∃ event,
    decoded reportCodec negativeReport.raw = some event ∧
      event.Stops (reportCodec.sha256 negativeReport.raw) ⟨0, 0, 0, 0⟩ {} (projectEvent reportCodec {} negativeReport.raw ⟨0, 0, 0, 0⟩).2 := by
  obtain ⟨r, s, heq, hstatus, -⟩ := rejected_negativeReport ⟨0, 0, 0, 0⟩
  have h : (projectEvent reportCodec {} negativeReport.raw ⟨0, 0, 0, 0⟩).1 = .ok r := by rw [heq]
  rcases rejected_event_stops reportCodec {} negativeReport.raw ⟨0, 0, 0, 0⟩ r h (.inl hstatus) with ⟨hnone, -⟩ | hstops
  · rw [decoded_negativeReport] at hnone
    cases hnone
  · exact hstops

/-- A malformed descriptor and a conflicting one, each after a good one. -/
theorem rejected_event_leaves_report :
    (∃ r s, projectEvent reportCodec {} negativeReport.raw ⟨0, 0, 0, 0⟩ = (.ok r, s) ∧ r.status = .deserializationFailed ∧
      s.requests.requests.length = 1 ∧ s.requests.eventHashes.length = 1 ∧ s.rawMeta.metas.length = 1) ∧
    ∃ r s, projectEvent reportCodec {} otherReport.raw ⟨0, 0, 0, 0⟩ = (.ok r, s) ∧ r.status = .structuralConflict ∧
      s.requests.requests.length = 1 ∧ s.requests.eventHashes.length = 1 ∧ s.rawMeta.metas.length = 1 := by
  obtain ⟨r, s, heq, hstatus, hrows⟩ := rejected_negativeReport ⟨0, 0, 0, 0⟩
  obtain ⟨r', s', heq', hstatus', hrows'⟩ := rejected_otherReport ⟨0, 0, 0, 0⟩
  simp only [Prod.mk.injEq] at hrows hrows'
  exact ⟨⟨r, s, heq, hstatus, hrows⟩, r', s', heq', hstatus', hrows'⟩

end ClearFeature
