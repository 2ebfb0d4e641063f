import ClearFeature.WireRoundTrip

/-!
# Events survive the wire

What an event is encoded as decodes to the same event, also when entries of
optional fields are missing that older writers did not write.
-/

namespace ClearFeature.Wire

open StableSort

section
variable (text : JsonText)

/-- How the values of a type are written and read. `Encodes` also allows for optional entries that are missing, at any
depth, where the value has the default. -/
structure JsonCode (T : Type) where
  toDict : T → Except PyErr Value
  fromDict : Value → Except PyErr T
  normal : T → T
  Built : T → Prop
  times : T → List WireTime
  Encodes : T → Value → Prop

/-- A value whose times are aware has a dictionary; where that stays within the limits of the JSON text, decoding its
text gives the value back, up to the order of dictionary entries. -/
structure JsonCode.Survives {T : Type} (code : JsonCode T) : Prop where
  written : ∀ a, code.Built a → (∀ t ∈ code.times a, IsAware t) → ∃ d, code.toDict a = .ok d
  current : ∀ a, code.Built a → ∀ d, code.toDict a = .ok d → d.Printable text.limits →
    toJson text code.toDict a = .ok (text.dumps d) ∧
    ∃ a', fromJson text code.fromDict (text.dumps d) = .ok a' ∧ code.normal a' = code.normal a
  legacy : ∀ a, code.Built a → ∀ d, code.Encodes a d → d.Printable text.limits →
    ∃ a', fromJson text code.fromDict (text.dumps d) = .ok a' ∧ code.normal a' = code.normal a

variable {text}

theorem ReadsAs.fromJson {T : Type} {fromDict : Value → Except PyErr T} {normal : T → T} {a : T} {d : Value}
    (h : ReadsAs fromDict normal a d) (hd : d.Printable text.limits) :
    fromJson text fromDict (text.dumps d) = .ok (normal a) := by
  rw [Wire.fromJson, text.loads_printed h.1 hd]
  exact h.2

theorem JsonCode.survives {T : Type} {code : JsonCode T}
    (hwritten : ∀ a, code.Built a → (∀ t ∈ code.times a, IsAware t) → ∃ d, code.toDict a = .ok d)
    (hencodes : ∀ a d, code.toDict a = .ok d → code.Encodes a d)
    (hreads : ∀ a, code.Built a → ∀ d, code.Encodes a d → ReadsAs code.fromDict code.normal a d)
    (hnormal : ∀ a, code.Built a → code.normal (code.normal a) = code.normal a) : code.Survives text := by
  have hlegacy : ∀ a, code.Built a → ∀ d, code.Encodes a d → d.Printable text.limits →
      ∃ a', fromJson text code.fromDict (text.dumps d) = .ok a' ∧ code.normal a' = code.normal a := by
    exact fun a ha d hd hp => ⟨code.normal a, (hreads a ha d hd).fromJson hp, hnormal a ha⟩
  refine ⟨hwritten, fun a ha d hd hp => ?_, hlegacy⟩
  exact ⟨bind_eq_ok.mpr ⟨d, hd, rfl⟩, hlegacy a ha d (hencodes a d hd) hp⟩

end

/-! ## Mappings -/

theorem normalMapping_idem {m : Value.Mapping} (h : TextKeyed m) : normalMapping (normalMapping m) = normalMapping m := by
  obtain ⟨kvs, hkvs, -⟩ := h
  exact normalMapping_normal hkvs

theorem map_normal_idem (xs : List Value) :
    (xs.map (Value.normal false)).map (Value.normal false) = xs.map (Value.normal false) := by
  rw [List.map_map]
  exact List.map_congr_left fun v _ => Value.normal_normal v

theorem map_idem {α : Type} {normal : α → α} {l : List α} (h : ∀ a ∈ l, normal (normal a) = normal a) :
    (l.map normal).map normal = l.map normal := by
  rw [List.map_map]
  exact List.map_congr_left h

theorem normalEntries_idem {α : Type} {normal : α → α} {entries : List (String × α)}
    (h : ∀ e ∈ entries, normal (normal e.2) = normal e.2) :
    normalEntries normal (normalEntries normal entries) = normalEntries normal entries := by
  have hsorted : sortedBy Prod.fst ((sortedBy Prod.fst entries).map fun e => (e.1, normal e.2)) =
      (sortedBy Prod.fst entries).map fun e => (e.1, normal e.2) := by
    rw [map_sortedBy Prod.fst fun e : String × α => normal e.2, sortedBy_of_pairwise (sortedBy_pairwise Prod.fst entries)]
  rw [normalEntries, normalEntries, hsorted, List.map_map]
  refine List.map_congr_left fun e he => ?_
  exact Prod.ext rfl (h e ((sortedBy_perm Prod.fst entries).mem_iff.mp he))

/-! ## Entities -/

structure EntityRef.Built (e : EntityRef) : Prop where
  entityType : e.entityType.Proper
  entityKey : TextKeyed e.entityKey

theorem EntityRef.written {e : EntityRef} (h : e.Built) : ∃ d, e.toDict = .ok d := by
  obtain ⟨kvs, hkvs, -⟩ := h.entityKey
  exact ⟨_, bind_eq_ok.mpr ⟨kvs, hkvs, rfl⟩⟩

theorem EntityRef.reads {e : EntityRef} (h : e.Built) {d : Value} (hd : e.toDict = .ok d) :
    ReadsAs fromDict normal e d := by
  obtain ⟨kvs, hkvs, hd⟩ := bind_eq_ok.mp hd
  cases hd
  have hn : ["entity_type", "entity_key"].Nodup := by decide
  have hleft := LeftOut.refl [] [("entity_type", e.entityType), ("entity_key", .obj kvs)]
  refine ⟨hleft.proper hn ⟨h.entityType, h.entityKey.proper hkvs, trivial⟩, ?_⟩
  rw [fromDict, hleft.item hn "entity_type" rfl rfl, ok_bind, hleft.item hn "entity_key" rfl rfl, ok_bind,
    toMapping_normal hkvs]
  rfl

theorem EntityRef.normal_normal {e : EntityRef} (h : e.Built) : e.normal.normal = e.normal := by
  rw [normal, normal, Value.normal_normal, normalMapping_idem h.entityKey]

section
variable (text : JsonText)

/-! ## Requests -/

def ReportDescriptor.Encodes (r : ReportDescriptor) (d : Value) : Prop :=
  let optional := [("available_at", .null)]
  ∃ reportTs availableAt kvs, iso text r.reportTs = .ok reportTs ∧ iso? text r.availableAt = .ok availableAt ∧
    LeftOut optional (r.entries reportTs availableAt) kvs ∧ d = .obj kvs

def ReportDescriptor.fields (r : ReportDescriptor) : List Value :=
  [r.reportRef, r.sourceName, r.reportType, r.schemaVersion, r.objectKey, r.contentHash, r.sizeBytes, r.compression,
    r.format]

def ReportDescriptor.Built (r : ReportDescriptor) : Prop := ∀ v ∈ r.fields, v.Proper

variable {text}

def ReportDescriptor.times (r : ReportDescriptor) : List WireTime := r.reportTs :: r.availableAt.toList

theorem ReportDescriptor.written {r : ReportDescriptor} (ht : ∀ t ∈ r.times, IsAware t) : ∃ d, r.toDict text = .ok d := by
  obtain ⟨hreportTs, havailableAt⟩ := List.forall_mem_cons.mp ht
  obtain ⟨reportTs, hreportTs⟩ := iso_written hreportTs
  obtain ⟨availableAt, havailableAt⟩ := iso?_written havailableAt
  exact ⟨_, bind_eq_ok.mpr ⟨_, hreportTs, bind_eq_ok.mpr ⟨_, havailableAt, rfl⟩⟩⟩

theorem ReportDescriptor.encodes {r : ReportDescriptor} {d : Value} (h : r.toDict text = .ok d) : r.Encodes text d := by
  obtain ⟨reportTs, hreportTs, h⟩ := bind_eq_ok.mp h
  obtain ⟨availableAt, havailableAt, h⟩ := bind_eq_ok.mp h
  cases h
  exact ⟨reportTs, availableAt, _, hreportTs, havailableAt, .refl _ _, rfl⟩

theorem ReportDescriptor.reads {r : ReportDescriptor} (h : r.Built) {d : Value} (hd : r.Encodes text d) :
    ReadsAs (fromDict text.toWireCodec) normal r d := by
  obtain ⟨reportTs, availableAt, kvs, hreportTs, havailableAt, hleft, rfl⟩ := hd
  have hn : ["report_ref", "source_name", "report_type", "schema_version", "report_ts", "object_key", "content_hash",
      "size_bytes", "compression", "format", "available_at"].Nodup := by decide
  constructor
  · apply hleft.proper hn
    simp only [Built, fields, List.forall_mem_cons] at h
    simp [entries, Value.ProperFields, h, iso_proper hreportTs, iso?_proper havailableAt]
  · rw [fromDict, hleft.item hn "report_ref" rfl rfl, ok_bind, hleft.item hn "source_name" rfl rfl, ok_bind,
      hleft.item hn "report_type" rfl rfl, ok_bind, hleft.item hn "schema_version" rfl rfl, ok_bind,
      hleft.timeAt hn "report_ts" rfl rfl hreportTs, ok_bind, hleft.item hn "object_key" rfl rfl, ok_bind,
      hleft.item hn "content_hash" rfl rfl, ok_bind, hleft.item hn "size_bytes" rfl rfl, ok_bind,
      hleft.item hn "compression" rfl rfl, ok_bind, hleft.item hn "format" rfl rfl, ok_bind,
      hleft.timeAt? hn "available_at" rfl rfl havailableAt]
    rfl

theorem ReportDescriptor.normal_normal (r : ReportDescriptor) : r.normal.normal = r.normal := by
  simp only [normal, Value.normal_normal]

variable (text) in
def FeatureComputeRequested.Encodes (e : FeatureComputeRequested) (d : Value) : Prop :=
  let optional := [("requested_feature_groups", .arr []), ("requested_features", .arr []), ("event_ts", .null),
    ("expires_at", .null), ("event_type", .str "feature_compute.requested"), ("event_version", .int 1)]
  ∃ entity reports occurredAt eventTs expiresAt kvs, e.entity.toDict = .ok entity ∧
    List.Forall₂ (ReportDescriptor.Encodes text) e.reports reports ∧ iso text e.occurredAt = .ok occurredAt ∧
    iso? text e.eventTs = .ok eventTs ∧ iso? text e.expiresAt = .ok expiresAt ∧
    LeftOut optional (e.entries entity reports occurredAt eventTs expiresAt) kvs ∧ d = .obj kvs

def FeatureComputeRequested.fields (e : FeatureComputeRequested) : List Value :=
  [e.requestId, e.jobId, e.priority, e.deadlineMs, e.view, e.viewVersion, e.writePolicy, e.idempotencyKey,
    e.correlationId, e.eventType, e.eventVersion, .arr e.requestedFeatureGroups, .arr e.requestedFeatures]

structure FeatureComputeRequested.Built (e : FeatureComputeRequested) : Prop where
  proper : ∀ v ∈ e.fields, v.Proper
  entity : e.entity.Built
  reports : ∀ r ∈ e.reports, r.Built
  deadline : checkDeadline e.eventTs e.expiresAt = .ok ()

def FeatureComputeRequested.times (e : FeatureComputeRequested) : List WireTime :=
  e.occurredAt :: (e.eventTs.toList ++ e.expiresAt.toList ++ e.reports.flatMap (·.times))

theorem FeatureComputeRequested.written {e : FeatureComputeRequested} (h : e.Built) (ht : ∀ t ∈ e.times, IsAware t) :
    ∃ d, e.toDict text = .ok d := by
  simp only [times, List.forall_mem_cons, List.forall_mem_append, List.forall_mem_flatMap] at ht
  obtain ⟨hoccurredAt, ⟨heventTs, hexpiresAt⟩, hreports⟩ := ht
  obtain ⟨entity, hentity⟩ := EntityRef.written h.entity
  obtain ⟨reports, hreports⟩ := mapM_written fun r hr => ReportDescriptor.written (hreports r hr)
  obtain ⟨occurredAt, hoccurredAt⟩ := iso_written hoccurredAt
  obtain ⟨eventTs, heventTs⟩ := iso?_written heventTs
  obtain ⟨expiresAt, hexpiresAt⟩ := iso?_written hexpiresAt
  exact ⟨_, bind_eq_ok.mpr ⟨_, hentity, bind_eq_ok.mpr ⟨_, hreports, bind_eq_ok.mpr ⟨_, hoccurredAt,
    bind_eq_ok.mpr ⟨_, heventTs, bind_eq_ok.mpr ⟨_, hexpiresAt, rfl⟩⟩⟩⟩⟩⟩

theorem FeatureComputeRequested.encodes {e : FeatureComputeRequested} {d : Value} (h : e.toDict text = .ok d) :
    e.Encodes text d := by
  obtain ⟨entity, hentity, h⟩ := bind_eq_ok.mp h
  obtain ⟨reports, hreports, h⟩ := bind_eq_ok.mp h
  obtain ⟨occurredAt, hoccurredAt, h⟩ := bind_eq_ok.mp h
  obtain ⟨eventTs, heventTs, h⟩ := bind_eq_ok.mp h
  obtain ⟨expiresAt, hexpiresAt, h⟩ := bind_eq_ok.mp h
  cases h
  exact ⟨entity, reports, occurredAt, eventTs, expiresAt, _, hentity,
    (forall₂_of_mapM hreports).imp fun _ _ => ReportDescriptor.encodes, hoccurredAt, heventTs, hexpiresAt, .refl _ _, rfl⟩

theorem FeatureComputeRequested.reads {e : FeatureComputeRequested} (h : e.Built) {d : Value} (hd : e.Encodes text d) :
    ReadsAs (fromDict text.toWireCodec) normal e d := by
  obtain ⟨entity, reports, occurredAt, eventTs, expiresAt, kvs, hentity, hreports, hoccurredAt, heventTs, hexpiresAt,
    hleft, rfl⟩ := hd
  have hn : ["event_type", "event_version", "request_id", "job_id", "priority", "deadline_ms", "entity", "view",
      "view_version", "requested_feature_groups", "requested_features", "reports", "write_policy", "idempotency_key",
      "correlation_id", "occurred_at", "event_ts", "expires_at"].Nodup := by decide
  obtain ⟨hproperEntity, hreadEntity⟩ := EntityRef.reads h.entity hentity
  obtain ⟨hproperReports, hreadReports⟩ :=
    list_roundTrip (forall₂_reads hreports fun r hr d hd => ReportDescriptor.reads (h.reports r hr) hd)
  constructor
  · apply hleft.proper hn
    have hproper := h.proper
    simp only [fields, List.forall_mem_cons] at hproper
    simp [entries, Value.ProperFields, hproper, hproperEntity, hproperReports, iso_proper hoccurredAt,
      iso?_proper heventTs, iso?_proper hexpiresAt]
  · rw [fromDict, hleft.item hn "request_id" rfl rfl, ok_bind, hleft.item hn "job_id" rfl rfl, ok_bind,
      hleft.item hn "priority" rfl rfl, ok_bind, hleft.item hn "deadline_ms" rfl rfl, ok_bind,
      hleft.item hn "entity" rfl rfl, ok_bind, hreadEntity, ok_bind, hleft.item hn "view" rfl rfl, ok_bind,
      hleft.item hn "view_version" rfl rfl, ok_bind, hleft.item hn "reports" rfl rfl, ok_bind, Value.normal,
      Value.toList, ok_bind, hreadReports, ok_bind, hleft.item hn "write_policy" rfl rfl, ok_bind,
      hleft.item hn "idempotency_key" rfl rfl, ok_bind, hleft.item hn "correlation_id" rfl rfl, ok_bind,
      hleft.timeAt hn "occurred_at" rfl rfl hoccurredAt, ok_bind,
      hleft.listOr hn "requested_feature_groups" rfl rfl, ok_bind, hleft.listOr hn "requested_features" rfl rfl, ok_bind,
      hleft.timeAt? hn "event_ts" rfl rfl heventTs, ok_bind, hleft.timeAt? hn "expires_at" rfl rfl hexpiresAt, ok_bind,
      hleft.getOr hn "event_type" rfl rfl rfl, ok_bind, hleft.getOr hn "event_version" rfl rfl rfl, ok_bind, h.deadline]
    rfl

theorem FeatureComputeRequested.normal_normal {e : FeatureComputeRequested} (h : e.Built) :
    e.normal.normal = e.normal := by
  have hreports := map_idem fun r (_ : r ∈ e.reports) => ReportDescriptor.normal_normal r
  simp only [normal, Value.normal_normal, EntityRef.normal_normal h.entity, map_normal_idem, hreports]

variable (text) in
def FeatureComputeCompleted.Encodes (e : FeatureComputeCompleted) (d : Value) : Prop :=
  let optional := [("written_features", .arr []), ("online_write_status", .null),
    ("event_type", .str "feature_compute.completed"), ("event_version", .int 1)]
  ∃ entity occurredAt kvs, e.entity.toDict = .ok entity ∧ iso text e.occurredAt = .ok occurredAt ∧
    LeftOut optional (e.entries entity occurredAt) kvs ∧ d = .obj kvs

def FeatureComputeCompleted.fields (e : FeatureComputeCompleted) : List Value :=
  [e.requestId, e.jobId, e.view, e.viewVersion, e.correlationId, e.onlineWriteStatus, e.eventType, e.eventVersion,
    .arr e.writtenFeatures]

structure FeatureComputeCompleted.Built (e : FeatureComputeCompleted) : Prop where
  proper : ∀ v ∈ e.fields, v.Proper
  entity : e.entity.Built

def FeatureComputeCompleted.times (e : FeatureComputeCompleted) : List WireTime := [e.occurredAt]

theorem FeatureComputeCompleted.written {e : FeatureComputeCompleted} (h : e.Built) (ht : ∀ t ∈ e.times, IsAware t) :
    ∃ d, e.toDict text = .ok d := by
  obtain ⟨entity, hentity⟩ := EntityRef.written h.entity
  obtain ⟨occurredAt, hoccurredAt⟩ := iso_written (List.forall_mem_singleton.mp ht)
  exact ⟨_, bind_eq_ok.mpr ⟨_, hentity, bind_eq_ok.mpr ⟨_, hoccurredAt, rfl⟩⟩⟩

theorem FeatureComputeCompleted.encodes {e : FeatureComputeCompleted} {d : Value} (h : e.toDict text = .ok d) :
    e.Encodes text d := by
  obtain ⟨entity, hentity, h⟩ := bind_eq_ok.mp h
  obtain ⟨occurredAt, hoccurredAt, h⟩ := bind_eq_ok.mp h
  cases h
  exact ⟨entity, occurredAt, _, hentity, hoccurredAt, .refl _ _, rfl⟩

theorem FeatureComputeCompleted.reads {e : FeatureComputeCompleted} (h : e.Built) {d : Value} (hd : e.Encodes text d) :
    ReadsAs (fromDict text.toWireCodec) normal e d := by
  obtain ⟨entity, occurredAt, kvs, hentity, hoccurredAt, hleft, rfl⟩ := hd
  have hn : ["event_type", "event_version", "request_id", "job_id", "entity", "view", "view_version",
      "written_features", "online_write_status", "correlation_id", "occurred_at"].Nodup := by decide
  obtain ⟨hproperEntity, hreadEntity⟩ := EntityRef.reads h.entity hentity
  constructor
  · apply hleft.proper hn
    have hproper := h.proper
    simp only [fields, List.forall_mem_cons] at hproper
    simp [entries, Value.ProperFields, hproper, hproperEntity, iso_proper hoccurredAt]
  · rw [fromDict, hleft.item hn "request_id" rfl rfl, ok_bind, hleft.item hn "job_id" rfl rfl, ok_bind,
      hleft.item hn "entity" rfl rfl, ok_bind, hreadEntity, ok_bind, hleft.item hn "view" rfl rfl, ok_bind,
      hleft.item hn "view_version" rfl rfl, ok_bind, hleft.item hn "correlation_id" rfl rfl, ok_bind,
      hleft.timeAt hn "occurred_at" rfl rfl hoccurredAt, ok_bind, hleft.listOr hn "written_features" rfl rfl, ok_bind,
      hleft.getOr hn "online_write_status" rfl rfl rfl, ok_bind, hleft.getOr hn "event_type" rfl rfl rfl, ok_bind,
      hleft.getOr hn "event_version" rfl rfl rfl]
    rfl

theorem FeatureComputeCompleted.normal_normal {e : FeatureComputeCompleted} (h : e.Built) :
    e.normal.normal = e.normal := by
  simp only [normal, Value.normal_normal, EntityRef.normal_normal h.entity, map_normal_idem]

/-! ## Feature updates -/

variable (text) in
def FeatureUpdated.Encodes (e : FeatureUpdated) (d : Value) : Prop :=
  let optional := [("max_input_data_ts", .null), ("input_fingerprint", .null), ("value_hash", .null), ("run_id", .null),
    ("job_id", .null), ("manifest_id", .null), ("event_type", .str "feature_updated"), ("event_version", .int 1)]
  ∃ entity dataTs calcTs maxInputDataTs occurredAt kvs, e.entity.toDict = .ok entity ∧ iso text e.dataTs = .ok dataTs ∧
    iso text e.calcTs = .ok calcTs ∧ iso? text e.maxInputDataTs = .ok maxInputDataTs ∧
    iso text e.occurredAt = .ok occurredAt ∧
    LeftOut optional (e.entries entity dataTs calcTs maxInputDataTs occurredAt) kvs ∧ d = .obj kvs

def FeatureUpdated.fields (e : FeatureUpdated) : List Value :=
  [e.updateId, e.view, e.viewVersion, e.featureName, e.featureVersion, e.source, e.inputFingerprint, e.valueHash,
    e.runId, e.jobId, e.manifestId, e.eventType, e.eventVersion]

structure FeatureUpdated.Built (e : FeatureUpdated) : Prop where
  proper : ∀ v ∈ e.fields, v.Proper
  entity : e.entity.Built
  check : e.check = .ok ()

def FeatureUpdated.times (e : FeatureUpdated) : List WireTime :=
  [e.dataTs, e.calcTs, e.occurredAt] ++ e.maxInputDataTs.toList

theorem FeatureUpdated.written {e : FeatureUpdated} (h : e.Built) (ht : ∀ t ∈ e.times, IsAware t) :
    ∃ d, e.toDict text = .ok d := by
  simp only [times, List.forall_mem_cons, List.forall_mem_append] at ht
  obtain ⟨⟨hdataTs, hcalcTs, hoccurredAt, -⟩, hmaxInputDataTs⟩ := ht
  obtain ⟨entity, hentity⟩ := EntityRef.written h.entity
  obtain ⟨dataTs, hdataTs⟩ := iso_written hdataTs
  obtain ⟨calcTs, hcalcTs⟩ := iso_written hcalcTs
  obtain ⟨maxInputDataTs, hmaxInputDataTs⟩ := iso?_written hmaxInputDataTs
  obtain ⟨occurredAt, hoccurredAt⟩ := iso_written hoccurredAt
  exact ⟨_, bind_eq_ok.mpr ⟨_, hentity, bind_eq_ok.mpr ⟨_, hdataTs, bind_eq_ok.mpr ⟨_, hcalcTs,
    bind_eq_ok.mpr ⟨_, hmaxInputDataTs, bind_eq_ok.mpr ⟨_, hoccurredAt, rfl⟩⟩⟩⟩⟩⟩

theorem FeatureUpdated.encodes {e : FeatureUpdated} {d : Value} (h : e.toDict text = .ok d) : e.Encodes text d := by
  obtain ⟨entity, hentity, h⟩ := bind_eq_ok.mp h
  obtain ⟨dataTs, hdataTs, h⟩ := bind_eq_ok.mp h
  obtain ⟨calcTs, hcalcTs, h⟩ := bind_eq_ok.mp h
  obtain ⟨maxInputDataTs, hmaxInputDataTs, h⟩ := bind_eq_ok.mp h
  obtain ⟨occurredAt, hoccurredAt, h⟩ := bind_eq_ok.mp h
  cases h
  exact ⟨entity, dataTs, calcTs, maxInputDataTs, occurredAt, _, hentity, hdataTs, hcalcTs, hmaxInputDataTs, hoccurredAt,
    .refl _ _, rfl⟩

/-- The check looks at the source and the times only. -/
theorem FeatureUpdated.check_normal {e : FeatureUpdated} (h : e.check = .ok ()) : e.normal.check = .ok () := by
  have hsource : e.normal.source = e.source := by
    change e.source.normal false = e.source
    cases hs : e.source with
    | str s => rfl
    | _ =>
      rw [check, hs] at h
      cases h
  rw [check] at h ⊢
  rw [hsource]
  exact h

theorem FeatureUpdated.reads {e : FeatureUpdated} (h : e.Built) {d : Value} (hd : e.Encodes text d) :
    ReadsAs (fromDict text.toWireCodec) normal e d := by
  obtain ⟨entity, dataTs, calcTs, maxInputDataTs, occurredAt, kvs, hentity, hdataTs, hcalcTs, hmaxInputDataTs,
    hoccurredAt, hleft, rfl⟩ := hd
  have hn : ["event_type", "event_version", "update_id", "entity", "view", "view_version", "feature_name",
      "feature_version", "data_ts", "calc_ts", "max_input_data_ts", "input_fingerprint", "value_hash", "run_id",
      "job_id", "manifest_id", "source", "occurred_at"].Nodup := by decide
  obtain ⟨hproperEntity, hreadEntity⟩ := EntityRef.reads h.entity hentity
  constructor
  · apply hleft.proper hn
    have hproper := h.proper
    simp only [fields, List.forall_mem_cons] at hproper
    simp [entries, Value.ProperFields, hproper, hproperEntity, iso_proper hdataTs, iso_proper hcalcTs,
      iso?_proper hmaxInputDataTs, iso_proper hoccurredAt]
  · have hcheck := check_normal h.check
    rw [fromDict, hleft.getOr hn "max_input_data_ts" rfl rfl rfl, ok_bind, hleft.item hn "update_id" rfl rfl, ok_bind,
      hleft.item hn "entity" rfl rfl, ok_bind, hreadEntity, ok_bind, hleft.item hn "view" rfl rfl, ok_bind,
      hleft.item hn "view_version" rfl rfl, ok_bind, hleft.item hn "feature_name" rfl rfl, ok_bind,
      hleft.item hn "feature_version" rfl rfl, ok_bind, hleft.timeAt hn "data_ts" rfl rfl hdataTs, ok_bind,
      hleft.timeAt hn "calc_ts" rfl rfl hcalcTs, ok_bind, hleft.item hn "source" rfl rfl, ok_bind,
      hleft.timeAt hn "occurred_at" rfl rfl hoccurredAt, ok_bind, iso?_eq_ok hmaxInputDataTs, ok_bind,
      hleft.getOr hn "input_fingerprint" rfl rfl rfl, ok_bind, hleft.getOr hn "value_hash" rfl rfl rfl, ok_bind,
      hleft.getOr hn "run_id" rfl rfl rfl, ok_bind, hleft.getOr hn "job_id" rfl rfl rfl, ok_bind,
      hleft.getOr hn "manifest_id" rfl rfl rfl, ok_bind, hleft.getOr hn "event_type" rfl rfl rfl, ok_bind,
      hleft.getOr hn "event_version" rfl rfl rfl, ok_bind]
    exact bind_eq_ok.mpr ⟨(), hcheck, rfl⟩

theorem FeatureUpdated.normal_normal {e : FeatureUpdated} (h : e.Built) : e.normal.normal = e.normal := by
  simp only [normal, Value.normal_normal, EntityRef.normal_normal h.entity]

/-! ## Offline writes -/

variable (text) in
def FeatureResult.Encodes (r : FeatureResult) (d : Value) : Prop :=
  let optional := [("max_input_data_ts", .null), ("input_fingerprint", .null), ("value_hash", .null),
    ("available_at", .null), ("availability_source", .null), ("model_uri", .null), ("model_digest", .null),
    ("model_output_name", .null), ("bundle_digest", .null)]
  ∃ kvs, LeftOut optional (r.entries text) kvs ∧ d = .obj kvs

def FeatureResult.fields (r : FeatureResult) : List Value :=
  [r.featureName, r.featureVersion, r.value, r.inputFingerprint, r.valueHash, r.availabilitySource, r.modelUri,
    r.modelDigest, r.modelOutputName, r.bundleDigest]

structure FeatureResult.Built (r : FeatureResult) : Prop where
  proper : ∀ v ∈ r.fields, v.Proper
  ref : checkRef r.featureName r.featureVersion = .ok ()

/-- The name is text and the version a number, which are read back as they are. -/
theorem checkRef_normal {name version : Value} (h : checkRef name version = .ok ()) :
    checkRef (name.normal false) (version.normal false) = .ok () := by
  cases name with
  | str s =>
    obtain ⟨_, _, hversion⟩ := bind_eq_ok.mp h
    obtain ⟨_, hbelow, _⟩ := bind_eq_ok.mp hversion
    cases version with
    | bool b => exact h
    | int n => exact h
    | float x => exact h
    | _ => cases hbelow
  | _ =>
    simp only [checkRef] at h
    split at h <;> cases h

theorem mapM_requireAware (time : Option Int) (name : String) :
    (time.map WireTime.aware).mapM (requireAware · name) = .ok time := by
  cases time with
  | none => rfl
  | some t => rfl

theorem FeatureResult.reads {r : FeatureResult} (h : r.Built) {d : Value} (hd : r.Encodes text d) :
    ReadsAs (fromDict text.toWireCodec) normal r d := by
  obtain ⟨kvs, hleft, rfl⟩ := hd
  have hn : ["feature_name", "feature_version", "value", "data_ts", "calc_ts", "max_input_data_ts", "input_fingerprint",
      "value_hash", "available_at", "availability_source", "model_uri", "model_digest", "model_output_name",
      "bundle_digest"].Nodup := by decide
  have hdataTs : iso text (.aware r.dataTs) = .ok (.str (text.isoformat r.dataTs)) := rfl
  have hcalcTs : iso text (.aware r.calcTs) = .ok (.str (text.isoformat r.calcTs)) := rfl
  have hmaxInputDataTs := isoformat?_eq text r.maxInputDataTs
  have havailableAt := isoformat?_eq text r.availableAt
  constructor
  · apply hleft.proper hn
    have hproper := h.proper
    simp only [fields, List.forall_mem_cons] at hproper
    simp [entries, Value.ProperFields, hproper, iso_proper hdataTs, iso_proper hcalcTs, iso?_proper hmaxInputDataTs,
      iso?_proper havailableAt]
  · rw [fromDict, hleft.item hn "feature_name" rfl rfl, ok_bind, hleft.item hn "feature_version" rfl rfl, ok_bind,
      checkRef_normal h.ref, ok_bind, hleft.item hn "value" rfl rfl, ok_bind,
      hleft.timeAt hn "data_ts" rfl rfl hdataTs, ok_bind, hleft.timeAt hn "calc_ts" rfl rfl hcalcTs, ok_bind,
      hleft.timeAt? hn "max_input_data_ts" rfl rfl hmaxInputDataTs, ok_bind,
      hleft.getOr hn "input_fingerprint" rfl rfl rfl, ok_bind, hleft.getOr hn "value_hash" rfl rfl rfl, ok_bind,
      hleft.timeAt? hn "available_at" rfl rfl havailableAt, ok_bind,
      hleft.getOr hn "availability_source" rfl rfl rfl, ok_bind, hleft.getOr hn "model_uri" rfl rfl rfl, ok_bind,
      hleft.getOr hn "model_digest" rfl rfl rfl, ok_bind, hleft.getOr hn "model_output_name" rfl rfl rfl, ok_bind,
      hleft.getOr hn "bundle_digest" rfl rfl rfl, ok_bind, requireAware_aware, ok_bind, requireAware_aware, ok_bind,
      mapM_requireAware, ok_bind, mapM_requireAware]
    rfl

theorem FeatureResult.normal_normal (r : FeatureResult) : r.normal.normal = r.normal := by
  simp only [normal, Value.normal_normal]

variable (text) in
def FeatureWriteSet.Encodes (w : FeatureWriteSet) (d : Value) : Prop :=
  let optional := [("request_id", .null), ("job_id", .null), ("run_id", .null), ("correlation_id", .null),
    ("write_policy", .str "online_first")]
  ∃ results sourceRefs kvs, List.Forall₂ (Named (FeatureResult.Encodes text)) w.results results ∧
    textKeys w.sourceRefs = .ok sourceRefs ∧ LeftOut optional (w.entries results sourceRefs) kvs ∧ d = .obj kvs

def FeatureWriteSet.fields (w : FeatureWriteSet) : List Value :=
  [w.view, w.viewVersion, w.requestId, w.jobId, w.runId, w.correlationId, w.writePolicy]

structure FeatureWriteSet.Built (w : FeatureWriteSet) : Prop where
  proper : ∀ v ∈ w.fields, v.Proper
  names : (Dict.keys w.results).Nodup
  results : ∀ r ∈ w.results, r.2.Built
  sourceRefs : TextKeyed w.sourceRefs

theorem FeatureWriteSet.written {w : FeatureWriteSet} (h : w.Built) : ∃ d, w.toDict text = .ok d := by
  obtain ⟨sourceRefs, hsourceRefs, -⟩ := h.sourceRefs
  exact ⟨_, bind_eq_ok.mpr ⟨_, hsourceRefs, rfl⟩⟩

theorem FeatureWriteSet.encodes {w : FeatureWriteSet} {d : Value} (h : w.toDict text = .ok d) : w.Encodes text d := by
  obtain ⟨sourceRefs, hsourceRefs, h⟩ := bind_eq_ok.mp h
  cases h
  refine ⟨_, sourceRefs, _, ?_, hsourceRefs, .refl _ _, rfl⟩
  rw [List.forall₂_map_right_iff]
  exact List.forall₂_same.mpr fun r _ => ⟨rfl, _, .refl _ _, rfl⟩

/-- The pairs of an entity key, as they are on the wire. -/
def wirePairs (parts : List (String × String)) : Value.Mapping := parts.map fun p => (.str p.1, .str p.2)

theorem mapSet_wirePairs : ∀ {acc : List (String × String)} {name value : String}, name ∉ Dict.keys acc →
    Value.mapSet (wirePairs acc) (.str name) (.str value) = wirePairs (acc ++ [(name, value)])
  | [], _, _, _ => rfl
  | p :: acc, name, value, h => by
    rw [Dict.keys, List.map_cons, List.mem_cons, not_or] at h
    have hne : ¬ (Value.str p.1).pyEq (.str name) = true := by
      rw [Value.pyEq_str, decide_eq_true_iff]
      exact fun heq => h.1 heq.symm
    have ih : Value.mapSet (wirePairs acc) (.str name) (.str value) = wirePairs (acc ++ [(name, value)]) :=
      mapSet_wirePairs h.2
    change Value.mapSet ((.str p.1, .str p.2) :: wirePairs acc) (.str name) (.str value) = _
    rw [Value.mapSet, if_neg hne, ih]
    rfl

theorem mapOf_wirePairs : ∀ {parts acc : List (String × String)}, (Dict.keys (acc ++ parts)).Nodup →
    Value.mapOf (wirePairs acc) (wirePairs parts) = .ok (wirePairs (acc ++ parts))
  | [], acc, _ => by
    rw [List.append_nil]
    rfl
  | p :: parts, acc, hn => by
    have happ : acc ++ p :: parts = acc ++ [p] ++ parts := by simp
    have hfresh : p.1 ∉ Dict.keys acc := by
      intro hmem
      rw [Dict.keys, List.map_append, List.map_cons] at hn
      exact (List.nodup_append.mp hn).2.2 _ hmem _ List.mem_cons_self rfl
    change Value.mapOf (wirePairs acc) ((.str p.1, .str p.2) :: wirePairs parts) = _
    rw [Value.mapOf, Value.mapInsert, Value.asKey_str, ok_bind, ok_bind, mapSet_wirePairs hfresh, happ]
    rw [happ] at hn
    exact mapOf_wirePairs hn

theorem wireParts_wirePairs : ∀ {parts : List (String × String)}, (∀ p ∈ parts, validatePart p.1 p.2 = .ok ()) →
    wireParts (wirePairs parts) = .ok parts
  | [], _ => rfl
  | p :: parts, h => by
    obtain ⟨hp, hparts⟩ := List.forall_mem_cons.mp h
    have hpart : wirePart (.str p.1) (.str p.2) = .ok p := bind_eq_ok.mpr ⟨(), hp, rfl⟩
    change wireParts ((.str p.1, .str p.2) :: wirePairs parts) = _
    rw [wireParts, hpart, ok_bind, wireParts_wirePairs hparts]
    rfl

theorem ofWire_wirePairs (k : EntityKey) : EntityKey.ofWire (wirePairs k.parts) = .ok k := by
  obtain ⟨hne, hvalid, -, -⟩ := k.encoded_spec
  have hnodup : (Dict.keys ([] ++ k.parts)).Nodup := k.parts_nodup
  have hmap : Value.mapOf [] (wirePairs k.parts) = .ok (wirePairs k.parts) := mapOf_wirePairs hnodup
  have hnonempty : ¬ (wirePairs k.parts).isEmpty = true := by
    rw [wirePairs, List.isEmpty_iff, List.map_eq_nil_iff]
    exact hne
  rw [EntityKey.ofWire, hmap, ok_bind, raiseIf, if_neg hnonempty, ok_bind, wireParts_wirePairs hvalid, ok_bind, raiseIf,
    if_neg (by simp), ok_bind, EntityKey.ofParts_parts]

theorem mapM_unpackPair (parts : List (String × String)) :
    (Value.normalList false (parts.map fun p => .arr [.str p.1, .str p.2])).mapM Value.unpackPair =
      .ok (wirePairs parts) := by
  rw [Value.normalList_eq_map, List.map_map]
  exact mapM_map_eq_ok fun p _ => rfl

theorem FeatureWriteSet.reads {w : FeatureWriteSet} (h : w.Built) {d : Value} (hd : w.Encodes text d) :
    ReadsAs (fromDict text.toWireCodec) normal w d := by
  obtain ⟨results, sourceRefs, kvs, hresults, hsourceRefs, hleft, rfl⟩ := hd
  have hn : ["view", "view_version", "entity_key", "results", "source_refs", "request_id", "job_id", "run_id",
      "correlation_id", "write_policy"].Nodup := by decide
  obtain ⟨hproperResults, sorted, hsorted, hreadResults⟩ :=
    entries_roundTrip (forall₂_named hresults fun r hr d hd => FeatureResult.reads (h.results r hr) hd) h.names
  constructor
  · apply hleft.proper hn
    have hproper := h.proper
    simp only [fields, List.forall_mem_cons] at hproper
    have hkey : (Value.arr (w.entityKey.parts.map fun p => .arr [.str p.1, .str p.2])).Proper := by
      refine Value.properList_iff.mpr fun v hv => ?_
      obtain ⟨p, -, rfl⟩ := List.mem_map.mp hv
      exact ⟨trivial, trivial, trivial⟩
    simp [entries, Value.ProperFields, hproper, hkey, hproperResults, h.sourceRefs.proper hsourceRefs]
  · rw [fromDict, hleft.item hn "entity_key" rfl rfl, ok_bind, Value.normal, Value.toList, ok_bind, mapM_unpackPair,
      ok_bind, ofWire_wirePairs, ok_bind, hleft.item hn "results" rfl rfl, ok_bind, hsorted, items, ok_bind,
      hreadResults, ok_bind, hleft.item hn "view" rfl rfl, ok_bind, hleft.item hn "view_version" rfl rfl, ok_bind,
      hleft.item hn "source_refs" rfl rfl, ok_bind, toMapping_normal hsourceRefs, ok_bind,
      hleft.getOr hn "request_id" rfl rfl rfl, ok_bind, hleft.getOr hn "job_id" rfl rfl rfl, ok_bind,
      hleft.getOr hn "run_id" rfl rfl rfl, ok_bind, hleft.getOr hn "correlation_id" rfl rfl rfl, ok_bind,
      hleft.getOr hn "write_policy" rfl rfl rfl]
    rfl

theorem FeatureWriteSet.normal_normal {w : FeatureWriteSet} (h : w.Built) : w.normal.normal = w.normal := by
  have hresults := normalEntries_idem fun r (_ : r ∈ w.results) => FeatureResult.normal_normal r.2
  simp only [normal, Value.normal_normal, normalMapping_idem h.sourceRefs, hresults]

variable (text) in
def FeatureOfflineWriteRequested.Encodes (e : FeatureOfflineWriteRequested) (d : Value) : Prop :=
  let optional := [("event_type", .str "feature_write.offline.requested"), ("event_version", .int 1)]
  ∃ occurredAt writeSet kvs, iso text e.occurredAt = .ok occurredAt ∧ e.writeSet.Encodes text writeSet ∧
    LeftOut optional (e.entries occurredAt writeSet) kvs ∧ d = .obj kvs

def FeatureOfflineWriteRequested.fields (e : FeatureOfflineWriteRequested) : List Value :=
  [e.requestId, e.jobId, e.correlationId, e.eventType, e.eventVersion]

structure FeatureOfflineWriteRequested.Built (e : FeatureOfflineWriteRequested) : Prop where
  proper : ∀ v ∈ e.fields, v.Proper
  writeSet : e.writeSet.Built

def FeatureOfflineWriteRequested.times (e : FeatureOfflineWriteRequested) : List WireTime := [e.occurredAt]

theorem FeatureOfflineWriteRequested.written {e : FeatureOfflineWriteRequested} (h : e.Built)
    (ht : ∀ t ∈ e.times, IsAware t) : ∃ d, e.toDict text = .ok d := by
  obtain ⟨occurredAt, hoccurredAt⟩ := iso_written (List.forall_mem_singleton.mp ht)
  obtain ⟨writeSet, hwriteSet⟩ := FeatureWriteSet.written h.writeSet
  exact ⟨_, bind_eq_ok.mpr ⟨_, hoccurredAt, bind_eq_ok.mpr ⟨_, hwriteSet, rfl⟩⟩⟩

theorem FeatureOfflineWriteRequested.encodes {e : FeatureOfflineWriteRequested} {d : Value}
    (h : e.toDict text = .ok d) : e.Encodes text d := by
  obtain ⟨occurredAt, hoccurredAt, h⟩ := bind_eq_ok.mp h
  obtain ⟨writeSet, hwriteSet, h⟩ := bind_eq_ok.mp h
  cases h
  exact ⟨occurredAt, writeSet, _, hoccurredAt, FeatureWriteSet.encodes hwriteSet, .refl _ _, rfl⟩

theorem FeatureOfflineWriteRequested.reads {e : FeatureOfflineWriteRequested} (h : e.Built) {d : Value}
    (hd : e.Encodes text d) : ReadsAs (fromDict text.toWireCodec) normal e d := by
  obtain ⟨occurredAt, writeSet, kvs, hoccurredAt, hwriteSet, hleft, rfl⟩ := hd
  have hn : ["event_type", "event_version", "request_id", "job_id", "correlation_id", "occurred_at",
      "write_set"].Nodup := by decide
  obtain ⟨hproperWriteSet, hreadWriteSet⟩ := FeatureWriteSet.reads h.writeSet hwriteSet
  constructor
  · apply hleft.proper hn
    have hproper := h.proper
    simp only [fields, List.forall_mem_cons] at hproper
    simp [entries, Value.ProperFields, hproper, hproperWriteSet, iso_proper hoccurredAt]
  · rw [fromDict, hleft.item hn "request_id" rfl rfl, ok_bind, hleft.item hn "job_id" rfl rfl, ok_bind,
      hleft.item hn "correlation_id" rfl rfl, ok_bind, hleft.timeAt hn "occurred_at" rfl rfl hoccurredAt, ok_bind,
      hleft.item hn "write_set" rfl rfl, ok_bind, hreadWriteSet, ok_bind, hleft.getOr hn "event_type" rfl rfl rfl,
      ok_bind, hleft.getOr hn "event_version" rfl rfl rfl]
    rfl

theorem FeatureOfflineWriteRequested.normal_normal {e : FeatureOfflineWriteRequested} (h : e.Built) :
    e.normal.normal = e.normal := by
  simp only [normal, Value.normal_normal, FeatureWriteSet.normal_normal h.writeSet]

/-! ## Scores -/

variable (text) in
def ScoreItem.Encodes (s : ScoreItem) (d : Value) : Prop :=
  let optional := [("source_request_id", .null), ("decision_request_id", .null), ("context", .obj [])]
  ∃ dataTs calcTs context kvs, iso text s.dataTs = .ok dataTs ∧ iso text s.calcTs = .ok calcTs ∧
    textKeys s.context = .ok context ∧ LeftOut optional (s.entries dataTs calcTs context) kvs ∧ d = .obj kvs

def ScoreItem.fields (s : ScoreItem) : List Value :=
  [s.feature, s.value, s.modelName, s.modelVersion, s.sourceRequestId, s.decisionRequestId]

structure ScoreItem.Built (s : ScoreItem) : Prop where
  proper : ∀ v ∈ s.fields, v.Proper
  context : TextKeyed s.context

def ScoreItem.times (s : ScoreItem) : List WireTime := [s.dataTs, s.calcTs]

theorem ScoreItem.written {s : ScoreItem} (h : s.Built) (ht : ∀ t ∈ s.times, IsAware t) : ∃ d, s.toDict text = .ok d := by
  simp only [times, List.forall_mem_cons] at ht
  obtain ⟨hdataTs, hcalcTs, -⟩ := ht
  obtain ⟨dataTs, hdataTs⟩ := iso_written hdataTs
  obtain ⟨calcTs, hcalcTs⟩ := iso_written hcalcTs
  obtain ⟨context, hcontext, -⟩ := h.context
  exact ⟨_, bind_eq_ok.mpr ⟨_, hdataTs, bind_eq_ok.mpr ⟨_, hcalcTs, bind_eq_ok.mpr ⟨_, hcontext, rfl⟩⟩⟩⟩

theorem ScoreItem.encodes {s : ScoreItem} {d : Value} (h : s.toDict text = .ok d) : s.Encodes text d := by
  obtain ⟨dataTs, hdataTs, h⟩ := bind_eq_ok.mp h
  obtain ⟨calcTs, hcalcTs, h⟩ := bind_eq_ok.mp h
  obtain ⟨context, hcontext, h⟩ := bind_eq_ok.mp h
  cases h
  exact ⟨dataTs, calcTs, context, _, hdataTs, hcalcTs, hcontext, .refl _ _, rfl⟩

theorem ScoreItem.reads {s : ScoreItem} (h : s.Built) {d : Value} (hd : s.Encodes text d) :
    ReadsAs (fromDict text.toWireCodec) normal s d := by
  obtain ⟨dataTs, calcTs, context, kvs, hdataTs, hcalcTs, hcontext, hleft, rfl⟩ := hd
  have hn : ["feature", "value", "data_ts", "calc_ts", "model_name", "model_version", "source_request_id",
      "decision_request_id", "context"].Nodup := by decide
  constructor
  · apply hleft.proper hn
    have hproper := h.proper
    simp only [fields, List.forall_mem_cons] at hproper
    simp [entries, Value.ProperFields, hproper, iso_proper hdataTs, iso_proper hcalcTs, h.context.proper hcontext]
  · rw [fromDict, hleft.item hn "feature" rfl rfl, ok_bind, hleft.item hn "value" rfl rfl, ok_bind,
      hleft.timeAt hn "data_ts" rfl rfl hdataTs, ok_bind, hleft.timeAt hn "calc_ts" rfl rfl hcalcTs, ok_bind,
      hleft.item hn "model_name" rfl rfl, ok_bind, hleft.item hn "model_version" rfl rfl, ok_bind,
      hleft.getOr hn "source_request_id" rfl rfl rfl, ok_bind, hleft.getOr hn "decision_request_id" rfl rfl rfl, ok_bind,
      hleft.getOr hn "context" rfl rfl rfl, ok_bind, toMapping_normal hcontext]
    rfl

theorem ScoreItem.normal_normal {s : ScoreItem} (h : s.Built) : s.normal.normal = s.normal := by
  simp only [normal, Value.normal_normal, normalMapping_idem h.context]

variable (text) in
def ModelScoreWriteRequested.Encodes (e : ModelScoreWriteRequested) (d : Value) : Prop :=
  let optional := [("write_online", .bool true), ("write_offline", .bool true),
    ("event_type", .str "model_score.write.requested"), ("event_version", .int 1)]
  ∃ occurredAt entity scores kvs, iso text e.occurredAt = .ok occurredAt ∧ e.entity.toDict = .ok entity ∧
    List.Forall₂ (ScoreItem.Encodes text) e.scores scores ∧
    LeftOut optional (e.entries occurredAt entity scores) kvs ∧ d = .obj kvs

def ModelScoreWriteRequested.fields (e : ModelScoreWriteRequested) : List Value :=
  [e.scoreWriteId, e.correlationId, e.view, e.viewVersion, e.idempotencyKey, e.writeOnline, e.writeOffline, e.eventType,
    e.eventVersion]

structure ModelScoreWriteRequested.Built (e : ModelScoreWriteRequested) : Prop where
  proper : ∀ v ∈ e.fields, v.Proper
  entity : e.entity.Built
  scores : ∀ s ∈ e.scores, s.Built

def ModelScoreWriteRequested.times (e : ModelScoreWriteRequested) : List WireTime :=
  e.occurredAt :: e.scores.flatMap (·.times)

theorem ModelScoreWriteRequested.written {e : ModelScoreWriteRequested} (h : e.Built) (ht : ∀ t ∈ e.times, IsAware t) :
    ∃ d, e.toDict text = .ok d := by
  simp only [times, List.forall_mem_cons, List.forall_mem_flatMap] at ht
  obtain ⟨hoccurredAt, hscores⟩ := ht
  obtain ⟨occurredAt, hoccurredAt⟩ := iso_written hoccurredAt
  obtain ⟨entity, hentity⟩ := EntityRef.written h.entity
  obtain ⟨scores, hscores⟩ :=
    mapM_written fun s hs => ScoreItem.written (h.scores s hs) (hscores s hs)
  exact ⟨_, bind_eq_ok.mpr ⟨_, hoccurredAt, bind_eq_ok.mpr ⟨_, hentity, bind_eq_ok.mpr ⟨_, hscores, rfl⟩⟩⟩⟩

theorem ModelScoreWriteRequested.encodes {e : ModelScoreWriteRequested} {d : Value} (h : e.toDict text = .ok d) :
    e.Encodes text d := by
  obtain ⟨occurredAt, hoccurredAt, h⟩ := bind_eq_ok.mp h
  obtain ⟨entity, hentity, h⟩ := bind_eq_ok.mp h
  obtain ⟨scores, hscores, h⟩ := bind_eq_ok.mp h
  cases h
  exact ⟨occurredAt, entity, scores, _, hoccurredAt, hentity,
    (forall₂_of_mapM hscores).imp fun _ _ => ScoreItem.encodes, .refl _ _, rfl⟩

theorem ModelScoreWriteRequested.reads {e : ModelScoreWriteRequested} (h : e.Built) {d : Value}
    (hd : e.Encodes text d) : ReadsAs (fromDict text.toWireCodec) normal e d := by
  obtain ⟨occurredAt, entity, scores, kvs, hoccurredAt, hentity, hscores, hleft, rfl⟩ := hd
  have hn : ["event_type", "event_version", "score_write_id", "correlation_id", "occurred_at", "entity", "view",
      "view_version", "scores", "idempotency_key", "write_online", "write_offline"].Nodup := by decide
  obtain ⟨hproperEntity, hreadEntity⟩ := EntityRef.reads h.entity hentity
  obtain ⟨hproperScores, hreadScores⟩ :=
    list_roundTrip (forall₂_reads hscores fun s hs d hd => ScoreItem.reads (h.scores s hs) hd)
  constructor
  · apply hleft.proper hn
    have hproper := h.proper
    simp only [fields, List.forall_mem_cons] at hproper
    simp [entries, Value.ProperFields, hproper, hproperEntity, hproperScores, iso_proper hoccurredAt]
  · rw [fromDict, hleft.item hn "score_write_id" rfl rfl, ok_bind, hleft.item hn "correlation_id" rfl rfl, ok_bind,
      hleft.timeAt hn "occurred_at" rfl rfl hoccurredAt, ok_bind, hleft.item hn "entity" rfl rfl, ok_bind, hreadEntity,
      ok_bind, hleft.item hn "view" rfl rfl, ok_bind, hleft.item hn "view_version" rfl rfl, ok_bind,
      hleft.item hn "scores" rfl rfl, ok_bind, Value.normal, Value.toList, ok_bind, hreadScores, ok_bind,
      hleft.item hn "idempotency_key" rfl rfl, ok_bind, hleft.getOr hn "write_online" rfl rfl rfl, ok_bind,
      hleft.getOr hn "write_offline" rfl rfl rfl, ok_bind, hleft.getOr hn "event_type" rfl rfl rfl, ok_bind,
      hleft.getOr hn "event_version" rfl rfl rfl]
    rfl

theorem ModelScoreWriteRequested.normal_normal {e : ModelScoreWriteRequested} (h : e.Built) :
    e.normal.normal = e.normal := by
  have hscores := map_idem fun s hs => ScoreItem.normal_normal (h.scores s hs)
  simp only [normal, Value.normal_normal, EntityRef.normal_normal h.entity, hscores]

/-! ## Batch chunks -/

def BatchItem.Encodes (i : BatchItem) (d : Value) : Prop :=
  let optional := [("inline_sources", .obj []), ("source_refs", .obj [])]
  ∃ entityKey inlineSources sourceRefs kvs, textKeys i.entityKey = .ok entityKey ∧
    List.Forall₂ (Named fun source d => ∃ kvs, textKeys source = .ok kvs ∧ d = .obj kvs) i.inlineSources inlineSources ∧
    textKeys i.sourceRefs = .ok sourceRefs ∧ LeftOut optional (i.entries entityKey inlineSources sourceRefs) kvs ∧
    d = .obj kvs

structure BatchItem.Built (i : BatchItem) : Prop where
  entityType : i.entityType.Proper
  entityKey : TextKeyed i.entityKey
  names : (Dict.keys i.inlineSources).Nodup
  inlineSources : ∀ source ∈ i.inlineSources, TextKeyed source.2
  sourceRefs : TextKeyed i.sourceRefs

theorem BatchItem.written {i : BatchItem} (h : i.Built) : ∃ d, i.toDict = .ok d := by
  obtain ⟨entityKey, hentityKey, -⟩ := h.entityKey
  obtain ⟨sourceRefs, hsourceRefs, -⟩ := h.sourceRefs
  have hsource : ∀ source ∈ i.inlineSources, ∃ kv : String × Value,
      (do return (source.1, .obj (← textKeys source.2)) : Except PyErr (String × Value)) = .ok kv := by
    intro source hsource
    obtain ⟨kvs, hkvs, -⟩ := h.inlineSources source hsource
    exact ⟨_, bind_eq_ok.mpr ⟨kvs, hkvs, rfl⟩⟩
  obtain ⟨inlineSources, hinlineSources⟩ := mapM_written hsource
  exact ⟨_, bind_eq_ok.mpr ⟨_, hentityKey, bind_eq_ok.mpr ⟨_, hinlineSources, bind_eq_ok.mpr ⟨_, hsourceRefs, rfl⟩⟩⟩⟩

theorem BatchItem.encodes {i : BatchItem} {d : Value} (h : i.toDict = .ok d) : i.Encodes d := by
  obtain ⟨entityKey, hentityKey, h⟩ := bind_eq_ok.mp h
  obtain ⟨inlineSources, hinlineSources, h⟩ := bind_eq_ok.mp h
  obtain ⟨sourceRefs, hsourceRefs, h⟩ := bind_eq_ok.mp h
  cases h
  refine ⟨entityKey, inlineSources, sourceRefs, _, hentityKey, ?_, hsourceRefs, .refl _ _, rfl⟩
  refine (forall₂_of_mapM hinlineSources).imp fun source kv hsource => ?_
  obtain ⟨kvs, hkvs, h⟩ := bind_eq_ok.mp hsource
  cases h
  exact ⟨rfl, kvs, hkvs, rfl⟩

theorem BatchItem.reads {i : BatchItem} (h : i.Built) {d : Value} (hd : i.Encodes d) :
    ReadsAs fromDict normal i d := by
  obtain ⟨entityKey, inlineSources, sourceRefs, kvs, hentityKey, hinlineSources, hsourceRefs, hleft, rfl⟩ := hd
  have hn : ["entity_type", "entity_key", "inline_sources", "source_refs"].Nodup := by decide
  have hreadSource : ∀ source ∈ i.inlineSources, ∀ d, (∃ kvs, textKeys source.2 = .ok kvs ∧ d = .obj kvs) →
      ReadsAs Value.toMapping normalMapping source.2 d := by
    rintro source hsource d ⟨kvs, hkvs, rfl⟩
    exact ⟨(h.inlineSources source hsource).proper hkvs, toMapping_normal hkvs⟩
  obtain ⟨hproperSources, sorted, hsorted, hreadSources⟩ :=
    entries_roundTrip (forall₂_named hinlineSources hreadSource) h.names
  constructor
  · apply hleft.proper hn
    exact ⟨h.entityType, h.entityKey.proper hentityKey, hproperSources, h.sourceRefs.proper hsourceRefs, trivial⟩
  · rw [fromDict, hleft.item hn "entity_type" rfl rfl, ok_bind, hleft.item hn "entity_key" rfl rfl, ok_bind,
      toMapping_normal hentityKey, ok_bind, hleft.getOr hn "inline_sources" rfl rfl rfl, ok_bind, hsorted, items, ok_bind,
      hreadSources, ok_bind, hleft.getOr hn "source_refs" rfl rfl rfl, ok_bind, toMapping_normal hsourceRefs]
    rfl

theorem BatchItem.normal_normal {i : BatchItem} (h : i.Built) : i.normal.normal = i.normal := by
  have hsources := normalEntries_idem fun source hsource => normalMapping_idem (h.inlineSources source hsource)
  simp only [normal, Value.normal_normal, normalMapping_idem h.entityKey, normalMapping_idem h.sourceRefs, hsources]

variable (text) in
def BatchChunkRequested.Encodes (e : BatchChunkRequested) (d : Value) : Prop :=
  let optional := [("requested_features", .arr []), ("requested_feature_groups", .arr []), ("write_online", .bool false),
    ("total_items", .int 0), ("manifest_id", .null), ("manifest_ids", .arr []),
    ("event_type", .str "batch.chunk.requested"), ("event_version", .int 1)]
  ∃ occurredAt items kvs, iso text e.occurredAt = .ok occurredAt ∧ List.Forall₂ BatchItem.Encodes e.items items ∧
    LeftOut optional (e.entries occurredAt items) kvs ∧ d = .obj kvs

def BatchChunkRequested.fields (e : BatchChunkRequested) : List Value :=
  [e.batchJobId, e.chunkId, e.chunkIndex, e.chunkCount, e.correlationId, e.view, e.viewVersion, e.writeOnline,
    e.totalItems, e.manifestId, e.eventType, e.eventVersion, .arr e.requestedFeatures, .arr e.requestedFeatureGroups,
    .arr e.manifestIds]

structure BatchChunkRequested.Built (e : BatchChunkRequested) : Prop where
  proper : ∀ v ∈ e.fields, v.Proper
  items : ∀ i ∈ e.items, i.Built

def BatchChunkRequested.times (e : BatchChunkRequested) : List WireTime := [e.occurredAt]

theorem BatchChunkRequested.written {e : BatchChunkRequested} (h : e.Built) (ht : ∀ t ∈ e.times, IsAware t) :
    ∃ d, e.toDict text = .ok d := by
  obtain ⟨occurredAt, hoccurredAt⟩ := iso_written (List.forall_mem_singleton.mp ht)
  obtain ⟨items, hitems⟩ := mapM_written fun i hi => BatchItem.written (h.items i hi)
  exact ⟨_, bind_eq_ok.mpr ⟨_, hoccurredAt, bind_eq_ok.mpr ⟨_, hitems, rfl⟩⟩⟩

theorem BatchChunkRequested.encodes {e : BatchChunkRequested} {d : Value} (h : e.toDict text = .ok d) :
    e.Encodes text d := by
  obtain ⟨occurredAt, hoccurredAt, h⟩ := bind_eq_ok.mp h
  obtain ⟨items, hitems, h⟩ := bind_eq_ok.mp h
  cases h
  exact ⟨occurredAt, items, _, hoccurredAt, (forall₂_of_mapM hitems).imp fun _ _ => BatchItem.encodes, .refl _ _, rfl⟩

theorem BatchChunkRequested.reads {e : BatchChunkRequested} (h : e.Built) {d : Value} (hd : e.Encodes text d) :
    ReadsAs (fromDict text.toWireCodec) normal e d := by
  obtain ⟨occurredAt, items, kvs, hoccurredAt, hitems, hleft, rfl⟩ := hd
  have hn : ["event_type", "event_version", "batch_job_id", "chunk_id", "chunk_index", "chunk_count", "correlation_id",
      "occurred_at", "view", "view_version", "items", "requested_features", "requested_feature_groups", "write_online",
      "total_items", "manifest_id", "manifest_ids"].Nodup := by decide
  obtain ⟨hproperItems, hreadItems⟩ :=
    list_roundTrip (forall₂_reads hitems fun i hi d hd => BatchItem.reads (h.items i hi) hd)
  constructor
  · apply hleft.proper hn
    have hproper := h.proper
    simp only [fields, List.forall_mem_cons] at hproper
    simp [entries, Value.ProperFields, hproper, hproperItems, iso_proper hoccurredAt]
  · rw [fromDict, hleft.item hn "batch_job_id" rfl rfl, ok_bind, hleft.item hn "chunk_id" rfl rfl, ok_bind,
      hleft.item hn "chunk_index" rfl rfl, ok_bind, hleft.item hn "chunk_count" rfl rfl, ok_bind,
      hleft.item hn "correlation_id" rfl rfl, ok_bind, hleft.timeAt hn "occurred_at" rfl rfl hoccurredAt, ok_bind,
      hleft.item hn "view" rfl rfl, ok_bind, hleft.item hn "view_version" rfl rfl, ok_bind,
      hleft.item hn "items" rfl rfl, ok_bind, Value.normal, Value.toList, ok_bind, hreadItems, ok_bind,
      hleft.listOr hn "requested_features" rfl rfl, ok_bind, hleft.listOr hn "requested_feature_groups" rfl rfl, ok_bind,
      hleft.getOr hn "write_online" rfl rfl rfl, ok_bind, hleft.getOr hn "total_items" rfl rfl rfl, ok_bind,
      hleft.getOr hn "manifest_id" rfl rfl rfl, ok_bind, hleft.listOr hn "manifest_ids" rfl rfl, ok_bind,
      hleft.getOr hn "event_type" rfl rfl rfl, ok_bind, hleft.getOr hn "event_version" rfl rfl rfl]
    rfl

theorem BatchChunkRequested.normal_normal {e : BatchChunkRequested} (h : e.Built) : e.normal.normal = e.normal := by
  have hitems := map_idem fun i hi => BatchItem.normal_normal (h.items i hi)
  simp only [normal, Value.normal_normal, map_normal_idem, hitems]

variable (text) in
def BatchChunkProcessed.Encodes (e : BatchChunkProcessed) (d : Value) : Prop :=
  let optional := [("first_errors", .arr []), ("manifest_id", .null), ("online_refresh_counts", .null),
    ("event_type", .str "batch.chunk.processed"), ("event_version", .int 1)]
  ∃ processedAt onlineRefreshCounts kvs, iso text e.processedAt = .ok processedAt ∧
    textKeys? e.onlineRefreshCounts = .ok onlineRefreshCounts ∧
    LeftOut optional (e.entries processedAt onlineRefreshCounts) kvs ∧ d = .obj kvs

def BatchChunkProcessed.fields (e : BatchChunkProcessed) : List Value :=
  [e.batchJobId, e.chunkId, e.chunkIndex, e.chunkCount, e.correlationId, e.status, e.itemCount, e.okItems,
    e.failedItems, e.manifestId, e.eventType, e.eventVersion, .arr e.firstErrors]

structure BatchChunkProcessed.Built (e : BatchChunkProcessed) : Prop where
  proper : ∀ v ∈ e.fields, v.Proper
  onlineRefreshCounts : ∀ m ∈ e.onlineRefreshCounts, TextKeyed m

def BatchChunkProcessed.times (e : BatchChunkProcessed) : List WireTime := [e.processedAt]

theorem BatchChunkProcessed.written {e : BatchChunkProcessed} (h : e.Built) (ht : ∀ t ∈ e.times, IsAware t) :
    ∃ d, e.toDict text = .ok d := by
  obtain ⟨processedAt, hprocessedAt⟩ := iso_written (List.forall_mem_singleton.mp ht)
  have hcounts : ∃ v, textKeys? e.onlineRefreshCounts = .ok v := by
    cases hm : e.onlineRefreshCounts with
    | none => exact ⟨_, rfl⟩
    | some m =>
      obtain ⟨kvs, hkvs, -⟩ := h.onlineRefreshCounts m hm
      exact ⟨_, bind_eq_ok.mpr ⟨kvs, hkvs, rfl⟩⟩
  obtain ⟨counts, hcounts⟩ := hcounts
  exact ⟨_, bind_eq_ok.mpr ⟨_, hprocessedAt, bind_eq_ok.mpr ⟨_, hcounts, rfl⟩⟩⟩

theorem BatchChunkProcessed.encodes {e : BatchChunkProcessed} {d : Value} (h : e.toDict text = .ok d) :
    e.Encodes text d := by
  obtain ⟨processedAt, hprocessedAt, h⟩ := bind_eq_ok.mp h
  obtain ⟨onlineRefreshCounts, hcounts, h⟩ := bind_eq_ok.mp h
  cases h
  exact ⟨processedAt, onlineRefreshCounts, _, hprocessedAt, hcounts, .refl _ _, rfl⟩

/-- An optional dictionary is read back. -/
theorem textKeys?_reads {m : Option Value.Mapping} (h : ∀ m' ∈ m, TextKeyed m') {d : Value} (hd : textKeys? m = .ok d) :
    d.Proper ∧ ((d.normal false).isNone = true ∧ m = none ∨
      ∃ m', (d.normal false).isNone = false ∧ (d.normal false).toMapping = .ok (normalMapping m') ∧ m = some m') := by
  cases m with
  | none =>
    cases hd
    exact ⟨trivial, .inl ⟨rfl, rfl⟩⟩
  | some m =>
    obtain ⟨kvs, hkvs, hd⟩ := bind_eq_ok.mp hd
    cases hd
    exact ⟨(h m rfl).proper hkvs, .inr ⟨m, rfl, toMapping_normal hkvs, rfl⟩⟩

theorem BatchChunkProcessed.reads {e : BatchChunkProcessed} (h : e.Built) {d : Value} (hd : e.Encodes text d) :
    ReadsAs (fromDict text.toWireCodec) normal e d := by
  obtain ⟨processedAt, onlineRefreshCounts, kvs, hprocessedAt, hcounts, hleft, rfl⟩ := hd
  have hn : ["event_type", "event_version", "batch_job_id", "chunk_id", "chunk_index", "chunk_count", "correlation_id",
      "processed_at", "status", "item_count", "ok_items", "failed_items", "first_errors", "manifest_id",
      "online_refresh_counts"].Nodup := by decide
  obtain ⟨hproperCounts, hreadCounts⟩ := textKeys?_reads h.onlineRefreshCounts hcounts
  constructor
  · apply hleft.proper hn
    have hproper := h.proper
    simp only [fields, List.forall_mem_cons] at hproper
    simp [entries, Value.ProperFields, hproper, hproperCounts, iso_proper hprocessedAt]
  · rw [fromDict, hleft.getOr hn "online_refresh_counts" rfl rfl rfl, ok_bind, hleft.item hn "batch_job_id" rfl rfl,
      ok_bind, hleft.item hn "chunk_id" rfl rfl, ok_bind, hleft.item hn "chunk_index" rfl rfl, ok_bind,
      hleft.item hn "chunk_count" rfl rfl, ok_bind, hleft.item hn "correlation_id" rfl rfl, ok_bind,
      hleft.timeAt hn "processed_at" rfl rfl hprocessedAt, ok_bind, hleft.item hn "status" rfl rfl, ok_bind,
      hleft.item hn "item_count" rfl rfl, ok_bind, hleft.item hn "ok_items" rfl rfl, ok_bind,
      hleft.item hn "failed_items" rfl rfl, ok_bind, hleft.listOr hn "first_errors" rfl rfl, ok_bind,
      hleft.getOr hn "manifest_id" rfl rfl rfl, ok_bind, normal]
    simp only [hleft.getOr hn "event_type" rfl rfl rfl, hleft.getOr hn "event_version" rfl rfl rfl, ok_bind]
    rcases hreadCounts with ⟨hnone, hm⟩ | ⟨m, hsome, hread, hm⟩
    · rw [if_pos hnone, hm]
      rfl
    · rw [hsome, if_neg Bool.false_ne_true, hread, hm]
      rfl

theorem BatchChunkProcessed.normal_normal {e : BatchChunkProcessed} (h : e.Built) : e.normal.normal = e.normal := by
  have hcounts : (e.onlineRefreshCounts.map normalMapping).map normalMapping = e.onlineRefreshCounts.map normalMapping := by
    rw [Option.map_map]
    exact Option.map_congr fun m hm => normalMapping_idem (h.onlineRefreshCounts m hm)
  simp only [normal, Value.normal_normal, map_normal_idem, hcounts]

/-! ## Dead letters -/

variable (text) in
def DeadLetterEvent.Encodes (e : DeadLetterEvent) (d : Value) : Prop :=
  let optional := [("error", .null), ("original_request_id", .null), ("original_job_id", .null),
    ("original_correlation_id", .null), ("attempt_count", .null), ("max_attempts", .null),
    ("original_event_type", .null), ("event_type", .str "event.dlq"), ("event_version", .int 1)]
  ∃ occurredAt kvs, iso text e.occurredAt = .ok occurredAt ∧ LeftOut optional (e.entries occurredAt) kvs ∧ d = .obj kvs

def DeadLetterEvent.fields (e : DeadLetterEvent) : List Value :=
  [e.sourceTopic, e.failureStage, e.failureStatus, e.error, e.sourcePayloadB64, e.originalRequestId, e.originalJobId,
    e.originalCorrelationId, e.attemptCount, e.maxAttempts, e.originalEventType, e.eventType, e.eventVersion]

def DeadLetterEvent.Built (e : DeadLetterEvent) : Prop := ∀ v ∈ e.fields, v.Proper

def DeadLetterEvent.times (e : DeadLetterEvent) : List WireTime := [e.occurredAt]

theorem DeadLetterEvent.written {e : DeadLetterEvent} (ht : ∀ t ∈ e.times, IsAware t) : ∃ d, e.toDict text = .ok d := by
  obtain ⟨occurredAt, hoccurredAt⟩ := iso_written (List.forall_mem_singleton.mp ht)
  exact ⟨_, bind_eq_ok.mpr ⟨_, hoccurredAt, rfl⟩⟩

theorem DeadLetterEvent.encodes {e : DeadLetterEvent} {d : Value} (h : e.toDict text = .ok d) : e.Encodes text d := by
  obtain ⟨occurredAt, hoccurredAt, h⟩ := bind_eq_ok.mp h
  cases h
  exact ⟨occurredAt, _, hoccurredAt, .refl _ _, rfl⟩

theorem DeadLetterEvent.reads {e : DeadLetterEvent} (h : e.Built) {d : Value} (hd : e.Encodes text d) :
    ReadsAs (fromDict text.toWireCodec) normal e d := by
  obtain ⟨occurredAt, kvs, hoccurredAt, hleft, rfl⟩ := hd
  have hn : ["event_type", "event_version", "source_topic", "failure_stage", "failure_status", "error", "occurred_at",
      "source_payload_b64", "original_request_id", "original_job_id", "original_correlation_id", "attempt_count",
      "max_attempts", "original_event_type"].Nodup := by decide
  constructor
  · apply hleft.proper hn
    simp only [Built, fields, List.forall_mem_cons] at h
    simp [entries, Value.ProperFields, h, iso_proper hoccurredAt]
  · rw [fromDict, hleft.item hn "source_topic" rfl rfl, ok_bind, hleft.item hn "failure_stage" rfl rfl, ok_bind,
      hleft.item hn "failure_status" rfl rfl, ok_bind, hleft.getOr hn "error" rfl rfl rfl, ok_bind,
      hleft.timeAt hn "occurred_at" rfl rfl hoccurredAt, ok_bind, hleft.item hn "source_payload_b64" rfl rfl, ok_bind,
      hleft.getOr hn "original_request_id" rfl rfl rfl, ok_bind, hleft.getOr hn "original_job_id" rfl rfl rfl, ok_bind,
      hleft.getOr hn "original_correlation_id" rfl rfl rfl, ok_bind, hleft.getOr hn "attempt_count" rfl rfl rfl, ok_bind,
      hleft.getOr hn "max_attempts" rfl rfl rfl, ok_bind, hleft.getOr hn "original_event_type" rfl rfl rfl, ok_bind,
      hleft.getOr hn "event_type" rfl rfl rfl, ok_bind, hleft.getOr hn "event_version" rfl rfl rfl]
    rfl

theorem DeadLetterEvent.normal_normal (e : DeadLetterEvent) : e.normal.normal = e.normal := by
  simp only [normal, Value.normal_normal]

/-! ## Every event type -/

variable (text)

def FeatureComputeRequested.code : JsonCode FeatureComputeRequested where
  toDict := toDict text
  fromDict := fromDict text.toWireCodec
  normal := normal
  Built := Built
  times := times
  Encodes := Encodes text

def FeatureComputeCompleted.code : JsonCode FeatureComputeCompleted where
  toDict := toDict text
  fromDict := fromDict text.toWireCodec
  normal := normal
  Built := Built
  times := times
  Encodes := Encodes text

def FeatureUpdated.code : JsonCode FeatureUpdated where
  toDict := toDict text
  fromDict := fromDict text.toWireCodec
  normal := normal
  Built := Built
  times := times
  Encodes := Encodes text

/-- The times of a write set are those of its results, which are aware. -/
def FeatureWriteSet.code : JsonCode FeatureWriteSet where
  toDict := toDict text
  fromDict := fromDict text.toWireCodec
  normal := normal
  Built := Built
  times _ := []
  Encodes := Encodes text

def FeatureOfflineWriteRequested.code : JsonCode FeatureOfflineWriteRequested where
  toDict := toDict text
  fromDict := fromDict text.toWireCodec
  normal := normal
  Built := Built
  times := times
  Encodes := Encodes text

def ModelScoreWriteRequested.code : JsonCode ModelScoreWriteRequested where
  toDict := toDict text
  fromDict := fromDict text.toWireCodec
  normal := normal
  Built := Built
  times := times
  Encodes := Encodes text

def BatchChunkRequested.code : JsonCode BatchChunkRequested where
  toDict := toDict text
  fromDict := fromDict text.toWireCodec
  normal := normal
  Built := Built
  times := times
  Encodes := Encodes text

def BatchChunkProcessed.code : JsonCode BatchChunkProcessed where
  toDict := toDict text
  fromDict := fromDict text.toWireCodec
  normal := normal
  Built := Built
  times := times
  Encodes := Encodes text

def DeadLetterEvent.code : JsonCode DeadLetterEvent where
  toDict := toDict text
  fromDict := fromDict text.toWireCodec
  normal := normal
  Built := Built
  times := times
  Encodes := Encodes text

variable {text}

theorem FeatureComputeRequested.survives : (code text).Survives text :=
  JsonCode.survives (fun _ => written) (fun _ _ => encodes) (fun _ h _ => reads h) fun _ => normal_normal

theorem FeatureComputeCompleted.survives : (code text).Survives text :=
  JsonCode.survives (fun _ => written) (fun _ _ => encodes) (fun _ h _ => reads h) fun _ => normal_normal

theorem FeatureUpdated.survives : (code text).Survives text :=
  JsonCode.survives (fun _ => written) (fun _ _ => encodes) (fun _ h _ => reads h) fun _ => normal_normal

theorem FeatureWriteSet.survives : (code text).Survives text :=
  JsonCode.survives (fun _ h _ => written h) (fun _ _ => encodes) (fun _ h _ => reads h) fun _ => normal_normal

theorem FeatureOfflineWriteRequested.survives : (code text).Survives text :=
  JsonCode.survives (fun _ => written) (fun _ _ => encodes) (fun _ h _ => reads h) fun _ => normal_normal

theorem ModelScoreWriteRequested.survives : (code text).Survives text :=
  JsonCode.survives (fun _ => written) (fun _ _ => encodes) (fun _ h _ => reads h) fun _ => normal_normal

theorem BatchChunkRequested.survives : (code text).Survives text :=
  JsonCode.survives (fun _ => written) (fun _ _ => encodes) (fun _ h _ => reads h) fun _ => normal_normal

theorem BatchChunkProcessed.survives : (code text).Survives text :=
  JsonCode.survives (fun _ => written) (fun _ _ => encodes) (fun _ h _ => reads h) fun _ => normal_normal

theorem DeadLetterEvent.survives : (code text).Survives text :=
  JsonCode.survives (fun _ _ => written) (fun _ _ => encodes) (fun _ h _ => reads h) fun e _ => normal_normal e

/-- Every event, and every write set, survives the wire. -/
theorem events_survive (text : JsonText) :
    (FeatureComputeRequested.code text).Survives text ∧ (FeatureComputeCompleted.code text).Survives text ∧
      (FeatureUpdated.code text).Survives text ∧ (FeatureWriteSet.code text).Survives text ∧
      (FeatureOfflineWriteRequested.code text).Survives text ∧ (ModelScoreWriteRequested.code text).Survives text ∧
      (BatchChunkRequested.code text).Survives text ∧ (BatchChunkProcessed.code text).Survives text ∧
      (DeadLetterEvent.code text).Survives text :=
  ⟨FeatureComputeRequested.survives, FeatureComputeCompleted.survives, FeatureUpdated.survives, FeatureWriteSet.survives,
    FeatureOfflineWriteRequested.survives, ModelScoreWriteRequested.survives, BatchChunkRequested.survives,
    BatchChunkProcessed.survives, DeadLetterEvent.survives⟩

end

end ClearFeature.Wire
