import ClearFeature.Lib.Runs
import ClearFeature.Raw

/-!
# Writing raw reports

Three paths write reports: the API stores the payload and publishes an event,
the metadata writer projects the event's rows later, and a landing writes the
row first and then the payload. Each path is a program of store operations;
the programs of different processes interleave, and any of them may stop.
-/

namespace ClearFeature

/-! ## What the backend supplies -/

structure RawBackend where
  makeStorageUri : String → String → Int → String
  rawFormat : String
  rawCompression : String
  serializePayload : Value → Except PyErr (Bytes)
  sha256 : Bytes → String

namespace RawBackend
variable (b : RawBackend)

def contentHash (serialized : Bytes) : String := "sha256:" ++ b.sha256 serialized

def payloadHash (payload : Value) : Except PyErr String := do
  let serialized ← b.serializePayload payload
  pure (b.contentHash serialized)

def deriveReportRef (entityEncoded sourceName reportType contentHash : String) : String :=
  let material := "|".intercalate [entityEncoded, sourceName, reportType, contentHash]
  "rep_" ++ String.ofList ((b.sha256 material.toUTF8.toList).toList.take 32)

end RawBackend

/-- `given or default` on an optional text. -/
def givenOr (given : Option String) (default : String) : String :=
  match given with
  | some s => if s = "" then default else s
  | none => default

/-! ## Events -/

structure ReportDescriptor where
  reportRef : String
  sourceName : String
  reportType : String
  schemaVersion : String
  reportTs : Int
  objectKey : String
  contentHash : String
  sizeBytes : Int
  compression : String
  format : String
  availableAt : Option Int := none
  deriving DecidableEq

structure FeatureComputeRequested where
  entity : EntityRef
  reports : List ReportDescriptor
  deriving DecidableEq

/-! ## Store operations -/

inductive RawOp where
  | apiPut (storageUri : String) (payload : Value)
  | publish (event : FeatureComputeRequested)
  | landUpsert (incoming : RawReportMeta) (context : CorrectionContext) (now : Int)
  | landPut (storageUri : String) (payload : Value)
  | projectReport (entity : EntityRef) (descriptor : ReportDescriptor) (now : Int)

/-! ## `_submit_feature_request` -/

structure InlineReportIn where
  sourceName : String
  reportType : String
  schemaVersion : String
  reportTs : Int
  payload : Value
  reportRef : Option String := none
  uuidHex : String

structure FeatureRequestIn where
  entityType : String
  entityKey : List (String × String)
  reports : List InlineReportIn

/-- The body of the loop over the reports; `uuidHex` is what `uuid4().hex` returns for this report. -/
def describeReport (b : RawBackend) (acceptedAt : Int) (report : InlineReportIn) : Except PyErr ReportDescriptor := do
  let reportRef := givenOr report.reportRef ("rep_" ++ report.uuidHex)
  let serialized ← b.serializePayload report.payload
  let storageUri := b.makeStorageUri report.reportType reportRef report.reportTs
  pure {
    reportRef := reportRef
    sourceName := report.sourceName
    reportType := report.reportType
    schemaVersion := report.schemaVersion
    reportTs := report.reportTs
    objectKey := storageUri
    contentHash := b.contentHash serialized
    sizeBytes := serialized.length
    compression := b.rawCompression
    format := b.rawFormat
    availableAt := some acceptedAt }

/-- The payloads are stored one by one until a report is refused. -/
def storeReports (b : RawBackend) (acceptedAt : Int) : List InlineReportIn → List RawOp × Except PyErr (List ReportDescriptor)
  | [] => ([], .ok [])
  | report :: reports =>
    match describeReport b acceptedAt report with
    | .error e => ([], .error e)
    | .ok d =>
      let (ops, descriptors) := storeReports b acceptedAt reports
      (.apiPut d.objectKey report.payload :: ops, descriptors.map (d :: ·))

def submitFeatureRequest (b : RawBackend) (request : FeatureRequestIn) (acceptedAt : Int) : List RawOp :=
  match EntityKey.fromMapping request.entityKey none with
  | .error _ => []
  | .ok _ =>
    if request.reports.isEmpty then []
    else
      match storeReports b acceptedAt request.reports with
      | (ops, .ok descriptors) => ops ++ [.publish ⟨⟨request.entityType, request.entityKey⟩, descriptors⟩]
      | (ops, .error _) => ops

/-! ## `land_report_rows` -/

structure JsonlReportRow where
  entityKey : List (String × String)
  eventTs : Int
  payload : Value
  reportRef : Option String := none
  sourceName : Option String := none
  reportType : Option String := none
  availableAt : Option Int := none

structure LandingRun where
  entityType : String
  sourceName : String
  reportType : String
  createdAt : Int
  correctionContext : CorrectionContext

def landMeta (b : RawBackend) (landing : LandingRun) (row : JsonlReportRow) : Except PyErr RawReportMeta := do
  let src := givenOr row.sourceName landing.sourceName
  let rtype := givenOr row.reportType landing.reportType
  let entityKey ← EntityKey.fromMapping row.entityKey none
  let serialized ← b.serializePayload row.payload
  let contentHash := b.contentHash serialized
  let reportRef := givenOr row.reportRef (b.deriveReportRef entityKey.encode src rtype contentHash)
  RawReportMeta.make {
    reportRef := reportRef
    reportType := rtype
    entityType := landing.entityType
    entityKey := entityKey
    reportTs := row.eventTs
    payloadSizeBytes := serialized.length
    contentHash := contentHash
    storageUri := b.makeStorageUri rtype reportRef row.eventTs
    createdAt := landing.createdAt
    format := b.rawFormat
    compression := b.rawCompression
    availableAt := some (row.availableAt.getD landing.createdAt)
    availabilitySource := some (if row.availableAt.isSome then .sourceProvided else .ingestionTime) }

/-- Metadata first, then the payload. A row that cannot be described is rejected before any write. -/
def landReportRow (b : RawBackend) (landing : LandingRun) (row : JsonlReportRow) (now : Int) : List RawOp :=
  match landMeta b landing row with
  | .error _ => []
  | .ok incoming => [.landUpsert incoming landing.correctionContext now, .landPut incoming.storageUri row.payload]

/-! ## `_project_requested` -/

def projectedMeta (entity : EntityRef) (descriptor : ReportDescriptor) (now : Int) : Except PyErr RawReportMeta := do
  let entityKey ← EntityKey.fromMapping entity.entityKey none
  RawReportMeta.make {
    reportRef := descriptor.reportRef
    reportType := descriptor.reportType
    entityType := entity.entityType
    entityKey := entityKey
    reportTs := descriptor.reportTs
    payloadSizeBytes := descriptor.sizeBytes
    contentHash := descriptor.contentHash
    storageUri := descriptor.objectKey
    createdAt := now
    format := descriptor.format
    compression := descriptor.compression
    availableAt := descriptor.availableAt
    availabilitySource := descriptor.availableAt.map fun _ => .ingestionTime }

def projectRequested (event : FeatureComputeRequested) (now : Int) : List RawOp :=
  event.reports.map fun d => .projectReport event.entity d now

/-! ## The machine -/

/-- The shared stores, the events in the topic, and what each process has still to do. -/
structure RawState where
  payloads : PayloadStore := []
  repo : MetaRepository := {}
  published : List FeatureComputeRequested := []
  procs : List (List RawOp) := []

/-- One store operation, and whether the process goes on after it. -/
def RawState.exec (s : RawState) : RawOp → RawState × Bool
  | .apiPut uri payload | .landPut uri payload => ({ s with payloads := s.payloads.put uri payload }, true)
  | .publish event => ({ s with published := s.published ++ [event] }, true)
  | .landUpsert incoming context now =>
    let out := s.repo.upsert incoming (some context) now
    ({ s with repo := out.1 }, out.2.toBool)
  | .projectReport entity descriptor now =>
    match projectedMeta entity descriptor now with
    | .error _ => (s, false)
    | .ok incoming =>
      let out := s.repo.upsert incoming none now
      ({ s with repo := out.1 }, out.2.toBool)

inductive RawAction where
  | submit (request : FeatureRequestIn) (acceptedAt : Int)
  | land (landing : LandingRun) (row : JsonlReportRow) (now : Int)
  | deliver (offset : Nat) (now : Int)
  | advance (proc : Nat)
  | stop (proc : Nat)

def RawState.spawn (s : RawState) (ops : List RawOp) : RawState := { s with procs := s.procs ++ [ops] }

def RawState.step (b : RawBackend) (s : RawState) : RawAction → RawState
  | .submit request acceptedAt => s.spawn (submitFeatureRequest b request acceptedAt)
  | .land landing row now => s.spawn (landReportRow b landing row now)
  | .deliver offset now =>
    match s.published[offset]? with
    | some event => s.spawn (projectRequested event now)
    | none => s
  | .advance i =>
    match s.procs[i]? with
    | some (op :: ops) =>
      let out := s.exec op
      { out.1 with procs := s.procs.set i (bif out.2 then ops else []) }
    | _ => s
  | .stop i => { s with procs := s.procs.set i [] }

/-- A stored payload hashes to what the row that points at it says. -/
def PayloadsMatch (b : RawBackend) (s : RawState) : Prop :=
  ∀ reportRef row payload, Dict.get? s.repo.metas reportRef = some row →
    Dict.get? s.payloads row.storageUri = some payload → b.payloadHash payload = .ok row.contentHash

end ClearFeature
