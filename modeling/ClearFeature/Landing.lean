import ClearFeature.AvailabilityAudit
import ClearFeature.BatchScope
import ClearFeature.Lib.Items
import ClearFeature.RawWrites

/-!
# Landing reports (`api/jsonl_ingestion.py`)

Each prepared row is described, its metadata upserted and its payload stored; a
row for which something raises is rejected. The manifest counts the rows and
has one item for each.
-/

namespace ClearFeature

def itemRejected : String := "rejected"
def copyMode : String := "copy"
def registerInPlace : String := "register_in_place"
def statusCompleted : String := "completed"
def sourceKindJsonl : String := "object_storage_jsonl"

/-- A parsed report or a parse error. -/
inductive PreparedRow where
  | parsed (row : JsonlReportRow)
  | malformed (error : String)

structure LandedItem extends SourceDatasetItem where
  itemIndex : Nat
  reportType : String
  eventTs : Option Int := none
  contentHash : Option String := none
  error : Option String := none
  deriving DecidableEq

structure LandedManifest extends SourceDatasetManifest where
  datasetId : String
  sourceKind : String
  reportType : String
  copyMode : String
  createdAt : Int
  runStatus : String
  inputUri : Option String
  createdBy : Option String
  itemCountRead : Nat
  itemCountWritten : Nat
  itemCountDuplicate : Nat
  itemCountRejected : Nat
  watermarkMinEventTs : Option Int
  watermarkMaxEventTs : Option Int
  contentHash : String
  deriving DecidableEq

structure LandedDatasets where
  manifests : List (String × LandedManifest) := []
  items : List LandedItem := []

/-- `fingerprint` is the digest of a JSON list of texts. -/
structure LandingBackend extends RawBackend where
  fingerprint : List String → String

structure LandingRequest where
  sourceKind : String
  entityType : String
  sourceName : String
  reportType : String
  copyMode : String := ClearFeature.copyMode
  datasetId : Option String := none
  inputUri : Option String := none
  createdBy : Option String := none
  failFast : Bool := false

/-- What a run meets: fresh identifiers, the clock, and what the two stores raise at an item. -/
structure LandingEnv where
  manifestHex : String
  datasetHex : String
  createdAt : Int
  now : Nat → Int
  upsertRaises : Nat → Option PyErr := fun _ => none
  putRaises : Nat → Option PyErr := fun _ => none

def LandingEnv.manifestId (env : LandingEnv) : String := "sdm_" ++ env.manifestHex

def LandingRequest.run (request : LandingRequest) (env : LandingEnv) : LandingRun where
  entityType := request.entityType
  sourceName := request.sourceName
  reportType := request.reportType
  createdAt := env.createdAt
  correctionContext := {
    changeOrigin := if request.sourceKind = sourceKindJsonl then "jsonl_ingestion" else "dwh_import"
    manifestId := some env.manifestId }

structure RawStores where
  payloads : PayloadStore := []
  repo : MetaRepository := {}

/-- A row that is not rejected, its metadata, and whether it was written or is a duplicate. -/
structure Landed where
  row : JsonlReportRow
  incoming : RawReportMeta
  isNew : Bool

section
variable (b : LandingBackend) (request : LandingRequest) (env : LandingEnv)

/-- The metadata is written first, so a conflicting payload never replaces the stored one. -/
def landOne (s : RawStores) (item : PreparedRow × Nat) : RawStores × Except PyErr Landed :=
  match item.1 with
  | .malformed error => (s, .error (.valueError error))
  | .parsed row =>
    match landMeta b.toRawBackend (request.run env) row with
    | .error e => (s, .error e)
    | .ok incoming =>
      match env.upsertRaises item.2 with
      | some e => (s, .error e)
      | none =>
        let out := s.repo.upsert incoming (some (request.run env).correctionContext) (env.now item.2)
        match out.2 with
        | .error e => ({ s with repo := out.1 }, .error e)
        | .ok isNew =>
          match env.putRaises item.2 with
          | some e => ({ s with repo := out.1 }, .error e)
          | none => (⟨s.payloads.put incoming.storageUri row.payload, out.1⟩, .ok ⟨row, incoming, isNew⟩)

/-! ## The manifest -/

def rejectionReason : PyErr → String
  | .other "RawReportMetaConflictError" reportRef => s!"report_ref conflict: {reportRef}"
  | e => e.msg

/-- The item of the row at an index. -/
def landedItem (index : Nat) : Except PyErr Landed → LandedItem
  | .error e => {
    manifestId := env.manifestId, itemIndex := index, status := itemRejected, sourceName := request.sourceName,
    reportType := request.reportType, error := some (rejectionReason e) }
  | .ok landed => {
    manifestId := env.manifestId
    itemIndex := index
    status := if landed.isNew then itemWritten else itemDuplicate
    sourceName := givenOr landed.row.sourceName request.sourceName
    reportType := landed.incoming.reportType
    entityKey := some landed.row.entityKey
    reportRef := some landed.incoming.reportRef
    eventTs := some landed.row.eventTs
    contentHash := some landed.incoming.contentHash }

/-- What the loop over the rows has gathered. -/
structure LandingProgress where
  items : List LandedItem := []
  read : Nat := 0
  written : Nat := 0
  duplicate : Nat := 0
  rejected : Nat := 0
  minTs : Option Int := none
  maxTs : Option Int := none
  writtenHashes : List String := []

def LandingProgress.reject (p : LandingProgress) (e : PyErr) : LandingProgress :=
  { p with
    read := p.read + 1
    rejected := p.rejected + 1
    items := p.items ++ [landedItem request env p.read (.error e)] }

def LandingProgress.accept (p : LandingProgress) (landed : Landed) : LandingProgress :=
  { p with
    read := p.read + 1
    written := if landed.isNew then p.written + 1 else p.written
    duplicate := if landed.isNew then p.duplicate else p.duplicate + 1
    writtenHashes := p.writtenHashes ++ [landed.incoming.contentHash]
    minTs := some (p.minTs.elim landed.row.eventTs (min · landed.row.eventTs))
    maxTs := some (p.maxTs.elim landed.row.eventTs (max · landed.row.eventTs))
    items := p.items ++ [landedItem request env p.read (.ok landed)] }

def LandingProgress.manifest (p : LandingProgress) : LandedManifest where
  manifestId := env.manifestId
  datasetId := givenOr request.datasetId ("ds_" ++ env.datasetHex)
  sourceKind := request.sourceKind
  entityType := request.entityType
  sourceName := request.sourceName
  reportType := request.reportType
  landingForm := landingRawReports
  copyMode := request.copyMode
  createdAt := env.createdAt
  runStatus := statusCompleted
  inputUri := request.inputUri
  createdBy := request.createdBy
  itemCountRead := p.read
  itemCountWritten := p.written
  itemCountDuplicate := p.duplicate
  itemCountRejected := p.rejected
  watermarkMinEventTs := p.minTs
  watermarkMaxEventTs := p.maxTs
  contentHash := "sha256:" ++ b.fingerprint (sortNames p.writtenHashes)

def LandedDatasets.record (datasets : LandedDatasets) (manifest : LandedManifest) (items : List LandedItem) :
    LandedDatasets :=
  ⟨Dict.set datasets.manifests manifest.manifestId manifest, datasets.items ++ items⟩

/-- The stores afterwards, and the manifest of the run; with `fail_fast` the first rejection raises. -/
def landReportRows (prepared : List PreparedRow) (s : RawStores) (datasets : LandedDatasets) :
    RawStores × LandedDatasets × Except PyErr LandedManifest :=
  if request.copyMode = registerInPlace then
    (s, datasets, .error (.valueError "copy_mode='register_in_place' is not supported yet (copy-only)"))
  else if request.copyMode ≠ copyMode then
    (s, datasets, .error (.valueError s!"unknown copy_mode {reprStr request.copyMode}"))
  else
    let out := Items.loop (landOne b request env) (fun _ => !request.failFast)
      (LandingProgress.accept request env) (LandingProgress.reject request env) s prepared.zipIdx {}
    match out.2 with
    | .error e => (out.1, datasets, .error e)
    | .ok p =>
      let manifest := LandingProgress.manifest b request env p
      (out.1, datasets.record manifest p.items, .ok manifest)

end

end ClearFeature
