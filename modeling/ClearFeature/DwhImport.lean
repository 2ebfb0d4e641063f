import ClearFeature.Dedup
import ClearFeature.Hashing
import ClearFeature.Propagation
import ClearFeature.Wire

/-!
# Imports of feature rows (`run_dwh_feature_import` in `api/dwh_ingestion.py`)

Rows of a warehouse query become results of one view. Those that are new to the
offline history are appended, and only these are announced; a manifest records
the run. The validation of a row by pydantic and the two digests are parameters.
-/

namespace ClearFeature

open Runner

structure DwhFeatureConfig where
  entityType : String
  view : String
  viewVersion : Int
  queryName : String
  datasetId : Option String := none
  sourceName : Option String := none
  entityKeyColumn : String := "entity_key"
  featureNameColumn : String := "feature_name"
  featureVersionColumn : String := "feature_version"
  valueColumn : String := "value"
  dataTsColumn : String := "data_ts"
  calcTsColumn : String := "calc_ts"

/-- A validated row: its times are instants and its key is not empty. `dataTsText` is `data_ts.isoformat()`. -/
structure DwhFeatureRow where
  entityKey : List (String × String)
  featureName : String
  featureVersion : Int
  value : Value
  dataTs : Int
  dataTsText : String
  calcTs : Int
  entityKey_ne : entityKey ≠ []

/-- `DwhFeatureRow.model_validate`, the digest of values and the digest of a sorted list of texts. -/
structure DwhCodec where
  modelValidate : List (String × Value) → Except PyErr DwhFeatureRow
  sha256 : Sha256
  fingerprint : List String → String

/-- The `SourceDatasetManifest` of feature rows: the fields an import sets. -/
structure FeatureRowsManifest where
  manifestId : String
  datasetId : String
  entityType : String
  sourceName : String
  view : String
  viewVersion : Int
  createdAt : Int
  inputUri : String
  itemCountRead : Nat
  itemCountWritten : Nat
  itemCountDuplicate : Nat
  itemCountRejected : Nat
  watermarkMinEventTs : Option Int
  watermarkMaxEventTs : Option Int
  contentHash : String

/-! ## Rows -/

/-- What the loop over the rows has gathered. -/
structure ImportedRows where
  read : Nat := 0
  rejected : Nat := 0
  validResults : List FeatureResult := []
  writtenMaterial : List String := []
  minTs : Option Int := none
  maxTs : Option Int := none

def ImportedRows.add (rows : ImportedRows) (row : DwhFeatureRow) (result : FeatureResult) (hash : String) : ImportedRows :=
  let material := "|".intercalate [result.entityKey.encode, result.ref.encode, row.dataTsText, hash]
  { rows with
    validResults := rows.validResults ++ [result]
    writtenMaterial := rows.writtenMaterial ++ [material]
    minTs := some (rows.minTs.elim row.dataTs (min · row.dataTs))
    maxTs := some (rows.maxTs.elim row.dataTs (max · row.dataTs)) }

section
variable (codec : DwhCodec) (viewDef : FeatureViewDef) (config : DwhFeatureConfig)

def validateRow (raw : Value) : Except PyErr DwhFeatureRow := do
  let entityKey ← raw.item config.entityKeyColumn
  let featureName ← raw.item config.featureNameColumn
  let featureVersion ← raw.item config.featureVersionColumn
  let value ← raw.item config.valueColumn
  let dataTs ← raw.item config.dataTsColumn
  let calcTs ← raw.item config.calcTsColumn
  codec.modelValidate [("entity_key", entityKey), ("feature_name", featureName), ("feature_version", featureVersion),
    ("value", value), ("data_ts", dataTs), ("calc_ts", calcTs)]

/-- `declared[row.feature_name]`, checked against the version of the row. -/
def declaredFeature (row : DwhFeatureRow) : Except PyErr FeatureDef :=
  match Dict.get? (featuresByName viewDef.features) row.featureName with
  | none => .error (.valueError s!"unknown feature {reprStr row.featureName} in view")
  | some feature => do
    raiseIf (feature.featureVersion ≠ row.featureVersion)
      (let name := reprStr row.featureName
       s!"feature {name} version {row.featureVersion} != registry version {feature.featureVersion}")
    return feature

def keyPart (row : DwhFeatureRow) (name : String) : Except PyErr (String × String) :=
  match Dict.get? row.entityKey name with
  | some part => .ok (name, part)
  | none => .error (.keyError (reprStr name))

def importRow (raw : Value) : Except PyErr (DwhFeatureRow × FeatureResult) := do
  let row ← validateRow codec config raw
  let feature ← declaredFeature viewDef row
  let parts ← viewDef.keyFields.mapM (keyPart row)
  let entityKey ← EntityKey.fromMapping (dictOf parts) (some viewDef.keyFields)
  return (row, {
    ref := feature.ref
    entityKey
    value := row.value
    dataTs := row.dataTs
    calcTs := row.calcTs
    valueHash := some (valueHash codec.sha256 row.value) })

/-- The loop over the rows; an element that is an error is raised by the reader. -/
def importRows (failFast : Bool) : List (Except PyErr Value) → ImportedRows → Except PyErr ImportedRows
  | [], rows => .ok rows
  | .error e :: _, _ => .error e
  | .ok raw :: raws, rows =>
    match importRow codec viewDef config raw with
    | .error e =>
      if failFast then .error (.valueError e.msg)
      else importRows failFast raws { rows with read := rows.read + 1, rejected := rows.rejected + 1 }
    | .ok (row, result) =>
      importRows failFast raws
        { rows.add row result (valueHash codec.sha256 row.value) with read := rows.read + 1 }

end

/-! ## The run -/

inductive DwhOwn where
  | partitionNewResults (view : String) (viewVersion : Int) (results : List FeatureResult)
  | appendMany (view : String) (viewVersion : Int) (results : List FeatureResult)
  | uuid4Hex
  | upsertManifest (manifest : FeatureRowsManifest)

abbrev DwhOwn.Ans : DwhOwn → Type
  | .partitionNewResults _ _ _ => Except PyErr (List FeatureResult × Nat)
  | .appendMany _ _ _ => Except PyErr Unit
  | .uuid4Hex => String
  | .upsertManifest _ => Except PyErr Unit

/-- An import as it is asked for; `readRows` is the reader of the warehouse. -/
structure DwhImport where
  codec : DwhCodec
  registry : Registry
  readRows : String → List (Except PyErr Value)
  config : DwhFeatureConfig
  failFast : Bool

namespace DwhImport

abbrev Program : Type → Type := RunnerProg FeatureUpdated Unit DwhOwn.Ans

abbrev partitionNew (view : String) (viewVersion : Int) (results : List FeatureResult) :
    Program (Except PyErr (List FeatureResult × Nat)) := own (DwhOwn.partitionNewResults view viewVersion results)

abbrev appendMany (view : String) (viewVersion : Int) (results : List FeatureResult) : Program (Except PyErr Unit) :=
  own (DwhOwn.appendMany view viewVersion results)

abbrev uuid4Hex : Program String := own DwhOwn.uuid4Hex

abbrev upsertManifest (manifest : FeatureRowsManifest) : Program (Except PyErr Unit) := own (DwhOwn.upsertManifest manifest)

variable (i : DwhImport)

def resolveView : Except PyErr FeatureViewDef :=
  match findView? i.registry i.config.view i.config.viewVersion with
  | some viewDef => .ok viewDef
  | none => .error (.valueError s!"unknown view {reprStr i.config.view} version {i.config.viewVersion}")

/-- The view and the rows, which no store takes part in. -/
def gather : Except PyErr (FeatureViewDef × ImportedRows) := do
  let viewDef ← i.resolveView
  let rows ← importRows i.codec viewDef i.config i.failFast (i.readRows i.config.queryName) {}
  return (viewDef, rows)

/-- The results that are new are appended. -/
def land (results : List FeatureResult) : Program (Except PyErr (List FeatureResult × Nat)) := do
  match ← partitionNew i.config.view i.config.viewVersion results with
  | .error e => return .error e
  | .ok (newResults, duplicates) =>
    match ← appendMany i.config.view i.config.viewVersion newResults with
    | .error e => return .error e
    | .ok () => return .ok (newResults, duplicates)

/-- A failed publication fails the run. -/
def announce (viewDef : FeatureViewDef) (newResults : List FeatureResult) : Program (Except PyErr Nat) := do
  match ← emitFeatureUpdates (fun event => event) viewDef newResults i.config.entityType .dwhImport with
  | .error e => return .error (.valueError s!"feature_updates publish failed: {e.msg}")
  | .ok n => return .ok n

/-- `text or default` -/
def textOr (text : Option String) (default : String) : String :=
  match text with
  | some text => if text = "" then default else text
  | none => default

def datasetId : Program String := do
  if textOr i.config.datasetId "" = "" then
    let hex ← uuid4Hex
    return "ds_" ++ hex
  else return textOr i.config.datasetId ""

def recordRun (createdAt : Int) (rows : ImportedRows) (newResults : List FeatureResult) (duplicates : Nat) :
    Program (Except PyErr FeatureRowsManifest) := do
  let hex ← uuid4Hex
  let datasetId ← i.datasetId
  let manifest : FeatureRowsManifest := {
    manifestId := "sdm_" ++ hex
    datasetId
    entityType := i.config.entityType
    sourceName := textOr i.config.sourceName i.config.queryName
    view := i.config.view
    viewVersion := i.config.viewVersion
    createdAt
    inputUri := i.config.queryName
    itemCountRead := rows.read
    itemCountWritten := newResults.length
    itemCountDuplicate := duplicates
    itemCountRejected := rows.rejected
    watermarkMinEventTs := rows.minTs
    watermarkMaxEventTs := rows.maxTs
    contentHash := "sha256:" ++ i.codec.fingerprint (sortNames rows.writtenMaterial) }
  match ← upsertManifest manifest with
  | .error e => return .error e
  | .ok () => return .ok manifest

def runDwhFeatureImport : Program (Except PyErr FeatureRowsManifest) := do
  let createdAt ← now
  match i.gather with
  | .error e => return .error e
  | .ok (viewDef, rows) =>
    match ← i.land rows.validResults with
    | .error e => return .error e
    | .ok (newResults, duplicates) =>
      match ← i.announce viewDef newResults with
      | .error e => return .error e
      | .ok _ => i.recordRun createdAt rows newResults duplicates

end DwhImport

end ClearFeature
