import ClearFeature.BatchRunner
import ClearFeature.Validator

/-!
# The scope of a batch job (`api/app.py`)

Items come inline, from one landed manifest, or from several manifests joined
by the entity key. What cannot be computed is refused before anything is
written.
-/

namespace ClearFeature

structure HttpError where
  statusCode : Nat
  detail : String
  deriving DecidableEq

def badRequest (detail : String) : HttpError := ⟨400, detail⟩

/-- `if c: raise HTTPException(400, detail)`. -/
def refuseIf (c : Prop) [Decidable c] (detail : String) : Except HttpError Unit :=
  if c then .error (badRequest detail) else .ok ()

/-! ## Requests and manifests -/

structure BatchItemIn where
  entityType : String
  entityKey : List (String × String)
  inlineSources : List (String × Value)

structure BatchScopeIn where
  type : String
  items : List BatchItemIn := []
  manifestId : Option String := none
  includeDuplicateItems : Bool := false
  manifestIds : Option (List String) := none

structure BatchJobIn where
  view : String
  viewVersion : Int
  scope : BatchScopeIn
  idempotencyKey : String
  requestedFeatures : List String := []
  requestedFeatureGroups : List String := []
  writeOnline : Bool := false
  onlineRefreshMode : Option String := none
  chunkSize : Int := 100

structure SourceDatasetManifest where
  manifestId : String
  entityType : String
  sourceName : String
  landingForm : String := "raw_reports"
  deriving DecidableEq

structure SourceDatasetItem where
  manifestId : String
  status : String
  sourceName : String
  entityKey : Option (List (String × String)) := none
  reportRef : Option String := none
  deriving DecidableEq

structure SourceDatasets where
  manifests : List SourceDatasetManifest := []
  items : List SourceDatasetItem := []

def SourceDatasets.getManifest (datasets : SourceDatasets) (manifestId : String) : Option SourceDatasetManifest :=
  datasets.manifests.find? fun m => m.manifestId = manifestId

def SourceDatasets.listItems (datasets : SourceDatasets) (manifestId : String) : List SourceDatasetItem :=
  datasets.items.filter fun item => item.manifestId = manifestId

def landingRawReports : String := "raw_reports"
def itemWritten : String := "written"
def itemDuplicate : String := "duplicate"

/-- The key and the reference of an item that may be computed: both are there and not empty. -/
def SourceDatasetItem.eligible? (item : SourceDatasetItem) (statuses : List String) :
    Option (List (String × String) × String) :=
  match item.entityKey, item.reportRef with
  | some key, some reportRef =>
    if item.status ∈ statuses ∧ reportRef ≠ "" ∧ key ≠ [] then some (key, reportRef) else none
  | _, _ => none

def reprOption : Option String → String
  | none => "None"
  | some s => reprStr s

/-- Online writes of a manifest scope are guarded. -/
def checkRefresh (request : BatchJobIn) : Except HttpError Unit :=
  let guarded := "manifest-scoped write_online requires online_refresh_mode='guarded' "
  refuseIf (request.writeOnline ∧ request.onlineRefreshMode ≠ none ∧ request.onlineRefreshMode ≠ some "guarded")
    (guarded ++ s!"(got {reprOption request.onlineRefreshMode})")

def landedManifest (datasets : SourceDatasets) (manifestId : String) : Except HttpError SourceDatasetManifest :=
  match datasets.getManifest manifestId with
  | none => .error ⟨404, s!"unknown manifest {reprStr manifestId}"⟩
  | some manifest => do
    refuseIf (manifest.landingForm ≠ landingRawReports)
      (s!"manifest {reprStr manifestId} landing_form {reprStr manifest.landingForm} is not computable by batch; " ++
       "feature-row datasets already live in offline history")
    return manifest

/-! ## One manifest -/

def manifestBatchItems (datasets : SourceDatasets) (request : BatchJobIn) : Except HttpError (List BatchItem × String) :=
  match request.scope.manifestId with
  | none | some "" => .error (badRequest "scope.manifest_id is required")
  | some manifestId => do
    checkRefresh request
    let manifest ← landedManifest datasets manifestId
    let eligible := if request.scope.includeDuplicateItems then [itemWritten, itemDuplicate] else [itemWritten]
    let items := (datasets.listItems manifestId).filterMap fun item =>
      (item.eligible? eligible).map fun (key, reportRef) =>
        ({ entityType := manifest.entityType, entityKey := key, sourceRefs := [(item.sourceName, reportRef)] } : BatchItem)
    return (items, manifest.manifestId)

/-! ## Several manifests -/

/-- The manifests in the given order, each checked. -/
def landedManifests (registry : Registry) (datasets : SourceDatasets) :
    List String → Except HttpError (List SourceDatasetManifest)
  | [] => .ok []
  | manifestId :: ids => do
    let manifest ← landedManifest datasets manifestId
    refuseIf (manifest.sourceName ∉ registry.sources.map fun s => s.name)
      (s!"manifest {reprStr manifestId} source {reprStr manifest.sourceName} is not a registered raw source " ++
       "of this registry")
    let rest ← landedManifests registry datasets ids
    return manifest :: rest

structure ManifestJoin where
  join : List (String × List (String × String)) := []
  keyParts : List (String × List (String × String)) := []
  ambiguousBindings : Nat := 0
  ambiguousSources : List String := []

/-- `{name: item.entity_key[name] for name in view_def.key_fields}` -/
def keyOfFields (key : List (String × String)) : List String → Except PyErr (List (String × String))
  | [] => .ok []
  | name :: names =>
    match Dict.get? key name with
    | none => .error (.keyError (reprStr name))
    | some value => do
      let rest ← keyOfFields key names
      return (name, value) :: rest

/-- One eligible item of a manifest: the same reference again changes nothing, another one is ambiguous. -/
def joinItem (viewDef : FeatureViewDef) (manifestId : String) (key : List (String × String)) (sourceName reportRef : String)
    (j : ManifestJoin) : Except HttpError ManifestJoin :=
  let canonical : Except PyErr (List (String × String) × EntityKey) := do
    let parts ← keyOfFields key viewDef.keyFields
    let canonical ← EntityKey.fromMapping parts (some viewDef.keyFields)
    return (parts, canonical)
  match canonical with
  | .error _ =>
    .error (badRequest (s!"manifest {reprStr manifestId} item entity_key does not match view key_fields " ++
      reprNames viewDef.keyFields))
  | .ok (parts, canonical) =>
    let encoded := canonical.encode
    let bindings := (Dict.get? j.join encoded).getD []
    match Dict.get? bindings sourceName with
    | none =>
      .ok { j with
        join := Dict.set j.join encoded (Dict.set bindings sourceName reportRef)
        keyParts := Dict.set j.keyParts encoded parts }
    | some existing =>
      if existing = reportRef then .ok j
      else .ok { j with
        ambiguousBindings := j.ambiguousBindings + 1
        ambiguousSources :=
          if sourceName ∈ j.ambiguousSources then j.ambiguousSources else j.ambiguousSources ++ [sourceName] }

def joinItems (viewDef : FeatureViewDef) (manifestId : String) :
    ManifestJoin → List SourceDatasetItem → Except HttpError ManifestJoin
  | j, [] => .ok j
  | j, item :: items =>
    match item.eligible? [itemWritten, itemDuplicate] with
    | none => joinItems viewDef manifestId j items
    | some (key, reportRef) => do
      let j ← joinItem viewDef manifestId key item.sourceName reportRef j
      joinItems viewDef manifestId j items

def joinManifests (datasets : SourceDatasets) (viewDef : FeatureViewDef) :
    ManifestJoin → List SourceDatasetManifest → Except HttpError ManifestJoin
  | j, [] => .ok j
  | j, manifest :: manifests => do
    let j ← joinItems viewDef manifest.manifestId j (datasets.listItems manifest.manifestId)
    joinManifests datasets viewDef j manifests

def multiManifestBatchItems (registry : Registry) (datasets : SourceDatasets) (request : BatchJobIn)
    (viewDef : FeatureViewDef) : Except HttpError (List BatchItem × List String) := do
  let always := "the multi-manifest join always includes exact-duplicate re-ingested bindings"
  refuseIf (request.scope.includeDuplicateItems = true)
    (s!"include_duplicate_items is not supported for scope 'source_dataset_manifests'; {always}")
  let manifestIds := request.scope.manifestIds.getD []
  refuseIf (manifestIds = []) "scope.manifest_ids is required (non-empty list)"
  refuseIf (¬ manifestIds.Nodup) "scope.manifest_ids contains duplicate manifest ids"
  checkRefresh request
  let manifests ← landedManifests registry datasets (sortNames manifestIds)
  let entityTypes := sortNames (manifests.map SourceDatasetManifest.entityType).dedup
  refuseIf (entityTypes.length ≠ 1) s!"selected manifests disagree on entity_type: {reprNames entityTypes}"
  let j ← joinManifests datasets viewDef {} manifests
  let sources := reprNames (sortNames j.ambiguousSources)
  refuseIf (j.ambiguousBindings ≠ 0)
    (s!"ambiguous_source_binding: {j.ambiguousBindings} entity/source binding(s) resolve to more than " ++
     s!"one distinct report_ref across the selected manifests (sources: {sources}); " ++
     "split the request or re-ingest a corrected dataset")
  let entityType := (manifests.head?.map SourceDatasetManifest.entityType).getD ""
  let items := (sortNames (Dict.keys j.join)).map fun encoded =>
    ({ entityType, entityKey := (Dict.get? j.keyParts encoded).getD []
       sourceRefs := (Dict.get? j.join encoded).getD [] } : BatchItem)
  return (items, sortNames manifestIds)

end ClearFeature
