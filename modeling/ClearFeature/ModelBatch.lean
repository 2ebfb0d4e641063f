import ClearFeature.Lib.Environment
import ClearFeature.PostgresOffline
import ClearFeature.PropagationRunner

/-!
# Model features (`api/model_feature_batch.py`)

The inputs of a model feature are read from offline history, one point-in-time
read for each dependency. The model is called once for all rows; an entity
without a row is skipped.
-/

namespace ClearFeature

structure ModelRef where
  uri : String
  digest : String
  outputName : String
  deriving DecidableEq

/-- The inputs of one entity; a row has at least one. -/
structure ModelRow where
  entityKey : EntityKey
  frame : List (String × Value)
  inputs : List InputTuple
  scored : inputs ≠ []

structure ModelFeatureBatchResult where
  feature : String
  featureVersion : Int
  model : ModelRef
  inputFeatureRefs : List String
  planned : Nat
  computed : Nat
  skipped : Nat
  duplicatesSkipped : Nat
  downstreamEmitted : Nat

/-- `appendNew` is `partition_new_results` and the append of what is new; it answers the number of duplicates. -/
inductive ModelOwn where
  | getPit (entityKey : EntityKey) (featureName : String) (featureVersion : Int) (view : String) (viewVersion : Int)
      (observationTs safetyGap : Int)
  | predict (model : ModelRef) (frames : List (List (String × Value)))
  | appendNew (view : String) (viewVersion : Int) (results : List FeatureResult)

abbrev ModelOwn.Ans : ModelOwn → Type
  | .getPit _ _ _ _ _ _ _ => Except PyErr (Option OfflineFeatureRecord)
  | .predict _ _ => Except PyErr (List Value)
  | .appendNew _ _ _ => Except PyErr Nat

namespace ModelBatch

abbrev Program : Type → Type := RunnerProg PropagationRecord Unit ModelOwn.Ans

abbrev getPit (entityKey : EntityKey) (featureName : String) (featureVersion : Int) (view : String) (viewVersion : Int)
    (observationTs safetyGap : Int) : Program (Except PyErr (Option OfflineFeatureRecord)) :=
  Runner.own (ModelOwn.getPit entityKey featureName featureVersion view viewVersion observationTs safetyGap)

abbrev predict (model : ModelRef) (frames : List (List (String × Value))) : Program (Except PyErr (List Value)) :=
  Runner.own (ModelOwn.predict model frames)

abbrev appendNew (view : String) (viewVersion : Int) (results : List FeatureResult) : Program (Except PyErr Nat) :=
  Runner.own (ModelOwn.appendNew view viewVersion results)

def supportedModelUriPrefix : String := "mlflow://"

/-- `_resolve_model_feature`; a model feature has its model. -/
def resolveModelFeature (viewDef : FeatureViewDef) (featureName : String) : Except PyErr (FeatureDef × ModelSpec) :=
  let unknown := s!"feature {reprStr featureName} is not a model (F3) feature in view {reprStr viewDef.name}"
  match viewDef.features.find? fun f => f.name = featureName with
  | none => .error (.valueError unknown)
  | some feature => do
    raiseIf (feature.kind ≠ .model) unknown
    match feature.model with
    | none => .error (.other "AttributeError" "'NoneType' object has no attribute 'uri'")
    | some model => do
      raiseIf (supportedModelUriPrefix.toList.isPrefixOf model.uri.toList = false)
        s!"unsupported model uri {reprStr model.uri}; only {supportedModelUriPrefix}* is supported in beta"
      return (feature, model)

/-- `dep.version or features_by_name[dep.feature].feature_version`; a pin is at least one. -/
def dependencyVersion (byName : List (String × FeatureDef)) (dep : FeatureDependency) : Except PyErr Int :=
  match dep.version with
  | some version => .ok version
  | none =>
    match Dict.get? byName dep.feature with
    | some target => .ok target.featureVersion
    | none => .error (.keyError (reprStr dep.feature))

def inputFeatureRefs (byName : List (String × FeatureDef)) (deps : List FeatureDependency) : Except PyErr (List String) :=
  deps.mapM fun dep => do
    let version ← dependencyVersion byName dep
    let ref ← FeatureRef.ofFields dep.feature version
    return ref.encode

/-! ## Rows -/

/-- What is read for a dependency and its reference. -/
def inputTuple (sha256 : Sha256) (ref : FeatureRef) (r : FeatureResult) : InputTuple :=
  (ref.encode, r.dataTs, FeatureStore.orText r.valueHash (valueHash sha256 r.value))

section
variable (sha256 : Sha256) (view : String) (viewVersion : Int) (byName : List (String × FeatureDef))
  (observationTs safetyGap : Int)

/-- The loop of `_build_row`, with the frame and the inputs so far. -/
def rowLoop (entityKey : EntityKey) : List FeatureDependency → List (String × Value) → List InputTuple →
    Program (Except PyErr (Option ModelRow))
  | [], frame, inputs =>
    -- nothing eligible to score
    return .ok (if h : inputs = [] then none else some ⟨entityKey, frame, inputs, h⟩)
  | dep :: deps, frame, inputs =>
    match dependencyVersion byName dep with
    | .error e => return .error e
    | .ok version => do
      match ← getPit entityKey dep.feature version view viewVersion observationTs safetyGap with
      | .error e => return .error e
      | .ok none => if dep.required then return .ok none else rowLoop entityKey deps frame inputs
      | .ok (some record) =>
        match FeatureRef.ofFields dep.feature version with
        | .error e => return .error e
        | .ok ref =>
          rowLoop entityKey deps (Dict.set frame dep.feature record.result.value)
            (inputs ++ [inputTuple sha256 ref record.result])

def buildRow (feature : FeatureDef) (entityKey : EntityKey) : Program (Except PyErr (Option ModelRow)) :=
  rowLoop sha256 view viewVersion byName observationTs safetyGap entityKey feature.deps [] []

/-- The rows of the entities that have one, and the number of the others. -/
def buildRows (feature : FeatureDef) : List EntityKey → List ModelRow → Nat →
    Program (Except PyErr (List ModelRow × Nat))
  | [], rows, skipped => return .ok (rows, skipped)
  | entityKey :: entityKeys, rows, skipped => do
    match ← buildRow sha256 view viewVersion byName observationTs safetyGap feature entityKey with
    | .error e => return .error e
    | .ok none => buildRows feature entityKeys rows (skipped + 1)
    | .ok (some row) => buildRows feature entityKeys (rows ++ [row]) skipped

end

/-! ## Results -/

def ModelRow.minInputTs (row : ModelRow) : Int :=
  row.inputs.tail.foldl (fun m i => min m i.2.1) (row.inputs.head row.scored).2.1

def ModelRow.maxInputTs (row : ModelRow) : Int :=
  row.inputs.tail.foldl (fun m i => max m i.2.1) (row.inputs.head row.scored).2.1

/-- The fingerprint is over the inputs and the pinned model. -/
def modelResult (sha256 : Sha256) (ref : FeatureRef) (model : ModelRef) (observationTs : Int) (row : ModelRow)
    (prediction : Value) : FeatureResult where
  ref := ref
  entityKey := row.entityKey
  value := prediction
  dataTs := ModelRow.minInputTs row
  calcTs := observationTs
  maxInputDataTs := some (ModelRow.maxInputTs row)
  inputFingerprint := some (inputFingerprint sha256
    (row.inputs ++ [(s!"model:{model.uri}#{model.outputName}", ModelRow.minInputTs row, model.digest)]))
  valueHash := some (valueHash sha256 prediction)
  modelUri := some model.uri
  modelDigest := some model.digest
  modelOutputName := some model.outputName

/-- The model is not called without a row. -/
def predictAll (model : ModelRef) (rows : List ModelRow) : Program (Except PyErr (List Value)) :=
  if rows = [] then return .ok []
  else predict model (rows.map (·.frame))

def computeModelFeatureBatch (registry : Registry) (sha256 : Sha256) (view : String) (viewVersion : Int)
    (featureName : String) (entityKeys : List EntityKey) (observationTs safetyGap : Int)
    (emitSource : FeatureUpdateSource) : Program (Except PyErr ModelFeatureBatchResult) :=
  match findView? registry view viewVersion with
  | none => return .error (.valueError s!"unknown view {reprStr view} version {viewVersion}")
  | some viewDef =>
    let byName := featuresByName viewDef.features
    match resolveModelFeature viewDef featureName with
    | .error e => return .error e
    | .ok (feature, spec) =>
      let model : ModelRef := ⟨spec.uri, spec.digest, spec.outputName⟩
      match inputFeatureRefs byName feature.deps with
      | .error e => return .error e
      | .ok refs => do
        match ← buildRows sha256 view viewVersion byName observationTs safetyGap feature entityKeys [] 0 with
        | .error e => return .error e
        | .ok (rows, skipped) =>
          match ← predictAll model rows with
          | .error e => return .error e
          | .ok predictions =>
            if predictions.length ≠ rows.length then
              return .error (.valueError
                s!"model runner returned {predictions.length} predictions for {rows.length} rows")
            else
              let results := List.zipWith (modelResult sha256 feature.ref model observationTs) rows predictions
              match ← appendNew view viewVersion results with
              | .error e => return .error e
              | .ok duplicates =>
                match ← emitFeatureUpdates .updated viewDef results viewDef.entity emitSource with
                | .error e => return .error e
                | .ok downstream =>
                  return .ok {
                    feature := featureName
                    featureVersion := feature.featureVersion
                    model
                    inputFeatureRefs := refs
                    planned := entityKeys.length
                    computed := results.length
                    skipped
                    duplicatesSkipped := duplicates
                    downstreamEmitted := downstream }

/-! ## Every entity is computed or skipped -/

section
variable {sha256 : Sha256} {view : String} {viewVersion : Int} {byName : List (String × FeatureDef)}
  {observationTs safetyGap : Int}

variable {S : Type} {env : Prog.Env (RunnerCall PropagationRecord Unit ModelOwn) (RunnerCall.Ans ModelOwn.Ans) S} {s s' : S}

theorem buildRows_counts {feature : FeatureDef} : ∀ {entityKeys : List EntityKey} {rows : List ModelRow} {skipped : Nat}
    {s : S} {rows' : List ModelRow} {skipped' : Nat},
    Prog.Returns env s (buildRows sha256 view viewVersion byName observationTs safetyGap feature entityKeys rows skipped)
      s' (.ok (rows', skipped')) →
    rows'.length + skipped' = rows.length + skipped + entityKeys.length
  | [], rows, skipped, s, rows', skipped', h => by
    obtain ⟨-, h⟩ := Prog.returns_pure.mp h
    cases h
    rfl
  | entityKey :: entityKeys, rows, skipped, s, rows', skipped', h => by
    obtain ⟨s₁, out, -, h⟩ := Prog.returns_bind.mp h
    rcases out with e | _ | row
    · cases (Prog.returns_pure.mp h).2
    · have hcount := buildRows_counts h
      rw [List.length_cons]
      omega
    · have hcount := buildRows_counts h
      rw [List.length_append, List.length_singleton] at hcount
      rw [List.length_cons]
      omega

/-- However the stores, the model and the broker answer. -/
theorem computeModelFeatureBatch_counts {registry : Registry} {featureName : String} {entityKeys : List EntityKey}
    {emitSource : FeatureUpdateSource} {out : ModelFeatureBatchResult}
    (h : Prog.Returns env s (computeModelFeatureBatch registry sha256 view viewVersion featureName entityKeys
      observationTs safetyGap emitSource) s' (.ok out)) :
    out.planned = entityKeys.length ∧ out.planned = out.computed + out.skipped := by
  unfold computeModelFeatureBatch at h
  cases hview : findView? registry view viewVersion with
  | none =>
    rw [hview] at h
    cases (Prog.returns_pure.mp h).2
  | some viewDef =>
  rw [hview] at h
  dsimp only at h
  rcases hfeature : resolveModelFeature viewDef featureName with e | ⟨feature, spec⟩
  · rw [hfeature] at h
    cases (Prog.returns_pure.mp h).2
  rw [hfeature] at h
  dsimp only at h
  rcases hrefs : inputFeatureRefs (featuresByName viewDef.features) feature.deps with e | refs
  · rw [hrefs] at h
    cases (Prog.returns_pure.mp h).2
  rw [hrefs] at h
  obtain ⟨s₁, e | ⟨rows, skipped⟩, hrows, h⟩ := Prog.returns_bind.mp h
  · cases (Prog.returns_pure.mp h).2
  have hcount := buildRows_counts hrows
  obtain ⟨s₂, e | predictions, -, h⟩ := Prog.returns_bind.mp h
  · cases (Prog.returns_pure.mp h).2
  dsimp only at h
  by_cases hlength : predictions.length ≠ rows.length
  · rw [if_pos hlength] at h
    cases (Prog.returns_pure.mp h).2
  rw [if_neg hlength] at h
  obtain ⟨s₃, e | duplicates, -, h⟩ := Prog.returns_bind.mp h
  · cases (Prog.returns_pure.mp h).2
  obtain ⟨s₄, e | downstream, -, h⟩ := Prog.returns_bind.mp h
  · cases (Prog.returns_pure.mp h).2
  obtain ⟨-, h⟩ := Prog.returns_pure.mp h
  cases h
  refine ⟨rfl, ?_⟩
  dsimp only
  rw [List.length_zipWith, not_not.mp hlength, min_self]
  simp only [List.length_nil, Nat.zero_add] at hcount
  exact hcount.symm

end

end ModelBatch
end ClearFeature
