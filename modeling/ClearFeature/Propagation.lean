import ClearFeature.Registry
import ClearFeature.Runner

/-!
# Feature propagation (`fs_core/propagation.py`)

A durable offline write of a feature with reactive dependents is announced; the
planner turns an announcement into recompute candidates, and the debounce store
coalesces candidates for the same entity and dependent.
-/

namespace ClearFeature

inductive FeatureUpdateSource where
  | offlineWriter
  | batchWorker
  | dwhImport
  | tableImport
  | recomputeWave
  deriving DecidableEq, Repr

structure FeatureUpdated where
  entity : EntityRef
  view : String
  viewVersion : Int
  featureName : String
  featureVersion : Int
  dataTs : Int
  calcTs : Int
  source : FeatureUpdateSource
  maxInputDataTs : Option Int := none
  inputFingerprint : Option String := none
  valueHash : Option String := none
  deriving DecidableEq

/-! ## Emitting -/

def findView? (registry : Registry) (view : String) (viewVersion : Int) : Option FeatureViewDef :=
  registry.featureViews.find? fun v => v.name = view ∧ v.viewVersion = viewVersion

/-- Every reactive edge, as input, dependent and edge, in declaration order. -/
def reactiveEdges (viewDef : FeatureViewDef) : List (String × FeatureDef × FeatureDependency) :=
  viewDef.features.flatMap fun f => (f.deps.filter fun d => d.propagation = .reactive).map fun d => (d.feature, f, d)

/-- `reactive_dependents(view_def).get(name, [])`. -/
def reactiveDependents (viewDef : FeatureViewDef) (name : String) : List (String × FeatureDependency) :=
  ((reactiveEdges viewDef).filter fun e => e.1 = name).map fun e => (e.2.1.name, e.2.2)

def featuresWithReactiveDependents (viewDef : FeatureViewDef) : List String := (reactiveEdges viewDef).map Prod.fst

def featureUpdatedOf (viewDef : FeatureViewDef) (entityType : String) (source : FeatureUpdateSource)
    (result : FeatureResult) : FeatureUpdated where
  entity := ⟨entityType, dictOf result.entityKey.parts⟩
  view := viewDef.name
  viewVersion := viewDef.viewVersion
  featureName := result.ref.name
  featureVersion := result.ref.version
  dataTs := result.dataTs
  calcTs := result.calcTs
  source := source
  maxInputDataTs := result.maxInputDataTs
  inputFingerprint := result.inputFingerprint
  valueHash := result.valueHash

def buildFeatureUpdatedEvents (viewDef : FeatureViewDef) (results : List FeatureResult) (entityType : String)
    (source : FeatureUpdateSource) : List FeatureUpdated :=
  (results.filter fun r => r.ref.name ∈ featuresWithReactiveDependents viewDef).map
    (featureUpdatedOf viewDef entityType source)

section
variable {Rec R Own : Type} {OwnAns : Own → Type}

/-- Published one by one under the entity's key; the first failure raises. -/
def publishFeatureUpdates (updated : FeatureUpdated → Rec) : List FeatureUpdated →
    RunnerProg Rec R OwnAns (Except PyErr Unit)
  | [] => return .ok ()
  | event :: events =>
    match event.entity.encoded with
    | .error e => return .error e
    | .ok key => do
      match ← Runner.publish featureUpdates key (updated event) with
      | .error e => return .error e
      | .ok () => publishFeatureUpdates updated events

def emitFeatureUpdates (updated : FeatureUpdated → Rec) (viewDef : FeatureViewDef) (results : List FeatureResult)
    (entityType : String) (source : FeatureUpdateSource) : RunnerProg Rec R OwnAns (Except PyErr Nat) := do
  let events := buildFeatureUpdatedEvents viewDef results entityType source
  match ← publishFeatureUpdates updated events with
  | .error e => return .error e
  | .ok () => return .ok events.length

end

/-! ## Planning -/

structure RecomputeCandidate where
  entity : EntityRef
  view : String
  viewVersion : Int
  dependentFeature : String
  dependentVersion : Int
  changedInputFeature : String
  changedInputVersion : Int
  deriving DecidableEq

/-- The candidate of one reactive edge, if its version pin matches the updated version. -/
def candidateOf (viewDef : FeatureViewDef) (event : FeatureUpdated) (edge : String × FeatureDependency) :
    Option RecomputeCandidate :=
  match Dict.get? (featuresByName viewDef.features) edge.1 with
  | none => none
  | some dependent =>
    if edge.2.version.getD event.featureVersion ≠ event.featureVersion then none
    else some {
      entity := event.entity
      view := event.view
      viewVersion := event.viewVersion
      dependentFeature := edge.1
      dependentVersion := dependent.featureVersion
      changedInputFeature := event.featureName
      changedInputVersion := event.featureVersion }

def planRecomputeWave (registry : Registry) (event : FeatureUpdated) : List RecomputeCandidate :=
  match findView? registry event.view event.viewVersion with
  | none => []
  | some viewDef =>
    ((reactiveDependents viewDef event.featureName).filterMap (candidateOf viewDef event)).insertionSort
      fun a b => a.dependentFeature < b.dependentFeature ∨
        a.dependentFeature = b.dependentFeature ∧ a.dependentVersion ≤ b.dependentVersion

/-! ## Debounce -/

structure DebounceKey where
  entityType : String
  encoded : String
  view : String
  viewVersion : Int
  dependentFeature : String
  dependentVersion : Int
  deriving DecidableEq

structure DebounceEntry where
  entity : EntityRef
  view : String
  viewVersion : Int
  dependentFeature : String
  dependentVersion : Int
  latestDataTs : Int
  latestCalcTs : Int
  count : Nat := 1
  deriving DecidableEq

abbrev DebounceStore := List (DebounceKey × DebounceEntry)

def debounceKey (candidate : RecomputeCandidate) (encoded : String) : DebounceKey where
  entityType := candidate.entity.entityType
  encoded := encoded
  view := candidate.view
  viewVersion := candidate.viewVersion
  dependentFeature := candidate.dependentFeature
  dependentVersion := candidate.dependentVersion

namespace DebounceStore

/-- A repeat for the same key coalesces and moves the watermark to the freshest update. -/
def observe (entries : DebounceStore) (key : DebounceKey) (candidate : RecomputeCandidate) (dataTs calcTs : Int) :
    DebounceStore :=
  match Dict.get? entries key with
  | none =>
    Dict.set entries key {
      entity := candidate.entity
      view := candidate.view
      viewVersion := candidate.viewVersion
      dependentFeature := candidate.dependentFeature
      dependentVersion := candidate.dependentVersion
      latestDataTs := dataTs
      latestCalcTs := calcTs }
  | some entry =>
    Dict.set entries key
      (if entry.latestDataTs ≤ dataTs then
        { entry with count := entry.count + 1, latestDataTs := dataTs, latestCalcTs := calcTs }
      else { entry with count := entry.count + 1 })

section
variable {entries : DebounceStore} (key : DebounceKey) (c : RecomputeCandidate) (dataTs calcTs : Int)

/-- What holds of a fresh entry and does not depend on the watermark holds of all entries. -/
theorem observe_preserves {P : DebounceKey → DebounceEntry → Prop}
    (hentries : ∀ k entry, Dict.get? entries k = some entry → P k entry)
    (hfresh : P key ⟨c.entity, c.view, c.viewVersion, c.dependentFeature, c.dependentVersion, dataTs, calcTs, 1⟩)
    (hmove : ∀ entry count d t, P key entry →
      P key { entry with count := count, latestDataTs := d, latestCalcTs := t }) :
    ∀ k entry, Dict.get? (entries.observe key c dataTs calcTs) k = some entry → P k entry := by
  intro k entry h
  unfold observe at h
  cases hk : Dict.get? entries key with
  | none =>
    rw [hk] at h
    dsimp only at h
    rw [Dict.get?_set] at h
    split at h
    · rename_i he
      subst he
      cases h
      exact hfresh
    · exact hentries k entry h
  | some old =>
    rw [hk] at h
    dsimp only at h
    rw [Dict.get?_set] at h
    split at h
    · rename_i he
      subst he
      cases h
      split
      · exact hmove old _ _ _ (hentries key old hk)
      · exact hmove old _ old.latestDataTs old.latestCalcTs (hentries key old hk)
    · exact hentries k entry h

theorem observe_keeps {k : DebounceKey} (h : (Dict.get? entries k).isSome) :
    (Dict.get? (entries.observe key c dataTs calcTs) k).isSome := by
  unfold observe
  cases Dict.get? entries key with
  | none =>
    dsimp only
    rw [Dict.get?_set]
    split
    · rfl
    · exact h
  | some old =>
    dsimp only
    rw [Dict.get?_set]
    split
    · rfl
    · exact h

theorem observe_adds (entries : DebounceStore) : (Dict.get? (entries.observe key c dataTs calcTs) key).isSome := by
  unfold observe
  cases Dict.get? entries key with
  | none =>
    dsimp only
    rw [Dict.get?_set_self]
    rfl
  | some old =>
    dsimp only
    rw [Dict.get?_set_self]
    rfl

end

end DebounceStore

end ClearFeature
