import ClearFeature.Dedup
import ClearFeature.Eval
import ClearFeature.Raw

/-!
# The local feature store (`fs_core/feature_store.py`)

One call computes the requested features, appends them offline and then writes
them online. Recompute waves compute a dependent from offline history instead.
-/

namespace ClearFeature

structure FeatureStore where
  core : ComputeCore
  resolver : ReportResolver

structure StoreState where
  offline : OfflineStore := []
  online : OnlineStore := []

structure FeatureWriteSet where
  view : String
  viewVersion : Int
  entityKey : EntityKey
  results : List (String × FeatureResult)
  sourceRefs : List (String × String)
  requestId : Option String := none
  jobId : Option String := none
  runId : Option String := none
  correlationId : Option String := none
  writePolicy : String := "online_first"
  nodeStatuses : List (String × NodeStatus) := []

structure ComputeCall where
  view : String
  viewVersion : Int
  entityKey : EntityKey
  requestedFeatures : List String
  sourceRefs : List (String × String)
  sourceStamps : SourceStamps
  calcTs : Int
  writeOnline : Bool := true
  skipDuplicateOffline : Bool := false

/-- Outcomes by feature reference; `none` is `"disabled"`. -/
structure ComputeOutcome where
  results : List (String × FeatureResult)
  onlineWritten : List (String × Option WriteOutcome)
  duplicatesSkipped : Nat
  nodeStatuses : List (String × NodeStatus)

namespace FeatureStore

def expectedTypes (fs : FeatureStore) : List (String × String) :=
  fs.core.registry.sources.foldl (fun d s => Dict.set d s.name s.reportType) []

def loaderOf (fs : FeatureStore) (sourceRefs : List (String × String)) : String → Except PyErr Value :=
  fs.resolver.makeSourceLoader sourceRefs (some fs.expectedTypes)

def computeWriteSet (fs : FeatureStore) (call : ComputeCall)
    (sourceLoader : Option (String → Except PyErr Value)) : Except PyErr FeatureWriteSet := do
  let loader := sourceLoader.getD (fs.loaderOf call.sourceRefs)
  let (results, ctx) ← fs.core.compute call.view call.viewVersion call.entityKey call.requestedFeatures
    ⟨loader, [], [], []⟩ call.sourceStamps call.calcTs
  .ok { view := call.view, viewVersion := call.viewVersion, entityKey := call.entityKey, results,
        sourceRefs := call.sourceRefs, nodeStatuses := ctx.statuses }

def compute (fs : FeatureStore) (call : ComputeCall) (s : StoreState) : Except PyErr (ComputeOutcome × StoreState) := do
  let writeSet ← fs.computeWriteSet call none
  let all := Dict.values writeSet.results
  let (toWrite, skipped) :=
    if call.skipDuplicateOffline then partitionNewResults s.offline call.view call.viewVersion all else (all, 0)
  let offline := s.offline.appendMany call.view call.viewVersion toWrite
  if call.writeOnline then
    let (outcomes, online) := s.online.writeMany call.view call.viewVersion toWrite
    .ok (⟨writeSet.results, outcomes.map fun o => (o.1, some o.2), skipped, writeSet.nodeStatuses⟩, ⟨offline, online⟩)
  else
    let disabled := toWrite.foldl (fun d r => Dict.set d r.ref.encode none) []
    .ok (⟨writeSet.results, disabled, skipped, writeSet.nodeStatuses⟩, ⟨offline, s.online⟩)

/-! ## Recomputing from history -/

/-- `x or y` for an optional text. -/
def orText (x : Option String) (y : String) : String :=
  match x with
  | none => y
  | some s => if s = "" then y else s

/-- The cached entry that stands for an offline row. -/
def prefilled (sha256 : Sha256) (r : FeatureResult) : FeatureComputation where
  value := r.value
  dataTs := r.dataTs
  maxInputDataTs := r.maxInputDataTs.getD r.dataTs
  valueHash := orText r.valueHash (ClearFeature.valueHash sha256 r.value)
  inputFingerprint := orText r.inputFingerprint (ClearFeature.valueHash sha256 r.value)
  status := .ok
  availableAt := r.availableAt
  availabilitySource := r.availabilitySource

section
variable (fs : FeatureStore) (offline : OfflineStore) (view : String) (viewVersion : Int) (entityKey : EntityKey)
  (calcTs safetyGap : Int)

/-- The prefilled entries of the dependencies; `none` when one has no eligible row. -/
def prefillDeps (byName : List (String × FeatureDef)) (featureName : String) : List FeatureDependency →
    RequestContext → Except PyErr (Option RequestContext)
  | [], ctx => .ok (some ctx)
  | dep :: deps, ctx =>
    match Dict.get? byName dep.feature with
    | none =>
      .error (.valueError s!"feature {reprStr featureName} depends on unknown feature {reprStr dep.feature}")
    | some target => do
      let version := dep.version.getD target.featureVersion
      match ← offline.getPit entityKey dep.feature version view viewVersion calcTs safetyGap with
      | none => .ok none
      | some rec =>
        prefillDeps byName featureName deps (ctx.cacheFeature dep.feature (prefilled fs.core.sha256 rec.result))

/-- The loader of a wave: raw sources cannot be read. -/
def noSource (featureName : String) (name : String) : Except PyErr Value :=
  let only := "from offline history (only pure-dependency F2 recompute is supported)"
  .error (.valueError s!"recompute wave for {reprStr featureName} cannot read raw source {reprStr name} {only}")

def computeDependentFromOffline (featureName : String) : Except PyErr (Option FeatureResult) := do
  let viewDef ← fs.core.registry.findView view viewVersion
  let byName := featuresByName viewDef.features
  match Dict.get? byName featureName with
  | none => .error (.valueError s!"unknown feature {reprStr featureName} in view {reprStr view}")
  | some feature =>
    match ← prefillDeps fs offline view viewVersion entityKey calcTs safetyGap byName featureName feature.deps
        ⟨noSource featureName, [], [], []⟩ with
    | none => .ok none
    | some ctx => do
      let (results, _) ← fs.core.compute view viewVersion entityKey [featureName] ctx [] calcTs
      .ok (Dict.get? results featureName)

end

/-! ## A call as a sequence of store writes -/

/-- The writes to the two stores that a call makes, one at a time. -/
inductive StoreWrite where
  | append (r : FeatureResult)
  | online (r : FeatureResult)

def applyWrite (view : String) (viewVersion : Int) (s : StoreState) : StoreWrite → StoreState
  | .append r => { s with offline := s.offline.append view viewVersion r }
  | .online r => { s with online := (s.online.write view viewVersion r).2 }

def toWrite (call : ComputeCall) (writeSet : FeatureWriteSet) (s : StoreState) : List FeatureResult :=
  if call.skipDuplicateOffline then
    (partitionNewResults s.offline call.view call.viewVersion (Dict.values writeSet.results)).1
  else Dict.values writeSet.results

def storeWrites (call : ComputeCall) (rs : List FeatureResult) : List StoreWrite :=
  rs.map .append ++ if call.writeOnline then rs.map .online else []

theorem applyWrite_appends (view : String) (vv : Int) : ∀ (rs : List FeatureResult) (s : StoreState),
    (rs.map StoreWrite.append).foldl (applyWrite view vv) s = { s with offline := s.offline.appendMany view vv rs }
  | [], _ => rfl
  | r :: rs, s => applyWrite_appends view vv rs (applyWrite view vv s (.append r))

theorem applyWrite_onlines (view : String) (vv : Int) : ∀ (rs : List FeatureResult) (s : StoreState),
    (rs.map StoreWrite.online).foldl (applyWrite view vv) s =
      { s with online := rs.foldl (fun vs r => (vs.write view vv r).2) s.online }
  | [], _ => rfl
  | r :: rs, s => applyWrite_onlines view vv rs (applyWrite view vv s (.online r))

/-- A call that succeeds makes exactly its store writes, appends first. -/
theorem compute_writes {fs : FeatureStore} {call : ComputeCall} {s s' : StoreState} {o : ComputeOutcome}
    (h : fs.compute call s = .ok (o, s')) : ∃ writeSet, fs.computeWriteSet call none = .ok writeSet ∧
      o.results = writeSet.results ∧
      s' = (storeWrites call (toWrite call writeSet s)).foldl (applyWrite call.view call.viewVersion) s := by
  simp only [compute, bind_eq_ok] at h
  obtain ⟨writeSet, hw, h⟩ := h
  refine ⟨writeSet, hw, ?_⟩
  have hto : (if call.skipDuplicateOffline then
        partitionNewResults s.offline call.view call.viewVersion (Dict.values writeSet.results)
      else (Dict.values writeSet.results, 0)).1 = toWrite call writeSet s := by
    unfold toWrite
    split <;> rfl
  rw [hto] at h
  unfold storeWrites
  rw [List.foldl_append, applyWrite_appends]
  cases ho : call.writeOnline with
  | true =>
    rw [ho, if_pos rfl] at h
    cases h
    refine ⟨rfl, ?_⟩
    rw [if_pos rfl, applyWrite_onlines, OnlineStore.writeMany_snd]
  | false =>
    rw [ho] at h
    cases h
    exact ⟨rfl, rfl⟩

theorem computeWriteSet_results {fs : FeatureStore} {call : ComputeCall}
    {loader : Option (String → Except PyErr Value)} {writeSet : FeatureWriteSet}
    (h : fs.computeWriteSet call loader = .ok writeSet) :
    (Dict.keys writeSet.results).Nodup ∧ ∃ viewDef, fs.core.findView call.view call.viewVersion = .ok viewDef ∧
      ∀ k r, Dict.get? writeSet.results k = some r → k ∈ call.requestedFeatures ∧ r.entityKey = call.entityKey ∧
        ∃ f, Dict.get? (featuresByName viewDef.features) k = some f ∧ r.ref = f.ref := by
  simp only [computeWriteSet, bind_eq_ok] at h
  obtain ⟨⟨results, ctx⟩, hc, h⟩ := h
  cases h
  refine ⟨compute_nodup hc, ?_⟩
  obtain ⟨viewDef, hv, hr⟩ := compute_sound hc
  refine ⟨viewDef, hv, fun k r hk => ?_⟩
  obtain ⟨hm, c, f, -, hf, rfl⟩ := hr k r hk
  exact ⟨hm, rfl, f, hf, rfl⟩

end FeatureStore

end ClearFeature
