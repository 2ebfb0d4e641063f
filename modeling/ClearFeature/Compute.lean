import ClearFeature.Hashing
import ClearFeature.Registry

/-!
# ComputeCore (`fs_core/compute/`)

Requested features are resolved by recursion over their dependencies, with a
request context that caches source payloads, computed features and skipped
features. A skipped feature has no computation.
-/

namespace ClearFeature

inductive NodeStatus where
  | ok
  | degraded
  | skipped
  deriving DecidableEq, Repr

structure FeatureComputation where
  value : Value
  dataTs : Int
  maxInputDataTs : Int
  valueHash : String
  inputFingerprint : String
  status : NodeStatus := .ok
  availableAt : Option Int := none
  availabilitySource : Option AvailabilitySource := none

structure RequestContext where
  sourceLoader : String → Except PyErr Value
  sources : List (String × Value) := []
  features : List (String × FeatureComputation) := []
  statuses : List (String × NodeStatus) := []

namespace RequestContext

def getSource (ctx : RequestContext) (name : String) : Except PyErr (Value × RequestContext) :=
  match Dict.get? ctx.sources name with
  | some v => .ok (v, ctx)
  | none => do
    let v ← ctx.sourceLoader name
    .ok (v, { ctx with sources := Dict.set ctx.sources name v })

def isSkipped (ctx : RequestContext) (name : String) : Bool := Dict.get? ctx.statuses name = some .skipped

def cacheFeature (ctx : RequestContext) (name : String) (c : FeatureComputation) : RequestContext :=
  { ctx with features := Dict.set ctx.features name c, statuses := Dict.set ctx.statuses name c.status }

def markSkipped (ctx : RequestContext) (name : String) : RequestContext :=
  { ctx with statuses := Dict.set ctx.statuses name .skipped }

end RequestContext

/-! ## User functions -/

/-- `(sources, deps) -> value`; a value outside JSON is refused by `canonical_value_json`, a `ValueError`. -/
abbrev Udf := List (String × Value) → List (String × Value) → Except PyErr Value

structure ComputeCore where
  registry : Registry
  udfs : List (String × Udf)
  sha256 : Sha256

def ComputeCore.getUdf (core : ComputeCore) (udfId : String) : Except PyErr Udf :=
  match Dict.get? core.udfs udfId with
  | some udf => .ok udf
  | none => .error (.valueError s!"unknown udf id {reprStr udfId}")

/-! ## One node -/

/-- The largest number of seconds a `timedelta` can hold. -/
def maxTimedeltaSeconds : Int := 86399999999999

def edgeIsStale (dep : FeatureDependency) (inputDataTs calcTs : Int) : Except PyErr Bool :=
  match dep.maxInputAgeSeconds with
  | none => .ok false
  | some age =>
    if age > maxTimedeltaSeconds then .error (.other "OverflowError" "timedelta out of range")
    else .ok (decide (calcTs - inputDataTs > age * 1000000))

structure InputRow where
  id : String
  dataTs : Int
  valueHash : String
  availableAt : Option Int
  availabilitySource : Option AvailabilitySource

def InputRow.tuple (row : InputRow) : InputTuple := (row.id, row.dataTs, row.valueHash)

abbrev SourceStamps := List (String × SourceStamp)

def stampRow (src : String) (stamp : SourceStamp) : InputRow :=
  ⟨s!"source:{src}", stamp.reportTs, stamp.contentHash, stamp.availableAt, stamp.availabilitySource⟩

def depRow (f : FeatureDef) (c : FeatureComputation) : InputRow :=
  ⟨f.ref.encode, c.dataTs, c.valueHash, c.availableAt, c.availabilitySource⟩

def sourceRows (name : String) (stamps : SourceStamps) : List String → Except PyErr (List InputRow)
  | [] => .ok []
  | src :: srcs =>
    match Dict.get? stamps src with
    | none =>
      let missing := "but no source stamp (report_ts/content_hash) was provided for it"
      .error (.valueError s!"feature {reprStr name} reads source {reprStr src} {missing}")
    | some stamp => do
      let rows ← sourceRows name stamps srcs
      .ok (stampRow src stamp :: rows)

def depRows (byName : List (String × FeatureDef)) : List (String × FeatureComputation) →
    Except PyErr (List InputRow)
  | [] => .ok []
  | (dep, c) :: comps =>
    match Dict.get? byName dep with
    | none => .error (.keyError (reprStr dep))
    | some f => do
      let rows ← depRows byName comps
      .ok (depRow f c :: rows)

def minTs (t : Int) (rows : List InputRow) : Int := rows.foldl (fun m row => min m row.dataTs) t

def maxTs (t : Int) (rows : List InputRow) : Int := rows.foldl (fun m row => max m row.dataTs) t

/-- The latest availability, if every input has one. -/
def maxAvailable : List InputRow → Option Int
  | [] => none
  | [row] => row.availableAt
  | row :: row₂ :: rows =>
    match row.availableAt, maxAvailable (row₂ :: rows) with
    | some a, some b => some (max a b)
    | _, _ => none

/-- The computation of a value from its input rows, the first of which is `row`. -/
def computedFrom (sha256 : Sha256) (value : Value) (row : InputRow) (rest : List InputRow) (degraded : Bool) :
    FeatureComputation :=
  let rows := row :: rest
  let available := maxAvailable rows
  let trusted := available.isSome && rows.all fun r => r.availabilitySource = some .sourceProvided
  { value
    dataTs := minTs row.dataTs rest
    maxInputDataTs := maxTs row.dataTs rest
    valueHash := valueHash sha256 value
    inputFingerprint := inputFingerprint sha256 (rows.map InputRow.tuple)
    status := if degraded then .degraded else .ok
    availableAt := available
    availabilitySource :=
      if trusted then some .sourceProvided else if available.isSome then some .ingestionTime else none }

/-- The minimum is taken first; `to_epoch_us` raises for an input time that UTC does not have. -/
def computation (sha256 : Sha256) (value : Value) (rows : List InputRow) (degraded : Bool) :
    Except PyErr FeatureComputation :=
  match rows with
  | [] => .error (.valueError "min() iterable argument is empty")
  | row :: rest =>
    if ∃ r ∈ row :: rest, ¬ InUtcYears r.dataTs then .error (.other "OverflowError" "date value out of range")
    else .ok (computedFrom sha256 value row rest degraded)

theorem computation_ok {sha256 : Sha256} {value : Value} {rows : List InputRow} {degraded : Bool}
    {c : FeatureComputation} (h : computation sha256 value rows degraded = .ok c) :
    (∀ r ∈ rows, InUtcYears r.dataTs) ∧ ∃ row rest, rows = row :: rest ∧ c = computedFrom sha256 value row rest degraded := by
  cases rows with
  | nil => cases h
  | cons row rest =>
    simp only [computation] at h
    split at h
    · cases h
    · rename_i hin
      cases h
      exact ⟨fun r hm => Decidable.byContradiction fun hr => hin ⟨r, hm, hr⟩, row, rest, rfl, rfl⟩

def finishNode (core : ComputeCore) (byName : List (String × FeatureDef)) (stamps : SourceStamps)
    (feature : FeatureDef) (sources : List (String × Value)) (comps : List (String × FeatureComputation))
    (degraded : Bool) : Except PyErr FeatureComputation := do
  let srcRows ← sourceRows feature.name stamps feature.inputs
  let comRows ← depRows byName comps
  let udf ← core.getUdf feature.udf
  let value ← udf sources (comps.map fun c => (c.1, c.2.value))
  computation core.sha256 value (srcRows ++ comRows) degraded

/-! ## Resolution -/

def loadSources (acc : List (String × Value)) : List String → RequestContext →
    Except PyErr (List (String × Value) × RequestContext)
  | [], ctx => .ok (acc, ctx)
  | src :: srcs, ctx => do
    let (v, ctx) ← ctx.getSource src
    loadSources (Dict.set acc src v) srcs ctx

abbrev DepState := List (String × FeatureComputation) × Bool

/-- The effect of one resolved dependency; `none` skips the feature. -/
def addDep (calcTs : Int) (dep : FeatureDependency) (comp : Option FeatureComputation) (st : DepState) :
    Except PyErr (Option DepState) :=
  match comp with
  | none => .ok (if dep.required then none else some (st.1, true))
  | some c => do
    let stale ← edgeIsStale dep c.dataTs calcTs
    .ok (if stale && dep.required then none
      else some (Dict.set st.1 dep.feature c, st.2 || stale || decide (c.status = .degraded)))

def resolveDeps (rec : String → RequestContext → Except PyErr (Option FeatureComputation × RequestContext))
    (calcTs : Int) : List FeatureDependency → DepState → RequestContext →
    Except PyErr (Option DepState × RequestContext)
  | [], st, ctx => .ok (some st, ctx)
  | dep :: deps, st, ctx => do
    let (comp, ctx) ← rec dep.feature ctx
    match ← addDep calcTs dep comp st with
    | none => .ok (none, ctx)
    | some st => resolveDeps rec calcTs deps st ctx

/-- `_resolve`; the fuel bounds the recursion. -/
def ComputeCore.resolve (core : ComputeCore) (byName : List (String × FeatureDef)) (stamps : SourceStamps)
    (calcTs : Int) : Nat → List String → String → RequestContext →
    Except PyErr (Option FeatureComputation × RequestContext)
  | 0, _, _, _ => .error (.other "RecursionError" "maximum recursion depth exceeded")
  | fuel + 1, visiting, name, ctx =>
    match Dict.get? ctx.features name with
    | some c => .ok (some c, ctx)
    | none =>
      if ctx.isSkipped name then .ok (none, ctx)
      else match Dict.get? byName name with
        | none => .error (.valueError s!"unknown feature {reprStr name}")
        | some feature =>
          if name ∈ visiting then
            let cycle := " -> ".intercalate (visiting ++ [name])
            .error (.valueError s!"dependency cycle detected: {cycle}")
          else do
            let (sources, ctx) ← loadSources [] feature.inputs ctx
            let (out, ctx) ← resolveDeps (core.resolve byName stamps calcTs fuel (visiting ++ [name])) calcTs
              feature.deps ([], false) ctx
            match out with
            | none => .ok (none, ctx.markSkipped name)
            | some (comps, degraded) => do
              let c ← finishNode core byName stamps feature sources comps degraded
              .ok (some c, ctx.cacheFeature name c)

/-! ## A request -/

def FeatureComputation.result (c : FeatureComputation) (ref : FeatureRef) (entityKey : EntityKey)
    (calcTs : Int) : FeatureResult where
  ref := ref
  entityKey := entityKey
  value := c.value
  dataTs := c.dataTs
  calcTs := calcTs
  maxInputDataTs := some c.maxInputDataTs
  inputFingerprint := some c.inputFingerprint
  valueHash := some c.valueHash
  availableAt := c.availableAt
  availabilitySource := c.availabilitySource

def ComputeCore.findView (core : ComputeCore) (view : String) (viewVersion : Int) :
    Except PyErr FeatureViewDef :=
  match core.registry.featureViews.find? (·.name = view) with
  | none => .error (.valueError s!"unknown view {reprStr view}")
  | some v => do
    raiseIf (v.viewVersion ≠ viewVersion)
      s!"view {reprStr view} version mismatch: requested {viewVersion}, registry has {v.viewVersion}"
    .ok v

def ComputeCore.computeLoop (core : ComputeCore) (byName : List (String × FeatureDef)) (fuel : Nat)
    (entityKey : EntityKey) (stamps : SourceStamps) (calcTs : Int) :
    List String → List (String × FeatureResult) → RequestContext →
    Except PyErr (List (String × FeatureResult) × RequestContext)
  | [], results, ctx => .ok (results, ctx)
  | name :: names, results, ctx => do
    let (comp, ctx) ← core.resolve byName stamps calcTs fuel [] name ctx
    match comp with
    | none => core.computeLoop byName fuel entityKey stamps calcTs names results ctx
    | some c =>
      match Dict.get? byName name with
      | none => .error (.keyError (reprStr name))
      | some f =>
        core.computeLoop byName fuel entityKey stamps calcTs names
          (Dict.set results name (c.result f.ref entityKey calcTs)) ctx

/-- Recursion passes through distinct features of the view, so this fuel suffices. -/
def FeatureViewDef.fuel (view : FeatureViewDef) : Nat := view.features.length + 1

def ComputeCore.compute (core : ComputeCore) (view : String) (viewVersion : Int) (entityKey : EntityKey)
    (requestedFeatures : List String) (ctx : RequestContext) (stamps : SourceStamps) (calcTs : Int) :
    Except PyErr (List (String × FeatureResult) × RequestContext) := do
  let viewDef ← core.findView view viewVersion
  core.computeLoop (featuresByName viewDef.features) viewDef.fuel entityKey stamps calcTs requestedFeatures [] ctx

end ClearFeature
