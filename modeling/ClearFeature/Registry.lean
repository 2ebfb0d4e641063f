import ClearFeature.Models

/-!
# Registry contract (`fs_core/registry/models.py`)

Each definition is the record of its fields together with the proof that its
`__post_init__` accepts them, so a definition that exists is well formed.
-/

namespace ClearFeature

def defaultDependencyDepthCap : Nat := 3

def maxDependencyDepthCap : Nat := 5

inductive Propagation where
  | lazy
  | reactive
  | scheduled
  | never
  deriving DecidableEq, Repr

inductive Lifecycle where
  | draft
  | shadow
  | live
  | deprecated
  deriving DecidableEq, Repr

def Lifecycle.text : Lifecycle → String
  | .draft => "draft"
  | .shadow => "shadow"
  | .live => "live"
  | .deprecated => "deprecated"

/-- `ALLOWED_DEPENDENCY_LIFECYCLES`, each set in sorted order. -/
def allowedDependencyLifecycles : Lifecycle → List Lifecycle
  | .live => [.live]
  | .shadow => [.live, .shadow]
  | .draft => [.draft, .live, .shadow]
  | .deprecated => [.deprecated, .draft, .live, .shadow]

/-- `s.strip().lower()`; only ASCII letters can lower to the tokens it is compared with. -/
def stripLower (s : String) : String :=
  String.ofList ((((s.toList.dropWhile isSpace).reverse.dropWhile isSpace).reverse).map Char.toLower)

def normalizeLifecycle (status : String) : Option Lifecycle :=
  let token := stripLower status
  if token = "draft" then some .draft
  else if token = "shadow" then some .shadow
  else if token = "live" ∨ token = "active" then some .live
  else if token = "deprecated" ∨ token = "inactive" ∨ token = "disabled" then some .deprecated
  else none

/-- `_check_no_empty_or_duplicate`, the names in front of `names` being `seen`. -/
def checkNoEmptyOrDuplicate (ctx : String) : List String → List String → Except PyErr Unit
  | _, [] => .ok ()
  | seen, name :: names => do
    raiseIf (isBlank name) s!"{ctx} must not contain empty names"
    raiseIf (name ∈ seen) s!"{ctx} has duplicate name {reprStr name}"
    checkNoEmptyOrDuplicate ctx (name :: seen) names

/-! ## Entities and sources -/

structure EntityFields where
  name : String
  keyFields : List String
  deriving DecidableEq

def EntityFields.check (e : EntityFields) : Except PyErr Unit := do
  raiseIf (isBlank e.name) "entity name must be non-empty"
  raiseIf (e.keyFields = []) s!"entity {reprStr e.name} must have at least one key field"
  checkNoEmptyOrDuplicate s!"entity {reprStr e.name} key_fields" [] e.keyFields

structure EntityDef extends EntityFields where
  ok : toEntityFields.check = .ok ()
  deriving DecidableEq

structure SourceFields where
  name : String
  type : String
  reportType : String
  tsField : String
  deriving DecidableEq

def SourceFields.check (s : SourceFields) : Except PyErr Unit := do
  raiseIf (isBlank s.name) "source name must be non-empty"
  let only := reprStr "raw_report"
  raiseIf (s.type ≠ "raw_report")
    s!"source {reprStr s.name} has unsupported type {reprStr s.type}; only {only} is supported in the MVP"
  raiseIf (isBlank s.reportType) s!"source {reprStr s.name} must have a report_type"
  raiseIf (isBlank s.tsField) s!"source {reprStr s.name} must have a ts_field"

structure SourceDef extends SourceFields where
  ok : toSourceFields.check = .ok ()
  deriving DecidableEq

/-! ## Features -/

structure DependencyFields where
  feature : String
  version : Option Int := none
  required : Bool := true
  maxInputAgeSeconds : Option Int := none
  propagation : Propagation := .lazy
  deriving DecidableEq

def DependencyFields.check (d : DependencyFields) : Except PyErr Unit := do
  raiseIf (isBlank d.feature) "feature dependency must name a feature"
  raiseIf (∃ v ∈ d.version, v < 1) s!"dependency on {reprStr d.feature} must pin an explicit version >= 1"
  raiseIf (∃ a ∈ d.maxInputAgeSeconds, a < 0) s!"dependency on {reprStr d.feature} max_input_age_seconds must be >= 0"

structure FeatureDependency extends DependencyFields where
  ok : toDependencyFields.check = .ok ()
  deriving DecidableEq

structure ModelSpecFields where
  uri : String
  digest : String
  outputName : String
  runner : Option String := none
  batchOnly : Bool := true
  deriving DecidableEq

def ModelSpecFields.check (m : ModelSpecFields) : Except PyErr Unit := do
  raiseIf (isBlank m.uri) "model feature must declare a model uri"
  raiseIf (isBlank m.digest) "model feature must declare a model digest"
  raiseIf (isBlank m.outputName) "model feature must declare a model output_name"
  raiseIf (m.batchOnly = false) "model feature must be batch_only=True; online F3 is not supported in beta"

structure ModelSpec extends ModelSpecFields where
  ok : toModelSpecFields.check = .ok ()
  deriving DecidableEq

inductive FeatureKind where
  | udf
  | modelScore
  | model
  deriving DecidableEq, Repr

def FeatureKind.text : FeatureKind → String
  | .udf => "udf"
  | .modelScore => "model_score"
  | .model => "model"

structure FeatureFields where
  name : String
  kind : FeatureKind
  featureVersion : Int
  udf : String
  dtype : String
  status : String
  inputs : List String := []
  deps : List FeatureDependency := []
  model : Option ModelSpec := none
  description : Option String := none
  deriving DecidableEq

def checkLifecycle (n status : String) : Except PyErr Lifecycle :=
  let expected := "['draft', 'shadow', 'live', 'deprecated'] (legacy 'active'/'inactive' ok)"
  match normalizeLifecycle status with
  | some l => .ok l
  | none =>
    .error (.valueError s!"feature {n} has unknown lifecycle/status {reprStr status}; expected one of {expected}")

def FeatureFields.checkKind (f : FeatureFields) (n : String) : Except PyErr Unit :=
  match f.kind with
  | .udf => do
    raiseIf (isBlank f.udf) s!"feature {n} must reference a udf"
    raiseIf (f.inputs = [] ∧ f.deps = []) s!"feature {n} must have at least one input or dependency"
  | .model => do
    raiseIf (f.model = none) s!"model feature {n} must declare a model spec"
    raiseIf (isBlank f.udf = false) s!"model feature {n} must not reference a udf"
    raiseIf (f.inputs ≠ [])
      s!"model feature {n} must not read raw sources; declare its input feature refs as deps"
    raiseIf (f.deps = []) s!"model feature {n} must declare at least one input feature (deps)"
  | .modelScore =>
    raiseIf (f.inputs ≠ [] ∨ f.deps ≠ []) s!"model_score feature {n} must not have inputs or deps"

/-- `__post_init__`: the accepted status gives the lifecycle. -/
def FeatureFields.check (f : FeatureFields) : Except PyErr Lifecycle := do
  let n := reprStr f.name
  raiseIf (isBlank f.name) "feature name must be non-empty"
  raiseIf (f.featureVersion < 1) s!"feature {n} version must be >= 1"
  raiseIf (isBlank f.dtype) s!"feature {n} must have a dtype"
  raiseIf (isBlank f.status) s!"feature {n} must have a status"
  let lifecycle ← checkLifecycle n f.status
  raiseIf (f.kind ≠ .model ∧ f.model ≠ none)
    s!"feature {n} of kind {reprStr f.kind.text} must not declare a model spec"
  f.checkKind n
  pure lifecycle

structure FeatureDef extends FeatureFields where
  lifecycle : Lifecycle
  ok : toFeatureFields.check = .ok lifecycle
  deriving DecidableEq

theorem FeatureFields.check_ok {f : FeatureFields} {l : Lifecycle} (h : f.check = .ok l) :
    isBlank f.name = false ∧ 1 ≤ f.featureVersion ∧ ∃ n, f.checkKind n = .ok () := by
  simp only [FeatureFields.check, bind_eq_ok, raiseIf_eq_ok] at h
  obtain ⟨_, hn, _, hv, _, _, _, _, _, _, _, _, _, hk, _⟩ := h
  exact ⟨by simpa using hn, by omega, _, hk⟩

theorem FeatureDef.name_ok (f : FeatureDef) : isBlank f.name = false := (FeatureFields.check_ok f.ok).1

theorem FeatureDef.version_ok (f : FeatureDef) : 1 ≤ f.featureVersion := (FeatureFields.check_ok f.ok).2.1

/-- A feature that is computed reads something. -/
theorem FeatureDef.reads (f : FeatureDef) (hk : f.kind = .udf) : f.inputs ≠ [] ∨ f.deps ≠ [] := by
  obtain ⟨n, h⟩ := (FeatureFields.check_ok f.ok).2.2
  simp only [FeatureFields.checkKind, hk, bind_eq_ok, raiseIf_eq_ok] at h
  obtain ⟨_, _, h⟩ := h
  exact Decidable.not_and_iff_or_not.mp h

def FeatureDef.ref (f : FeatureDef) : FeatureRef := ⟨f.name, f.featureVersion, f.name_ok, f.version_ok⟩

/-! ## Views and the registry -/

structure ViewFields where
  name : String
  entity : String
  keyFields : List String
  viewVersion : Int
  owner : String
  status : String
  features : List FeatureDef
  featureGroups : List (String × List String) := []
  maxDependencyDepth : Option Nat := none
  deriving DecidableEq

def checkGroups (n : String) : List (String × List String) → Except PyErr Unit
  | [] => .ok ()
  | (groupName, groupFeatures) :: groups => do
    raiseIf (isBlank groupName) s!"feature view {n} has an empty feature group name"
    raiseIf (groupFeatures = []) s!"feature group {reprStr groupName} in view {n} must be non-empty"
    checkNoEmptyOrDuplicate s!"feature group {reprStr groupName} in view {n}" [] groupFeatures
    checkGroups n groups

def ViewFields.check (v : ViewFields) : Except PyErr Unit := do
  let n := reprStr v.name
  raiseIf (isBlank v.name) "feature view name must be non-empty"
  raiseIf (isBlank v.entity) s!"feature view {n} must reference an entity"
  raiseIf (v.keyFields = []) s!"feature view {n} must have key_fields"
  checkNoEmptyOrDuplicate s!"view {n} key_fields" [] v.keyFields
  raiseIf (v.viewVersion < 1) s!"feature view {n} version must be >= 1"
  raiseIf (isBlank v.owner) s!"feature view {n} must have an owner"
  raiseIf (isBlank v.status) s!"feature view {n} must have a status"
  raiseIf (v.features = []) s!"feature view {n} must have at least one feature"
  let depth := v.maxDependencyDepth.getD 1
  raiseIf (¬ (1 ≤ depth ∧ depth ≤ maxDependencyDepthCap))
    s!"feature view {n} max_dependency_depth {depth} must be 1..{maxDependencyDepthCap}"
  checkGroups n v.featureGroups

structure FeatureViewDef extends ViewFields where
  ok : toViewFields.check = .ok ()
  groups_nodup : (Dict.keys toViewFields.featureGroups).Nodup
  deriving DecidableEq

structure RegistryFields where
  registryVersion : String
  entities : List EntityDef
  sources : List SourceDef
  featureViews : List FeatureViewDef
  deriving DecidableEq

def RegistryFields.check (r : RegistryFields) : Except PyErr Unit := do
  raiseIf (isBlank r.registryVersion) "registry_version must be non-empty"
  raiseIf (r.entities = []) "registry must define at least one entity"
  raiseIf (r.sources = []) "registry must define at least one source"
  raiseIf (r.featureViews = []) "registry must define at least one feature view"

structure Registry extends RegistryFields where
  ok : toRegistryFields.check = .ok ()
  deriving DecidableEq

def Registry.findView (r : Registry) (name : String) (version : Int) : Except PyErr FeatureViewDef :=
  match r.featureViews.find? fun v => v.name = name ∧ v.viewVersion = version with
  | some v => .ok v
  | none => .error (.valueError s!"unknown view {reprStr name} version {version}")

/-- The dict comprehension `{f.name: f for f in view.features}` used as a lookup. -/
def featuresByName (fs : List FeatureDef) : List (String × FeatureDef) :=
  fs.foldl (fun d f => Dict.set d f.name f) []

theorem featuresByName_name {fs : List FeatureDef} {k : String} {f : FeatureDef}
    (h : Dict.get? (featuresByName fs) k = some f) : f ∈ fs ∧ f.name = k := by
  have key : ∀ (fs : List FeatureDef) (d : List (String × FeatureDef)),
      Dict.get? (fs.foldl (fun d f => Dict.set d f.name f) d) k = some f →
      f ∈ fs ∧ f.name = k ∨ Dict.get? d k = some f := by
    intro fs
    induction fs with
    | nil => intro d h; exact .inr h
    | cons g fs ih =>
      intro d h
      rcases ih _ h with ⟨hm, e⟩ | h
      · exact .inl ⟨List.mem_cons_of_mem _ hm, e⟩
      · rw [Dict.get?_set] at h
        by_cases e : g.name = k
        · rw [if_pos e] at h
          cases h
          exact .inl ⟨List.mem_cons_self, e⟩
        · rw [if_neg e] at h
          exact .inr h
  rcases key fs [] h with h | h
  · exact h
  · simp at h

end ClearFeature
