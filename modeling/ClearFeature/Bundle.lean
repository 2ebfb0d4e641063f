import ClearFeature.CanonicalJson
import ClearFeature.DependencyGraph
import Mathlib.Data.Prod.Lex

/-!
# Registry bundles (`fs_core/registry/bundle.py`)

The content a bundle digest is computed over, and what two registries with the
same content have in common.
-/

namespace ClearFeature

open StableSort

/-- `PROPAGATION_POLICIES`. -/
def Propagation.text : Propagation → String
  | .lazy => "lazy"
  | .reactive => "reactive"
  | .scheduled => "scheduled"
  | .never => "none"

def optInt : Option Int → Value
  | none => .null
  | some n => .int n

def optStr : Option String → Value
  | none => .null
  | some s => .str s

/-- The name and the version that dictionaries are sorted by. -/
abbrev NameVersion := String ×ₗ Int

/-- `sorted(dicts, key=lambda d: (d[name], d[version]))`, each dictionary with its key. -/
def sortedDicts (dicts : List (NameVersion × Value)) : Value := .arr ((sortedBy Prod.fst dicts).map Prod.snd)

def sortedNames (names : List String) : Value := .arr ((sortedBy id names).map .str)

/-- `dep.version or features_by_name[dep.feature].feature_version`; a pin is positive. -/
def resolvedVersion (featuresByName : List (String × FeatureDef)) (dep : FeatureDependency) : Except PyErr Int :=
  match dep.version, Dict.get? featuresByName dep.feature with
  | some v, _ => .ok v
  | none, some target => .ok target.featureVersion
  | none, none => .error (.keyError (reprStr dep.feature))

def dependencyDict (dep : DependencyFields) (version : Int) : Value :=
  .obj [("feature", .str dep.feature), ("version", .int version), ("required", .bool dep.required),
    ("max_input_age_seconds", optInt dep.maxInputAgeSeconds), ("propagation", .str dep.propagation.text)]

def canonicalDependency (featuresByName : List (String × FeatureDef)) (dep : FeatureDependency) :
    Except PyErr (NameVersion × Value) := do
  let version ← resolvedVersion featuresByName dep
  .ok (toLex (dep.feature, version), dependencyDict dep.toDependencyFields version)

def modelDict : Option ModelSpec → Value
  | none => .null
  | some m => .obj [("uri", .str m.uri), ("digest", .str m.digest), ("output_name", .str m.outputName),
      ("runner", optStr m.runner), ("batch_only", .bool m.batchOnly)]

def featureDict (feature : FeatureDef) (deps : List (NameVersion × Value)) : Value :=
  .obj [("name", .str feature.name), ("kind", .str feature.kind.text), ("feature_version", .int feature.featureVersion),
    ("dtype", .str feature.dtype), ("lifecycle", .str feature.lifecycle.text), ("udf", .str feature.udf),
    ("inputs", sortedNames feature.inputs), ("deps", sortedDicts deps), ("model", modelDict feature.model)]

/-- `_canonical_feature`, with the key that the features of a view are sorted by. -/
def canonicalFeature (feature : FeatureDef) (featuresByName : List (String × FeatureDef)) :
    Except PyErr (NameVersion × Value) := do
  let deps ← feature.deps.mapM (canonicalDependency featuresByName)
  .ok (toLex (feature.name, feature.featureVersion), featureDict feature deps)

def viewDict (view : FeatureViewDef) (features : List (NameVersion × Value)) : Value :=
  .obj [("name", .str view.name), ("entity", .str view.entity), ("key_fields", .arr (view.keyFields.map .str)),
    ("view_version", .int view.viewVersion), ("owner", .str view.owner), ("status", .str view.status),
    ("max_dependency_depth", optInt (view.maxDependencyDepth.map Int.ofNat)),
    ("feature_groups", .obj (view.featureGroups.map fun g => (g.1, sortedNames g.2))),
    ("features", sortedDicts features)]

/-- `_canonical_view`, with the key that the views are sorted by. -/
def canonicalView (view : FeatureViewDef) : Except PyErr (NameVersion × Value) := do
  let byName := featuresByName view.features
  let features ← view.features.mapM fun f => canonicalFeature f byName
  .ok (toLex (view.name, view.viewVersion), viewDict view features)

def entityDict (e : EntityDef) : Value := .obj [("name", .str e.name), ("key_fields", .arr (e.keyFields.map .str))]

def sourceDict (s : SourceDef) : Value :=
  .obj [("name", .str s.name), ("type", .str s.type), ("report_type", .str s.reportType), ("ts_field", .str s.tsField)]

def registryDict (r : Registry) (views : List (NameVersion × Value)) : Value :=
  .obj [("entities", .arr ((sortedBy (·.name) r.entities).map entityDict)),
    ("sources", .arr ((sortedBy (·.name) r.sources).map sourceDict)), ("feature_views", sortedDicts views)]

def canonicalRegistryContent (r : Registry) : Except PyErr Value := do
  let views ← r.featureViews.mapM canonicalView
  .ok (registryDict r views)

/-! ## Registries that define the same -/

/-- The pin of an edge, spelled out. -/
def pinnedVersion (view : FeatureViewDef) (dep : FeatureDependency) : Option Int :=
  dep.version.or ((view.features.find? (·.name = dep.feature)).map (·.featureVersion))

structure DependencyEquiv (view view' : FeatureViewDef) (d d' : FeatureDependency) : Prop where
  feature : d.feature = d'.feature
  version : pinnedVersion view d = pinnedVersion view' d'
  required : d.required = d'.required
  maxInputAgeSeconds : d.maxInputAgeSeconds = d'.maxInputAgeSeconds
  propagation : d.propagation = d'.propagation

structure FeatureEquiv (view view' : FeatureViewDef) (f f' : FeatureDef) : Prop where
  name : f.name = f'.name
  kind : f.kind = f'.kind
  featureVersion : f.featureVersion = f'.featureVersion
  dtype : f.dtype = f'.dtype
  lifecycle : f.lifecycle = f'.lifecycle
  udf : f.udf = f'.udf
  inputs : f.inputs.Perm f'.inputs
  deps : UpToOrder (DependencyEquiv view view') f.deps f'.deps
  model : f.model = f'.model

structure ViewEquiv (v v' : FeatureViewDef) : Prop where
  name : v.name = v'.name
  entity : v.entity = v'.entity
  keyFields : v.keyFields = v'.keyFields
  viewVersion : v.viewVersion = v'.viewVersion
  owner : v.owner = v'.owner
  status : v.status = v'.status
  maxDependencyDepth : v.maxDependencyDepth = v'.maxDependencyDepth
  featureGroups : UpToOrder (fun g g' => g.1 = g'.1 ∧ g.2.Perm g'.2) v.featureGroups v'.featureGroups
  features : UpToOrder (FeatureEquiv v v') v.features v'.features

/-- Equal up to the order of the lists, lifecycle aliases, pins spelled out, descriptions and the registry's version. -/
structure Equivalent (r r' : Registry) : Prop where
  entities : r.entities.Perm r'.entities
  sources : r.sources.Perm r'.sources
  featureViews : UpToOrder ViewEquiv r.featureViews r'.featureViews

/-- The edges to one feature, in the order in which they are declared. -/
def edgesTo (target : String) (f : FeatureDef) : List (Bool × Option Int × Propagation) :=
  (f.deps.filter (·.feature = target)).map fun d => (d.required, d.maxInputAgeSeconds, d.propagation)

def FeatureTies (f f' : FeatureDef) : Prop := ∀ target, edgesTo target f = edgesTo target f'

def ViewTies (v v' : FeatureViewDef) : Prop := ∀ f ∈ v.features, ∀ f' ∈ v'.features, f.name = f'.name → FeatureTies f f'

/-- Edges of one feature to one target are declared in the same order. -/
def SameTies (r r' : Registry) : Prop :=
  ∀ v ∈ r.featureViews, ∀ v' ∈ r'.featureViews, v.name = v'.name → ViewTies v v'

end ClearFeature
