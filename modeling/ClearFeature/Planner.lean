import ClearFeature.Validator

/-!
# Feature planner (`fs_core/planner.py`)

Requested features and groups become one duplicate-free list of outputs in
request order; each must be computable, and so must what it depends on.
-/

namespace ClearFeature

structure FeaturePlan where
  view : String
  viewVersion : Int
  requestedOutputs : List FeatureRef
  computeFeatures : List String
  expandedGroups : List (String × List String)
  shadowFeatures : List String
  deriving DecidableEq

section
variable (viewDef : FeatureViewDef) (byName : List (String × FeatureDef)) (allowShadow : Bool)

def checkComputable (feature : FeatureDef) : Except PyErr Unit := do
  let n := s!"feature {reprStr feature.name} in view {reprStr viewDef.name}"
  raiseIf (feature.kind = .modelScore)
    s!"{n} is a model_score feature and cannot be computed (write it via /v1/model-scores)"
  raiseIf (feature.kind = .model)
    (s!"{n} is a batch-only model feature (F3) and cannot be computed online or in a raw-source chunk; " ++
     "compute it via the batch model path")
  raiseIf (feature.lifecycle = .draft) s!"{n} is a draft feature (validation-only) and is not served/computed"
  raiseIf (feature.lifecycle = .shadow ∧ allowShadow = false)
    s!"{n} is a shadow feature and is not served online; compute it only in an offline/shadow run (allow_shadow)"
  raiseIf (feature.lifecycle ≠ .live ∧ feature.lifecycle ≠ .shadow)
    s!"{n} has lifecycle {reprStr feature.lifecycle.text} and cannot be computed (only live, or shadow with allow_shadow)"

def addName (ordered : List String) (name : String) : List String :=
  if name ∈ ordered then ordered else ordered ++ [name]

/-- One name of the request or of a group; `unknown` is raised where the view has no such feature. -/
def addFeature (unknown : String) (ordered : List String) (name : String) : Except PyErr (List String) :=
  match Dict.get? byName name with
  | none => .error (.valueError unknown)
  | some feature => do
    checkComputable viewDef allowShadow feature
    return addName ordered name

def addRequested : List String → List String → Except PyErr (List String)
  | ordered, [] => .ok ordered
  | ordered, name :: names => do
    let unknown := s!"unknown feature {reprStr name} in view {reprStr viewDef.name} v{viewDef.viewVersion}"
    let ordered ← addFeature viewDef byName allowShadow unknown ordered name
    addRequested ordered names

def addMembers (groupName : String) : List String → List String → Except PyErr (List String)
  | ordered, [] => .ok ordered
  | ordered, name :: names => do
    let unknown :=
      s!"feature group {reprStr groupName} references unknown feature {reprStr name} in view {reprStr viewDef.name}"
    let ordered ← addFeature viewDef byName allowShadow unknown ordered name
    addMembers groupName ordered names

def addGroups : List String → List (String × List String) → List String →
    Except PyErr (List String × List (String × List String))
  | ordered, expanded, [] => .ok (ordered, expanded)
  | ordered, expanded, groupName :: groups =>
    match Dict.get? viewDef.featureGroups groupName with
    | none =>
      .error (.valueError
        s!"unknown feature group {reprStr groupName} in view {reprStr viewDef.name} v{viewDef.viewVersion}")
    | some members => do
      let ordered ← addMembers viewDef byName allowShadow groupName ordered members
      addGroups ordered (Dict.set expanded groupName members) groups

/-! ## The dependencies of the outputs -/

/-- The dependencies of one feature, `done` being what is already visited. -/
def visitDeps (rec : List String → String → Except PyErr (List String)) (name : String) :
    List String → List FeatureDependency → Except PyErr (List String)
  | done, [] => .ok done
  | done, dep :: deps =>
    match Dict.get? byName dep.feature with
    | none =>
      .error (.valueError
        s!"feature {reprStr name} depends on unknown feature {reprStr dep.feature} in view {reprStr viewDef.name}")
    | some target => do
      raiseIf (target.kind = .model)
        (let n := s!"feature {reprStr name} in view {reprStr viewDef.name}"
         s!"{n} depends on batch-only model feature {reprStr dep.feature} (F3), which cannot be computed online " ++
         "or in a raw-source chunk")
      let done ← rec done dep.feature
      visitDeps rec name done deps

/-- `_visit`; the fuel bounds the recursion. -/
def visit : Nat → List String → List String → String → Except PyErr (List String)
  | 0, _, _, _ => .error (.other "RecursionError" "maximum recursion depth exceeded")
  | fuel + 1, visiting, done, name =>
    if name ∈ done then .ok done
    else if name ∈ visiting then
      let cycle := " -> ".intercalate (visiting ++ [name])
      .error (.valueError s!"dependency cycle detected in view {reprStr viewDef.name}: {cycle}")
    else
      match Dict.get? byName name with
      | none => .error (.valueError s!"unknown feature {reprStr name} in view {reprStr viewDef.name}")
      | some feature => do
        let done ← visitDeps viewDef byName (visit fuel (visiting ++ [name])) name done feature.deps
        return name :: done

/-- `_validate_deps` -/
def validateDeps : List String → List String → Except PyErr Unit
  | _, [] => .ok ()
  | done, name :: names => do
    let done ← visit viewDef byName (viewDef.features.length + 1) [] done name
    validateDeps done names

end

/-- The features of the given names; every planned name has one. -/
def featuresOf (byName : List (String × FeatureDef)) (names : List String) : List FeatureDef :=
  names.filterMap (Dict.get? byName)

def planFeatures (viewDef : FeatureViewDef) (requestedFeatures requestedFeatureGroups : List String)
    (allowShadow : Bool := false) : Except PyErr FeaturePlan := do
  let byName := featuresByName viewDef.features
  let requested ← addRequested viewDef byName allowShadow [] requestedFeatures
  let (ordered, expandedGroups) ← addGroups viewDef byName allowShadow requested [] requestedFeatureGroups
  raiseIf (ordered = [])
    s!"request expands to no output features for view {reprStr viewDef.name} v{viewDef.viewVersion}"
  validateDeps viewDef byName [] ordered
  let features := featuresOf byName ordered
  return {
    view := viewDef.name
    viewVersion := viewDef.viewVersion
    requestedOutputs := features.map FeatureDef.ref
    computeFeatures := ordered
    expandedGroups
    shadowFeatures := (features.filter fun f => f.lifecycle = .shadow).map fun f => f.name }

end ClearFeature
