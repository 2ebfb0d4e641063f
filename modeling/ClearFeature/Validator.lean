import ClearFeature.Registry

/-!
# Registry validation (`fs_core/registry/validator.py`)

Checks between objects: unique names, resolvable references, matching key
fields, pinned versions, lifecycle rules and bounded acyclic dependencies.
-/

namespace ClearFeature

/-- `repr` of a list of names. -/
def reprNames (names : List String) : String := "[" ++ ", ".intercalate (names.map reprStr) ++ "]"

/-- `_unique_names`, the names in front of `names` being `seen`. -/
def uniqueNames (ctx : String) : List String → List String → Except PyErr Unit
  | _, [] => .ok ()
  | seen, name :: names => do
    raiseIf (name ∈ seen) s!"duplicate {ctx} name {reprStr name}"
    uniqueNames ctx (name :: seen) names

def forEach {α : Type} (check : α → Except PyErr Unit) : List α → Except PyErr Unit
  | [] => .ok ()
  | a :: as => do
    check a
    forEach check as

def validateInput (view : FeatureViewDef) (sourceNames : List String) (feature : FeatureDef)
    (source : String) : Except PyErr Unit :=
  raiseIf (source ∉ sourceNames)
    s!"feature {reprStr feature.name} in view {reprStr view.name} references unknown source {reprStr source}"

def validateDep (view : FeatureViewDef) (byName : List (String × FeatureDef)) (feature : FeatureDef)
    (dep : FeatureDependency) : Except PyErr Unit :=
  let n := reprStr feature.name
  let v := reprStr view.name
  match Dict.get? byName dep.feature with
  | none =>
    .error (.valueError s!"feature {n} in view {v} depends on unknown feature {reprStr dep.feature}")
  | some target => do
    raiseIf (∃ p ∈ dep.version, p ≠ target.featureVersion)
      (let pin := dep.version.getD 0
       s!"feature {n} in view {v} pins {reprStr dep.feature} v{pin}, but the registry has v{target.featureVersion}")
    let allowed := allowedDependencyLifecycles feature.lifecycle
    raiseIf (target.lifecycle ∉ allowed)
      (let names := reprNames (allowed.map Lifecycle.text)
       let dep := s!"{reprStr dep.feature} ({target.lifecycle.text})"
       s!"feature {n} ({feature.lifecycle.text}) in view {v} may not depend on {dep}; allowed dependency lifecycles are {names}")

/-! ## The dependency graph -/

/-- The depths of the dependencies in order, `depth` being the memo. -/
def depthsOf (rec : List (String × Nat) → String → Except PyErr (Nat × List (String × Nat))) :
    List (String × Nat) → List FeatureDependency → Except PyErr (List Nat × List (String × Nat))
  | depth, [] => .ok ([], depth)
  | depth, dep :: deps => do
    let (d, depth) ← rec depth dep.feature
    let (ds, depth) ← depthsOf rec depth deps
    .ok (d :: ds, depth)

/-- `_depth`; the fuel bounds the recursion. -/
def depthOf (view : FeatureViewDef) (byName : List (String × FeatureDef)) (cap : Nat) :
    Nat → List String → List (String × Nat) → String → Except PyErr (Nat × List (String × Nat))
  | 0, _, _, _ => .error (.other "RecursionError" "maximum recursion depth exceeded")
  | fuel + 1, visiting, depth, name =>
    match Dict.get? depth name with
    | some d => .ok (d, depth)
    | none =>
      if name ∈ visiting then
        let cycle := " -> ".intercalate (visiting ++ [name])
        .error (.valueError s!"dependency cycle detected in view {reprStr view.name}: {cycle}")
      else
        match Dict.get? byName name with
        | none => .error (.keyError (reprStr name))
        | some feature => do
          let (ds, depth) ← depthsOf (depthOf view byName cap fuel (visiting ++ [name])) depth feature.deps
          let d := match ds with
            | [] => 0
            | d :: ds => 1 + ds.foldl max d
          raiseIf (cap < d)
            s!"feature {reprStr name} in view {reprStr view.name} has dependency depth {d} exceeding cap {cap}"
          .ok (d, Dict.set depth name d)

def depthAll (view : FeatureViewDef) (byName : List (String × FeatureDef)) (cap fuel : Nat) :
    List (String × Nat) → List FeatureDef → Except PyErr Unit
  | _, [] => .ok ()
  | depth, f :: fs => do
    let (_, depth) ← depthOf view byName cap fuel [] depth f.name
    depthAll view byName cap fuel depth fs

def validateDependencyGraph (view : FeatureViewDef) (byName : List (String × FeatureDef)) : Except PyErr Unit :=
  depthAll view byName (view.maxDependencyDepth.getD defaultDependencyDepthCap) (view.features.length + 1) []
    view.features

/-! ## The whole registry -/

def validateFeature (view : FeatureViewDef) (sourceNames : List String) (byName : List (String × FeatureDef))
    (feature : FeatureDef) : Except PyErr Unit := do
  forEach (validateInput view sourceNames feature) feature.inputs
  forEach (validateDep view byName feature) feature.deps

def validateGroup (view : FeatureViewDef) (group : String × List String) : Except PyErr Unit :=
  forEach (fun member =>
    raiseIf (member ∉ view.features.map (·.name))
      s!"feature group {reprStr group.1} in view {reprStr view.name} references unknown feature {reprStr member}")
    group.2

def validateView (r : Registry) (view : FeatureViewDef) : Except PyErr Unit :=
  let v := reprStr view.name
  match r.entities.find? (·.name = view.entity) with
  | none => .error (.valueError s!"feature view {v} references unknown entity {reprStr view.entity}")
  | some entity => do
    raiseIf (view.keyFields ≠ entity.keyFields)
      (let fields := s!"{reprStr entity.name} key_fields {reprNames entity.keyFields}"
       s!"feature view {v} key_fields {reprNames view.keyFields} must exactly match entity {fields}")
    uniqueNames s!"feature in view {v}" [] (view.features.map (·.name))
    let byName := featuresByName view.features
    forEach (validateFeature view (r.sources.map (·.name)) byName) view.features
    validateDependencyGraph view byName
    forEach (validateGroup view) view.featureGroups

def validateRegistry (r : Registry) : Except PyErr Unit := do
  uniqueNames "entity" [] (r.entities.map (·.name))
  uniqueNames "source" [] (r.sources.map (·.name))
  uniqueNames "feature view" [] (r.featureViews.map (·.name))
  forEach (validateView r) r.featureViews

/-! ## What validation gives -/

theorem forEach_eq_ok {α : Type} {check : α → Except PyErr Unit} : ∀ {as : List α} {u : Unit},
    forEach check as = .ok u ↔ ∀ a ∈ as, check a = .ok ()
  | [], u => by simp [forEach]
  | a :: as, u => by
    have ih : forEach check as = .ok u ↔ ∀ a ∈ as, check a = .ok () := forEach_eq_ok
    simp only [forEach, bind_eq_ok, ih, List.mem_cons, forall_eq_or_imp]
    exact ⟨fun ⟨_, h, hs⟩ => ⟨h, hs⟩, fun ⟨h, hs⟩ => ⟨(), h, hs⟩⟩

theorem uniqueNames_eq_ok {ctx : String} : ∀ {names seen : List String} {u : Unit},
    uniqueNames ctx seen names = .ok u ↔ names.Nodup ∧ ∀ n ∈ names, n ∉ seen
  | [], seen, u => by simp [uniqueNames]
  | name :: names, seen, u => by
    have ih : uniqueNames ctx (name :: seen) names = .ok u ↔ names.Nodup ∧ ∀ n ∈ names, n ∉ name :: seen :=
      uniqueNames_eq_ok
    simp only [uniqueNames, bind_eq_ok, raiseIf_eq_ok, ih, List.nodup_cons, List.mem_cons, forall_eq_or_imp,
      not_or]
    constructor
    · rintro ⟨_, h, hn, hs⟩
      exact ⟨⟨fun hm => (hs name hm).1 rfl, hn⟩, h, fun n hm => (hs n hm).2⟩
    · rintro ⟨⟨hm, hn⟩, h, hs⟩
      exact ⟨(), h, hn, fun n hn' => ⟨fun e => hm (e ▸ hn'), hs n hn'⟩⟩

structure ValidView (r : Registry) (view : FeatureViewDef) : Prop where
  mem : view ∈ r.featureViews
  names_nodup : (view.features.map (·.name)).Nodup
  inputs_known : ∀ f ∈ view.features, ∀ s ∈ f.inputs, s ∈ r.sources.map (·.name)
  deps_known : ∀ f ∈ view.features, ∀ d ∈ f.deps, ∃ target ∈ view.features,
    target.name = d.feature ∧ ∀ p ∈ d.version, p = target.featureVersion

theorem ValidView.of_validateRegistry {r : Registry} (h : validateRegistry r = .ok ()) {view : FeatureViewDef}
    (hv : view ∈ r.featureViews) : ValidView r view := by
  simp only [validateRegistry, bind_eq_ok, forEach_eq_ok] at h
  obtain ⟨_, -, _, -, _, -, h⟩ := h
  have h := h view hv
  simp only [validateView] at h
  split at h
  · cases h
  · simp only [bind_eq_ok, forEach_eq_ok, uniqueNames_eq_ok, validateFeature, validateInput, raiseIf_eq_ok,
      not_not] at h
    obtain ⟨_, -, _, hn, _, hf, -⟩ := h
    refine ⟨hv, hn.1, fun f hfm s hs => ?_, fun f hfm d hd => ?_⟩
    · obtain ⟨_, hin, -⟩ := hf f hfm
      exact hin s hs
    · obtain ⟨_, -, hdep⟩ := hf f hfm
      have hdep := hdep d hd
      simp only [validateDep] at hdep
      split at hdep
      · cases hdep
      · rename_i target ht
        simp only [bind_eq_ok, raiseIf_eq_ok, not_exists, not_and, not_not] at hdep
        obtain ⟨_, hpin, -⟩ := hdep
        obtain ⟨hm, hname⟩ := featuresByName_name ht
        exact ⟨target, hm, hname, hpin⟩

theorem find?_of_nodup {view : FeatureViewDef} {p : FeatureViewDef → Bool} (hp : p view = true)
    (hname : ∀ v, p v = true → v.name = view.name) : ∀ {views : List FeatureViewDef}, (views.map (·.name)).Nodup →
      view ∈ views → views.find? p = some view
  | [], _, hv => nomatch hv
  | v :: views, hn, hv => by
    rw [List.map_cons, List.nodup_cons] at hn
    rw [List.find?_cons]
    rcases List.mem_cons.mp hv with rfl | hm
    · rw [hp]
    · cases hpv : p v with
      | true => exact absurd (List.mem_map.mpr ⟨view, hm, (hname v hpv).symm⟩) hn.1
      | false => exact find?_of_nodup hp hname hn.2 hm

theorem viewNames_nodup {r : Registry} (hr : validateRegistry r = .ok ()) : (r.featureViews.map (·.name)).Nodup := by
  simp only [validateRegistry, bind_eq_ok, uniqueNames_eq_ok] at hr
  obtain ⟨_, -, _, -, _, hn, -⟩ := hr
  exact hn.1

/-! ## A small registry -/

def userEntity : EntityDef := ⟨{ name := "user", keyFields := ["user_id"] }, by decide⟩

def sourceA : SourceDef := ⟨{ name := "a", type := "raw_report", reportType := "a", tsField := "ts" }, by decide⟩

def sourceB : SourceDef := ⟨{ name := "b", type := "raw_report", reportType := "b", tsField := "ts" }, by decide⟩

def sourceC : SourceDef := ⟨{ name := "c", type := "raw_report", reportType := "c", tsField := "ts" }, by decide⟩

/-- One view over three raw reports of a user. -/
def userRegistry (view : FeatureViewDef) : Registry where
  registryVersion := "1"
  entities := [userEntity]
  sources := [sourceA, sourceB, sourceC]
  featureViews := [view]
  ok := by
    have h : isBlank "1" = false := by decide
    simp [RegistryFields.check, raiseIf, h]

def userKey : EntityKey := ⟨[("user_id", "1")], "user_id=1", by decide⟩

end ClearFeature
