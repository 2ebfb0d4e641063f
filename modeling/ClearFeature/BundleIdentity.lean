import ClearFeature.Bundle

/-!
# What the bundle content identifies

Each dictionary of the content shows its own fields, and a sorted list shows
its members up to order. Only the edges of one feature to one target share a
sorting key, so they alone keep the order in which they are declared.
-/

namespace ClearFeature

open StableSort

variable {eqv : Bool}

theorem mapM_eq_ok {ε α β : Type} {f : α → Except ε β} {g : α → β} : ∀ {l : List α}, (∀ a ∈ l, f a = .ok (g a)) →
    l.mapM f = .ok (l.map g)
  | [], _ => rfl
  | a :: l, h => by
    rw [List.mapM_cons, h a List.mem_cons_self, mapM_eq_ok fun b hb => h b (List.mem_cons_of_mem a hb)]
    rfl

/-! ## Fields -/

theorem normal_bool_inj {a b : Bool} : (Value.bool a).normal eqv = (Value.bool b).normal eqv ↔ a = b := by
  cases eqv <;> cases a <;> cases b <;> simp [Value.normal]

theorem normal_optInt_inj {a b : Option Int} : (optInt a).normal eqv = (optInt b).normal eqv ↔ a = b := by
  cases a <;> cases b <;> simp [optInt]

theorem normal_optStr_inj {a b : Option String} : (optStr a).normal eqv = (optStr b).normal eqv ↔ a = b := by
  cases a <;> cases b <;> simp [optStr]

theorem normal_strings_inj {a b : List String} :
    (Value.arr (a.map .str)).normal eqv = (Value.arr (b.map .str)).normal eqv ↔ a = b := by
  have hinj : Function.Injective (Value.normal eqv ∘ Value.str) := fun s t h => by simpa using h
  rw [Value.normal_arr, Value.normal_arr, Value.arr.injEq, List.map_map, List.map_map, List.map_inj_right fun s t => @hinj s t]

theorem normal_sortedNames_iff {a b : List String} :
    (sortedNames a).normal eqv = (sortedNames b).normal eqv ↔ a.Perm b := by
  rw [sortedNames, sortedNames, normal_strings_inj]
  exact sortedBy_eq_iff_perm id fun _ _ _ _ h => h

theorem Propagation.text_inj {a b : Propagation} : a.text = b.text ↔ a = b := by
  cases a <;> cases b <;> decide

theorem Lifecycle.text_inj {a b : Lifecycle} : a.text = b.text ↔ a = b := by
  cases a <;> cases b <;> decide

theorem FeatureKind.text_inj {a b : FeatureKind} : a.text = b.text ↔ a = b := by
  cases a <;> cases b <;> decide

theorem normal_sortedDicts (dicts : List (NameVersion × Value)) :
    (sortedDicts dicts).normal eqv = .arr ((sortedBy Prod.fst dicts).map fun e => e.2.normal eqv) := by
  rw [sortedDicts, Value.normal_arr, List.map_map]
  rfl

theorem normal_dependencyDict_iff {d d' : DependencyFields} {n n' : Int} :
    (dependencyDict d n).normal eqv = (dependencyDict d' n').normal eqv ↔
      d.feature = d'.feature ∧ n = n' ∧ d.required = d'.required ∧ d.maxInputAgeSeconds = d'.maxInputAgeSeconds ∧
        d.propagation = d'.propagation := by
  rw [dependencyDict, dependencyDict, Value.normal_obj_eq_iff]
  · simp [Dict.values, normal_bool_inj, normal_optInt_inj, Propagation.text_inj]
  · rfl
  · simp [Dict.keys]

theorem normal_modelDict_iff {m m' : Option ModelSpec} :
    (modelDict m).normal eqv = (modelDict m').normal eqv ↔ m = m' := by
  cases m with
  | none =>
    cases m' with
    | none => simp
    | some m' => simp [modelDict, Value.normal]
  | some m =>
    cases m' with
    | none => simp [modelDict, Value.normal]
    | some m' =>
      rw [modelDict, modelDict, Value.normal_obj_eq_iff]
      · obtain ⟨⟨uri, digest, outputName, runner, batchOnly⟩, hm⟩ := m
        obtain ⟨⟨uri', digest', outputName', runner', batchOnly'⟩, hm'⟩ := m'
        simp [Dict.values, normal_bool_inj, normal_optStr_inj]
      · rfl
      · simp [Dict.keys]

theorem normal_featureDict_iff {f f' : FeatureDef} {deps deps' : List (NameVersion × Value)} :
    (featureDict f deps).normal eqv = (featureDict f' deps').normal eqv ↔
      f.name = f'.name ∧ f.kind = f'.kind ∧ f.featureVersion = f'.featureVersion ∧ f.dtype = f'.dtype ∧
        f.lifecycle = f'.lifecycle ∧ f.udf = f'.udf ∧ f.inputs.Perm f'.inputs ∧
        (sortedDicts deps).normal eqv = (sortedDicts deps').normal eqv ∧ f.model = f'.model := by
  rw [featureDict, featureDict, Value.normal_obj_eq_iff]
  · simp [Dict.values, FeatureKind.text_inj, Lifecycle.text_inj, normal_sortedNames_iff, normal_modelDict_iff]
  · rfl
  · simp [Dict.keys]

theorem normal_groups_iff {groups groups' : List (String × List String)} (hn : (Dict.keys groups).Nodup) :
    (Value.obj (groups.map fun g => (g.1, sortedNames g.2))).normal eqv =
        (Value.obj (groups'.map fun g => (g.1, sortedNames g.2))).normal eqv ↔
      UpToOrder (fun g g' => g.1 = g'.1 ∧ g.2.Perm g'.2) groups groups' := by
  rw [Value.normal_obj_eq_iff_perm, List.map_map, List.map_map]
  · refine (upToOrder_iff_perm fun g _ g' _ => ?_).symm
    simp [normal_sortedNames_iff]
  · rw [Dict.keys, List.map_map]
    exact hn

theorem normal_viewDict_iff {v v' : FeatureViewDef} {features features' : List (NameVersion × Value)} :
    (viewDict v features).normal eqv = (viewDict v' features').normal eqv ↔
      v.name = v'.name ∧ v.entity = v'.entity ∧ v.keyFields = v'.keyFields ∧ v.viewVersion = v'.viewVersion ∧
        v.owner = v'.owner ∧ v.status = v'.status ∧ v.maxDependencyDepth = v'.maxDependencyDepth ∧
        UpToOrder (fun g g' => g.1 = g'.1 ∧ g.2.Perm g'.2) v.featureGroups v'.featureGroups ∧
        (sortedDicts features).normal eqv = (sortedDicts features').normal eqv := by
  have hdepth : v.maxDependencyDepth.map Int.ofNat = v'.maxDependencyDepth.map Int.ofNat ↔
      v.maxDependencyDepth = v'.maxDependencyDepth :=
    (Option.map_injective fun a b h => Int.ofNat.inj h).eq_iff
  rw [viewDict, viewDict, Value.normal_obj_eq_iff]
  · simp [Dict.values, normal_strings_inj, normal_optInt_inj, normal_groups_iff v.groups_nodup, hdepth]
  · rfl
  · simp [Dict.keys]

theorem normal_entityDict_inj {e e' : EntityDef} :
    (entityDict e).normal eqv = (entityDict e').normal eqv ↔ e = e' := by
  rw [entityDict, entityDict, Value.normal_obj_eq_iff]
  · obtain ⟨⟨name, keyFields⟩, he⟩ := e
    obtain ⟨⟨name', keyFields'⟩, he'⟩ := e'
    simp [Dict.values, normal_strings_inj]
  · rfl
  · simp [Dict.keys]

theorem normal_sourceDict_inj {s s' : SourceDef} :
    (sourceDict s).normal eqv = (sourceDict s').normal eqv ↔ s = s' := by
  rw [sourceDict, sourceDict, Value.normal_obj_eq_iff]
  · obtain ⟨⟨name, type, reportType, tsField⟩, hs⟩ := s
    obtain ⟨⟨name', type', reportType', tsField'⟩, hs'⟩ := s'
    simp [Dict.values]
  · rfl
  · simp [Dict.keys]

/-! ## Edges -/

/-- The version that a view has of a feature. -/
def versionIn (view : FeatureViewDef) (name : String) : Int :=
  ((view.features.find? (·.name = name)).map (·.featureVersion)).getD 0

def dependencyEntry (view : FeatureViewDef) (d : FeatureDependency) : NameVersion × Value :=
  (toLex (d.feature, versionIn view d.feature), dependencyDict d.toDependencyFields (versionIn view d.feature))

section
variable {r r' : Registry} {view view' : FeatureViewDef} (hv : ValidView r view) (hv' : ValidView r' view')
  {f f' : FeatureDef} (hf : f ∈ view.features) (hf' : f' ∈ view'.features)

include hv hf in
theorem ValidView.target {d : FeatureDependency} (hd : d ∈ f.deps) : ∃ target,
    view.features.find? (·.name = d.feature) = some target ∧
      Dict.get? (featuresByName view.features) d.feature = some target ∧
      ∀ p ∈ d.version, p = target.featureVersion := by
  obtain ⟨target, hm, hname, hpin⟩ := hv.deps_known f hf d hd
  refine ⟨target, ?_, hname ▸ featuresByName_mem hv.names_nodup hm, hpin⟩
  cases hfind : view.features.find? (·.name = d.feature) with
  | none => exact absurd (decide_eq_true hname) (List.find?_eq_none.mp hfind target hm)
  | some g =>
    have hg : g.name = d.feature := by simpa using List.find?_some hfind
    rw [List.inj_on_of_nodup_map hv.names_nodup (List.mem_of_find?_eq_some hfind) hm (hg.trans hname.symm)]

include hv hf in
theorem ValidView.pinnedVersion_eq {d : FeatureDependency} (hd : d ∈ f.deps) :
    pinnedVersion view d = some (versionIn view d.feature) := by
  obtain ⟨target, hfind, -, hpin⟩ := hv.target hf hd
  unfold pinnedVersion versionIn
  rw [hfind]
  cases hver : d.version with
  | none => rfl
  | some p => rw [hpin p hver]; rfl

include hv hf in
theorem ValidView.canonicalDependency_eq {d : FeatureDependency} (hd : d ∈ f.deps) :
    canonicalDependency (featuresByName view.features) d = .ok (dependencyEntry view d) := by
  obtain ⟨target, hfind, hget, hpin⟩ := hv.target hf hd
  have hres : resolvedVersion (featuresByName view.features) d = .ok (versionIn view d.feature) := by
    unfold resolvedVersion versionIn
    rw [hget, hfind]
    cases hver : d.version with
    | none => rfl
    | some p => rw [hpin p hver]; rfl
  rw [canonicalDependency, hres]
  rfl

include hv hf hv' hf' in
theorem dependencyEquiv_iff {d d' : FeatureDependency} (hd : d ∈ f.deps) (hd' : d' ∈ f'.deps) :
    DependencyEquiv view view' d d' ↔
      (dependencyEntry view d).2.normal eqv = (dependencyEntry view' d').2.normal eqv := by
  rw [dependencyEntry, dependencyEntry, normal_dependencyDict_iff]
  have hver : pinnedVersion view d = pinnedVersion view' d' ↔ versionIn view d.feature = versionIn view' d'.feature := by
    rw [hv.pinnedVersion_eq hf hd, hv'.pinnedVersion_eq hf' hd', Option.some.injEq]
  constructor
  · rintro ⟨h₁, h₂, h₃, h₄, h₅⟩
    exact ⟨h₁, hver.mp h₂, h₃, h₄, h₅⟩
  · rintro ⟨h₁, h₂, h₃, h₄, h₅⟩
    exact ⟨h₁, hver.mpr h₂, h₃, h₄, h₅⟩

/-- What an edge to a target shows. -/
def edgeDict (target : String) (version : Int) (edge : Bool × Option Int × Propagation) : Value :=
  dependencyDict { feature := target, required := edge.1, maxInputAgeSeconds := edge.2.1, propagation := edge.2.2 } version

theorem normal_edgeDict_inj (target : String) (version : Int) :
    Function.Injective fun edge => (edgeDict target version edge).normal eqv := by
  intro a b h
  obtain ⟨-, -, h₁, h₂, h₃⟩ := normal_dependencyDict_iff.mp h
  exact Prod.ext h₁ (Prod.ext h₂ h₃)

/-- The edges with one sorting key. -/
theorem keyed_entries (view : FeatureViewDef) (f : FeatureDef) (target : String) (version : Int) :
    (keyed Prod.fst (toLex (target, version)) (f.deps.map (dependencyEntry view))).map (fun e => e.2.normal eqv) =
      if versionIn view target = version then
        (edgesTo target f).map fun edge => (edgeDict target version edge).normal eqv
      else [] := by
  have hkey : ∀ d : FeatureDependency, (dependencyEntry view d).1 = toLex (target, version) ↔
      d.feature = target ∧ versionIn view target = version := by
    intro d
    rw [dependencyEntry, toLex_inj, Prod.mk.injEq]
    constructor
    · rintro ⟨rfl, h⟩
      exact ⟨rfl, h⟩
    · rintro ⟨rfl, h⟩
      exact ⟨rfl, h⟩
  unfold keyed edgesTo
  induction f.deps with
  | nil => simp
  | cons d deps ih =>
    rw [List.map_cons, List.filter_cons, List.filter_cons]
    by_cases hv : versionIn view target = version
    · rw [if_pos hv] at ih ⊢
      by_cases hd : d.feature = target
      · rw [if_pos (decide_eq_true ((hkey d).mpr ⟨hd, hv⟩)), if_pos (decide_eq_true hd), List.map_cons, ih]
        subst hd
        subst hv
        rfl
      · rw [if_neg (by simpa [hkey d] using fun h => absurd h hd), if_neg (by simpa using hd), ih]
    · rw [if_neg hv] at ih ⊢
      rw [if_neg (by simpa [hkey d] using fun _ => hv), ih]

theorem dependencyEntry_key {view view' : FeatureViewDef} {d d' : FeatureDependency}
    (h : (dependencyEntry view d).2.normal eqv = (dependencyEntry view' d').2.normal eqv) :
    (dependencyEntry view d).1 = (dependencyEntry view' d').1 := by
  obtain ⟨h₁, h₂, -⟩ := normal_dependencyDict_iff.mp h
  exact toLex_inj.mpr (Prod.ext h₁ h₂)

theorem edgesTo_eq_nil {f : FeatureDef} {target : String} : edgesTo target f = [] ↔ ∀ d ∈ f.deps, d.feature ≠ target := by
  simp [edgesTo, List.filter_eq_nil_iff]

include hv hf hv' hf' in
theorem UpToOrder.versionIn_eq (h : UpToOrder (DependencyEquiv view view') f.deps f'.deps) {target : String}
    (hne : edgesTo target f' ≠ []) : versionIn view target = versionIn view' target := by
  rw [ne_eq, edgesTo_eq_nil] at hne
  push Not at hne
  obtain ⟨d', hd', rfl⟩ := hne
  obtain ⟨d, hd, hequiv⟩ := h.partner hd'
  have hver := hequiv.version
  rw [hv.pinnedVersion_eq hf hd, hv'.pinnedVersion_eq hf' hd', Option.some.injEq, hequiv.feature] at hver
  exact hver

include hv hf hv' hf' in
theorem sortedDeps_iff :
    (sortedDicts (f.deps.map (dependencyEntry view))).normal eqv =
        (sortedDicts (f'.deps.map (dependencyEntry view'))).normal eqv ↔
      UpToOrder (DependencyEquiv view view') f.deps f'.deps ∧ FeatureTies f f' := by
  have hkey : ∀ e ∈ f.deps.map (dependencyEntry view), ∀ e' ∈ f'.deps.map (dependencyEntry view'),
      e.2.normal eqv = e'.2.normal eqv → e.1 = e'.1 := by
    intro e he e' he' h
    obtain ⟨d, -, rfl⟩ := List.mem_map.mp he
    obtain ⟨d', -, rfl⟩ := List.mem_map.mp he'
    exact dependencyEntry_key h
  have hperm : UpToOrder (DependencyEquiv view view') f.deps f'.deps ↔
      ((f.deps.map (dependencyEntry view)).map fun e => e.2.normal eqv).Perm
        ((f'.deps.map (dependencyEntry view')).map fun e => e.2.normal eqv) := by
    rw [List.map_map, List.map_map]
    exact upToOrder_iff_perm fun d hd d' hd' => dependencyEquiv_iff hv hv' hf hf' hd hd'
  have hparts := map_sortedBy_eq_iff Prod.fst (fun e : NameVersion × Value => e.2.normal eqv) hkey
  rw [normal_sortedDicts, normal_sortedDicts, Value.arr.injEq]
  constructor
  · intro h
    have hup : UpToOrder (DependencyEquiv view view') f.deps f'.deps := by
      have hsorted := ((sortedBy_perm Prod.fst (f.deps.map (dependencyEntry view))).map fun e => e.2.normal eqv).symm
      rw [h] at hsorted
      exact hperm.mpr (hsorted.trans ((sortedBy_perm Prod.fst _).map _))
    refine ⟨hup, fun target => ?_⟩
    have hk := hparts.mp h (toLex (target, versionIn view target))
    rw [keyed_entries, keyed_entries, if_pos rfl] at hk
    by_cases hne : edgesTo target f' = []
    · rw [hne] at hk ⊢
      simpa using hk
    · rw [if_pos (UpToOrder.versionIn_eq hv hv' hf hf' hup hne).symm] at hk
      exact (normal_edgeDict_inj target _).list_map hk
  · rintro ⟨hup, hties⟩
    refine hparts.mpr fun k => ?_
    have hk : k = toLex ((ofLex k).1, (ofLex k).2) := rfl
    rw [hk, keyed_entries, keyed_entries, hties]
    by_cases hne : edgesTo (ofLex k).1 f' = []
    · simp [hne]
    · rw [UpToOrder.versionIn_eq hv hv' hf hf' hup hne]

/-! ## Features, views, the registry -/

def featureEntry (view : FeatureViewDef) (f : FeatureDef) : NameVersion × Value :=
  (toLex (f.name, f.featureVersion), featureDict f (f.deps.map (dependencyEntry view)))

include hv hf in
theorem ValidView.canonicalFeature_eq :
    canonicalFeature f (featuresByName view.features) = .ok (featureEntry view f) := by
  rw [canonicalFeature, mapM_eq_ok fun d hd => hv.canonicalDependency_eq hf hd]
  rfl

include hv hf hv' hf' in
theorem featureEntry_iff :
    (featureEntry view f).2.normal eqv = (featureEntry view' f').2.normal eqv ↔
      FeatureEquiv view view' f f' ∧ FeatureTies f f' := by
  rw [featureEntry, featureEntry, normal_featureDict_iff, sortedDeps_iff hv hv' hf hf']
  constructor
  · rintro ⟨h₁, h₂, h₃, h₄, h₅, h₆, h₇, ⟨h₈, hties⟩, h₉⟩
    exact ⟨⟨h₁, h₂, h₃, h₄, h₅, h₆, h₇, h₈, h₉⟩, hties⟩
  · rintro ⟨⟨h₁, h₂, h₃, h₄, h₅, h₆, h₇, h₈, h₉⟩, hties⟩
    exact ⟨h₁, h₂, h₃, h₄, h₅, h₆, h₇, ⟨h₈, hties⟩, h₉⟩

theorem featureEntry_key {view view' : FeatureViewDef} {f f' : FeatureDef}
    (h : (featureEntry view f).2.normal eqv = (featureEntry view' f').2.normal eqv) :
    (featureEntry view f).1 = (featureEntry view' f').1 := by
  obtain ⟨h₁, -, h₂, -⟩ := normal_featureDict_iff.mp h
  exact toLex_inj.mpr (Prod.ext h₁ h₂)

/-- Sorted dictionaries whose members have names of their own show their members up to order. -/
theorem sortedEntries_iff {α : Type} {entry entry' : α → NameVersion × Value} {l l' : List α} {R : α → α → Prop}
    (name : α → String) (hname : ∀ a, (ofLex (entry a).1).1 = name a) (hn : (l.map name).Nodup)
    (hkey : ∀ a b, (entry a).2.normal eqv = (entry' b).2.normal eqv → (entry a).1 = (entry' b).1)
    (hR : ∀ a ∈ l, ∀ b ∈ l', R a b ↔ (entry a).2.normal eqv = (entry' b).2.normal eqv) :
    (sortedDicts (l.map entry)).normal eqv = (sortedDicts (l'.map entry')).normal eqv ↔ UpToOrder R l l' := by
  have hkeys : ∀ e ∈ l.map entry, ∀ e' ∈ l'.map entry', e.2.normal eqv = e'.2.normal eqv → e.1 = e'.1 := by
    intro e he e' he' h
    obtain ⟨a, -, rfl⟩ := List.mem_map.mp he
    obtain ⟨b, -, rfl⟩ := List.mem_map.mp he'
    exact hkey a b h
  have hties : ∀ e ∈ l.map entry, ∀ e' ∈ l.map entry, e.1 = e'.1 → e = e' := by
    intro e he e' he' h
    obtain ⟨a, ha, rfl⟩ := List.mem_map.mp he
    obtain ⟨b, hb, rfl⟩ := List.mem_map.mp he'
    have hab : name a = name b := by rw [← hname a, ← hname b, h]
    rw [List.inj_on_of_nodup_map hn ha hb hab]
  rw [normal_sortedDicts, normal_sortedDicts, Value.arr.injEq,
    map_sortedBy_eq_iff_perm Prod.fst (fun e : NameVersion × Value => e.2.normal eqv) hkeys hties, List.map_map,
    List.map_map]
  exact (upToOrder_iff_perm hR).symm

def viewEntry (view : FeatureViewDef) : NameVersion × Value :=
  (toLex (view.name, view.viewVersion), viewDict view (view.features.map (featureEntry view)))

include hv in
theorem ValidView.canonicalView_eq : canonicalView view = .ok (viewEntry view) := by
  have h : (view.features.mapM fun f => canonicalFeature f (featuresByName view.features)) =
      .ok (view.features.map (featureEntry view)) := mapM_eq_ok fun f hf => hv.canonicalFeature_eq hf
  rw [canonicalView, h]
  rfl

include hv hv' in
theorem viewEntry_iff :
    (viewEntry view).2.normal eqv = (viewEntry view').2.normal eqv ↔ ViewEquiv view view' ∧ ViewTies view view' := by
  have hfeatures : (sortedDicts (view.features.map (featureEntry view))).normal eqv =
        (sortedDicts (view'.features.map (featureEntry view'))).normal eqv ↔
      UpToOrder (FeatureEquiv view view') view.features view'.features ∧ ViewTies view view' := by
    rw [sortedEntries_iff (·.name) (fun _ => rfl) hv.names_nodup (fun f f' => featureEntry_key)
      fun f hf f' hf' => (featureEntry_iff hv hv' hf hf').symm]
    exact upToOrder_and (fun f : FeatureDef => f.name) (fun f : FeatureDef => f.name) (fun f f' h => h.name) hv.names_nodup
  rw [viewEntry, viewEntry, normal_viewDict_iff, hfeatures]
  constructor
  · rintro ⟨h₁, h₂, h₃, h₄, h₅, h₆, h₇, h₈, h₉, hties⟩
    exact ⟨⟨h₁, h₂, h₃, h₄, h₅, h₆, h₇, h₈, h₉⟩, hties⟩
  · rintro ⟨⟨h₁, h₂, h₃, h₄, h₅, h₆, h₇, h₈, h₉⟩, hties⟩
    exact ⟨h₁, h₂, h₃, h₄, h₅, h₆, h₇, h₈, h₉, hties⟩

theorem viewEntry_key {view view' : FeatureViewDef}
    (h : (viewEntry view).2.normal eqv = (viewEntry view').2.normal eqv) : (viewEntry view).1 = (viewEntry view').1 := by
  obtain ⟨h₁, -, -, h₂, -⟩ := normal_viewDict_iff.mp h
  exact toLex_inj.mpr (Prod.ext h₁ h₂)

end

def registryContent (r : Registry) : Value := registryDict r (r.featureViews.map viewEntry)

theorem canonicalRegistryContent_eq {r : Registry} (hr : validateRegistry r = .ok ()) :
    canonicalRegistryContent r = .ok (registryContent r) := by
  rw [canonicalRegistryContent, mapM_eq_ok fun v hv => (ValidView.of_validateRegistry hr hv).canonicalView_eq]
  rfl

/-- Definitions with names of their own, sorted by name. -/
theorem sortedNamed_iff (eqv : Bool) {α : Type} {dict : α → Value} (l l' : List α) (name : α → String)
    (hn : (l.map name).Nodup) (hinj : ∀ a b, (dict a).normal eqv = (dict b).normal eqv ↔ a = b) :
    (Value.arr ((sortedBy name l).map dict)).normal eqv = (Value.arr ((sortedBy name l').map dict)).normal eqv ↔
      l.Perm l' := by
  have hdict : Function.Injective (Value.normal eqv ∘ dict) := fun a b => (hinj a b).mp
  rw [Value.normal_arr, Value.normal_arr, Value.arr.injEq, List.map_map, List.map_map,
    map_sortedBy_eq_iff_perm name (Value.normal eqv ∘ dict) (fun a _ b _ h => by rw [hdict h])
      (fun a ha b hb => List.inj_on_of_nodup_map hn ha hb)]
  exact List.map_perm_map_iff hdict

theorem normal_registryContent_iff {r r' : Registry} (hr : validateRegistry r = .ok ())
    (hr' : validateRegistry r' = .ok ()) :
    (registryContent r).normal eqv = (registryContent r').normal eqv ↔ Equivalent r r' ∧ SameTies r r' := by
  have hnames := hr
  simp only [validateRegistry, bind_eq_ok, uniqueNames_eq_ok] at hnames
  obtain ⟨_, he, _, hs, _, hv, -⟩ := hnames
  have hviews : (sortedDicts (r.featureViews.map viewEntry)).normal eqv =
        (sortedDicts (r'.featureViews.map viewEntry)).normal eqv ↔
      UpToOrder ViewEquiv r.featureViews r'.featureViews ∧ SameTies r r' := by
    rw [sortedEntries_iff (·.name) (fun _ => rfl) hv.1 (fun v v' => viewEntry_key) fun v hv v' hv' =>
      (viewEntry_iff (ValidView.of_validateRegistry hr hv) (ValidView.of_validateRegistry hr' hv')).symm]
    exact upToOrder_and (fun v : FeatureViewDef => v.name) (fun v : FeatureViewDef => v.name) (fun v v' h => h.name) hv.1
  rw [registryContent, registryContent, registryDict, registryDict, Value.normal_obj_eq_iff]
  · have hent := sortedNamed_iff eqv r.entities r'.entities (·.name) he.1 fun _ _ => normal_entityDict_inj
    have hsrc := sortedNamed_iff eqv r.sources r'.sources (·.name) hs.1 fun _ _ => normal_sourceDict_inj
    simp only [Dict.values, List.map_cons, List.map_nil, List.cons.injEq, and_true, hent, hsrc, hviews]
    constructor
    · rintro ⟨h₁, h₂, h₃, hties⟩
      exact ⟨⟨h₁, h₂, h₃⟩, hties⟩
    · rintro ⟨⟨h₁, h₂, h₃⟩, hties⟩
      exact ⟨h₁, h₂, h₃, hties⟩
  · rfl
  · simp [Dict.keys]

/-! ## Two edges to one feature -/

def salaryFeature : FeatureDef where
  name := "salary"
  kind := .udf
  featureVersion := 1
  udf := "u.salary"
  dtype := "int"
  status := "active"
  inputs := ["a"]
  lifecycle := .live
  ok := by rfl

def salaryEdge (required : Bool) : FeatureDependency where
  feature := "salary"
  required := required
  ok := by cases required <;> decide

/-- Two edges to one feature pass every check. -/
def creditFeature (required : Bool) : FeatureDef where
  name := "credit"
  kind := .udf
  featureVersion := 1
  udf := "u.credit"
  dtype := "int"
  status := "active"
  deps := [salaryEdge required, salaryEdge !required]
  lifecycle := .live
  ok := by cases required <;> decide

def creditView (required : Bool) : FeatureViewDef where
  name := "risk"
  entity := "user"
  keyFields := ["user_id"]
  viewVersion := 1
  owner := "o"
  status := "active"
  features := [salaryFeature, creditFeature required]
  ok := by cases required <;> decide
  groups_nodup := by cases required <;> decide

theorem credit_reordered : Equivalent (userRegistry (creditView true)) (userRegistry (creditView false)) := by
  have hsalary : FeatureEquiv (creditView true) (creditView false) salaryFeature salaryFeature :=
    ⟨rfl, rfl, rfl, rfl, rfl, rfl, .refl _, ⟨[], .refl _, .nil⟩, rfl⟩
  have hedge : ∀ required, DependencyEquiv (creditView true) (creditView false) (salaryEdge required) (salaryEdge required) :=
    fun required => ⟨rfl, by cases required <;> decide, rfl, rfl, rfl⟩
  have hscore : FeatureEquiv (creditView true) (creditView false) (creditFeature true) (creditFeature false) :=
    ⟨rfl, rfl, rfl, rfl, rfl, rfl, .refl _,
      ⟨[salaryEdge false, salaryEdge true], .swap _ _ _, .cons (hedge _) (.cons (hedge _) .nil)⟩, rfl⟩
  exact ⟨.refl _, .refl _, ⟨_, .refl _, .cons ⟨rfl, rfl, rfl, rfl, rfl, rfl, rfl, ⟨[], .refl _, .nil⟩,
    ⟨_, .refl _, .cons hsalary (.cons hscore .nil)⟩⟩ .nil⟩⟩

/-- The content tells registries apart exactly by their definitions, but for edges of one feature to one target that
are declared in another order. -/
theorem content_identifies_definitions_iff {r r' : Registry} (hr : validateRegistry r = .ok ())
    (hr' : validateRegistry r' = .ok ()) : ∃ c c', canonicalRegistryContent r = .ok c ∧
      canonicalRegistryContent r' = .ok c' ∧
      ((c.pyEq c' = true ↔ Equivalent r r') ↔ (Equivalent r r' → SameTies r r')) := by
  refine ⟨_, _, canonicalRegistryContent_eq hr, canonicalRegistryContent_eq hr', ?_⟩
  rw [Value.pyEq_iff_normal, normal_registryContent_iff hr hr']
  constructor
  · intro h he
    exact (h.mpr he).2
  · intro h
    exact ⟨And.left, fun he => ⟨he, h he⟩⟩

theorem content_identifies_definitions_iff_credit : ∃ c c',
    canonicalRegistryContent (userRegistry (creditView true)) = .ok c ∧
      canonicalRegistryContent (userRegistry (creditView false)) = .ok c' ∧
      ((c.pyEq c' = true ↔ Equivalent (userRegistry (creditView true)) (userRegistry (creditView false))) ↔
        (Equivalent (userRegistry (creditView true)) (userRegistry (creditView false)) →
          SameTies (userRegistry (creditView true)) (userRegistry (creditView false)))) :=
  content_identifies_definitions_iff (by decide +kernel) (by decide +kernel)

theorem tied_edges_reordered :
    validateRegistry (userRegistry (creditView true)) = .ok () ∧
      validateRegistry (userRegistry (creditView false)) = .ok () ∧
      Equivalent (userRegistry (creditView true)) (userRegistry (creditView false)) ∧
      ∃ c c', canonicalRegistryContent (userRegistry (creditView true)) = .ok c ∧
        canonicalRegistryContent (userRegistry (creditView false)) = .ok c' ∧
        c.pyEq c' = false := by
  have hr : validateRegistry (userRegistry (creditView true)) = .ok () := by decide +kernel
  have hr' : validateRegistry (userRegistry (creditView false)) = .ok () := by decide +kernel
  refine ⟨hr, hr', credit_reordered, _, _, canonicalRegistryContent_eq hr, canonicalRegistryContent_eq hr', ?_⟩
  rw [← Bool.not_eq_true, Value.pyEq_iff_normal, normal_registryContent_iff hr hr']
  rintro ⟨-, hties⟩
  have h := hties _ List.mem_cons_self _ List.mem_cons_self rfl (creditFeature true) (by decide)
    (creditFeature false) (by decide) rfl "salary"
  exact absurd h (by decide)

end ClearFeature
