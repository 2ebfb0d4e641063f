import ClearFeature.FeatureStore
import ClearFeature.Pit
import ClearFeature.Propagation
import ClearFeature.Resolution

/-!
# Recomputing a dependent from history

For a feature of a validated view the recomputation reads the selected row of
each dependency and nothing else. Without staleness bounds the time of the
recomputation goes into the result's `calc_ts` only.
-/

namespace ClearFeature

/-! ## Views of a validated registry -/

section
variable {r : Registry} (hr : validateRegistry r = .ok ()) {view : FeatureViewDef} (hv : view ∈ r.featureViews)
include hr hv

theorem findView?_valid : findView? r view.name view.viewVersion = some view :=
  find?_of_nodup (by simp) (fun v h => by
    simp only [Bool.decide_and, Bool.and_eq_true, decide_eq_true_eq] at h
    exact h.1) (viewNames_nodup hr) hv

theorem registry_findView_valid : r.findView view.name view.viewVersion = .ok view := by
  have h := findView?_valid hr hv
  unfold findView? at h
  unfold Registry.findView
  rw [h]

end

theorem findView?_some {r : Registry} {name : String} {version : Int} {view : FeatureViewDef}
    (h : findView? r name version = some view) : view ∈ r.featureViews ∧ view.name = name ∧ view.viewVersion = version := by
  have hp := List.find?_some h
  simp only [Bool.decide_and, Bool.and_eq_true, decide_eq_true_eq] at hp
  exact ⟨List.mem_of_find?_eq_some h, hp⟩

/-! ## The prefilled context -/

def cacheAll (cached : String → Option FeatureComputation) : List FeatureDependency → RequestContext → RequestContext
  | [], ctx => ctx
  | d :: deps, ctx =>
    match cached d.feature with
    | none => cacheAll cached deps ctx
    | some c => cacheAll cached deps (ctx.cacheFeature d.feature c)

section
variable {cached : String → Option FeatureComputation}

theorem cacheAll_spec : ∀ {deps : List FeatureDependency} (ctx : RequestContext),
    (∀ d ∈ deps, (cached d.feature).isSome) →
    (cacheAll cached deps ctx).sourceLoader = ctx.sourceLoader ∧ (cacheAll cached deps ctx).sources = ctx.sources ∧
    (∀ d ∈ deps, Dict.get? (cacheAll cached deps ctx).features d.feature = cached d.feature) ∧
    ∀ n, (∀ d ∈ deps, d.feature ≠ n) → Dict.get? (cacheAll cached deps ctx).features n = Dict.get? ctx.features n ∧
      Dict.get? (cacheAll cached deps ctx).statuses n = Dict.get? ctx.statuses n
  | [], ctx, _ => ⟨rfl, rfl, fun d hd => (nomatch hd), fun n _ => ⟨rfl, rfl⟩⟩
  | dep :: deps, ctx, h => by
    obtain ⟨c, hc⟩ := Option.isSome_iff_exists.mp (h dep List.mem_cons_self)
    have hcache : cacheAll cached (dep :: deps) ctx = cacheAll cached deps (ctx.cacheFeature dep.feature c) := by
      rw [cacheAll, hc]
    obtain ⟨hl, hs, hin, hout⟩ := cacheAll_spec (ctx.cacheFeature dep.feature c) fun d hd =>
      h d (List.mem_cons_of_mem _ hd)
    rw [hcache]
    refine ⟨hl, hs, fun d hd => ?_, fun n hn => ?_⟩
    · by_cases hlater : ∃ d' ∈ deps, d'.feature = d.feature
      · obtain ⟨d', hd', he⟩ := hlater
        rw [← he]
        exact hin d' hd'
      · rcases List.mem_cons.mp hd with rfl | hd
        · have hkeep := (hout d.feature fun d' hd' he => hlater ⟨d', hd', he⟩).1
          rw [hkeep, RequestContext.cacheFeature, Dict.get?_set_self, hc]
        · exact absurd ⟨d, hd, rfl⟩ hlater
    · obtain ⟨hfeatures, hstatuses⟩ := hout n fun d hd => hn d (List.mem_cons_of_mem _ hd)
      have hne := hn dep List.mem_cons_self
      rw [hfeatures, hstatuses, RequestContext.cacheFeature]
      exact ⟨Dict.get?_set_ne _ _ hne, Dict.get?_set_ne _ _ hne⟩

theorem resolveDeps_cached {rec : String → RequestContext → Except PyErr (Option FeatureComputation × RequestContext)}
    {calcTs : Int} {ctx : RequestContext} : ∀ {deps : List FeatureDependency} {st : DepState},
      (∀ d ∈ deps, rec d.feature ctx = .ok (cached d.feature, ctx)) →
      resolveDeps rec calcTs deps st ctx =
        (evalDeps (fun n => .ok (cached n)) calcTs deps st).map fun out => (out, ctx)
  | [], st, _ => rfl
  | dep :: deps, st, h => by
    rw [resolveDeps, h dep List.mem_cons_self, ok_bind, evalDeps, ok_bind]
    dsimp only
    rcases addDep calcTs dep (cached dep.feature) st with e | _ | st'
    · rfl
    · rfl
    · exact resolveDeps_cached fun d hd => h d (List.mem_cons_of_mem _ hd)

end

/-! ## The recomputation in closed form -/

def FeatureViewDef.slotOf (view : FeatureViewDef) (entityKey : EntityKey) (name : String) : Option FeatureSlot :=
  (Dict.get? (featuresByName view.features) name).map fun target =>
    ⟨entityKey.encode, view.name, view.viewVersion, name, target.featureVersion⟩

/-- The row that is read for a dependency. -/
def FeatureViewDef.pitOf (view : FeatureViewDef) (offline : OfflineStore) (entityKey : EntityKey) (calcTs : Int)
    (name : String) : Option OfflineFeatureRecord :=
  (view.slotOf entityKey name).bind fun slot => pitRow (offline.rows slot) calcTs 0

def FeatureStore.cachedOf (fs : FeatureStore) (view : FeatureViewDef) (offline : OfflineStore) (entityKey : EntityKey)
    (calcTs : Int) (name : String) : Option FeatureComputation :=
  (view.pitOf offline entityKey calcTs name).map fun rec => FeatureStore.prefilled fs.core.sha256 rec.result

def recomputed (core : ComputeCore) (view : FeatureViewDef) (feature : FeatureDef) (calcTs : Int)
    (cached : String → Option FeatureComputation) : Except PyErr (Option FeatureComputation) := do
  match ← evalDeps (fun n => .ok (cached n)) calcTs feature.deps ([], false) with
  | none => .ok none
  | some st => do
    let c ← finishNode core (featuresByName view.features) [] feature [] st.1 st.2
    .ok (some c)

section
variable {fs : FeatureStore} (hr : validateRegistry fs.core.registry = .ok ()) {view : FeatureViewDef}
  (hv : view ∈ fs.core.registry.featureViews) {feature : FeatureDef} (hf : feature ∈ view.features)
  (offline : OfflineStore) (entityKey : EntityKey) (calcTs : Int)
include hr hv hf

theorem prefillDeps_eq : ∀ (deps : List FeatureDependency) (ctx : RequestContext), (∀ d ∈ deps, d ∈ feature.deps) →
    FeatureStore.prefillDeps fs offline view.name view.viewVersion entityKey calcTs 0 (featuresByName view.features)
      feature.name deps ctx =
    .ok (if deps.all fun d => (fs.cachedOf view offline entityKey calcTs d.feature).isSome then
      some (cacheAll (fs.cachedOf view offline entityKey calcTs) deps ctx) else none)
  | [], ctx, _ => rfl
  | dep :: deps, ctx, hdeps => by
    have hvalid := ValidView.of_validateRegistry hr hv
    obtain ⟨target, ht, hname, hpin⟩ := hvalid.deps_known feature hf dep (hdeps dep List.mem_cons_self)
    have hget : Dict.get? (featuresByName view.features) dep.feature = some target :=
      hname ▸ featuresByName_mem hvalid.names_nodup ht
    have hversion : dep.version.getD target.featureVersion = target.featureVersion := by
      cases hd : dep.version with
      | none => rfl
      | some p => exact hpin p hd
    have hcached : fs.cachedOf view offline entityKey calcTs dep.feature =
        (pitRow (offline.rows ⟨entityKey.encode, view.name, view.viewVersion, dep.feature, target.featureVersion⟩)
          calcTs 0).map fun rec => FeatureStore.prefilled fs.core.sha256 rec.result := by
      unfold FeatureStore.cachedOf FeatureViewDef.pitOf FeatureViewDef.slotOf
      rw [hget]
      rfl
    rw [FeatureStore.prefillDeps, hget]
    dsimp only
    rw [hversion, getPit_eq (le_refl 0), ok_bind, List.all_cons, cacheAll, hcached]
    cases pitRow (offline.rows ⟨entityKey.encode, view.name, view.viewVersion, dep.feature, target.featureVersion⟩)
        calcTs 0 with
    | none => rfl
    | some rec => exact prefillDeps_eq deps _ fun d hd => hdeps d (List.mem_cons_of_mem _ hd)

theorem resolve_prefilled (hin : feature.inputs = []) (loader : String → Except PyErr Value)
    {cached : String → Option FeatureComputation} (hall : ∀ d ∈ feature.deps, (cached d.feature).isSome) :
    (fs.core.resolve (featuresByName view.features) [] calcTs view.fuel [] feature.name
        (cacheAll cached feature.deps ⟨loader, [], [], []⟩)).map Prod.fst =
      recomputed fs.core view feature calcTs cached := by
  have hvalid := ValidView.of_validateRegistry hr hv
  obtain ⟨-, -, hdeps, hothers⟩ := cacheAll_spec ⟨loader, [], [], []⟩ hall
  obtain ⟨hfeatures, hstatuses⟩ := hothers feature.name (no_self_dependency hr hv hf)
  have hskip : (cacheAll cached feature.deps ⟨loader, [], [], []⟩).isSkipped feature.name = false := by
    unfold RequestContext.isSkipped
    rw [hstatuses]
    rfl
  obtain ⟨n, hn⟩ : ∃ n, view.fuel = n + 2 := by
    have hpos : 0 < view.features.length := List.length_pos_of_mem hf
    exact ⟨view.features.length - 1, by unfold FeatureViewDef.fuel; omega⟩
  have hresolve : ∀ d ∈ feature.deps, fs.core.resolve (featuresByName view.features) [] calcTs (n + 1)
      ([] ++ [feature.name]) d.feature (cacheAll cached feature.deps ⟨loader, [], [], []⟩) =
      .ok (cached d.feature, cacheAll cached feature.deps ⟨loader, [], [], []⟩) := by
    intro d hd
    obtain ⟨c, hc⟩ := Option.isSome_iff_exists.mp (hall d hd)
    rw [ComputeCore.resolve, hdeps d hd, hc]
  rw [hn, ComputeCore.resolve, hfeatures, hskip, featuresByName_mem hvalid.names_nodup hf, Dict.get?_nil]
  dsimp only
  rw [if_neg (by simp), if_neg (by simp), hin, loadSources, ok_bind]
  dsimp only
  rw [resolveDeps_cached hresolve]
  unfold recomputed
  rcases evalDeps (fun n => .ok (cached n)) calcTs feature.deps ([], false) with e | _ | st
  · rfl
  · rfl
  · dsimp only [Except.map, bind, Except.bind]
    rcases finishNode fs.core (featuresByName view.features) [] feature [] st.1 st.2 with e | c
    · rfl
    · rfl

theorem computeDependent_resolve :
    fs.computeDependentFromOffline offline view.name view.viewVersion entityKey calcTs 0 feature.name =
      if feature.deps.all fun d => (fs.cachedOf view offline entityKey calcTs d.feature).isSome then
        (fs.core.resolve (featuresByName view.features) [] calcTs view.fuel [] feature.name
          (cacheAll (fs.cachedOf view offline entityKey calcTs) feature.deps
            ⟨FeatureStore.noSource feature.name, [], [], []⟩)).map fun out =>
          out.1.map fun c => c.result feature.ref entityKey calcTs
      else .ok none := by
  have hvalid := ValidView.of_validateRegistry hr hv
  unfold FeatureStore.computeDependentFromOffline
  rw [registry_findView_valid hr hv, ok_bind]
  dsimp only
  rw [featuresByName_mem hvalid.names_nodup hf]
  dsimp only
  rw [prefillDeps_eq hr hv hf offline entityKey calcTs feature.deps _ fun d hd => hd, ok_bind]
  by_cases hall : (feature.deps.all fun d => (fs.cachedOf view offline entityKey calcTs d.feature).isSome) = true
  · rw [if_pos hall, if_pos hall]
    dsimp only
    rw [ComputeCore.compute, core_findView_valid hr hv rfl, ok_bind, ComputeCore.computeLoop]
    rcases fs.core.resolve (featuresByName view.features) [] calcTs view.fuel [] feature.name
        (cacheAll (fs.cachedOf view offline entityKey calcTs) feature.deps
          ⟨FeatureStore.noSource feature.name, [], [], []⟩) with e | ⟨_ | c, ctx⟩
    · rfl
    · rfl
    · rw [ok_bind]
      dsimp only
      rw [featuresByName_mem hvalid.names_nodup hf]
      dsimp only
      rw [ComputeCore.computeLoop, ok_bind]
      dsimp only
      rw [Dict.get?_set_self]
      rfl
  · rw [if_neg hall, if_neg hall]

theorem computeDependent_eq (hin : feature.inputs = []) :
    fs.computeDependentFromOffline offline view.name view.viewVersion entityKey calcTs 0 feature.name =
      if feature.deps.all fun d => (fs.cachedOf view offline entityKey calcTs d.feature).isSome then
        (recomputed fs.core view feature calcTs (fs.cachedOf view offline entityKey calcTs)).map fun out =>
          out.map fun c => c.result feature.ref entityKey calcTs
      else .ok none := by
  rw [computeDependent_resolve hr hv hf]
  split
  · rename_i hall
    rw [List.all_eq_true] at hall
    rw [← resolve_prefilled hr hv hf calcTs hin (FeatureStore.noSource feature.name) hall]
    rcases fs.core.resolve (featuresByName view.features) [] calcTs view.fuel [] feature.name
        (cacheAll (fs.cachedOf view offline entityKey calcTs) feature.deps
          ⟨FeatureStore.noSource feature.name, [], [], []⟩) with e | ⟨_ | c, ctx⟩
    · rfl
    · rfl
    · rfl
  · rfl

/-- A feature that reads a raw source is not recomputed. -/
theorem computeDependent_inputs {r : FeatureResult}
    (h : fs.computeDependentFromOffline offline view.name view.viewVersion entityKey calcTs 0 feature.name = .ok (some r)) :
    feature.inputs = [] := by
  have hvalid := ValidView.of_validateRegistry hr hv
  rw [computeDependent_resolve hr hv hf] at h
  split at h
  · rename_i hall
    rw [List.all_eq_true] at hall
    obtain ⟨hloader, hsources, -, hothers⟩ := cacheAll_spec
      ⟨FeatureStore.noSource feature.name, [], [], []⟩ hall
    obtain ⟨hfeatures, hstatuses⟩ := hothers feature.name (no_self_dependency hr hv hf)
    have hskip : (cacheAll (fs.cachedOf view offline entityKey calcTs) feature.deps
        ⟨FeatureStore.noSource feature.name, [], [], []⟩).isSkipped feature.name = false := by
      unfold RequestContext.isSkipped
      rw [hstatuses]
      rfl
    cases hin : feature.inputs with
    | nil => rfl
    | cons src srcs =>
      unfold FeatureViewDef.fuel at h
      rw [ComputeCore.resolve, hfeatures, hskip, featuresByName_mem hvalid.names_nodup hf, Dict.get?_nil] at h
      dsimp only at h
      rw [if_neg (by simp), if_neg (by simp), hin, loadSources, RequestContext.getSource, hsources, hloader] at h
      cases h
  · cases h

end

/-! ## What is recomputed -/

section
variable {core : ComputeCore} {view : FeatureViewDef} {feature : FeatureDef} {calcTs : Int}
  {cached cached' : String → Option FeatureComputation}

theorem addDep_calcTs {dep : FeatureDependency} (h : dep.maxInputAgeSeconds = none) (comp : Option FeatureComputation)
    (st : DepState) (t t' : Int) : addDep t dep comp st = addDep t' dep comp st := by
  unfold addDep edgeIsStale
  rw [h]

theorem evalDeps_calcTs {rec : String → Except PyErr (Option FeatureComputation)} (t t' : Int) :
    ∀ {deps : List FeatureDependency} {st : DepState}, (∀ d ∈ deps, d.maxInputAgeSeconds = none) →
      evalDeps rec t deps st = evalDeps rec t' deps st
  | [], _, _ => rfl
  | dep :: deps, st, h => by
    rw [evalDeps, evalDeps]
    cases rec dep.feature with
    | error e => rfl
    | ok comp =>
      rw [ok_bind, ok_bind, addDep_calcTs (h dep List.mem_cons_self) comp st t t']
      rcases addDep t' dep comp st with e | _ | st'
      · rfl
      · rfl
      · exact evalDeps_calcTs t t' fun d hd => h d (List.mem_cons_of_mem _ hd)

theorem evalDeps_cached : ∀ {deps : List FeatureDependency} {st : DepState},
    (∀ d ∈ deps, cached d.feature = cached' d.feature) →
    evalDeps (fun n => .ok (cached n)) calcTs deps st = evalDeps (fun n => .ok (cached' n)) calcTs deps st
  | [], _, _ => rfl
  | dep :: deps, st, h => by
    rw [evalDeps, evalDeps, h dep List.mem_cons_self, ok_bind, ok_bind]
    rcases addDep calcTs dep (cached' dep.feature) st with e | _ | st'
    · rfl
    · rfl
    · exact evalDeps_cached fun d hd => h d (List.mem_cons_of_mem _ hd)

/-- Without staleness bounds only the cached entries of the dependencies matter. -/
theorem recomputed_congr (hage : ∀ d ∈ feature.deps, d.maxInputAgeSeconds = none) (t t' : Int)
    (h : ∀ d ∈ feature.deps, cached d.feature = cached' d.feature) :
    recomputed core view feature t cached = recomputed core view feature t' cached' := by
  unfold recomputed
  rw [evalDeps_calcTs t t' hage, evalDeps_cached h]

theorem evalDeps_ne_none : ∀ {deps : List FeatureDependency} {st : DepState},
    (∀ d ∈ deps, d.maxInputAgeSeconds = none) → (∀ d ∈ deps, (cached d.feature).isSome) →
    evalDeps (fun n => .ok (cached n)) calcTs deps st ≠ .ok none
  | [], _, _, _ => fun h => (nomatch h)
  | dep :: deps, st, hage, hall => by
    obtain ⟨c, hc⟩ := Option.isSome_iff_exists.mp (hall dep List.mem_cons_self)
    rw [evalDeps, hc, ok_bind, addDep, edgeIsStale, hage dep List.mem_cons_self]
    exact evalDeps_ne_none (fun d hd => hage d (List.mem_cons_of_mem _ hd)) fun d hd => hall d (List.mem_cons_of_mem _ hd)

theorem recomputed_ne_none (hage : ∀ d ∈ feature.deps, d.maxInputAgeSeconds = none)
    (hall : ∀ d ∈ feature.deps, (cached d.feature).isSome) : recomputed core view feature calcTs cached ≠ .ok none := by
  intro h
  unfold recomputed at h
  obtain ⟨out, hst, h⟩ := bind_eq_ok.mp h
  cases out with
  | none => exact evalDeps_ne_none hage hall hst
  | some st =>
    obtain ⟨c, -, h⟩ := bind_eq_ok.mp h
    cases h

theorem maxAvailable_le {bound : Int} : ∀ {rows : List InputRow} {a : Int}, maxAvailable rows = some a →
    (∀ row ∈ rows, ∀ b, row.availableAt = some b → b ≤ bound) → a ≤ bound
  | [], a, h, _ => by cases h
  | [row], a, h, hb => hb row List.mem_cons_self a h
  | row :: row₂ :: rows, a, h, hb => by
    rw [maxAvailable] at h
    split at h
    · rename_i x y hx hy
      cases h
      have hx' := hb row List.mem_cons_self x hx
      have hy' := maxAvailable_le hy fun r hr => hb r (List.mem_cons_of_mem _ hr)
      omega
    · cases h

/-- The metadata of a recomputed value, in terms of the cached entries. -/
structure RecomputedFrom (deps : List FeatureDependency) (cached : String → Option FeatureComputation)
    (c : FeatureComputation) : Prop where
  data_le : ∀ d ∈ deps, ∀ c', cached d.feature = some c' → c.dataTs ≤ c'.dataTs
  data_mem : ∃ d ∈ deps, ∃ c', cached d.feature = some c' ∧ c'.dataTs = c.dataTs
  available_le : ∀ bound, (∀ d ∈ deps, ∀ c', cached d.feature = some c' → ∀ b, c'.availableAt = some b → b ≤ bound) →
    ∀ a, c.availableAt = some a → a ≤ bound

theorem recomputed_from {c : FeatureComputation} (h : recomputed core view feature calcTs cached = .ok (some c)) :
    RecomputedFrom feature.deps cached c := by
  unfold recomputed at h
  obtain ⟨out, hst, h⟩ := bind_eq_ok.mp h
  cases out with
  | none => cases h
  | some st =>
    obtain ⟨c', hc, h⟩ := bind_eq_ok.mp h
    cases h
    have hcomps : ∀ k c, Dict.get? st.1 k = some c ↔ (∃ d ∈ feature.deps, d.feature = k) ∧ cached k = some c := by
      intro k c
      rw [evalDeps_comps hst fun k c hk => by simp at hk]
      simp
    have hnodup : (Dict.keys st.1).Nodup := evalDeps_nodup hst List.nodup_nil
    unfold finishNode at hc
    obtain ⟨srcRows, hsrc, hc⟩ := bind_eq_ok.mp hc
    obtain ⟨comRows, hcom, hc⟩ := bind_eq_ok.mp hc
    obtain ⟨udf, -, hc⟩ := bind_eq_ok.mp hc
    obtain ⟨value, -, hc⟩ := bind_eq_ok.mp hc
    have hnil : srcRows = [] := by
      refine List.eq_nil_iff_forall_not_mem.mpr fun row hrow => ?_
      obtain ⟨_, -, _, hstamp, -⟩ := sourceRows_mem hsrc row hrow
      cases hstamp
    rw [hnil, List.nil_append] at hc
    have hsum := computation_summarises hc
    -- the input rows are those of the dependencies
    have hrow : ∀ row ∈ comRows, ∃ d ∈ feature.deps, ∃ c', cached d.feature = some c' ∧ row.dataTs = c'.dataTs ∧
        row.availableAt = c'.availableAt := by
      intro row hrow
      obtain ⟨k, c', f, hm, -, rfl⟩ := depRows_mem hcom row hrow
      obtain ⟨⟨d, hd, rfl⟩, hc'⟩ := (hcomps k c').mp (Dict.get?_of_mem hnodup hm)
      exact ⟨d, hd, c', hc', rfl, rfl⟩
    refine ⟨fun d hd c' hc' => ?_, ?_, fun bound hb a ha => ?_⟩
    · have hm := Dict.mem_of_get? ((hcomps d.feature c').mpr ⟨⟨d, hd, rfl⟩, hc'⟩)
      obtain ⟨f, -, hin⟩ := depRows_comp hcom d.feature c' hm
      exact hsum.data_le _ hin
    · obtain ⟨row, hm, hdata⟩ := hsum.data_mem
      obtain ⟨d, hd, c', hc', hrow, -⟩ := hrow row hm
      exact ⟨d, hd, c', hc', hrow.symm.trans hdata⟩
    · obtain ⟨-, row, rest, hrows, rfl⟩ := computation_ok hc
      refine maxAvailable_le (show maxAvailable (row :: rest) = some a from ha) fun r hr b hrb => ?_
      obtain ⟨d, hd, c', hc', -, havail⟩ := hrow r (hrows ▸ hr)
      exact hb d hd c' hc' b (havail.symm.trans hrb)

end

section
variable {fs : FeatureStore} {offline : OfflineStore} {entityKey : EntityKey} {calcTs : Int} {r : FeatureResult}

theorem computeDependent_result (hr : validateRegistry fs.core.registry = .ok ()) {view : FeatureViewDef}
    (hv : view ∈ fs.core.registry.featureViews) {feature : FeatureDef} (hf : feature ∈ view.features)
    (h : fs.computeDependentFromOffline offline view.name view.viewVersion entityKey calcTs 0 feature.name =
      .ok (some r)) :
    ∃ c, recomputed fs.core view feature calcTs (fs.cachedOf view offline entityKey calcTs) = .ok (some c) ∧
      r = c.result feature.ref entityKey calcTs ∧
      ∀ d ∈ feature.deps, (fs.cachedOf view offline entityKey calcTs d.feature).isSome := by
  have hin := computeDependent_inputs hr hv hf offline entityKey calcTs h
  rw [computeDependent_eq hr hv hf offline entityKey calcTs hin] at h
  split at h
  · rename_i hall
    rw [List.all_eq_true] at hall
    cases hc : recomputed fs.core view feature calcTs (fs.cachedOf view offline entityKey calcTs) with
    | error e =>
      rw [hc] at h
      cases h
    | ok out =>
      cases out with
      | none =>
        rw [hc] at h
        cases h
      | some c =>
        rw [hc] at h
        cases h
        exact ⟨c, rfl, rfl, hall⟩
  · cases h

theorem computeDependent_found {view name : String} {viewVersion : Int}
    (h : fs.computeDependentFromOffline offline view viewVersion entityKey calcTs 0 name = .ok (some r)) :
    ∃ viewDef ∈ fs.core.registry.featureViews, viewDef.name = view ∧ viewDef.viewVersion = viewVersion ∧
      ∃ feature ∈ viewDef.features, feature.name = name := by
  unfold FeatureStore.computeDependentFromOffline at h
  obtain ⟨viewDef, hview, h⟩ := bind_eq_ok.mp h
  have hfound : findView? fs.core.registry view viewVersion = some viewDef := by
    unfold Registry.findView at hview
    unfold findView?
    split at hview
    · rename_i v hv
      cases hview
      exact hv
    · cases hview
  obtain ⟨hmem, hname, hversion⟩ := findView?_some hfound
  refine ⟨viewDef, hmem, hname, hversion, ?_⟩
  dsimp only at h
  cases hf : Dict.get? (featuresByName viewDef.features) name with
  | none =>
    rw [hf] at h
    cases h
  | some feature => exact ⟨feature, featuresByName_name hf⟩

/-- A cached entry stands for a row that is eligible. -/
theorem cachedOf_eligible {view : FeatureViewDef} {name : String} {c : FeatureComputation}
    (h : fs.cachedOf view offline entityKey calcTs name = some c) :
    c.dataTs ≤ calcTs ∧ ∀ a, c.availableAt = some a → a ≤ calcTs := by
  unfold FeatureStore.cachedOf at h
  obtain ⟨rec, hrec, rfl⟩ := Option.map_eq_some_iff.mp h
  unfold FeatureViewDef.pitOf at hrec
  obtain ⟨slot, -, hrow⟩ := Option.bind_eq_some_iff.mp hrec
  obtain ⟨-, hdata, havail⟩ := pitRow_mem hrow
  refine ⟨by simpa [FeatureStore.prefilled] using hdata, fun a ha => ?_⟩
  have ha' : rec.result.availableAt = some a := ha
  unfold effectiveAvailable at havail
  rw [ha'] at havail
  exact havail

theorem RecomputedFrom.eligible {view : FeatureViewDef} {deps : List FeatureDependency} {c : FeatureComputation}
    (h : RecomputedFrom deps (fs.cachedOf view offline entityKey calcTs) c) (ref : FeatureRef) :
    (c.result ref entityKey calcTs).dataTs ≤ calcTs ∧ effectiveAvailable (c.result ref entityKey calcTs) ≤ calcTs := by
  obtain ⟨d, -, c', hc', hdata⟩ := h.data_mem
  refine ⟨?_, ?_⟩
  · show c.dataTs ≤ calcTs
    rw [← hdata]
    exact (cachedOf_eligible hc').1
  · show c.availableAt.getD calcTs ≤ calcTs
    cases ha : c.availableAt with
    | none => exact le_refl calcTs
    | some a => exact h.available_le calcTs (fun d hd c' hc' b hb => (cachedOf_eligible hc').2 b hb) a ha

end

end ClearFeature
