import ClearFeature.BatchItems
import ClearFeature.Lineage
import ClearFeature.Recompute

/-!
# Results up to their calculation time

Without staleness bounds the clock of a chunk goes into the `calc_ts` of its
results and nowhere else. Duplicates are found without looking at it.
-/

namespace ClearFeature

def FeatureResult.timeless (r : FeatureResult) : FeatureResult := { r with calcTs := 0 }

def OfflineFeatureRecord.timeless (rec : OfflineFeatureRecord) : OfflineFeatureRecord :=
  { rec with result := rec.result.timeless }

def OfflineStore.timeless (offline : OfflineStore) : OfflineStore := offline.map OfflineFeatureRecord.timeless

/-! ## Duplicates -/

section
variable (offline : OfflineStore) (view : String) (viewVersion : Int)

theorem existsInOffline_timeless (r : FeatureResult) :
    existsInOffline offline.timeless view viewVersion r.timeless = existsInOffline offline view viewVersion r := by
  have hget : OfflineStore.get offline.timeless r.entityKey (some r.ref.name) (some r.ref.version) (some view)
      (some viewVersion) =
      (offline.get r.entityKey (some r.ref.name) (some r.ref.version) (some view) (some viewVersion)).map
        OfflineFeatureRecord.timeless := List.filter_map
  unfold existsInOffline
  rw [show r.timeless.entityKey = r.entityKey from rfl, show r.timeless.ref = r.ref from rfl, hget, List.any_map]
  rfl

theorem partitionLoop_timeless : ∀ (rs : List FeatureResult) (seen : List Signature),
    (partitionLoop offline.timeless view viewVersion (rs.map FeatureResult.timeless) seen).1 =
      (partitionLoop offline view viewVersion rs seen).1.map FeatureResult.timeless
  | [], _ => rfl
  | r :: rs, seen => by
    rw [List.map_cons, partitionLoop, partitionLoop, existsInOffline_timeless,
      show r.timeless.signature = r.signature from rfl]
    by_cases hseen : r.signature ∈ seen
    · rw [if_pos hseen, if_pos hseen]
      exact partitionLoop_timeless rs seen
    rw [if_neg hseen, if_neg hseen]
    by_cases hold : existsInOffline offline view viewVersion r = true
    · rw [if_pos hold, if_pos hold]
      exact partitionLoop_timeless rs seen
    · rw [if_neg hold, if_neg hold]
      exact congrArg (r.timeless :: ·) (partitionLoop_timeless rs (r.signature :: seen))

theorem appendMany_timeless (rs : List FeatureResult) :
    (offline.appendMany view viewVersion rs).timeless =
      offline.timeless ++ (rs.map FeatureResult.timeless).map fun r => ⟨view, viewVersion, r⟩ := by
  rw [OfflineStore.appendMany_eq, OfflineStore.timeless, List.map_append, List.map_map, List.map_map]
  rfl

end

/-! ## Computing at another time -/

/-- No dependency at or below `name` has a staleness bound. -/
def NoBounds (byName : List (String × FeatureDef)) (name : String) : Prop :=
  ∀ k f, EvalEnv.Below byName name k → Dict.get? byName k = some f → ∀ d ∈ f.deps, d.maxInputAgeSeconds = none

theorem NoBounds.of_view {view : FeatureViewDef} (h : ∀ f ∈ view.features, ∀ d ∈ f.deps, d.maxInputAgeSeconds = none)
    (name : String) : NoBounds (featuresByName view.features) name :=
  fun _ f _ hf => h f (featuresByName_name hf).1

section
variable {core : ComputeCore} {byName : List (String × FeatureDef)} {stamps : SourceStamps} (t t' : Int)

theorem resolveDeps_calcTs {rec rec' : String → RequestContext → Except PyErr (Option FeatureComputation × RequestContext)} :
    ∀ {deps : List FeatureDependency} (st : DepState) (ctx : RequestContext),
      (∀ d ∈ deps, d.maxInputAgeSeconds = none ∧ ∀ ctx, rec d.feature ctx = rec' d.feature ctx) →
      resolveDeps rec t deps st ctx = resolveDeps rec' t' deps st ctx
  | [], _, _, _ => rfl
  | dep :: deps, st, ctx, h => by
    obtain ⟨hage, hrec⟩ := h dep List.mem_cons_self
    rw [resolveDeps, resolveDeps, hrec]
    cases rec' dep.feature ctx with
    | error e => rfl
    | ok out =>
      rw [ok_bind, ok_bind]
      dsimp only
      rw [addDep_calcTs hage out.1 st t t']
      rcases addDep t' dep out.1 st with e | _ | st'
      · rfl
      · rfl
      · exact resolveDeps_calcTs st' out.2 fun d hd => h d (List.mem_cons_of_mem _ hd)

theorem resolve_calcTs : ∀ (fuel : Nat) (visiting : List String) (name : String) (ctx : RequestContext),
    NoBounds byName name →
    core.resolve byName stamps t fuel visiting name ctx = core.resolve byName stamps t' fuel visiting name ctx
  | 0, _, _, _, _ => rfl
  | fuel + 1, visiting, name, ctx, h => by
    rw [ComputeCore.resolve, ComputeCore.resolve]
    cases hf : Dict.get? byName name with
    | none => rfl
    | some f =>
      have hdeps : ∀ d ∈ f.deps, d.maxInputAgeSeconds = none ∧ ∀ ctx,
          core.resolve byName stamps t fuel (visiting ++ [name]) d.feature ctx =
            core.resolve byName stamps t' fuel (visiting ++ [name]) d.feature ctx := by
        intro d hd
        exact ⟨h name f (.refl name) hf d hd, fun ctx => resolve_calcTs fuel _ d.feature ctx
          fun k g hk hg => h k g (.dep hf hd hk) hg⟩
      have hloop : ∀ st ctx, resolveDeps (core.resolve byName stamps t fuel (visiting ++ [name])) t f.deps st ctx =
          resolveDeps (core.resolve byName stamps t' fuel (visiting ++ [name])) t' f.deps st ctx :=
        fun st ctx => resolveDeps_calcTs t t' st ctx hdeps
      simp only [hloop]

/-- The entries of a result dictionary without their times. -/
def timelessEntries (results : List (String × FeatureResult)) : List (String × FeatureResult) :=
  results.map fun p => (p.1, p.2.timeless)

theorem computeLoop_calcTs {entityKey : EntityKey} {fuel : Nat} : ∀ {names : List String}
    {results results' : List (String × FeatureResult)} (ctx : RequestContext), (∀ name ∈ names, NoBounds byName name) →
    timelessEntries results = timelessEntries results' →
    (core.computeLoop byName fuel entityKey stamps t names results ctx).map (fun out => (timelessEntries out.1, out.2)) =
      (core.computeLoop byName fuel entityKey stamps t' names results' ctx).map fun out => (timelessEntries out.1, out.2)
  | [], results, results', ctx, _, h => congrArg (fun rs => Except.ok (rs, ctx)) h
  | name :: names, results, results', ctx, hn, h => by
    have hrest : ∀ name ∈ names, NoBounds byName name := fun n hm => hn n (List.mem_cons_of_mem _ hm)
    rw [ComputeCore.computeLoop, ComputeCore.computeLoop, resolve_calcTs t t' fuel [] name ctx (hn name List.mem_cons_self)]
    rcases core.resolve byName stamps t' fuel [] name ctx with e | ⟨_ | c, ctx'⟩
    · rfl
    · exact computeLoop_calcTs ctx' hrest h
    · rw [ok_bind, ok_bind]
      dsimp only
      cases Dict.get? byName name with
      | none => rfl
      | some f =>
        refine computeLoop_calcTs ctx' hrest ?_
        have hset : ∀ (u : Int) (rs : List (String × FeatureResult)),
            timelessEntries (Dict.set rs name (c.result f.ref entityKey u)) =
              Dict.set (timelessEntries rs) name (c.result f.ref entityKey 0) :=
          fun u rs => (Dict.set_map FeatureResult.timeless rs name (c.result f.ref entityKey u)).symm
        rw [hset, hset, h]

end

/-! ## Items -/

theorem values_timelessEntries (results : List (String × FeatureResult)) :
    Dict.values (timelessEntries results) = (Dict.values results).map FeatureResult.timeless := by
  rw [Dict.values, Dict.values, timelessEntries, List.map_map, List.map_map]
  rfl

/-- Where the core accepts a view of the registry, it is the view the registry finds. -/
theorem findView_of_core {core : ComputeCore} {name : String} {version : Int} {viewDef viewDef' : FeatureViewDef}
    (hr : core.registry.findView name version = .ok viewDef)
    (hc : core.findView viewDef.name viewDef.viewVersion = .ok viewDef') : viewDef' = viewDef := by
  unfold Registry.findView at hr
  unfold ComputeCore.findView at hc
  cases hfirst : core.registry.featureViews.find? (·.name = viewDef.name) with
  | none =>
    rw [hfirst] at hc
    cases hc
  | some v =>
    rw [hfirst] at hc
    obtain ⟨u, hversion, h⟩ := bind_eq_ok.mp hc
    cases h
    rw [raiseIf_eq_ok, not_not] at hversion
    cases hfound : core.registry.featureViews.find? fun v => v.name = name ∧ v.viewVersion = version with
    | none =>
      rw [hfound] at hr
      cases hr
    | some w =>
      rw [hfound] at hr
      cases hr
      have hw := List.find?_some hfound
      simp only [decide_eq_true_eq] at hw
      obtain ⟨rfl, rfl⟩ := hw
      -- no view before `v` has the name, let alone the version
      obtain ⟨hname, before, after, hviews, hbefore⟩ := List.find?_eq_some_iff_append.mp hfirst
      have hboth : core.registry.featureViews.find? (fun v => v.name = viewDef.name ∧ v.viewVersion = viewDef.viewVersion) =
          some viewDef' := by
        refine List.find?_eq_some_iff_append.mpr ⟨by simpa [hversion] using hname, before, after, hviews, fun a ha => ?_⟩
        have hna := hbefore a ha
        simp only [Bool.not_eq_true', decide_eq_false_iff_not] at hna ⊢
        exact fun h => hna h.1
      exact Option.some.inj (hboth.symm.trans hfound)

/-- The results of a call without their times. -/
def FeatureWriteSet.timelessResults (writeSet : FeatureWriteSet) : List FeatureResult :=
  (Dict.values writeSet.results).map FeatureResult.timeless

theorem timelessResults_eq {fs : FeatureStore} {call : ComputeCall} {viewDef : FeatureViewDef}
    (hv : fs.core.findView call.view call.viewVersion = .ok viewDef) :
    (fs.computeWriteSet call none).map FeatureWriteSet.timelessResults =
      ((fs.core.computeLoop (featuresByName viewDef.features) viewDef.fuel call.entityKey call.sourceStamps call.calcTs
        call.requestedFeatures [] ⟨fs.loaderOf call.sourceRefs, [], [], []⟩).map fun out =>
          (timelessEntries out.1, out.2)).map fun out => Dict.values out.1 := by
  unfold FeatureStore.computeWriteSet ComputeCore.compute
  dsimp only [Option.getD]
  rw [hv, ok_bind]
  rcases fs.core.computeLoop (featuresByName viewDef.features) viewDef.fuel call.entityKey call.sourceStamps call.calcTs
    call.requestedFeatures [] ⟨fs.loaderOf call.sourceRefs, [], [], []⟩ with e | ⟨results, ctx⟩
  · rfl
  · exact congrArg Except.ok (values_timelessEntries results).symm

theorem computeWriteSet_calcTs {fs : FeatureStore} {name : String} {version : Int} {viewDef : FeatureViewDef}
    (hview : fs.core.registry.findView name version = .ok viewDef) {call : ComputeCall}
    (hcall : call.view = viewDef.name ∧ call.viewVersion = viewDef.viewVersion)
    (hn : ∀ f ∈ call.requestedFeatures, NoBounds (featuresByName viewDef.features) f) (t : Int) :
    (fs.computeWriteSet { call with calcTs := t } none).map FeatureWriteSet.timelessResults =
      (fs.computeWriteSet call none).map FeatureWriteSet.timelessResults := by
  cases hv : fs.core.findView call.view call.viewVersion with
  | error e =>
    unfold FeatureStore.computeWriteSet ComputeCore.compute
    dsimp only
    rw [hv]
    rfl
  | ok viewDef' =>
    have hsame : viewDef' = viewDef := findView_of_core hview (hcall.1 ▸ hcall.2 ▸ hv)
    subst hsame
    rw [timelessResults_eq hv, @timelessResults_eq fs { call with calcTs := t } viewDef' hv]
    exact congrArg _ (computeLoop_calcTs t call.calcTs _ hn rfl)

theorem refItem_calcTs {b : BatchBackend} {name : String} {version : Int} {viewDef : FeatureViewDef} {features : List String}
    (hview : b.core.registry.findView name version = .ok viewDef)
    (hn : ∀ f ∈ features, NoBounds (featuresByName viewDef.features) f) (t : Int) (s : BatchStores) (item : BatchItem) :
    (refItem { b with chunkNow := t } viewDef features s item).map (List.map FeatureResult.timeless) =
      (refItem b viewDef features s item).map (List.map FeatureResult.timeless) := by
  unfold refItem
  cases itemKey viewDef item with
  | error e => rfl
  | ok entityKey =>
    rw [ok_bind, ok_bind]
    cases refStamps s.reports.metaRepo item.sourceRefs with
    | error e => rfl
    | ok stamps =>
      rw [ok_bind, ok_bind]
      have hvalues : ∀ x : Except PyErr FeatureWriteSet,
          (x >>= fun w => pure (Dict.values w.results)).map (List.map FeatureResult.timeless) =
            x.map FeatureWriteSet.timelessResults := by
        intro x
        cases x <;> rfl
      refine (hvalues _).trans (Eq.trans ?_ (hvalues _).symm)
      exact @computeWriteSet_calcTs ⟨b.core, s.reports⟩ name version viewDef hview
        ⟨viewDef.name, viewDef.viewVersion, entityKey, features, item.sourceRefs, stamps, b.chunkNow, true, false⟩
        ⟨rfl, rfl⟩ hn t

end ClearFeature
