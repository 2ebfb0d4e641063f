import ClearFeature.Recompute
import ClearFeature.Skipping
import ClearFeature.Evaluations

/-!
# A recomputation against a direct computation

The rows that stand for the dependencies carry everything of their computations
but the status, and the status goes into no result. The recomputation gives up
as soon as one row is absent; the computation only when it was required.
-/

namespace ClearFeature

/-- A computation as it comes back from a stored row. -/
def FeatureComputation.asOk (c : FeatureComputation) : FeatureComputation := { c with status := .ok }

theorem orText_prefix (s d : String) : FeatureStore.orText (some ("sha256:" ++ s)) d = "sha256:" ++ s := by
  have hne : "sha256:" ++ s ≠ "" := by
    intro h
    have := congrArg String.toList h
    rw [String.toList_append] at this
    cases this
  unfold FeatureStore.orText
  exact if_neg hne

theorem computation_hashes {sha256 : Sha256} {v : Value} {rows : List InputRow} {degraded : Bool}
    {c : FeatureComputation} (h : computation sha256 v rows degraded = .ok c) :
    c.valueHash = "sha256:" ++ sha256 (canonicalValueJson v) ∧ ∃ text, c.inputFingerprint = "sha256:" ++ sha256 text := by
  obtain ⟨-, row, rest, rfl, rfl⟩ := computation_ok h
  exact ⟨rfl, _, rfl⟩

theorem prefilled_result {env : EvalEnv} (hb : env.base = []) {name : String} {c : FeatureComputation}
    (he : env.Evaluates name (some c)) (ref : FeatureRef) (entityKey : EntityKey) (calcTs : Int) :
    FeatureStore.prefilled env.core.sha256 (c.result ref entityKey calcTs) = c.asOk := by
  obtain ⟨feature, sources, st, hn⟩ := he.node (by simp [hb])
  obtain ⟨rows, v, degraded, -, hc⟩ := hn.input_rows
  obtain ⟨hvalue, text, hfp⟩ := computation_hashes hc
  unfold FeatureStore.prefilled FeatureComputation.result FeatureComputation.asOk
  dsimp only
  rw [hvalue, hfp, orText_prefix, orText_prefix]
  rfl

/-! ## Without the statuses of the dependencies -/

def okEntries (comps : List (String × FeatureComputation)) : List (String × FeatureComputation) :=
  comps.map fun p => (p.1, p.2.asOk)

theorem addDep_asOk (calcTs : Int) (dep : FeatureDependency) (comp : Option FeatureComputation)
    (comps : List (String × FeatureComputation)) (b b' : Bool) :
    (∃ e, addDep calcTs dep (comp.map FeatureComputation.asOk) (okEntries comps, b') = .error e ∧
      addDep calcTs dep comp (comps, b) = .error e) ∨
    (addDep calcTs dep (comp.map FeatureComputation.asOk) (okEntries comps, b') = .ok none ∧
      addDep calcTs dep comp (comps, b) = .ok none) ∨
    ∃ comps' c c', addDep calcTs dep (comp.map FeatureComputation.asOk) (okEntries comps, b') =
        .ok (some (okEntries comps', c')) ∧ addDep calcTs dep comp (comps, b) = .ok (some (comps', c)) := by
  unfold addDep
  cases comp with
  | none =>
    by_cases hr : dep.required = true
    · exact .inr (.inl ⟨by simp [hr], by simp [hr]⟩)
    · exact .inr (.inr ⟨comps, true, true, by simp [hr], by simp [hr]⟩)
  | some c =>
    dsimp only [Option.map_some]
    have hts : c.asOk.dataTs = c.dataTs := rfl
    rw [hts]
    cases edgeIsStale dep c.dataTs calcTs with
    | error e => exact .inl ⟨e, rfl, rfl⟩
    | ok stale =>
      rw [ok_bind, ok_bind]
      by_cases hs : (stale && dep.required) = true
      · rw [if_pos hs, if_pos hs]
        exact .inr (.inl ⟨rfl, rfl⟩)
      · rw [if_neg hs, if_neg hs]
        have hset : Dict.set (okEntries comps) dep.feature c.asOk = okEntries (Dict.set comps dep.feature c) :=
          Dict.set_map FeatureComputation.asOk comps dep.feature c
        rw [hset]
        exact .inr (.inr ⟨_, _, _, rfl, rfl⟩)

/-- The dependency loop over rows that lost their statuses gathers the same computations without statuses. -/
theorem evalDeps_asOk (rec rec' : String → Except PyErr (Option FeatureComputation)) (calcTs : Int) :
    ∀ {deps : List FeatureDependency} (comps : List (String × FeatureComputation)) (b b' : Bool),
    (∀ d ∈ deps, ∃ out, rec d.feature = .ok out ∧ rec' d.feature = .ok (out.map FeatureComputation.asOk)) →
    (evalDeps rec' calcTs deps (okEntries comps, b')).map (Option.map Prod.fst) =
      (evalDeps rec calcTs deps (comps, b)).map (Option.map fun st => okEntries st.1)
  | [], comps, b, b', _ => rfl
  | dep :: deps, comps, b, b', h => by
    obtain ⟨out, hrec, hrec'⟩ := h dep List.mem_cons_self
    unfold evalDeps
    rw [hrec, hrec', ok_bind, ok_bind]
    rcases addDep_asOk calcTs dep out comps b b' with ⟨e, h₁, h₂⟩ | ⟨h₁, h₂⟩ | ⟨comps', c, c', h₁, h₂⟩
    · rw [h₁, h₂]
      rfl
    · rw [h₁, h₂]
      rfl
    · rw [h₁, h₂]
      exact evalDeps_asOk rec rec' calcTs comps' c c' fun d hd => h d (List.mem_cons_of_mem _ hd)

theorem depRows_asOk (byName : List (String × FeatureDef)) : ∀ comps : List (String × FeatureComputation),
    depRows byName (okEntries comps) = depRows byName comps
  | [] => rfl
  | (dep, c) :: comps => by
    unfold okEntries
    rw [List.map_cons, depRows, depRows]
    cases Dict.get? byName dep with
    | none => rfl
    | some f =>
      have ih := depRows_asOk byName comps
      unfold okEntries at ih
      dsimp only
      rw [ih]
      rfl

theorem computation_asOk (sha256 : Sha256) (v : Value) (rows : List InputRow) (b b' : Bool) :
    (computation sha256 v rows b).map FeatureComputation.asOk = (computation sha256 v rows b').map FeatureComputation.asOk := by
  cases rows with
  | nil => rfl
  | cons row rest =>
    simp only [computation]
    split <;> rfl

/-- A feature without raw sources finishes alike, whatever the stamps and the statuses of its dependencies. -/
theorem finishNode_asOk (core : ComputeCore) (byName : List (String × FeatureDef)) (stamps stamps' : SourceStamps)
    {feature : FeatureDef} (hin : feature.inputs = []) (comps : List (String × FeatureComputation)) (b b' : Bool) :
    (finishNode core byName stamps' feature [] (okEntries comps) b').map FeatureComputation.asOk =
      (finishNode core byName stamps feature [] comps b).map FeatureComputation.asOk := by
  unfold finishNode
  rw [hin, sourceRows, sourceRows, ok_bind, ok_bind, depRows_asOk]
  cases depRows byName comps with
  | error e => rfl
  | ok comRows =>
    rw [ok_bind, ok_bind]
    cases core.getUdf feature.udf with
    | error e => rfl
    | ok udf =>
      rw [ok_bind, ok_bind]
      have hvalues : (okEntries comps).map (fun c => (c.1, c.2.value)) = comps.map fun c => (c.1, c.2.value) := by
        unfold okEntries
        rw [List.map_map]
        rfl
      rw [hvalues]
      cases udf [] (comps.map fun c => (c.1, c.2.value)) with
      | error e => rfl
      | ok value => exact computation_asOk _ _ _ _ _

/-- What follows the two loops agrees if it agrees on the gathered computations. -/
theorem gathered_bind {β : Type} {x x' : Except PyErr (Option DepState)}
    {k k' : Option DepState → Except PyErr (Option FeatureComputation)} (view : Option FeatureComputation → β)
    (hx : x'.map (Option.map Prod.fst) = x.map (Option.map fun st => okEntries st.1)) (hnone : k' none = k none)
    (hk : ∀ comps b b', (k' (some (okEntries comps, b'))).map view = (k (some (comps, b))).map view) :
    (x' >>= k').map view = (x >>= k).map view := by
  cases x with
  | error e =>
    cases x' with
    | error e' =>
      cases hx
      rfl
    | ok out' => cases hx
  | ok out =>
    cases x' with
    | error e' => cases hx
    | ok out' =>
      rw [ok_bind, ok_bind]
      cases out with
      | none =>
        cases out' with
        | none => rw [hnone]
        | some st' => cases hx
      | some st =>
        cases out' with
        | none => cases hx
        | some st' =>
          obtain ⟨comps, b⟩ := st
          obtain ⟨comps', b'⟩ := st'
          have he : comps' = okEntries comps := Option.some.inj (Except.ok.inj hx)
          subst he
          exact hk comps b b'

/-! ## The direct computation of one feature -/

section
variable {registry : Registry} (hr : validateRegistry registry = .ok ()) {view : FeatureViewDef}
  (hv : view ∈ registry.featureViews) {core : ComputeCore} (hc : core.registry = registry)
  {loader : String → Except PyErr Value} {stamps : SourceStamps} {calcTs : Int} {entityKey : EntityKey}
include hr hv hc

/-- What a request for one feature returns of it. -/
theorem compute_single {feature : FeatureDef} (hf : feature ∈ view.features) :
    (core.compute view.name view.viewVersion entityKey [feature.name] ⟨loader, [], [], []⟩ stamps calcTs).map
        (fun out => Dict.get? out.1 feature.name) =
      ((core.env view loader stamps calcTs).value feature.name).map
        (Option.map fun c => c.result feature.ref entityKey calcTs) := by
  have hself : feature.name ∈ [feature.name] := List.mem_singleton.mpr rfl
  cases h : core.compute view.name view.viewVersion entityKey [feature.name] ⟨loader, [], [], []⟩ stamps calcTs with
  | error e =>
    obtain ⟨name, hname, he⟩ := compute_error hr hv hc h
    rw [List.mem_singleton.mp hname] at he
    rw [he]
    rfl
  | ok out =>
    obtain ⟨results, ctx⟩ := out
    obtain ⟨comp, found, hout, hg, hcomp⟩ := compute_computedAs hr hv hc h hself
    have hvalid := ValidView.of_validateRegistry hr hv
    cases (featuresByName_mem hvalid.names_nodup hf).symm.trans hg
    rw [hout]
    exact congrArg Except.ok hcomp.result

end

/-! ## Rows that hold the computations of the dependencies -/

/-- The selected row of each dependency is its computation from the stamps; none where it is skipped. -/
def RowsAreCurrent (fs : FeatureStore) (view : FeatureViewDef) (feature : FeatureDef) (offline : OfflineStore)
    (entityKey : EntityKey) (calcTs : Int) (loader : String → Except PyErr Value) (stamps : SourceStamps) : Prop :=
  ∀ d ∈ feature.deps, ∃ target, Dict.get? (featuresByName view.features) d.feature = some target ∧
    ∃ out, (fs.core.env view loader stamps calcTs).value d.feature = .ok out ∧
      view.pitOf offline entityKey calcTs d.feature =
        out.map fun c => ⟨view.name, view.viewVersion, c.result target.ref entityKey calcTs⟩

/-- All rows are there, or one of them, or its absence, makes the feature skipped before an age bound overflows. -/
def FeatureDef.SkipsAsDirect (f : FeatureDef) (calcTs : Int) (t : String → Option Int) : Prop :=
  (∀ d ∈ f.deps, t d.feature ≠ none) ∨
    (f.skipped calcTs t = true ∧ ∀ d ∈ walked calcTs t f.deps, d.Comparable (t d.feature))

/-- The event times of the selected rows. -/
def FeatureViewDef.rowTime (view : FeatureViewDef) (offline : OfflineStore) (entityKey : EntityKey) (calcTs : Int)
    (name : String) : Option Int := (view.pitOf offline entityKey calcTs name).map (·.result.dataTs)

/-! ## An optional dependency without a row -/

def mixStore : FeatureStore := ⟨freshCore, { payloadStore := [], metaRepo := { metas := [] } }⟩

def mixValue (name : String) : Except PyErr (Option FeatureComputation) :=
  (freshCore.env freshView (fun _ => .ok .null) mixNew 10000020).value name

theorem mixValue_ok : (mixValue "base").toBool = true ∧ (mixValue "gated").toBool = true := by decide +kernel

def baseComputation : FeatureComputation := (okGet (mixValue "base") mixValue_ok.1).get (by decide +kernel)

def baseRow : OfflineFeatureRecord := ⟨"risk", 1, baseComputation.result baseFeature.ref userKey 10000020⟩

theorem baseRow_selected : freshView.pitOf [baseRow] userKey 10000020 "base" = some baseRow := by
  have hslot : freshView.slotOf userKey "base" = some baseRow.slot := by decide +kernel
  have hrows : OfflineStore.rows [baseRow] baseRow.slot = [baseRow] := List.filter_cons_of_pos (decide_eq_true rfl)
  have helig : eligible 10000020 0 baseRow = true := by decide +kernel
  unfold FeatureViewDef.pitOf
  rw [hslot, Option.bind_some, hrows, pitRow, List.filter_cons_of_pos helig]
  rfl

/-- `base` was recorded, `gated` is skipped and has no row. -/
theorem mixRows_current : RowsAreCurrent mixStore freshView mixFeature [baseRow] userKey 10000020 (fun _ => .ok .null)
    mixNew := by
  intro d hd
  rcases List.mem_cons.mp hd with rfl | hd
  · refine ⟨baseFeature, by decide +kernel, okGet (mixValue "base") mixValue_ok.1, eq_ok_okGet _ _, ?_⟩
    rw [← @Option.some_get _ (okGet (mixValue "base") mixValue_ok.1) (by decide +kernel)]
    exact baseRow_selected
  · rw [List.mem_singleton.mp hd]
    refine ⟨gatedFeature, by decide +kernel, okGet (mixValue "gated") mixValue_ok.2, eq_ok_okGet _ _, ?_⟩
    have hnone : okGet (mixValue "gated") mixValue_ok.2 = none := Option.isNone_iff_eq_none.mp (by decide +kernel)
    rw [hnone]
    exact Option.isNone_iff_eq_none.mp (by decide +kernel)

/-! ## Both computations -/

section
variable {fs : FeatureStore} (hr : validateRegistry fs.core.registry = .ok ()) {view : FeatureViewDef}
  (hv : view ∈ fs.core.registry.featureViews) {feature : FeatureDef} (hf : feature ∈ view.features)
  (hin : feature.inputs = []) {offline : OfflineStore} {entityKey : EntityKey} {calcTs : Int}
  {loader : String → Except PyErr Value} {stamps : SourceStamps}
  (hrows : RowsAreCurrent fs view feature offline entityKey calcTs loader stamps)

include hr hv hf hin in
theorem value_pure_deps : (fs.core.env view loader stamps calcTs).value feature.name = (do
    match ← evalDeps (fs.core.env view loader stamps calcTs).value calcTs feature.deps ([], false) with
    | none => .ok none
    | some st => do
      let c ← finishNode fs.core (featuresByName view.features) stamps feature [] st.1 st.2
      .ok (some c)) := by
  obtain ⟨rank, hk⟩ := exists_rankedEnv hr hv fs.core loader stamps calcTs
  have hvalid := ValidView.of_validateRegistry hr hv
  have hfound : Dict.get? (fs.core.env view loader stamps calcTs).byName feature.name = some feature :=
    featuresByName_mem hvalid.names_nodup hf
  rw [value_eq hk, EvalEnv.node, hfound]
  dsimp only
  rw [hin]
  rfl

include hrows in
theorem rowTime_value {d : FeatureDependency} (hd : d ∈ feature.deps) :
    ∃ out, (fs.core.env view loader stamps calcTs).value d.feature = .ok out ∧
      view.rowTime offline entityKey calcTs d.feature = out.map (·.dataTs) := by
  obtain ⟨target, -, out, hout, hrow⟩ := hrows d hd
  refine ⟨out, hout, ?_⟩
  unfold FeatureViewDef.rowTime
  rw [hrow, Option.map_map]
  rfl

include hr hv hrows in
theorem cachedOf_current {d : FeatureDependency} (hd : d ∈ feature.deps) :
    ∃ out, (fs.core.env view loader stamps calcTs).value d.feature = .ok out ∧
      fs.cachedOf view offline entityKey calcTs d.feature = out.map FeatureComputation.asOk := by
  obtain ⟨rank, hk⟩ := exists_rankedEnv hr hv fs.core loader stamps calcTs
  obtain ⟨target, -, out, hout, hrow⟩ := hrows d hd
  refine ⟨out, hout, ?_⟩
  unfold FeatureStore.cachedOf
  rw [hrow, Option.map_map]
  cases out with
  | none => rfl
  | some c =>
    have he := (evaluates_iff hk).mpr hout
    exact congrArg some (@prefilled_result (fs.core.env view loader stamps calcTs) rfl d.feature c he target.ref entityKey calcTs)

include hr hv hf hin hrows

/-- With every row there the recomputation returns or raises what the direct computation does. -/
theorem recomputed_current :
    (recomputed fs.core view feature calcTs (fs.cachedOf view offline entityKey calcTs)).map
        (Option.map fun c => c.result feature.ref entityKey calcTs) =
      ((fs.core.env view loader stamps calcTs).value feature.name).map
        (Option.map fun c => c.result feature.ref entityKey calcTs) := by
  have hcached : ∀ d ∈ feature.deps, ∃ out, (fs.core.env view loader stamps calcTs).value d.feature = .ok out ∧
      (fun n => Except.ok (fs.cachedOf view offline entityKey calcTs n)) d.feature =
        (.ok (out.map FeatureComputation.asOk) : Except PyErr (Option FeatureComputation)) := by
    intro d hd
    obtain ⟨out, hout, hcached⟩ := cachedOf_current hr hv hrows hd
    exact ⟨out, hout, congrArg Except.ok hcached⟩
  have hdeps := evalDeps_asOk (fs.core.env view loader stamps calcTs).value
    (fun n => .ok (fs.cachedOf view offline entityKey calcTs n)) calcTs [] false false hcached
  rw [value_pure_deps hr hv hf hin]
  unfold recomputed
  refine gathered_bind _ hdeps rfl fun comps b b' => ?_
  have hfinish := finishNode_asOk fs.core (featuresByName view.features) stamps [] hin comps b b'
  revert hfinish
  dsimp only
  cases finishNode fs.core (featuresByName view.features) [] feature [] (okEntries comps) b' with
  | error e' =>
    cases finishNode fs.core (featuresByName view.features) stamps feature [] comps b with
    | error e =>
      intro h
      cases h
      rfl
    | ok c => exact fun h => (nomatch h)
  | ok c' =>
    cases finishNode fs.core (featuresByName view.features) stamps feature [] comps b with
    | error e => exact fun h => (nomatch h)
    | ok c =>
      intro h
      have he : c'.asOk = c.asOk := Except.ok.inj h
      exact congrArg (fun c => Except.ok (some (c.result feature.ref entityKey calcTs))) he

omit hr hv hf hin in
/-- The dependency loop of the direct computation skips the feature. -/
theorem direct_skips_iff :
    evalDeps (fs.core.env view loader stamps calcTs).value calcTs feature.deps ([], false) = .ok none ↔
      feature.skipped calcTs (view.rowTime offline entityKey calcTs) = true ∧
      ∀ d ∈ walked calcTs (view.rowTime offline entityKey calcTs) feature.deps,
        d.Comparable (view.rowTime offline entityKey calcTs d.feature) := by
  have ht : ∀ d ∈ feature.deps, ∀ r, (fs.core.env view loader stamps calcTs).value d.feature = .ok r →
      view.rowTime offline entityKey calcTs d.feature = r.map (·.dataTs) := by
    intro d hd r hr
    obtain ⟨out, hout, htime⟩ := rowTime_value hrows hd
    cases hout.symm.trans hr
    exact htime
  constructor
  · intro h
    obtain ⟨hskip, hall⟩ := evalDeps_ok ht h
    exact ⟨hskip.mp rfl, fun d hd => (hall d hd).2⟩
  · rintro ⟨hskip, hall⟩
    cases h : evalDeps (fs.core.env view loader stamps calcTs).value calcTs feature.deps ([], false) with
    | error e =>
      obtain ⟨d, hd, hcase⟩ := evalDeps_error ht h
      rcases hcase with herr | ⟨hno, -⟩
      · obtain ⟨out, hout, -⟩ := rowTime_value hrows (walked_mem hd)
        cases hout.symm.trans herr
      · exact absurd (hall d hd) hno
    | ok out =>
      rw [(evalDeps_ok ht h).1.mpr hskip]

/-- Nothing as soon as one row is absent. -/
theorem recompute_cases (present : Bool) (hp : (feature.deps.all fun d =>
      (fs.cachedOf view offline entityKey calcTs d.feature).isSome) = present) :
    fs.computeDependentFromOffline offline view.name view.viewVersion entityKey calcTs 0 feature.name =
      if present then
        (fs.core.compute view.name view.viewVersion entityKey [feature.name] ⟨loader, [], [], []⟩ stamps calcTs).map
          fun out => Dict.get? out.1 feature.name
      else .ok none := by
  rw [computeDependent_eq hr hv hf offline entityKey calcTs hin, hp, compute_single hr hv rfl hf,
    recomputed_current hr hv hf hin hrows]

/-- The recomputation ends as the direct computation does: same result, nothing where it skips, same error. -/
theorem recompute_equals_direct_iff : fs.computeDependentFromOffline offline view.name view.viewVersion entityKey calcTs 0
      feature.name =
    (fs.core.compute view.name view.viewVersion entityKey [feature.name] ⟨loader, [], [], []⟩ stamps calcTs).map
      (fun out => Dict.get? out.1 feature.name) ↔
    feature.SkipsAsDirect calcTs (view.rowTime offline entityKey calcTs) := by
  have hpresent : ∀ d, (fs.cachedOf view offline entityKey calcTs d).isSome ↔
      view.rowTime offline entityKey calcTs d ≠ none := by
    intro d
    unfold FeatureStore.cachedOf FeatureViewDef.rowTime
    cases view.pitOf offline entityKey calcTs d <;> simp
  unfold FeatureDef.SkipsAsDirect
  by_cases hall : (feature.deps.all fun d => (fs.cachedOf view offline entityKey calcTs d.feature).isSome) = true
  · rw [recompute_cases hr hv hf hin hrows true hall, if_pos rfl]
    exact iff_of_true rfl (.inl fun d hd => (hpresent d.feature).mp (List.all_eq_true.mp hall d hd))
  · rw [recompute_cases hr hv hf hin hrows false (Bool.eq_false_iff.mpr hall), if_neg Bool.false_ne_true,
      compute_single hr hv rfl hf, ← direct_skips_iff hrows, value_pure_deps hr hv hf hin]
    have habsent : ¬ ∀ d ∈ feature.deps, view.rowTime offline entityKey calcTs d.feature ≠ none := fun h =>
      hall (List.all_eq_true.mpr fun d hd => (hpresent d.feature).mpr (h d hd))
    rw [or_iff_right habsent]
    rcases evalDeps (fs.core.env view loader stamps calcTs).value calcTs feature.deps ([], false) with e | _ | st
    · exact iff_of_false (fun h => (nomatch h)) fun h => (nomatch h)
    · exact iff_of_true rfl rfl
    · rw [ok_bind]
      dsimp only
      cases finishNode fs.core (featuresByName view.features) stamps feature [] st.1 st.2 with
      | error e => exact iff_of_false (fun h => (nomatch h)) fun h => (nomatch h)
      | ok c => exact iff_of_false (fun h => (nomatch h)) fun h => (nomatch h)

end

def mixDirect : Except PyErr (Option FeatureResult) :=
  (freshCore.compute "risk" 1 userKey ["mix"] ⟨fun _ => .ok .null, [], [], []⟩ mixNew 10000020).map fun out =>
    Dict.get? out.1 "mix"

def mixRecomputed : Except PyErr (Option FeatureResult) :=
  mixStore.computeDependentFromOffline [baseRow] "risk" 1 userKey 10000020 0 "mix"

theorem mixOutcomes_ok : mixDirect.toBool = true ∧ mixRecomputed.toBool = true := by decide +kernel

/-- The direct computation proceeds without the optional dependency, the recomputation returns nothing. -/
theorem optional_row_absent : validateRegistry mixStore.core.registry = .ok () ∧
    freshView ∈ mixStore.core.registry.featureViews ∧ mixFeature ∈ freshView.features ∧ mixFeature.inputs = [] ∧
    RowsAreCurrent mixStore freshView mixFeature [baseRow] userKey 10000020 (fun _ => .ok .null) mixNew ∧
    mixRecomputed = .ok none ∧ ∃ result, mixDirect = .ok (some result) := by
  refine ⟨by decide +kernel, List.mem_singleton.mpr rfl, by decide +kernel, rfl, mixRows_current, ?_, ?_⟩
  · have hnone : okGet mixRecomputed mixOutcomes_ok.2 = none := Option.isNone_iff_eq_none.mp (by decide +kernel)
    rw [eq_ok_okGet mixRecomputed mixOutcomes_ok.2, hnone]
  · obtain ⟨result, h⟩ := Option.isSome_iff_exists.mp
      (show (okGet mixDirect mixOutcomes_ok.1).isSome = true by decide +kernel)
    exact ⟨result, by rw [eq_ok_okGet mixDirect mixOutcomes_ok.1, h]⟩

theorem recompute_equals_direct_iff_mix :
    mixStore.computeDependentFromOffline [baseRow] "risk" 1 userKey 10000020 0 "mix" =
      (mixStore.core.compute "risk" 1 userKey ["mix"] ⟨fun _ => .ok .null, [], [], []⟩ mixNew 10000020).map
        (fun out => Dict.get? out.1 "mix") ↔
    mixFeature.SkipsAsDirect 10000020 (freshView.rowTime [baseRow] userKey 10000020) :=
  @recompute_equals_direct_iff mixStore (by decide +kernel) freshView (List.mem_singleton.mpr rfl) mixFeature
    (by decide +kernel) rfl [baseRow] userKey 10000020 _ mixNew mixRows_current

end ClearFeature
