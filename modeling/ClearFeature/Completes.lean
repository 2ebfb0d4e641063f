import ClearFeature.Faults
import ClearFeature.Freshness

/-!
# When a request completes

A request of udf features over loadable, stamped sources raises nothing exactly
when every feature that is reached and not skipped has an input left and input
times that UTC has, and every age bound that is compared fits a `timedelta`.
-/

namespace ClearFeature

/-- A feature as the request has to find it: its sources are there, and its function raises on no call it has to accept. -/
structure Admitted (env : EvalEnv) (f : FeatureDef) : Prop where
  kind : f.kind = .udf
  supplied : ∀ src ∈ f.inputs, (∃ stamp, Dict.get? env.stamps src = some stamp) ∧ ∃ v, env.loader src = .ok v
  accepts : ∃ udf, Dict.get? env.core.udfs f.udf = some udf ∧
    ∀ sources deps, LegalCall env f sources deps → ∃ v, udf sources deps = .ok v

def AdmittedRequest (env : EvalEnv) (names : List String) : Prop :=
  ∀ name ∈ names, ∀ m, InClosure env.byName name m → ∃ f, Dict.get? env.byName m = some f ∧ Admitted env f

/-- The request returns, and each requested feature has a status, with a result exactly when it is not skipped. -/
def Completes (core : ComputeCore) (view : FeatureViewDef) (entityKey : EntityKey) (names : List String)
    (loader : String → Except PyErr Value) (stamps : SourceStamps) (calcTs : Int) : Prop :=
  ∃ results ctx,
    core.compute view.name view.viewVersion entityKey names ⟨loader, [], [], []⟩ stamps calcTs = .ok (results, ctx) ∧
    ∀ name ∈ names, ∃ status, Dict.get? ctx.statuses name = some status ∧
      (status ≠ .skipped ↔ ∃ result, Dict.get? results name = some result)

/-- The feature is skipped, or has an input left and only input times that UTC has; and the bounds that are compared fit. -/
structure Determined (env : EvalEnv) (f : FeatureDef) : Prop where
  bounds : ∀ d ∈ walked env.calcTs env.time f.deps, d.Comparable (env.time d.feature)
  inputs : f.skipped env.calcTs env.time = true ∨ f.inputs ≠ [] ∨ ∃ d ∈ f.deps, env.time d.feature ≠ none
  times : f.skipped env.calcTs env.time = true ∨ ∀ t ∈ f.inputTimes env.stamps env.time, InUtcYears t

theorem inputTimes_ne_nil {env : EvalEnv} {f : FeatureDef} (hs : ∀ src ∈ f.inputs, ∃ stamp, Dict.get? env.stamps src = some stamp)
    (h : f.inputs ≠ [] ∨ ∃ d ∈ f.deps, env.time d.feature ≠ none) : f.inputTimes env.stamps env.time ≠ [] := by
  rcases h with hinputs | ⟨d, hd, htime⟩
  · obtain ⟨src, hsrc⟩ := List.exists_mem_of_ne_nil _ hinputs
    obtain ⟨stamp, hstamp⟩ := hs src hsrc
    have hmem : stamp.reportTs ∈ f.inputTimes env.stamps env.time :=
      List.mem_append_left _ (List.mem_filterMap.mpr ⟨src, hsrc, by rw [hstamp]; rfl⟩)
    exact List.ne_nil_of_mem hmem
  · obtain ⟨t, ht⟩ := Option.ne_none_iff_exists'.mp htime
    have hmem : t ∈ f.inputTimes env.stamps env.time :=
      List.mem_append_right _ (List.mem_filterMap.mpr ⟨d, hd, ht⟩)
    exact List.ne_nil_of_mem hmem

section
variable {env : EvalEnv} {rank : String → Nat} (hk : RankedEnv env rank)
include hk

theorem Fault.not_determined {f : FeatureDef} {e : PyErr} (ha : Admitted env f) (h : Fault env f e) :
    ¬ Determined env f := by
  intro hdet
  obtain ⟨udf, hudf, hcalls⟩ := ha.accepts
  cases h with
  | bound hd hcomp => exact hcomp (hdet.bounds _ hd)
  | unregistered hnone => exact nomatch hnone.symm.trans hudf
  | raised hudf' hg herr =>
    cases hudf.symm.trans hudf'
    obtain ⟨v, hv⟩ := hcalls _ _ (hg.legal hk)
    exact nomatch hv.symm.trans herr
  | empty hskip htimes =>
    rcases hdet.inputs with hs | hleft
    · exact nomatch hs.symm.trans hskip
    · exact inputTimes_ne_nil (fun src hm => (ha.supplied src hm).1) hleft htimes
  | range hskip hmem hout =>
    rcases hdet.times with hs | hall
    · exact nomatch hs.symm.trans hskip
    · exact hout (hall _ hmem)

theorem determined_of_value {name : String} {f : FeatureDef} {r : Option FeatureComputation}
    (hf : Dict.get? env.byName name = some f) (h : env.value name = .ok r) :
    Determined env f ∧ ∀ d ∈ walked env.calcTs env.time f.deps, ∃ r, env.value d.feature = .ok r := by
  have h' := h
  rw [value_eq hk, EvalEnv.node, hf] at h'
  simp only [bind_eq_ok] at h'
  obtain ⟨sources, -, out, hd, h'⟩ := h'
  obtain ⟨hnone, hwalked⟩ := evalDeps_ok (t := env.time) (fun d _ r hr => value_time hk hr) hd
  refine ⟨?_, fun d hd => (hwalked d hd).1⟩
  have hbounds : ∀ d ∈ walked env.calcTs env.time f.deps, d.Comparable (env.time d.feature) :=
    fun d hd => (hwalked d hd).2
  cases out with
  | none => exact ⟨hbounds, .inl (hnone.mp rfl), .inl (hnone.mp rfl)⟩
  | some st =>
    simp only [bind_eq_ok] at h'
    obtain ⟨c, -, h'⟩ := h'
    cases h'
    obtain ⟨f', _, _, hnode⟩ := ((evaluates_iff hk).mpr h).node (by rw [hk.base, Dict.get?_nil])
    cases hf.symm.trans hnode.found
    obtain ⟨rows, v, degraded, hr, hc⟩ := hnode.input_rows
    obtain ⟨hrange, row, rest, hrows, -⟩ := computation_ok hc
    have hrow : row ∈ rows := hrows ▸ List.mem_cons_self
    refine ⟨hbounds, .inr ?_, .inr fun t ht => ?_⟩
    · rcases hr.cases row hrow with ⟨src, hsrc, -⟩ | ⟨d, hd, cd, g, he, -⟩
      · exact .inl (List.ne_nil_of_mem hsrc)
      · refine .inr ⟨d, hd, ?_⟩
        rw [value_time hk ((evaluates_iff hk).mp he)]
        exact Option.some_ne_none _
    · obtain ⟨row', hrow', rfl⟩ := (Node.mem_inputTimes hk hnode hr fun d _ r hr => value_time hk hr).mp ht
      exact hrange row' hrow'

/-- What is reached from an evaluated feature is evaluated. -/
theorem reaches_value {n m : String} {r : Option FeatureComputation} (h : Reaches env n m) (hn : env.value n = .ok r) :
    ∃ r, env.value m = .ok r := by
  induction h with
  | refl => exact ⟨r, hn⟩
  | tail _ hstep ih =>
    obtain ⟨r', hr'⟩ := ih
    obtain ⟨f, hf, d, hd, rfl⟩ := hstep
    exact (determined_of_value hk hf hr').2 d hd

end

/-! ## A hint without inputs -/

/-- It reads the gated feature if there is one, and nothing else. -/
def hintFeature : FeatureDef where
  name := "hint"
  kind := .udf
  featureVersion := 1
  udf := "u.count"
  dtype := "int"
  status := "live"
  deps := [⟨{ feature := "gated", required := false }, optionalGated_ok⟩]
  lifecycle := .live
  ok := by decide

def hintView : FeatureViewDef where
  name := "risk"
  entity := "user"
  keyFields := ["user_id"]
  viewVersion := 1
  owner := "o"
  status := "live"
  features := [recentFeature, gatedFeature, hintFeature]
  ok := by decide
  groups_nodup := by exact List.nodup_nil

def hintCore : ComputeCore := { freshCore with registry := userRegistry hintView }

def hintLoader : String → Except PyErr Value := fun _ => .ok (.int 0)

theorem hintHash_ok : isBlank "hb8" = false := rfl

def hintStamps : SourceStamps := [("b", stampAt 8 "hb8" hintHash_ok)]

theorem hint_valid : validateRegistry hintCore.registry = .ok () := by decide +kernel

theorem hint_admitted (calcTs : Int) (names : List String) (hn : ∀ name ∈ names, name ∈ hintView.features.map (·.name)) :
    AdmittedRequest (hintCore.env hintView hintLoader hintStamps calcTs) names := by
  intro name hm m hclosure
  have hknown : ∃ f, Dict.get? (featuresByName hintView.features) name = some f := by
    obtain ⟨f, hf, rfl⟩ := List.mem_map.mp (hn name hm)
    exact ⟨f, featuresByName_mem (by decide) hf⟩
  obtain ⟨f, hf⟩ := hknown
  obtain ⟨g, hg⟩ := closure_known hint_valid (List.mem_singleton.mpr rfl) hf hclosure
  refine ⟨g, hg, ?_⟩
  have hall : ∀ g ∈ hintView.features, g.kind = .udf ∧ (∀ src ∈ g.inputs, src = "b") ∧ (g.udf = "u.one" ∨ g.udf = "u.count") := by
    decide
  obtain ⟨hkind, hinputs, hudf⟩ := hall g (featuresByName_name hg).1
  refine ⟨hkind, fun src hsrc => ?_, ?_⟩
  · rw [hinputs src hsrc]
    exact ⟨⟨_, rfl⟩, _, rfl⟩
  · rcases hudf with hudf | hudf
    · rw [hudf]
      exact ⟨_, rfl, fun _ _ _ => ⟨_, rfl⟩⟩
    · rw [hudf]
      exact ⟨_, rfl, fun _ _ _ => ⟨_, rfl⟩⟩

/-- The request of the hint, `b` being seen at eight microseconds. -/
def hintRun (calcTs : Int) : Except PyErr (List (String × FeatureResult) × RequestContext) :=
  hintCore.compute hintView.name hintView.viewVersion userKey ["hint"] ⟨hintLoader, [], [], []⟩ hintStamps calcTs

example : (hintRun 20).toBool = true := by decide +kernel

theorem hint_raises : errorOf (hintRun 10000020) = some (.valueError "min() iterable argument is empty") := by decide +kernel

end ClearFeature
