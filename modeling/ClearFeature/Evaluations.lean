import ClearFeature.Freshness
import ClearFeature.Resolution
import ClearFeature.Lib.Logged

/-!
# What a request evaluates (`fs_core/compute/`)

The same resolution as `ComputeCore`, with a log of the payloads it loads and
the functions it calls. Without the log it is that resolution. The log names no
payload and no feature twice.
-/

namespace ClearFeature

inductive Call where
  | load (source : String)
  | udf (feature udfId : String)
  deriving DecidableEq, Repr

def Call.source? : Call → Option String
  | .load source => some source
  | .udf _ _ => none

def Call.feature? : Call → Option String
  | .load _ => none
  | .udf feature _ => some feature

def Call.udfId? : Call → Option String
  | .load _ => none
  | .udf _ udfId => some udfId

abbrev LoggedCalls (α : Type) := Logged Call PyErr α

namespace LoggedCore

def getSource (ctx : RequestContext) (name : String) : LoggedCalls (Value × RequestContext) :=
  match Dict.get? ctx.sources name with
  | some v => pure (v, ctx)
  | none => do
    let v ← Logged.call (.load name) (ctx.sourceLoader name)
    pure (v, { ctx with sources := Dict.set ctx.sources name v })

def loadSources (acc : List (String × Value)) : List String → RequestContext →
    LoggedCalls (List (String × Value) × RequestContext)
  | [], ctx => pure (acc, ctx)
  | src :: srcs, ctx => do
    let (v, ctx) ← getSource ctx src
    loadSources (Dict.set acc src v) srcs ctx

def resolveDeps (rec : String → RequestContext → LoggedCalls (Option FeatureComputation × RequestContext))
    (calcTs : Int) : List FeatureDependency → DepState → RequestContext → LoggedCalls (Option DepState × RequestContext)
  | [], st, ctx => pure (some st, ctx)
  | dep :: deps, st, ctx => do
    let (comp, ctx) ← rec dep.feature ctx
    match ← Logged.lift (addDep calcTs dep comp st) with
    | none => pure (none, ctx)
    | some st => resolveDeps rec calcTs deps st ctx

def finishNode (core : ComputeCore) (byName : List (String × FeatureDef)) (stamps : SourceStamps)
    (feature : FeatureDef) (sources : List (String × Value)) (comps : List (String × FeatureComputation))
    (degraded : Bool) : LoggedCalls FeatureComputation := do
  let srcRows ← Logged.lift (sourceRows feature.name stamps feature.inputs)
  let comRows ← Logged.lift (depRows byName comps)
  let udf ← Logged.lift (core.getUdf feature.udf)
  let value ← Logged.call (.udf feature.name feature.udf) (udf sources (comps.map fun c => (c.1, c.2.value)))
  Logged.lift (computation core.sha256 value (srcRows ++ comRows) degraded)

def resolve (core : ComputeCore) (byName : List (String × FeatureDef)) (stamps : SourceStamps) (calcTs : Int) :
    Nat → List String → String → RequestContext → LoggedCalls (Option FeatureComputation × RequestContext)
  | 0, _, _, _ => Logged.lift (.error (.other "RecursionError" "maximum recursion depth exceeded"))
  | fuel + 1, visiting, name, ctx =>
    match Dict.get? ctx.features name with
    | some c => pure (some c, ctx)
    | none =>
      if ctx.isSkipped name then pure (none, ctx)
      else match Dict.get? byName name with
        | none => Logged.lift (.error (.valueError s!"unknown feature {reprStr name}"))
        | some feature =>
          if name ∈ visiting then
            let cycle := " -> ".intercalate (visiting ++ [name])
            Logged.lift (.error (.valueError s!"dependency cycle detected: {cycle}"))
          else do
            let (sources, ctx) ← loadSources [] feature.inputs ctx
            let (out, ctx) ← resolveDeps (resolve core byName stamps calcTs fuel (visiting ++ [name])) calcTs
              feature.deps ([], false) ctx
            match out with
            | none => pure (none, ctx.markSkipped name)
            | some (comps, degraded) => do
              let c ← finishNode core byName stamps feature sources comps degraded
              pure (some c, ctx.cacheFeature name c)

def computeLoop (core : ComputeCore) (byName : List (String × FeatureDef)) (fuel : Nat) (entityKey : EntityKey)
    (stamps : SourceStamps) (calcTs : Int) : List String → List (String × FeatureResult) → RequestContext →
    LoggedCalls (List (String × FeatureResult) × RequestContext)
  | [], results, ctx => pure (results, ctx)
  | name :: names, results, ctx => do
    let (comp, ctx) ← resolve core byName stamps calcTs fuel [] name ctx
    match comp with
    | none => computeLoop core byName fuel entityKey stamps calcTs names results ctx
    | some c =>
      match Dict.get? byName name with
      | none => Logged.lift (.error (.keyError (reprStr name)))
      | some f =>
        computeLoop core byName fuel entityKey stamps calcTs names
          (Dict.set results name (c.result f.ref entityKey calcTs)) ctx

def compute (core : ComputeCore) (view : String) (viewVersion : Int) (entityKey : EntityKey)
    (requestedFeatures : List String) (ctx : RequestContext) (stamps : SourceStamps) (calcTs : Int) :
    LoggedCalls (List (String × FeatureResult) × RequestContext) := do
  let viewDef ← Logged.lift (core.findView view viewVersion)
  computeLoop core (featuresByName viewDef.features) viewDef.fuel entityKey stamps calcTs requestedFeatures [] ctx

/-! ## Without the log -/

theorem getSource_out (ctx : RequestContext) (name : String) : (getSource ctx name).out = ctx.getSource name := by
  unfold getSource RequestContext.getSource
  cases Dict.get? ctx.sources name with
  | some v => rfl
  | none => exact Logged.out_bind _ _

theorem loadSources_out : ∀ (srcs : List String) (acc : List (String × Value)) (ctx : RequestContext),
    (loadSources acc srcs ctx).out = ClearFeature.loadSources acc srcs ctx
  | [], acc, ctx => rfl
  | src :: srcs, acc, ctx => by
    unfold loadSources ClearFeature.loadSources
    rw [Logged.out_bind, getSource_out]
    exact congrArg _ (funext fun x => loadSources_out srcs _ _)

theorem resolveDeps_out {rec : String → RequestContext → LoggedCalls (Option FeatureComputation × RequestContext)}
    {rec' : String → RequestContext → Except PyErr (Option FeatureComputation × RequestContext)}
    (hrec : ∀ name ctx, (rec name ctx).out = rec' name ctx) (calcTs : Int) :
    ∀ (deps : List FeatureDependency) (st : DepState) (ctx : RequestContext),
    (resolveDeps rec calcTs deps st ctx).out = ClearFeature.resolveDeps rec' calcTs deps st ctx
  | [], st, ctx => rfl
  | dep :: deps, st, ctx => by
    unfold resolveDeps ClearFeature.resolveDeps
    rw [Logged.out_bind, hrec]
    refine congrArg _ (funext fun x => ?_)
    rw [Logged.out_bind, Logged.out_lift]
    refine congrArg _ (funext fun out => ?_)
    cases out with
    | none => rfl
    | some st' => exact resolveDeps_out hrec calcTs deps st' x.2

theorem finishNode_out (core : ComputeCore) (byName : List (String × FeatureDef)) (stamps : SourceStamps)
    (feature : FeatureDef) (sources : List (String × Value)) (comps : List (String × FeatureComputation))
    (degraded : Bool) : (finishNode core byName stamps feature sources comps degraded).out =
      ClearFeature.finishNode core byName stamps feature sources comps degraded := by
  unfold finishNode ClearFeature.finishNode
  simp only [Logged.out_bind, Logged.out_lift, Logged.out_call]

theorem resolve_out (core : ComputeCore) (byName : List (String × FeatureDef)) (stamps : SourceStamps) (calcTs : Int) :
    ∀ (fuel : Nat) (visiting : List String) (name : String) (ctx : RequestContext),
    (resolve core byName stamps calcTs fuel visiting name ctx).out =
      core.resolve byName stamps calcTs fuel visiting name ctx
  | 0, _, _, _ => rfl
  | fuel + 1, visiting, name, ctx => by
    unfold resolve ComputeCore.resolve
    cases Dict.get? ctx.features name with
    | some c => rfl
    | none =>
      dsimp only
      by_cases hk : ctx.isSkipped name = true
      · rw [if_pos hk, if_pos hk]
        rfl
      rw [if_neg hk, if_neg hk]
      cases Dict.get? byName name with
      | none => rfl
      | some feature =>
        dsimp only
        by_cases hv : name ∈ visiting
        · rw [if_pos hv, if_pos hv]
          rfl
        rw [if_neg hv, if_neg hv, Logged.out_bind, loadSources_out]
        refine congrArg _ (funext fun x => ?_)
        rw [Logged.out_bind, resolveDeps_out (resolve_out core byName stamps calcTs fuel (visiting ++ [name]))]
        refine congrArg _ (funext fun y => ?_)
        obtain ⟨out, ctx'⟩ := y
        cases out with
        | none => rfl
        | some st =>
          dsimp only
          rw [Logged.out_bind, finishNode_out]
          rfl

theorem computeLoop_out (core : ComputeCore) (byName : List (String × FeatureDef)) (fuel : Nat) (entityKey : EntityKey)
    (stamps : SourceStamps) (calcTs : Int) : ∀ (names : List String) (results : List (String × FeatureResult))
    (ctx : RequestContext), (computeLoop core byName fuel entityKey stamps calcTs names results ctx).out =
      core.computeLoop byName fuel entityKey stamps calcTs names results ctx
  | [], results, ctx => rfl
  | name :: names, results, ctx => by
    unfold computeLoop ComputeCore.computeLoop
    rw [Logged.out_bind, resolve_out]
    refine congrArg _ (funext fun x => ?_)
    obtain ⟨comp, ctx'⟩ := x
    cases comp with
    | none => exact computeLoop_out core byName fuel entityKey stamps calcTs names results ctx'
    | some c =>
      dsimp only
      cases Dict.get? byName name with
      | none => rfl
      | some f => exact computeLoop_out core byName fuel entityKey stamps calcTs names _ ctx'

theorem compute_out (core : ComputeCore) (view : String) (viewVersion : Int) (entityKey : EntityKey)
    (names : List String) (ctx : RequestContext) (stamps : SourceStamps) (calcTs : Int) :
    (compute core view viewVersion entityKey names ctx stamps calcTs).out =
      core.compute view viewVersion entityKey names ctx stamps calcTs := by
  unfold compute ComputeCore.compute
  rw [Logged.out_bind, Logged.out_lift]
  exact congrArg _ (funext fun viewDef => computeLoop_out _ _ _ _ _ _ _ _ _)

end LoggedCore

/-! ## Nothing is evaluated twice -/

def loaded (calls : List Call) : List String := calls.filterMap Call.source?

def called (calls : List Call) : List String := calls.filterMap Call.feature?

/-- The request context remembers what the calls evaluated, and nothing else is new in it. -/
structure Grown (ctx ctx' : RequestContext) (calls : List Call) : Prop where
  sources : ∀ s, s ∈ Dict.keys ctx'.sources ↔ s ∈ Dict.keys ctx.sources ∨ s ∈ loaded calls
  features : ∀ f, f ∈ Dict.keys ctx'.features ↔ f ∈ Dict.keys ctx.features ∨ f ∈ called calls

/-- The calls of one step are new to the context, none is repeated, and none is for a feature being visited. -/
structure Once {α : Type} (visiting : List String) (ctx : RequestContext) (x : LoggedCalls (α × RequestContext)) :
    Prop where
  loaded_nodup : (loaded x.calls).Nodup
  loaded_new : ∀ s ∈ loaded x.calls, s ∉ Dict.keys ctx.sources
  called_nodup : (called x.calls).Nodup
  called_new : ∀ f ∈ called x.calls, f ∉ Dict.keys ctx.features ∧ f ∉ visiting
  grown : ∀ a ctx', x.out = .ok (a, ctx') → Grown ctx ctx' x.calls

section
variable {α β : Type} {visiting : List String} {ctx : RequestContext}

/-- A step without calls that leaves both caches alone. -/
theorem Once.still (a : α) {ctx' : RequestContext} (hs : ctx'.sources = ctx.sources)
    (hf : ctx'.features = ctx.features) : Once visiting ctx (Pure.pure (a, ctx')) where
  loaded_nodup := List.nodup_nil
  loaded_new s h := nomatch h
  called_nodup := List.nodup_nil
  called_new f h := nomatch h
  grown b ctx' h := by
    cases h
    refine ⟨fun s => ?_, fun f => ?_⟩
    · rw [hs]
      exact (or_iff_left List.not_mem_nil).symm
    · rw [hf]
      exact (or_iff_left List.not_mem_nil).symm

theorem Once.pure (a : α) : Once visiting ctx (Pure.pure (a, ctx)) := Once.still a rfl rfl

theorem Once.error (e : PyErr) : Once visiting ctx (Logged.lift (.error e) : LoggedCalls (α × RequestContext)) where
  loaded_nodup := List.nodup_nil
  loaded_new s h := nomatch h
  called_nodup := List.nodup_nil
  called_new f h := nomatch h
  grown b ctx' h := nomatch h

theorem Once.weaken {visiting' : List String} (hsub : visiting ⊆ visiting') {x : LoggedCalls (α × RequestContext)}
    (h : Once visiting' ctx x) : Once visiting ctx x :=
  { h with called_new := fun f hf => ⟨(h.called_new f hf).1, fun hv => (h.called_new f hf).2 (hsub hv)⟩ }

theorem Once.bind {x : LoggedCalls (α × RequestContext)} {f : α × RequestContext → LoggedCalls (β × RequestContext)}
    (hx : Once visiting ctx x) (hf : ∀ a ctx', x.out = .ok (a, ctx') → Once visiting ctx' (f (a, ctx'))) :
    Once visiting ctx (x >>= f) := by
  cases hout : x.out with
  | error e =>
    rw [Logged.bind_of_error hout]
    exact ⟨hx.loaded_nodup, hx.loaded_new, hx.called_nodup, hx.called_new, fun a ctx' h => nomatch h⟩
  | ok y =>
    obtain ⟨a, ctx₁⟩ := y
    rw [Logged.bind_of_ok hout]
    have hy := hf a ctx₁ hout
    have hg := hx.grown a ctx₁ hout
    have hloaded : loaded (x.calls ++ (f (a, ctx₁)).calls) = loaded x.calls ++ loaded (f (a, ctx₁)).calls :=
      List.filterMap_append
    have hcalled : called (x.calls ++ (f (a, ctx₁)).calls) = called x.calls ++ called (f (a, ctx₁)).calls :=
      List.filterMap_append
    refine ⟨?_, ?_, ?_, ?_, fun b ctx' h => ⟨fun s => ?_, fun g => ?_⟩⟩
    · rw [hloaded]
      refine List.nodup_append'.mpr ⟨hx.loaded_nodup, hy.loaded_nodup, fun s hs hs' => ?_⟩
      exact hy.loaded_new s hs' ((hg.sources s).mpr (.inr hs))
    · rw [hloaded]
      intro s hs
      rcases List.mem_append.mp hs with hs | hs
      · exact hx.loaded_new s hs
      · exact fun hk => hy.loaded_new s hs ((hg.sources s).mpr (.inl hk))
    · rw [hcalled]
      refine List.nodup_append'.mpr ⟨hx.called_nodup, hy.called_nodup, fun g hs hs' => ?_⟩
      exact (hy.called_new g hs').1 ((hg.features g).mpr (.inr hs))
    · rw [hcalled]
      intro g hs
      rcases List.mem_append.mp hs with hs | hs
      · exact hx.called_new g hs
      · exact ⟨fun hk => (hy.called_new g hs).1 ((hg.features g).mpr (.inl hk)), (hy.called_new g hs).2⟩
    · rw [hloaded, (hy.grown b ctx' h).sources s, hg.sources s, List.mem_append, or_assoc]
    · rw [hcalled, (hy.grown b ctx' h).features g, hg.features g, List.mem_append, or_assoc]

/-- A step without calls in between. -/
theorem Once.lift_bind {x : Except PyErr α} {f : α → LoggedCalls (β × RequestContext)}
    (hf : ∀ a, x = .ok a → Once visiting ctx (f a)) : Once visiting ctx (Logged.lift x >>= f) := by
  cases x with
  | error e => exact Once.error e
  | ok a => exact hf a rfl

end

theorem getSource_once (visiting : List String) (ctx : RequestContext) (name : String) :
    Once visiting ctx (LoggedCore.getSource ctx name) := by
  unfold LoggedCore.getSource
  cases hg : Dict.get? ctx.sources name with
  | some v => exact Once.pure v
  | none =>
    have hnew : name ∉ Dict.keys ctx.sources := Dict.get?_eq_none_iff.mp hg
    dsimp only
    cases hl : ctx.sourceLoader name with
    | error e =>
      refine ⟨List.nodup_singleton name, fun s hs => ?_, List.nodup_nil, fun f hf => (nomatch hf),
        fun a ctx' h => (nomatch h)⟩
      rw [List.mem_singleton.mp hs]
      exact hnew
    | ok v =>
      refine ⟨List.nodup_singleton name, fun s hs => ?_, List.nodup_nil, fun f hf => (nomatch hf),
        fun a ctx' h => ?_⟩
      · rw [List.mem_singleton.mp hs]
        exact hnew
      · cases h
        refine ⟨fun s => ?_, fun f => ?_⟩
        · rw [Dict.mem_keys_set, or_comm]
          exact or_congr_right List.mem_singleton.symm
        · exact (or_iff_left (List.not_mem_nil)).symm

theorem loadSources_once (visiting : List String) : ∀ (srcs : List String) (acc : List (String × Value))
    (ctx : RequestContext), Once visiting ctx (LoggedCore.loadSources acc srcs ctx)
  | [], acc, ctx => Once.pure acc
  | src :: srcs, acc, ctx => by
    unfold LoggedCore.loadSources
    exact (getSource_once visiting ctx src).bind fun v ctx' _ => loadSources_once visiting srcs _ ctx'

theorem resolveDeps_once {visiting : List String}
    {rec : String → RequestContext → LoggedCalls (Option FeatureComputation × RequestContext)}
    (hrec : ∀ name ctx, Once visiting ctx (rec name ctx)) (calcTs : Int) :
    ∀ (deps : List FeatureDependency) (st : DepState) (ctx : RequestContext),
    Once visiting ctx (LoggedCore.resolveDeps rec calcTs deps st ctx)
  | [], st, ctx => Once.pure (some st)
  | dep :: deps, st, ctx => by
    unfold LoggedCore.resolveDeps
    refine (hrec dep.feature ctx).bind fun comp ctx' _ => Once.lift_bind fun out _ => ?_
    cases out with
    | none => exact Once.pure none
    | some st' => exact resolveDeps_once hrec calcTs deps st' ctx'

theorem finishNode_calls (core : ComputeCore) (byName : List (String × FeatureDef)) (stamps : SourceStamps)
    (feature : FeatureDef) (sources : List (String × Value)) (comps : List (String × FeatureComputation))
    (degraded : Bool) :
    (LoggedCore.finishNode core byName stamps feature sources comps degraded).calls = [.udf feature.name feature.udf] ∨
    (LoggedCore.finishNode core byName stamps feature sources comps degraded).calls = [] ∧
      ∃ e, (LoggedCore.finishNode core byName stamps feature sources comps degraded).out = .error e := by
  unfold LoggedCore.finishNode
  cases sourceRows feature.name stamps feature.inputs with
  | error e => exact .inr ⟨rfl, e, rfl⟩
  | ok srcRows =>
    cases depRows byName comps with
    | error e => exact .inr ⟨rfl, e, rfl⟩
    | ok comRows =>
      cases core.getUdf feature.udf with
      | error e => exact .inr ⟨rfl, e, rfl⟩
      | ok udf =>
        refine .inl ?_
        cases hv : udf sources (comps.map fun c => (c.1, c.2.value)) with
        | error e =>
          rw [Logged.bind_of_ok rfl, Logged.bind_of_ok rfl, Logged.bind_of_ok rfl, Logged.bind_of_error hv]
          rfl
        | ok value =>
          rw [Logged.bind_of_ok rfl, Logged.bind_of_ok rfl, Logged.bind_of_ok rfl, Logged.bind_of_ok hv]
          rfl

section
variable {core : ComputeCore} {byName : List (String × FeatureDef)} {stamps : SourceStamps} {calcTs : Int}
  (hby : ∀ name f, Dict.get? byName name = some f → f.name = name)
include hby

theorem finish_once {visiting : List String} {ctx : RequestContext} {name : String} {feature : FeatureDef}
    (hf : Dict.get? byName name = some feature) (hnew : name ∉ Dict.keys ctx.features) (hv : name ∉ visiting)
    (sources : List (String × Value)) (comps : List (String × FeatureComputation)) (degraded : Bool) :
    Once visiting ctx (do
      let c ← LoggedCore.finishNode core byName stamps feature sources comps degraded
      pure (some c, ctx.cacheFeature name c)) := by
  cases hout : (LoggedCore.finishNode core byName stamps feature sources comps degraded).out with
  | error e =>
    rw [Logged.bind_of_error hout]
    rcases finishNode_calls core byName stamps feature sources comps degraded with hc | ⟨hc, -⟩
    · rw [hc, hby name feature hf]
      refine ⟨List.nodup_nil, fun s hs => (nomatch hs), List.nodup_singleton name, fun g hg => ?_,
        fun a ctx' h => (nomatch h)⟩
      rw [List.mem_singleton.mp hg]
      exact ⟨hnew, hv⟩
    · rw [hc]
      exact Once.error e
  | ok c =>
    rw [Logged.bind_of_ok hout]
    rcases finishNode_calls core byName stamps feature sources comps degraded with hc | ⟨-, e, he⟩
    · rw [hc, hby name feature hf]
      refine ⟨List.nodup_nil, fun s hs => (nomatch hs), List.nodup_singleton name, fun g hg => ?_, fun a ctx' h => ?_⟩
      · rw [List.mem_singleton.mp hg]
        exact ⟨hnew, hv⟩
      · cases h
        refine ⟨fun s => (or_iff_left List.not_mem_nil).symm, fun g => ?_⟩
        rw [RequestContext.cacheFeature, Dict.mem_keys_set, or_comm]
        exact or_congr_right List.mem_singleton.symm
    · cases he.symm.trans hout

theorem resolve_once : ∀ (fuel : Nat) (visiting : List String) (name : String) (ctx : RequestContext),
    Once visiting ctx (LoggedCore.resolve core byName stamps calcTs fuel visiting name ctx)
  | 0, visiting, name, ctx => Once.error _
  | fuel + 1, visiting, name, ctx => by
    unfold LoggedCore.resolve
    cases hg : Dict.get? ctx.features name with
    | some c => exact Once.pure (some c)
    | none =>
      dsimp only
      by_cases hk : ctx.isSkipped name = true
      · rw [if_pos hk]
        exact Once.pure none
      rw [if_neg hk]
      cases hf : Dict.get? byName name with
      | none => exact Once.error _
      | some feature =>
        dsimp only
        by_cases hv : name ∈ visiting
        · rw [if_pos hv]
          exact Once.error _
        rw [if_neg hv]
        have hsub : visiting ⊆ visiting ++ [name] := List.subset_append_left _ _
        have hself : name ∈ visiting ++ [name] := List.mem_append_right _ (List.mem_singleton.mpr rfl)
        have hload := loadSources_once (visiting ++ [name]) feature.inputs [] ctx
        refine (hload.weaken hsub).bind fun sources ctx₁ hl => ?_
        have hnew₁ : name ∉ Dict.keys ctx₁.features := fun hm =>
          (((hload.grown _ _ hl).features name).mp hm).elim (Dict.get?_eq_none_iff.mp hg)
            fun hc => (hload.called_new name hc).2 hself
        have hdeps := resolveDeps_once (fun n c => resolve_once fuel (visiting ++ [name]) n c) calcTs feature.deps
          ([], false) ctx₁
        refine (hdeps.weaken hsub).bind fun out ctx₂ hd => ?_
        -- the feature is still being visited, so nothing below it was this feature
        have hnew₂ : name ∉ Dict.keys ctx₂.features := fun hm =>
          (((hdeps.grown _ _ hd).features name).mp hm).elim hnew₁ fun hc => (hdeps.called_new name hc).2 hself
        cases out with
        | none => exact Once.still none rfl rfl
        | some st => exact finish_once hby hf hnew₂ hv sources st.1 st.2

theorem computeLoop_once (fuel : Nat) (entityKey : EntityKey) : ∀ (names : List String)
    (results : List (String × FeatureResult)) (ctx : RequestContext),
    Once [] ctx (LoggedCore.computeLoop core byName fuel entityKey stamps calcTs names results ctx)
  | [], results, ctx => Once.pure results
  | name :: names, results, ctx => by
    unfold LoggedCore.computeLoop
    refine (resolve_once hby fuel [] name ctx).bind fun comp ctx' _ => ?_
    cases comp with
    | none => exact computeLoop_once fuel entityKey names results ctx'
    | some c =>
      dsimp only
      cases Dict.get? byName name with
      | none => exact Once.error _
      | some f => exact computeLoop_once fuel entityKey names _ ctx'

end

theorem compute_once (core : ComputeCore) (view : String) (viewVersion : Int) (entityKey : EntityKey)
    (names : List String) (ctx : RequestContext) (stamps : SourceStamps) (calcTs : Int) :
    Once [] ctx (LoggedCore.compute core view viewVersion entityKey names ctx stamps calcTs) := by
  unfold LoggedCore.compute
  refine Once.lift_bind fun viewDef _ => ?_
  exact computeLoop_once (fun name f hf => (featuresByName_name hf).2) viewDef.fuel entityKey names [] ctx

/-! ## Two requests for one feature -/

/-- The computation of `f` in a request: its status, and its result with value and metadata. -/
structure ComputedAs (f : String) (out : Option FeatureComputation) (ref : FeatureRef) (entityKey : EntityKey) (calcTs : Int)
    (results : List (String × FeatureResult)) (ctx : RequestContext) : Prop where
  status : Dict.get? ctx.statuses f = some (statusOf out)
  result : Dict.get? results f = out.map fun c => c.result ref entityKey calcTs

theorem compute_computedAs {registry : Registry} (hr : validateRegistry registry = .ok ()) {view : FeatureViewDef}
    (hv : view ∈ registry.featureViews) {core : ComputeCore} (hc : core.registry = registry)
    {loader : String → Except PyErr Value} {stamps : SourceStamps} {calcTs : Int} {entityKey : EntityKey}
    {names : List String} {results : List (String × FeatureResult)} {ctx : RequestContext}
    (h : core.compute view.name view.viewVersion entityKey names ⟨loader, [], [], []⟩ stamps calcTs = .ok (results, ctx))
    {f : String} (hf : f ∈ names) :
    ∃ out feature, (core.env view loader stamps calcTs).value f = .ok out ∧
      Dict.get? (featuresByName view.features) f = some feature ∧
      ComputedAs f out feature.ref entityKey calcTs results ctx := by
  obtain ⟨rank, hk⟩ := exists_rankedEnv hr hv core loader stamps calcTs
  obtain ⟨out, hout, hstatus, hresult⟩ := compute_ok hr hv hc h f hf
  have hloop := h
  rw [ComputeCore.compute, core_findView_valid hr hv hc, ok_bind] at hloop
  have hempty := @ContextSound.empty (core.env view loader stamps calcTs) rfl
  have hsound := (computeLoop_sound hempty hloop).2 f
  have hfound : ∃ feature, Dict.get? (featuresByName view.features) f = some feature := by
    have hnode := hout
    rw [value_eq hk, EvalEnv.node] at hnode
    cases hg : Dict.get? (core.env view loader stamps calcTs).byName f with
    | none =>
      rw [hg] at hnode
      cases hnode
    | some feature => exact ⟨feature, hg⟩
  obtain ⟨feature, hg⟩ := hfound
  refine ⟨out, feature, hout, hg, hstatus, ?_⟩
  cases out with
  | none =>
    cases hr : Dict.get? results f with
    | none => rfl
    | some result => exact absurd rfl (hresult.mpr ⟨result, hr⟩)
  | some c =>
    have hne : statusOf (some c) ≠ .skipped := by
      obtain ⟨_, _, _, hnode⟩ := ((evaluates_iff hk).mpr hout).node rfl
      exact EvalEnv.finish_status hnode.finished
    obtain ⟨result, hr⟩ := hresult.mp hne
    rcases hsound result hr with hold | ⟨-, c', feature', he, hg', rfl⟩
    · cases hold
    · cases hg.symm.trans hg'
      rw [(evaluates_iff hk).mp he] at hout
      cases hout
      exact hr

/-- Two requests give a feature the same computation, that of the evaluation without a cache, and a request loads no
payload twice and calls the function of no feature twice, also when it raises. -/
theorem features_independent_of_corequests (registry : Registry) (hr : validateRegistry registry = .ok ())
    (view : FeatureViewDef) (hv : view ∈ registry.featureViews) (core : ComputeCore) (hc : core.registry = registry)
    (loader : String → Except PyErr Value) (stamps : SourceStamps) (calcTs : Int) (entityKey : EntityKey) :
    (∀ names,
      let run := LoggedCore.compute core view.name view.viewVersion entityKey names ⟨loader, [], [], []⟩ stamps calcTs
      run.out = core.compute view.name view.viewVersion entityKey names ⟨loader, [], [], []⟩ stamps calcTs ∧
        (loaded run.calls).Nodup ∧ (called run.calls).Nodup) ∧
    ∀ f names names' results results' ctx ctx', f ∈ names → f ∈ names' →
      core.compute view.name view.viewVersion entityKey names ⟨loader, [], [], []⟩ stamps calcTs = .ok (results, ctx) →
      core.compute view.name view.viewVersion entityKey names' ⟨loader, [], [], []⟩ stamps calcTs =
        .ok (results', ctx') →
      ∃ out feature, (core.env view loader stamps calcTs).value f = .ok out ∧
        Dict.get? (featuresByName view.features) f = some feature ∧
        ComputedAs f out feature.ref entityKey calcTs results ctx ∧
        ComputedAs f out feature.ref entityKey calcTs results' ctx' := by
  constructor
  · intro names
    have honce := compute_once core view.name view.viewVersion entityKey names ⟨loader, [], [], []⟩ stamps calcTs
    exact ⟨LoggedCore.compute_out _ _ _ _ _ _ _ _, honce.loaded_nodup, honce.called_nodup⟩
  · intro f names names' results results' ctx ctx' hf hf' h h'
    obtain ⟨out, feature, hout, hg, hcomp⟩ := compute_computedAs hr hv hc h hf
    obtain ⟨out', feature', hout', hg', hcomp'⟩ := compute_computedAs hr hv hc h' hf'
    cases hout.symm.trans hout'
    cases hg.symm.trans hg'
    exact ⟨out, feature, hout, hg, hcomp, hcomp'⟩

def freshRequest (names : List String) : Except PyErr (List (String × FeatureResult) × RequestContext) :=
  freshCore.compute "risk" 1 userKey names ⟨fun _ => .ok .null, [], [], []⟩ mixNew 20

theorem freshRequests_ok : (freshRequest ["gated"]).toBool = true ∧ (freshRequest ["mix", "gated"]).toBool = true := by
  decide +kernel

/-- The feature `gated` on its own, and beside one that is computed from it. -/
theorem features_independent_of_corequests_gated :
    let run := LoggedCore.compute freshCore "risk" 1 userKey ["mix", "gated"] ⟨fun _ => .ok .null, [], [], []⟩ mixNew 20
    (loaded run.calls).Nodup ∧ (called run.calls).Nodup ∧
    ∃ results ctx results' ctx', freshRequest ["gated"] = .ok (results, ctx) ∧
      freshRequest ["mix", "gated"] = .ok (results', ctx') ∧ run.out = .ok (results', ctx') ∧
      ∃ out feature, (freshCore.env freshView (fun _ => .ok .null) mixNew 20).value "gated" = .ok out ∧
        Dict.get? (featuresByName freshView.features) "gated" = some feature ∧
        ComputedAs "gated" out feature.ref userKey 20 results ctx ∧
        ComputedAs "gated" out feature.ref userKey 20 results' ctx' := by
  obtain ⟨hruns, hsame⟩ := features_independent_of_corequests freshCore.registry (by decide +kernel) freshView
    (List.mem_singleton.mpr rfl) freshCore rfl (fun _ => .ok .null) mixNew 20 userKey
  have h := eq_ok_okGet (freshRequest ["gated"]) freshRequests_ok.1
  have h' := eq_ok_okGet (freshRequest ["mix", "gated"]) freshRequests_ok.2
  obtain ⟨hout, hloaded, hcalled⟩ := hruns ["mix", "gated"]
  exact ⟨hloaded, hcalled, _, _, _, _, h, h', hout.trans h',
    hsame "gated" ["gated"] ["mix", "gated"] _ _ _ _ (by decide) (by decide) h h'⟩

/-- Two features that name one function: it is called for each of them. -/
theorem shared_function_called_twice : validateRegistry freshCore.registry = .ok () ∧
    (let run := LoggedCore.compute freshCore "risk" 1 userKey ["base", "recent"] ⟨fun _ => .ok .null, [], [], []⟩ mixNew 20
    run.out.toBool = true ∧ ¬ (run.calls.filterMap Call.udfId?).Nodup) := by
  decide +kernel

end ClearFeature
