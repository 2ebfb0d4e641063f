import ClearFeature.Compute

/-!
# What a request computes

The same evaluation without the request context: no cache, no skip marks. A
successful resolution returns what the plain evaluation returns, and caches
only that.
-/

namespace ClearFeature

/-- What the value of a feature depends on within one request; `base` is prefilled. -/
structure EvalEnv where
  core : ComputeCore
  byName : List (String × FeatureDef)
  stamps : SourceStamps
  calcTs : Int
  loader : String → Except PyErr Value
  base : List (String × FeatureComputation) := []

def evalSources (loader : String → Except PyErr Value) (acc : List (String × Value)) :
    List String → Except PyErr (List (String × Value))
  | [] => .ok acc
  | src :: srcs => do
    let v ← loader src
    evalSources loader (Dict.set acc src v) srcs

def evalDeps (rec : String → Except PyErr (Option FeatureComputation)) (calcTs : Int) :
    List FeatureDependency → DepState → Except PyErr (Option DepState)
  | [], st => .ok (some st)
  | dep :: deps, st => do
    let comp ← rec dep.feature
    match ← addDep calcTs dep comp st with
    | none => .ok none
    | some st => evalDeps rec calcTs deps st

namespace EvalEnv

def finish (env : EvalEnv) (feature : FeatureDef) (sources : List (String × Value)) (st : DepState) :
    Except PyErr FeatureComputation :=
  finishNode env.core env.byName env.stamps feature sources st.1 st.2

def eval (env : EvalEnv) : Nat → String → Except PyErr (Option FeatureComputation)
  | 0, _ => .error (.other "RecursionError" "maximum recursion depth exceeded")
  | fuel + 1, name =>
    match Dict.get? env.base name with
    | some c => .ok (some c)
    | none =>
      match Dict.get? env.byName name with
      | none => .error (.valueError s!"unknown feature {reprStr name}")
      | some feature => do
        let sources ← evalSources env.loader [] feature.inputs
        match ← evalDeps (env.eval fuel) env.calcTs feature.deps ([], false) with
        | none => .ok none
        | some st => do
          let c ← env.finish feature sources st
          .ok (some c)

/-- `name` evaluates to `r`; `none` is a skipped feature. -/
def Evaluates (env : EvalEnv) (name : String) (r : Option FeatureComputation) : Prop := ∃ n, env.eval n name = .ok r

end EvalEnv

/-! ## More fuel changes nothing -/

theorem evalDeps_mono {rec rec' : String → Except PyErr (Option FeatureComputation)} {calcTs : Int}
    (hr : ∀ k r, rec k = .ok r → rec' k = .ok r) : ∀ {deps : List FeatureDependency} {st : DepState} {out},
    evalDeps rec calcTs deps st = .ok out → evalDeps rec' calcTs deps st = .ok out
  | [], st, out, h => h
  | dep :: deps, st, out, h => by
    simp only [evalDeps, bind_eq_ok] at h ⊢
    obtain ⟨comp, hc, o, ha, h⟩ := h
    refine ⟨comp, hr _ _ hc, o, ha, ?_⟩
    cases o with
    | none => exact h
    | some st' => exact evalDeps_mono hr h

namespace EvalEnv
variable {env : EvalEnv}

theorem eval_succ : ∀ {n : Nat} {name : String} {r : Option FeatureComputation},
    env.eval n name = .ok r → env.eval (n + 1) name = .ok r
  | 0, name, r, h => by cases h
  | n + 1, name, r, h => by
    rw [eval] at h ⊢
    cases hb : Dict.get? env.base name with
    | some c => rw [hb] at h; exact h
    | none =>
      rw [hb] at h
      cases hf : Dict.get? env.byName name with
      | none => rw [hf] at h; cases h
      | some feature =>
        simp only [hf, bind_eq_ok] at h ⊢
        obtain ⟨sources, hs, out, hd, h⟩ := h
        exact ⟨sources, hs, out, evalDeps_mono (fun _ _ => eval_succ) hd, h⟩

theorem eval_mono {n m : Nat} {name : String} {r : Option FeatureComputation} (hnm : n ≤ m)
    (h : env.eval n name = .ok r) : env.eval m name = .ok r := by
  induction hnm with
  | refl => exact h
  | step _ ih => exact eval_succ ih

theorem Evaluates.det {name : String} {r r' : Option FeatureComputation} (h : env.Evaluates name r)
    (h' : env.Evaluates name r') : r = r' := by
  obtain ⟨n, h⟩ := h
  obtain ⟨m, h'⟩ := h'
  have h₁ := eval_mono (Nat.le_max_left n m) h
  have h₂ := eval_mono (Nat.le_max_right n m) h'
  exact Except.ok.inj (h₁.symm.trans h₂)

end EvalEnv

/-! ## The dependency loop -/

section
variable {rec : String → Except PyErr (Option FeatureComputation)} {calcTs : Int}

theorem addDep_none {dep : FeatureDependency} {st st' : DepState} (h : addDep calcTs dep none st = .ok (some st')) :
    st'.1 = st.1 := by
  rw [addDep] at h
  by_cases hr : dep.required = true
  · rw [if_pos hr] at h
    cases h
  · rw [if_neg hr] at h
    cases h
    rfl

theorem addDep_some {dep : FeatureDependency} {c : FeatureComputation} {st st' : DepState}
    (h : addDep calcTs dep (some c) st = .ok (some st')) : st'.1 = Dict.set st.1 dep.feature c := by
  simp only [addDep, bind_eq_ok] at h
  obtain ⟨stale, -, h⟩ := h
  split at h
  · cases h
  · cases h; rfl

theorem evalDeps_comps : ∀ {deps : List FeatureDependency} {st st' : DepState},
    evalDeps rec calcTs deps st = .ok (some st') →
    (∀ k c, Dict.get? st.1 k = some c → rec k = .ok (some c)) →
    ∀ k c, Dict.get? st'.1 k = some c ↔
      Dict.get? st.1 k = some c ∨ (∃ d ∈ deps, d.feature = k) ∧ rec k = .ok (some c)
  | [], st, st', h, _, k, c => by
    cases h
    simp
  | dep :: deps, st, st', h, hst, k, c => by
    simp only [evalDeps, bind_eq_ok] at h
    obtain ⟨comp, hc, out, ha, h⟩ := h
    cases out with
    | none => cases h
    | some st₁ =>
      have hget : ∀ k c, Dict.get? st₁.1 k = some c ↔ Dict.get? st.1 k = some c ∨ dep.feature = k ∧ rec k = .ok (some c) := by
        intro k c
        cases comp with
        | none =>
          rw [addDep_none ha]
          refine ⟨.inl, fun h => ?_⟩
          rcases h with h | ⟨e, h⟩
          · exact h
          · rw [← e, hc] at h
            cases h
        | some c' =>
          rw [addDep_some ha, Dict.get?_set]
          by_cases e : dep.feature = k
          · subst e
            rw [if_pos rfl, hc]
            refine ⟨fun h => .inr ⟨rfl, by rw [Option.some.inj h]⟩, fun h => ?_⟩
            rcases h with h | ⟨-, h⟩
            · have := hst _ _ h
              rw [hc] at this
              cases this
              rfl
            · cases h
              rfl
          · simp [e]
      have ih := evalDeps_comps h (fun k c hk => ((hget k c).mp hk).elim (hst k c) (·.2)) k c
      rw [ih, hget]
      constructor
      · rintro ((h | ⟨e, h⟩) | ⟨⟨d, hd, e⟩, h⟩)
        · exact .inl h
        · exact .inr ⟨⟨dep, List.mem_cons_self, e⟩, h⟩
        · exact .inr ⟨⟨d, List.mem_cons_of_mem _ hd, e⟩, h⟩
      · rintro (h | ⟨⟨d, hd, e⟩, h⟩)
        · exact .inl (.inl h)
        · rcases List.mem_cons.mp hd with rfl | hd
          · exact .inl (.inr ⟨e, h⟩)
          · exact .inr ⟨⟨d, hd, e⟩, h⟩

theorem evalDeps_visited : ∀ {deps : List FeatureDependency} {st st' : DepState},
    evalDeps rec calcTs deps st = .ok (some st') → ∀ d ∈ deps, ∃ r, rec d.feature = .ok r
  | [], st, st', h, d, hm => by cases hm
  | dep :: deps, st, st', h, d, hm => by
    simp only [evalDeps, bind_eq_ok] at h
    obtain ⟨comp, hc, out, -, h⟩ := h
    cases out with
    | none => cases h
    | some st₁ =>
      rcases List.mem_cons.mp hm with rfl | hm
      · exact ⟨comp, hc⟩
      · exact evalDeps_visited h d hm

theorem evalDeps_nodup : ∀ {deps : List FeatureDependency} {st st' : DepState},
    evalDeps rec calcTs deps st = .ok (some st') → (Dict.keys st.1).Nodup → (Dict.keys st'.1).Nodup
  | [], st, st', h, hn => by cases h; exact hn
  | dep :: deps, st, st', h, hn => by
    simp only [evalDeps, bind_eq_ok] at h
    obtain ⟨comp, -, out, ha, h⟩ := h
    cases out with
    | none => cases h
    | some st₁ =>
      refine evalDeps_nodup h ?_
      cases comp with
      | none => rw [addDep_none ha]; exact hn
      | some c => rw [addDep_some ha]; exact Dict.keys_set_nodup _ _ hn

end

/-! ## Resolution against evaluation -/

/-- What the request context remembers is what evaluation gives. -/
structure ContextSound (env : EvalEnv) (ctx : RequestContext) : Prop where
  loader : ctx.sourceLoader = env.loader
  sources : ∀ k v, Dict.get? ctx.sources k = some v → env.loader k = .ok v
  features : ∀ k c, Dict.get? ctx.features k = some c → env.Evaluates k (some c)
  skipped : ∀ k, Dict.get? ctx.statuses k = some .skipped → env.Evaluates k none
  base : ∀ k c, Dict.get? env.base k = some c → Dict.get? ctx.features k = some c

section
variable {env : EvalEnv}

theorem getSource_sound {ctx ctx' : RequestContext} {src : String} {v : Value} (hs : ContextSound env ctx)
    (h : ctx.getSource src = .ok (v, ctx')) : ContextSound env ctx' ∧ env.loader src = .ok v := by
  unfold RequestContext.getSource at h
  cases hg : Dict.get? ctx.sources src with
  | some v' =>
    rw [hg] at h
    cases h
    exact ⟨hs, hs.sources _ _ hg⟩
  | none =>
    simp only [hg, bind_eq_ok] at h
    obtain ⟨v', hl, h⟩ := h
    cases h
    rw [hs.loader] at hl
    refine ⟨⟨hs.loader, fun k w hk => ?_, hs.features, hs.skipped, hs.base⟩, hl⟩
    rw [Dict.get?_set] at hk
    by_cases e : src = k
    · rw [if_pos e] at hk; cases hk; exact e ▸ hl
    · rw [if_neg e] at hk; exact hs.sources _ _ hk

theorem loadSources_sound : ∀ {srcs : List String} {acc : List (String × Value)} {ctx ctx' : RequestContext}
    {sources : List (String × Value)}, ContextSound env ctx → loadSources acc srcs ctx = .ok (sources, ctx') →
    ContextSound env ctx' ∧ evalSources env.loader acc srcs = .ok sources
  | [], acc, ctx, ctx', sources, hs, h => by cases h; exact ⟨hs, rfl⟩
  | src :: srcs, acc, ctx, ctx', sources, hs, h => by
    simp only [loadSources, bind_eq_ok] at h
    obtain ⟨⟨v, ctx₁⟩, hg, h⟩ := h
    obtain ⟨hs₁, hl⟩ := getSource_sound hs hg
    obtain ⟨hs', he⟩ := loadSources_sound hs₁ h
    exact ⟨hs', bind_eq_ok.mpr ⟨v, hl, he⟩⟩

theorem resolveDeps_sound
    {rec : String → RequestContext → Except PyErr (Option FeatureComputation × RequestContext)}
    (hr : ∀ k ctx r ctx', ContextSound env ctx → rec k ctx = .ok (r, ctx') → ContextSound env ctx' ∧ env.Evaluates k r) :
    ∀ {deps : List FeatureDependency} {st : DepState} {ctx ctx' : RequestContext} {out : Option DepState},
    ContextSound env ctx → resolveDeps rec env.calcTs deps st ctx = .ok (out, ctx') →
    ContextSound env ctx' ∧ ∃ n, evalDeps (env.eval n) env.calcTs deps st = .ok out
  | [], st, ctx, ctx', out, hs, h => by cases h; exact ⟨hs, 0, rfl⟩
  | dep :: deps, st, ctx, ctx', out, hs, h => by
    simp only [resolveDeps, bind_eq_ok] at h
    obtain ⟨⟨comp, ctx₁⟩, hc, o, ha, h⟩ := h
    obtain ⟨hs₁, n, he⟩ := hr _ _ _ _ hs hc
    cases o with
    | none =>
      cases h
      exact ⟨hs₁, n, bind_eq_ok.mpr ⟨comp, he, bind_eq_ok.mpr ⟨none, ha, rfl⟩⟩⟩
    | some st₁ =>
      obtain ⟨hs', m, hd⟩ := resolveDeps_sound hr hs₁ h
      refine ⟨hs', max n m, bind_eq_ok.mpr ⟨comp, EvalEnv.eval_mono (Nat.le_max_left n m) he, ?_⟩⟩
      refine bind_eq_ok.mpr ⟨some st₁, ha, ?_⟩
      exact evalDeps_mono (fun _ _ h => EvalEnv.eval_mono (Nat.le_max_right n m) h) hd

theorem ContextSound.cacheFeature {ctx : RequestContext} {name : String} {c : FeatureComputation}
    (hs : ContextSound env ctx) (he : env.Evaluates name (some c)) (hc : c.status ≠ .skipped)
    (hb : Dict.get? env.base name = none) : ContextSound env (ctx.cacheFeature name c) where
  loader := hs.loader
  sources := hs.sources
  features k c' hk := by
    rw [RequestContext.cacheFeature, Dict.get?_set] at hk
    by_cases e : name = k
    · rw [if_pos e] at hk; cases hk; exact e ▸ he
    · rw [if_neg e] at hk; exact hs.features _ _ hk
  skipped k hk := by
    rw [RequestContext.cacheFeature, Dict.get?_set] at hk
    by_cases e : name = k
    · rw [if_pos e] at hk; exact absurd (Option.some.inj hk) hc
    · rw [if_neg e] at hk; exact hs.skipped _ hk
  base k c' hk := by
    have hne : name ≠ k := fun e => by rw [← e, hb] at hk; cases hk
    rw [RequestContext.cacheFeature, Dict.get?_set_ne _ _ hne]
    exact hs.base _ _ hk

theorem ContextSound.markSkipped {ctx : RequestContext} {name : String} (hs : ContextSound env ctx)
    (he : env.Evaluates name none) : ContextSound env (ctx.markSkipped name) where
  loader := hs.loader
  sources := hs.sources
  features := hs.features
  skipped k hk := by
    rw [RequestContext.markSkipped, Dict.get?_set] at hk
    by_cases e : name = k
    · exact e ▸ he
    · rw [if_neg e] at hk; exact hs.skipped _ hk
  base := hs.base

theorem computation_status {sha256 : Sha256} {v : Value} {rows : List InputRow} {degraded : Bool}
    {c : FeatureComputation} (h : computation sha256 v rows degraded = .ok c) : c.status ≠ .skipped := by
  obtain ⟨-, row, rest, -, rfl⟩ := computation_ok h
  unfold computedFrom
  cases degraded <;> simp

theorem EvalEnv.finish_status {feature : FeatureDef} {sources : List (String × Value)} {st : DepState}
    {c : FeatureComputation} (h : env.finish feature sources st = .ok c) : c.status ≠ .skipped := by
  simp only [finish, finishNode, bind_eq_ok] at h
  obtain ⟨_, -, _, -, _, -, v, -, h⟩ := h
  exact computation_status h

theorem resolve_sound : ∀ {fuel : Nat} {visiting : List String} {name : String} {ctx ctx' : RequestContext}
    {r : Option FeatureComputation}, ContextSound env ctx →
    env.core.resolve env.byName env.stamps env.calcTs fuel visiting name ctx = .ok (r, ctx') →
    ContextSound env ctx' ∧ env.Evaluates name r
  | 0, visiting, name, ctx, ctx', r, hs, h => by cases h
  | fuel + 1, visiting, name, ctx, ctx', r, hs, h => by
    rw [ComputeCore.resolve] at h
    cases hf : Dict.get? ctx.features name with
    | some c =>
      rw [hf] at h
      cases h
      exact ⟨hs, hs.features _ _ hf⟩
    | none =>
      have hb : Dict.get? env.base name = none := by
        cases hb : Dict.get? env.base name with
        | none => rfl
        | some c => rw [hs.base _ _ hb] at hf; cases hf
      simp only [hf] at h
      by_cases hk : ctx.isSkipped name = true
      · rw [if_pos hk] at h
        cases h
        exact ⟨hs, hs.skipped _ (by simpa [RequestContext.isSkipped] using hk)⟩
      rw [if_neg hk] at h
      cases hn : Dict.get? env.byName name with
      | none => rw [hn] at h; cases h
      | some feature =>
        simp only [hn] at h
        by_cases hv : name ∈ visiting
        · rw [if_pos hv] at h; cases h
        simp only [if_neg hv, bind_eq_ok] at h
        obtain ⟨⟨sources, ctx₁⟩, hl, ⟨out, ctx₂⟩, hd, h⟩ := h
        obtain ⟨hs₁, he⟩ := loadSources_sound hs hl
        obtain ⟨hs₂, n, hd⟩ := resolveDeps_sound (fun _ _ _ _ hs h => resolve_sound hs h) hs₁ hd
        have heval : ∀ r', (match out with
            | none => .ok none
            | some st => do
              let c ← env.finish feature sources st
              .ok (some c)) = Except.ok r' → env.Evaluates name r' := fun r' h' => by
          refine ⟨n + 1, ?_⟩
          simp only [EvalEnv.eval, hb, hn]
          exact bind_eq_ok.mpr ⟨sources, he, bind_eq_ok.mpr ⟨out, hd, h'⟩⟩
        cases out with
        | none =>
          cases h
          have := heval none rfl
          exact ⟨hs₂.markSkipped this, this⟩
        | some st =>
          simp only [bind_eq_ok] at h
          obtain ⟨c, hc, h⟩ := h
          cases h
          have hc : env.finish feature sources st = .ok c := hc
          have := heval (some c) (by simp only [hc, ok_bind])
          exact ⟨hs₂.cacheFeature this (EvalEnv.finish_status hc) hb, this⟩

theorem computeLoop_sound {fuel : Nat} {entityKey : EntityKey} : ∀ {names : List String}
    {results results' : List (String × FeatureResult)} {ctx ctx' : RequestContext}, ContextSound env ctx →
    env.core.computeLoop env.byName fuel entityKey env.stamps env.calcTs names results ctx = .ok (results', ctx') →
    ContextSound env ctx' ∧ ∀ k r, Dict.get? results' k = some r → Dict.get? results k = some r ∨
      k ∈ names ∧ ∃ c f, env.Evaluates k (some c) ∧ Dict.get? env.byName k = some f ∧
        r = c.result f.ref entityKey env.calcTs
  | [], results, results', ctx, ctx', hs, h => by cases h; exact ⟨hs, fun _ _ h => .inl h⟩
  | name :: names, results, results', ctx, ctx', hs, h => by
    simp only [ComputeCore.computeLoop, bind_eq_ok] at h
    obtain ⟨⟨comp, ctx₁⟩, hr, h⟩ := h
    obtain ⟨hs₁, he⟩ := resolve_sound hs hr
    cases comp with
    | none =>
      obtain ⟨hs', ih⟩ := computeLoop_sound hs₁ h
      refine ⟨hs', fun k r hk => (ih k r hk).imp id fun ⟨hm, h⟩ => ⟨List.mem_cons_of_mem _ hm, h⟩⟩
    | some c =>
      cases hf : Dict.get? env.byName name with
      | none => simp only [hf] at h; cases h
      | some f =>
        simp only [hf] at h
        obtain ⟨hs', ih⟩ := computeLoop_sound hs₁ h
        refine ⟨hs', fun k r hk => ?_⟩
        rcases ih k r hk with hk | ⟨hm, h⟩
        · rw [Dict.get?_set] at hk
          by_cases e : name = k
          · rw [if_pos e] at hk
            cases hk
            exact .inr ⟨e ▸ List.mem_cons_self, c, f, e ▸ he, e ▸ hf, rfl⟩
          · rw [if_neg e] at hk
            exact .inl hk
        · exact .inr ⟨List.mem_cons_of_mem _ hm, h⟩

end

theorem computeLoop_nodup {core : ComputeCore} {byName : List (String × FeatureDef)} {fuel : Nat} {key : EntityKey}
    {stamps : SourceStamps} {calcTs : Int} : ∀ {names : List String} {results results' : List (String × FeatureResult)}
    {ctx ctx' : RequestContext}, core.computeLoop byName fuel key stamps calcTs names results ctx = .ok (results', ctx') →
    (Dict.keys results).Nodup → (Dict.keys results').Nodup
  | [], results, results', ctx, ctx', h, hn => by cases h; exact hn
  | name :: names, results, results', ctx, ctx', h, hn => by
    simp only [ComputeCore.computeLoop, bind_eq_ok] at h
    obtain ⟨⟨comp, ctx₁⟩, -, h⟩ := h
    cases comp with
    | none => exact computeLoop_nodup h hn
    | some c =>
      cases hf : Dict.get? byName name with
      | none => simp only [hf] at h; cases h
      | some f =>
        simp only [hf] at h
        exact computeLoop_nodup h (Dict.keys_set_nodup _ _ hn)

/-! ## A request from an empty context -/

def ComputeCore.env (core : ComputeCore) (view : FeatureViewDef) (loader : String → Except PyErr Value)
    (stamps : SourceStamps) (calcTs : Int) : EvalEnv where
  core := core
  byName := featuresByName view.features
  stamps := stamps
  calcTs := calcTs
  loader := loader

theorem ContextSound.empty {env : EvalEnv} (hb : env.base = []) : ContextSound env ⟨env.loader, [], [], []⟩ where
  loader := rfl
  sources _ _ h := by simp at h
  features _ _ h := by simp at h
  skipped _ h := by simp at h
  base _ _ h := by simp [hb] at h

theorem compute_sound {core : ComputeCore} {view : String} {viewVersion : Int} {entityKey : EntityKey}
    {names : List String} {loader : String → Except PyErr Value} {stamps : SourceStamps} {calcTs : Int}
    {results : List (String × FeatureResult)} {ctx : RequestContext}
    (h : core.compute view viewVersion entityKey names ⟨loader, [], [], []⟩ stamps calcTs = .ok (results, ctx)) :
    ∃ viewDef, core.findView view viewVersion = .ok viewDef ∧ ∀ k r, Dict.get? results k = some r → k ∈ names ∧ ∃ c f, (core.env viewDef loader stamps calcTs).Evaluates k (some c) ∧
      Dict.get? (featuresByName viewDef.features) k = some f ∧ r = c.result f.ref entityKey calcTs := by
  simp only [ComputeCore.compute, bind_eq_ok] at h
  obtain ⟨viewDef, hv, h⟩ := h
  refine ⟨viewDef, hv, fun k r hk => ?_⟩
  have hs := @ContextSound.empty (core.env viewDef loader stamps calcTs) rfl
  rcases (computeLoop_sound hs h).2 k r hk with hk | hk
  · simp at hk
  · exact hk

theorem compute_nodup {core : ComputeCore} {view : String} {viewVersion : Int} {entityKey : EntityKey}
    {names : List String} {ctx ctx' : RequestContext} {stamps : SourceStamps} {calcTs : Int}
    {results : List (String × FeatureResult)}
    (h : core.compute view viewVersion entityKey names ctx stamps calcTs = .ok (results, ctx')) :
    (Dict.keys results).Nodup := by
  obtain ⟨viewDef, -, h⟩ := bind_eq_ok.mp h
  exact computeLoop_nodup h (by simp [Dict.keys])

end ClearFeature
