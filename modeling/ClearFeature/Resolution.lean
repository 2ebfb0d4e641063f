import ClearFeature.DependencyGraph
import ClearFeature.Lineage

/-!
# The cache is transparent

On a ranked graph the plain evaluation never runs out of fuel, and a resolution
with a cache ends as it does, with the same error if it raises one.
-/

namespace ClearFeature

theorem evalDeps_congr {rec rec' : String → Except PyErr (Option FeatureComputation)} {calcTs : Int} :
    ∀ {deps : List FeatureDependency} {st : DepState}, (∀ d ∈ deps, rec d.feature = rec' d.feature) →
      evalDeps rec calcTs deps st = evalDeps rec' calcTs deps st
  | [], st, _ => rfl
  | dep :: deps, st, h => by
    unfold evalDeps
    rw [h dep List.mem_cons_self]
    refine congrArg _ (funext fun comp => congrArg _ (funext fun out => ?_))
    cases out with
    | none => rfl
    | some st' => exact evalDeps_congr fun d hd => h d (List.mem_cons_of_mem _ hd)

/-- A request without prefilled features on a ranked graph. -/
structure RankedEnv (env : EvalEnv) (rank : String → Nat) : Prop extends Ranking env.byName rank where
  base : env.base = []

namespace EvalEnv

/-- The evaluation with fuel for the largest depth. -/
def value (env : EvalEnv) (name : String) : Except PyErr (Option FeatureComputation) :=
  env.eval (maxDependencyDepthCap + 1) name

/-- One feature in terms of the evaluation of its dependencies. -/
def node (env : EvalEnv) (name : String) : Except PyErr (Option FeatureComputation) :=
  match Dict.get? env.byName name with
  | none => .error (.valueError s!"unknown feature {reprStr name}")
  | some feature => do
    let sources ← evalSources env.loader [] feature.inputs
    match ← evalDeps env.value env.calcTs feature.deps ([], false) with
    | none => .ok none
    | some st => do
      let c ← env.finish feature sources st
      .ok (some c)

end EvalEnv

section
variable {env : EvalEnv} {rank : String → Nat} (hk : RankedEnv env rank)
include hk

theorem eval_stable : ∀ {n m : Nat} {name : String}, rank name < n → rank name < m → env.eval n name = env.eval m name
  | 0, _, _, h, _ => absurd h (Nat.not_lt_zero _)
  | _, 0, _, _, h => absurd h (Nat.not_lt_zero _)
  | n + 1, m + 1, name, hn, hm => by
    unfold EvalEnv.eval
    cases Dict.get? env.base name with
    | some c => rfl
    | none =>
      cases hf : Dict.get? env.byName name with
      | none => rfl
      | some feature =>
        dsimp only
        refine congrArg _ (funext fun sources => ?_)
        rw [evalDeps_congr fun d hd => ?_]
        have hlt : rank d.feature < rank name := hk.lt _ _ ⟨feature, hf, d, hd, rfl⟩
        exact eval_stable (by omega) (by omega)

/-- The equation of a feature in terms of its dependencies. -/
theorem value_eq (name : String) : env.value name = env.node name := by
  rw [EvalEnv.value, EvalEnv.eval, EvalEnv.node, hk.base, Dict.get?_nil]
  cases hf : Dict.get? env.byName name with
  | none => rfl
  | some feature =>
    have hdeps : evalDeps (env.eval maxDependencyDepthCap) env.calcTs feature.deps ([], false) =
        evalDeps env.value env.calcTs feature.deps ([], false) := evalDeps_congr fun d hd => by
      have hlt : rank d.feature < rank name := hk.lt _ _ ⟨feature, hf, d, hd, rfl⟩
      have hcap := hk.le_cap name
      exact eval_stable hk (by omega) (by omega)
    dsimp only
    exact hdeps ▸ rfl

theorem evaluates_iff {name : String} {r : Option FeatureComputation} : env.Evaluates name r ↔ env.value name = .ok r := by
  constructor
  · rintro ⟨n, h⟩
    have hcap := hk.le_cap name
    have hmono := EvalEnv.eval_mono (Nat.le_max_left n (maxDependencyDepthCap + 1)) h
    rw [EvalEnv.value, eval_stable hk (by omega) (show rank name < max n (maxDependencyDepthCap + 1) by omega)]
    exact hmono
  · intro h
    exact ⟨_, h⟩

/-! ## The same errors -/

omit hk in
theorem getSource_error {ctx : RequestContext} {src : String} {e : PyErr} (hs : ContextSound env ctx)
    (h : ctx.getSource src = .error e) : env.loader src = .error e := by
  unfold RequestContext.getSource at h
  cases hg : Dict.get? ctx.sources src with
  | some v =>
    rw [hg] at h
    cases h
  | none =>
    rw [hg, hs.loader] at h
    cases hl : env.loader src with
    | ok v =>
      rw [hl] at h
      cases h
    | error e' =>
      rw [hl] at h
      cases h
      rfl

omit hk in
theorem loadSources_error : ∀ {srcs : List String} {acc : List (String × Value)} {ctx : RequestContext} {e : PyErr},
    ContextSound env ctx → loadSources acc srcs ctx = .error e → evalSources env.loader acc srcs = .error e
  | [], acc, ctx, e, _, h => by cases h
  | src :: srcs, acc, ctx, e, hs, h => by
    unfold loadSources at h
    unfold evalSources
    cases hg : ctx.getSource src with
    | error e' =>
      rw [hg] at h
      cases h
      rw [getSource_error hs hg]
      rfl
    | ok out =>
      obtain ⟨v, ctx'⟩ := out
      rw [hg] at h
      obtain ⟨hs', hl⟩ := getSource_sound hs hg
      rw [hl]
      exact loadSources_error hs' h

theorem resolveDeps_error
    {rec : String → RequestContext → Except PyErr (Option FeatureComputation × RequestContext)}
    (hok : ∀ k ctx r ctx', ContextSound env ctx → rec k ctx = .ok (r, ctx') → ContextSound env ctx' ∧ env.Evaluates k r) :
    ∀ {deps : List FeatureDependency} {st : DepState} {ctx : RequestContext} {e : PyErr},
    (∀ d ∈ deps, ∀ ctx e, ContextSound env ctx → rec d.feature ctx = .error e → env.value d.feature = .error e) →
    ContextSound env ctx → resolveDeps rec env.calcTs deps st ctx = .error e →
    evalDeps env.value env.calcTs deps st = .error e
  | [], st, ctx, e, _, _, h => by cases h
  | dep :: deps, st, ctx, e, herr, hs, h => by
    unfold resolveDeps at h
    unfold evalDeps
    cases hr : rec dep.feature ctx with
    | error e' =>
      rw [hr] at h
      cases h
      rw [herr dep List.mem_cons_self ctx e hs hr]
      rfl
    | ok out =>
      obtain ⟨comp, ctx'⟩ := out
      rw [hr] at h
      obtain ⟨hs', he⟩ := hok _ _ _ _ hs hr
      rw [(evaluates_iff hk).mp he]
      change (addDep env.calcTs dep comp st >>= _) = _ at h
      change (addDep env.calcTs dep comp st >>= _) = _
      cases ha : addDep env.calcTs dep comp st with
      | error e' =>
        rw [ha] at h
        cases h
        rfl
      | ok out =>
        rw [ha] at h
        cases out with
        | none => cases h
        | some st' => exact resolveDeps_error hok (fun d hd => herr d (List.mem_cons_of_mem _ hd)) hs' h

/-- What one feature raises once its resolution has begun. -/
theorem node_error {rec : String → RequestContext → Except PyErr (Option FeatureComputation × RequestContext)}
    (hok : ∀ k ctx r ctx', ContextSound env ctx → rec k ctx = .ok (r, ctx') → ContextSound env ctx' ∧ env.Evaluates k r)
    {name : String} {feature : FeatureDef} (hfeature : Dict.get? env.byName name = some feature) {ctx : RequestContext}
    {e : PyErr} (hs : ContextSound env ctx)
    (herr : ∀ d ∈ feature.deps, ∀ ctx e, ContextSound env ctx → rec d.feature ctx = .error e →
      env.value d.feature = .error e)
    (h : (do
      let loaded ← loadSources [] feature.inputs ctx
      let resolved ← resolveDeps rec env.calcTs feature.deps ([], false) loaded.2
      match resolved.1 with
      | none => .ok (none, resolved.2.markSkipped name)
      | some (comps, degraded) => do
        let c ← finishNode env.core env.byName env.stamps feature loaded.1 comps degraded
        .ok (some c, resolved.2.cacheFeature name c) : Except PyErr (Option FeatureComputation × RequestContext)) =
          .error e) :
    env.node name = .error e := by
  rw [EvalEnv.node, hfeature]
  dsimp only
  cases hl : loadSources [] feature.inputs ctx with
  | error e' =>
    rw [hl] at h
    cases h
    rw [loadSources_error hs hl]
    rfl
  | ok out =>
    obtain ⟨sources, ctx₁⟩ := out
    rw [hl] at h
    obtain ⟨hs₁, hsources⟩ := loadSources_sound hs hl
    rw [hsources]
    change (resolveDeps _ _ _ _ _ >>= _) = _ at h
    change (evalDeps _ _ _ _ >>= _) = _
    cases hd : resolveDeps rec env.calcTs feature.deps ([], false) ctx₁ with
    | error e' =>
      rw [hd] at h
      cases h
      rw [resolveDeps_error hk hok herr hs₁ hd]
      rfl
    | ok out =>
      obtain ⟨out, ctx₂⟩ := out
      rw [hd] at h
      obtain ⟨-, n, heval⟩ := resolveDeps_sound hok hs₁ hd
      have hvalue : evalDeps env.value env.calcTs feature.deps ([], false) = .ok out :=
        evalDeps_mono (fun k r h => (evaluates_iff hk).mp ⟨n, h⟩) heval
      rw [hvalue]
      cases out with
      | none => cases h
      | some st =>
        change (env.finish feature sources st >>= _) = _ at h
        change (env.finish feature sources st >>= _) = _
        cases hc : env.finish feature sources st with
        | error e' =>
          rw [hc] at h
          cases h
          rfl
        | ok c =>
          rw [hc] at h
          cases h

omit hk in
theorem visiting_push {names visiting : List String} {name dep : String} (hn : visiting.Nodup)
    (hv : ∀ v ∈ visiting, v ∈ names ∧ rank name < rank v) (hname : name ∈ names) (hlt : rank dep < rank name) :
    (visiting ++ [name]).Nodup ∧ ∀ v ∈ visiting ++ [name], v ∈ names ∧ rank dep < rank v := by
  have hfresh : name ∉ visiting := fun hm => Nat.lt_irrefl _ (hv name hm).2
  constructor
  · refine List.nodup_append.mpr ⟨hn, List.nodup_singleton name, fun v hm w hw e => hfresh ?_⟩
    rw [← List.mem_singleton.mp hw, ← e]
    exact hm
  · intro v hm
    rcases List.mem_append.mp hm with hm | hm
    · exact ⟨(hv v hm).1, Nat.lt_trans hlt (hv v hm).2⟩
    · rw [List.mem_singleton.mp hm]
      exact ⟨hname, hlt⟩

/-- A resolution that raises raises what the evaluation raises: what it visits ranks above the name, so that no cycle is
found and the fuel lasts. -/
theorem resolve_error {names : List String} (hnames : ∀ n f, Dict.get? env.byName n = some f → n ∈ names) :
    ∀ {fuel : Nat} {visiting : List String} {name : String} {ctx : RequestContext} {e : PyErr},
    ContextSound env ctx → visiting.Nodup → (∀ v ∈ visiting, v ∈ names ∧ rank name < rank v) →
    names.length < fuel + visiting.length →
    env.core.resolve env.byName env.stamps env.calcTs fuel visiting name ctx = .error e → env.value name = .error e
  | 0, visiting, name, ctx, e, _, hn, hv, hfuel, _ => by
    have hlen := hn.length_le_of_subset fun v h => (hv v h).1
    omega
  | fuel + 1, visiting, name, ctx, e, hs, hn, hv, hfuel, h => by
    rw [ComputeCore.resolve] at h
    rw [value_eq hk]
    cases hf : Dict.get? ctx.features name with
    | some c =>
      rw [hf] at h
      cases h
    | none =>
      simp only [hf] at h
      by_cases hskip : ctx.isSkipped name = true
      · rw [if_pos hskip] at h
        cases h
      rw [if_neg hskip] at h
      cases hfeature : Dict.get? env.byName name with
      | none =>
        rw [hfeature] at h
        cases h
        rw [EvalEnv.node, hfeature]
      | some feature =>
        simp only [hfeature] at h
        have hfresh : name ∉ visiting := fun hm => Nat.lt_irrefl _ (hv name hm).2
        rw [if_neg hfresh] at h
        refine @node_error env rank hk (env.core.resolve env.byName env.stamps env.calcTs fuel (visiting ++ [name]))
          (fun _ _ _ _ hs h => resolve_sound hs h) name feature hfeature ctx e hs (fun d hd ctx e hs herr => ?_) h
        have hlt : rank d.feature < rank name := hk.lt _ _ ⟨feature, hfeature, d, hd, rfl⟩
        obtain ⟨hn', hv'⟩ := visiting_push hn hv (hnames name feature hfeature) hlt
        refine resolve_error hnames hs hn' hv' ?_ herr
        rw [List.length_append, List.length_singleton]
        omega

/-! ## Statuses -/

/-- The status that a resolved feature has in the request. -/
def statusOf : Option FeatureComputation → NodeStatus
  | none => .skipped
  | some c => c.status

/-- Each status of the request is that of an evaluated feature, and what is cached has one. -/
structure Tracked (env : EvalEnv) (ctx : RequestContext) : Prop extends ContextSound env ctx where
  statuses : ∀ k s, Dict.get? ctx.statuses k = some s → ∃ r, env.Evaluates k r ∧ s = statusOf r
  cached : ∀ k c, Dict.get? ctx.features k = some c → Dict.get? ctx.statuses k = some c.status

/-- No status is lost or changed. -/
def KeepsStatuses (ctx ctx' : RequestContext) : Prop := ∀ k s, Dict.get? ctx.statuses k = some s → Dict.get? ctx'.statuses k = some s

omit hk in
theorem getSource_tracked {ctx ctx' : RequestContext} {src : String} {v : Value} (ht : Tracked env ctx)
    (h : ctx.getSource src = .ok (v, ctx')) : Tracked env ctx' ∧ ctx'.statuses = ctx.statuses := by
  have hs := (getSource_sound ht.toContextSound h).1
  unfold RequestContext.getSource at h
  cases hg : Dict.get? ctx.sources src with
  | some v' =>
    rw [hg] at h
    cases h
    exact ⟨ht, rfl⟩
  | none =>
    simp only [hg, bind_eq_ok] at h
    obtain ⟨v', -, h⟩ := h
    cases h
    exact ⟨⟨hs, ht.statuses, ht.cached⟩, rfl⟩

omit hk in
theorem loadSources_tracked : ∀ {srcs : List String} {acc : List (String × Value)} {ctx ctx' : RequestContext}
    {sources : List (String × Value)}, Tracked env ctx → loadSources acc srcs ctx = .ok (sources, ctx') →
    Tracked env ctx' ∧ ctx'.statuses = ctx.statuses
  | [], acc, ctx, ctx', sources, ht, h => by
    cases h
    exact ⟨ht, rfl⟩
  | src :: srcs, acc, ctx, ctx', sources, ht, h => by
    simp only [loadSources, bind_eq_ok] at h
    obtain ⟨⟨v, ctx₁⟩, hg, h⟩ := h
    obtain ⟨ht₁, hkeep⟩ := getSource_tracked ht hg
    obtain ⟨ht', hkeep'⟩ := loadSources_tracked ht₁ h
    exact ⟨ht', hkeep'.trans hkeep⟩

omit hk in
/-- A status set for an evaluated feature is the one it has, if it has one. -/
theorem keeps_set {ctx : RequestContext} {name : String} {r : Option FeatureComputation} (ht : Tracked env ctx)
    (he : env.Evaluates name r) (k : String) (s : NodeStatus) (h : Dict.get? ctx.statuses k = some s) :
    Dict.get? (Dict.set ctx.statuses name (statusOf r)) k = some s := by
  by_cases e : name = k
  · subst e
    obtain ⟨r', he', rfl⟩ := ht.statuses name s h
    rw [Dict.get?_set_self, he.det he']
  · rw [Dict.get?_set_ne _ _ e, h]

omit hk in
theorem tracked_set {ctx : RequestContext} {name : String} {r : Option FeatureComputation} (ht : Tracked env ctx)
    (he : env.Evaluates name r) (k : String) (s : NodeStatus)
    (h : Dict.get? (Dict.set ctx.statuses name (statusOf r)) k = some s) : ∃ r, env.Evaluates k r ∧ s = statusOf r := by
  rw [Dict.get?_set] at h
  by_cases e : name = k
  · rw [if_pos e] at h
    cases h
    exact ⟨r, e ▸ he, rfl⟩
  · rw [if_neg e] at h
    exact ht.statuses k s h

omit hk in
theorem Tracked.markSkipped {ctx : RequestContext} {name : String} (ht : Tracked env ctx) (he : env.Evaluates name none) :
    Tracked env (ctx.markSkipped name) where
  toContextSound := ht.toContextSound.markSkipped he
  statuses := tracked_set ht he
  cached k c h := keeps_set ht he k c.status (ht.cached k c h)

omit hk in
theorem Tracked.cacheFeature {ctx : RequestContext} {name : String} {c : FeatureComputation} (ht : Tracked env ctx)
    (he : env.Evaluates name (some c)) (hc : c.status ≠ .skipped) (hb : Dict.get? env.base name = none) :
    Tracked env (ctx.cacheFeature name c) where
  toContextSound := ht.toContextSound.cacheFeature he hc hb
  statuses := tracked_set ht he
  cached k c' h := by
    rw [RequestContext.cacheFeature, Dict.get?_set] at h
    by_cases e : name = k
    · subst e
      rw [if_pos rfl] at h
      cases h
      exact Dict.get?_set_self _ _ _
    · rw [if_neg e] at h
      exact keeps_set ht he k c'.status (ht.cached k c' h)

omit hk in
theorem resolveDeps_tracked
    {rec : String → RequestContext → Except PyErr (Option FeatureComputation × RequestContext)}
    (hr : ∀ k ctx r ctx', Tracked env ctx → rec k ctx = .ok (r, ctx') → Tracked env ctx' ∧ KeepsStatuses ctx ctx') :
    ∀ {deps : List FeatureDependency} {st : DepState} {ctx ctx' : RequestContext} {out : Option DepState},
    Tracked env ctx → resolveDeps rec env.calcTs deps st ctx = .ok (out, ctx') → Tracked env ctx' ∧ KeepsStatuses ctx ctx'
  | [], st, ctx, ctx', out, ht, h => by
    cases h
    exact ⟨ht, fun _ _ h => h⟩
  | dep :: deps, st, ctx, ctx', out, ht, h => by
    simp only [resolveDeps, bind_eq_ok] at h
    obtain ⟨⟨comp, ctx₁⟩, hc, o, -, h⟩ := h
    obtain ⟨ht₁, hkeep⟩ := hr _ _ _ _ ht hc
    cases o with
    | none =>
      cases h
      exact ⟨ht₁, hkeep⟩
    | some st₁ =>
      obtain ⟨ht', hkeep'⟩ := resolveDeps_tracked hr ht₁ h
      exact ⟨ht', fun k s hs => hkeep' k s (hkeep k s hs)⟩

omit hk in
/-- A resolved feature has its status from then on. -/
theorem resolve_tracked (hbase : env.base = []) : ∀ {fuel : Nat} {visiting : List String} {name : String}
    {ctx ctx' : RequestContext} {r : Option FeatureComputation}, Tracked env ctx →
    env.core.resolve env.byName env.stamps env.calcTs fuel visiting name ctx = .ok (r, ctx') →
    Tracked env ctx' ∧ KeepsStatuses ctx ctx' ∧ Dict.get? ctx'.statuses name = some (statusOf r)
  | 0, visiting, name, ctx, ctx', r, ht, h => by cases h
  | fuel + 1, visiting, name, ctx, ctx', r, ht, h => by
    have he := (resolve_sound ht.toContextSound h).2
    rw [ComputeCore.resolve] at h
    cases hf : Dict.get? ctx.features name with
    | some c =>
      rw [hf] at h
      cases h
      exact ⟨ht, fun _ _ h => h, ht.cached name c hf⟩
    | none =>
      simp only [hf] at h
      by_cases hskip : ctx.isSkipped name = true
      · rw [if_pos hskip] at h
        cases h
        exact ⟨ht, fun _ _ h => h, of_decide_eq_true hskip⟩
      rw [if_neg hskip] at h
      cases hfeature : Dict.get? env.byName name with
      | none =>
        rw [hfeature] at h
        cases h
      | some feature =>
        simp only [hfeature] at h
        by_cases hv : name ∈ visiting
        · rw [if_pos hv] at h
          cases h
        simp only [if_neg hv, bind_eq_ok] at h
        obtain ⟨⟨sources, ctx₁⟩, hl, ⟨out, ctx₂⟩, hd, h⟩ := h
        obtain ⟨ht₁, hsame⟩ := loadSources_tracked ht hl
        obtain ⟨ht₂, hkeep⟩ := resolveDeps_tracked (fun _ _ _ _ ht h =>
          have h' := resolve_tracked hbase ht h
          ⟨h'.1, h'.2.1⟩) ht₁ hd
        rw [KeepsStatuses, hsame] at hkeep
        cases out with
        | none =>
          cases h
          exact ⟨ht₂.markSkipped he, fun k s hs => keeps_set ht₂ he k s (hkeep k s hs), Dict.get?_set_self _ _ _⟩
        | some st =>
          simp only [bind_eq_ok] at h
          obtain ⟨c, hc, h⟩ := h
          cases h
          have hstatus : c.status ≠ .skipped := @EvalEnv.finish_status env _ _ _ _ hc
          have hb : Dict.get? env.base name = none := by rw [hbase, Dict.get?_nil]
          exact ⟨ht₂.cacheFeature he hstatus hb, fun k s hs => keeps_set ht₂ he k s (hkeep k s hs), Dict.get?_set_self _ _ _⟩

/-! ## The whole request -/

/-- A request that raises raises what one of the requested features does. -/
theorem computeLoop_error {known : List String} (hknown : ∀ n f, Dict.get? env.byName n = some f → n ∈ known)
    {fuel : Nat} (hfuel : known.length < fuel) {entityKey : EntityKey} : ∀ {names : List String}
    {results : List (String × FeatureResult)} {ctx : RequestContext} {e : PyErr}, ContextSound env ctx →
    env.core.computeLoop env.byName fuel entityKey env.stamps env.calcTs names results ctx = .error e →
    ∃ name ∈ names, env.value name = .error e
  | [], results, ctx, e, hs, h => by cases h
  | name :: names, results, ctx, e, hs, h => by
    unfold ComputeCore.computeLoop at h
    cases hr : env.core.resolve env.byName env.stamps env.calcTs fuel [] name ctx with
    | error e' =>
      rw [hr] at h
      cases h
      refine ⟨name, List.mem_cons_self, resolve_error hk hknown hs List.nodup_nil (fun v hv => absurd hv List.not_mem_nil) ?_ hr⟩
      rw [List.length_nil]
      omega
    | ok out =>
      obtain ⟨comp, ctx₁⟩ := out
      rw [hr, ok_bind] at h
      obtain ⟨hs₁, he⟩ := resolve_sound hs hr
      cases comp with
      | none =>
        obtain ⟨n, hn, herr⟩ := computeLoop_error hknown hfuel hs₁ h
        exact ⟨n, List.mem_cons_of_mem _ hn, herr⟩
      | some c =>
        obtain ⟨feature, _, _, hnode⟩ := he.node (by rw [hk.base, Dict.get?_nil])
        dsimp only at h
        rw [hnode.found] at h
        obtain ⟨n, hn, herr⟩ := computeLoop_error hknown hfuel hs₁ h
        exact ⟨n, List.mem_cons_of_mem _ hn, herr⟩

/-- What a request that returns says of the requested features. -/
theorem computeLoop_ok {fuel : Nat} {entityKey : EntityKey} : ∀ {names : List String}
    {results results' : List (String × FeatureResult)} {ctx ctx' : RequestContext}, Tracked env ctx →
    env.core.computeLoop env.byName fuel entityKey env.stamps env.calcTs names results ctx = .ok (results', ctx') →
    KeepsStatuses ctx ctx' ∧ (∀ k x, Dict.get? results k = some x → ∃ y, Dict.get? results' k = some y) ∧
      ∀ name ∈ names, ∃ r, env.value name = .ok r ∧ Dict.get? ctx'.statuses name = some (statusOf r) ∧
        ∀ c, r = some c → ∃ y, Dict.get? results' name = some y
  | [], results, results', ctx, ctx', ht, h => by
    cases h
    exact ⟨fun _ _ h => h, fun k x h => ⟨x, h⟩, fun n hn => absurd hn List.not_mem_nil⟩
  | name :: names, results, results', ctx, ctx', ht, h => by
    simp only [ComputeCore.computeLoop, bind_eq_ok] at h
    obtain ⟨⟨comp, ctx₁⟩, hr, h⟩ := h
    have he := (evaluates_iff hk).mp (resolve_sound ht.toContextSound hr).2
    obtain ⟨ht₁, hkeep, hstatus⟩ := resolve_tracked hk.base ht hr
    cases comp with
    | none =>
      obtain ⟨hkeep', hgrow, hall⟩ := computeLoop_ok ht₁ h
      refine ⟨fun k s hs => hkeep' k s (hkeep k s hs), hgrow, fun n hn => ?_⟩
      rcases List.mem_cons.mp hn with rfl | hn
      · exact ⟨none, he, hkeep' _ _ hstatus, fun c hc => absurd hc.symm (Option.some_ne_none c)⟩
      · exact hall n hn
    | some c =>
      cases hf : Dict.get? env.byName name with
      | none =>
        simp only [hf] at h
        cases h
      | some f =>
        simp only [hf] at h
        obtain ⟨hkeep', hgrow, hall⟩ := computeLoop_ok ht₁ h
        refine ⟨fun k s hs => hkeep' k s (hkeep k s hs), fun k x hx => ?_, fun n hn => ?_⟩
        · by_cases e : name = k
          · subst e
            exact hgrow name _ (Dict.get?_set_self _ _ _)
          · exact hgrow k x (by rw [Dict.get?_set_ne _ _ e, hx])
        · rcases List.mem_cons.mp hn with rfl | hn
          · exact ⟨some c, he, hkeep' _ _ hstatus, fun c' hc => hgrow _ _ (Dict.get?_set_self _ _ _)⟩
          · exact hall n hn

end

/-! ## A request of a validated view -/

section
variable {r : Registry} (hr : validateRegistry r = .ok ()) {view : FeatureViewDef} (hv : view ∈ r.featureViews)
include hr hv

theorem core_findView_valid {core : ComputeCore} (hc : core.registry = r) :
    core.findView view.name view.viewVersion = .ok view := by
  subst hc
  unfold ComputeCore.findView
  rw [find?_of_nodup (by simp) (fun v h => by simpa using h) (viewNames_nodup hr) hv]
  dsimp only
  rw [show raiseIf (view.viewVersion ≠ view.viewVersion) _ = .ok () from raiseIf_eq_ok.mpr (by simp), ok_bind]

theorem exists_rankedEnv (core : ComputeCore) (loader : String → Except PyErr Value) (stamps : SourceStamps) (calcTs : Int) :
    ∃ rank, RankedEnv (core.env view loader stamps calcTs) rank := by
  obtain ⟨rank, hrank⟩ := exists_ranking hr hv
  exact ⟨rank, hrank, rfl⟩

variable {core : ComputeCore} (hc : core.registry = r) {loader : String → Except PyErr Value} {stamps : SourceStamps}
  {calcTs : Int} {entityKey : EntityKey} {names : List String}
include hc

theorem compute_error {e : PyErr}
    (h : core.compute view.name view.viewVersion entityKey names ⟨loader, [], [], []⟩ stamps calcTs = .error e) :
    ∃ name ∈ names, (core.env view loader stamps calcTs).value name = .error e := by
  obtain ⟨rank, hk⟩ := exists_rankedEnv hr hv core loader stamps calcTs
  rw [ComputeCore.compute, core_findView_valid hr hv hc, ok_bind] at h
  have hknown : ∀ n f, Dict.get? (featuresByName view.features) n = some f → n ∈ view.features.map (·.name) := by
    intro n f hf
    obtain ⟨hm, rfl⟩ := featuresByName_name hf
    exact List.mem_map_of_mem hm
  refine computeLoop_error hk hknown ?_ (ContextSound.empty rfl) h
  rw [List.length_map]
  exact Nat.lt_succ_self _

theorem compute_ok {results : List (String × FeatureResult)} {ctx : RequestContext}
    (h : core.compute view.name view.viewVersion entityKey names ⟨loader, [], [], []⟩ stamps calcTs = .ok (results, ctx)) :
    ∀ name ∈ names, ∃ out, (core.env view loader stamps calcTs).value name = .ok out ∧
      Dict.get? ctx.statuses name = some (statusOf out) ∧
      (statusOf out ≠ .skipped ↔ ∃ result, Dict.get? results name = some result) := by
  obtain ⟨rank, hk⟩ := exists_rankedEnv hr hv core loader stamps calcTs
  rw [ComputeCore.compute, core_findView_valid hr hv hc, ok_bind] at h
  have hempty : Tracked (core.env view loader stamps calcTs) ⟨loader, [], [], []⟩ :=
    ⟨ContextSound.empty rfl, fun k s h => (by cases h), fun k c h => by cases h⟩
  intro name hm
  obtain ⟨out, hout, hstatus, hresult⟩ := (computeLoop_ok hk hempty h).2.2 name hm
  refine ⟨out, hout, hstatus, fun hne => ?_, ?_⟩
  · cases out with
    | none => exact absurd rfl hne
    | some c => exact hresult c rfl
  · rintro ⟨result, hget⟩
    rcases (computeLoop_sound hempty.toContextSound h).2 name result hget with hold | ⟨-, c, f, he, -, -⟩
    · cases hold
    · rw [(evaluates_iff hk).mp he] at hout
      cases hout
      obtain ⟨_, _, _, hnode⟩ := he.node rfl
      exact EvalEnv.finish_status hnode.finished

end

end ClearFeature
