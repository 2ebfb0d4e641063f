import ClearFeature.Skipping

/-!
# Why a request raises

When every source of the closure is stamped and loads, an error of the request
has its place: a feature that the recursion reaches, and what is wrong there.
-/

namespace ClearFeature

/-- A value that the function of a feature can return on the payloads of the request, whichever optional dependencies are
missing. -/
inductive MayReturn (env : EvalEnv) : String → Value → Prop where
  | call {name : String} {f : FeatureDef} {udf : Udf} {sources deps : List (String × Value)} {v : Value} :
    Dict.get? env.byName name = some f → Dict.get? env.core.udfs f.udf = some udf →
    evalSources env.loader [] f.inputs = .ok sources → (∀ k w, Dict.get? deps k = some w → ∃ d ∈ f.deps, d.feature = k) →
    (∀ k w, Dict.get? deps k = some w → MayReturn env k w) →
    (∀ d ∈ f.deps, d.required = true → ∃ w, Dict.get? deps d.feature = some w) →
    udf sources deps = .ok v → MayReturn env name v

/-- A call that the function of `f` has to accept: optional dependencies may be missing. -/
structure LegalCall (env : EvalEnv) (f : FeatureDef) (sources deps : List (String × Value)) : Prop where
  loaded : evalSources env.loader [] f.inputs = .ok sources
  declared : ∀ k w, Dict.get? deps k = some w → ∃ d ∈ f.deps, d.feature = k
  returned : ∀ k w, Dict.get? deps k = some w → MayReturn env k w
  present : ∀ d ∈ f.deps, d.required = true → ∃ w, Dict.get? deps d.feature = some w

/-- What a feature has in hand when its function is called. -/
structure Gathered (env : EvalEnv) (f : FeatureDef) (sources : List (String × Value)) (st : DepState) : Prop where
  loaded : evalSources env.loader [] f.inputs = .ok sources
  comps : ∀ k c, Dict.get? st.1 k = some c ↔ (∃ d ∈ f.deps, d.feature = k) ∧ env.value k = .ok (some c)
  visited : ∀ d ∈ f.deps, ∃ r, env.value d.feature = .ok r
  nodup : (Dict.keys st.1).Nodup
  unskipped : f.skipped env.calcTs env.time = false

/-- What can raise at a feature whose sources are there. -/
inductive Fault (env : EvalEnv) (f : FeatureDef) : PyErr → Prop where
  | bound {d : FeatureDependency} : d ∈ walked env.calcTs env.time f.deps → ¬ d.Comparable (env.time d.feature) →
    Fault env f (.other "OverflowError" "timedelta out of range")
  | unregistered : Dict.get? env.core.udfs f.udf = none → Fault env f (.valueError s!"unknown udf id {reprStr f.udf}")
  | raised {udf : Udf} {sources : List (String × Value)} {st : DepState} {e : PyErr} :
    Dict.get? env.core.udfs f.udf = some udf → Gathered env f sources st →
    udf sources (st.1.map fun c => (c.1, c.2.value)) = .error e → Fault env f e
  | empty : f.skipped env.calcTs env.time = false → f.inputTimes env.stamps env.time = [] →
    Fault env f (.valueError "min() iterable argument is empty")
  | range {t : Int} : f.skipped env.calcTs env.time = false → t ∈ f.inputTimes env.stamps env.time → ¬ InUtcYears t →
    Fault env f (.other "OverflowError" "date value out of range")

/-- The recursion goes on from `n` to its dependency `m`. -/
def Resolves (env : EvalEnv) (n m : String) : Prop :=
  ∃ f, Dict.get? env.byName n = some f ∧ ∃ d ∈ walked env.calcTs env.time f.deps, d.feature = m

def Reaches (env : EvalEnv) : String → String → Prop := Relation.ReflTransGen (Resolves env)

/-- The closure of `name` is known, and each source it reads has a stamp and a payload. -/
def Supplied (env : EvalEnv) (name : String) : Prop :=
  ∀ m, InClosure env.byName name m → ∃ f, Dict.get? env.byName m = some f ∧ ∀ src ∈ f.inputs,
    (∃ stamp, Dict.get? env.stamps src = some stamp) ∧ ∃ v, env.loader src = .ok v

theorem Resolves.needs {env : EvalEnv} {n m : String} (h : Resolves env n m) : Needs env.byName n m := by
  obtain ⟨f, hf, d, hd, rfl⟩ := h
  exact ⟨f, hf, d, walked_mem hd, rfl⟩

theorem Reaches.inClosure {env : EvalEnv} {n m : String} (h : Reaches env n m) : InClosure env.byName n m :=
  Relation.ReflTransGen.mono (fun _ _ h => Resolves.needs h) n m h

theorem Supplied.dep {env : EvalEnv} {n m : String} (hs : Supplied env n) (h : Needs env.byName n m) : Supplied env m :=
  fun k hk => hs k (Relation.ReflTransGen.head h hk)

/-! ## One call -/

section
variable {env : EvalEnv} {rank : String → Nat} (hk : RankedEnv env rank)
include hk

theorem gathered_of_deps {f : FeatureDef} {sources : List (String × Value)} {st : DepState}
    (hl : evalSources env.loader [] f.inputs = .ok sources)
    (hd : evalDeps env.value env.calcTs f.deps ([], false) = .ok (some st)) : Gathered env f sources st where
  loaded := hl
  comps k c := by
    rw [evalDeps_comps hd (fun k c h => nomatch h) k c]
    exact ⟨fun h => h.elim (fun h => nomatch h) id, .inr⟩
  visited := evalDeps_visited hd
  nodup := evalDeps_nodup hd List.nodup_nil
  unskipped := Bool.eq_false_iff.mpr fun h =>
    nomatch (evalDeps_ok (t := env.time) (fun d _ r hr => value_time hk hr) hd).1.mpr h

theorem gathered_of_value {name : String} {c : FeatureComputation} (h : env.value name = .ok (some c)) :
    ∃ f sources st, Dict.get? env.byName name = some f ∧ Gathered env f sources st ∧ env.finish f sources st = .ok c := by
  rw [value_eq hk, EvalEnv.node] at h
  cases hf : Dict.get? env.byName name with
  | none =>
    rw [hf] at h
    cases h
  | some f =>
    simp only [hf, bind_eq_ok] at h
    obtain ⟨sources, hl, out, hd, h⟩ := h
    cases out with
    | none => cases h
    | some st =>
      simp only [bind_eq_ok] at h
      obtain ⟨c', hc, h⟩ := h
      cases h
      exact ⟨f, sources, st, rfl, gathered_of_deps hk hl hd, hc⟩

omit hk in
theorem Gathered.deps_get? {f : FeatureDef} {sources : List (String × Value)} {st : DepState} {k : String} {w : Value}
    (hg : Gathered env f sources st) (h : Dict.get? (st.1.map fun c => (c.1, c.2.value)) k = some w) :
    ∃ c, (∃ d ∈ f.deps, d.feature = k) ∧ env.value k = .ok (some c) ∧ c.value = w := by
  rw [Dict.get?_map] at h
  obtain ⟨c, hc, rfl⟩ := Option.map_eq_some_iff.mp h
  exact ⟨c, ((hg.comps k c).mp hc).1, ((hg.comps k c).mp hc).2, rfl⟩

theorem Gathered.present {f : FeatureDef} {sources : List (String × Value)} {st : DepState}
    (hg : Gathered env f sources st) : ∀ d ∈ f.deps, d.required = true →
    ∃ w, Dict.get? (st.1.map fun c => (c.1, c.2.value)) d.feature = some w := by
  intro d hd hreq
  obtain ⟨r, hr⟩ := hg.visited d hd
  have hs : d.skips env.calcTs (env.time d.feature) = false :=
    Bool.eq_false_iff.mpr (List.any_eq_false.mp hg.unskipped d hd)
  cases r with
  | none =>
    rw [value_time hk hr] at hs
    simp [FeatureDependency.skips, hreq] at hs
  | some c => exact ⟨c.value, by rw [Dict.get?_map, (hg.comps _ c).mpr ⟨⟨d, hd, rfl⟩, hr⟩]; rfl⟩

omit hk in
theorem finish_value {f : FeatureDef} {sources : List (String × Value)} {st : DepState} {c : FeatureComputation}
    (h : env.finish f sources st = .ok c) : ∃ udf, Dict.get? env.core.udfs f.udf = some udf ∧
      udf sources (st.1.map fun c => (c.1, c.2.value)) = .ok c.value := by
  simp only [EvalEnv.finish, finishNode, bind_eq_ok] at h
  obtain ⟨srcRows, -, comRows, -, udf, hudf, v, hv, h⟩ := h
  unfold ComputeCore.getUdf at hudf
  cases hu : Dict.get? env.core.udfs f.udf with
  | none =>
    rw [hu] at hudf
    cases hudf
  | some udf' =>
    rw [hu] at hudf
    cases hudf
    refine ⟨udf, rfl, ?_⟩
    rw [hv]
    obtain ⟨-, row, rest, -, rfl⟩ := computation_ok h
    rfl

theorem mayReturn_value {name : String} {c : FeatureComputation} (h : env.value name = .ok (some c)) :
    MayReturn env name c.value := by
  induction hn : rank name using Nat.strong_induction_on generalizing name c with
  | _ n ih =>
    subst hn
    obtain ⟨f, sources, st, hf, hg, hfin⟩ := gathered_of_value hk h
    obtain ⟨udf, hudf, hv⟩ := finish_value hfin
    refine .call hf hudf hg.loaded (fun k w hw => ?_) (fun k w hw => ?_) (hg.present hk) hv
    · obtain ⟨_, hd, -⟩ := hg.deps_get? hw
      exact hd
    · obtain ⟨c', ⟨d, hd, rfl⟩, hc', rfl⟩ := hg.deps_get? hw
      exact ih _ (hk.lt _ _ ⟨f, hf, d, hd, rfl⟩) hc' rfl

theorem Gathered.legal {f : FeatureDef} {sources : List (String × Value)} {st : DepState}
    (hg : Gathered env f sources st) : LegalCall env f sources (st.1.map fun c => (c.1, c.2.value)) where
  loaded := hg.loaded
  declared k w h := by
    obtain ⟨_, hd, -⟩ := hg.deps_get? h
    exact hd
  returned k w h := by
    obtain ⟨c, -, hc, rfl⟩ := hg.deps_get? h
    exact mayReturn_value hk hc
  present := hg.present hk

/-! ## Where a request raises -/

omit hk in
theorem evalSources_ok {loader : String → Except PyErr Value} : ∀ {srcs : List String} {acc : List (String × Value)},
    (∀ src ∈ srcs, ∃ v, loader src = .ok v) → ∃ sources, evalSources loader acc srcs = .ok sources
  | [], acc, _ => ⟨acc, rfl⟩
  | src :: srcs, acc, h => by
    obtain ⟨v, hv⟩ := h src List.mem_cons_self
    obtain ⟨sources, hs⟩ := @evalSources_ok loader srcs (Dict.set acc src v) fun s hm => h s (List.mem_cons_of_mem _ hm)
    exact ⟨sources, bind_eq_ok.mpr ⟨v, hv, hs⟩⟩

omit hk in
theorem sourceRows_ok {name : String} {stamps : SourceStamps} : ∀ {srcs : List String},
    (∀ src ∈ srcs, ∃ stamp, Dict.get? stamps src = some stamp) → ∃ rows, sourceRows name stamps srcs = .ok rows
  | [], _ => ⟨[], rfl⟩
  | src :: srcs, h => by
    obtain ⟨stamp, hstamp⟩ := h src List.mem_cons_self
    obtain ⟨rows, hrows⟩ := @sourceRows_ok name stamps srcs fun s hm => h s (List.mem_cons_of_mem _ hm)
    exact ⟨stampRow src stamp :: rows, by rw [sourceRows, hstamp]; exact bind_eq_ok.mpr ⟨rows, hrows, rfl⟩⟩

omit hk in
theorem depRows_ok {byName : List (String × FeatureDef)} : ∀ {comps : List (String × FeatureComputation)},
    (∀ k c, (k, c) ∈ comps → ∃ f, Dict.get? byName k = some f) → ∃ rows, depRows byName comps = .ok rows
  | [], _ => ⟨[], rfl⟩
  | (k, c) :: comps, h => by
    obtain ⟨f, hf⟩ := h k c List.mem_cons_self
    obtain ⟨rows, hrows⟩ := @depRows_ok byName comps fun k c hm => h k c (List.mem_cons_of_mem _ hm)
    exact ⟨depRow f c :: rows, by rw [depRows, hf]; exact bind_eq_ok.mpr ⟨rows, hrows, rfl⟩⟩

theorem value_known {name : String} {r : Option FeatureComputation} (h : env.value name = .ok r) :
    ∃ f, Dict.get? env.byName name = some f := by
  rw [value_eq hk, EvalEnv.node] at h
  cases hf : Dict.get? env.byName name with
  | none =>
    rw [hf] at h
    cases h
  | some f => exact ⟨f, rfl⟩

/-- No input has a time exactly where there is no input row. -/
theorem Gathered.no_times {f : FeatureDef} {sources : List (String × Value)} {st : DepState}
    (hg : Gathered env f sources st) (hinputs : f.inputs = []) (hst : st.1 = []) : f.inputTimes env.stamps env.time = [] := by
  have hdeps : ∀ d ∈ f.deps, env.time d.feature = none := by
    intro d hd
    obtain ⟨r, hr⟩ := hg.visited d hd
    rw [value_time hk hr]
    cases r with
    | none => rfl
    | some c =>
      have hget := (hg.comps d.feature c).mpr ⟨⟨d, hd, rfl⟩, hr⟩
      rw [hst] at hget
      cases hget
  rw [FeatureDef.inputTimes, hinputs, List.filterMap_nil, List.nil_append, List.filterMap_eq_nil_iff]
  exact hdeps

/-- The time of an input row is an input time. -/
theorem Gathered.row_time {f : FeatureDef} {sources : List (String × Value)} {st : DepState} (hg : Gathered env f sources st)
    {srcRows comRows : List InputRow} (hsrc : sourceRows f.name env.stamps f.inputs = .ok srcRows)
    (hcom : depRows env.byName st.1 = .ok comRows) {row : InputRow} (hm : row ∈ srcRows ++ comRows) :
    row.dataTs ∈ f.inputTimes env.stamps env.time := by
  unfold FeatureDef.inputTimes
  rcases List.mem_append.mp hm with hm | hm
  · obtain ⟨src, hin, stamp, hstamp, rfl⟩ := sourceRows_mem hsrc row hm
    exact List.mem_append_left _ (List.mem_filterMap.mpr ⟨src, hin, by rw [hstamp]; rfl⟩)
  · obtain ⟨k, c, g, hin, -, rfl⟩ := depRows_mem hcom row hm
    obtain ⟨⟨d, hd, rfl⟩, hc⟩ := (hg.comps k c).mp (Dict.get?_of_mem hg.nodup hin)
    exact List.mem_append_right _ (List.mem_filterMap.mpr ⟨d, hd, value_time hk hc⟩)

theorem finish_fault {f : FeatureDef} {sources : List (String × Value)} {st : DepState} {e : PyErr}
    (hg : Gathered env f sources st) (hstamps : ∀ src ∈ f.inputs, ∃ stamp, Dict.get? env.stamps src = some stamp)
    (h : env.finish f sources st = .error e) : Fault env f e := by
  obtain ⟨srcRows, hsrc⟩ := @sourceRows_ok f.name env.stamps f.inputs hstamps
  obtain ⟨comRows, hcom⟩ := @depRows_ok env.byName st.1 fun k c hm =>
    value_known hk ((hg.comps k c).mp (Dict.get?_of_mem hg.nodup hm)).2
  rw [EvalEnv.finish, finishNode, hsrc, ok_bind, hcom, ok_bind, ComputeCore.getUdf] at h
  cases hudf : Dict.get? env.core.udfs f.udf with
  | none =>
    rw [hudf] at h
    cases h
    exact .unregistered hudf
  | some udf =>
    rw [hudf] at h
    dsimp only at h
    rw [ok_bind] at h
    cases hv : udf sources (st.1.map fun c => (c.1, c.2.value)) with
    | error e' =>
      rw [hv] at h
      cases h
      exact .raised hudf hg hv
    | ok v =>
      rw [hv, ok_bind] at h
      cases hrows : srcRows ++ comRows with
      | cons row rows =>
        rw [hrows] at h
        simp only [computation] at h
        split at h
        · rename_i hout
          obtain ⟨r, hm, hr⟩ := hout
          cases h
          exact .range hg.unskipped (hg.row_time hk hsrc hcom (hrows ▸ hm)) hr
        · cases h
      | nil =>
        rw [hrows] at h
        cases h
        obtain ⟨hs, hc⟩ := List.append_eq_nil_iff.mp hrows
        refine .empty hg.unskipped (hg.no_times hk ?_ ?_)
        · cases hin : f.inputs with
          | nil => rfl
          | cons src srcs =>
            rw [hin] at hsrc
            obtain ⟨_, _, hm⟩ := sourceRows_stamp hsrc src List.mem_cons_self
            rw [hs] at hm
            cases hm
        · cases hst : st.1 with
          | nil => rfl
          | cons kc comps =>
            rw [hst] at hcom
            obtain ⟨_, _, hm⟩ := depRows_comp hcom kc.1 kc.2 List.mem_cons_self
            rw [hc] at hm
            cases hm

/-- An error comes from a fault of a feature that is reached. -/
theorem value_fault {name : String} {e : PyErr} (hs : Supplied env name) (h : env.value name = .error e) :
    ∃ m f, Reaches env name m ∧ Dict.get? env.byName m = some f ∧ Fault env f e := by
  induction hn : rank name using Nat.strong_induction_on generalizing name e with
  | _ n ih =>
    subst hn
    obtain ⟨f, hf, hsrcs⟩ := hs name Relation.ReflTransGen.refl
    obtain ⟨sources, hl⟩ := @evalSources_ok env.loader f.inputs [] fun src hm => (hsrcs src hm).2
    rw [value_eq hk, EvalEnv.node, hf] at h
    dsimp only at h
    rw [hl, ok_bind] at h
    cases hd : evalDeps env.value env.calcTs f.deps ([], false) with
    | error e' =>
      rw [hd] at h
      cases h
      obtain ⟨d, hwalked, herr | ⟨hbound, rfl⟩⟩ := evalDeps_error (t := env.time) (fun d _ r hr => value_time hk hr) hd
      · have hres : Resolves env name d.feature := ⟨f, hf, d, hwalked, rfl⟩
        obtain ⟨m, g, hreach, hg, hfault⟩ := ih _ (hk.lt _ _ hres.needs) (hs.dep hres.needs) herr rfl
        exact ⟨m, g, Relation.ReflTransGen.head hres hreach, hg, hfault⟩
      · exact ⟨name, f, Relation.ReflTransGen.refl, hf, .bound hwalked hbound⟩
    | ok out =>
      rw [hd, ok_bind] at h
      cases out with
      | none => cases h
      | some st =>
        dsimp only at h
        cases hc : env.finish f sources st with
        | ok c =>
          rw [hc] at h
          cases h
        | error e' =>
          rw [hc] at h
          cases h
          exact ⟨name, f, Relation.ReflTransGen.refl, hf,
            finish_fault hk (gathered_of_deps hk hl hd) (fun src hm => (hsrcs src hm).1) hc⟩

end

def errorOf {α : Type} : Except PyErr α → Option PyErr
  | .error e => some e
  | .ok _ => none

end ClearFeature
