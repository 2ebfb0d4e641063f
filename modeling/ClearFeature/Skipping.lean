import ClearFeature.Resolution

/-!
# Which features are skipped

Whether a feature is skipped depends on the view, the report times and the
evaluation time alone, not on payloads or user functions. So does its `data_ts`.
-/

namespace ClearFeature

/-- Report time `t`, none where there is no computation, makes the dependent feature skipped. -/
def FeatureDependency.skips (dep : FeatureDependency) (calcTs : Int) (t : Option Int) : Bool :=
  dep.required && match t, dep.maxInputAgeSeconds with
    | none, _ => true
    | some _, none => false
    | some t, some age => decide (calcTs - t > age * 1000000)

/-- The age of the dependency can be compared with its bound. -/
def FeatureDependency.Comparable (dep : FeatureDependency) (t : Option Int) : Prop :=
  t ≠ none → ∀ age, dep.maxInputAgeSeconds = some age → age ≤ maxTimedeltaSeconds

/-- The dependencies that are resolved: up to the first that makes the feature skipped. -/
def walked (calcTs : Int) (t : String → Option Int) : List FeatureDependency → List FeatureDependency
  | [] => []
  | dep :: deps => dep :: if dep.skips calcTs (t dep.feature) then [] else walked calcTs t deps

def FeatureDef.skipped (f : FeatureDef) (calcTs : Int) (t : String → Option Int) : Bool :=
  f.deps.any fun d => d.skips calcTs (t d.feature)

/-- The times of the inputs that are there. -/
def FeatureDef.inputTimes (f : FeatureDef) (stamps : SourceStamps) (t : String → Option Int) : List Int :=
  f.inputs.filterMap (fun src => (Dict.get? stamps src).map SourceStamp.reportTs) ++ f.deps.filterMap fun d => t d.feature

section
variable (byName : List (String × FeatureDef)) (stamps : SourceStamps) (calcTs : Int)

/-- The `data_ts` of a feature, none if it is skipped. -/
def nodeTs : Nat → String → Option Int
  | 0, _ => none
  | fuel + 1, name =>
    match Dict.get? byName name with
    | none => none
    | some f => if f.skipped calcTs (nodeTs fuel) then none else (f.inputTimes stamps (nodeTs fuel)).min?

def dataTsOf (name : String) : Option Int := nodeTs byName stamps calcTs (maxDependencyDepthCap + 1) name

end

theorem walked_mem {calcTs : Int} {t : String → Option Int} : ∀ {deps : List FeatureDependency} {d : FeatureDependency},
    d ∈ walked calcTs t deps → d ∈ deps
  | [], d, h => h
  | dep :: deps, d, h => by
    unfold walked at h
    rcases List.mem_cons.mp h with rfl | h
    · exact List.mem_cons_self
    · by_cases hs : dep.skips calcTs (t dep.feature) = true
      · rw [if_pos hs] at h
        cases h
      · rw [if_neg hs] at h
        exact List.mem_cons_of_mem _ (walked_mem h)

/-! ## The times of a ranked view -/

section
variable {byName : List (String × FeatureDef)} {rank : String → Nat} (hk : Ranking byName rank)
  {stamps : SourceStamps} {calcTs : Int}

theorem skipped_congr {f : FeatureDef} {t t' : String → Option Int} (h : ∀ d ∈ f.deps, t d.feature = t' d.feature) :
    f.skipped calcTs t = f.skipped calcTs t' := by
  unfold FeatureDef.skipped
  rw [Bool.eq_iff_iff, List.any_eq_true, List.any_eq_true]
  constructor
  · rintro ⟨d, hd, hs⟩
    exact ⟨d, hd, by rw [← h d hd, hs]⟩
  · rintro ⟨d, hd, hs⟩
    exact ⟨d, hd, by rw [h d hd, hs]⟩

theorem inputTimes_congr {f : FeatureDef} {t t' : String → Option Int} (h : ∀ d ∈ f.deps, t d.feature = t' d.feature) :
    f.inputTimes stamps t = f.inputTimes stamps t' := by
  unfold FeatureDef.inputTimes
  rw [List.filterMap_congr h]

include hk

theorem nodeTs_stable : ∀ {n m : Nat} {name : String}, rank name < n → rank name < m →
    nodeTs byName stamps calcTs n name = nodeTs byName stamps calcTs m name
  | 0, _, _, h, _ => absurd h (Nat.not_lt_zero _)
  | _, 0, _, _, h => absurd h (Nat.not_lt_zero _)
  | n + 1, m + 1, name, hn, hm => by
    unfold nodeTs
    cases hf : Dict.get? byName name with
    | none => rfl
    | some f =>
      have hdeps : ∀ d ∈ f.deps, nodeTs byName stamps calcTs n d.feature = nodeTs byName stamps calcTs m d.feature := by
        intro d hd
        have hlt : rank d.feature < rank name := hk.lt _ _ ⟨f, hf, d, hd, rfl⟩
        exact nodeTs_stable (by omega) (by omega)
      dsimp only
      rw [skipped_congr hdeps, inputTimes_congr hdeps]

theorem dataTsOf_eq {name : String} {f : FeatureDef} (hf : Dict.get? byName name = some f) :
    dataTsOf byName stamps calcTs name = if f.skipped calcTs (dataTsOf byName stamps calcTs) then none
      else (f.inputTimes stamps (dataTsOf byName stamps calcTs)).min? := by
  have hdeps : ∀ d ∈ f.deps, nodeTs byName stamps calcTs maxDependencyDepthCap d.feature =
      dataTsOf byName stamps calcTs d.feature := by
    intro d hd
    have hlt : rank d.feature < rank name := hk.lt _ _ ⟨f, hf, d, hd, rfl⟩
    have hcap := hk.le_cap name
    exact nodeTs_stable hk (by omega) (by omega)
  conv => lhs; unfold dataTsOf nodeTs
  rw [hf]
  dsimp only
  rw [skipped_congr hdeps, inputTimes_congr hdeps]

end

/-! ## Skips of an evaluation -/

theorem addDep_ok {dep : FeatureDependency} {calcTs : Int} {r : Option FeatureComputation} {st : DepState}
    {out : Option DepState} (h : addDep calcTs dep r st = .ok out) :
    dep.Comparable (r.map (·.dataTs)) ∧ (out = none ↔ dep.skips calcTs (r.map (·.dataTs)) = true) := by
  cases r with
  | none =>
    cases h
    refine ⟨fun h => absurd rfl h, ?_⟩
    cases hreq : dep.required <;> simp [FeatureDependency.skips, hreq]
  | some c =>
    obtain ⟨stale, hs, h⟩ := bind_eq_ok.mp h
    cases h
    unfold edgeIsStale at hs
    cases hage : dep.maxInputAgeSeconds with
    | none =>
      rw [hage] at hs
      cases hs
      refine ⟨fun _ age h => (nomatch hage.symm.trans h), ?_⟩
      simp [FeatureDependency.skips, hage]
    | some age =>
      rw [hage] at hs
      dsimp only at hs
      by_cases hbound : age > maxTimedeltaSeconds
      · rw [if_pos hbound] at hs
        cases hs
      rw [if_neg hbound] at hs
      cases hs
      refine ⟨fun _ age' h => ?_, ?_⟩
      · cases hage.symm.trans h
        omega
      · have hskips : dep.skips calcTs (some c.dataTs) =
            (decide (calcTs - c.dataTs > age * 1000000) && dep.required) := by
          unfold FeatureDependency.skips
          rw [hage, Bool.and_comm]
        rw [Option.map_some, hskips]
        cases decide (calcTs - c.dataTs > age * 1000000) && dep.required <;> simp

theorem addDep_error {dep : FeatureDependency} {calcTs : Int} {r : Option FeatureComputation} {st : DepState} {e : PyErr}
    (h : addDep calcTs dep r st = .error e) :
    ¬ dep.Comparable (r.map (·.dataTs)) ∧ e = .other "OverflowError" "timedelta out of range" := by
  cases r with
  | none => cases h
  | some c =>
    unfold addDep edgeIsStale at h
    cases hage : dep.maxInputAgeSeconds with
    | none =>
      rw [hage] at h
      cases h
    | some age =>
      rw [hage] at h
      dsimp only at h
      by_cases hbound : age > maxTimedeltaSeconds
      · rw [if_pos hbound] at h
        cases h
        exact ⟨fun hc => absurd (hc (by simp) age hage) (by omega), rfl⟩
      · rw [if_neg hbound] at h
        cases h

section
variable {rec : String → Except PyErr (Option FeatureComputation)} {t : String → Option Int} {calcTs : Int}

theorem evalDeps_ok : ∀ {deps : List FeatureDependency} {st : DepState} {out : Option DepState},
    (∀ d ∈ deps, ∀ r, rec d.feature = .ok r → t d.feature = r.map (·.dataTs)) →
    evalDeps rec calcTs deps st = .ok out →
    (out = none ↔ deps.any (fun d => d.skips calcTs (t d.feature)) = true) ∧
      ∀ d ∈ walked calcTs t deps, (∃ r, rec d.feature = .ok r) ∧ d.Comparable (t d.feature)
  | [], st, out, ht, h => by
    cases h
    simp [walked]
  | dep :: deps, st, out, ht, h => by
    simp only [evalDeps, bind_eq_ok] at h
    obtain ⟨comp, hc, o, ha, h⟩ := h
    have hdep := ht dep List.mem_cons_self comp hc
    obtain ⟨hcomp, hskip⟩ := addDep_ok ha
    rw [← hdep] at hcomp hskip
    unfold walked
    cases o with
    | none =>
      cases h
      have hs := hskip.mp rfl
      rw [List.any_cons, hs, Bool.true_or, if_pos rfl]
      refine ⟨by simp, fun d hd => ?_⟩
      rw [List.mem_singleton.mp hd]
      exact ⟨⟨comp, hc⟩, hcomp⟩
    | some st' =>
      have hs : dep.skips calcTs (t dep.feature) = false :=
        Bool.eq_false_iff.mpr fun hs => Option.some_ne_none st' (hskip.mpr hs)
      obtain ⟨hnone, hall⟩ := evalDeps_ok (fun d hd => ht d (List.mem_cons_of_mem _ hd)) h
      rw [List.any_cons, hs, Bool.false_or, if_neg Bool.false_ne_true]
      refine ⟨hnone, fun d hd => ?_⟩
      rcases List.mem_cons.mp hd with rfl | hd
      · exact ⟨⟨comp, hc⟩, hcomp⟩
      · exact hall d hd

theorem evalDeps_error : ∀ {deps : List FeatureDependency} {st : DepState} {e : PyErr},
    (∀ d ∈ deps, ∀ r, rec d.feature = .ok r → t d.feature = r.map (·.dataTs)) →
    evalDeps rec calcTs deps st = .error e →
    ∃ d ∈ walked calcTs t deps, rec d.feature = .error e ∨
      ¬ d.Comparable (t d.feature) ∧ e = .other "OverflowError" "timedelta out of range"
  | [], st, e, ht, h => by cases h
  | dep :: deps, st, e, ht, h => by
    unfold walked
    unfold evalDeps at h
    cases hc : rec dep.feature with
    | error e' =>
      rw [hc] at h
      cases h
      exact ⟨dep, List.mem_cons_self, .inl hc⟩
    | ok comp =>
      have hdep := ht dep List.mem_cons_self comp hc
      rw [hc, ok_bind] at h
      cases ha : addDep calcTs dep comp st with
      | error e' =>
        rw [ha] at h
        cases h
        refine ⟨dep, List.mem_cons_self, .inr ?_⟩
        rw [hdep]
        exact addDep_error ha
      | ok o =>
        rw [ha, ok_bind] at h
        cases o with
        | none => cases h
        | some st' =>
          have hs : ¬ dep.skips calcTs (t dep.feature) = true := fun hs => by
            rw [hdep] at hs
            cases (addDep_ok ha).2.mpr hs
          obtain ⟨d, hd, hcase⟩ := evalDeps_error (fun d hd => ht d (List.mem_cons_of_mem _ hd)) h
          rw [if_neg hs]
          exact ⟨d, List.mem_cons_of_mem _ hd, hcase⟩

end

namespace EvalEnv

/-- The `data_ts` of a feature of the request, none if it is skipped. -/
def time (env : EvalEnv) (name : String) : Option Int := dataTsOf env.byName env.stamps env.calcTs name

end EvalEnv

section
variable {env : EvalEnv} {rank : String → Nat} (hk : RankedEnv env rank)
include hk

theorem time_eq {name : String} {f : FeatureDef} (hf : Dict.get? env.byName name = some f) : env.time name =
    if f.skipped env.calcTs env.time then none else (f.inputTimes env.stamps env.time).min? :=
  dataTsOf_eq hk.toRanking hf

/-- The input times are those of the input rows. -/
theorem Node.mem_inputTimes {name : String} {c : FeatureComputation} {feature : FeatureDef} {sources : List (String × Value)}
    {st : DepState} {rows : List InputRow} (hn : EvalEnv.Node env name c feature sources st)
    (hr : EvalEnv.Rows env feature rows)
    (ht : ∀ d ∈ feature.deps, ∀ r, env.value d.feature = .ok r → env.time d.feature = r.map (·.dataTs)) {t : Int} :
    t ∈ feature.inputTimes env.stamps env.time ↔ ∃ row ∈ rows, row.dataTs = t := by
  unfold FeatureDef.inputTimes
  rw [List.mem_append, List.mem_filterMap, List.mem_filterMap]
  constructor
  · rintro (⟨src, hsrc, h⟩ | ⟨d, hd, h⟩)
    · obtain ⟨stamp, hstamp, hrow⟩ := hr.of_source src hsrc
      rw [hstamp] at h
      exact ⟨_, hrow, Option.some.inj h⟩
    · obtain ⟨r, he⟩ := hn.visited d hd
      rw [ht d hd r ((evaluates_iff hk).mp he)] at h
      cases r with
      | none => cases h
      | some cd =>
        obtain ⟨g, hrow⟩ := hr.of_dep d hd cd he
        exact ⟨_, hrow, Option.some.inj h⟩
  · rintro ⟨row, hrow, rfl⟩
    rcases hr.cases row hrow with ⟨src, hsrc, stamp, hstamp, rfl⟩ | ⟨d, hd, cd, g, he, rfl⟩
    · exact .inl ⟨src, hsrc, by rw [hstamp]; rfl⟩
    · exact .inr ⟨d, hd, ht d hd (some cd) ((evaluates_iff hk).mp he)⟩

theorem Node.min_times {name : String} {c : FeatureComputation} {feature : FeatureDef} {sources : List (String × Value)}
    {st : DepState} (hn : EvalEnv.Node env name c feature sources st)
    (ht : ∀ d ∈ feature.deps, ∀ r, env.value d.feature = .ok r → env.time d.feature = r.map (·.dataTs)) :
    (feature.inputTimes env.stamps env.time).min? = some c.dataTs := by
  obtain ⟨rows, hr, hs⟩ := hn.rows
  rw [List.min?_eq_some_iff]
  refine ⟨(Node.mem_inputTimes hk hn hr ht).mpr hs.data_mem, fun t h => ?_⟩
  obtain ⟨row, hrow, rfl⟩ := (Node.mem_inputTimes hk hn hr ht).mp h
  exact hs.data_le row hrow

/-- Evaluation skips the features that are skipped, and gives the others their times. -/
theorem value_time {name : String} {r : Option FeatureComputation} (h : env.value name = .ok r) :
    env.time name = r.map (·.dataTs) := by
  induction hn : rank name using Nat.strong_induction_on generalizing name r with
  | _ n ih =>
    subst hn
    have h' := h
    rw [value_eq hk, EvalEnv.node] at h'
    cases hf : Dict.get? env.byName name with
    | none =>
      rw [hf] at h'
      cases h'
    | some feature =>
      have ht : ∀ d ∈ feature.deps, ∀ r, env.value d.feature = .ok r → env.time d.feature = r.map (·.dataTs) :=
        fun d hd r hr => ih _ (hk.lt _ _ ⟨feature, hf, d, hd, rfl⟩) hr rfl
      simp only [hf, bind_eq_ok] at h'
      obtain ⟨sources, -, out, hd, h'⟩ := h'
      have hskip : out = none ↔ feature.skipped env.calcTs env.time = true := (evalDeps_ok ht hd).1
      rw [time_eq hk hf]
      cases out with
      | none =>
        cases h'
        rw [if_pos (hskip.mp rfl)]
        rfl
      | some st =>
        simp only [bind_eq_ok] at h'
        obtain ⟨c, hc, h'⟩ := h'
        cases h'
        obtain ⟨f', _, _, hnode⟩ := ((evaluates_iff hk).mpr h).node (by rw [hk.base, Dict.get?_nil])
        cases hf.symm.trans hnode.found
        rw [if_neg fun hs => Option.some_ne_none st (hskip.mpr hs)]
        exact Node.min_times hk hnode ht

end

end ClearFeature
