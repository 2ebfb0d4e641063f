import ClearFeature.Faults
import ClearFeature.Freshness
import ClearFeature.Planner

/-!
# What an accepted plan can compute

The planner checks the kind of an output, and of a dependency that it is not a
batch-only model. A dependency written from outside passes, and computing what
reads it raises.
-/

namespace ClearFeature

/-! ## The outputs -/

/-- A known feature of a kind and a lifecycle that can be computed. -/
def CanCompute (byName : List (String × FeatureDef)) (allowShadow : Bool) (name : String) : Prop :=
  ∃ f, Dict.get? byName name = some f ∧ f.kind = .udf ∧
    (f.lifecycle = .live ∨ f.lifecycle = .shadow ∧ allowShadow = true)

/-- The names asked for, one by one or in a group. -/
def Asked (view : FeatureViewDef) (requested groups : List String) (name : String) : Prop :=
  name ∈ requested ∨ ∃ group ∈ groups, ∃ members, Dict.get? view.featureGroups group = some members ∧ name ∈ members

section
variable {view : FeatureViewDef} {byName : List (String × FeatureDef)} {allowShadow : Bool}

theorem checkComputable_ok {f : FeatureDef} {u : Unit} (h : checkComputable view allowShadow f = .ok u) :
    f.kind = .udf ∧ (f.lifecycle = .live ∨ f.lifecycle = .shadow ∧ allowShadow = true) := by
  simp only [checkComputable, bind_eq_ok, raiseIf_eq_ok] at h
  obtain ⟨_, hscore, _, hmodel, _, -, _, hshadow, hother⟩ := h
  constructor
  · cases hkind : f.kind with
    | udf => rfl
    | modelScore => exact absurd hkind hscore
    | model => exact absurd hkind hmodel
  · by_cases hlive : f.lifecycle = .live
    · exact .inl hlive
    · have hsh : f.lifecycle = .shadow := by
        by_contra hne
        exact hother ⟨hlive, hne⟩
      refine .inr ⟨hsh, ?_⟩
      cases allowShadow with
      | true => rfl
      | false => exact absurd ⟨hsh, rfl⟩ hshadow

theorem mem_addName {ordered : List String} {name n : String} : n ∈ addName ordered name ↔ n ∈ ordered ∨ n = name := by
  unfold addName
  by_cases h : name ∈ ordered
  · rw [if_pos h]
    exact ⟨.inl, fun hn => hn.elim id fun e => e ▸ h⟩
  · rw [if_neg h, List.mem_append, List.mem_singleton]

/-- Adding names keeps the outputs computable and adds exactly these names. -/
def Adds (byName : List (String × FeatureDef)) (allowShadow : Bool) (ordered ordered' : List String)
    (P : String → Prop) : Prop :=
  (∀ n, n ∈ ordered' ↔ n ∈ ordered ∨ P n) ∧
    ((∀ n ∈ ordered, CanCompute byName allowShadow n) → ∀ n ∈ ordered', CanCompute byName allowShadow n)

theorem Adds.trans {o₁ o₂ o₃ : List String} {P Q : String → Prop} (h : Adds byName allowShadow o₁ o₂ P)
    (h' : Adds byName allowShadow o₂ o₃ Q) : Adds byName allowShadow o₁ o₃ fun n => P n ∨ Q n := by
  refine ⟨fun n => ?_, fun hn => h'.2 (h.2 hn)⟩
  rw [h'.1, h.1, or_assoc]

theorem Adds.congr {o₁ o₂ : List String} {P Q : String → Prop} (h : Adds byName allowShadow o₁ o₂ P)
    (hPQ : ∀ n, P n ↔ Q n) : Adds byName allowShadow o₁ o₂ Q :=
  ⟨fun n => by rw [h.1, hPQ], h.2⟩

theorem addFeature_adds {unknown name : String} {ordered ordered' : List String}
    (h : addFeature view byName allowShadow unknown ordered name = .ok ordered') :
    Adds byName allowShadow ordered ordered' (· = name) := by
  unfold addFeature at h
  cases hf : Dict.get? byName name with
  | none =>
    rw [hf] at h
    cases h
  | some f =>
    rw [hf] at h
    obtain ⟨u, hcheck, h⟩ := bind_eq_ok.mp h
    cases h
    refine ⟨fun n => mem_addName, fun hall n hn => ?_⟩
    rcases mem_addName.mp hn with hn | rfl
    · exact hall n hn
    · exact ⟨f, hf, checkComputable_ok hcheck⟩

theorem addRequested_adds : ∀ {names ordered ordered' : List String},
    addRequested view byName allowShadow ordered names = .ok ordered' → Adds byName allowShadow ordered ordered' (· ∈ names)
  | [], ordered, ordered', h => by
    cases h
    exact ⟨fun n => by simp, id⟩
  | name :: names, ordered, ordered', h => by
    obtain ⟨ordered₁, h₁, h₂⟩ := bind_eq_ok.mp h
    exact ((addFeature_adds h₁).trans (addRequested_adds h₂)).congr fun n => List.mem_cons.symm

theorem addMembers_adds {group : String} : ∀ {names ordered ordered' : List String},
    addMembers view byName allowShadow group ordered names = .ok ordered' →
    Adds byName allowShadow ordered ordered' (· ∈ names)
  | [], ordered, ordered', h => by
    cases h
    exact ⟨fun n => by simp, id⟩
  | name :: names, ordered, ordered', h => by
    obtain ⟨ordered₁, h₁, h₂⟩ := bind_eq_ok.mp h
    exact ((addFeature_adds h₁).trans (addMembers_adds h₂)).congr fun n => List.mem_cons.symm

theorem addGroups_adds : ∀ {groups ordered ordered' : List String} {expanded expanded' : List (String × List String)},
    addGroups view byName allowShadow ordered expanded groups = .ok (ordered', expanded') →
    Adds byName allowShadow ordered ordered' fun n =>
      ∃ group ∈ groups, ∃ members, Dict.get? view.featureGroups group = some members ∧ n ∈ members
  | [], ordered, ordered', expanded, expanded', h => by
    cases h
    exact ⟨fun n => by simp, id⟩
  | group :: groups, ordered, ordered', expanded, expanded', h => by
    unfold addGroups at h
    cases hg : Dict.get? view.featureGroups group with
    | none =>
      rw [hg] at h
      cases h
    | some members =>
      rw [hg] at h
      obtain ⟨ordered₁, h₁, h₂⟩ := bind_eq_ok.mp h
      refine ((addMembers_adds h₁).trans (addGroups_adds h₂)).congr fun n => ?_
      rw [List.exists_mem_cons_iff, hg]
      simp only [Option.some.injEq, exists_eq_left']

/-! ## The dependencies -/

/-- The features of `done` are known, and so are their dependencies, none of them a batch-only model. -/
def DoneOk (byName : List (String × FeatureDef)) (done : List String) : Prop :=
  ∀ n ∈ done, ∃ f, Dict.get? byName n = some f ∧ ∀ d ∈ f.deps, d.feature ∈ done ∧
    ∃ g, Dict.get? byName d.feature = some g ∧ g.kind ≠ .model

theorem visitDeps_done {rec : List String → String → Except PyErr (List String)} {name : String}
    (hrec : ∀ done n done', rec done n = .ok done' → DoneOk byName done → DoneOk byName done' ∧ n ∈ done' ∧ ∀ k ∈ done, k ∈ done') :
    ∀ {deps : List FeatureDependency} {done done' : List String},
    visitDeps view byName rec name done deps = .ok done' → DoneOk byName done →
    DoneOk byName done' ∧ (∀ k ∈ done, k ∈ done') ∧
      ∀ d ∈ deps, d.feature ∈ done' ∧ ∃ g, Dict.get? byName d.feature = some g ∧ g.kind ≠ .model
  | [], done, done', h, hd => by
    cases h
    exact ⟨hd, fun _ h => h, fun d hm => nomatch hm⟩
  | dep :: deps, done, done', h, hd => by
    unfold visitDeps at h
    cases hg : Dict.get? byName dep.feature with
    | none =>
      rw [hg] at h
      cases h
    | some target =>
      rw [hg] at h
      simp only [bind_eq_ok, raiseIf_eq_ok] at h
      obtain ⟨_, hkind, done₁, h₁, h₂⟩ := h
      obtain ⟨hd₁, hin, hkeep⟩ := hrec _ _ _ h₁ hd
      obtain ⟨hd', hkeep', hall⟩ := visitDeps_done hrec h₂ hd₁
      refine ⟨hd', fun k hk => hkeep' k (hkeep k hk), fun d hm => ?_⟩
      rcases List.mem_cons.mp hm with rfl | hm
      · exact ⟨hkeep' _ hin, target, hg, hkind⟩
      · exact hall d hm

theorem visit_done : ∀ {fuel : Nat} {visiting done done' : List String} {name : String},
    visit view byName fuel visiting done name = .ok done' → DoneOk byName done →
    DoneOk byName done' ∧ name ∈ done' ∧ ∀ k ∈ done, k ∈ done'
  | 0, visiting, done, done', name, h, hd => by cases h
  | fuel + 1, visiting, done, done', name, h, hd => by
    unfold visit at h
    by_cases hin : name ∈ done
    · rw [if_pos hin] at h
      cases h
      exact ⟨hd, hin, fun _ h => h⟩
    rw [if_neg hin] at h
    by_cases hvis : name ∈ visiting
    · rw [if_pos hvis] at h
      cases h
    rw [if_neg hvis] at h
    cases hf : Dict.get? byName name with
    | none =>
      rw [hf] at h
      cases h
    | some f =>
      rw [hf] at h
      obtain ⟨done₁, h₁, h⟩ := bind_eq_ok.mp h
      cases h
      obtain ⟨hd₁, hkeep, hall⟩ := visitDeps_done (fun _ _ _ h hd => visit_done h hd) h₁ hd
      refine ⟨fun n hn => ?_, List.mem_cons_self, fun k hk => List.mem_cons_of_mem _ (hkeep k hk)⟩
      rcases List.mem_cons.mp hn with rfl | hn
      · exact ⟨f, hf, fun d hd => ⟨List.mem_cons_of_mem _ (hall d hd).1, (hall d hd).2⟩⟩
      · obtain ⟨g, hg, hdeps⟩ := hd₁ n hn
        exact ⟨g, hg, fun d hd => ⟨List.mem_cons_of_mem _ (hdeps d hd).1, (hdeps d hd).2⟩⟩

theorem validateDeps_done : ∀ {names done : List String} {u : Unit}, validateDeps view byName done names = .ok u →
    DoneOk byName done → ∃ done', DoneOk byName done' ∧ (∀ k ∈ done, k ∈ done') ∧ ∀ n ∈ names, n ∈ done'
  | [], done, u, h, hd => ⟨done, hd, fun _ h => h, fun n hn => nomatch hn⟩
  | name :: names, done, u, h, hd => by
    obtain ⟨done₁, h₁, h₂⟩ := bind_eq_ok.mp h
    obtain ⟨hd₁, hin, hkeep⟩ := visit_done h₁ hd
    obtain ⟨done', hd', hkeep', hall⟩ := validateDeps_done h₂ hd₁
    refine ⟨done', hd', fun k hk => hkeep' k (hkeep k hk), fun n hn => ?_⟩
    rcases List.mem_cons.mp hn with rfl | hn
    · exact hkeep' _ hin
    · exact hall n hn

theorem DoneOk.closure {done : List String} (hd : DoneOk byName done) {n m : String} (h : InClosure byName n m)
    (hn : n ∈ done) : m ∈ done ∧ (m = n ∨ ∃ g, Dict.get? byName m = some g ∧ g.kind ≠ .model) := by
  induction h with
  | refl => exact ⟨hn, .inl rfl⟩
  | tail _ hneeds ih =>
    obtain ⟨f, hf, d, hdep, rfl⟩ := hneeds
    obtain ⟨f', hf', hall⟩ := hd _ ih.1
    cases hf.symm.trans hf'
    exact ⟨(hall d hdep).1, .inr (hall d hdep).2⟩

end

/-! ## A plan -/

section
variable {view : FeatureViewDef} {requested groups : List String} {allowShadow : Bool} {plan : FeaturePlan}
  (hp : planFeatures view requested groups allowShadow = .ok plan)
include hp

theorem plan_outputs : (∀ n, n ∈ plan.computeFeatures ↔ Asked view requested groups n) ∧
    (∀ n ∈ plan.computeFeatures, CanCompute (featuresByName view.features) allowShadow n) ∧
    ∃ done, DoneOk (featuresByName view.features) done ∧ ∀ n ∈ plan.computeFeatures, n ∈ done := by
  simp only [planFeatures, bind_eq_ok] at hp
  obtain ⟨first, hfirst, ⟨ordered, expanded⟩, hgroups, _, -, _, hdeps, h⟩ := hp
  cases h
  have hadds := (addRequested_adds hfirst).trans (addGroups_adds hgroups)
  obtain ⟨done, hdone, -, hall⟩ := validateDeps_done hdeps fun n hn => absurd hn List.not_mem_nil
  refine ⟨fun n => ?_, hadds.2 fun n hn => absurd hn List.not_mem_nil, done, hdone, hall⟩
  rw [hadds.1]
  simp [Asked]

theorem plan_closure {name m : String} (hn : name ∈ plan.computeFeatures)
    (h : InClosure (featuresByName view.features) name m) :
    ∃ f, Dict.get? (featuresByName view.features) m = some f ∧ f.kind ≠ .model := by
  obtain ⟨-, houtputs, done, hdone, hall⟩ := plan_outputs hp
  obtain ⟨-, rfl | hdep⟩ := hdone.closure h (hall name hn)
  · obtain ⟨f, hf, hkind, -⟩ := houtputs m hn
    refine ⟨f, hf, ?_⟩
    rw [hkind]
    decide
  · exact hdep

theorem plan_lifecycle {r : Registry} (hr : validateRegistry r = .ok ()) (hv : view ∈ r.featureViews) {name m : String}
    {f : FeatureDef} (hn : name ∈ plan.computeFeatures) (h : InClosure (featuresByName view.features) name m)
    (hf : Dict.get? (featuresByName view.features) m = some f) :
    f.lifecycle = .live ∨ f.lifecycle = .shadow ∧ allowShadow = true := by
  obtain ⟨g, hg, -, hlife⟩ := (plan_outputs hp).2.1 name hn
  rcases closure_lifecycle hr hv hg h hf (hlife.imp id And.left) with hlive | ⟨hshadow, hg'⟩
  · exact .inl hlive
  · refine .inr ⟨hshadow, ?_⟩
    rcases hlife with hlive | ⟨-, hallow⟩
    · exact nomatch hlive.symm.trans hg'
    · exact hallow

end

/-- The features asked for have a closure of computable features, and a computation that finds its sources fails only at a
udf feature that it reaches: the function is missing or raises, no input is left, or a bound is too large. -/
structure PlanComputable (r : Registry) (view : FeatureViewDef) (requested groups : List String) (allowShadow : Bool)
    (plan : FeaturePlan) : Prop where
  closure : ∀ name, Asked view requested groups name → ∀ m, InClosure (featuresByName view.features) name m →
    CanCompute (featuresByName view.features) allowShadow m
  faults : ∀ (core : ComputeCore), core.registry = r → ∀ entityKey loader stamps calcTs e,
    (∀ name ∈ plan.computeFeatures, ∀ m f, InClosure (featuresByName view.features) name m →
      Dict.get? (featuresByName view.features) m = some f → ∀ src ∈ f.inputs,
        (∃ stamp, Dict.get? stamps src = some stamp) ∧ ∃ v, loader src = .ok v) →
    core.compute view.name view.viewVersion entityKey plan.computeFeatures ⟨loader, [], [], []⟩ stamps calcTs = .error e →
    ∃ name ∈ plan.computeFeatures, ∃ m f, Reaches (core.env view loader stamps calcTs) name m ∧
      Dict.get? (featuresByName view.features) m = some f ∧ f.kind = .udf ∧ Fault (core.env view loader stamps calcTs) f e

/-! ## A score as an input -/

def scoreFeature : FeatureDef where
  name := "score"
  kind := .modelScore
  featureVersion := 1
  udf := ""
  dtype := "float"
  status := "live"
  lifecycle := .live
  ok := by decide

def limitFeature : FeatureDef where
  name := "limit"
  kind := .udf
  featureVersion := 1
  udf := "u.one"
  dtype := "int"
  status := "live"
  deps := [⟨{ feature := "score" }, by decide⟩]
  lifecycle := .live
  ok := by decide

def scoreView : FeatureViewDef where
  name := "risk"
  entity := "user"
  keyFields := ["user_id"]
  viewVersion := 1
  owner := "o"
  status := "live"
  features := [recentFeature, scoreFeature, limitFeature]
  ok := by decide
  groups_nodup := by exact List.nodup_nil

def scoreCore : ComputeCore := { freshCore with registry := userRegistry scoreView }

theorem score_valid : validateRegistry scoreCore.registry = .ok () := by decide +kernel

/-- For every accepted plan of a validated registry: it is computable exactly when no score lies in the closure of what is
asked for. -/
theorem plan_computable_iff {r : Registry} (hr : validateRegistry r = .ok ()) {view : FeatureViewDef}
    (hv : view ∈ r.featureViews) {requested groups : List String} {allowShadow : Bool} {plan : FeaturePlan}
    (hp : planFeatures view requested groups allowShadow = .ok plan) :
    PlanComputable r view requested groups allowShadow plan ↔
      ∀ name, Asked view requested groups name → ∀ m f, InClosure (featuresByName view.features) name m →
        Dict.get? (featuresByName view.features) m = some f → f.kind ≠ .modelScore := by
  have hasked := (plan_outputs hp).1
  constructor
  · intro h name hn m f hclosure hf
    obtain ⟨f', hf', hkind, -⟩ := h.closure name hn m hclosure
    cases hf.symm.trans hf'
    rw [hkind]
    decide
  · intro hscore
    have hclosed : ∀ name, Asked view requested groups name → ∀ m, InClosure (featuresByName view.features) name m →
        CanCompute (featuresByName view.features) allowShadow m := by
      intro name hn m hclosure
      have hout := (hasked name).mpr hn
      obtain ⟨f, hf, hmodel⟩ := plan_closure hp hout hclosure
      refine ⟨f, hf, ?_, plan_lifecycle hp hr hv hout hclosure hf⟩
      cases hkind : f.kind with
      | udf => rfl
      | modelScore => exact absurd hkind (hscore name hn m f hclosure hf)
      | model => exact absurd hkind hmodel
    refine ⟨hclosed, fun core hc entityKey loader stamps calcTs e hsrc h => ?_⟩
    obtain ⟨name, hout, herr⟩ := compute_error hr hv hc h
    obtain ⟨rank, hk⟩ := exists_rankedEnv hr hv core loader stamps calcTs
    have hn := (hasked name).mp hout
    obtain ⟨m, f, hreach, hf, hfault⟩ := value_fault hk (fun m hclosure => by
      obtain ⟨f, hf, -⟩ := hclosed name hn m hclosure
      exact ⟨f, hf, hsrc name hout m f hclosure hf⟩) herr
    obtain ⟨f', hf', hkind, -⟩ := hclosed name hn m hreach.inClosure
    cases hf.symm.trans hf'
    exact ⟨name, hout, m, f, hreach, hf, hkind, hfault⟩

theorem plan_computable_iff_recent : ∃ plan, planFeatures scoreView ["recent"] [] = .ok plan ∧
    (PlanComputable scoreCore.registry scoreView ["recent"] [] false plan ↔
      ∀ name, Asked scoreView ["recent"] [] name → ∀ m f, InClosure (featuresByName scoreView.features) name m →
        Dict.get? (featuresByName scoreView.features) m = some f → f.kind ≠ .modelScore) :=
  ⟨_, eq_ok_okGet (planFeatures scoreView ["recent"] []) (by decide +kernel),
    plan_computable_iff score_valid (List.mem_singleton.mpr rfl) (eq_ok_okGet (planFeatures scoreView ["recent"] []) _)⟩

/-- The plan for the limit is accepted, and computing it raises for want of a function of the score. -/
theorem limit_planned : validateRegistry scoreCore.registry = .ok () ∧ scoreView ∈ scoreCore.registry.featureViews ∧
    (∃ plan, planFeatures scoreView ["limit"] [] = .ok plan ∧
      ¬ PlanComputable scoreCore.registry scoreView ["limit"] [] false plan) ∧
    errorOf (scoreCore.compute "risk" 1 userKey ["limit"] ⟨fun _ => .ok (.int 0), [], [], []⟩
      [("b", stampAt 8 "hb8" (by decide))] 20) = some (.valueError "unknown udf id ''") := by
  refine ⟨score_valid, List.mem_singleton.mpr rfl,
    ⟨_, eq_ok_okGet (planFeatures scoreView ["limit"] []) (by decide +kernel), fun h => ?_⟩, by decide +kernel⟩
  have hneeds : Needs (featuresByName scoreView.features) "limit" "score" :=
    ⟨limitFeature, by decide +kernel, _, List.mem_singleton.mpr rfl, rfl⟩
  obtain ⟨f, hf, hkind, -⟩ := h.closure "limit" (.inl (List.mem_singleton.mpr rfl)) "score" (Relation.ReflTransGen.single hneeds)
  cases hf.symm.trans (show Dict.get? (featuresByName scoreView.features) "score" = some scoreFeature from by decide +kernel)
  cases hkind

end ClearFeature
