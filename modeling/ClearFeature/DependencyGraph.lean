import Mathlib.Logic.Relation
import ClearFeature.Validator

/-!
# The dependency graph of a validated view

The memo of the depth computation ranks the features: a dependency has a
smaller depth. So no feature depends on itself, however far apart, and no chain
of dependencies is longer than the cap.
-/

namespace ClearFeature

theorem featuresByName_mem {fs : List FeatureDef} (hn : (fs.map (·.name)).Nodup) {f : FeatureDef} (hf : f ∈ fs) :
    Dict.get? (featuresByName fs) f.name = some f := by
  have hfold : ∀ (fs : List FeatureDef) (d : List (String × FeatureDef)), (fs.map (·.name)).Nodup → f ∈ fs →
      Dict.get? (fs.foldl (fun d f => Dict.set d f.name f) d) f.name = some f := by
    intro fs
    induction fs with
    | nil => exact fun d _ hf => nomatch hf
    | cons g fs ih =>
      intro d hn hf
      rw [List.map_cons, List.nodup_cons] at hn
      rw [List.foldl_cons]
      rcases List.mem_cons.mp hf with rfl | hf
      · have hkeep : ∀ (fs : List FeatureDef) (d : List (String × FeatureDef)), f.name ∉ fs.map (·.name) →
            Dict.get? (fs.foldl (fun d f => Dict.set d f.name f) d) f.name = Dict.get? d f.name := by
          intro fs
          induction fs with
          | nil => exact fun d _ => rfl
          | cons g fs ih =>
            intro d h
            simp only [List.map_cons, List.mem_cons, not_or] at h
            rw [List.foldl_cons, ih _ h.2, Dict.get?_set_ne _ _ fun e => h.1 e.symm]
        rw [hkeep fs _ hn.1, Dict.get?_set_self]
      · exact ih _ hn.2 hf
  exact hfold fs [] hn hf

/-! ## Ranks -/

/-- `m` is a direct dependency of `n`. -/
def Needs (byName : List (String × FeatureDef)) (n m : String) : Prop :=
  ∃ f, Dict.get? byName n = some f ∧ ∃ d ∈ f.deps, d.feature = m

/-- `m` is `n` or one of its transitive dependencies. -/
def InClosure (byName : List (String × FeatureDef)) : String → String → Prop := Relation.ReflTransGen (Needs byName)

/-- No rank exceeds the largest cap, and a dependency ranks below what depends on it. -/
structure Ranking (byName : List (String × FeatureDef)) (rank : String → Nat) : Prop where
  le_cap : ∀ n, rank n ≤ maxDependencyDepthCap
  lt : ∀ n m, Needs byName n m → rank m < rank n

/-- Each entry of a memo is the depth of a feature whose dependencies have entries below it. -/
def Ranked (byName : List (String × FeatureDef)) (cap : Nat) (memo : List (String × Nat)) : Prop :=
  ∀ n depth, Dict.get? memo n = some depth → depth ≤ cap ∧
    ∃ f, Dict.get? byName n = some f ∧ ∀ d ∈ f.deps, ∃ below, Dict.get? memo d.feature = some below ∧ below < depth

/-- A memo goes on to be one with more entries, none of them for a name in `avoid`. -/
structure Extends (avoid : List String) (memo memo' : List (String × Nat)) : Prop where
  kept : ∀ n depth, Dict.get? memo n = some depth → Dict.get? memo' n = some depth
  added : ∀ n, Dict.get? memo n = none → n ∈ avoid → Dict.get? memo' n = none

theorem Extends.refl (avoid : List String) (memo : List (String × Nat)) : Extends avoid memo memo :=
  ⟨fun _ _ h => h, fun _ h _ => h⟩

theorem Extends.trans {avoid : List String} {m₁ m₂ m₃ : List (String × Nat)} (h : Extends avoid m₁ m₂)
    (h' : Extends avoid m₂ m₃) : Extends avoid m₁ m₃ :=
  ⟨fun n depth hn => h'.kept n depth (h.kept n depth hn), fun n hn ha => h'.added n (h.added n hn ha) ha⟩

section
variable {view : FeatureViewDef} {byName : List (String × FeatureDef)} {cap : Nat}

theorem depthsOf_ranked {rec : List (String × Nat) → String → Except PyErr (Nat × List (String × Nat))}
    {avoid : List String}
    (hrec : ∀ memo name depth memo', rec memo name = .ok (depth, memo') → Ranked byName cap memo →
      Dict.get? memo' name = some depth ∧ Ranked byName cap memo' ∧ Extends avoid memo memo') :
    ∀ {deps : List FeatureDependency} {memo memo' : List (String × Nat)} {depths : List Nat},
      depthsOf rec memo deps = .ok (depths, memo') → Ranked byName cap memo →
      Ranked byName cap memo' ∧ Extends avoid memo memo' ∧
        ∀ d ∈ deps, ∃ depth ∈ depths, Dict.get? memo' d.feature = some depth
  | [], memo, memo', depths, h, hr => by
    cases h
    exact ⟨hr, Extends.refl avoid memo, fun d hd => (nomatch hd)⟩
  | dep :: deps, memo, memo', depths, h, hr => by
    unfold depthsOf at h
    obtain ⟨⟨depth, memo₁⟩, h₁, h⟩ := bind_eq_ok.mp h
    obtain ⟨⟨rest, memo₂⟩, h₂, h⟩ := bind_eq_ok.mp h
    cases h
    obtain ⟨hdep, hr₁, hext₁⟩ := hrec _ _ _ _ h₁ hr
    obtain ⟨hr₂, hext₂, hall⟩ := depthsOf_ranked hrec h₂ hr₁
    refine ⟨hr₂, hext₁.trans hext₂, fun d hd => ?_⟩
    rcases List.mem_cons.mp hd with rfl | hd
    · exact ⟨depth, List.mem_cons_self, hext₂.kept _ _ hdep⟩
    · obtain ⟨below, hm, hbelow⟩ := hall d hd
      exact ⟨below, List.mem_cons_of_mem _ hm, hbelow⟩

theorem le_foldl_max : ∀ (ds : List Nat) (d : Nat), d ≤ ds.foldl max d ∧ ∀ e ∈ ds, e ≤ ds.foldl max d
  | [], d => by simp
  | e :: ds, d => by
    obtain ⟨hle, hall⟩ := le_foldl_max ds (max d e)
    rw [List.foldl_cons]
    refine ⟨by omega, fun e' he => ?_⟩
    rcases List.mem_cons.mp he with rfl | he
    · omega
    · exact hall e' he

theorem depthOf_ranked : ∀ (fuel : Nat) (visiting : List String) (memo : List (String × Nat)) (name : String) (depth : Nat)
    (memo' : List (String × Nat)), depthOf view byName cap fuel visiting memo name = .ok (depth, memo') →
    Ranked byName cap memo → Dict.get? memo' name = some depth ∧ Ranked byName cap memo' ∧ Extends visiting memo memo'
  | 0, visiting, memo, name, depth, memo', h, hr => by cases h
  | fuel + 1, visiting, memo, name, depth, memo', h, hr => by
    unfold depthOf at h
    cases hm : Dict.get? memo name with
    | some known =>
      rw [hm] at h
      cases h
      exact ⟨hm, hr, Extends.refl visiting memo⟩
    | none =>
      rw [hm] at h
      dsimp only at h
      by_cases hvis : name ∈ visiting
      · rw [if_pos hvis] at h
        cases h
      rw [if_neg hvis] at h
      cases hf : Dict.get? byName name with
      | none =>
        rw [hf] at h
        cases h
      | some feature =>
        rw [hf] at h
        obtain ⟨⟨depths, memo₁⟩, hdeps, h⟩ := bind_eq_ok.mp h
        obtain ⟨u, hcap, h⟩ := bind_eq_ok.mp h
        cases h
        have hcap := raiseIf_eq_ok.mp hcap
        obtain ⟨hr₁, hext, hall⟩ := depthsOf_ranked (depthOf_ranked fuel (visiting ++ [name])) hdeps hr
        -- the name itself was being visited, so that it has no entry yet
        have hnew : Dict.get? memo₁ name = none :=
          hext.added name hm (List.mem_append_right _ (List.mem_singleton.mpr rfl))
        have hkeep : ∀ n, Dict.get? memo₁ n ≠ none → name ≠ n := fun n hn e => hn (e ▸ hnew)
        refine ⟨Dict.get?_set_self _ _ _, fun n found hn => ?_, fun n found hn => ?_, fun n hn ha => ?_⟩
        · rw [Dict.get?_set] at hn
          by_cases he : name = n
          · subst he
            rw [if_pos rfl] at hn
            cases hn
            refine ⟨by omega, feature, hf, fun d hd => ?_⟩
            obtain ⟨below, hmem, hbelow⟩ := hall d hd
            refine ⟨below, ?_, ?_⟩
            · rw [Dict.get?_set_ne _ _ (hkeep _ (by simp [hbelow])), hbelow]
            · cases depths with
              | nil => cases hmem
              | cons first rest =>
                have hmax := le_foldl_max rest first
                dsimp only
                rcases List.mem_cons.mp hmem with rfl | hmem
                · omega
                · have := hmax.2 below hmem
                  omega
          · rw [if_neg he] at hn
            obtain ⟨hle, f, hf', hbelow⟩ := hr₁ n found hn
            refine ⟨hle, f, hf', fun d hd => ?_⟩
            obtain ⟨below, hd', hlt⟩ := hbelow d hd
            exact ⟨below, by rw [Dict.get?_set_ne _ _ (hkeep _ (by simp [hd'])), hd'], hlt⟩
        · have hin := hext.kept n found hn
          rw [Dict.get?_set_ne _ _ (hkeep _ (by simp [hin])), hin]
        · have hne : name ≠ n := fun e => hvis (e ▸ ha)
          rw [Dict.get?_set_ne _ _ hne]
          exact hext.added n hn (List.mem_append_left _ ha)

theorem depthAll_ranked {fuel : Nat} : ∀ {fs : List FeatureDef} {memo : List (String × Nat)} {u : Unit},
    depthAll view byName cap fuel memo fs = .ok u → Ranked byName cap memo →
    ∃ memo', Ranked byName cap memo' ∧ Extends [] memo memo' ∧ ∀ f ∈ fs, ∃ depth, Dict.get? memo' f.name = some depth
  | [], memo, u, h, hr => ⟨memo, hr, Extends.refl [] memo, fun f hf => (nomatch hf)⟩
  | f :: fs, memo, u, h, hr => by
    unfold depthAll at h
    obtain ⟨⟨depth, memo₁⟩, hd, h⟩ := bind_eq_ok.mp h
    obtain ⟨hf, hr₁, hext₁⟩ := depthOf_ranked fuel [] memo f.name depth memo₁ hd hr
    obtain ⟨memo', hr', hext', hall⟩ := depthAll_ranked h hr₁
    refine ⟨memo', hr', hext₁.trans hext', fun g hg => ?_⟩
    rcases List.mem_cons.mp hg with rfl | hg
    · exact ⟨depth, hext'.kept _ _ hf⟩
    · exact hall g hg

end

/-! ## What validation says of the graph -/

theorem FeatureViewDef.depthCap_le (view : FeatureViewDef) :
    view.maxDependencyDepth.getD defaultDependencyDepthCap ≤ maxDependencyDepthCap := by
  have h := view.ok
  simp only [ViewFields.check, bind_eq_ok, raiseIf_eq_ok] at h
  obtain ⟨_, -, _, -, _, -, _, -, _, -, _, -, _, -, _, -, _, hdepth, -⟩ := h
  cases hd : view.maxDependencyDepth with
  | none => decide
  | some depth =>
    rw [hd, not_not] at hdepth
    exact hdepth.2

/-- An accepted graph has a memo that ranks every feature of the view. -/
theorem graph_ranked {view : FeatureViewDef} {u : Unit}
    (h : validateDependencyGraph view (featuresByName view.features) = .ok u) :
    ∃ memo, Ranked (featuresByName view.features) (view.maxDependencyDepth.getD defaultDependencyDepthCap) memo ∧
      ∀ f ∈ view.features, ∃ depth, Dict.get? memo f.name = some depth := by
  obtain ⟨memo, hranked, -, hall⟩ := depthAll_ranked h fun n depth h => (nomatch h)
  exact ⟨memo, hranked, hall⟩

/-- The depth that a memo gives, where it ranks every feature of the view. -/
theorem Ranked.lt {fs : List FeatureDef} {cap : Nat} {memo : List (String × Nat)} (hm : Ranked (featuresByName fs) cap memo)
    (hall : ∀ f ∈ fs, ∃ depth, Dict.get? memo f.name = some depth) {n m : String}
    (h : Needs (featuresByName fs) n m) : (Dict.get? memo m).getD 0 < (Dict.get? memo n).getD 0 := by
  obtain ⟨f, hf, d, hd, rfl⟩ := h
  obtain ⟨hfm, rfl⟩ := featuresByName_name hf
  obtain ⟨depth, hdepth⟩ := hall f hfm
  obtain ⟨-, f', hf', hbelow⟩ := hm f.name depth hdepth
  cases hf.symm.trans hf'
  obtain ⟨below, hd', hlt⟩ := hbelow d hd
  rw [hdepth, hd']
  exact hlt

theorem Ranked.le_cap {byName : List (String × FeatureDef)} {cap : Nat} {memo : List (String × Nat)}
    (hm : Ranked byName cap memo) (n : String) : (Dict.get? memo n).getD 0 ≤ cap := by
  cases hn : Dict.get? memo n with
  | none => exact Nat.zero_le _
  | some depth => exact (hm n depth hn).1

section
variable {r : Registry} (hr : validateRegistry r = .ok ()) {view : FeatureViewDef} (hv : view ∈ r.featureViews)
include hr hv

theorem validateView_graph : (∀ f ∈ view.features, ∀ d ∈ f.deps,
      validateDep view (featuresByName view.features) f d = .ok ()) ∧
    validateDependencyGraph view (featuresByName view.features) = .ok () := by
  simp only [validateRegistry, bind_eq_ok, forEach_eq_ok] at hr
  obtain ⟨_, -, _, -, _, -, h⟩ := hr
  have h := h view hv
  unfold validateView at h
  dsimp only at h
  cases he : r.entities.find? fun e => e.name = view.entity with
  | none =>
    rw [he] at h
    cases h
  | some entity =>
    rw [he] at h
    simp only [bind_eq_ok, forEach_eq_ok, validateFeature] at h
    obtain ⟨_, -, _, -, _, hfeatures, _, hgraph, -⟩ := h
    refine ⟨fun f hf d hd => ?_, hgraph⟩
    obtain ⟨_, -, hdeps⟩ := hfeatures f hf
    exact hdeps d hd

theorem exists_ranking : ∃ rank, Ranking (featuresByName view.features) rank := by
  obtain ⟨memo, hranked, hall⟩ := graph_ranked (validateView_graph hr hv).2
  exact ⟨fun n => (Dict.get? memo n).getD 0, fun n => (hranked.le_cap n).trans view.depthCap_le,
    fun n m h => hranked.lt hall h⟩

theorem no_self_dependency {f : FeatureDef} (hf : f ∈ view.features) : ∀ d ∈ f.deps, d.feature ≠ f.name := by
  intro d hd he
  obtain ⟨rank, hrank⟩ := exists_ranking hr hv
  have hnames := (ValidView.of_validateRegistry hr hv).names_nodup
  exact Nat.lt_irrefl _ (hrank.lt f.name f.name ⟨f, featuresByName_mem hnames hf, d, hd, he⟩)

theorem needs_known {n m : String} (h : Needs (featuresByName view.features) n m) :
    ∃ f g, Dict.get? (featuresByName view.features) n = some f ∧ Dict.get? (featuresByName view.features) m = some g ∧
      g.lifecycle ∈ allowedDependencyLifecycles f.lifecycle := by
  obtain ⟨f, hf, d, hd, rfl⟩ := h
  have hdep := (validateView_graph hr hv).1 f (featuresByName_name hf).1 d hd
  unfold validateDep at hdep
  dsimp only at hdep
  cases hg : Dict.get? (featuresByName view.features) d.feature with
  | none =>
    rw [hg] at hdep
    cases hdep
  | some target =>
    rw [hg] at hdep
    simp only [bind_eq_ok, raiseIf_eq_ok, not_not] at hdep
    obtain ⟨_, -, hallowed⟩ := hdep
    exact ⟨f, target, hf, rfl, hallowed⟩

/-- The closure of a feature of the view stays in the view. -/
theorem closure_known {n m : String} {f : FeatureDef} (hf : Dict.get? (featuresByName view.features) n = some f)
    (h : InClosure (featuresByName view.features) n m) : ∃ g, Dict.get? (featuresByName view.features) m = some g := by
  induction h with
  | refl => exact ⟨f, hf⟩
  | tail _ hneeds _ =>
    obtain ⟨-, g, -, hg, -⟩ := needs_known hr hv hneeds
    exact ⟨g, hg⟩

/-- A live feature has a live closure, and a shadow feature one of live and shadow features. -/
theorem closure_lifecycle {n m : String} {f g : FeatureDef} (hf : Dict.get? (featuresByName view.features) n = some f)
    (h : InClosure (featuresByName view.features) n m) (hg : Dict.get? (featuresByName view.features) m = some g)
    (hl : f.lifecycle = .live ∨ f.lifecycle = .shadow) : g.lifecycle = .live ∨ g.lifecycle = .shadow ∧ f.lifecycle = .shadow := by
  induction h generalizing g with
  | refl =>
    cases hf.symm.trans hg
    rcases hl with hl | hl
    · exact .inl hl
    · exact .inr ⟨hl, hl⟩
  | tail _ hneeds ih =>
    obtain ⟨f', g', hf', hg', hallowed⟩ := needs_known hr hv hneeds
    cases hg.symm.trans hg'
    rcases ih hf' with hlive | ⟨hshadow, hf''⟩
    · rw [hlive] at hallowed
      exact .inl (List.mem_singleton.mp hallowed)
    · rw [hshadow] at hallowed
      rcases List.mem_pair.mp hallowed with hlive | hshadow
      · exact .inl hlive
      · exact .inr ⟨hshadow, hf''⟩

end

end ClearFeature
