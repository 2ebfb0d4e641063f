import ClearFeature.Consistency
import ClearFeature.Recompute

/-!
# When a recompute wave is exact (`plan_recompute_wave`)

An edge without a pin stands for the version of its feature in the view. The
planner takes it for the version of the event instead, and plans a dependent
once for each of its edges.
-/

namespace ClearFeature

/-- The edge is reactive and on the event's feature. -/
def FeatureDependency.Watches (dep : FeatureDependency) (event : FeatureUpdated) : Prop :=
  dep.propagation = .reactive ∧ dep.feature = event.featureName

/-- The declared pin, otherwise the version of the feature in the view. -/
def FeatureViewDef.resolvedVersion (view : FeatureViewDef) (dep : FeatureDependency) : Option Int :=
  match dep.version with
  | some version => some version
  | none => (Dict.get? (featuresByName view.features) dep.feature).map fun target => target.featureVersion

/-- The feature has to be recomputed after the event. -/
def FeatureViewDef.Affected (view : FeatureViewDef) (event : FeatureUpdated) (f : FeatureDef) : Prop :=
  ∃ dep ∈ f.deps, dep.Watches event ∧ view.resolvedVersion dep = some event.featureVersion

def candidateFor (event : FeatureUpdated) (f : FeatureDef) : RecomputeCandidate where
  entity := event.entity
  view := event.view
  viewVersion := event.viewVersion
  dependentFeature := f.name
  dependentVersion := f.featureVersion
  changedInputFeature := event.featureName
  changedInputVersion := event.featureVersion

/-- Each affected feature of the event's view once, and nothing else. -/
structure WaveExact (registry : Registry) (event : FeatureUpdated) : Prop where
  features : ∀ c ∈ planRecomputeWave registry event, ∃ view, findView? registry event.view event.viewVersion = some view ∧
    ∃ f ∈ view.features, c = candidateFor event f
  once : ∀ view, findView? registry event.view event.viewVersion = some view → ∀ f ∈ view.features,
    view.Affected event f → (planRecomputeWave registry event).count (candidateFor event f) = 1
  never : ∀ view, findView? registry event.view event.viewVersion = some view → ∀ f ∈ view.features,
    ¬ view.Affected event f → candidateFor event f ∉ planRecomputeWave registry event

/-- The event carries the version of the view and no feature has two reactive edges on it; or it carries another version
and the reactive edges on it are pinned. -/
def WaveExactWhen (registry : Registry) (event : FeatureUpdated) : Prop :=
  ∀ view, findView? registry event.view event.viewVersion = some view →
    ∀ target, Dict.get? (featuresByName view.features) event.featureName = some target →
    if event.featureVersion = target.featureVersion then
      ∀ f ∈ view.features, (f.deps.filter fun d => d.propagation = .reactive ∧ d.feature = event.featureName).length ≤ 1
    else ∀ f ∈ view.features, ∀ d ∈ f.deps, d.Watches event → d.version ≠ none

/-! ## How often a feature is planned -/

/-- The edges the planner takes. -/
def matchingEdges (event : FeatureUpdated) (f : FeatureDef) : List FeatureDependency :=
  f.deps.filter fun d => (d.propagation = .reactive ∧ d.feature = event.featureName) ∧
    d.version.getD event.featureVersion = event.featureVersion

theorem count_groups {α β : Type} [DecidableEq β] {c : α → β} (n : α → Nat) : ∀ {l : List α}, (l.map c).Nodup →
    ∀ a ∈ l, (l.flatMap fun a => List.replicate (n a) (c a)).count (c a) = n a
  | [], _, a, ha => nomatch ha
  | b :: l, hn, a, ha => by
    rw [List.map_cons, List.nodup_cons] at hn
    rw [List.flatMap_cons, List.count_append]
    have habsent : ∀ x, x ∉ l.map c → (l.flatMap fun a => List.replicate (n a) (c a)).count x = 0 := by
      intro x hx
      refine List.count_eq_zero_of_not_mem fun hm => ?_
      obtain ⟨a', ha', hrep⟩ := List.mem_flatMap.mp hm
      exact hx ((List.mem_replicate.mp hrep).2 ▸ List.mem_map_of_mem ha')
    by_cases he : c b = c a
    · rw [← he, List.count_replicate_self, habsent (c b) hn.1, Nat.add_zero]
      rcases List.mem_cons.mp ha with rfl | ha
      · rfl
      · exact absurd (he ▸ List.mem_map_of_mem ha) hn.1
    · rcases List.mem_cons.mp ha with rfl | ha
      · exact absurd rfl he
      · rw [List.count_replicate, if_neg (by simpa using fun h => he h), Nat.zero_add]
        exact count_groups n hn.2 a ha

theorem filterMap_const {α β : Type} (p : α → Bool) (c : β) : ∀ l : List α,
    l.filterMap (fun a => if p a then some c else none) = List.replicate (l.filter p).length c
  | [] => rfl
  | a :: l => by
    have ih := filterMap_const p c l
    by_cases hp : p a = true
    · rw [List.filterMap_cons, List.filter_cons_of_pos hp, ih, if_pos hp]
      rfl
    · rw [List.filterMap_cons, List.filter_cons_of_neg hp, ih, if_neg hp]

/-- An edge plans its feature if the planner takes it. -/
theorem candidateOf_edge {view : FeatureViewDef} {event : FeatureUpdated} {f : FeatureDef}
    (hname : Dict.get? (featuresByName view.features) f.name = some f) (d : FeatureDependency) :
    candidateOf view event (f.name, d) =
      if d.version.getD event.featureVersion = event.featureVersion then some (candidateFor event f) else none := by
  unfold candidateOf
  rw [hname]
  dsimp only
  by_cases h : d.version.getD event.featureVersion = event.featureVersion
  · rw [if_neg (not_not.mpr h), if_pos h]
    rfl
  · rw [if_pos h, if_neg h]

section
variable {registry : Registry} (hr : validateRegistry registry = .ok ()) {event : FeatureUpdated} {view : FeatureViewDef}
  (hview : findView? registry event.view event.viewVersion = some view)
include hr hview

theorem planned_perm : (planRecomputeWave registry event).Perm
    (view.features.flatMap fun f => List.replicate (matchingEdges event f).length (candidateFor event f)) := by
  have hvalid := ValidView.of_validateRegistry hr (findView?_some hview).1
  unfold planRecomputeWave
  rw [hview]
  refine (List.perm_insertionSort _ _).trans (List.Perm.of_eq ?_)
  unfold reactiveDependents reactiveEdges
  rw [List.filterMap_map, List.filterMap_filter, List.filterMap_flatMap]
  refine List.flatMap_congr fun f hf => ?_
  have hname : Dict.get? (featuresByName view.features) f.name = some f :=
    featuresByName_mem hvalid.names_nodup hf
  rw [List.filterMap_map, List.filterMap_filter]
  refine (List.filterMap_congr fun d _ => ?_).trans (filterMap_const _ (candidateFor event f) f.deps)
  rw [Function.comp_apply, Function.comp_apply, candidateOf_edge hname]
  by_cases hreactive : d.propagation = .reactive
  · by_cases hfeature : d.feature = event.featureName
    · simp [hreactive, hfeature]
    · simp [hfeature]
  · simp [hreactive]

theorem planned_count {f : FeatureDef} (hf : f ∈ view.features) :
    (planRecomputeWave registry event).count (candidateFor event f) = (matchingEdges event f).length := by
  have hvalid := ValidView.of_validateRegistry hr (findView?_some hview).1
  rw [(planned_perm hr hview).count_eq]
  refine count_groups (fun f => (matchingEdges event f).length) ?_ f hf
  refine List.Nodup.of_map (fun c => c.dependentFeature) ?_
  rw [List.map_map]
  exact hvalid.names_nodup

theorem planned_features {c : RecomputeCandidate} (hc : c ∈ planRecomputeWave registry event) :
    ∃ f ∈ view.features, c = candidateFor event f := by
  obtain ⟨f, hf, hrep⟩ := List.mem_flatMap.mp ((planned_perm hr hview).mem_iff.mp hc)
  exact ⟨f, hf, (List.mem_replicate.mp hrep).2⟩

/-! ## Edges on the event's feature -/

variable {f : FeatureDef} (hf : f ∈ view.features)
include hf

/-- An edge on the event's feature, which the view has, and whose version it stands for. -/
theorem watched_target {d : FeatureDependency} (hd : d ∈ f.deps) (hfeature : d.feature = event.featureName) :
    ∃ target, Dict.get? (featuresByName view.features) event.featureName = some target ∧
      view.resolvedVersion d = some target.featureVersion ∧ ∀ pin, d.version = some pin → pin = target.featureVersion := by
  have hvalid := ValidView.of_validateRegistry hr (findView?_some hview).1
  obtain ⟨target, ht, hname, hpin⟩ := hvalid.deps_known f hf d hd
  have hget : Dict.get? (featuresByName view.features) d.feature = some target :=
    hname ▸ featuresByName_mem hvalid.names_nodup ht
  refine ⟨target, hfeature ▸ hget, ?_, fun pin h => hpin pin h⟩
  unfold FeatureViewDef.resolvedVersion
  cases hversion : d.version with
  | none =>
    rw [hget]
    rfl
  | some pin => rw [hpin pin hversion]

/-- At the version of the view every reactive edge is taken. -/
theorem matchingEdges_current {target : FeatureDef}
    (ht : Dict.get? (featuresByName view.features) event.featureName = some target)
    (hversion : event.featureVersion = target.featureVersion) : matchingEdges event f =
      f.deps.filter fun d => d.propagation = .reactive ∧ d.feature = event.featureName := by
  refine List.filter_congr fun d hd => decide_eq_decide.mpr (and_iff_left_of_imp fun hwatched => ?_)
  obtain ⟨target', ht', -, hpin⟩ := watched_target hr hview hf hd hwatched.2
  cases ht.symm.trans ht'
  cases hd' : d.version with
  | none => rfl
  | some pin => exact (hpin pin hd').trans hversion.symm

/-- At another version the edges without a pin are taken. -/
theorem mem_matchingEdges_other {target : FeatureDef}
    (ht : Dict.get? (featuresByName view.features) event.featureName = some target)
    (hversion : event.featureVersion ≠ target.featureVersion) {d : FeatureDependency} (hd : d ∈ f.deps) :
    d ∈ matchingEdges event f ↔ d.Watches event ∧ d.version = none := by
  unfold matchingEdges
  rw [List.mem_filter, decide_eq_true_iff]
  constructor
  · rintro ⟨-, hwatched, hmatch⟩
    refine ⟨hwatched, ?_⟩
    obtain ⟨target', ht', -, hpin⟩ := watched_target hr hview hf hd hwatched.2
    cases ht.symm.trans ht'
    cases hd' : d.version with
    | none => rfl
    | some pin =>
      rw [hd'] at hmatch
      exact absurd (hmatch.symm.trans (hpin pin hd')) hversion
  · rintro ⟨hwatched, hnone⟩
    exact ⟨hd, hwatched, by rw [hnone]; rfl⟩

theorem affected_iff {target : FeatureDef} (ht : Dict.get? (featuresByName view.features) event.featureName = some target) :
    view.Affected event f ↔ event.featureVersion = target.featureVersion ∧ ∃ d ∈ f.deps, d.Watches event := by
  constructor
  · rintro ⟨d, hd, hwatched, hresolved⟩
    obtain ⟨target', ht', hresolved', -⟩ := watched_target hr hview hf hd hwatched.2
    cases ht.symm.trans ht'
    exact ⟨Option.some.inj (hresolved.symm.trans hresolved'), d, hd, hwatched⟩
  · rintro ⟨hversion, d, hd, hwatched⟩
    obtain ⟨target', ht', hresolved, -⟩ := watched_target hr hview hf hd hwatched.2
    cases ht.symm.trans ht'
    exact ⟨d, hd, hwatched, hresolved.trans (congrArg some hversion.symm)⟩

end

/-! ## A view with one dependent -/

def reactiveOnLast : FeatureDependency := ⟨{ feature := "last", propagation := .reactive }, reactiveOnLast_ok⟩

/-- A feature with one edge on another, or with two of them. -/
def echoFeature (twice : Bool) : FeatureDef where
  name := "echo"
  kind := .udf
  featureVersion := 1
  udf := "u.echo"
  dtype := "int"
  status := "live"
  deps := if twice then [reactiveOnLast, reactiveOnLast] else [reactiveOnLast]
  lifecycle := .live
  ok := by cases twice <;> decide

def echoView (twice : Bool) : FeatureViewDef where
  name := "risk"
  entity := "user"
  keyFields := ["user_id"]
  viewVersion := 1
  owner := "o"
  status := "live"
  features := [lastFeature, echoFeature twice]
  ok := by cases twice <;> decide
  groups_nodup := by exact List.nodup_nil

def lastUpdatedAt (version : Int) : FeatureUpdated where
  entity := ⟨"user", userKey.parts⟩
  view := "risk"
  viewVersion := 1
  featureName := "last"
  featureVersion := version
  dataTs := 0
  calcTs := 0
  source := .batchWorker

/-! ## The exact condition -/

theorem wave_exact_iff {registry : Registry} (hr : validateRegistry registry = .ok ()) (event : FeatureUpdated) :
    WaveExact registry event ↔ WaveExactWhen registry event := by
  constructor
  · intro h view hview target ht
    by_cases hversion : event.featureVersion = target.featureVersion
    · rw [if_pos hversion]
      intro f hf
      rw [← matchingEdges_current hr hview hf ht hversion, ← planned_count hr hview hf]
      by_cases haffected : view.Affected event f
      · exact (h.once view hview f hf haffected).le
      · rw [List.count_eq_zero_of_not_mem (h.never view hview f hf haffected)]
        exact Nat.zero_le 1
    · rw [if_neg hversion]
      intro f hf d hd hwatched hnone
      have haffected : ¬ view.Affected event f := fun ha => hversion ((affected_iff hr hview hf ht).mp ha).1
      have hin : d ∈ matchingEdges event f := (mem_matchingEdges_other hr hview hf ht hversion hd).mpr ⟨hwatched, hnone⟩
      have hcount := planned_count hr hview hf
      rw [List.count_eq_zero_of_not_mem (h.never view hview f hf haffected)] at hcount
      rw [List.length_eq_zero_iff.mp hcount.symm] at hin
      cases hin
  · intro h
    refine ⟨fun c hc => ?_, fun view hview f hf haffected => ?_, fun view hview f hf haffected hmem => ?_⟩
    · cases hview : findView? registry event.view event.viewVersion with
      | none =>
        unfold planRecomputeWave at hc
        rw [hview] at hc
        cases hc
      | some view => exact ⟨view, rfl, planned_features hr hview hc⟩
    · have ⟨d, hd, hwatched, _⟩ := haffected
      obtain ⟨target, ht, -⟩ := watched_target hr hview hf hd hwatched.2
      have hversion := ((affected_iff hr hview hf ht).mp haffected).1
      have hle := h view hview target ht
      rw [if_pos hversion] at hle
      have hin : d ∈ f.deps.filter fun d => d.propagation = .reactive ∧ d.feature = event.featureName :=
        List.mem_filter.mpr ⟨hd, decide_eq_true hwatched⟩
      rw [planned_count hr hview hf, matchingEdges_current hr hview hf ht hversion]
      exact le_antisymm (hle f hf) (List.length_pos_of_mem hin)
    · have hpos : 0 < (matchingEdges event f).length := by
        rw [← planned_count hr hview hf]
        exact List.count_pos_iff.mpr hmem
      obtain ⟨d, hd⟩ := List.exists_mem_of_length_pos hpos
      obtain ⟨hdeps, hd'⟩ := List.mem_filter.mp hd
      have hwatched : d.Watches event := (of_decide_eq_true hd').1
      obtain ⟨target, ht, -⟩ := watched_target hr hview hf hdeps hwatched.2
      have hversion : event.featureVersion ≠ target.featureVersion :=
        fun he => haffected ((affected_iff hr hview hf ht).mpr ⟨he, d, hdeps, hwatched⟩)
      have hpinned := h view hview target ht
      rw [if_neg hversion] at hpinned
      exact hpinned f hf d hdeps hwatched ((mem_matchingEdges_other hr hview hf ht hversion hdeps).mp hd).2

theorem wave_exact_iff_echo :
    WaveExact (userRegistry (echoView false)) (lastUpdatedAt 1) ↔
      WaveExactWhen (userRegistry (echoView false)) (lastUpdatedAt 1) :=
  wave_exact_iff (by decide +kernel) (lastUpdatedAt 1)

/-- An update of version two plans the dependent of version one; two edges plan it twice. -/
theorem wave_not_exact :
    validateRegistry (userRegistry (echoView false)) = .ok () ∧ validateRegistry (userRegistry (echoView true)) = .ok () ∧
      ¬ WaveExact (userRegistry (echoView false)) (lastUpdatedAt 2) ∧
      ¬ WaveExact (userRegistry (echoView true)) (lastUpdatedAt 1) := by
  have hview : ∀ twice version, findView? (userRegistry (echoView twice)) (lastUpdatedAt version).view
      (lastUpdatedAt version).viewVersion = some (echoView twice) := fun _ _ => rfl
  have hecho : ∀ twice, echoFeature twice ∈ (echoView twice).features := fun _ => by simp [echoView]
  have hdep : ∀ twice, reactiveOnLast ∈ (echoFeature twice).deps := by decide
  refine ⟨by decide +kernel, by decide +kernel, fun h => ?_, fun h => ?_⟩
  · refine h.never (echoView false) (hview false 2) (echoFeature false) (hecho false) ?_ (by decide +kernel)
    rintro ⟨d, hd, -, hresolved⟩
    rw [List.mem_singleton.mp hd] at hresolved
    have hone : (echoView false).resolvedVersion reactiveOnLast = some 1 := by decide +kernel
    rw [hone] at hresolved
    cases hresolved
  · have haffected : (echoView true).Affected (lastUpdatedAt 1) (echoFeature true) :=
      ⟨reactiveOnLast, hdep true, ⟨rfl, rfl⟩, by decide +kernel⟩
    have hone := h.once (echoView true) (hview true 1) (echoFeature true) (hecho true) haffected
    have htwo : (planRecomputeWave (userRegistry (echoView true)) (lastUpdatedAt 1)).count
        (candidateFor (lastUpdatedAt 1) (echoFeature true)) = 2 := by decide +kernel
    rw [htwo] at hone
    cases hone

end ClearFeature
