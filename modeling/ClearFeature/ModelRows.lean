import ClearFeature.BatchItems
import ClearFeature.ModelBatch
import ClearFeature.Recompute

/-!
# Rows of model features against `ComputeCore`

The row of an entity has the value of every dependency with an eligible row.
`ComputeCore` also looks at the age of what it reads: where no required value is
too old, or another one is missing, the two skip the same entities, except that
an entity without any value has no row.
-/

namespace ClearFeature

open Prog

/-- The model path over an offline history; the model answers by itself. -/
def modelService (predict : ModelRef → List (List (String × Value)) → Except PyErr (List Value)) :
    Service (RunnerCall PropagationRecord Unit ModelOwn) (RunnerCall.Ans ModelOwn.Ans) OfflineStore where
  act offline
    | .own (.appendNew view viewVersion results) => appendNewResults offline view viewVersion results
    | _ => offline
  answer offline
    | .poll => none
    | .now => 0
    | .commit _ | .publish _ _ _ _ | .statusPut _ _ => .ok ()
    | .statusRead _ _ => .ok none
    | .own (.getPit entityKey name version view viewVersion observationTs safetyGap) =>
      offline.getPit entityKey name version view viewVersion observationTs safetyGap
    | .own (.predict model frames) => predict model frames
    | .own (.appendNew view viewVersion results) => .ok (partitionNewResults offline view viewVersion results).2

/-- The row that is read for a dependency. -/
def FeatureViewDef.presentAt (view : FeatureViewDef) (offline : OfflineStore) (entityKey : EntityKey)
    (observationTs safetyGap : Int) (name : String) : Option OfflineFeatureRecord :=
  (view.slotOf entityKey name).bind fun slot => pitRow (offline.rows slot) observationTs safetyGap

/-- Older at the observation than the edge allows. -/
def FeatureDependency.TooOld (dep : FeatureDependency) (observationTs dataTs : Int) : Prop :=
  ∃ age, dep.maxInputAgeSeconds = some age ∧ observationTs - dataTs > age * 1000000

/-- A required dependency without a value, or with one that is too old. -/
def FeatureDependency.Blocks (dep : FeatureDependency) (observationTs : Int) (present : Option OfflineFeatureRecord) :
    Prop :=
  dep.required = true ∧ (present = none ∨ ∃ rec, present = some rec ∧ dep.TooOld observationTs rec.result.dataTs)

/-- The reference of a feature of the view. -/
def FeatureViewDef.refOf (view : FeatureViewDef) (name : String) : Option FeatureRef :=
  (Dict.get? (featuresByName view.features) name).map fun target => target.ref

/-- The inputs of a row: what is present, in the order of the dependencies. -/
def presentInputs (sha256 : Sha256) (refOf : String → Option FeatureRef) (present : String → Option OfflineFeatureRecord)
    (deps : List FeatureDependency) : List InputTuple :=
  deps.filterMap fun dep =>
    (present dep.feature).bind fun rec => (refOf dep.feature).map fun ref => ModelBatch.inputTuple sha256 ref rec.result

/-- The frame has what is present, under the names of the dependencies. -/
def FrameOf (present : String → Option OfflineFeatureRecord) (deps : List FeatureDependency)
    (frame : List (String × Value)) : Prop :=
  ∀ k, Dict.get? frame k = if k ∈ deps.map (·.feature) then (present k).map fun rec => rec.result.value else none

structure ModelRow.Uses (row : ModelRow) (sha256 : Sha256) (entityKey : EntityKey)
    (refOf : String → Option FeatureRef) (present : String → Option OfflineFeatureRecord)
    (deps : List FeatureDependency) : Prop where
  entityKey : row.entityKey = entityKey
  frame : FrameOf present deps row.frame
  inputs : row.inputs = presentInputs sha256 refOf present deps

/-- How the model path reads a dependency. -/
structure DependencyRead (byName : List (String × FeatureDef)) (view : String) (viewVersion : Int)
    (offline : OfflineStore) (entityKey : EntityKey) (observationTs safetyGap : Int) (refOf : String → Option FeatureRef)
    (present : String → Option OfflineFeatureRecord) (dep : FeatureDependency) where
  version : Int
  ref : FeatureRef
  version_ok : ModelBatch.dependencyVersion byName dep = .ok version
  ref_ok : FeatureRef.ofFields dep.feature version = .ok ref
  refOf_ok : refOf dep.feature = some ref
  pit : offline.getPit entityKey dep.feature version view viewVersion observationTs safetyGap = .ok (present dep.feature)

section
variable {byName : List (String × FeatureDef)} {viewName : String} {viewVersion : Int}
  {predict : ModelRef → List (List (String × Value)) → Except PyErr (List Value)} {sha256 : Sha256}
  {offline : OfflineStore} {entityKey : EntityKey} {observationTs safetyGap : Int} {refOf : String → Option FeatureRef}
  {present : String → Option OfflineFeatureRecord}

theorem FrameOf.skip {done : List FeatureDependency} {frame : List (String × Value)} (h : FrameOf present done frame)
    {dep : FeatureDependency} (hnone : present dep.feature = none) : FrameOf present (done ++ [dep]) frame := by
  intro k
  rw [h k, List.map_append, List.map_singleton]
  by_cases hk : k ∈ done.map (·.feature)
  · rw [if_pos hk, if_pos (List.mem_append_left _ hk)]
  · rw [if_neg hk]
    by_cases he : k = dep.feature
    · rw [he, hnone, Option.map_none, ite_self]
    · have hnot : k ∉ done.map (·.feature) ++ [dep.feature] := by simp [hk, he]
      rw [if_neg hnot]

theorem FrameOf.put {done : List FeatureDependency} {frame : List (String × Value)} (h : FrameOf present done frame)
    {dep : FeatureDependency} {rec : OfflineFeatureRecord} (hsome : present dep.feature = some rec) :
    FrameOf present (done ++ [dep]) (Dict.set frame dep.feature rec.result.value) := by
  intro k
  rw [Dict.get?_set, h k, List.map_append, List.map_singleton]
  by_cases he : dep.feature = k
  · rw [if_pos he, if_pos (List.mem_append_right _ (by simp [he])), ← he, hsome]
    rfl
  · rw [if_neg he]
    have hiff : k ∈ done.map (·.feature) ++ [dep.feature] ↔ k ∈ done.map (·.feature) := by
      rw [List.mem_append, List.mem_singleton]
      exact ⟨fun hk => hk.elim id fun hk => absurd hk.symm he, .inl⟩
    exact if_congr hiff.symm rfl rfl

variable (predict) (sha256) in
/-- `done` are the dependencies that have been read. -/
theorem rowLoop_exec : ∀ (deps done : List FeatureDependency) (frame : List (String × Value)),
    (∀ d ∈ deps, Nonempty (DependencyRead byName viewName viewVersion offline entityKey observationTs safetyGap refOf
      present d)) → FrameOf present done frame →
    ∃ out, exec (modelService predict) offline (ModelBatch.rowLoop sha256 viewName viewVersion byName observationTs
        safetyGap entityKey deps frame (presentInputs sha256 refOf present done)) = (offline, .ok out) ∧
      (out = none ↔ (∃ d ∈ deps, d.required = true ∧ present d.feature = none) ∨
        presentInputs sha256 refOf present (done ++ deps) = []) ∧
      ∀ row, out = some row → row.Uses sha256 entityKey refOf present (done ++ deps)
  | [], done, frame, _, hframe => by
    rw [ModelBatch.rowLoop, exec_pure, List.append_nil]
    by_cases hnil : presentInputs sha256 refOf present done = []
    · rw [dif_pos hnil]
      exact ⟨none, rfl, ⟨fun _ => .inr hnil, fun _ => rfl⟩, fun row h => (nomatch h)⟩
    · rw [dif_neg hnil]
      refine ⟨_, rfl, ⟨fun h => (nomatch h), ?_⟩, fun row h => ?_⟩
      · rintro (⟨d, hd, -⟩ | h)
        · cases hd
        · exact absurd h hnil
      · cases h
        exact ⟨rfl, hframe, rfl⟩
  | dep :: deps, done, frame, hreads, hframe => by
    obtain ⟨version, ref, hversion, href, hrefOf, hpit⟩ := (hreads dep List.mem_cons_self).some
    have hdeps := fun d hd => hreads d (List.mem_cons_of_mem dep hd)
    have happend : done ++ dep :: deps = done ++ [dep] ++ deps := by rw [List.append_assoc]; rfl
    rw [ModelBatch.rowLoop, hversion, happend]
    dsimp only
    rw [exec_ask_bind]
    have hanswer : (modelService predict).answer offline (.own (.getPit entityKey dep.feature version viewName viewVersion
        observationTs safetyGap)) = .ok (present dep.feature) := hpit
    rw [hanswer]
    cases hpresent : present dep.feature with
    | none =>
      dsimp only
      have hsame : presentInputs sha256 refOf present done = presentInputs sha256 refOf present (done ++ [dep]) := by
        unfold presentInputs
        rw [List.filterMap_append, List.filterMap_cons_none (by rw [hpresent]; rfl), List.filterMap_nil, List.append_nil]
      by_cases hrequired : dep.required = true
      · rw [if_pos hrequired]
        exact ⟨none, rfl, ⟨fun _ => .inl ⟨dep, List.mem_cons_self, hrequired, hpresent⟩, fun _ => rfl⟩,
          fun row h => nomatch h⟩
      · rw [if_neg hrequired, hsame]
        obtain ⟨out, hout, hnone, huses⟩ := rowLoop_exec deps (done ++ [dep]) frame hdeps (hframe.skip hpresent)
        refine ⟨out, hout, hnone.trans (or_congr_left ?_), huses⟩
        constructor
        · rintro ⟨d, hd, h⟩
          exact ⟨d, List.mem_cons_of_mem _ hd, h⟩
        · rintro ⟨d, hd, h⟩
          rcases List.mem_cons.mp hd with rfl | hd
          · exact absurd h.1 hrequired
          · exact ⟨d, hd, h⟩
    | some rec =>
      dsimp only
      rw [href]
      have hmore : presentInputs sha256 refOf present done ++ [ModelBatch.inputTuple sha256 ref rec.result] =
          presentInputs sha256 refOf present (done ++ [dep]) := by
        unfold presentInputs
        rw [List.filterMap_append, List.filterMap_cons_some (by rw [hpresent, hrefOf]; rfl), List.filterMap_nil]
      dsimp only
      rw [hmore]
      obtain ⟨out, hout, hnone, huses⟩ := rowLoop_exec deps (done ++ [dep]) _ hdeps (hframe.put hpresent)
      refine ⟨out, hout, hnone.trans (or_congr_left ?_), huses⟩
      constructor
      · rintro ⟨d, hd, h⟩
        exact ⟨d, List.mem_cons_of_mem _ hd, h⟩
      · rintro ⟨d, hd, h⟩
        rcases List.mem_cons.mp hd with rfl | hd
        · rw [hpresent] at h
          cases h.2
        · exact ⟨d, hd, h⟩

theorem presentInputs_eq_nil {deps : List FeatureDependency} (hrefs : ∀ d ∈ deps, ∃ ref, refOf d.feature = some ref) :
    presentInputs sha256 refOf present deps = [] ↔ ∀ d ∈ deps, present d.feature = none := by
  unfold presentInputs
  rw [List.filterMap_eq_nil_iff]
  refine forall₂_congr fun d hd => ?_
  obtain ⟨ref, href⟩ := hrefs d hd
  rw [href]
  cases present d.feature with
  | none => exact ⟨fun _ => rfl, fun _ => rfl⟩
  | some rec => exact ⟨fun h => (nomatch h), fun h => (nomatch h)⟩

/-! ## `ComputeCore` on the same values -/

theorem edgeIsStale_iff {dep : FeatureDependency} {dataTs calcTs : Int} {stale : Bool}
    (h : edgeIsStale dep dataTs calcTs = .ok stale) : stale = true ↔ dep.TooOld calcTs dataTs := by
  unfold edgeIsStale at h
  unfold FeatureDependency.TooOld
  cases hage : dep.maxInputAgeSeconds with
  | none =>
    rw [hage] at h
    cases h
    exact ⟨fun h => (nomatch h), fun ⟨_, h, _⟩ => (nomatch h)⟩
  | some age =>
    rw [hage] at h
    dsimp only at h
    by_cases hmax : age > maxTimedeltaSeconds
    · rw [if_pos hmax] at h
      cases h
    · rw [if_neg hmax] at h
      cases h
      rw [decide_eq_true_iff]
      constructor
      · exact fun hlt => ⟨age, rfl, hlt⟩
      · rintro ⟨_, he, hlt⟩
        cases he
        exact hlt

/-- What is read, as it is cached for a recomputation. -/
def cachedRead (sha256 : Sha256) (present : String → Option OfflineFeatureRecord) (name : String) :
    Option FeatureComputation :=
  (present name).map fun rec => FeatureStore.prefilled sha256 rec.result

theorem evalDeps_skips : ∀ {deps : List FeatureDependency} {st : DepState} {out : Option DepState},
    evalDeps (fun name => .ok (cachedRead sha256 present name)) observationTs deps st = .ok out →
    (out = none ↔ ∃ d ∈ deps, d.Blocks observationTs (present d.feature))
  | [], st, out, h => by
    cases h
    constructor
    · intro h
      cases h
    · rintro ⟨d, hd, -⟩
      cases hd
  | dep :: deps, st, out, h => by
    simp only [evalDeps, ok_bind] at h
    obtain ⟨added, hadd, h⟩ := bind_eq_ok.mp h
    have hblocks : added = none ↔ dep.Blocks observationTs (present dep.feature) := by
      unfold cachedRead at hadd
      cases hpresent : present dep.feature with
      | none =>
        rw [hpresent] at hadd
        by_cases hrequired : dep.required = true
        · cases hadd
          rw [if_pos hrequired]
          exact ⟨fun _ => ⟨hrequired, .inl rfl⟩, fun _ => rfl⟩
        · cases hadd
          rw [if_neg hrequired]
          exact ⟨fun h => (by cases h), fun hb => absurd hb.1 hrequired⟩
      | some rec =>
        rw [hpresent] at hadd
        obtain ⟨stale, hstale, hadd⟩ := bind_eq_ok.mp hadd
        have hold : stale = true ↔ dep.TooOld observationTs rec.result.dataTs := edgeIsStale_iff hstale
        cases hadd
        by_cases hb : (stale && dep.required) = true
        · rw [if_pos hb]
          rw [Bool.and_eq_true] at hb
          exact ⟨fun _ => ⟨hb.2, .inr ⟨rec, rfl, hold.mp hb.1⟩⟩, fun _ => rfl⟩
        · rw [if_neg hb]
          refine ⟨fun h => (by cases h), ?_⟩
          rintro ⟨hrequired, h | ⟨rec', h, htooOld⟩⟩
          · cases h
          · cases h
            rw [hold.mpr htooOld, hrequired] at hb
            exact absurd rfl hb
    cases added with
    | none =>
      cases h
      exact ⟨fun _ => ⟨dep, List.mem_cons_self, hblocks.mp rfl⟩, fun _ => rfl⟩
    | some st' =>
      rw [evalDeps_skips h]
      constructor
      · rintro ⟨d, hd, hb⟩
        exact ⟨d, List.mem_cons_of_mem _ hd, hb⟩
      · rintro ⟨d, hd, hb⟩
        rcases List.mem_cons.mp hd with rfl | hd
        · cases hblocks.mpr hb
        · exact ⟨d, hd, hb⟩

/-- The row and the dependencies that `ComputeCore` passes on have the same values. -/
theorem FrameOf.evalDeps {deps : List FeatureDependency} {frame : List (String × Value)} (h : FrameOf present deps frame)
    {comps : List (String × FeatureComputation)} {degraded : Bool}
    (he : evalDeps (fun name => .ok (cachedRead sha256 present name)) observationTs deps ([], false) =
      .ok (some (comps, degraded))) (k : String) :
    Dict.get? frame k = (Dict.get? comps k).map fun c => c.value := by
  have hcomps := evalDeps_comps he (fun _ _ hk => (nomatch hk)) k
  rw [h k]
  by_cases hk : k ∈ deps.map (·.feature)
  · rw [if_pos hk]
    cases hget : Dict.get? comps k with
    | some c =>
      obtain hnone | ⟨-, hc⟩ := (hcomps c).mp hget
      · cases hnone
      · obtain ⟨rec, hrec, rfl⟩ := Option.map_eq_some_iff.mp (Except.ok.inj hc)
        rw [hrec]
        rfl
    | none =>
      cases hpresent : present k with
      | none => rfl
      | some rec =>
        have hc : cachedRead sha256 present k = some (FeatureStore.prefilled sha256 rec.result) := by
          unfold cachedRead
          rw [hpresent]
          rfl
        have hin := (hcomps _).mpr (.inr ⟨List.mem_map.mp hk, congrArg Except.ok hc⟩)
        rw [hget] at hin
        cases hin
  · rw [if_neg hk]
    cases hget : Dict.get? comps k with
    | none => rfl
    | some c =>
      obtain hnone | ⟨hd, -⟩ := (hcomps c).mp hget
      · cases hnone
      · exact absurd (List.mem_map.mpr hd) hk

end

/-! ## Rows of a validated view -/

section
variable {registry : Registry} (hr : validateRegistry registry = .ok ()) {view : FeatureViewDef}
  (hv : view ∈ registry.featureViews) {feature : FeatureDef} (hf : feature ∈ view.features)
  (predict : ModelRef → List (List (String × Value)) → Except PyErr (List Value)) (sha256 : Sha256)
  (offline : OfflineStore) (entityKey : EntityKey) (observationTs : Int) {safetyGap : Int} (hgap : 0 ≤ safetyGap)
include hr hv hf hgap

/-- A dependency is read at the version of the feature in the view. -/
theorem dependencyRead_valid {dep : FeatureDependency} (hdep : dep ∈ feature.deps) :
    Nonempty (DependencyRead (featuresByName view.features) view.name view.viewVersion offline entityKey observationTs
      safetyGap view.refOf (view.presentAt offline entityKey observationTs safetyGap) dep) := by
  have hvalid := ValidView.of_validateRegistry hr hv
  obtain ⟨target, ht, hname, hpin⟩ := hvalid.deps_known feature hf dep hdep
  have hget : Dict.get? (featuresByName view.features) dep.feature = some target :=
    hname ▸ featuresByName_mem hvalid.names_nodup ht
  refine ⟨⟨target.featureVersion, target.ref, ?_, ?_, ?_, ?_⟩⟩
  · unfold ModelBatch.dependencyVersion
    cases hd : dep.version with
    | none => rw [hget]
    | some pin => rw [hpin pin hd]
  · exact hname ▸ FeatureRef.ofFields_ref target.ref
  · unfold FeatureViewDef.refOf
    rw [hget]
    rfl
  · rw [getPit_eq hgap]
    unfold FeatureViewDef.presentAt FeatureViewDef.slotOf
    rw [hget]
    rfl

theorem buildRow_exec : ∃ out, exec (modelService predict) offline (ModelBatch.buildRow sha256 view.name view.viewVersion
      (featuresByName view.features) observationTs safetyGap feature entityKey) = (offline, .ok out) ∧
    (out = none ↔
      (∃ d ∈ feature.deps, d.required = true ∧
        view.presentAt offline entityKey observationTs safetyGap d.feature = none) ∨
      ∀ d ∈ feature.deps, view.presentAt offline entityKey observationTs safetyGap d.feature = none) ∧
    ∀ row, out = some row → row.Uses sha256 entityKey view.refOf
      (view.presentAt offline entityKey observationTs safetyGap) feature.deps := by
  have hreads := fun (d : FeatureDependency) (hd : d ∈ feature.deps) =>
    dependencyRead_valid hr hv hf offline entityKey observationTs hgap hd
  obtain ⟨out, hout, hnone, huses⟩ := rowLoop_exec predict sha256 feature.deps [] [] hreads
    (fun k => by rw [Dict.get?_nil]; exact (if_neg (by simp)).symm)
  refine ⟨out, hout, hnone.trans (or_congr_right (presentInputs_eq_nil fun d hd => ?_)), huses⟩
  obtain ⟨read⟩ := hreads d hd
  exact ⟨read.ref, read.refOf_ok⟩

end

/-! ## A model over one input -/

def creditScoreInput : FeatureDef where
  name := "income"
  kind := .udf
  featureVersion := 1
  udf := "u.a"
  dtype := "int"
  status := "live"
  inputs := ["a"]
  lifecycle := .live
  ok := by decide

/-- The income may be a minute old. -/
def minuteOld (required : Bool) : FeatureDependency where
  feature := "income"
  required := required
  maxInputAgeSeconds := some 60
  ok := by cases required <;> decide

def pdModel : ModelSpec := ⟨{ uri := "mlflow://pd/1", digest := "d", outputName := "pd" }, by decide⟩

def pdFeature (required : Bool) : FeatureDef where
  name := "pd"
  kind := .model
  featureVersion := 1
  udf := ""
  dtype := "float"
  status := "live"
  deps := [minuteOld required]
  model := some pdModel
  lifecycle := .live
  ok := by cases required <;> decide

def pdView (required : Bool) : FeatureViewDef where
  name := "risk"
  entity := "user"
  keyFields := ["user_id"]
  viewVersion := 1
  owner := "o"
  status := "live"
  features := [creditScoreInput, pdFeature required]
  ok := by cases required <;> decide
  groups_nodup := by exact List.nodup_nil

def incomeHistory : OfflineStore :=
  [⟨"risk", 1, { ref := creditScoreInput.ref, entityKey := userKey, value := .int 5, dataTs := 0, calcTs := 0
                 valueHash := some "sha256:5" }⟩]

theorem incomeHistory_present {view : FeatureViewDef} {observationTs safetyGap : Int} {name : String}
    {rec : OfflineFeatureRecord} (h : view.presentAt incomeHistory userKey observationTs safetyGap name = some rec) :
    rec.result.dataTs = 0 := by
  obtain ⟨slot, -, hrow⟩ := Option.bind_eq_some_iff.mp h
  obtain ⟨hmem, -⟩ := OfflineStore.mem_rows.mp (pitRow_mem hrow).1
  rw [List.mem_singleton.mp hmem]

def flatModel : ModelRef → List (List (String × Value)) → Except PyErr (List Value) :=
  fun _ frames => .ok (frames.map fun _ => .int 1)

/-- An entity is skipped for a required value that is missing or too old only, and a row uses everything present. -/
def SameStaleness (view : FeatureViewDef) (feature : FeatureDef)
    (predict : ModelRef → List (List (String × Value)) → Except PyErr (List Value)) (sha256 : Sha256)
    (offline : OfflineStore) (entityKey : EntityKey) (observationTs safetyGap : Int) : Prop :=
  ∃ out, exec (modelService predict) offline (ModelBatch.buildRow sha256 view.name view.viewVersion
      (featuresByName view.features) observationTs safetyGap feature entityKey) = (offline, .ok out) ∧
    (out = none ↔ ∃ d ∈ feature.deps, d.Blocks observationTs
      (view.presentAt offline entityKey observationTs safetyGap d.feature)) ∧
    ∀ row, out = some row → row.Uses sha256 entityKey view.refOf
      (view.presentAt offline entityKey observationTs safetyGap) feature.deps

/-- Where no required value is too old, or a required one is missing: an entity is skipped for a missing required value,
or without any value; a row uses everything present, with the values that `ComputeCore` passes to a function with the
same dependencies. -/
theorem modelRow_rules {registry : Registry} (hr : validateRegistry registry = .ok ()) {view : FeatureViewDef}
    (hv : view ∈ registry.featureViews) {feature : FeatureDef} (hf : feature ∈ view.features)
    (predict : ModelRef → List (List (String × Value)) → Except PyErr (List Value)) (sha256 : Sha256)
    (offline : OfflineStore) (entityKey : EntityKey) (observationTs : Int) {safetyGap : Int} (hgap : 0 ≤ safetyGap)
    (hfresh : (∃ d ∈ feature.deps, d.required = true ∧
        view.presentAt offline entityKey observationTs safetyGap d.feature = none) ∨
      ∀ d ∈ feature.deps, d.required = true → ∀ rec,
        view.presentAt offline entityKey observationTs safetyGap d.feature = some rec →
        ¬ d.TooOld observationTs rec.result.dataTs) :
    ∃ out, exec (modelService predict) offline (ModelBatch.buildRow sha256 view.name view.viewVersion
        (featuresByName view.features) observationTs safetyGap feature entityKey) = (offline, .ok out) ∧
      (out = none ↔
        (∃ d ∈ feature.deps, d.Blocks observationTs
          (view.presentAt offline entityKey observationTs safetyGap d.feature)) ∨
        ∀ d ∈ feature.deps, view.presentAt offline entityKey observationTs safetyGap d.feature = none) ∧
      (∀ row, out = some row → row.Uses sha256 entityKey view.refOf
        (view.presentAt offline entityKey observationTs safetyGap) feature.deps) ∧
      ∀ st, evalDeps (fun name => .ok (cachedRead sha256
          (view.presentAt offline entityKey observationTs safetyGap) name)) observationTs feature.deps ([], false) = .ok st →
        (st = none ↔ ∃ d ∈ feature.deps, d.Blocks observationTs
          (view.presentAt offline entityKey observationTs safetyGap d.feature)) ∧
        ∀ comps degraded row, st = some (comps, degraded) → out = some row →
          ∀ k, Dict.get? row.frame k = (Dict.get? comps k).map fun c => c.value := by
  obtain ⟨out, hout, hnone, huses⟩ := buildRow_exec hr hv hf predict sha256 offline entityKey observationTs hgap
  have hblocks : (∃ d ∈ feature.deps, d.required = true ∧
      view.presentAt offline entityKey observationTs safetyGap d.feature = none) ↔
      ∃ d ∈ feature.deps, d.Blocks observationTs
        (view.presentAt offline entityKey observationTs safetyGap d.feature) := by
    constructor
    · rintro ⟨d, hd, hrequired, hmissing⟩
      exact ⟨d, hd, hrequired, .inl hmissing⟩
    · rintro ⟨d, hd, hrequired, hmissing | ⟨rec, hrec, hold⟩⟩
      · exact ⟨d, hd, hrequired, hmissing⟩
      · cases hfresh with
        | inl hmissing => exact hmissing
        | inr hfresh => exact absurd hold (hfresh d hd hrequired rec hrec)
  refine ⟨out, hout, hnone.trans (or_congr_left hblocks), huses, fun st hst => ⟨evalDeps_skips hst, ?_⟩⟩
  intro comps degraded row hcomps hrow k
  exact (huses row hrow).frame.evalDeps (hcomps ▸ hst) k

def ratingInput : FeatureDef where
  name := "rating"
  kind := .udf
  featureVersion := 1
  udf := "u.a"
  dtype := "int"
  status := "live"
  inputs := ["a"]
  lifecycle := .live
  ok := by decide

def minuteOldRating : FeatureDependency where
  feature := "rating"
  required := false
  maxInputAgeSeconds := some 60
  ok := by decide

def ratedFeature : FeatureDef where
  name := "pd"
  kind := .model
  featureVersion := 1
  udf := ""
  dtype := "float"
  status := "live"
  deps := [minuteOld true, minuteOldRating]
  model := some pdModel
  lifecycle := .live
  ok := by decide

def ratedView : FeatureViewDef where
  name := "risk"
  entity := "user"
  keyFields := ["user_id"]
  viewVersion := 1
  owner := "o"
  status := "live"
  features := [creditScoreInput, ratingInput, ratedFeature]
  ok := by decide
  groups_nodup := by exact List.nodup_nil

/-- The rating is forty seconds older than the income. -/
def ratedHistory : OfflineStore :=
  incomeHistory ++ [⟨"risk", 1, { ref := ratingInput.ref, entityKey := userKey, value := .int 7, dataTs := -40000000
                                  calcTs := 0, valueHash := some "sha256:7" }⟩]

def ratedDeps : Except PyErr (Option DepState) :=
  evalDeps (fun name => .ok (cachedRead (digestTable []) (ratedView.presentAt ratedHistory userKey 30000000 0) name))
    30000000 ratedFeature.deps ([], false)

theorem ratedDeps_ok : ratedDeps.toBool = true := by
  decide +kernel

/-- The income is half a minute old, and the rating is too old but optional: the row has both. -/
theorem modelRow_rules_rated : ∃ row,
    exec (modelService flatModel) ratedHistory (ModelBatch.buildRow (digestTable []) "risk" 1
      (featuresByName ratedView.features) 30000000 0 ratedFeature userKey) = (ratedHistory, .ok (some row)) ∧
    row.Uses (digestTable []) userKey ratedView.refOf (ratedView.presentAt ratedHistory userKey 30000000 0)
      ratedFeature.deps ∧
    ∃ comps, ratedDeps = .ok (some (comps, true)) ∧
      ∀ k, Dict.get? row.frame k = (Dict.get? comps k).map fun c => c.value := by
  have hr : validateRegistry (userRegistry ratedView) = .ok () := by decide +kernel
  have hincome : (ratedView.presentAt ratedHistory userKey 30000000 0 "income").map (fun rec => rec.result.dataTs) =
      some 0 := by
    decide +kernel
  have hfresh : ∀ d ∈ ratedFeature.deps, ¬ d.Blocks 30000000
      (ratedView.presentAt ratedHistory userKey 30000000 0 d.feature) := by
    intro d hd hblocks
    simp only [ratedFeature, List.mem_cons, List.not_mem_nil, or_false] at hd
    rcases hd with rfl | rfl
    · obtain ⟨-, hmissing | ⟨rec, hrec, age, hage, hold⟩⟩ := hblocks
      · rw [show (minuteOld true).feature = "income" from rfl] at hmissing
        rw [hmissing] at hincome
        cases hincome
      · rw [show (minuteOld true).feature = "income" from rfl] at hrec
        have hdata : rec.result.dataTs = 0 := by simpa [hrec] using hincome
        cases hage
        omega
    · cases hblocks.1
  obtain ⟨out, hout, hnone, huses, hcore⟩ := modelRow_rules hr List.mem_cons_self
    (List.mem_cons_of_mem _ (List.mem_cons_of_mem _ List.mem_cons_self)) flatModel (digestTable []) ratedHistory userKey
    30000000 (le_refl 0) (.inr fun d hd hrequired rec hrec hold => hfresh d hd ⟨hrequired, .inr ⟨rec, hrec, hold⟩⟩)
  cases out with
  | none =>
    rcases hnone.mp rfl with ⟨d, hd, hblocks⟩ | hall
    · exact absurd hblocks (hfresh d hd)
    · have hmissing := hall (minuteOld true) List.mem_cons_self
      rw [show (minuteOld true).feature = "income" from rfl] at hmissing
      rw [hmissing] at hincome
      cases hincome
  | some row =>
    have hdegraded : (okGet ratedDeps ratedDeps_ok).map Prod.snd = some true := by
      decide +kernel
    obtain ⟨⟨comps, degraded⟩, hcomps, rfl⟩ := Option.map_eq_some_iff.mp hdegraded
    have hst := (eq_ok_okGet ratedDeps ratedDeps_ok).trans (congrArg Except.ok hcomps)
    exact ⟨row, hout, huses row rfl, comps, hst, (hcore _ hst).2 comps _ row rfl rfl⟩

/-- An income that is two minutes old is scored; without an income that is optional nothing is scored. -/
theorem modelRow_staleness :
    validateRegistry (userRegistry (pdView true)) = .ok () ∧ validateRegistry (userRegistry (pdView false)) = .ok () ∧
      ¬ SameStaleness (pdView true) (pdFeature true) flatModel (digestTable []) incomeHistory userKey 120000000 0 ∧
      ¬ SameStaleness (pdView false) (pdFeature false) flatModel (digestTable []) [] userKey 120000000 0 := by
  refine ⟨by decide +kernel, by decide +kernel, ?_, ?_⟩
  · rintro ⟨out, hout, hnone, -⟩
    have hscored : ((exec (modelService flatModel) incomeHistory (ModelBatch.buildRow (digestTable []) "risk" 1
        (featuresByName (pdView true).features) 120000000 0 (pdFeature true) userKey)).2.toOption.bind id).isSome = true := by
      decide +kernel
    have hread : ((pdView true).presentAt incomeHistory userKey 120000000 0 "income").isSome = true := by decide +kernel
    obtain ⟨rec, hrec⟩ := Option.isSome_iff_exists.mp hread
    have hblocks : (minuteOld true).Blocks 120000000 ((pdView true).presentAt incomeHistory userKey 120000000 0 "income") := by
      refine ⟨rfl, .inr ⟨rec, hrec, 60, rfl, ?_⟩⟩
      rw [incomeHistory_present hrec]
      omega
    have hskipped : out = none := hnone.mpr ⟨minuteOld true, List.mem_cons_self, hblocks⟩
    change exec (modelService flatModel) incomeHistory (ModelBatch.buildRow (digestTable []) "risk" 1
      (featuresByName (pdView true).features) 120000000 0 (pdFeature true) userKey) = _ at hout
    rw [hout, hskipped] at hscored
    cases hscored
  · rintro ⟨out, hout, hnone, -⟩
    have hskipped : ((exec (modelService flatModel) [] (ModelBatch.buildRow (digestTable []) "risk" 1
        (featuresByName (pdView false).features) 120000000 0 (pdFeature false) userKey)).2.toOption.bind id).isNone = true := by
      decide +kernel
    change exec (modelService flatModel) [] (ModelBatch.buildRow (digestTable []) "risk" 1
      (featuresByName (pdView false).features) 120000000 0 (pdFeature false) userKey) = _ at hout
    rw [hout] at hskipped
    obtain ⟨d, hd, hrequired, -⟩ := hnone.mp (Option.isNone_iff_eq_none.mp hskipped)
    rw [List.mem_singleton.mp hd] at hrequired
    cases hrequired

end ClearFeature
