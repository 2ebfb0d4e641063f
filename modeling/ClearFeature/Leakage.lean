import ClearFeature.Lineage
import ClearFeature.Training
import ClearFeature.Validator

/-!
# What a training cell may have seen

Offline rows are produced by compute requests. The row summarises the stamps of
its whole closure by their oldest time and newest availability, and selection
reads nothing else.
-/

namespace ClearFeature

/-- An offline row together with the request that produced it. -/
structure ComputedRow where
  core : ComputeCore
  view : String
  viewVersion : Int
  entityKey : EntityKey
  requested : List String
  loader : String → Except PyErr Value
  stamps : SourceStamps
  calcTs : Int
  results : List (String × FeatureResult)
  ctx : RequestContext
  computed : core.compute view viewVersion entityKey requested ⟨loader, [], [], []⟩ stamps calcTs = .ok (results, ctx)
  name : String
  result : FeatureResult
  isResult : Dict.get? results name = some result

def ComputedRow.record (row : ComputedRow) : OfflineFeatureRecord := ⟨row.view, row.viewVersion, row.result⟩

/-- `stamp` is that of a raw source that took part in the value of the row. -/
def ComputedRow.Used (row : ComputedRow) (stamp : SourceStamp) : Prop :=
  ∃ viewDef src, row.core.findView row.view row.viewVersion = .ok viewDef ∧
    (row.core.env viewDef row.loader row.stamps row.calcTs).Uses row.name src ∧ Dict.get? row.stamps src = some stamp

/-- No known availability of a used stamp is later than the computation. -/
def ComputedRow.AvailableWhenComputed (row : ComputedRow) : Prop :=
  ∀ stamp, row.Used stamp → ∀ a ∈ stamp.availableAt, a ≤ row.calcTs

theorem ComputedRow.summary (row : ComputedRow) :
    (∃ stamp, row.Used stamp ∧ stamp.reportTs = row.result.dataTs) ∧
    ∀ stamp, row.Used stamp → row.result.dataTs ≤ stamp.reportTs ∧
      ∀ a ∈ row.result.availableAt, ∃ b ∈ stamp.availableAt, b ≤ a := by
  obtain ⟨viewDef, hv, hr⟩ := compute_sound row.computed
  obtain ⟨-, c, f, he, -, e⟩ := hr row.name row.result row.isResult
  constructor
  · obtain ⟨src, stamp, hu, hs, ht⟩ := he.data_ts_used rfl
    exact ⟨stamp, ⟨viewDef, src, hv, hu, hs⟩, by rw [ht, e]; rfl⟩
  · rintro stamp ⟨viewDef', src, hv', hu, hs⟩
    cases hv.symm.trans hv'
    obtain ⟨stamp', hs', hle, hav⟩ := hu.bounds rfl he
    cases hs.symm.trans hs'
    rw [e]
    exact ⟨hle, hav⟩

/-- Known availabilities of used stamps are not after the clock by which the row is selected. -/
theorem ComputedRow.available_le (row : ComputedRow) (h : row.AvailableWhenComputed) {stamp : SourceStamp}
    (hu : row.Used stamp) {a : Int} (ha : a ∈ stamp.availableAt) : a ≤ effectiveAvailable row.result := by
  cases hr : row.result.availableAt with
  | none =>
    have hc : row.result.calcTs = row.calcTs := by
      obtain ⟨viewDef, -, hres⟩ := compute_sound row.computed
      obtain ⟨-, c, f, -, -, e⟩ := hres row.name row.result row.isResult
      rw [e]; rfl
    rw [effectiveAvailable, hr, Option.getD_none, hc]
    exact h stamp hu a ha
  | some b =>
    obtain ⟨b', hb', hle⟩ := (row.summary.2 stamp hu).2 b hr
    rw [effectiveAvailable, hr, Option.getD_some]
    cases (Option.mem_def.mp ha).symm.trans hb'
    exact hle

/-- A cell shows the value of a computed row; its event time, that of the oldest used stamp, respects the
safety gap, and everything known to have become available did so by the observation. -/
theorem training_cell_sources (history : List ComputedRow) (hcalc : ∀ row ∈ history, row.AvailableWhenComputed)
    (view : FeatureViewDef) (viewVersion : Int) (policy : String) (gap : Int) (names : List String)
    (observations : List TrainingObservation) (ds : TrainingDataset)
    (h : buildTrainingDataset (history.map ComputedRow.record) view viewVersion policy gap names observations = .ok ds) :
    ∀ row ∈ ds.rows, ∀ name cell, (name, cell) ∈ row.featureMetadata → cell.status = .ok →
      ∃ source ∈ history, cell = okCell source.result ∧
        (∃ stamp, source.Used stamp ∧ stamp.reportTs = source.result.dataTs) ∧
        (∀ stamp, source.Used stamp → source.result.dataTs ≤ stamp.reportTs) ∧
        source.result.dataTs ≤ row.observationTs - gap ∧
        ∀ stamp, source.Used stamp → ∀ a ∈ stamp.availableAt, a ≤ row.observationTs ∧
          (stamp.reportTs ≤ a → stamp.reportTs ≤ row.observationTs) := by
  intro row hrow name cell hcell hok
  obtain ⟨rec, hrec, e, hdata, havail⟩ := buildTrainingDataset_from h row hrow name cell hcell hok
  obtain ⟨source, hsource, rfl⟩ := List.mem_map.mp hrec
  refine ⟨source, hsource, e, source.summary.1, fun stamp hu => (source.summary.2 stamp hu).1, hdata, ?_⟩
  intro stamp hu a ha
  have hle := source.available_le (hcalc source hsource) hu ha
  exact ⟨le_trans hle havail, fun hra => le_trans hra (le_trans hle havail)⟩

/-! ## A cell with a newer source -/

def pairFeature : FeatureDef where
  name := "pair"
  kind := .udf
  featureVersion := 1
  udf := "u.pair"
  dtype := "int"
  status := "live"
  inputs := ["a", "b"]
  lifecycle := .live
  ok := by decide

def pairView : FeatureViewDef where
  name := "risk"
  entity := "user"
  keyFields := ["user_id"]
  viewVersion := 1
  owner := "o"
  status := "live"
  features := [pairFeature]
  ok := by decide
  groups_nodup := by exact List.nodup_nil

def pairTable : List (List JsonTok × String) :=
  [(canonicalValueJson (.int 1), "6b86b273ff34fce19d6b804eff5a3f5747ada4eaa22f1d49c01e52ddb7875b4b"),
   (fingerprintText [("source:a", 0, "ha"), ("source:b", 40, "hb")],
    "53c5bdaacdc3577138de3a41ea551c540f0b36af957a0c620237da588b84b885")]

def pairCore : ComputeCore where
  registry := userRegistry pairView
  udfs := [("u.pair", fun _ _ => .ok (.int 1))]
  sha256 := digestTable pairTable

def stampNew : SourceStamp := { reportTs := 40, contentHash := "hb", hash_ok := by decide }

theorem stampOld_ok : isBlank "ha" = false := rfl

def pairStamps : SourceStamps := [("a", { reportTs := 0, contentHash := "ha", hash_ok := stampOld_ok }), ("b", stampNew)]

def pairOut : Except PyErr (List (String × FeatureResult) × RequestContext) :=
  pairCore.compute "risk" 1 userKey ["pair"] ⟨fun _ => .ok (.int 0), [], [], []⟩ pairStamps 45

def pairRow : ComputedRow where
  core := pairCore
  view := "risk"
  viewVersion := 1
  entityKey := userKey
  requested := ["pair"]
  loader := fun _ => .ok (.int 0)
  stamps := pairStamps
  calcTs := 45
  results := (okGet pairOut (by decide)).1
  ctx := (okGet pairOut (by decide)).2
  computed := eq_ok_okGet pairOut (by decide)
  name := "pair"
  result := ((Dict.get? (okGet pairOut (by decide)).1 "pair").get (by decide))
  isResult := (Option.some_get _).symm

def pairDataset : Except PyErr TrainingDataset :=
  buildTrainingDataset [pairRow.record] pairView 1 "keep_null" 20 ["pair"]
    [{ entity := [("user_id", "1")], observationTs := 50 }]

theorem pairRow_available : pairRow.AvailableWhenComputed := by
  rintro stamp ⟨-, src, -, -, hs⟩ a ha
  have hn : ∀ p ∈ pairStamps, p.2.availableAt = none := by decide
  rw [hn _ (Dict.mem_of_get? hs)] at ha
  cases ha

/-- Two inputs, one of them inside the safety gap: the older one makes the row eligible. -/
theorem training_cell_newer_source : ∃ ds row cell, validateRegistry pairRow.core.registry = .ok () ∧
    pairRow.AvailableWhenComputed ∧ pairDataset = .ok ds ∧ row ∈ ds.rows ∧
    row.featureMetadata = [("pair", cell)] ∧ cell = okCell pairRow.result ∧ cell.status = .ok ∧
    pairRow.Used stampNew ∧ ¬ stampNew.reportTs ≤ row.observationTs - 20 := by
  refine ⟨_, ⟨[("user_id", "1")], 50, none, [("pair", .int 1)], [("pair", okCell pairRow.result)]⟩, _,
    by decide +kernel, pairRow_available, eq_ok_okGet pairDataset (by decide +kernel), List.mem_singleton.mpr rfl, rfl,
    rfl, rfl, ?_, by decide⟩
  exact ⟨pairView, "b", rfl, .source (f := pairFeature) rfl (by decide), by decide⟩

theorem training_cell_sources_pair : ∃ ds, pairDataset = .ok ds ∧ ∀ row ∈ ds.rows, ∀ name cell,
    (name, cell) ∈ row.featureMetadata → cell.status = .ok → ∃ source ∈ [pairRow], cell = okCell source.result ∧
      (∃ stamp, source.Used stamp ∧ stamp.reportTs = source.result.dataTs) ∧
      (∀ stamp, source.Used stamp → source.result.dataTs ≤ stamp.reportTs) ∧
      source.result.dataTs ≤ row.observationTs - 20 ∧
      ∀ stamp, source.Used stamp → ∀ a ∈ stamp.availableAt, a ≤ row.observationTs ∧
        (stamp.reportTs ≤ a → stamp.reportTs ≤ row.observationTs) :=
  ⟨_, eq_ok_okGet pairDataset (by decide +kernel),
    training_cell_sources [pairRow] (fun row hm => List.mem_singleton.mp hm ▸ pairRow_available) pairView 1 "keep_null" 20
      ["pair"] _ _ (eq_ok_okGet pairDataset (by decide +kernel))⟩

end ClearFeature
