import ClearFeature.EntityKeys
import ClearFeature.Dedup
import ClearFeature.Lib.OrderBy

/-!
# The Postgres offline store (`fs_core/stores/postgres_offline.py`)

Each record is a row of `features_offline`, numbered in append order. The
point-in-time query filters and sorts in the database. It selects the row of
the record that the in-memory store selects.
-/

namespace ClearFeature

/-- A row of `features_offline`. -/
structure OfflineRow where
  rowId : Nat
  entityKey : List (String × String)
  entityKeyEncoded : String
  view : String
  viewVersion : Int
  featureName : String
  featureVersion : Int
  valueJson : Value
  dataTs : Int
  calcTs : Int
  maxInputDataTs : Option Int
  inputFingerprint : Option String
  valueHash : Option String
  modelUri : Option String
  modelDigest : Option String
  modelOutputName : Option String
  bundleDigest : Option String
  availableAt : Option Int
  availabilitySource : Option AvailabilitySource

/-- `jsonb` is what a `JSONB` column gives back for a value. -/
def OfflineFeatureRecord.row (jsonb : Value → Value) (rowId : Nat) (rec : OfflineFeatureRecord) : OfflineRow where
  rowId := rowId
  entityKey := rec.result.entityKey.parts
  entityKeyEncoded := rec.result.entityKey.encode
  view := rec.view
  viewVersion := rec.viewVersion
  featureName := rec.result.ref.name
  featureVersion := rec.result.ref.version
  valueJson := jsonb rec.result.value
  dataTs := rec.result.dataTs
  calcTs := rec.result.calcTs
  maxInputDataTs := rec.result.maxInputDataTs
  inputFingerprint := rec.result.inputFingerprint
  valueHash := rec.result.valueHash
  modelUri := rec.result.modelUri
  modelDigest := rec.result.modelDigest
  modelOutputName := rec.result.modelOutputName
  bundleDigest := rec.result.bundleDigest
  availableAt := rec.result.availableAt
  availabilitySource := rec.result.availabilitySource

def FeatureRef.ofFields (name : String) (version : Int) : Except PyErr FeatureRef :=
  if h : isBlank name = false then
    if hv : 1 ≤ version then .ok ⟨name, version, h, hv⟩ else .error (.valueError "feature version must be >= 1")
  else .error (.valueError "feature name must be non-empty")

/-- `_row_to_record` -/
def OfflineRow.toRecord (row : OfflineRow) : Except PyErr OfflineFeatureRecord :=
  let record : Except PyErr OfflineFeatureRecord := do
    let entityKey ← EntityKey.ofParts row.entityKey
    let ref ← FeatureRef.ofFields row.featureName row.featureVersion
    .ok ⟨row.view, row.viewVersion, {
      ref
      entityKey
      value := row.valueJson
      dataTs := row.dataTs
      calcTs := row.calcTs
      maxInputDataTs := row.maxInputDataTs
      inputFingerprint := row.inputFingerprint
      valueHash := row.valueHash
      modelUri := row.modelUri
      modelDigest := row.modelDigest
      modelOutputName := row.modelOutputName
      bundleDigest := row.bundleDigest
      availableAt := row.availableAt
      availabilitySource := row.availabilitySource }⟩
  match record with
  | .ok record => .ok record
  | .error e => .error (.valueError s!"malformed features_offline row: {e.msg}")

/-- The record with its value as the database gives it back. -/
def OfflineFeatureRecord.stored (jsonb : Value → Value) (rec : OfflineFeatureRecord) : OfflineFeatureRecord :=
  { rec with result := { rec.result with value := jsonb rec.result.value } }

theorem FeatureRef.ofFields_ref (ref : FeatureRef) : FeatureRef.ofFields ref.name ref.version = .ok ref := by
  unfold FeatureRef.ofFields
  rw [dif_pos ref.name_ok, dif_pos ref.version_ok]

theorem toRecord_row (jsonb : Value → Value) (rowId : Nat) (rec : OfflineFeatureRecord) :
    (rec.row jsonb rowId).toRecord = .ok (rec.stored jsonb) := by
  simp only [OfflineRow.toRecord, OfflineFeatureRecord.row, EntityKey.ofParts_parts, FeatureRef.ofFields_ref, ok_bind]
  rfl

/-! ## The query -/

/-- The parameters of the query. -/
structure PitQuery where
  entityKeyEncoded : String
  view : String
  viewVersion : Int
  featureName : String
  featureVersion : Int
  cutoff : Int
  observationTs : Int

/-- The `WHERE` clause; `COALESCE(available_at, calc_ts)` is the first that is not null. -/
def PitQuery.accepts (q : PitQuery) (row : OfflineRow) : Bool :=
  decide (row.entityKeyEncoded = q.entityKeyEncoded) && decide (row.view = q.view) &&
    decide (row.viewVersion = q.viewVersion) && decide (row.featureName = q.featureName) &&
    decide (row.featureVersion = q.featureVersion) && decide (row.dataTs ≤ q.cutoff) &&
    decide (row.availableAt.getD row.calcTs ≤ q.observationTs)

/-- `(data_ts, calc_ts, row_id)`, read with falling order. -/
def OfflineRow.orderKey (row : OfflineRow) : (Int ×ₗ Int) ×ₗ Nat := toLex (toLex (row.dataTs, row.calcTs), row.rowId)

def PitQuery.run (q : PitQuery) (table : List OfflineRow) : Option OfflineRow :=
  OrderBy.limitOne OfflineRow.orderKey (table.filter q.accepts)

def pitQuery (entityKey : EntityKey) (featureName : String) (featureVersion : Int) (view : String) (viewVersion : Int)
    (observationTs safetyGap : Int) : PitQuery :=
  ⟨entityKey.encode, view, viewVersion, featureName, featureVersion, observationTs - safetyGap, observationTs⟩

/-- `PostgresOfflineStore.get_pit` -/
def postgresGetPit (table : List OfflineRow) (entityKey : EntityKey) (featureName : String) (featureVersion : Int)
    (view : String) (viewVersion : Int) (observationTs safetyGap : Int) :
    Except PyErr (Option OfflineFeatureRecord) := do
  raiseIf (safetyGap < 0) "safety_gap must be non-negative"
  match (pitQuery entityKey featureName featureVersion view viewVersion observationTs safetyGap).run table with
  | none => .ok none
  | some row => do
    let rec ← row.toRecord
    .ok (some rec)

/-! ## The same row -/

section
variable (entityKey : EntityKey) (featureName : String) (featureVersion : Int) (view : String) (viewVersion : Int)
  (observationTs safetyGap : Int)

theorem accepts_row (jsonb : Value → Value) (rowId : Nat) (rec : OfflineFeatureRecord) :
    (pitQuery entityKey featureName featureVersion view viewVersion observationTs safetyGap).accepts
      (rec.row jsonb rowId) =
    (decide (rec.slot = ⟨entityKey.encode, view, viewVersion, featureName, featureVersion⟩) &&
      eligible observationTs safetyGap rec) := by
  have h : (pitQuery entityKey featureName featureVersion view viewVersion observationTs safetyGap).accepts
      (rec.row jsonb rowId) = (decide (rec.result.entityKey.encode = entityKey.encode) && decide (rec.view = view) &&
      decide (rec.viewVersion = viewVersion) && decide (rec.result.ref.name = featureName) &&
      decide (rec.result.ref.version = featureVersion) &&
      decide (rec.result.dataTs ≤ observationTs - safetyGap) &&
      decide (effectiveAvailable rec.result ≤ observationTs)) := rfl
  rw [h, Bool.eq_iff_iff]
  simp only [OfflineFeatureRecord.slot, FeatureResult.slot, eligible, Bool.and_eq_true, decide_eq_true_eq,
    FeatureSlot.mk.injEq]
  tauto

/-- Row numbers follow the order of appending; the table may keep its rows in any order. -/
structure StoredAs (jsonb : Value → Value) (history : List (Nat × OfflineFeatureRecord)) (table : List OfflineRow) :
    Prop where
  numbered : history.Pairwise fun a b => a.1 < b.1
  rows : table.Perm (history.map fun p => p.2.row jsonb p.1)

variable {jsonb : Value → Value} {history : List (Nat × OfflineFeatureRecord)} {table : List OfflineRow}

/-- What both stores select: the latest eligible record of the slot, the last of equals. -/
def selectedPit (history : List (Nat × OfflineFeatureRecord)) : Option (Nat × OfflineFeatureRecord) :=
  OrderBy.limitOne (fun p => toLex (pitKey p.2, p.1)) (history.filter fun p =>
    decide (p.2.slot = ⟨entityKey.encode, view, viewVersion, featureName, featureVersion⟩) &&
      eligible observationTs safetyGap p.2)

theorem run_selected (hs : StoredAs jsonb history table) :
    (pitQuery entityKey featureName featureVersion view viewVersion observationTs safetyGap).run table =
      (selectedPit entityKey featureName featureVersion view viewVersion observationTs safetyGap history).map
        fun p => p.2.row jsonb p.1 := by
  have hd := OrderBy.distinct_of_numbered (fun p : Nat × OfflineFeatureRecord => pitKey p.2) (fun p => p.1)
    (hs.numbered.filter fun p =>
      decide (p.2.slot = ⟨entityKey.encode, view, viewVersion, featureName, featureVersion⟩) &&
        eligible observationTs safetyGap p.2)
  have hrows := hs.rows.filter
    (pitQuery entityKey featureName featureVersion view viewVersion observationTs safetyGap).accepts
  have haccepts : ((pitQuery entityKey featureName featureVersion view viewVersion observationTs safetyGap).accepts ∘
      fun p : Nat × OfflineFeatureRecord => p.2.row jsonb p.1) = fun p =>
      decide (p.2.slot = ⟨entityKey.encode, view, viewVersion, featureName, featureVersion⟩) &&
        eligible observationTs safetyGap p.2 :=
    funext fun p => accepts_row entityKey featureName featureVersion view viewVersion observationTs safetyGap jsonb p.1 p.2
  rw [List.filter_map, haccepts] at hrows
  unfold PitQuery.run selectedPit
  rw [← OrderBy.limitOne_perm OfflineRow.orderKey (hd.map OfflineRow.orderKey _) hrows.symm]
  exact OrderBy.limitOne_map OfflineRow.orderKey _ hd

theorem memory_selected (hs : StoredAs jsonb history table) (hg : 0 ≤ safetyGap) :
    OfflineStore.getPit (history.map Prod.snd) entityKey featureName featureVersion view viewVersion observationTs
      safetyGap =
    .ok ((selectedPit entityKey featureName featureVersion view viewVersion observationTs safetyGap history).map
      Prod.snd) := by
  rw [getPit_eq hg]
  unfold pitRow OfflineStore.rows
  have hfilter : ((history.map Prod.snd).filter fun rec =>
      decide (rec.slot = ⟨entityKey.encode, view, viewVersion, featureName, featureVersion⟩)).filter
        (eligible observationTs safetyGap) =
      (history.filter fun p =>
        decide (p.2.slot = ⟨entityKey.encode, view, viewVersion, featureName, featureVersion⟩) &&
          eligible observationTs safetyGap p.2).map Prod.snd := by
    rw [List.filter_filter, List.filter_map]
    exact congrArg _ (List.filter_congr fun p _ => Bool.and_comm _ _)
  rw [hfilter, OrderBy.lastMax_map, OrderBy.lastMax_eq_limitOne _ _ (hs.numbered.filter _)]
  rfl

end

/-- For a gap that both accept they select one record, the newest row of the query; a negative gap is refused by the
query, and by the scan once it meets a record of the slot. -/
theorem stores_select_same_record (jsonb : Value → Value) (history : List (Nat × OfflineFeatureRecord))
    (table : List OfflineRow) (hs : StoredAs jsonb history table) (entityKey : EntityKey) (featureName : String)
    (featureVersion : Int) (view : String) (viewVersion observationTs safetyGap : Int) :
    (0 ≤ safetyGap → ∃ selected : Option (Nat × OfflineFeatureRecord), (∀ p ∈ selected, p ∈ history) ∧
      OfflineStore.getPit (history.map Prod.snd) entityKey featureName featureVersion view viewVersion observationTs
        safetyGap = .ok (selected.map Prod.snd) ∧
      (pitQuery entityKey featureName featureVersion view viewVersion observationTs safetyGap).run table =
        selected.map (fun p => p.2.row jsonb p.1) ∧
      postgresGetPit table entityKey featureName featureVersion view viewVersion observationTs safetyGap =
        .ok (selected.map fun p => p.2.stored jsonb)) ∧
    (safetyGap < 0 → postgresGetPit table entityKey featureName featureVersion view viewVersion observationTs
        safetyGap = .error (.valueError "safety_gap must be non-negative") ∧
      (OfflineStore.getPit (history.map Prod.snd) entityKey featureName featureVersion view viewVersion observationTs
          safetyGap = .ok none ∨
        OfflineStore.getPit (history.map Prod.snd) entityKey featureName featureVersion view viewVersion observationTs
          safetyGap = .error (.valueError "safety_gap must be non-negative"))) := by
  constructor
  · intro hg
    refine ⟨selectedPit entityKey featureName featureVersion view viewVersion observationTs safetyGap history, ?_,
      memory_selected entityKey featureName featureVersion view viewVersion observationTs safetyGap hs hg,
      run_selected entityKey featureName featureVersion view viewVersion observationTs safetyGap hs, ?_⟩
    · intro p hp
      exact List.mem_of_mem_filter (OrderBy.limitOne_greatest _ hp).1
    · have hgap : raiseIf (safetyGap < 0) "safety_gap must be non-negative" = .ok () := raiseIf_eq_ok.mpr (by omega)
      unfold postgresGetPit
      rw [hgap, ok_bind, run_selected entityKey featureName featureVersion view viewVersion observationTs safetyGap hs]
      cases selectedPit entityKey featureName featureVersion view viewVersion observationTs safetyGap history with
      | none => rfl
      | some p => simp only [Option.map_some, toRecord_row, ok_bind]
  · intro hneg
    refine ⟨?_, getPit_negative hneg⟩
    unfold postgresGetPit raiseIf
    rw [if_pos hneg, error_bind]

/-! ## Ties and missing availability -/

def pitScore (value dataTs calcTs : Int) (availableAt : Option Int) : OfflineFeatureRecord :=
  ⟨"risk", 1, {
    ref := ⟨"score", 1, scoreRef.name_ok, scoreRef.version_ok⟩
    entityKey := userKey
    value := .int value
    dataTs := dataTs
    calcTs := calcTs
    availableAt := availableAt }⟩

/-- A row computed late but available early, two rows of one event and calculation time, and one not yet available. -/
def pitScores : List (Nat × OfflineFeatureRecord) :=
  [(1, pitScore 10 5 90 (some 6)), (4, pitScore 20 7 8 none), (5, pitScore 30 7 8 (some 9)), (9, pitScore 40 7 50 none)]

theorem pitScores_stored : StoredAs id pitScores (pitScores.map fun p => p.2.row id p.1).reverse :=
  ⟨by decide, List.reverse_perm _⟩

theorem stores_select_same_record_scores :
    (0 ≤ (1 : Int) → ∃ selected : Option (Nat × OfflineFeatureRecord), (∀ p ∈ selected, p ∈ pitScores) ∧
      OfflineStore.getPit (pitScores.map Prod.snd) userKey "score" 1 "risk" 1 10 1 = .ok (selected.map Prod.snd) ∧
      (pitQuery userKey "score" 1 "risk" 1 10 1).run (pitScores.map fun p => p.2.row id p.1).reverse =
        selected.map (fun p => p.2.row id p.1) ∧
      postgresGetPit (pitScores.map fun p => p.2.row id p.1).reverse userKey "score" 1 "risk" 1 10 1 =
        .ok (selected.map fun p => p.2.stored id)) ∧
    ((1 : Int) < 0 →
      postgresGetPit (pitScores.map fun p => p.2.row id p.1).reverse userKey "score" 1 "risk" 1 10 1 =
        .error (.valueError "safety_gap must be non-negative") ∧
      (OfflineStore.getPit (pitScores.map Prod.snd) userKey "score" 1 "risk" 1 10 1 = .ok none ∨
        OfflineStore.getPit (pitScores.map Prod.snd) userKey "score" 1 "risk" 1 10 1 =
          .error (.valueError "safety_gap must be non-negative"))) :=
  stores_select_same_record id pitScores _ pitScores_stored userKey "score" 1 "risk" 1 10 1

end ClearFeature
