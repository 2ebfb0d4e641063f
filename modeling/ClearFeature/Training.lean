import ClearFeature.Pit
import ClearFeature.Registry

/-!
# Training datasets (`fs_core/training.py`)

For each observation and feature, the latest row of the offline history that is
eligible at that observation.
-/

namespace ClearFeature

inductive TrainingCellStatus where
  | ok
  | missing
  deriving DecidableEq, Repr

structure TrainingObservation where
  entity : List (String × String)
  observationTs : Int
  context : Option (List (String × Value)) := none

structure TrainingFeatureCell where
  status : TrainingCellStatus
  value : Value
  featureVersion : Option Int
  dataTs : Option Int

structure TrainingDatasetRow where
  entity : List (String × String)
  observationTs : Int
  context : Option (List (String × Value))
  features : List (String × Value)
  featureMetadata : List (String × TrainingFeatureCell)

structure TrainingSummary where
  rows : Nat
  features : Nat
  missingValues : Nat
  futureRecordsIgnored : Nat
  safetyGapSeconds : Int
  deriving DecidableEq

structure TrainingDataset where
  rows : List TrainingDatasetRow
  summary : TrainingSummary

structure TrainingCounts where
  missingValues : Nat := 0
  futureRecordsIgnored : Nat := 0
  deriving DecidableEq

def featureVersions (byName : List (String × FeatureDef)) : List (String × Int) → List String →
    Except PyErr (List (String × Int))
  | versions, [] => .ok versions
  | versions, name :: names =>
    match Dict.get? byName name with
    | none => .error (.valueError s!"unknown feature {reprStr name}")
    | some f => featureVersions byName (Dict.set versions name f.featureVersion) names

/-- `{field: entity[field] for field in key_fields}`. -/
def keyFieldsOf (entity : List (String × String)) : List String → Except PyErr (List (String × String))
  | [] => .ok []
  | field :: fields =>
    match Dict.get? entity field with
    | none => .error (.keyError (reprStr field))
    | some v => do
      let rest ← keyFieldsOf entity fields
      .ok ((field, v) :: rest)

def okCell (r : FeatureResult) : TrainingFeatureCell := ⟨.ok, r.value, some r.ref.version, some r.dataTs⟩

def missingCell : TrainingFeatureCell := ⟨.missing, .null, none, none⟩

section
variable (offline : OfflineStore) (view : FeatureViewDef) (viewVersion : Int) (missingPolicy : String) (safetyGap : Int)

/-- The cells of one observation, with the columns filled so far. -/
def trainingCells (obs : TrainingObservation) (entityKey : EntityKey) (versions : List (String × Int)) :
    List String → List (String × TrainingFeatureCell) → TrainingCounts →
    Except PyErr (List (String × TrainingFeatureCell) × TrainingCounts)
  | [], cells, counts => .ok (cells, counts)
  | name :: names, cells, counts =>
    match Dict.get? versions name with
    | none => .error (.keyError (reprStr name))
    | some version => do
      let recs := offline.get entityKey (some name) (some version) (some view.name) (some viewVersion)
      let (selected, ignored) ← selectPit recs obs.observationTs safetyGap
      let counts := { counts with futureRecordsIgnored := counts.futureRecordsIgnored + ignored }
      match selected with
      | none => do
        raiseIf (missingPolicy = "error") s!"missing feature {reprStr name} for observation"
        trainingCells obs entityKey versions names (Dict.set cells name missingCell)
          { counts with missingValues := counts.missingValues + 1 }
      | some rec => trainingCells obs entityKey versions names (Dict.set cells name (okCell rec.result)) counts

def trainingRow (obs : TrainingObservation) (versions : List (String × Int)) (names : List String)
    (counts : TrainingCounts) : Except PyErr (TrainingDatasetRow × TrainingCounts) := do
  let parts ← keyFieldsOf obs.entity view.keyFields
  let entityKey ← EntityKey.fromMapping parts (some view.keyFields)
  let (cells, counts) ← trainingCells offline view viewVersion missingPolicy safetyGap obs entityKey versions names []
    counts
  .ok (⟨obs.entity, obs.observationTs, obs.context, cells.map fun c => (c.1, c.2.value), cells⟩, counts)

def trainingRows (versions : List (String × Int)) (names : List String) : List TrainingObservation → TrainingCounts →
    Except PyErr (List TrainingDatasetRow × TrainingCounts)
  | [], counts => .ok ([], counts)
  | obs :: observations, counts => do
    let (row, counts) ← trainingRow offline view viewVersion missingPolicy safetyGap obs versions names counts
    let (rows, counts) ← trainingRows versions names observations counts
    .ok (row :: rows, counts)

def buildTrainingDataset (featureNames : List String) (observations : List TrainingObservation) :
    Except PyErr TrainingDataset := do
  raiseIf (missingPolicy ≠ "keep_null" ∧ missingPolicy ≠ "error") s!"unknown missing_policy {reprStr missingPolicy}"
  raiseIf (safetyGap < 0) "safety_gap must be non-negative"
  let versions ← featureVersions (featuresByName view.features) [] featureNames
  let (rows, counts) ← trainingRows offline view viewVersion missingPolicy safetyGap versions featureNames observations {}
  .ok ⟨rows, ⟨rows.length, featureNames.length, counts.missingValues, counts.futureRecordsIgnored, safetyGap / 1000000⟩⟩

end

/-! ## Where a value comes from -/

/-- The cell holds the value of an offline row that is eligible at the observation. -/
def CellFrom (offline : OfflineStore) (obs gap : Int) (cell : TrainingFeatureCell) : Prop :=
  ∃ rec ∈ offline, cell = okCell rec.result ∧ rec.result.dataTs ≤ obs - gap ∧ effectiveAvailable rec.result ≤ obs

section
variable {offline : OfflineStore} {view : FeatureViewDef} {vv : Int} {policy : String} {gap : Int}

theorem trainingCells_from (hg : 0 ≤ gap) {obs : TrainingObservation} {key : EntityKey} {versions : List (String × Int)} :
    ∀ {names : List String} {cells cells' : List (String × TrainingFeatureCell)} {counts counts' : TrainingCounts},
    trainingCells offline view vv policy gap obs key versions names cells counts = .ok (cells', counts') →
    (∀ n cell, (n, cell) ∈ cells → cell.status = .ok → CellFrom offline obs.observationTs gap cell) →
    ∀ n cell, (n, cell) ∈ cells' → cell.status = .ok → CellFrom offline obs.observationTs gap cell
  | [], cells, cells', counts, counts', h, hc => by cases h; exact hc
  | name :: names, cells, cells', counts, counts', h, hc => by
    simp only [trainingCells] at h
    split at h
    · cases h
    · rename_i version _
      simp only [bind_eq_ok] at h
      obtain ⟨⟨selected, ignored⟩, hsel, h⟩ := h
      have hrow := selectPit_pitRow hg hsel
      cases selected with
      | none =>
        simp only [bind_eq_ok] at h
        obtain ⟨_, -, h⟩ := h
        refine trainingCells_from hg h fun n cell hm hok => ?_
        rcases Dict.mem_set_cases hm with e | hm
        · cases e; cases hok
        · exact hc n cell hm hok
      | some rec =>
        refine trainingCells_from hg h fun n cell hm hok => ?_
        rcases Dict.mem_set_cases hm with e | hm
        · cases e
          obtain ⟨hmem, hd, ha⟩ := pitRow_mem hrow.symm
          rw [OfflineStore.get_eq_rows] at hmem
          exact ⟨rec, (OfflineStore.mem_rows.mp hmem).1, rfl, hd, ha⟩
        · exact hc n cell hm hok

theorem trainingRows_from (hg : 0 ≤ gap) {versions : List (String × Int)} {names : List String} :
    ∀ {observations : List TrainingObservation} {counts counts' : TrainingCounts} {rows : List TrainingDatasetRow},
    trainingRows offline view vv policy gap versions names observations counts = .ok (rows, counts') →
    ∀ row ∈ rows, ∀ n cell, (n, cell) ∈ row.featureMetadata → cell.status = .ok →
      CellFrom offline row.observationTs gap cell
  | [], counts, counts', rows, h, row, hm => by cases h; cases hm
  | obs :: observations, counts, counts', rows, h, row, hm => by
    simp only [trainingRows, trainingRow, bind_eq_ok] at h
    obtain ⟨⟨r, c₁⟩, ⟨parts, -, key, -, ⟨cells, c₂⟩, hcells, hr⟩, ⟨rest, c₃⟩, hrest, h⟩ := h
    cases hr
    cases h
    rcases List.mem_cons.mp hm with rfl | hm
    · exact trainingCells_from hg hcells (by simp)
    · exact trainingRows_from hg hrest row hm

theorem buildTrainingDataset_from {names : List String} {observations : List TrainingObservation} {ds : TrainingDataset}
    (h : buildTrainingDataset offline view vv policy gap names observations = .ok ds) :
    ∀ row ∈ ds.rows, ∀ n cell, (n, cell) ∈ row.featureMetadata → cell.status = .ok →
      CellFrom offline row.observationTs gap cell := by
  simp only [buildTrainingDataset, bind_eq_ok, raiseIf_eq_ok] at h
  obtain ⟨_, -, _, hg, versions, -, ⟨rows, counts⟩, hr, h⟩ := h
  cases h
  exact trainingRows_from (by omega) hr

end

end ClearFeature
