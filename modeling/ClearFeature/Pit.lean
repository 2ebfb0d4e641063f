import ClearFeature.Stores
import ClearFeature.Lib.LastMax

/-!
# Point-in-time selection (`fs_core/pit.py`)

A row may be used for an observation when its event time is at least the safety
gap before it and it was available by then; the latest such row is selected.
-/

namespace ClearFeature

def effectiveDataCutoff (observationTs safetyGap : Int) : Except PyErr Int := do
  raiseIf (safetyGap < 0) "safety_gap must be non-negative"
  .ok (observationTs - safetyGap)

/-- The availability clock of a row: its own, else the time it was computed. -/
def effectiveAvailable (r : FeatureResult) : Int := r.availableAt.getD r.calcTs

def isPitEligible (rec : OfflineFeatureRecord) (observationTs safetyGap : Int) : Except PyErr Bool := do
  let cutoff ← effectiveDataCutoff observationTs safetyGap
  .ok (decide (rec.result.dataTs ≤ cutoff) && decide (effectiveAvailable rec.result ≤ observationTs))

/-- `(data_ts, calc_ts)`. -/
def pitKey (rec : OfflineFeatureRecord) : Int ×ₗ Int := toLex (rec.result.dataTs, rec.result.calcTs)

/-- The loop of `select_pit`, with the selected row and the count so far. -/
def selectPitLoop (observationTs safetyGap : Int) : List OfflineFeatureRecord →
    Option OfflineFeatureRecord → Nat → Except PyErr (Option OfflineFeatureRecord × Nat)
  | [], selected, ignored => .ok (selected, ignored)
  | rec :: recs, selected, ignored => do
    let ignored := if rec.result.dataTs > observationTs then ignored + 1 else ignored
    let eligible ← isPitEligible rec observationTs safetyGap
    if eligible then
      selectPitLoop observationTs safetyGap recs (LastMax.step pitKey selected rec) ignored
    else selectPitLoop observationTs safetyGap recs selected ignored

def selectPit (recs : List OfflineFeatureRecord) (observationTs safetyGap : Int) :
    Except PyErr (Option OfflineFeatureRecord × Nat) :=
  selectPitLoop observationTs safetyGap recs none 0

def OfflineStore.getPit (history : OfflineStore) (entityKey : EntityKey) (featureName : String) (featureVersion : Int)
    (view : String) (viewVersion : Int) (observationTs safetyGap : Int) :
    Except PyErr (Option OfflineFeatureRecord) := do
  let recs := history.get entityKey (some featureName) (some featureVersion) (some view) (some viewVersion)
  let (selected, _) ← selectPit recs observationTs safetyGap
  .ok selected

/-! ## The selection in closed form -/

/-- Eligibility for a gap that is not negative. -/
def eligible (observationTs safetyGap : Int) (rec : OfflineFeatureRecord) : Bool :=
  decide (rec.result.dataTs ≤ observationTs - safetyGap) && decide (effectiveAvailable rec.result ≤ observationTs)

theorem isPitEligible_eq {rec : OfflineFeatureRecord} {obs gap : Int} (hg : 0 ≤ gap) :
    isPitEligible rec obs gap = .ok (eligible obs gap rec) := by
  have h : raiseIf (gap < 0) "safety_gap must be non-negative" = .ok () := raiseIf_eq_ok.mpr (by omega)
  simp only [isPitEligible, effectiveDataCutoff, h, ok_bind]
  rfl

theorem selectPitLoop_eq {obs gap : Int} (hg : 0 ≤ gap) : ∀ (recs : List OfflineFeatureRecord)
    (selected : Option OfflineFeatureRecord) (ignored : Nat),
    ∃ n, selectPitLoop obs gap recs selected ignored =
      .ok ((recs.filter (eligible obs gap)).foldl (LastMax.step pitKey) selected, n)
  | [], selected, ignored => ⟨ignored, rfl⟩
  | rec :: recs, selected, ignored => by
    simp only [selectPitLoop, isPitEligible_eq hg, ok_bind]
    by_cases h : eligible obs gap rec = true
    · rw [if_pos h, List.filter_cons, if_pos h, List.foldl_cons]
      exact selectPitLoop_eq hg recs _ _
    · rw [if_neg h, List.filter_cons, if_neg h]
      exact selectPitLoop_eq hg recs _ _

theorem selectPit_eq (recs : List OfflineFeatureRecord) (obs : Int) {gap : Int} (hg : 0 ≤ gap) :
    ∃ n, selectPit recs obs gap = .ok (LastMax.lastMax pitKey (recs.filter (eligible obs gap)), n) :=
  selectPitLoop_eq hg recs none 0

def pitRow (recs : List OfflineFeatureRecord) (obs gap : Int) : Option OfflineFeatureRecord :=
  LastMax.lastMax pitKey (recs.filter (eligible obs gap))

theorem pitRow_mem {recs : List OfflineFeatureRecord} {obs gap : Int} {rec : OfflineFeatureRecord}
    (h : pitRow recs obs gap = some rec) : rec ∈ recs ∧ rec.result.dataTs ≤ obs - gap ∧
      effectiveAvailable rec.result ≤ obs := by
  have hm := List.mem_filter.mp (LastMax.mem_of_lastMax _ h)
  simpa [eligible] using hm

theorem selectPit_pitRow {recs : List OfflineFeatureRecord} {obs gap : Int} (hg : 0 ≤ gap)
    {out : Option OfflineFeatureRecord × Nat} (h : selectPit recs obs gap = .ok out) : out.1 = pitRow recs obs gap := by
  obtain ⟨n, hn⟩ := selectPit_eq recs obs hg
  rw [hn] at h
  cases h
  rfl

theorem getPit_eq {history : OfflineStore} {key : EntityKey} {n : String} {v : Int} {view : String} {vv obs gap : Int}
    (hg : 0 ≤ gap) : history.getPit key n v view vv obs gap =
      .ok (pitRow (history.rows ⟨key.encode, view, vv, n, v⟩) obs gap) := by
  obtain ⟨m, hm⟩ := selectPit_eq (history.rows ⟨key.encode, view, vv, n, v⟩) obs hg
  simp only [OfflineStore.getPit, OfflineStore.get_eq_rows, hm, ok_bind]
  rfl

/-- A negative gap is noticed at the first row of the slot. -/
theorem getPit_negative {history : OfflineStore} {key : EntityKey} {n : String} {v : Int} {view : String} {vv obs gap : Int}
    (hg : gap < 0) : history.getPit key n v view vv obs gap = .ok none ∨
      history.getPit key n v view vv obs gap = .error (.valueError "safety_gap must be non-negative") := by
  unfold OfflineStore.getPit selectPit
  cases history.get key (some n) (some v) (some view) (some vv) with
  | nil => exact .inl rfl
  | cons rec recs =>
    have h : raiseIf (gap < 0) "safety_gap must be non-negative" = .error (.valueError "safety_gap must be non-negative") :=
      if_pos hg
    refine .inr ?_
    simp only [selectPitLoop, isPitEligible, effectiveDataCutoff, h, error_bind]

end ClearFeature
