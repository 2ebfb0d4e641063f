import ClearFeature.Training
import ClearFeature.Freshness

/-!
# A training dataset and rows it must not see

Two runs over histories that differ by rows eligible for no observation. Each
selection sees the same eligible rows in the same order, so only the count of
ignored rows can differ.
-/

namespace ClearFeature

/-- The second list is the first with further elements put in anywhere. -/
inductive Inserted {α : Type} (p : α → Prop) : List α → List α → Prop where
  | nil : Inserted p [] []
  | keep {l l' : List α} (a : α) : Inserted p l l' → Inserted p (a :: l) (a :: l')
  | insert {l l' : List α} {a : α} : p a → Inserted p l l' → Inserted p l (a :: l')

namespace Inserted
variable {α : Type} {p : α → Prop} {l l' : List α}

theorem imp {q : α → Prop} (h : Inserted p l l') (hpq : ∀ a, p a → q a) : Inserted q l l' := by
  induction h with
  | nil => exact .nil
  | keep a _ ih => exact .keep a ih
  | insert ha _ ih => exact .insert (hpq _ ha) ih

theorem filter (h : Inserted p l l') (r : α → Bool) : Inserted p (l.filter r) (l'.filter r) := by
  induction h with
  | nil => exact .nil
  | keep a _ ih =>
    by_cases hr : r a = true
    · rw [List.filter_cons_of_pos hr, List.filter_cons_of_pos hr]
      exact .keep a ih
    · rw [List.filter_cons_of_neg hr, List.filter_cons_of_neg hr]
      exact ih
  | @insert _ _ a ha _ ih =>
    by_cases hr : r a = true
    · rw [List.filter_cons_of_pos hr]
      exact .insert ha ih
    · rw [List.filter_cons_of_neg hr]
      exact ih

/-- A filter that drops what was put in gives the same list. -/
theorem filter_eq (h : Inserted p l l') {r : α → Bool} (hr : ∀ a, p a → r a = false) : l'.filter r = l.filter r := by
  induction h with
  | nil => rfl
  | keep a _ ih => rw [List.filter_cons, List.filter_cons, ih]
  | insert ha _ ih =>
    rw [List.filter_cons_of_neg (by simp [hr _ ha])]
    exact ih

end Inserted

/-- Too recent for the observation, or not yet available at it. -/
def IneligibleAt (observationTs safetyGap : Int) (rec : OfflineFeatureRecord) : Prop :=
  observationTs - safetyGap < rec.result.dataTs ∨ observationTs < effectiveAvailable rec.result

instance (observationTs safetyGap : Int) (rec : OfflineFeatureRecord) :
    Decidable (IneligibleAt observationTs safetyGap rec) := inferInstanceAs (Decidable (_ ∨ _))

theorem IneligibleAt.eligible_false {obs gap : Int} {rec : OfflineFeatureRecord} (h : IneligibleAt obs gap rec) :
    eligible obs gap rec = false := by
  unfold eligible
  rcases h with h | h
  · rw [decide_eq_false (by omega), Bool.false_and]
  · rw [decide_eq_false (not_le_of_gt h), Bool.and_false]

/-! ## What both runs have in common -/

/-- A result with the missing values counted so far; the other counter is left out. -/
def seen {α : Type} (x : α × TrainingCounts) : α × Nat := (x.1, x.2.missingValues)

theorem seen_bind {α β : Type} {x x' : Except PyErr (α × TrainingCounts)}
    {k k' : α × TrainingCounts → Except PyErr (β × TrainingCounts)} (hx : x'.map seen = x.map seen)
    (hk : ∀ a c c', c'.missingValues = c.missingValues → (k' (a, c')).map seen = (k (a, c)).map seen) :
    (x' >>= k').map seen = (x >>= k).map seen := by
  cases x with
  | error e =>
    cases x' with
    | error e' =>
      cases hx
      rfl
    | ok a' => cases hx
  | ok a =>
    cases x' with
    | error e' => cases hx
    | ok a' =>
      obtain ⟨a, c⟩ := a
      obtain ⟨a', c'⟩ := a'
      have he : (a', c'.missingValues) = (a, c.missingValues) := Except.ok.inj hx
      obtain ⟨rfl, hc⟩ := Prod.mk.inj he
      exact hk a' c c' hc

section
variable {history history' : OfflineStore} (view : FeatureViewDef) (vv : Int) (policy : String) {gap : Int}

theorem selectPit_inserted (hg : 0 ≤ gap) {obs : Int} (hi : Inserted (IneligibleAt obs gap) history history')
    (key : EntityKey) (n : String) (v : Int) :
    ∃ selected ignored ignored',
      selectPit (history.get key (some n) (some v) (some view.name) (some vv)) obs gap = .ok (selected, ignored) ∧
      selectPit (history'.get key (some n) (some v) (some view.name) (some vv)) obs gap = .ok (selected, ignored') := by
  obtain ⟨ignored, h⟩ := selectPit_eq (history.get key (some n) (some v) (some view.name) (some vv)) obs hg
  obtain ⟨ignored', h'⟩ := selectPit_eq (history'.get key (some n) (some v) (some view.name) (some vv)) obs hg
  rw [OfflineStore.get_eq_rows] at h h'
  unfold OfflineStore.rows at h h'
  rw [(hi.filter _).filter_eq fun rec hrec => hrec.eligible_false] at h'
  rw [OfflineStore.get_eq_rows, OfflineStore.get_eq_rows]
  exact ⟨_, ignored, ignored', h, h'⟩

theorem trainingCells_inserted (hg : 0 ≤ gap) {obs : TrainingObservation}
    (hi : Inserted (IneligibleAt obs.observationTs gap) history history') (key : EntityKey)
    (versions : List (String × Int)) : ∀ (names : List String) (cells : List (String × TrainingFeatureCell))
    (counts counts' : TrainingCounts), counts'.missingValues = counts.missingValues →
    (trainingCells history' view vv policy gap obs key versions names cells counts').map seen =
      (trainingCells history view vv policy gap obs key versions names cells counts).map seen
  | [], cells, counts, counts', hc => congrArg (fun n => Except.ok (cells, n)) hc
  | name :: names, cells, counts, counts', hc => by
    unfold trainingCells
    cases Dict.get? versions name with
    | none => rfl
    | some version =>
      obtain ⟨selected, ignored, ignored', h, h'⟩ := selectPit_inserted view vv hg hi key name version
      dsimp only
      rw [h, h', ok_bind, ok_bind]
      cases selected with
      | some rec => exact trainingCells_inserted hg hi key versions names _ _ _ hc
      | none =>
        dsimp only
        cases raiseIf (policy = "error") s!"missing feature {reprStr name} for observation" with
        | error e => rfl
        | ok _ => exact trainingCells_inserted hg hi key versions names _ _ _ (congrArg (· + 1) hc)

theorem trainingRow_inserted (hg : 0 ≤ gap) {obs : TrainingObservation}
    (hi : Inserted (IneligibleAt obs.observationTs gap) history history') (versions : List (String × Int))
    (names : List String) (counts counts' : TrainingCounts) (hc : counts'.missingValues = counts.missingValues) :
    (trainingRow history' view vv policy gap obs versions names counts').map seen =
      (trainingRow history view vv policy gap obs versions names counts).map seen := by
  unfold trainingRow
  cases keyFieldsOf obs.entity view.keyFields with
  | error e => rfl
  | ok parts =>
    rw [ok_bind, ok_bind]
    cases EntityKey.fromMapping parts (some view.keyFields) with
    | error e => rfl
    | ok key =>
      rw [ok_bind, ok_bind]
      refine seen_bind (trainingCells_inserted view vv policy hg hi key versions names [] counts counts' hc) fun cells c c' hcc => ?_
      exact congrArg (fun n => Except.ok (_, n)) hcc

theorem trainingRows_inserted (hg : 0 ≤ gap) (versions : List (String × Int)) (names : List String) :
    ∀ (observations : List TrainingObservation) (counts counts' : TrainingCounts),
    Inserted (fun rec => ∀ obs ∈ observations, IneligibleAt obs.observationTs gap rec) history history' →
    counts'.missingValues = counts.missingValues →
    (trainingRows history' view vv policy gap versions names observations counts').map seen =
      (trainingRows history view vv policy gap versions names observations counts).map seen
  | [], counts, counts', _, hc => congrArg (fun n => Except.ok ([], n)) hc
  | obs :: observations, counts, counts', hi, hc => by
    have hrow := trainingRow_inserted view vv policy hg
      (hi.imp fun rec h => h obs List.mem_cons_self) versions names counts counts' hc
    refine seen_bind hrow fun row c c' hcc => ?_
    have hrows := trainingRows_inserted hg versions names observations c c'
      (hi.imp fun rec h obs ho => h obs (List.mem_cons_of_mem _ ho)) hcc
    refine seen_bind hrows fun rows d d' hd => ?_
    exact congrArg (fun n => Except.ok (_, n)) hd

end

/-- A dataset without the count of ignored rows. -/
def TrainingDataset.unignored (ds : TrainingDataset) : TrainingDataset :=
  { ds with summary := { ds.summary with futureRecordsIgnored := 0 } }

def recentRow (value dataTs calcTs : Int) (availableAt : Option Int) : OfflineFeatureRecord :=
  ⟨"risk", 1, {
    ref := recentFeature.ref
    entityKey := userKey
    value := .int value
    dataTs := dataTs
    calcTs := calcTs
    availableAt := availableAt }⟩

def observedAt (t : Int) : TrainingObservation := ⟨[("user_id", "1")], t, none⟩

end ClearFeature
