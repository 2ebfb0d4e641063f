import ClearFeature.WriteGuard

/-!
# In-memory stores (`fs_core/stores/`)

The offline store is an append-only history. The online store keeps one result
per serving key, replaced only when the write guard says so.
-/

namespace ClearFeature

/-- What both stores file a result under. -/
structure FeatureSlot where
  entity : String
  view : String
  viewVersion : Int
  featureName : String
  featureVersion : Int
  deriving DecidableEq

def FeatureResult.slot (view : String) (viewVersion : Int) (r : FeatureResult) : FeatureSlot :=
  ⟨r.entityKey.encode, view, viewVersion, r.ref.name, r.ref.version⟩

/-! ## Offline history -/

structure OfflineFeatureRecord where
  view : String
  viewVersion : Int
  result : FeatureResult

def OfflineFeatureRecord.slot (rec : OfflineFeatureRecord) : FeatureSlot := rec.result.slot rec.view rec.viewVersion

abbrev OfflineStore := List OfflineFeatureRecord

namespace OfflineStore

def append (history : OfflineStore) (view : String) (viewVersion : Int) (r : FeatureResult) : OfflineStore :=
  history ++ [⟨view, viewVersion, r⟩]

def appendMany (history : OfflineStore) (view : String) (viewVersion : Int) (rs : List FeatureResult) : OfflineStore :=
  rs.foldl (fun h r => h.append view viewVersion r) history

/-- `wanted is not None and found != wanted` does not hold. -/
def wants {α : Type} [DecidableEq α] (wanted : Option α) (found : α) : Bool :=
  match wanted with
  | none => true
  | some w => decide (found = w)

def get (history : OfflineStore) (entityKey : EntityKey) (featureName : Option String) (featureVersion : Option Int)
    (view : Option String) (viewVersion : Option Int) : List OfflineFeatureRecord :=
  history.filter fun rec =>
    decide (rec.result.entityKey.encode = entityKey.encode) && wants featureName rec.result.ref.name &&
      wants featureVersion rec.result.ref.version && wants view rec.view && wants viewVersion rec.viewVersion

/-- The rows of one slot, in append order. -/
def rows (history : OfflineStore) (slot : FeatureSlot) : List OfflineFeatureRecord :=
  history.filter fun rec => decide (rec.slot = slot)

theorem get_eq_rows (history : OfflineStore) (key : EntityKey) (n : String) (v : Int) (view : String) (vv : Int) :
    history.get key (some n) (some v) (some view) (some vv) = history.rows ⟨key.encode, view, vv, n, v⟩ := by
  unfold get rows
  congr 1
  funext rec
  simp only [wants, OfflineFeatureRecord.slot, FeatureResult.slot, FeatureSlot.mk.injEq, Bool.decide_and]
  cases decide (rec.result.entityKey.encode = key.encode) <;> cases decide (rec.result.ref.name = n) <;>
    cases decide (rec.result.ref.version = v) <;> cases decide (rec.view = view) <;>
    cases decide (rec.viewVersion = vv) <;> rfl

theorem appendMany_eq (view : String) (vv : Int) : ∀ (rs : List FeatureResult) (history : OfflineStore),
    history.appendMany view vv rs = history ++ rs.map fun r => ⟨view, vv, r⟩
  | [], history => by simp [appendMany]
  | r :: rs, history => by
    have ih := appendMany_eq view vv rs (history.append view vv r)
    simp only [appendMany, List.foldl_cons] at ih ⊢
    rw [ih, append, List.append_assoc]
    rfl

@[simp] theorem rows_append (h₁ h₂ : OfflineStore) (slot : FeatureSlot) :
    rows (h₁ ++ h₂) slot = rows h₁ slot ++ rows h₂ slot := by simp [rows]

theorem mem_rows {history : OfflineStore} {slot : FeatureSlot} {rec : OfflineFeatureRecord} :
    rec ∈ history.rows slot ↔ rec ∈ history ∧ rec.slot = slot := by simp [rows]

end OfflineStore

/-! ## Online latest -/

abbrev OnlineStore := List (FeatureSlot × FeatureResult)

namespace OnlineStore

def write (values : OnlineStore) (view : String) (viewVersion : Int) (r : FeatureResult) : WriteOutcome × OnlineStore :=
  let key := r.slot view viewVersion
  let outcome := decideOver (Dict.get? values key) r
  (outcome, if outcome.stored then Dict.set values key r else values)

/-- The outcomes by feature reference, and the store after all writes. -/
def writeMany (values : OnlineStore) (view : String) (viewVersion : Int) (rs : List FeatureResult) :
    List (String × WriteOutcome) × OnlineStore :=
  rs.foldl (fun (acc : List (String × WriteOutcome) × OnlineStore) r =>
    let (outcome, values) := acc.2.write view viewVersion r
    (Dict.set acc.1 r.ref.encode outcome, values)) ([], values)

def get (values : OnlineStore) (view : String) (viewVersion : Int) (entityKey : EntityKey) (featureName : String)
    (featureVersion : Int) : Option FeatureResult :=
  Dict.get? values ⟨entityKey.encode, view, viewVersion, featureName, featureVersion⟩

theorem get?_write (values : OnlineStore) (view : String) (vv : Int) (r : FeatureResult) (slot : FeatureSlot) :
    Dict.get? (values.write view vv r).2 slot =
      if r.slot view vv = slot ∧ (decideOver (Dict.get? values slot) r).stored then some r
      else Dict.get? values slot := by
  simp only [write]
  by_cases hs : r.slot view vv = slot
  · subst hs
    cases ho : (decideOver (Dict.get? values (r.slot view vv)) r).stored <;> simp
  · cases ho : (decideOver (Dict.get? values (r.slot view vv)) r).stored
    · simp [hs]
    · simp [hs, Dict.get?_set_ne _ _ hs]

theorem writeMany_snd (view : String) (vv : Int) (rs : List FeatureResult) (values : OnlineStore) :
    (values.writeMany view vv rs).2 = rs.foldl (fun vs r => (vs.write view vv r).2) values := by
  have h : ∀ (rs : List FeatureResult) (acc : List (String × WriteOutcome) × OnlineStore),
      (rs.foldl (fun (acc : List (String × WriteOutcome) × OnlineStore) r =>
        let (outcome, values) := acc.2.write view vv r
        (Dict.set acc.1 r.ref.encode outcome, values)) acc).2 =
      rs.foldl (fun vs r => (vs.write view vv r).2) acc.2 := by
    intro rs
    induction rs with
    | nil => intro acc; rfl
    | cons r rs ih => intro acc; exact ih _
  exact h rs ([], values)

end OnlineStore

end ClearFeature
