import ClearFeature.Pit
import ClearFeature.Validator

/-!
# Exact-duplicate detection (`fs_core/dedup.py`)

A result is dropped when the history, or the part of the batch already accepted,
holds a row with its slot, event time and value whose fingerprint and trusted
availability do not tell the two apart.
-/

namespace ClearFeature

/-- `_signature`; the value token is canonical JSON text. -/
structure Signature where
  entity : String
  name : String
  version : Int
  dataTs : Int
  valueToken : List JsonTok
  inputFingerprint : Option String
  availableAt : Option Int
  deriving DecidableEq

def FeatureResult.signature (r : FeatureResult) : Signature :=
  ⟨r.entityKey.encode, r.ref.name, r.ref.version, r.dataTs, canonicalValueJson r.value, r.inputFingerprint,
    trustedAvailableAt r⟩

def sameFingerprint (existing candidate : FeatureResult) : Bool :=
  match existing.inputFingerprint, candidate.inputFingerprint with
  | some a, some b => decide (a = b)
  | _, _ => true

def sameAvailability (existing candidate : FeatureResult) : Bool :=
  match trustedAvailableAt existing, trustedAvailableAt candidate with
  | some a, some b => decide (a = b)
  | _, _ => true

def existsInOffline (offline : OfflineStore) (view : String) (viewVersion : Int) (r : FeatureResult) : Bool :=
  (offline.get r.entityKey (some r.ref.name) (some r.ref.version) (some view) (some viewVersion)).any fun rec =>
    decide (rec.result.dataTs = r.dataTs) && rec.result.value.pyEq r.value && sameFingerprint rec.result r &&
      sameAvailability rec.result r

section
variable (offline : OfflineStore) (view : String) (viewVersion : Int)

def partitionLoop : List FeatureResult → List Signature → List FeatureResult × Nat
  | [], _ => ([], 0)
  | r :: rs, seen =>
    if r.signature ∈ seen then
      let (new, duplicates) := partitionLoop rs seen
      (new, duplicates + 1)
    else if existsInOffline offline view viewVersion r then
      let (new, duplicates) := partitionLoop rs seen
      (new, duplicates + 1)
    else
      let (new, duplicates) := partitionLoop rs (r.signature :: seen)
      (r :: new, duplicates)

def partitionNewResults (results : List FeatureResult) : List FeatureResult × Nat :=
  partitionLoop offline view viewVersion results []

end

/-! ## What is kept and what is dropped -/

/-- Two results a reader cannot tell apart at their event time. -/
def Twin (view : String) (viewVersion : Int) (rec : OfflineFeatureRecord) (r : FeatureResult) : Prop :=
  rec.slot = r.slot view viewVersion ∧ rec.result.dataTs = r.dataTs ∧ rec.result.value.pyEq r.value = true

section
variable {offline : OfflineStore} {view : String} {vv : Int}

theorem exists_of_existsInOffline {r : FeatureResult} (h : existsInOffline offline view vv r = true) :
    ∃ rec ∈ offline, Twin view vv rec r ∧ sameFingerprint rec.result r = true ∧ sameAvailability rec.result r = true := by
  obtain ⟨rec, hm, h⟩ := List.any_eq_true.mp h
  rw [OfflineStore.get_eq_rows] at hm
  obtain ⟨hin, hslot⟩ := OfflineStore.mem_rows.mp hm
  simp only [Bool.and_eq_true, decide_eq_true_eq] at h
  exact ⟨rec, hin, ⟨hslot, h.1.1.1, h.1.1.2⟩, h.1.2, h.2⟩

theorem existsInOffline_append (h₁ h₂ : OfflineStore) (r : FeatureResult) :
    existsInOffline (h₁ ++ h₂) view vv r = (existsInOffline h₁ view vv r || existsInOffline h₂ view vv r) := by
  simp [existsInOffline, OfflineStore.get, List.filter_append]

/-- A stored result stands for every result of its signature. -/
theorem existsInOffline_of_signature {rs : List FeatureResult} {a r : FeatureResult} (ha : a ∈ rs)
    (h : a.signature = r.signature) : existsInOffline (rs.map fun r => ⟨view, vv, r⟩) view vv r = true := by
  simp only [FeatureResult.signature, Signature.mk.injEq] at h
  obtain ⟨he, hn, hv, hd, ht, hf, htrust⟩ := h
  refine List.any_eq_true.mpr ⟨⟨view, vv, a⟩, ?_, ?_⟩
  · rw [OfflineStore.get_eq_rows]
    refine OfflineStore.mem_rows.mpr ⟨List.mem_map.mpr ⟨a, ha, rfl⟩, ?_⟩
    simp only [OfflineFeatureRecord.slot, FeatureResult.slot, he, hn, hv]
  · have hsame : sameFingerprint a r = true := by
      unfold sameFingerprint
      rw [hf]
      cases r.inputFingerprint <;> simp
    have htrusted : sameAvailability a r = true := by
      unfold sameAvailability
      rw [htrust]
      cases trustedAvailableAt r <;> simp
    simp [hd, Value.pyEq_of_canonical ht, hsame, htrusted]

theorem existsInOffline_self {rs : List FeatureResult} {r : FeatureResult} (hr : r ∈ rs) :
    existsInOffline (rs.map fun r => ⟨view, vv, r⟩) view vv r = true := existsInOffline_of_signature hr rfl

theorem existsInOffline_other {rs : List FeatureResult} {r : FeatureResult}
    (hr : r.slot view vv ∉ rs.map (FeatureResult.slot view vv)) :
    existsInOffline (rs.map fun r => ⟨view, vv, r⟩) view vv r = false := by
  by_contra h
  obtain ⟨rec, hm, ht, -⟩ := exists_of_existsInOffline (by simpa using h)
  obtain ⟨r', hr', rfl⟩ := List.mem_map.mp hm
  exact hr (ht.1 ▸ List.mem_map_of_mem (f := FeatureResult.slot view vv) hr')

theorem twin_of_signature {r r' : FeatureResult} (h : r'.signature = r.signature) : Twin view vv ⟨view, vv, r'⟩ r := by
  simp only [FeatureResult.signature, Signature.mk.injEq] at h
  obtain ⟨he, hn, hv, hd, ht, -⟩ := h
  refine ⟨?_, hd, Value.pyEq_of_canonical ht⟩
  simp only [OfflineFeatureRecord.slot, FeatureResult.slot, he, hn, hv]

theorem partitionLoop_sublist : ∀ (rs : List FeatureResult) (seen : List Signature),
    List.Sublist (partitionLoop offline view vv rs seen).1 rs
  | [], seen => .slnil
  | r :: rs, seen => by
    rw [partitionLoop]
    split
    · exact (partitionLoop_sublist rs seen).cons r
    · split
      · exact (partitionLoop_sublist rs seen).cons r
      · exact (partitionLoop_sublist rs _).cons_cons r

/-- Each result is in the history, or has the signature of one that is kept. -/
theorem partitionLoop_covers (acc : List FeatureResult) : ∀ (rs : List FeatureResult) (seen : List Signature),
    (∀ s ∈ seen, ∃ a ∈ acc, a.signature = s) → ∀ r ∈ rs, existsInOffline offline view vv r = true ∨
      ∃ a ∈ acc ++ (partitionLoop offline view vv rs seen).1, a.signature = r.signature
  | [], seen, _, r, hm => by cases hm
  | r :: rs, seen, hacc, r', hm => by
    rw [partitionLoop]
    by_cases hs : r.signature ∈ seen
    · rw [if_pos hs]
      rcases List.mem_cons.mp hm with rfl | hm
      · obtain ⟨a, ha, e⟩ := hacc _ hs
        exact .inr ⟨a, List.mem_append_left _ ha, e⟩
      · exact partitionLoop_covers acc rs seen hacc r' hm
    rw [if_neg hs]
    by_cases ho : existsInOffline offline view vv r = true
    · rw [if_pos ho]
      rcases List.mem_cons.mp hm with rfl | hm
      · exact .inl ho
      · exact partitionLoop_covers acc rs seen hacc r' hm
    rw [if_neg ho]
    rcases List.mem_cons.mp hm with rfl | hm
    · exact .inr ⟨r', List.mem_append_right _ List.mem_cons_self, rfl⟩
    · have hacc' : ∀ s ∈ r.signature :: seen, ∃ a ∈ acc ++ [r], a.signature = s := by
        intro s hs
        rcases List.mem_cons.mp hs with rfl | hs
        · exact ⟨r, by simp, rfl⟩
        · obtain ⟨a, ha, e⟩ := hacc s hs
          exact ⟨a, List.mem_append_left _ ha, e⟩
      have ih := partitionLoop_covers (acc ++ [r]) rs (r.signature :: seen) hacc' r' hm
      rw [List.append_assoc] at ih
      exact ih

/-- Once the results that are kept have been appended, every result of the batch is a duplicate. -/
theorem partition_stored (offline : OfflineStore) (rs : List FeatureResult) : ∀ r ∈ rs,
    existsInOffline (offline.appendMany view vv (partitionNewResults offline view vv rs).1) view vv r = true := by
  intro r hr
  rw [OfflineStore.appendMany_eq, existsInOffline_append]
  rcases partitionLoop_covers [] rs [] (by simp) r hr with h | ⟨a, ha, h⟩
  · rw [h, Bool.true_or]
  · have hkept : existsInOffline ((partitionNewResults offline view vv rs).1.map fun r => ⟨view, vv, r⟩) view vv r = true :=
      existsInOffline_of_signature ha h
    rw [hkept, Bool.or_true]

theorem partitionLoop_of_stored : ∀ {rs : List FeatureResult} (seen : List Signature),
    (∀ r ∈ rs, existsInOffline offline view vv r = true) → partitionLoop offline view vv rs seen = ([], rs.length)
  | [], seen, _ => rfl
  | r :: rs, seen, h => by
    have ih := partitionLoop_of_stored seen fun r hr => h r (List.mem_cons_of_mem _ hr)
    rw [partitionLoop, ih, if_pos (h r List.mem_cons_self), ite_self]
    rfl

theorem partition_sublist (rs : List FeatureResult) : List.Sublist (partitionNewResults offline view vv rs).1 rs :=
  partitionLoop_sublist rs []

theorem partition_twin (offline : OfflineStore) (rs : List FeatureResult) : ∀ r ∈ rs,
    ∃ rec ∈ offline.appendMany view vv (partitionNewResults offline view vv rs).1, Twin view vv rec r := by
  intro r hr
  obtain ⟨rec, hin, ht, -⟩ := exists_of_existsInOffline (partition_stored offline rs r hr)
  exact ⟨rec, hin, ht⟩

end

/-! ## Readers -/

theorem rows_sublist {h₁ h₂ : OfflineStore} (h : List.Sublist h₁ h₂) (slot : FeatureSlot) :
    List.Sublist (h₁.rows slot) (h₂.rows slot) := h.filter _

/-- Appending a batch without its duplicates: a reader sees a row at the same event time, or none as well. The
value differs only if it was there before and another value stands between. -/
theorem dedup_selection (history : OfflineStore) (view : String) (viewVersion : Int) (rs : List FeatureResult)
    (slot : FeatureSlot) (obs gap : Int) (hg : 0 ≤ gap)
    (hobs : ∀ rec ∈ history.appendMany view viewVersion rs, effectiveAvailable rec.result ≤ obs) :
    let full := (history.appendMany view viewVersion rs).rows slot
    let kept := (history.appendMany view viewVersion (partitionNewResults history view viewVersion rs).1).rows slot
    (∃ n m, selectPit full obs gap = .ok (none, n) ∧ selectPit kept obs gap = .ok (none, m)) ∨
    ∃ x z n m, selectPit full obs gap = .ok (some x, n) ∧ selectPit kept obs gap = .ok (some z, m) ∧
      z.result.dataTs = x.result.dataTs ∧
      ∃ y ∈ kept, y.result.dataTs = x.result.dataTs ∧ y.result.value.pyEq x.result.value = true ∧
        pitKey y ≤ pitKey z ∧ pitKey z ≤ pitKey x := by
  intro full kept
  obtain ⟨n, hn⟩ := selectPit_eq full obs hg
  obtain ⟨m, hm⟩ := selectPit_eq kept obs hg
  have hsub : List.Sublist kept full := by
    refine rows_sublist ?_ slot
    rw [OfflineStore.appendMany_eq, OfflineStore.appendMany_eq]
    exact ((partition_sublist rs).map _).append_left history
  have hsub' := hsub.filter (eligible obs gap)
  rw [hn, hm]
  cases hx : LastMax.lastMax pitKey (full.filter (eligible obs gap)) with
  | none =>
    rw [(LastMax.lastMax_eq_none pitKey).mp hx] at hsub'
    have hk : LastMax.lastMax pitKey (kept.filter (eligible obs gap)) = none := by
      rw [List.sublist_nil.mp hsub', LastMax.lastMax_nil]
    exact .inl ⟨n, m, rfl, by rw [hk]⟩
  | some x =>
    have hxm := List.mem_filter.mp (LastMax.mem_of_lastMax _ hx)
    obtain ⟨hxin, hxslot⟩ := OfflineStore.mem_rows.mp hxm.1
    -- the selected row, or its twin, is among the kept rows and is eligible too
    have htwin : ∃ y ∈ kept, y.result.dataTs = x.result.dataTs ∧ y.result.value.pyEq x.result.value = true := by
      have hcase : x ∈ history ∨ ∃ r ∈ rs, x = ⟨view, viewVersion, r⟩ := by
        rw [OfflineStore.appendMany_eq] at hxin
        rcases List.mem_append.mp hxin with h | h
        · exact .inl h
        · obtain ⟨r, hr, e⟩ := List.mem_map.mp h
          exact .inr ⟨r, hr, e.symm⟩
      rcases hcase with h | ⟨r, hr, rfl⟩
      · refine ⟨x, OfflineStore.mem_rows.mpr ⟨?_, hxslot⟩, rfl, Value.pyEq_refl _⟩
        rw [OfflineStore.appendMany_eq]
        exact List.mem_append_left _ h
      · obtain ⟨y, hy, hs, hd, hv⟩ := partition_twin history rs r hr
        exact ⟨y, OfflineStore.mem_rows.mpr ⟨hy, hs.trans hxslot⟩, hd, hv⟩
    obtain ⟨y, hy, hyd, hyv⟩ := htwin
    have hye : y ∈ kept.filter (eligible obs gap) := by
      have hx' := hxm.2
      simp only [eligible, Bool.and_eq_true, decide_eq_true_eq] at hx'
      refine List.mem_filter.mpr ⟨hy, ?_⟩
      simp only [eligible, Bool.and_eq_true, decide_eq_true_eq, hyd]
      exact ⟨hx'.1, hobs y (OfflineStore.mem_rows.mp (hsub.subset hy)).1⟩
    cases hz : LastMax.lastMax pitKey (kept.filter (eligible obs gap)) with
    | none => rw [(LastMax.lastMax_eq_none pitKey).mp hz] at hye; cases hye
    | some z =>
      have hyz := LastMax.le_of_lastMax _ hz y hye
      have hzx := LastMax.le_of_lastMax _ hx z (hsub'.subset (LastMax.mem_of_lastMax _ hz))
      refine .inr ⟨x, z, n, m, rfl, rfl, ?_, y, hy, hyd, hyv, hyz, hzx⟩
      simp only [pitKey, Prod.Lex.toLex_le_toLex] at hyz hzx
      omega

/-! ## A value that comes back -/

def scoreKey : EntityKey := ⟨[("user_id", "1")], "user_id=1", userKey.valid⟩

def scoreRef : FeatureRef := ⟨"score", 1, by decide, by decide⟩

def scoreAt (value : Int) (calcTs : Int) (fingerprint : String) : FeatureResult :=
  { ref := scoreRef, entityKey := scoreKey, value := .int value, dataTs := 0, calcTs := calcTs,
    maxInputDataTs := some 0, inputFingerprint := some fingerprint }

/-- Corrected away and back: the second correction is an exact duplicate of the first row. -/
def correctedHistory : OfflineStore := [⟨"risk", 1, scoreAt 1 1 "fp1"⟩, ⟨"risk", 1, scoreAt 2 2 "fp2"⟩]

def scoreSlot : FeatureSlot := ⟨"user_id=1", "risk", 1, "score", 1⟩

/-- The value a reader at time ten selects. -/
def selectedScore (history : OfflineStore) : Option (List JsonTok) :=
  match selectPit (history.rows scoreSlot) 10 0 with
  | .ok (some rec, _) => some (canonicalValueJson rec.result.value)
  | _ => none

theorem dedup_hides_return :
    (∀ rec ∈ correctedHistory, rec.result.calcTs < (scoreAt 1 3 "fp1").calcTs) ∧
    (∀ rec ∈ correctedHistory.appendMany "risk" 1 [scoreAt 1 3 "fp1"], effectiveAvailable rec.result < 10) ∧
    selectedScore (correctedHistory.appendMany "risk" 1 [scoreAt 1 3 "fp1"]) = some [.int 1] ∧
    selectedScore (correctedHistory.appendMany "risk" 1
      (partitionNewResults correctedHistory "risk" 1 [scoreAt 1 3 "fp1"]).1) = some [.int 2] := by
  decide +kernel

theorem dedup_selection_return :
    let full := (correctedHistory.appendMany "risk" 1 [scoreAt 1 3 "fp1"]).rows scoreSlot
    let kept := (correctedHistory.appendMany "risk" 1
      (partitionNewResults correctedHistory "risk" 1 [scoreAt 1 3 "fp1"]).1).rows scoreSlot
    (∃ n m, selectPit full 10 0 = .ok (none, n) ∧ selectPit kept 10 0 = .ok (none, m)) ∨
    ∃ x z n m, selectPit full 10 0 = .ok (some x, n) ∧ selectPit kept 10 0 = .ok (some z, m) ∧
      z.result.dataTs = x.result.dataTs ∧
      ∃ y ∈ kept, y.result.dataTs = x.result.dataTs ∧ y.result.value.pyEq x.result.value = true ∧
        pitKey y ≤ pitKey z ∧ pitKey z ≤ pitKey x :=
  dedup_selection correctedHistory "risk" 1 [scoreAt 1 3 "fp1"] scoreSlot 10 0 (by decide) (by decide +kernel)

end ClearFeature
