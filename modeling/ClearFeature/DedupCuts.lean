import ClearFeature.BatchItems
import ClearFeature.Lib.Fresh

/-!
# Deduplication and the cuts between batches (`fs_core/dedup.py`)

Within a call a result is compared by its signature, across calls as an exact
duplicate; a missing fingerprint or availability and equal numbers of two types
tell two signatures apart, but not two exact duplicates.
-/

namespace ClearFeature

/-- An exact duplicate of a row of the same view. -/
def exactDuplicate (existing candidate : FeatureResult) : Bool :=
  decide (existing.entityKey.encode = candidate.entityKey.encode) && decide (existing.ref.name = candidate.ref.name) &&
    decide (existing.ref.version = candidate.ref.version) && decide (existing.dataTs = candidate.dataTs) &&
    existing.value.pyEq candidate.value && sameFingerprint existing candidate && sameAvailability existing candidate

/-! ## Signatures -/

section
variable {a b r : FeatureResult}

theorem Value.pyEq_congr {v w : Value} (h : canonicalValueJson v = canonicalValueJson w) (x : Value) :
    v.pyEq x = w.pyEq x ∧ x.pyEq v = x.pyEq w := by
  have htoks : v.toks true = w.toks true := Value.pyEq_iff.mp (Value.pyEq_of_canonical h)
  unfold Value.pyEq
  rw [htoks]
  exact ⟨rfl, rfl⟩

/-- Results of one signature duplicate the same. -/
theorem exactDuplicate_signature (h : a.signature = b.signature) (r : FeatureResult) :
    exactDuplicate a r = exactDuplicate b r ∧ exactDuplicate r a = exactDuplicate r b := by
  simp only [FeatureResult.signature, Signature.mk.injEq] at h
  obtain ⟨he, hn, hv, hd, ht, hf, htrust⟩ := h
  obtain ⟨hleft, hright⟩ := Value.pyEq_congr ht r.value
  constructor
  · unfold exactDuplicate sameFingerprint sameAvailability
    rw [he, hn, hv, hd, hf, htrust, hleft]
  · unfold exactDuplicate sameFingerprint sameAvailability
    rw [he, hn, hv, hd, hf, htrust, hright]

theorem exactDuplicate_of_signature (h : a.signature = r.signature) : exactDuplicate a r = true := by
  rw [(exactDuplicate_signature h r).1]
  have hsame : sameFingerprint r r = true := by
    unfold sameFingerprint
    cases r.inputFingerprint <;> simp
  have htrusted : sameAvailability r r = true := by
    unfold sameAvailability
    cases trustedAvailableAt r <;> simp
  simp [exactDuplicate, hsame, htrusted]

end

section
variable {offline : OfflineStore} {view : String} {vv : Int}

theorem existsInOffline_iff {r : FeatureResult} : existsInOffline offline view vv r = true ↔
    ∃ rec ∈ offline, rec.view = view ∧ rec.viewVersion = vv ∧ exactDuplicate rec.result r = true := by
  unfold existsInOffline exactDuplicate
  rw [OfflineStore.get_eq_rows, List.any_eq_true]
  constructor
  · rintro ⟨rec, hrec, h⟩
    obtain ⟨hin, hslot⟩ := OfflineStore.mem_rows.mp hrec
    simp only [OfflineFeatureRecord.slot, FeatureResult.slot, FeatureSlot.mk.injEq] at hslot
    obtain ⟨he, hview, hvv, hn, hv⟩ := hslot
    refine ⟨rec, hin, hview, hvv, ?_⟩
    simpa [he, hn, hv] using h
  · rintro ⟨rec, hin, hview, hvv, h⟩
    simp only [Bool.and_eq_true, decide_eq_true_eq] at h
    obtain ⟨⟨⟨⟨⟨⟨he, hn⟩, hv⟩, hd⟩, hvalue⟩, hf⟩, ha⟩ := h
    refine ⟨rec, OfflineStore.mem_rows.mpr ⟨hin, ?_⟩, ?_⟩
    · simp only [OfflineFeatureRecord.slot, FeatureResult.slot, he, hn, hv, hview, hvv]
    · simp [hd, hvalue, hf, ha]

theorem existsInOffline_rows {rs : List FeatureResult} {r : FeatureResult} :
    existsInOffline (rs.map fun r => ⟨view, vv, r⟩) view vv r = true ↔ ∃ a ∈ rs, exactDuplicate a r = true := by
  rw [existsInOffline_iff]
  constructor
  · rintro ⟨rec, hrec, -, -, h⟩
    obtain ⟨a, ha, rfl⟩ := List.mem_map.mp hrec
    exact ⟨a, ha, h⟩
  · rintro ⟨a, ha, h⟩
    exact ⟨_, List.mem_map_of_mem ha, rfl, rfl, h⟩

variable (offline view vv) in
theorem existsInOffline_respects : Fresh.Respects FeatureResult.signature (existsInOffline offline view vv) := by
  intro a b h
  refine Bool.eq_iff_iff.mpr ?_
  rw [existsInOffline_iff, existsInOffline_iff]
  constructor
  · intro ⟨rec, hin, hview, hvv, hd⟩
    exact ⟨rec, hin, hview, hvv, (exactDuplicate_signature h rec.result).2 ▸ hd⟩
  · intro ⟨rec, hin, hview, hvv, hd⟩
    exact ⟨rec, hin, hview, hvv, (exactDuplicate_signature h rec.result).2.symm ▸ hd⟩

/-! ## One call and two calls -/

theorem partitionLoop_eq_fresh : ∀ (rs : List FeatureResult) (seen : List Signature),
    (partitionLoop offline view vv rs seen).1 =
      Fresh.fresh FeatureResult.signature (existsInOffline offline view vv) rs seen
  | [], _ => rfl
  | r :: rs, seen => by
    rw [partitionLoop, Fresh.fresh]
    by_cases hs : r.signature ∈ seen
    · rw [if_pos hs, if_pos hs]
      exact partitionLoop_eq_fresh rs seen
    rw [if_neg hs, if_neg hs]
    by_cases hk : existsInOffline offline view vv r = true
    · rw [if_pos hk, if_pos hk]
      exact partitionLoop_eq_fresh rs seen
    · rw [if_neg hk, if_neg hk]
      exact congrArg (r :: ·) (partitionLoop_eq_fresh rs _)

variable (offline view vv) in
theorem appendNewResults_eq (rs : List FeatureResult) : appendNewResults offline view vv rs =
    offline ++ (Fresh.fresh FeatureResult.signature (existsInOffline offline view vv) rs []).map fun r => ⟨view, vv, r⟩ := by
  unfold appendNewResults partitionNewResults
  rw [OfflineStore.appendMany_eq, partitionLoop_eq_fresh]

theorem row_injective : Function.Injective fun r : FeatureResult => (⟨view, vv, r⟩ : OfflineFeatureRecord) :=
  fun _ _ h => congrArg OfflineFeatureRecord.result h

/-- After the first list, what is known is what was known and what duplicates its results. -/
theorem existsInOffline_appendNew (rs : List FeatureResult) :
    existsInOffline (appendNewResults offline view vv rs) view vv = fun r => existsInOffline offline view vv r ||
      existsInOffline ((Fresh.fresh FeatureResult.signature (existsInOffline offline view vv) rs []).map
        fun r => ⟨view, vv, r⟩) view vv r := by
  funext r
  rw [appendNewResults_eq, existsInOffline_append]

theorem existsInOffline_kept {rs : List FeatureResult} {r : FeatureResult} :
    existsInOffline ((Fresh.fresh FeatureResult.signature (existsInOffline offline view vv) rs []).map
      fun r => ⟨view, vv, r⟩) view vv r = true ↔
        ∃ a ∈ rs, existsInOffline offline view vv a = false ∧ exactDuplicate a r = true := by
  have hdup : ∀ a b : FeatureResult, a.signature = b.signature → exactDuplicate a r = true → exactDuplicate b r = true :=
    fun a b h hd => (exactDuplicate_signature h r).1 ▸ hd
  rw [existsInOffline_rows, Fresh.exists_mem_fresh (existsInOffline_respects offline view vv) hdup]
  simp

variable (offline view vv) in
/-- Exact duplicates across the two lists that are not in the history have a signature of the first list. -/
def CutBySignature (rs₁ rs₂ : List FeatureResult) : Prop :=
  ∀ a ∈ rs₁, ∀ r ∈ rs₂, existsInOffline offline view vv a = false → existsInOffline offline view vv r = false →
    exactDuplicate a r = true → ∃ a' ∈ rs₁, a'.signature = r.signature

/-- Where a batch is cut shows exactly in exact duplicates of another signature. -/
theorem appendNewResults_cut (rs₁ rs₂ : List FeatureResult) :
    appendNewResults (appendNewResults offline view vv rs₁) view vv rs₂ = appendNewResults offline view vv (rs₁ ++ rs₂) ↔
      CutBySignature offline view vv rs₁ rs₂ := by
  have hcut := Fresh.fresh_cut (existsInOffline_respects offline view vv)
    (existsInOffline_respects ((Fresh.fresh FeatureResult.signature (existsInOffline offline view vv) rs₁ []).map
      fun r => ⟨view, vv, r⟩) view vv) rs₁ rs₂ fun a ha b h =>
        existsInOffline_rows.mpr ⟨a, ha, exactDuplicate_of_signature h⟩
  rw [appendNewResults_eq (appendNewResults offline view vv rs₁), existsInOffline_appendNew,
    appendNewResults_eq, appendNewResults_eq, List.append_assoc, List.append_cancel_left_eq, ← List.map_append,
    List.map_inj_right fun a b h => row_injective h]
  refine hcut.trans ?_
  constructor
  · intro h a ha r hr hka hkr hd
    exact h r hr hkr (existsInOffline_kept.mpr ⟨a, ha, hka, hd⟩)
  · intro h r hr hkr hn
    obtain ⟨a, ha, hka, hd⟩ := existsInOffline_kept.mp hn
    exact h a ha r hr hka hkr hd

theorem appendNewResults_again (rs : List FeatureResult) :
    appendNewResults (appendNewResults offline view vv rs) view vv rs = appendNewResults offline view vv rs := by
  have hnone : partitionNewResults (appendNewResults offline view vv rs) view vv rs = ([], rs.length) :=
    partitionLoop_of_stored [] (partition_stored offline rs)
  show OfflineStore.appendMany _ view vv (partitionNewResults (appendNewResults offline view vv rs) view vv rs).1 = _
  rw [hnone]
  rfl

/-! ## The same value, once with and once without a fingerprint -/

def scoreWithout : FeatureResult := { scoreAt 1 1 "fp1" with inputFingerprint := none }

variable (offline view vv) in
/-- One call and two calls leave the same history exactly if the exact duplicates across them have a common signature;
the same batch again appends nothing. -/
theorem dedup_cut (rs₁ rs₂ : List FeatureResult) :
    (appendNewResults (appendNewResults offline view vv rs₁) view vv rs₂ =
        appendNewResults offline view vv (rs₁ ++ rs₂) ↔ CutBySignature offline view vv rs₁ rs₂) ∧
    appendNewResults (appendNewResults offline view vv rs₁) view vv rs₁ = appendNewResults offline view vv rs₁ :=
  ⟨appendNewResults_cut rs₁ rs₂, appendNewResults_again rs₁⟩

theorem dedup_cut_score :
    appendNewResults (appendNewResults [] "risk" 1 [scoreWithout]) "risk" 1 [scoreAt 1 2 "fp1"] ≠
      appendNewResults [] "risk" 1 ([scoreWithout] ++ [scoreAt 1 2 "fp1"]) := by
  intro h
  have hlength := congrArg List.length h
  revert hlength
  decide +kernel

end

end ClearFeature
