import ClearFeature.OnlineConverges

/-!
# Online writes that come again

A write delivered once more has the event time, inputs and value of the first
delivery, but not its calculation time. The guard compares it with the record
that is stored by then, which may be a correction of the same guard pair.
-/

namespace ClearFeature

/-- `r'` is a later delivery of the write of `r`. -/
structure Redelivers (r r' : FeatureResult) : Prop where
  ref : r'.ref = r.ref
  entityKey : r'.entityKey = r.entityKey
  value : r'.value = r.value
  dataTs : r'.dataTs = r.dataTs
  maxInputDataTs : r'.maxInputDataTs = r.maxInputDataTs
  inputFingerprint : r'.inputFingerprint = r.inputFingerprint
  availableAt : r'.availableAt = r.availableAt
  availabilitySource : r'.availabilitySource = r.availabilitySource

namespace Redelivers
variable {r r' : FeatureResult} (h : Redelivers r r')
include h

theorem slot_eq (view : String) (viewVersion : Int) : r'.slot view viewVersion = r.slot view viewVersion := by
  simp only [FeatureResult.slot, h.ref, h.entityKey]

theorem guard_eq : r'.guard = r.guard := by
  simp only [FeatureResult.guard, h.dataTs, h.maxInputDataTs]

theorem availabilityDiffers_eq (e : FeatureResult) : availabilityDiffers r' e = availabilityDiffers r e := by
  have ht : trustedAvailableAt r' = trustedAvailableAt r := by
    simp only [trustedAvailableAt, h.availableAt, h.availabilitySource]
  simp only [availabilityDiffers, ht]

end Redelivers

/-- The stored record is newer than the write, or was made from the same inputs. -/
def outranks (e r : FeatureResult) : Prop :=
  r.guard < e.guard ∨ r.inputFingerprint.getD "" = e.inputFingerprint.getD "" ∧ availabilityDiffers r e = false

namespace OnlineStore

section
variable (view : String) (viewVersion : Int)

def storedValue (values : OnlineStore) (slot : FeatureSlot) : Option Value :=
  (Dict.get? values slot).map FeatureResult.value

/-- What a write leaves in its slot is at least as new as the write, and as what was there. -/
theorem write_dominates (values : OnlineStore) (r : FeatureResult) (slot : FeatureSlot) :
    (r.slot view viewVersion = slot →
      ∃ e, Dict.get? (values.write view viewVersion r).2 slot = some e ∧ r.guard ≤ e.guard) ∧
    ∀ x, Dict.get? values slot = some x →
      ∃ e, Dict.get? (values.write view viewVersion r).2 slot = some e ∧ x.guard ≤ e.guard := by
  by_cases hr : r.slot view viewVersion = slot
  · cases hx : Dict.get? values slot with
    | none =>
      refine ⟨fun _ => ⟨r, write_first view viewVersion hr hx, le_refl _⟩, fun x h => ?_⟩
      cases h
    | some x =>
      obtain ⟨y, hy, -, hxy, hry⟩ := write_keeps_greater view viewVersion hr hx
      refine ⟨fun _ => ⟨y, hy, hry⟩, fun x' h => ?_⟩
      cases h
      exact ⟨y, hy, hxy⟩
  · have hget := get?_write values view viewVersion r slot
    rw [if_neg fun h => hr h.1] at hget
    exact ⟨fun h => absurd h hr, fun x hx => ⟨x, hget.trans hx, le_refl _⟩⟩

/-- After any writes a slot holds a record at least as new as each write that went to it. -/
theorem writeMany_dominates (values : OnlineStore) (ws : List FeatureResult) {r : FeatureResult} (hr : r ∈ ws) :
    ∃ e, Dict.get? (values.writeMany view viewVersion ws).2 (r.slot view viewVersion) = some e ∧
      r.guard ≤ e.guard := by
  induction ws using List.reverseRecOn with
  | nil => cases hr
  | append_singleton ws w ih =>
    rw [writeMany_append]
    have hw := write_dominates view viewVersion (values.writeMany view viewVersion ws).2 w (r.slot view viewVersion)
    rcases List.mem_append.mp hr with h | h
    · obtain ⟨x, hx, hle⟩ := ih h
      obtain ⟨e, he, hxe⟩ := hw.2 x hx
      exact ⟨e, he, le_trans hle hxe⟩
    · rw [List.mem_singleton] at h
      subst h
      exact hw.1 rfl

end

end OnlineStore

/-- A redelivered write leaves the stored value as it is exactly when the record stored by then outranks it or has
its value. -/
theorem redelivery_unchanged_iff (view : String) (viewVersion : Int) (values : OnlineStore)
    (before after : List FeatureResult) (r r' : FeatureResult) (hr : Redelivers r r') :
    let slot := r.slot view viewVersion
    let s := (values.writeMany view viewVersion (before ++ r :: after)).2
    ∃ e, Dict.get? s slot = some e ∧
      ((s.write view viewVersion r').2.storedValue slot = s.storedValue slot ↔
        outranks e r ∨ e.value = r.value) := by
  intro slot s
  have hmem : r ∈ before ++ r :: after := List.mem_append_right _ List.mem_cons_self
  obtain ⟨e, he, hle⟩ := OnlineStore.writeMany_dominates view viewVersion values _ hmem
  refine ⟨e, he, ?_⟩
  have hstored := @decideOver_stored e r'
  rw [hr.guard_eq, hr.inputFingerprint, hr.availabilityDiffers_eq] at hstored
  have hget := OnlineStore.get?_write s view viewVersion r' slot
  have hs : Dict.get? s slot = some e := he
  rw [hr.slot_eq, hs] at hget
  simp only [OnlineStore.storedValue, hget, hs]
  by_cases hso : (decideOver (some e) r').stored = true
  · -- the redelivery replaces the record, so the stored value stays only if it is the same
    rw [if_pos ⟨rfl, hso⟩]
    have hnot : ¬ outranks e r := by
      rintro (h | ⟨hf, ha⟩)
      · rcases hstored.mp hso with h' | ⟨h', -⟩
        · exact absurd h (lt_asymm h')
        · exact absurd h' (ne_of_gt h)
      · rcases hstored.mp hso with h' | ⟨-, h' | h'⟩
        · exact absurd h' (not_lt_of_ge hle)
        · exact h' hf
        · rw [ha] at h'
          cases h'
    simp only [Option.map_some, Option.some.injEq, hr.value, hnot, false_or]
    exact eq_comm
  · rw [if_neg fun h => hso h.2]
    refine ⟨fun _ => .inl ?_, fun _ => rfl⟩
    rcases lt_or_eq_of_le hle with hlt | heq
    · exact .inl hlt
    · have hno := fun h => hso (hstored.mpr (.inr ⟨heq.symm, h⟩))
      refine .inr ⟨?_, ?_⟩
      · by_contra hf
        exact hno (.inl hf)
      · cases ha : availabilityDiffers r e with
        | false => rfl
        | true => exact absurd (.inr ha) hno

theorem redelivery_unchanged_iff_first :
    let slot := (scoreAt 1 1 "fp1").slot "risk" 1
    let s := (OnlineStore.writeMany [] "risk" 1 ([] ++ scoreAt 1 1 "fp1" :: [scoreAt 2 2 "fp2"])).2
    ∃ e, Dict.get? s slot = some e ∧
      ((s.write "risk" 1 (scoreAt 1 3 "fp1")).2.storedValue slot = s.storedValue slot ↔
        outranks e (scoreAt 1 1 "fp1") ∨ e.value = (scoreAt 1 1 "fp1").value) :=
  redelivery_unchanged_iff "risk" 1 [] [] [scoreAt 2 2 "fp2"] (scoreAt 1 1 "fp1") (scoreAt 1 3 "fp1")
    ⟨rfl, rfl, rfl, rfl, rfl, rfl, rfl, rfl⟩

/-- A score and its correction from other inputs of the same times; the score comes again. -/
def scoreAndCorrection : List FeatureResult := [scoreAt 1 1 "fp1", scoreAt 2 2 "fp2"]

theorem redelivery_undoes_correction :
    let s := (OnlineStore.writeMany [] "risk" 1 scoreAndCorrection).2
    scoreAt 1 1 "fp1" ∈ scoreAndCorrection ∧ Redelivers (scoreAt 1 1 "fp1") (scoreAt 1 1 "fp1") ∧
      s.storedValue scoreSlot = some (.int 2) ∧
      (s.write "risk" 1 (scoreAt 1 1 "fp1")).2.storedValue scoreSlot = some (.int 1) ∧
      (s.write "risk" 1 (scoreAt 1 1 "fp1")).2.storedValue scoreSlot ≠ s.storedValue scoreSlot := by
  have h₁ : (OnlineStore.writeMany [] "risk" 1 scoreAndCorrection).2.storedValue scoreSlot = some (.int 2) := rfl
  have h₂ : ((OnlineStore.writeMany [] "risk" 1 scoreAndCorrection).2.write "risk" 1
      (scoreAt 1 1 "fp1")).2.storedValue scoreSlot = some (.int 1) := rfl
  refine ⟨List.mem_cons_self, ⟨rfl, rfl, rfl, rfl, rfl, rfl, rfl, rfl⟩, h₁, h₂, ?_⟩
  rw [h₁, h₂]
  simp

end ClearFeature
