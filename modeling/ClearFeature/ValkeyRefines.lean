import ClearFeature.Dedup
import ClearFeature.Valkey
import Mathlib.Algebra.Group.Nat.Defs

/-!
# The write script against the write guard

The script and `decide_write` agree on a stored and an incoming result when
their guard pairs compare as doubles as they do exactly, and when equal
availabilities are written alike. Sequences of such writes keep the two stores
equal.
-/

namespace ClearFeature

/-- The guard pair as the script compares it. -/
def AwareResult.luaGuard (r : AwareResult) : GuardTuple :=
  toLex (Double.ofInt r.dataTs, Double.ofInt (r.maxInputDataTs.getD r.dataTs))

def heldAfter (stored : Option AwareResult) (r : AwareResult) : AwareResult :=
  if (decideOver (stored.map AwareResult.toFeatureResult) r.toFeatureResult).stored then r else stored.getD r

/-- The script returns the guard's outcome and leaves the record of what the in-memory store holds. -/
def WritesAgree (stored : Option AwareResult) (r : AwareResult) : Prop :=
  valkeyWrite (stored.map AwareResult.record) r =
    .ok (decideOver (stored.map AwareResult.toFeatureResult) r.toFeatureResult, some (heldAfter stored r).record)

/-- The stored record decodes, rounding to doubles keeps the order of the guard pairs, and where the availabilities
decide, one instant is written with one offset. -/
structure Comparable (e r : AwareResult) : Prop where
  decodes : e.value.depth < cjsonMaxDepth
  older : r.luaGuard < e.luaGuard ↔ r.guard < e.guard
  newer : e.luaGuard < r.luaGuard ↔ e.guard < r.guard
  offsets : e.guard = r.guard → r.inputFingerprint.getD "" = e.inputFingerprint.getD "" →
    ∀ s t, r.trustedTime = some s → e.trustedTime = some t → s.instant = t.instant → s.offset = t.offset

/-- Times within 2^53 microseconds of the epoch compare as doubles as they do exactly. -/
def AwareResult.Recent (r : AwareResult) : Prop :=
  r.dataTs.natAbs < 2 ^ 53 ∧ (r.maxInputDataTs.getD r.dataTs).natAbs < 2 ^ 53

theorem AwareResult.Recent.luaGuard {r : AwareResult} (h : r.Recent) : r.luaGuard = r.guard := by
  unfold AwareResult.luaGuard FeatureResult.guard guardTuple
  rw [Double.ofInt_exact h.1, Double.ofInt_exact h.2]

theorem Comparable.of_recent {e r : AwareResult} (he : e.Recent) (hr : r.Recent) (hd : e.value.depth < cjsonMaxDepth)
    (ho : r.offsets.availableAt = e.offsets.availableAt) : Comparable e r := by
  refine ⟨hd, by rw [he.luaGuard, hr.luaGuard], by rw [he.luaGuard, hr.luaGuard], ?_⟩
  intro _ _ s t hs ht _
  obtain ⟨a, -, rfl⟩ := Option.map_eq_some_iff.mp hs
  obtain ⟨b, -, rfl⟩ := Option.map_eq_some_iff.mp ht
  exact ho

/-! ## One write -/

theorem trustedTime_record (e : AwareResult) :
    (if e.record.availabilitySource = some .sourceProvided then e.record.availableAt else none) =
      e.trustedTime.map AwareTime.isoformat := by
  unfold AwareResult.trustedTime trustedAvailableAt
  show (if e.availabilitySource = some .sourceProvided then e.availableTime.map AwareTime.isoformat else none) = _
  split
  · rfl
  · rfl

theorem trustedTime_instant (r : AwareResult) :
    r.trustedTime.map AwareTime.instant = trustedAvailableAt r.toFeatureResult := by
  unfold AwareResult.trustedTime
  cases trustedAvailableAt r.toFeatureResult <;> rfl

/-- The four outcomes, from how the guard pairs, the fingerprints and the availabilities compare. -/
def outcomeOf (older newer sameInputs differ : Bool) : WriteOutcome :=
  bif older then .skippedStale
  else bif newer then .written
  else bif sameInputs then bif differ then .writtenRecompute else .noop
  else .writtenRecompute

theorem outcomeOf_inj {older newer older' newer' sameInputs differ differ' : Bool} (h : (older && newer) = false)
    (h' : (older' && newer') = false) :
    outcomeOf older newer sameInputs differ = outcomeOf older' newer' sameInputs differ' ↔
      older = older' ∧ newer = newer' ∧
        (older = false → newer = false → sameInputs = true → differ = differ') := by
  cases older <;> cases newer <;> cases older' <;> cases newer' <;> cases sameInputs <;> cases differ <;>
    cases differ' <;> simp_all [outcomeOf]

def timesDiffer (s t : Option AwareTime) : Bool :=
  match s, t with
  | some s, some t => s ≠ t
  | _, _ => false

def sameInputs (e r : AwareResult) : Bool := r.inputFingerprint.getD "" = e.inputFingerprint.getD ""

def scriptOutcome (e r : AwareResult) : WriteOutcome :=
  outcomeOf (r.luaGuard < e.luaGuard) (e.luaGuard < r.luaGuard) (sameInputs e r) (timesDiffer r.trustedTime e.trustedTime)

theorem valkeyWrite_some {e r : AwareResult} (hd : e.value.depth < cjsonMaxDepth) :
    valkeyWrite (some e.record) r =
      .ok (scriptOutcome e r, some (if (scriptOutcome e r).stored then r else e).record) := by
  have hdec : ¬ cjsonMaxDepth < e.record.value.depth + 1 := by
    show ¬ cjsonMaxDepth < e.value.depth + 1
    omega
  have hlt : (Double.ofInt r.dataTs < Double.ofInt e.record.dataTsEpochUs ∨
      Double.ofInt r.dataTs = Double.ofInt e.record.dataTsEpochUs ∧
        Double.ofInt (r.maxInputDataTs.getD r.dataTs) < Double.ofInt e.record.maxInputDataTsEpochUs) ↔
      r.luaGuard < e.luaGuard := by
    unfold AwareResult.luaGuard
    rw [Prod.Lex.toLex_lt_toLex]
    rfl
  have heq : (Double.ofInt r.dataTs = Double.ofInt e.record.dataTsEpochUs ∧
      Double.ofInt (r.maxInputDataTs.getD r.dataTs) = Double.ofInt e.record.maxInputDataTsEpochUs) ↔
      r.luaGuard = e.luaGuard := by
    unfold AwareResult.luaGuard
    rw [toLex_inj, Prod.mk.injEq]
    rfl
  have hfp : (r.inputFingerprint.getD "" = e.record.inputFingerprint.getD "") ↔ sameInputs e r = true := by
    unfold sameInputs
    rw [decide_eq_true_iff]
    rfl
  simp only [valkeyWrite, d9Script, if_neg hdec, trustedTime_record, hlt, heq, hfp]
  unfold scriptOutcome
  rcases lt_trichotomy r.luaGuard e.luaGuard with h | h | h
  · simp [h, outcomeOf, outcomeByCode, WriteOutcome.stored]
  · cases sameInputs e r with
    | false => simp [h, outcomeOf, outcomeByCode, WriteOutcome.stored]
    | true =>
      cases r.trustedTime with
      | none => simp [h, outcomeOf, outcomeByCode, WriteOutcome.stored, timesDiffer]
      | some s =>
        cases e.trustedTime with
        | none => simp [h, outcomeOf, outcomeByCode, WriteOutcome.stored, timesDiffer]
        | some t =>
          by_cases hst : s = t
          · simp [h, hst, outcomeOf, outcomeByCode, WriteOutcome.stored, timesDiffer]
          · simp [h, hst, outcomeOf, outcomeByCode, WriteOutcome.stored, timesDiffer, isoformat_inj]
  · simp [h, not_lt_of_gt h, ne_of_gt h, outcomeOf, outcomeByCode, WriteOutcome.stored]

theorem decideOver_some (e r : AwareResult) :
    decideOver (some e.toFeatureResult) r.toFeatureResult =
      outcomeOf (r.guard < e.guard) (e.guard < r.guard) (sameInputs e r)
        (availabilityDiffers r.toFeatureResult e.toFeatureResult) := by
  simp only [decideOver, decideWrite, Option.map_some, Option.bind_some, availabilityDiffers]
  rcases lt_trichotomy r.guard e.guard with h | h | h
  · simp [h, not_lt_of_gt h, outcomeOf]
  · by_cases hf : r.inputFingerprint.getD "" = e.inputFingerprint.getD ""
    · cases trustedAvailableAt r.toFeatureResult with
      | none => simp [h, hf, outcomeOf, sameInputs]
      | some a =>
        cases trustedAvailableAt e.toFeatureResult with
        | none => simp [h, hf, outcomeOf, sameInputs]
        | some b => by_cases hab : a = b <;> simp [h, hf, hab, outcomeOf, sameInputs]
    · simp [h, hf, outcomeOf, sameInputs]
  · simp [h, not_lt_of_gt h, outcomeOf]

/-- The availabilities differ as texts exactly when they differ as instants, if one instant has one offset. -/
theorem timesDiffer_iff {e r : AwareResult} :
    timesDiffer r.trustedTime e.trustedTime = availabilityDiffers r.toFeatureResult e.toFeatureResult ↔
      ∀ s t, r.trustedTime = some s → e.trustedTime = some t → s.instant = t.instant → s.offset = t.offset := by
  unfold availabilityDiffers
  rw [← trustedTime_instant r, ← trustedTime_instant e]
  cases r.trustedTime with
  | none => simp [timesDiffer]
  | some s =>
    cases e.trustedTime with
    | none => simp [timesDiffer]
    | some t =>
      obtain ⟨i, o⟩ := s
      obtain ⟨j, p⟩ := t
      by_cases hi : i = j
      · simp [timesDiffer, hi]
      · simp [timesDiffer, hi]

theorem writesAgree_some {e r : AwareResult} : WritesAgree (some e) r ↔ Comparable e r := by
  have hlua : (decide (r.luaGuard < e.luaGuard) && decide (e.luaGuard < r.luaGuard)) = false := by
    simp only [Bool.and_eq_false_iff, decide_eq_false_iff_not]
    exact (lt_or_ge r.luaGuard e.luaGuard).symm.imp not_lt_of_ge not_lt_of_gt
  have hexact : (decide (r.guard < e.guard) && decide (e.guard < r.guard)) = false := by
    simp only [Bool.and_eq_false_iff, decide_eq_false_iff_not]
    exact (lt_or_ge r.guard e.guard).symm.imp not_lt_of_ge not_lt_of_gt
  have hout : scriptOutcome e r = decideOver (some e.toFeatureResult) r.toFeatureResult ↔
      (r.luaGuard < e.luaGuard ↔ r.guard < e.guard) ∧ (e.luaGuard < r.luaGuard ↔ e.guard < r.guard) ∧
      (e.guard = r.guard → r.inputFingerprint.getD "" = e.inputFingerprint.getD "" →
        ∀ s t, r.trustedTime = some s → e.trustedTime = some t → s.instant = t.instant → s.offset = t.offset) := by
    rw [decideOver_some, scriptOutcome, outcomeOf_inj hlua hexact, ← timesDiffer_iff]
    simp only [decide_eq_decide, decide_eq_false_iff_not, sameInputs, decide_eq_true_iff]
    constructor
    · rintro ⟨h₁, h₂, h₃⟩
      refine ⟨h₁, h₂, fun hg hf => h₃ ?_ ?_ hf⟩
      · rw [h₁, hg]
        exact lt_irrefl _
      · rw [h₂, hg]
        exact lt_irrefl _
    · rintro ⟨h₁, h₂, h₃⟩
      refine ⟨h₁, h₂, fun hn hn' hf => h₃ ?_ hf⟩
      rw [h₁] at hn
      rw [h₂] at hn'
      exact le_antisymm (not_lt.mp hn) (not_lt.mp hn')
  unfold WritesAgree heldAfter
  simp only [Option.map_some, Option.getD_some]
  constructor
  · intro h
    by_cases hd : e.value.depth < cjsonMaxDepth
    · rw [valkeyWrite_some hd] at h
      simp only [Except.ok.injEq, Prod.mk.injEq] at h
      obtain ⟨h₁, h₂, h₃⟩ := hout.mp h.1
      exact ⟨hd, h₁, h₂, h₃⟩
    · have hdec : cjsonMaxDepth < e.record.value.depth + 1 := by
        show cjsonMaxDepth < e.value.depth + 1
        omega
      simp only [valkeyWrite, d9Script, if_pos hdec] at h
      cases h
  · intro h
    rw [valkeyWrite_some h.decodes, hout.mpr ⟨h.older, h.newer, h.offsets⟩]

theorem writesAgree_iff {stored : Option AwareResult} {r : AwareResult} :
    WritesAgree stored r ↔ ∀ e ∈ stored, Comparable e r := by
  cases stored with
  | none => exact ⟨fun _ _ h => (nomatch h), fun _ => rfl⟩
  | some e =>
    rw [writesAgree_some]
    exact ⟨fun h e' he => Option.some_inj.mp he ▸ h, fun h => h e rfl⟩

/-! ## Sequences of writes -/

/-- The writes of one key in order: the outcomes, and the field at the end. -/
def valkeyWrites (field : Option ValkeyRecord) : List AwareResult → Except PyErr (List WriteOutcome × Option ValkeyRecord)
  | [] => .ok ([], field)
  | r :: rs => do
    let (outcome, field) ← valkeyWrite field r
    let (outcomes, field) ← valkeyWrites field rs
    .ok (outcome :: outcomes, field)

def memoryWrites (view : String) (viewVersion : Int) (values : OnlineStore) :
    List AwareResult → List WriteOutcome × OnlineStore
  | [] => ([], values)
  | r :: rs =>
    let (outcome, values) := values.write view viewVersion r.toFeatureResult
    let (outcomes, values) := memoryWrites view viewVersion values rs
    (outcome :: outcomes, values)

theorem memory_heldAfter {view : String} {viewVersion : Int} {values : OnlineStore} {slot : FeatureSlot}
    {stored : Option AwareResult} {r : AwareResult} (hr : r.slot view viewVersion = slot)
    (hs : Dict.get? values slot = stored.map AwareResult.toFeatureResult) :
    Dict.get? (values.write view viewVersion r.toFeatureResult).2 slot = some (heldAfter stored r).toFeatureResult := by
  rw [OnlineStore.get?_write, hs]
  unfold heldAfter
  split
  · rename_i h
    rw [if_pos h.2]
  · rename_i h
    have hn : ¬ (decideOver (stored.map AwareResult.toFeatureResult) r.toFeatureResult).stored = true :=
      fun hst => h ⟨hr, hst⟩
    rw [if_neg hn]
    cases stored with
    | none => exact absurd rfl hn
    | some e => rfl

/-- While every write is comparable with what is held, both stores report the same outcomes and hold the same. -/
theorem writes_agree {view : String} {viewVersion : Int} {slot : FeatureSlot} : ∀ (ws : List AwareResult)
    (stored : Option AwareResult) (values : OnlineStore), (∀ r ∈ ws, r.slot view viewVersion = slot) →
    Dict.get? values slot = stored.map AwareResult.toFeatureResult →
    Runs.Steady (fun held r => some (heldAfter held r)) (fun held r => ∀ e ∈ held, Comparable e r) stored ws →
    ∃ held, valkeyWrites (stored.map AwareResult.record) ws =
        .ok ((memoryWrites view viewVersion values ws).1, Option.map AwareResult.record held) ∧
      Dict.get? (memoryWrites view viewVersion values ws).2 slot = Option.map AwareResult.toFeatureResult held ∧
      ∀ e ∈ held, e ∈ ws ∨ e ∈ stored
  | [], stored, values, _, hs, _ => ⟨stored, rfl, hs, fun e he => .inr he⟩
  | r :: ws, stored, values, hslot, hs, hc => by
    have hagree := writesAgree_iff.mpr hc.1
    have hr : r.slot view viewVersion = slot := hslot r (List.mem_cons_self ..)
    have hheld := memory_heldAfter hr hs
    obtain ⟨held, hrun, hget, hmem⟩ := writes_agree ws (some (heldAfter stored r))
      (values.write view viewVersion r.toFeatureResult).2 (fun r' h => hslot r' (List.mem_cons_of_mem _ h)) hheld hc.2
    have hout : (values.write view viewVersion r.toFeatureResult).1 =
        decideOver (stored.map AwareResult.toFeatureResult) r.toFeatureResult := by
      show decideOver (Dict.get? values (r.slot view viewVersion)) r.toFeatureResult = _
      rw [hr, hs]
    refine ⟨held, ?_, hget, fun e he => ?_⟩
    · unfold WritesAgree at hagree
      simp only [valkeyWrites, hagree, ok_bind]
      rw [show some (heldAfter stored r).record = (some (heldAfter stored r)).map AwareResult.record from rfl, hrun]
      simp only [ok_bind, memoryWrites, hout]
    · rcases hmem e he with h | h
      · exact .inl (List.mem_cons_of_mem _ h)
      · cases h
        unfold heldAfter
        split
        · exact .inl (List.mem_cons_self ..)
        · cases stored with
          | none => exact .inl (List.mem_cons_self ..)
          | some e => exact .inr rfl

def farScore (dataTs : Int) (fingerprint : String) : AwareResult :=
  { scoreAt 1 1 fingerprint with dataTs := dataTs, maxInputDataTs := some dataTs }

def claimedScore (offset : Int) : AwareResult :=
  { scoreAt 1 1 "fp1" with
    availableAt := some 5, availabilitySource := some .sourceProvided, offsets := { availableAt := offset } }

/-- Written with one offset, within 2^53 microseconds of the epoch, results are comparable in every order. -/
theorem steady_of_recent (offset : Int) : ∀ (ws : List AwareResult) (stored : Option AwareResult),
    (∀ r, r ∈ stored ∨ r ∈ ws → r.Recent ∧ r.value.depth < cjsonMaxDepth ∧ r.offsets.availableAt = offset) →
    Runs.Steady (fun held r => some (heldAfter held r)) (fun held r => ∀ e ∈ held, Comparable e r) stored ws
  | [], _, _ => trivial
  | r :: ws, stored, h => by
    obtain ⟨hr, -, hro⟩ := h r (.inr List.mem_cons_self)
    refine ⟨?_, steady_of_recent offset ws _ ?_⟩
    · intro e he
      obtain ⟨he', hd, heo⟩ := h e (.inl he)
      exact Comparable.of_recent he' hr hd (hro.trans heo.symm)
    · intro r' hr'
      rcases hr' with hheld | hr'
      · cases hheld
        unfold heldAfter
        split
        · exact h r (.inr List.mem_cons_self)
        · cases stored with
          | none => exact h r (.inr List.mem_cons_self)
          | some e => exact h e (.inl rfl)
      · exact h r' (.inr (List.mem_cons_of_mem _ hr'))

/-- A score, a newer one, the old one once more, a correction of the newer one, and the correction again. -/
def correctedScores : List AwareResult :=
  [claimedScore 0, farScore 1 "fp2", claimedScore 0, farScore 1 "fp3", farScore 1 "fp3"]

end ClearFeature
