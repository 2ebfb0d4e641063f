import ClearFeature.Models
import Mathlib.Data.Prod.Lex

/-!
# Write guard (`fs_core/write_guard.py`)

Online writes are ordered by the pair of event time and newest input, compared
lexicographically. Equal pairs are told apart by input fingerprint and trusted
availability.
-/

namespace ClearFeature

inductive WriteOutcome where
  | written
  | writtenRecompute
  | skippedStale
  | noop
  deriving DecidableEq, Repr

/-- `WRITE_OUTCOMES`: the value was stored. -/
def WriteOutcome.stored : WriteOutcome → Bool
  | .written | .writtenRecompute => true
  | .skippedStale | .noop => false

abbrev GuardTuple := Int ×ₗ Int

def guardTuple (dataTs : Int) (maxInputDataTs : Option Int) : GuardTuple :=
  toLex (dataTs, maxInputDataTs.getD dataTs)

def decideWrite (incomingTuple : GuardTuple) (incomingFingerprint : Option String)
    (currentTuple : Option GuardTuple) (currentFingerprint : Option String)
    (incomingAvailableAt currentAvailableAt : Option Int) : WriteOutcome :=
  match currentTuple with
  | none => .written
  | some current =>
    if current < incomingTuple then .written
    else if incomingTuple < current then .skippedStale
    else if incomingFingerprint.getD "" = currentFingerprint.getD "" then
      match incomingAvailableAt, currentAvailableAt with
      | some a, some b => if a ≠ b then .writtenRecompute else .noop
      | _, _ => .noop
    else .writtenRecompute

def FeatureResult.guard (r : FeatureResult) : GuardTuple := guardTuple r.dataTs r.maxInputDataTs

/-- Both results carry a trusted availability and the two differ. -/
def availabilityDiffers (r e : FeatureResult) : Bool :=
  match trustedAvailableAt r, trustedAvailableAt e with
  | some a, some b => a ≠ b
  | _, _ => false

def decideOver (existing : Option FeatureResult) (r : FeatureResult) : WriteOutcome :=
  decideWrite r.guard r.inputFingerprint (existing.map FeatureResult.guard) (existing.bind (·.inputFingerprint))
    (trustedAvailableAt r) (existing.bind trustedAvailableAt)

theorem decideOver_none (r : FeatureResult) : decideOver none r = .written := rfl

/-- When a stored result gives way to another: the guard pair grows, or it stays and the inputs differ. -/
theorem decideOver_stored {e r : FeatureResult} : (decideOver (some e) r).stored = true ↔
    e.guard < r.guard ∨ e.guard = r.guard ∧
      (r.inputFingerprint.getD "" ≠ e.inputFingerprint.getD "" ∨ availabilityDiffers r e = true) := by
  simp only [decideOver, decideWrite, Option.map_some, Option.bind_some, availabilityDiffers]
  rcases lt_trichotomy e.guard r.guard with h | h | h
  · simp [h, WriteOutcome.stored]
  · rw [if_neg (by simp [h]), if_neg (by simp [h])]
    by_cases hf : r.inputFingerprint.getD "" = e.inputFingerprint.getD ""
    · rw [if_pos hf]
      cases trustedAvailableAt r with
      | none => simp [WriteOutcome.stored, h, hf]
      | some a =>
        cases trustedAvailableAt e with
        | none => simp [WriteOutcome.stored, h, hf]
        | some b => by_cases hab : a = b <;> simp [WriteOutcome.stored, h, hf, hab]
    · rw [if_neg hf]
      simp [WriteOutcome.stored, h, hf]
  · have hlt : ¬ e.guard < r.guard := not_lt_of_gt h
    have hne : e.guard ≠ r.guard := ne_of_gt h
    simp [hlt, h, hne, WriteOutcome.stored]

end ClearFeature
