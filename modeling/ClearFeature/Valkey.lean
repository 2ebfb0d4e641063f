import ClearFeature.Lib.Double
import ClearFeature.Lib.Runs
import ClearFeature.Stores

/-!
# The Valkey online store (`fs_core/stores/valkey_online.py`)

One hash field holds the record of one result. The write script decides on the
server: it decodes the stored record, where numbers become doubles, and
compares availabilities as the texts they were written with.
-/

namespace ClearFeature

/-! ## Times as they are written -/

/-- A timezone-aware datetime: an instant and the UTC offset it is given in. -/
structure AwareTime where
  instant : Int
  offset : Int
  deriving DecidableEq

/-- What `isoformat` writes: the wall clock and the offset. -/
structure IsoText where
  wallClock : Int
  offset : Int
  deriving DecidableEq

def AwareTime.isoformat (t : AwareTime) : IsoText := ⟨t.instant + t.offset, t.offset⟩

def fromisoformat (text : IsoText) : AwareTime := ⟨text.wallClock - text.offset, text.offset⟩

@[simp] theorem fromisoformat_isoformat (t : AwareTime) : fromisoformat t.isoformat = t := by
  simp [fromisoformat, AwareTime.isoformat]

theorem isoformat_inj {s t : AwareTime} : s.isoformat = t.isoformat ↔ s = t := by
  refine ⟨fun h => ?_, fun h => by rw [h]⟩
  rw [← fromisoformat_isoformat s, h, fromisoformat_isoformat]

structure Offsets where
  dataTs : Int := 0
  calcTs : Int := 0
  maxInputDataTs : Int := 0
  availableAt : Int := 0
  deriving DecidableEq

/-- A result together with the offsets its datetimes are given in. -/
structure AwareResult extends FeatureResult where
  offsets : Offsets := {}

namespace AwareResult

def dataTime (r : AwareResult) : AwareTime := ⟨r.dataTs, r.offsets.dataTs⟩

def calcTime (r : AwareResult) : AwareTime := ⟨r.calcTs, r.offsets.calcTs⟩

def maxInputDataTime (r : AwareResult) : Option AwareTime := r.maxInputDataTs.map (⟨·, r.offsets.maxInputDataTs⟩)

def availableTime (r : AwareResult) : Option AwareTime := r.availableAt.map (⟨·, r.offsets.availableAt⟩)

/-- `trusted_available_at` with its offset. -/
def trustedTime (r : AwareResult) : Option AwareTime :=
  (trustedAvailableAt r.toFeatureResult).map (⟨·, r.offsets.availableAt⟩)

end AwareResult

/-! ## Records -/

/-- The fields of the stored JSON text. -/
structure ValkeyRecord where
  value : Value
  dataTs : IsoText
  calcTs : IsoText
  dataTsEpochUs : Int
  maxInputDataTs : Option IsoText
  maxInputDataTsEpochUs : Int
  inputFingerprint : Option String
  valueHash : Option String
  availableAt : Option IsoText
  availabilitySource : Option AvailabilitySource

def encodeRecord (r : AwareResult) (epochUs maxEpochUs : Int) : ValkeyRecord where
  value := r.value
  dataTs := r.dataTime.isoformat
  calcTs := r.calcTime.isoformat
  dataTsEpochUs := epochUs
  maxInputDataTs := r.maxInputDataTime.map AwareTime.isoformat
  maxInputDataTsEpochUs := maxEpochUs
  inputFingerprint := r.inputFingerprint
  valueHash := r.valueHash
  availableAt := r.availableTime.map AwareTime.isoformat
  availabilitySource := r.availabilitySource

/-- The record of a result, with the arguments `write` passes. -/
def AwareResult.record (r : AwareResult) : ValkeyRecord :=
  encodeRecord r r.dataTs (r.maxInputDataTs.getD r.dataTs)

def decodeRecord (record : ValkeyRecord) (ref : FeatureRef) (entityKey : EntityKey) : FeatureResult where
  ref := ref
  entityKey := entityKey
  value := record.value
  dataTs := (fromisoformat record.dataTs).instant
  calcTs := (fromisoformat record.calcTs).instant
  maxInputDataTs := record.maxInputDataTs.map fun text => (fromisoformat text).instant
  inputFingerprint := record.inputFingerprint
  valueHash := record.valueHash
  availableAt := record.availableAt.map fun text => (fromisoformat text).instant
  availabilitySource := record.availabilitySource

/-- What a reader of the store gets of a result: the model lineage is not stored. -/
def FeatureResult.served (r : FeatureResult) : FeatureResult :=
  { r with modelUri := none, modelDigest := none, modelOutputName := none, bundleDigest := none }

theorem decode_record (r : AwareResult) : decodeRecord r.record r.ref r.entityKey = r.toFeatureResult.served := by
  simp only [decodeRecord, AwareResult.record, encodeRecord, fromisoformat_isoformat, Option.map_map,
    AwareResult.dataTime, AwareResult.calcTime, AwareResult.maxInputDataTime, AwareResult.availableTime,
    FeatureResult.served]
  cases r.maxInputDataTs <;> cases r.availableAt <;> simp

/-! ## The script -/

/-- The nesting that `cjson.decode` accepts. -/
def cjsonMaxDepth : Nat := 1000

/-- The value of the field after the script, and its return code. -/
abbrev ScriptOut := Nat × Option ValkeyRecord

def d9Script (cur : Option ValkeyRecord) (record : ValkeyRecord) (dataTsEpochUs maxInputDataTsEpochUs : Int)
    (fingerprint : String) (availableAt : Option IsoText) : Except PyErr ScriptOut :=
  match cur with
  | none => .ok (1, some record)
  | some c =>
    if cjsonMaxDepth < c.value.depth + 1 then .error (.other "ResponseError" "Found too many nested data structures")
    else
      let curDts := Double.ofInt c.dataTsEpochUs
      let curMax := Double.ofInt c.maxInputDataTsEpochUs
      let inDts := Double.ofInt dataTsEpochUs
      let inMax := Double.ofInt maxInputDataTsEpochUs
      if inDts < curDts ∨ inDts = curDts ∧ inMax < curMax then .ok (0, some c)
      else if inDts = curDts ∧ inMax = curMax then
        if fingerprint = c.inputFingerprint.getD "" then
          let curAv := if c.availabilitySource = some .sourceProvided then c.availableAt else none
          match availableAt, curAv with
          | some a, some b => if a ≠ b then .ok (3, some record) else .ok (2, some c)
          | _, _ => .ok (2, some c)
        else .ok (3, some record)
      else .ok (1, some record)

def outcomeByCode : Nat → WriteOutcome
  | 0 => .skippedStale
  | 1 => .written
  | 2 => .noop
  | _ => .writtenRecompute

/-- `ValkeyOnlineStore.write` on the field of the result. -/
def valkeyWrite (cur : Option ValkeyRecord) (r : AwareResult) : Except PyErr (WriteOutcome × Option ValkeyRecord) := do
  let (code, field) ← d9Script cur r.record r.dataTs (r.maxInputDataTs.getD r.dataTs) (r.inputFingerprint.getD "")
    (r.trustedTime.map AwareTime.isoformat)
  .ok (outcomeByCode code, field)

end ClearFeature
