import ClearFeature.Models

/-!
# Canonical hashing (`fs_core/hashing.py`)

SHA-256 over canonical JSON text is a parameter: a function of the text's tokens.
-/

namespace ClearFeature

abbrev Sha256 := List JsonTok → String

def valueHash (sha256 : Sha256) (v : Value) : String := "sha256:" ++ sha256 (canonicalValueJson v)

/-- The instant lies in the years 1 to 9999 of UTC; `astimezone` raises for any other. -/
def InUtcYears (t : Int) : Prop := -62135596800000000 ≤ t ∧ t ≤ 253402300799999999

instance (t : Int) : Decidable (InUtcYears t) := inferInstanceAs (Decidable (_ ∧ _))

/-- `(input_id, input_data_ts, input_value_hash)`. -/
abbrev InputTuple := String × Int × String

/-- List comparison of `[input_id, epoch_us, hash]`. -/
def InputTuple.le (a b : InputTuple) : Prop :=
  a.1 < b.1 ∨ a.1 = b.1 ∧ (a.2.1 < b.2.1 ∨ a.2.1 = b.2.1 ∧ a.2.2 ≤ b.2.2)

instance : DecidableRel InputTuple.le := fun _ _ => inferInstanceAs (Decidable (_ ∨ _))

def InputTuple.json (i : InputTuple) : Value := .arr [.str i.1, .int i.2.1, .str i.2.2]

def fingerprintText (inputs : List InputTuple) : List JsonTok :=
  canonicalValueJson (.arr ((inputs.insertionSort InputTuple.le).map InputTuple.json))

def inputFingerprint (sha256 : Sha256) (inputs : List InputTuple) : String :=
  "sha256:" ++ sha256 (fingerprintText inputs)

/-- SHA-256 on the texts listed with their digests. -/
def digestTable (table : List (List JsonTok × String)) : Sha256 := fun text => (Dict.get? table text).getD ""

end ClearFeature
