import ClearFeature.Keycodec

/-!
# Core value objects (`fs_core/models.py`)

Every stored timestamp is timezone-aware, so it is an instant: UTC epoch
microseconds (`to_epoch_us`), an `Int`; a `timedelta` is a number of
microseconds. Naive datetimes exist only on the wire.
-/

namespace ClearFeature

/-- A validated key together with its encoding. -/
structure EntityKey where
  parts : List (String × String)
  encoded : String
  valid : encodeParts parts = .ok encoded
  deriving DecidableEq

namespace EntityKey

/-- The dataclass constructor: the parts must encode. -/
def ofParts (parts : List (String × String)) : Except PyErr EntityKey :=
  match h : encodeParts parts with
  | .ok s => .ok ⟨parts, s, h⟩
  | .error e => .error e

def encode (k : EntityKey) : String := k.encoded

def fromMapping (parts : List (String × String)) (keyOrder : Option (List String)) : Except PyErr EntityKey := do
  let _ ← encodeEntityKey parts keyOrder
  let names := keyOrder.getD (sortNames (Dict.keys parts))
  ofParts (names.map fun n => (n, partOf parts n))

end EntityKey

/-- The entity an event is about (`fs_core/events/models.py`). -/
structure EntityRef where
  entityType : String
  entityKey : List (String × String)
  deriving DecidableEq

/-- The partition key of the entity's events. -/
def EntityRef.encoded (e : EntityRef) : Except PyErr String := encodeEntityKey e.entityKey none

structure FeatureRef where
  name : String
  version : Int
  name_ok : isBlank name = false
  version_ok : 1 ≤ version
  deriving DecidableEq

def FeatureRef.encode (r : FeatureRef) : String := s!"{r.name}:v{r.version}"

inductive AvailabilitySource where
  | sourceProvided
  | ingestionTime
  | other (s : String)
  deriving DecidableEq

structure SourceStamp where
  reportTs : Int
  contentHash : String
  availableAt : Option Int := none
  availabilitySource : Option AvailabilitySource := none
  hash_ok : isBlank contentHash = false
  deriving DecidableEq

structure FeatureResult where
  ref : FeatureRef
  entityKey : EntityKey
  value : Value
  dataTs : Int
  calcTs : Int
  maxInputDataTs : Option Int := none
  inputFingerprint : Option String := none
  valueHash : Option String := none
  availableAt : Option Int := none
  availabilitySource : Option AvailabilitySource := none
  modelUri : Option String := none
  modelDigest : Option String := none
  modelOutputName : Option String := none
  bundleDigest : Option String := none

/-- The availability that takes part in replay identity: a fully source-provided claim only. -/
def trustedAvailableAt (r : FeatureResult) : Option Int :=
  if r.availabilitySource = some .sourceProvided then r.availableAt else none

end ClearFeature
