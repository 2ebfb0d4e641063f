import ClearFeature.Lib.Dict
import ClearFeature.Value

/-!
# Entity key encoding (`fs_core/keycodec.py`)

An entity key is a set of named text parts, written `name=value|name=value`.
The two separators are refused inside names and values.
-/

namespace ClearFeature

def hasChar (c : Char) (s : String) : Bool := s.toList.contains c

def checkReserved (label token : String) : Except PyErr Unit :=
  let refuse := fun char => PyErr.valueError s!"entity key {label} {reprStr token} must not contain {reprStr char}"
  if hasChar '|' token then .error (refuse "|")
  else if hasChar '=' token then .error (refuse "=")
  else .ok ()

def validatePart (name value : String) : Except PyErr Unit :=
  if isBlank name then .error (.valueError "entity key part name must be non-empty")
  else if isBlank value then
    .error (.valueError s!"entity key value for {reprStr name} must be non-empty")
  else do
    checkReserved "name" name
    checkReserved "value" value

def validateParts : List (String × String) → Except PyErr Unit
  | [] => .ok ()
  | (name, value) :: parts => do
    validatePart name value
    validateParts parts

def validateKeyOrder (parts : List (String × String)) (keyOrder : List String) : Except PyErr Unit :=
  if keyOrder.length ≠ parts.length ∨ ¬ (∀ n ∈ keyOrder, n ∈ Dict.keys parts) ∨ ¬ (∀ n ∈ Dict.keys parts, n ∈ keyOrder)
  then .error (.valueError "key_order must contain exactly the keys of the entity key")
  else .ok ()

def sortNames (names : List String) : List String := names.insertionSort (· ≤ ·)

/-- `parts[name]`; the key order has been checked against the parts. -/
def partOf (parts : List (String × String)) (name : String) : String := (Dict.get? parts name).getD ""

def joinParts (parts : List (String × String)) : String :=
  "|".intercalate (parts.map fun p => p.1 ++ "=" ++ p.2)

def encodeEntityKey (parts : List (String × String)) (keyOrder : Option (List String)) : Except PyErr String :=
  if parts.isEmpty then .error (.valueError "entity key must have at least one part")
  else do
    validateParts parts
    let names ← match keyOrder with
      | none => pure (sortNames (Dict.keys parts))
      | some order => do
        validateKeyOrder parts order
        pure order
    pure (joinParts (names.map fun n => (n, partOf parts n)))

/-- `dict(pairs)`: a later pair replaces an earlier one of the same name. -/
def dictOf (pairs : List (String × String)) : List (String × String) :=
  pairs.foldl (fun d p => Dict.set d p.1 p.2) []

/-- `EntityKey.encode` on the raw parts. -/
def encodeParts (parts : List (String × String)) : Except PyErr String :=
  encodeEntityKey (dictOf parts) (some (Dict.keys parts))

end ClearFeature
