import ClearFeature.Models

/-!
# Values from the wire

What Python does with a decoded JSON value whose type nobody has checked: truth,
hashing, subscripts, `list` and `dict`, and comparison with a whole number.
-/

namespace ClearFeature

/-- A parsed timestamp in microseconds: an instant, or a wall clock without an offset. -/
inductive WireTime where
  | aware (instant : Int)
  | naive (wallClock : Int)
  deriving DecidableEq

/-- `json.loads`, which raises with a text, `datetime.fromisoformat` on text, where `none` stands for its `ValueError`,
and the digest. -/
structure WireCodec where
  loads : Bytes → Except String Value
  fromisoformat : String → Option WireTime
  sha256 : Bytes → String

def requireAware (time : WireTime) (name : String) : Except PyErr Int :=
  match time with
  | .aware instant => .ok instant
  | .naive _ => .error (.valueError s!"{name} must be timezone-aware")

@[simp] theorem requireAware_aware (instant : Int) (name : String) : requireAware (.aware instant) name = .ok instant := rfl

namespace Value

def typeName : Value → String
  | .null => "NoneType"
  | .bool _ => "bool"
  | .int _ => "int"
  | .float _ => "float"
  | .str _ => "str"
  | .arr _ => "list"
  | .obj _ => "dict"

def isNone : Value → Bool
  | .null => true
  | _ => false

/-- `bool(value)` -/
def truthy : Value → Bool
  | .null => false
  | .bool b => b
  | .int n => decide (n ≠ 0)
  | .float x => decide (x.mant ≠ 0)
  | .str s => decide (s ≠ "")
  | .arr xs => !xs.isEmpty
  | .obj kvs => !kvs.isEmpty

/-- A hashable value as a dictionary key: two are one key if they are equal. -/
abbrev Key := List JsonTok

def asKey : Value → Except PyErr Key
  | .arr _ => .error (.typeError "unhashable type: 'list'")
  | .obj _ => .error (.typeError "unhashable type: 'dict'")
  | v => .ok (v.toks true)

/-! ## Subscripts -/

/-- `data[name]` -/
def item (data : Value) (name : String) : Except PyErr Value :=
  match data with
  | .obj kvs =>
    match Dict.get? kvs name with
    | some v => .ok v
    | none => .error (.keyError (reprStr name))
  | .str _ => .error (.typeError "string indices must be integers, not 'str'")
  | .arr _ => .error (.typeError "list indices must be integers or slices, not str")
  | v => .error (.typeError s!"{reprStr v.typeName} object is not subscriptable")

/-- `data.get(name, default)` -/
def getOr (data : Value) (name : String) (default : Value) : Except PyErr Value :=
  match data with
  | .obj kvs => .ok ((Dict.get? kvs name).getD default)
  | v => .error (.attributeError s!"{reprStr v.typeName} object has no attribute 'get'")

/-! ## Constructors -/

/-- `list(value)`, and the values a loop over it takes. -/
def toList : Value → Except PyErr (List Value)
  | .arr xs => .ok xs
  | .str s => .ok (s.toList.map fun c => .str (String.singleton c))
  | .obj kvs => .ok (kvs.map fun kv => .str kv.1)
  | v => .error (.typeError s!"{reprStr v.typeName} object is not iterable")

/-- A dictionary of any hashable keys, in insertion order. -/
abbrev Mapping := List (Value × Value)

def mapSet (d : Mapping) (k v : Value) : Mapping :=
  match d with
  | [] => [(k, v)]
  | (k', v') :: d => if k'.pyEq k then (k', v) :: d else (k', v') :: mapSet d k v

def mapInsert (d : Mapping) (k v : Value) : Except PyErr Mapping := do
  let _ ← k.asKey
  .ok (mapSet d k v)

/-- `dict(pairs)` -/
def mapOf : Mapping → List (Value × Value) → Except PyErr Mapping
  | d, [] => .ok d
  | d, (k, v) :: pairs => do
    let d ← mapInsert d k v
    mapOf d pairs

/-- `dict(elements)` of unchecked elements, the first having the given number. -/
def mapOfElements : Nat → Mapping → List Value → Except PyErr Mapping
  | _, d, [] => .ok d
  | i, d, element :: elements =>
    match element.toList with
    | .error _ => .error (.typeError s!"cannot convert dictionary update sequence element #{i} to a sequence")
    | .ok [k, v] => do
      let d ← mapInsert d k v
      mapOfElements (i + 1) d elements
    | .ok xs =>
      .error (.valueError s!"dictionary update sequence element #{i} has length {xs.length}; 2 is required")

/-- `dict(value)` -/
def toMapping (value : Value) : Except PyErr Mapping :=
  match value with
  | .obj kvs => .ok (kvs.map fun kv => (.str kv.1, kv.2))
  | value => do
    let elements ← value.toList
    mapOfElements 0 [] elements

/-- `name, value = element` -/
def unpackPair (element : Value) : Except PyErr (Value × Value) :=
  match element.toList with
  | .error _ => .error (.typeError s!"cannot unpack non-iterable {element.typeName} object")
  | .ok [k, v] => .ok (k, v)
  | .ok xs =>
    .error (.valueError (if xs.length < 2 then s!"not enough values to unpack (expected 2, got {xs.length})"
      else "too many values to unpack (expected 2)"))

/-! ## Numbers -/

/-- A number as an integer over a power of two. -/
def scaled : Value → Option (Int × Nat)
  | .bool b => some (if b then 1 else 0, 0)
  | .int n => some (n, 0)
  | .float x =>
    let mant : Int := if x.neg then -x.mant else x.mant
    some (if 0 ≤ x.exp then (mant * 2 ^ x.exp.toNat, 0) else (mant, (-x.exp).toNat))
  | _ => none

def compareInt (value : Value) (n : Int) (test : Int → Int → Bool) (refusal : String) : Except PyErr Bool :=
  match value.scaled with
  | some (m, k) => .ok (test m (n * 2 ^ k))
  | none => .error (.typeError refusal)

/-- `value < n` -/
def ltInt (value : Value) (n : Int) : Except PyErr Bool :=
  value.compareInt n (fun a b => decide (a < b))
    s!"'<' not supported between instances of {reprStr value.typeName} and 'int'"

/-- `value > n` -/
def gtInt (value : Value) (n : Int) : Except PyErr Bool :=
  value.compareInt n (fun a b => decide (b < a))
    s!"'>' not supported between instances of {reprStr value.typeName} and 'int'"

/-- `n >= value` -/
def leInt (value : Value) (n : Int) : Except PyErr Bool :=
  value.compareInt n (fun a b => decide (a ≤ b))
    s!"'>=' not supported between instances of 'int' and {reprStr value.typeName}"

/-! ## Times -/

/-- `datetime.fromisoformat(value)` -/
def toTime (codec : WireCodec) (value : Value) : Except PyErr WireTime :=
  match value with
  | .str s =>
    match codec.fromisoformat s with
    | some t => .ok t
    | none => .error (.valueError s!"Invalid isoformat string: {reprStr s}")
  | _ => .error (.typeError "fromisoformat: argument must be str")

/-- `fromisoformat(value) if value is not None else None` -/
def toTime? (codec : WireCodec) (value : Value) : Except PyErr (Option WireTime) :=
  if value.isNone then .ok none else do
    let t ← value.toTime codec
    .ok (some t)

/-! ## Facts about well-typed values -/

@[simp] theorem asKey_str (s : String) : asKey (.str s) = .ok [.str s] := rfl

@[simp] theorem leInt_int (m n : Int) : leInt (.int m) n = .ok (decide (m ≤ n)) := by
  simp [leInt, compareInt, scaled]

@[simp] theorem gtInt_int (m n : Int) : gtInt (.int m) n = .ok (decide (n < m)) := by
  simp [gtInt, compareInt, scaled]

@[simp] theorem truthy_int (n : Int) : truthy (.int n) = decide (n ≠ 0) := rfl

example : (Value.arr [.str "ab", .arr [.int 1, .null]]).toMapping =
    .ok [(.str "a", .str "b"), (.int 1, .null)] := rfl

end Value

/-! ## Entity keys -/

/-- `_validate_part` on values of any type. -/
def wirePart (name value : Value) : Except PyErr (String × String) :=
  let noStrip := fun v : Value => PyErr.attributeError s!"{reprStr v.typeName} object has no attribute 'strip'"
  match name, value with
  | .str n, .str v => do
    validatePart n v
    .ok (n, v)
  | .str n, v =>
    if isBlank n then .error (.valueError "entity key part name must be non-empty")
    else if v.truthy then .error (noStrip v)
    else .error (.valueError s!"entity key value for {reprStr n} must be non-empty")
  | n, _ =>
    if n.truthy then .error (noStrip n) else .error (.valueError "entity key part name must be non-empty")

def wireParts : Value.Mapping → Except PyErr (List (String × String))
  | [] => .ok []
  | (name, value) :: parts => do
    let part ← wirePart name value
    let rest ← wireParts parts
    .ok (part :: rest)

/-- `EntityKey.from_mapping` on an unchecked dictionary. -/
def EntityKey.fromWire (parts : Value.Mapping) : Except PyErr EntityKey := do
  let parts ← wireParts parts
  EntityKey.fromMapping parts none

/-- `EntityKey(pairs)`: the parts are checked as they are encoded. -/
def EntityKey.ofWire (pairs : List (Value × Value)) : Except PyErr EntityKey := do
  let d ← Value.mapOf [] pairs
  raiseIf (d.isEmpty = true) "entity key must have at least one part"
  let parts ← wireParts d
  raiseIf (d.length ≠ pairs.length) "key_order must contain exactly the keys of the entity key"
  EntityKey.ofParts parts

end ClearFeature
