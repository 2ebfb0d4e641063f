import Mathlib.Data.List.Sort
import Mathlib.Algebra.Group.Int.Defs

/-!
# Python values

What `json.loads` and the UDFs hand around: JSON trees with Python's `bool`,
`int` and `float` kept apart. Canonical JSON text is modelled by its token
sequence (`Value.toks`), which fixes the text and is fixed by it. NaN and the
infinities are not JSON (`allow_nan=False`) and are left out.
-/

namespace ClearFeature

/-- A finite double: sign, odd mantissa (or zero), binary exponent. -/
structure PyFloat where
  neg : Bool
  mant : Nat
  exp : Int
  canonical : mant % 2 = 1 ∨ mant = 0 ∧ exp = 0
  deriving DecidableEq

/-- The integer a double is equal to, if it is one. -/
def PyFloat.toInt? (x : PyFloat) : Option Int :=
  if 0 ≤ x.exp then
    let n : Int := x.mant * 2 ^ x.exp.toNat
    some (if x.neg then -n else n)
  else none

inductive Value where
  | null
  | bool (b : Bool)
  | int (n : Int)
  | float (x : PyFloat)
  | str (s : String)
  | arr (xs : List Value)
  | obj (kvs : List (String × Value))
  deriving Inhabited

inductive JsonTok where
  | null
  | bool (b : Bool)
  | int (n : Int)
  | float (x : PyFloat)
  | str (s : String)
  | openArr
  | closeArr
  | openObj
  | closeObj
  deriving DecidableEq

/-- Object entries in key order. -/
def joinFields (fs : List (String × List JsonTok)) : List JsonTok :=
  (fs.insertionSort fun a b => a.1 ≤ b.1).flatMap fun f => .str f.1 :: f.2

mutual
/-- The tokens of a value with object keys sorted. With `eqv` set, numbers that
Python's `==` identifies get one token. -/
def Value.toks (eqv : Bool) : Value → List JsonTok
  | .null => [.null]
  | .bool b => if eqv then [.int (if b then 1 else 0)] else [.bool b]
  | .int n => [.int n]
  | .float x =>
    match eqv, x.toInt? with
    | true, some n => [.int n]
    | _, _ => [.float x]
  | .str s => [.str s]
  | .arr xs => .openArr :: (Value.toksList eqv xs ++ [.closeArr])
  | .obj kvs => .openObj :: (joinFields (Value.toksFields eqv kvs) ++ [.closeObj])
def Value.toksList (eqv : Bool) : List Value → List JsonTok
  | [] => []
  | x :: xs => Value.toks eqv x ++ Value.toksList eqv xs
def Value.toksFields (eqv : Bool) : List (String × Value) → List (String × List JsonTok)
  | [] => []
  | (k, v) :: kvs => (k, Value.toks eqv v) :: Value.toksFields eqv kvs
end

/-- `json.dumps(value, sort_keys=True, ...)`. -/
def canonicalValueJson (v : Value) : List JsonTok := v.toks false

/-- Python's `==` on JSON values. -/
def Value.pyEq (a b : Value) : Bool := a.toks true == b.toks true

def JsonTok.norm : JsonTok → JsonTok
  | .bool b => .int (if b then 1 else 0)
  | .float x =>
    match x.toInt? with
    | some n => .int n
    | none => .float x
  | t => t

theorem joinFields_norm (fs : List (String × List JsonTok)) :
    (joinFields fs).map JsonTok.norm = joinFields (fs.map fun f => (f.1, f.2.map JsonTok.norm)) := by
  unfold joinFields
  have hs := List.map_insertionSort (fun a b : String × List JsonTok => a.1 ≤ b.1)
    (fun a b : String × List JsonTok => a.1 ≤ b.1) (fun f : String × List JsonTok => (f.1, f.2.map JsonTok.norm)) fs
    (fun _ _ _ _ => Iff.rfl)
  rw [← hs, List.flatMap_map, List.map_flatMap]
  rfl

mutual
theorem Value.toks_norm : ∀ v : Value, v.toks true = (v.toks false).map JsonTok.norm
  | .null => rfl
  | .bool b => rfl
  | .int n => rfl
  | .float x => by
    cases h : x.toInt? <;> simp [Value.toks, JsonTok.norm, h]
  | .str s => rfl
  | .arr xs => by
    simp only [Value.toks, List.map_cons, List.map_append, Value.toksList_norm xs]
    rfl
  | .obj kvs => by
    simp only [Value.toks, List.map_cons, List.map_append, joinFields_norm, Value.toksFields_norm kvs]
    rfl
theorem Value.toksList_norm : ∀ xs : List Value, Value.toksList true xs = (Value.toksList false xs).map JsonTok.norm
  | [] => rfl
  | x :: xs => by
    simp only [Value.toksList, List.map_append, Value.toks_norm x, Value.toksList_norm xs]
theorem Value.toksFields_norm : ∀ kvs : List (String × Value), Value.toksFields true kvs =
    (Value.toksFields false kvs).map fun f => (f.1, f.2.map JsonTok.norm)
  | [] => rfl
  | (k, v) :: kvs => by
    simp only [Value.toksFields, List.map_cons, Value.toks_norm v, Value.toksFields_norm kvs]
end

theorem Value.pyEq_iff {a b : Value} : a.pyEq b = true ↔ a.toks true = b.toks true := by
  simp [Value.pyEq]

@[simp] theorem Value.pyEq_refl (a : Value) : a.pyEq a = true := Value.pyEq_iff.mpr rfl

theorem Value.pyEq_of_canonical {a b : Value} (h : canonicalValueJson a = canonicalValueJson b) : a.pyEq b = true := by
  rw [Value.pyEq_iff, Value.toks_norm, Value.toks_norm]
  exact congrArg (List.map JsonTok.norm) h

@[simp] theorem Value.pyEq_str (s t : String) : (Value.str s).pyEq (.str t) = decide (s = t) := by
  rw [Bool.eq_iff_iff]; simp [Value.pyEq, Value.toks]

example : (Value.int 1).pyEq (.bool true) = true := by decide
example : (Value.obj [("a", .int 1), ("b", .null)]).pyEq (.obj [("b", .null), ("a", .int 1)]) = true := by decide

/-! ## Nesting -/

mutual
def Value.depth : Value → Nat
  | .arr xs => Value.depthList xs + 1
  | .obj kvs => Value.depthFields kvs + 1
  | _ => 0
def Value.depthList : List Value → Nat
  | [] => 0
  | x :: xs => max (Value.depth x) (Value.depthList xs)
def Value.depthFields : List (String × Value) → Nat
  | [] => 0
  | (_, v) :: kvs => max (Value.depth v) (Value.depthFields kvs)
end

/-! ## Exceptions -/

/-- A raised exception: its class, as the `except` clauses tell them apart, and its text. -/
inductive PyErr where
  | keyError (msg : String)
  | typeError (msg : String)
  | valueError (msg : String)
  | attributeError (msg : String)
  | other (cls msg : String)
  deriving DecidableEq, Repr

def PyErr.msg : PyErr → String
  | .keyError m | .typeError m | .valueError m | .attributeError m | .other _ m => m

/-- `except (KeyError, TypeError, ValueError)`. -/
def PyErr.isDeterministic : PyErr → Bool
  | .keyError _ | .typeError _ | .valueError _ => true
  | _ => false

/-- `if c: raise ValueError(msg)`. -/
def raiseIf (c : Prop) [Decidable c] (msg : String) : Except PyErr Unit :=
  if c then .error (.valueError msg) else .ok ()

@[simp] theorem raiseIf_eq_ok {c : Prop} [Decidable c] {msg : String} {u : Unit} :
    raiseIf c msg = .ok u ↔ ¬ c := by
  by_cases h : c <;> simp [raiseIf, h]

/-- A sequence of steps succeeds only if each step does. -/
theorem bind_eq_ok {ε α β : Type} {x : Except ε α} {f : α → Except ε β} {b : β} :
    (x >>= f) = .ok b ↔ ∃ a, x = .ok a ∧ f a = .ok b := by
  cases x with
  | ok a => exact ⟨fun h => ⟨a, rfl, h⟩, fun ⟨_, h₁, h₂⟩ => by cases h₁; exact h₂⟩
  | error e => exact ⟨fun h => (nomatch h), fun ⟨_, h, _⟩ => (nomatch h)⟩

@[simp] theorem ok_bind {ε α β : Type} (a : α) (f : α → Except ε β) : (Except.ok a >>= f) = f a := rfl

@[simp] theorem error_bind {ε α β : Type} (e : ε) (f : α → Except ε β) :
    ((Except.error e : Except ε α) >>= f) = .error e := rfl

theorem ok_of_toOption {ε α : Type} {x : Except ε α} {a : α} (h : x.toOption = some a) : x = .ok a := by
  cases x with
  | ok b => exact congrArg _ (Option.some.inj h)
  | error e => cases h

def okGet {ε α : Type} : (x : Except ε α) → x.toBool = true → α
  | .ok a, _ => a

theorem eq_ok_okGet {ε α : Type} : ∀ (x : Except ε α) (h : x.toBool = true), x = .ok (okGet x h)
  | .ok _, _ => rfl

/-- Text quoting as `repr` does it, printable text assumed. -/
def reprStr (s : String) : String :=
  let single := Char.ofNat 39
  let q := if s.toList.contains single && !s.toList.contains '"' then '"' else single
  let esc := fun c => if c = q || c = Char.ofNat 92 then [Char.ofNat 92, c] else [c]
  String.ofList (q :: s.toList.flatMap esc ++ [q])

/-! ## Text predicates -/

/-- The characters `str.strip` removes. -/
def isSpace (c : Char) : Bool :=
  let n := c.toNat
  (9 ≤ n && n ≤ 13) || (28 ≤ n && n ≤ 32) || n == 133 || n == 160 || n == 5760 ||
    (8192 ≤ n && n ≤ 8202) || n == 8232 || n == 8233 || n == 8239 || n == 8287 || n == 12288

/-- `not s or not s.strip()`. -/
def isBlank (s : String) : Bool := s.toList.all isSpace

/-- The zeros of the decimal digits (Unicode 15.0, category Nd); the other nine digits follow each zero. -/
def decimalZeros : List Nat :=
  [48, 1632, 1776, 1984, 2406, 2534, 2662, 2790, 2918, 3046, 3174, 3302, 3430, 3558, 3664, 3792, 3872, 4160, 4240,
    6112, 6160, 6470, 6608, 6784, 6800, 6992, 7088, 7232, 7248, 42528, 43216, 43264, 43472, 43504, 43600, 44016,
    65296, 66720, 68912, 69734, 69872, 69942, 70096, 70384, 70736, 70864, 71248, 71360, 71472, 71904, 72016, 72784,
    73040, 73120, 73552, 92768, 92864, 93008, 120782, 120792, 120802, 120812, 120822, 123200, 123632, 124144, 125264,
    130032]

/-- What `\d` matches, with the value that `int` gives it. -/
def decimalValue (c : Char) : Option Nat :=
  (decimalZeros.find? fun first => first ≤ c.toNat && c.toNat < first + 10).map fun first => c.toNat - first

def isDecimal (c : Char) : Bool := (decimalValue c).isSome

/-! ## Bytes -/

abbrev Bytes := List UInt8

def asciiBytes (s : String) : Bytes := s.toList.map fun c => UInt8.ofNat c.toNat

end ClearFeature
