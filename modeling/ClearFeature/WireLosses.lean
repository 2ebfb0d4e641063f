import ClearFeature.RetriesBounded

/-!
# Values that the wire changes

`json.dumps` writes a tuple as a list and the keys of a dictionary as text. A
function may return either, and what is read back is another value.
-/

namespace ClearFeature.Wire

/-- What a function may return: JSON, a tuple, or a dictionary with whole numbers as keys. -/
inductive UdfValue where
  | json (v : Value)
  | tuple (xs : List UdfValue)
  | numbered (kvs : List (Int × UdfValue))

namespace UdfValue

mutual
/-- What `json.dumps` writes. -/
def written : UdfValue → Value
  | .json v => v
  | .tuple xs => .arr (writtenList xs)
  | .numbered kvs => .obj (writtenFields kvs)
def writtenList : List UdfValue → List Value
  | [] => []
  | x :: xs => x.written :: writtenList xs
def writtenFields : List (Int × UdfValue) → List (String × Value)
  | [] => []
  | (k, v) :: kvs => (toString k, v.written) :: writtenFields kvs
end

/-- Python's `==` with a value that was read: no tuple is a list, no number is a text. -/
def equals : UdfValue → Value → Bool
  | .json v, w => v.pyEq w
  | .tuple _, _ => false
  | .numbered kvs, w => kvs.isEmpty && (Value.obj []).pyEq w

/-- Equal to a JSON value. -/
def IsJson : UdfValue → Prop
  | .json _ => True
  | .tuple _ => False
  | .numbered kvs => kvs = []

theorem equals_read (x : UdfValue) : x.equals (x.written.normal false) = true ↔ x.IsJson := by
  cases x with
  | json v =>
    refine iff_of_true (Value.pyEq_of_canonical ?_) trivial
    exact Value.toks_eq_iff.mpr (Value.normal_normal v).symm
  | tuple xs => exact iff_of_false Bool.false_ne_true id
  | numbered kvs =>
    cases kvs with
    | nil => exact iff_of_true rfl rfl
    | cons kv kvs => exact iff_of_false Bool.false_ne_true (List.cons_ne_nil kv kvs)

end UdfValue

/-- A write set with the values that its features were computed to. -/
structure ComputedWriteSet where
  writeSet : FeatureWriteSet
  values : String → UdfValue

namespace ComputedWriteSet

def written (w : ComputedWriteSet) : FeatureWriteSet :=
  { w.writeSet with results := w.writeSet.results.map fun r => (r.1, { r.2 with value := (w.values r.1).written }) }

/-- Each computed value is equal to the one read back. -/
def SameValues (w : ComputedWriteSet) (read : FeatureWriteSet) : Prop :=
  ∀ r ∈ w.writeSet.results, ∃ r', Dict.get? read.results r.1 = some r' ∧ (w.values r.1).equals r'.value = true

section
variable {text : JsonText} {w : ComputedWriteSet} {d : Value} {read : FeatureWriteSet}

theorem read_result (hb : w.written.Built) {r : String × FeatureResult} (hr : r ∈ w.writeSet.results) :
    Dict.get? w.written.normal.results r.1 =
      some (FeatureResult.normal { r.2 with value := (w.values r.1).written }) := by
  have hmem : (r.1, { r.2 with value := (w.values r.1).written }) ∈ w.written.results := List.mem_map_of_mem hr
  unfold FeatureWriteSet.normal normalEntries
  dsimp only
  rw [Dict.get?_map, ← Dict.get?_perm hb.names (StableSort.sortedBy_perm Prod.fst _).symm,
    Dict.get?_of_mem hb.names hmem]
  rfl

/-- The values that are read are the computed ones exactly where these are JSON. -/
theorem sameValues_iff (hb : w.written.Built) (hd : w.written.toDict text = .ok d) (hp : d.Printable text.limits)
    (hread : fromJson text (FeatureWriteSet.fromDict text.toWireCodec) (text.dumps d) = .ok read) :
    w.SameValues read ↔ ∀ r ∈ w.writeSet.results, (w.values r.1).IsJson := by
  rw [(FeatureWriteSet.reads hb (FeatureWriteSet.encodes hd)).fromJson hp] at hread
  cases hread
  refine forall₂_congr fun r hr => ?_
  rw [read_result hb hr, ← UdfValue.equals_read]
  constructor
  · rintro ⟨r', h, he⟩
    cases h
    exact he
  · intro he
    exact ⟨_, rfl, he⟩

end

end ComputedWriteSet

/-- The feature `pair` of one user, computed to the tuple `(1, 2)`. -/
def tupleWriteSet : ComputedWriteSet where
  writeSet := { sampleOfflineWrite.writeSet with
    results := [("pair", {
      featureName := .str "pair"
      featureVersion := .int 1
      value := .null
      dataTs := newYear
      calcTs := newYear
      maxInputDataTs := some newYear
      inputFingerprint := .str "fp1"
      valueHash := .str "vh1"
      availableAt := none
      availabilitySource := .null
      modelUri := .null
      modelDigest := .null
      modelOutputName := .null
      bundleDigest := .null })] }
  values _ := .tuple [.json (.int 1), .json (.int 2)]

theorem tupleWriteSet_built : tupleWriteSet.written.Built := by
  refine ⟨?_, by decide, ?_, [], rfl, by decide, trivial⟩
  · simp [ComputedWriteSet.written, tupleWriteSet, sampleOfflineWrite, FeatureWriteSet.fields, Value.Proper]
  · intro r hr
    cases List.mem_singleton.mp hr
    refine ⟨?_, rfl⟩
    simp [FeatureResult.fields, Value.Proper, tupleWriteSet, UdfValue.written, UdfValue.writtenList, Value.ProperList]

/-- The write set is written and read, and its tuple has become a list. -/
theorem tuple_lost : ∃ d read, tupleWriteSet.written.Built ∧
    tupleWriteSet.written.toDict sampleText = .ok d ∧ d.Printable sampleText.limits ∧
    fromJson sampleText (FeatureWriteSet.fromDict sampleText.toWireCodec) (sampleText.dumps d) = .ok read ∧
    ¬ tupleWriteSet.SameValues read := by
  have hsurvives : (FeatureWriteSet.code sampleText).Survives sampleText := FeatureWriteSet.survives
  obtain ⟨d, hd⟩ := hsurvives.written _ tupleWriteSet_built (fun t h => nomatch h)
  have hprintable := sampleText.printable d
  obtain ⟨-, read, hread, -⟩ := hsurvives.current _ tupleWriteSet_built d hd hprintable
  refine ⟨d, read, tupleWriteSet_built, hd, hprintable, hread, fun hsame => ?_⟩
  exact (ComputedWriteSet.sameValues_iff tupleWriteSet_built hd hprintable hread).mp hsame _ (List.mem_singleton.mpr rfl)

end ClearFeature.Wire
