import ClearFeature.BatchTransactions
import ClearFeature.Computable
import ClearFeature.EventsSurvive
import ClearFeature.ManifestJoins
import ClearFeature.OnlineAddresses

/-!
# Model scores (`POST /v1/model-scores` in `api/app.py`, `api/model_score_writer.py`)

The API checks externally computed scores against a view and publishes them; the
writer makes a write set of what it reads back. Each checks against its own
registry, and not the same things.
-/

namespace ClearFeature

open StableSort
open Wire (ScoreItem ModelScoreWriteRequested)

/-! ## Texts of values -/

section
variable (floatText : PyFloat → String)

mutual
/-- Python's `repr`; the text of a float is left to the parameter. -/
def reprValue : Value → String
  | .null => "None"
  | .bool b => if b then "True" else "False"
  | .int n => toString n
  | .float x => floatText x
  | .str s => reprStr s
  | .arr xs => "[" ++ ", ".intercalate (reprValues xs) ++ "]"
  | .obj kvs => "\x7b" ++ ", ".intercalate (reprFields kvs) ++ "\x7d"
def reprValues : List Value → List String
  | [] => []
  | x :: xs => reprValue x :: reprValues xs
def reprFields : List (String × Value) → List String
  | [] => []
  | (k, v) :: kvs => (reprStr k ++ ": " ++ reprValue v) :: reprFields kvs
end

/-- Python's `str` -/
def strValue : Value → String
  | .str s => s
  | v => reprValue floatText v

end

/-! ## The request -/

def modelScoreWrite : String := "fp.model-score.write"

/-- `ScoreIn`: its times have an offset, its values were parsed. -/
structure ScoreIn where
  feature : String
  value : Value
  dataTs : Int
  calcTs : Option Int := none
  modelName : String
  modelVersion : String
  sourceRequestId : Option String := none
  decisionRequestId : Option String := none
  context : List (String × Value) := []
  value_ok : value.Proper
  context_ok : (Value.obj context).Proper

structure ModelScoreWriteIn where
  entityType : String
  entityKey : List (String × String)
  view : String
  viewVersion : Int
  scores : List ScoreIn
  idempotencyKey : String
  writeOnline : Bool := true
  writeOffline : Bool := true
  correlationId : Option String := none

def ScoreIn.item (s : ScoreIn) (now : Int) : ScoreItem where
  feature := .str s.feature
  value := s.value
  dataTs := .aware s.dataTs
  calcTs := .aware (s.calcTs.getD now)
  modelName := .str s.modelName
  modelVersion := .str s.modelVersion
  sourceRequestId := optStr s.sourceRequestId
  decisionRequestId := optStr s.decisionRequestId
  context := s.context.map fun kv => (.str kv.1, kv.2)

namespace ModelScoreWriteIn

variable (request : ModelScoreWriteIn)

def entity : Wire.EntityRef where
  entityType := .str request.entityType
  entityKey := Wire.wirePairs request.entityKey

def event (now : Int) : ModelScoreWriteRequested where
  scoreWriteId := .str request.idempotencyKey
  correlationId := .str ((request.correlationId.filter (· ≠ "")).getD request.idempotencyKey)
  occurredAt := .aware now
  entity := request.entity
  view := .str request.view
  viewVersion := .int request.viewVersion
  scores := request.scores.map (ScoreIn.item · now)
  idempotencyKey := .str request.idempotencyKey
  writeOnline := .bool request.writeOnline
  writeOffline := .bool request.writeOffline
  eventType := .str "model_score.write.requested"
  eventVersion := .int 1

end ModelScoreWriteIn

def checkScores (features : List (String × FeatureDef)) : List ScoreIn → Except HttpError Unit
  | [] => .ok ()
  | score :: scores =>
    match Dict.get? features score.feature with
    | none => .error (badRequest s!"unknown feature {reprStr score.feature}")
    | some feature => do
      refuseIf (feature.kind ≠ .modelScore)
        (s!"feature {reprStr score.feature} is not a model_score feature; " ++
          "scores can only be written to model_score features")
      checkScores features scores

/-- `except ValueError as exc: raise HTTPException(400, str(exc))`; the API raises only these. -/
def orBadRequest {α : Type} : Except PyErr α → Except HttpError α
  | .ok a => .ok a
  | .error e => .error (badRequest e.msg)

/-- `write_model_scores` up to the publication: the partition key and the event. -/
def writeModelScores (registry : Registry) (now : Int) (request : ModelScoreWriteIn) :
    Except HttpError (String × ModelScoreWriteRequested) := do
  refuseIf (request.scores = []) "at least one score is required"
  refuseIf (request.writeOnline = false ∧ request.writeOffline = false)
    "at least one of write_online/write_offline must be true"
  let _ ← orBadRequest (EntityKey.fromMapping request.entityKey none)
  let view ← orBadRequest (registry.findView request.view request.viewVersion)
  checkScores (featuresByName view.features) request.scores
  let key ← orBadRequest request.entity.encoded
  return (key, request.event now)

/-! ## The write set of an event -/

section
variable (floatText : PyFloat → String) (registry : Registry)

/-- `registry.find_view(event.view, event.view_version)` -/
def findViewOf (name version : Value) : Except PyErr FeatureViewDef :=
  match registry.featureViews.find? fun v => (Value.str v.name).pyEq name && (Value.int v.viewVersion).pyEq version with
  | some v => .ok v
  | none => .error (.valueError s!"unknown view {reprValue floatText name} version {strValue floatText version}")

/-- `entity_key[name]` -/
def keyValue (key : Value.Mapping) (name : String) : Except PyErr Value :=
  match key.find? fun kv => (Value.str name).pyEq kv.1 with
  | some kv => .ok kv.2
  | none => .error (.keyError (reprStr name))

/-- `EntityKey.from_mapping` of the view's key fields in their order, which are distinct. -/
def scoreEntityKey (key : Value.Mapping) (keyFields : List String) : Except PyErr EntityKey := do
  let parts ← keyFields.mapM fun name => do return (Value.str name, ← keyValue key name)
  let parts ← wireParts parts
  EntityKey.fromMapping parts (some keyFields)

/-- `features_by_name.get(score.feature)` and the two checks; an unhashable name raises, and one that is found is text. -/
def scoredFeature (features : List (String × FeatureDef)) (view feature : Value) : Except PyErr (String × FeatureDef) := do
  let unknown := PyErr.valueError s!"unknown feature {reprValue floatText feature} in view {reprValue floatText view}"
  let _ ← feature.asKey
  match feature with
  | .str name =>
    match Dict.get? features name with
    | none => .error unknown
    | some f => do
      raiseIf (f.kind ≠ .modelScore) s!"feature {reprStr name} is not a model_score feature"
      return (name, f)
  | _ => .error unknown

/-- The loop over the scores; a later score of a feature replaces an earlier one. -/
def scoreResults (features : List (String × FeatureDef)) (view : Value) :
    List (String × Wire.FeatureResult) → List ScoreItem → Except PyErr (List (String × Wire.FeatureResult))
  | results, [] => .ok results
  | results, score :: scores => do
    let (name, feature) ← scoredFeature floatText features view score.feature
    let dataTs ← requireAware score.dataTs "data_ts"
    let calcTs ← requireAware score.calcTs "calc_ts"
    let result : Wire.FeatureResult := {
      featureName := score.feature, featureVersion := .int feature.featureVersion, value := score.value, dataTs, calcTs
      maxInputDataTs := none, inputFingerprint := .null, valueHash := .null, availableAt := none
      availabilitySource := .null, modelUri := .null, modelDigest := .null, modelOutputName := .null
      bundleDigest := .null }
    scoreResults features view (Dict.set results name result) scores

/-- The first `try` block of `handle_model_score_write`. -/
def scoreWriteSet (event : ModelScoreWriteRequested) : Except PyErr Wire.FeatureWriteSet := do
  raiseIf (event.writeOnline.truthy = false ∧ event.writeOffline.truthy = false)
    "write_online and write_offline are both false"
  let viewDef ← findViewOf floatText registry event.view event.viewVersion
  let entityKey ← scoreEntityKey event.entity.entityKey viewDef.keyFields
  let results ← scoreResults floatText (featuresByName viewDef.features) event.view [] event.scores
  return {
    view := event.view, viewVersion := event.viewVersion, entityKey, results, sourceRefs := []
    requestId := event.scoreWriteId, jobId := event.scoreWriteId, runId := event.scoreWriteId
    correlationId := event.correlationId, writePolicy := .str "online_first" }

end

/-- The event for the offline writer. -/
def offlineWriteOf (event : ModelScoreWriteRequested) (writeSet : Wire.FeatureWriteSet) (now : Int) :
    Wire.FeatureOfflineWriteRequested where
  requestId := event.scoreWriteId
  jobId := event.scoreWriteId
  correlationId := event.correlationId
  occurredAt := .aware now
  writeSet := writeSet
  eventType := .str "feature_write.offline.requested"
  eventVersion := .int 1

/-! ## Keys from the wire -/

theorem normalMapping_wirePairs (d : List (String × String)) :
    Wire.normalMapping (Wire.wirePairs d) = Wire.wirePairs (sortedBy Prod.fst d) := by
  have htext : Wire.wirePairs d = (d.map fun p => (p.1, Value.str p.2)).map fun kv => (.str kv.1, kv.2) := by
    simp [Wire.wirePairs]
  have hsort : sortedBy Prod.fst (d.map fun p => (p.1, Value.str p.2)) =
      (sortedBy Prod.fst d).map fun p => (p.1, Value.str p.2) :=
    map_sortedBy Prod.fst (fun p : String × String => Value.str p.2) d
  rw [htext, Wire.normalMapping_map, Value.normalFields_eq_map, List.map_map]
  simp only [Function.comp_def, Value.normal_str]
  rw [hsort, List.map_map]
  rfl

theorem keyValue_wirePairs (name : String) : ∀ d : List (String × String), keyValue (Wire.wirePairs d) name =
    match Dict.get? d name with
    | some v => .ok (.str v)
    | none => .error (.keyError (reprStr name))
  | [] => rfl
  | (k, v) :: d => by
    have ih := keyValue_wirePairs name d
    unfold keyValue at ih ⊢
    by_cases hk : k = name
    · simp [Wire.wirePairs, Dict.get?_cons, hk]
    · have hk' : ¬ name = k := fun h => hk h.symm
      simpa [Wire.wirePairs, Dict.get?_cons, hk, hk'] using ih

section
variable {d : List (String × String)} {names : List String}

theorem mapM_keyValue (h : ∀ n ∈ names, n ∈ Dict.keys d) :
    (names.mapM fun n => do return (Value.str n, ← keyValue (Wire.wirePairs d) n)) =
      .ok (Wire.wirePairs (names.map fun n => (n, partOf d n))) := by
  have hpairs : Wire.wirePairs (names.map fun n => (n, partOf d n)) =
      names.map fun n => (.str n, .str (partOf d n)) := by simp [Wire.wirePairs]
  rw [hpairs]
  refine mapM_eq_ok fun n hn => ?_
  obtain ⟨v, hv⟩ := Option.ne_none_iff_exists'.mp fun hnone => Dict.get?_eq_none_iff.mp hnone (h n hn)
  rw [keyValue_wirePairs, hv]
  simp [partOf, hv]

theorem mapM_keyValue_missing : ∀ {names : List String}, (∃ n ∈ names, n ∉ Dict.keys d) →
    ∃ n ∈ names, n ∉ Dict.keys d ∧
      (names.mapM fun n => do return (Value.str n, ← keyValue (Wire.wirePairs d) n)) = .error (.keyError (reprStr n))
  | [], h => by simp at h
  | n :: names, h => by
    by_cases hn : n ∈ Dict.keys d
    · have hrest : ∃ m ∈ names, m ∉ Dict.keys d := by simpa [hn] using h
      obtain ⟨m, hm, hmissing, heq⟩ := mapM_keyValue_missing hrest
      obtain ⟨v, hv⟩ := Option.ne_none_iff_exists'.mp fun hnone => Dict.get?_eq_none_iff.mp hnone hn
      refine ⟨m, List.mem_cons_of_mem n hm, hmissing, ?_⟩
      rw [List.mapM_cons, keyValue_wirePairs, hv, heq]
      rfl
    · refine ⟨n, List.mem_cons_self, hn, ?_⟩
      rw [List.mapM_cons, keyValue_wirePairs, Dict.get?_eq_none_iff.mpr hn]
      rfl

/-- Some of the parts of a key, in another order, are a key. -/
theorem exists_scoreEntityKey {k : EntityKey} (hk : k.parts.Perm d) (hne : names ≠ []) (hn : names.Nodup)
    (h : ∀ n ∈ names, n ∈ Dict.keys d) : ∃ k' : EntityKey, k'.parts = names.map (fun n => (n, partOf d n)) ∧
      scoreEntityKey (Wire.wirePairs d) names = .ok k' := by
  obtain ⟨-, hvalid, -, -⟩ := k.encoded_spec
  have hkeys : Dict.keys (names.map fun n => (n, partOf d n)) = names := by simp [Dict.keys, Function.comp_def]
  have hparts : ∀ p ∈ names.map (fun n => (n, partOf d n)), validatePart p.1 p.2 = .ok () := by
    intro p hp
    obtain ⟨n, hn, rfl⟩ := List.mem_map.mp hp
    obtain ⟨v, hv⟩ := Option.ne_none_iff_exists'.mp fun hnone => Dict.get?_eq_none_iff.mp hnone (h n hn)
    have hmem : (n, v) ∈ k.parts := hk.mem_iff.mpr (Dict.mem_of_get? hv)
    simpa [partOf, hv] using hvalid _ hmem
  obtain ⟨k', hk'⟩ := exists_entityKey (by simpa using hne) (hkeys.symm ▸ hn) hparts
  have hself := EntityKey.fromMapping_perm (.refl k'.parts)
  refine ⟨k', hk', ?_⟩
  rw [scoreEntityKey, mapM_keyValue h, ok_bind, Wire.wireParts_wirePairs hparts, ok_bind]
  rwa [hk', hkeys] at hself

theorem scoreEntityKey_missing (h : ∃ n ∈ names, n ∉ Dict.keys d) :
    ∃ n ∈ names, n ∉ Dict.keys d ∧ scoreEntityKey (Wire.wirePairs d) names = .error (.keyError (reprStr n)) := by
  obtain ⟨n, hn, hmissing, heq⟩ := mapM_keyValue_missing h
  refine ⟨n, hn, hmissing, ?_⟩
  rw [scoreEntityKey, heq]
  rfl

end

/-! ## Results of scores -/

/-- A score can be written to the feature it names. -/
def Scorable (features : List (String × FeatureDef)) (s : ScoreIn) : Prop :=
  ∃ f, Dict.get? features s.feature = some f ∧ f.kind = .modelScore

/-- The result of a score. -/
def ScoreIn.result (s : ScoreIn) (now : Int) (featureVersion : Int) : Wire.FeatureResult where
  featureName := .str s.feature
  featureVersion := .int featureVersion
  value := s.value.normal false
  dataTs := s.dataTs
  calcTs := s.calcTs.getD now
  maxInputDataTs := none
  inputFingerprint := .null
  valueHash := .null
  availableAt := none
  availabilitySource := .null
  modelUri := .null
  modelDigest := .null
  modelOutputName := .null
  bundleDigest := .null

section
variable (floatText : PyFloat → String) (features : List (String × FeatureDef)) (view : Value) (now : Int)

/-- The result of the last score that names a feature. -/
def lastResult (scores : List ScoreIn) (name : String) : Option Wire.FeatureResult :=
  (scores.reverse.find? fun s => s.feature = name).bind fun s =>
    (Dict.get? features name).map fun f => s.result now f.featureVersion

variable {features}

theorem scoredFeature_ok {s : ScoreIn} {f : FeatureDef} (hf : Dict.get? features s.feature = some f)
    (hkind : f.kind = .modelScore) : scoredFeature floatText features view (.str s.feature) = .ok (s.feature, f) := by
  rw [scoredFeature, Value.asKey_str, ok_bind]
  simp only [hf]
  rw [raiseIf, if_neg (by simp [hkind])]
  rfl

theorem lastResult_cons {s : ScoreIn} {f : FeatureDef} (hf : Dict.get? features s.feature = some f)
    (scores : List ScoreIn) (results : List (String × Wire.FeatureResult)) (name : String) :
    (lastResult features now (s :: scores) name).or (Dict.get? results name) =
      (lastResult features now scores name).or
        (Dict.get? (Dict.set results s.feature (s.result now f.featureVersion)) name) := by
  unfold lastResult
  rw [List.reverse_cons, List.find?_append]
  cases hfind : scores.reverse.find? fun s => s.feature = name with
  | some s' =>
    have hs' : s'.feature = name := by simpa using List.find?_some hfind
    cases hname : Dict.get? features name with
    | some f' => simp
    | none =>
      -- the name of the first score is known to the view, so it is another one
      have hne : s.feature ≠ name := by
        intro h
        rw [h, hname] at hf
        cases hf
      simp [Dict.get?_set_ne _ _ hne]
  | none =>
    by_cases hs : s.feature = name
    · subst hs
      simp [hf]
    · simp [hs, Dict.get?_set_ne _ _ hs]

theorem scoreResults_ok : ∀ (scores : List ScoreIn) (results : List (String × Wire.FeatureResult)),
    (∀ s ∈ scores, Scorable features s) → (Dict.keys results).Nodup →
      ∃ results', scoreResults floatText features view results (scores.map fun s => (s.item now).normal) = .ok results' ∧
        (Dict.keys results').Nodup ∧
        ∀ name, Dict.get? results' name = (lastResult features now scores name).or (Dict.get? results name)
  | [], results, _, hn => ⟨results, rfl, hn, fun name => by simp [lastResult]⟩
  | s :: scores, results, h, hn => by
    obtain ⟨⟨f, hf, hkind⟩, hrest⟩ := List.forall_mem_cons.mp h
    obtain ⟨results', heq, hn', hget⟩ := scoreResults_ok scores
      (Dict.set results s.feature (s.result now f.featureVersion)) hrest (Dict.keys_set_nodup _ _ hn)
    refine ⟨results', ?_, hn', fun name => ?_⟩
    · rw [List.map_cons, scoreResults, show (s.item now).normal.feature = .str s.feature from rfl,
        scoredFeature_ok floatText view hf hkind, ok_bind]
      exact heq
    · rw [hget name, lastResult_cons now hf]

theorem scorable_of_scoreResults {results' : List (String × Wire.FeatureResult)} : ∀ (scores : List ScoreIn)
    (results : List (String × Wire.FeatureResult)),
    scoreResults floatText features view results (scores.map fun s => (s.item now).normal) = .ok results' →
      ∀ s ∈ scores, Scorable features s
  | [], results, _ => by simp
  | s :: scores, results, h => by
    rw [List.map_cons, scoreResults, show (s.item now).normal.feature = .str s.feature from rfl, scoredFeature,
      Value.asKey_str, ok_bind] at h
    cases hf : Dict.get? features s.feature with
    | none =>
      simp only [hf] at h
      cases h
    | some f =>
      by_cases hkind : f.kind = .modelScore
      · simp only [hf, hkind] at h
        exact List.forall_mem_cons.mpr ⟨⟨f, hf, hkind⟩, scorable_of_scoreResults scores _ h⟩
      · simp only [hf, raiseIf] at h
        rw [if_pos hkind] at h
        cases h

/-- What the loop raises is caught. -/
theorem scoreResults_error {e : PyErr} : ∀ (scores : List ScoreIn) (results : List (String × Wire.FeatureResult)),
    scoreResults floatText features view results (scores.map fun s => (s.item now).normal) = .error e →
      e.isDeterministic = true
  | [], results, h => by cases h
  | s :: scores, results, h => by
    rw [List.map_cons, scoreResults, show (s.item now).normal.feature = .str s.feature from rfl, scoredFeature,
      Value.asKey_str, ok_bind] at h
    cases hf : Dict.get? features s.feature with
    | none =>
      simp only [hf] at h
      cases h
      rfl
    | some f =>
      by_cases hkind : f.kind = .modelScore
      · simp only [hf, hkind] at h
        exact scoreResults_error scores _ h
      · simp only [hf, raiseIf] at h
        rw [if_pos hkind] at h
        cases h
        rfl

end

/-! ## Accepted requests -/

theorem orBadRequest_ok {α : Type} {x : Except PyErr α} {a : α} (h : orBadRequest x = .ok a) : x = .ok a := by
  cases x with
  | ok a' => exact congrArg Except.ok (Except.ok.inj h)
  | error e => cases h

theorem refuseIf_ok {c : Prop} [Decidable c] {detail : String} {u : Unit} (h : refuseIf c detail = .ok u) : ¬ c := by
  unfold refuseIf at h
  by_cases hc : c
  · rw [if_pos hc] at h
    cases h
  · exact hc

theorem checkScores_ok {features : List (String × FeatureDef)} : ∀ {scores : List ScoreIn} {u : Unit},
    checkScores features scores = .ok u → ∀ s ∈ scores, Scorable features s
  | [], _, _ => by simp
  | s :: scores, u, h => by
    rw [checkScores] at h
    cases hf : Dict.get? features s.feature with
    | none =>
      rw [hf] at h
      cases h
    | some f =>
      rw [hf] at h
      obtain ⟨_, hkind, h⟩ := bind_eq_ok.mp h
      have hkind := refuseIf_ok hkind
      exact List.forall_mem_cons.mpr ⟨⟨f, hf, not_not.mp hkind⟩, checkScores_ok h⟩

/-- What the API has checked when it publishes. -/
structure ModelScoreWriteIn.Accepted (registry : Registry) (request : ModelScoreWriteIn) : Prop where
  scores : request.scores ≠ []
  written : request.writeOnline = true ∨ request.writeOffline = true
  key : ∃ k : EntityKey, k.parts.Perm request.entityKey
  view : ∃ v, registry.findView request.view request.viewVersion = .ok v ∧
    ∀ s ∈ request.scores, Scorable (featuresByName v.features) s

theorem EntityKey.perm_of_fromMapping {d : List (String × String)} {k : EntityKey}
    (h : EntityKey.fromMapping d none = .ok k) : k.parts.Perm d := by
  unfold EntityKey.fromMapping at h
  obtain ⟨_, -, h⟩ := bind_eq_ok.mp h
  have hparts := ofParts_ok h
  have hperm : (sortNames (Dict.keys d)).Perm (Dict.keys d) := List.perm_insertionSort _ _
  have hkeys : Dict.keys k.parts = sortNames (Dict.keys d) := by
    rw [hparts]
    simp [Dict.keys, Function.comp_def]
  have hn : (Dict.keys d).Nodup := hperm.nodup_iff.mp (hkeys ▸ k.parts_nodup)
  rw [hparts]
  exact (hperm.map _).trans (.of_eq (map_partOf hn))

theorem writeModelScores_ok {registry : Registry} {now : Int} {request : ModelScoreWriteIn}
    {published : String × ModelScoreWriteRequested} (h : writeModelScores registry now request = .ok published) :
    request.Accepted registry ∧ published.2 = request.event now := by
  unfold writeModelScores at h
  obtain ⟨_, hscores, h⟩ := bind_eq_ok.mp h
  obtain ⟨_, hwritten, h⟩ := bind_eq_ok.mp h
  obtain ⟨k, hkey, h⟩ := bind_eq_ok.mp h
  obtain ⟨view, hview, h⟩ := bind_eq_ok.mp h
  obtain ⟨_, hchecked, h⟩ := bind_eq_ok.mp h
  obtain ⟨key, -, h⟩ := bind_eq_ok.mp h
  cases h
  have hwritten := refuseIf_ok hwritten
  refine ⟨⟨refuseIf_ok hscores, ?_, ⟨k, EntityKey.perm_of_fromMapping (orBadRequest_ok hkey)⟩, view,
    orBadRequest_ok hview, checkScores_ok hchecked⟩, rfl⟩
  by_cases honline : request.writeOnline = true
  · exact .inl honline
  · exact .inr (by simpa [honline] using hwritten)

/-! ## What the writer makes of an accepted request -/

/-- A registry under which the request can be written: it has the view, the request gives the key fields of the view, and
its scores are for scored features. -/
structure ModelScoreWriteIn.Offered (request : ModelScoreWriteIn) (registry : Registry) (v : FeatureViewDef) : Prop where
  view : registry.findView request.view request.viewVersion = .ok v
  key : ∀ n ∈ v.keyFields, n ∈ Dict.keys request.entityKey
  scores : ∀ s ∈ request.scores, Scorable (featuresByName v.features) s

/-- The write set holds what the request asks for, under the key of the view and the request's id. -/
structure ModelScoreWriteIn.Asks (request : ModelScoreWriteIn) (v : FeatureViewDef) (now : Int) (w : Wire.FeatureWriteSet) :
    Prop where
  view : w.view = .str request.view ∧ w.viewVersion = .int request.viewVersion
  key : w.entityKey.parts = v.keyFields.map fun n => (n, partOf request.entityKey n)
  results : ∀ name, Dict.get? w.results name = lastResult (featuresByName v.features) now request.scores name
  ids : w.requestId = .str request.idempotencyKey ∧ w.jobId = .str request.idempotencyKey ∧
    w.runId = .str request.idempotencyKey

section
variable {text : WireText} (floatText : PyFloat → String) {registry : Registry} {request : ModelScoreWriteIn} (now : Int)

theorem ScoreIn.item_built (s : ScoreIn) : (s.item now).Built := by
  constructor
  · have hopt : ∀ o : Option String, (optStr o).Proper := by
      intro o
      cases o <;> trivial
    simp [ScoreItem.fields, item, Value.Proper, s.value_ok, hopt]
  · exact ⟨s.context, Wire.textKeys_map s.context, s.context_ok⟩

theorem ModelScoreWriteIn.event_built {k : EntityKey} (hk : k.parts.Perm request.entityKey) :
    (request.event now).Built := by
  have hn : (Dict.keys request.entityKey).Nodup := (hk.map Prod.fst).nodup_iff.mp k.parts_nodup
  have hkeys : Wire.textKeys (Wire.wirePairs request.entityKey) = .ok (request.entityKey.map fun p => (p.1, .str p.2)) := by
    rw [← Wire.textKeys_map, List.map_map]
    rfl
  refine ⟨?_, ⟨trivial, _, hkeys, ?_, ?_⟩, fun s hs => ?_⟩
  · simp only [ModelScoreWriteRequested.fields, List.forall_mem_cons]
    simp [event, Value.Proper]
  · simpa [Dict.keys, Function.comp_def] using hn
  · refine Value.properFields_iff.mpr fun kv hkv => ?_
    obtain ⟨p, -, rfl⟩ := List.mem_map.mp hkv
    trivial
  · obtain ⟨score, -, rfl⟩ := List.mem_map.mp hs
    exact score.item_built now

theorem ModelScoreWriteIn.event_times : ∀ t ∈ (request.event now).times, Wire.IsAware t := by
  intro t ht
  simp only [ModelScoreWriteRequested.times, event, List.mem_cons, List.mem_flatMap, List.mem_map] at ht
  rcases ht with rfl | ⟨_, ⟨s, -, rfl⟩, ht⟩
  · trivial
  · simp only [ScoreItem.times, ScoreIn.item, List.mem_cons, List.not_mem_nil, or_false] at ht
    rcases ht with rfl | rfl <;> trivial

/-- What the writer reads is made of the request's own texts; the entity key comes in the order of its names. -/
theorem scoreWriteSet_received (registry' : Registry) :
    scoreWriteSet floatText registry' (request.event now).normal = do
      raiseIf (request.writeOnline = false ∧ request.writeOffline = false) "write_online and write_offline are both false"
      let v ← registry'.findView request.view request.viewVersion
      let entityKey ← scoreEntityKey (Wire.wirePairs (sortedBy Prod.fst request.entityKey)) v.keyFields
      let results ← scoreResults floatText (featuresByName v.features) (.str request.view) []
        (request.scores.map fun s => (s.item now).normal)
      return {
        view := .str request.view, viewVersion := .int request.viewVersion, entityKey, results, sourceRefs := []
        requestId := .str request.idempotencyKey, jobId := .str request.idempotencyKey
        runId := .str request.idempotencyKey, correlationId := (request.event now).normal.correlationId
        writePolicy := .str "online_first" } := by
  have hkey : (request.event now).normal.entity.entityKey = Wire.wirePairs (sortedBy Prod.fst request.entityKey) :=
    normalMapping_wirePairs request.entityKey
  have hscores : (request.event now).normal.scores = request.scores.map fun s => (s.item now).normal := by
    simp [ModelScoreWriteRequested.normal, ModelScoreWriteIn.event, Function.comp_def]
  have hview : findViewOf floatText registry' (.str request.view) (.int request.viewVersion) =
      registry'.findView request.view request.viewVersion := by
    have hint : ∀ m n : Int, (Value.int m).pyEq (.int n) = decide (m = n) := by
      intro m n
      rw [Bool.eq_iff_iff]
      simp [Value.pyEq, Value.toks]
    simp [findViewOf, Registry.findView, hint, reprValue, strValue]
    rfl
  rw [← hview]
  unfold scoreWriteSet
  rw [hkey, hscores]
  rfl

/-- The key of the view is made of the request's key; if a key field is missing, what is raised is caught. -/
theorem scoreEntityKey_received {k : EntityKey} (hk : k.parts.Perm request.entityKey) (v : FeatureViewDef) :
    ((∀ n ∈ v.keyFields, n ∈ Dict.keys request.entityKey) → ∃ k' : EntityKey,
        k'.parts = v.keyFields.map (fun n => (n, partOf request.entityKey n)) ∧
        scoreEntityKey (Wire.wirePairs (sortedBy Prod.fst request.entityKey)) v.keyFields = .ok k') ∧
      ((∃ n ∈ v.keyFields, n ∉ Dict.keys request.entityKey) → ∃ n ∈ v.keyFields, n ∉ Dict.keys request.entityKey ∧
        scoreEntityKey (Wire.wirePairs (sortedBy Prod.fst request.entityKey)) v.keyFields =
          .error (.keyError (reprStr n))) := by
  have hsorted := sortedBy_perm Prod.fst request.entityKey
  have hkeys : ∀ n, n ∈ Dict.keys (sortedBy Prod.fst request.entityKey) ↔ n ∈ Dict.keys request.entityKey :=
    fun n => (hsorted.map Prod.fst).mem_iff
  have hn : (Dict.keys request.entityKey).Nodup := (hk.map Prod.fst).nodup_iff.mp k.parts_nodup
  have hpart : ∀ n, partOf (sortedBy Prod.fst request.entityKey) n = partOf request.entityKey n := by
    intro n
    rw [partOf, partOf, Dict.get?_perm hn hsorted.symm]
  have hne : v.keyFields ≠ [] := by
    have h := v.ok
    simp only [ViewFields.check, bind_eq_ok, raiseIf_eq_ok] at h
    obtain ⟨_, -, _, -, _, hne, -⟩ := h
    exact hne
  constructor
  · intro h
    obtain ⟨k', hparts, heq⟩ := exists_scoreEntityKey (hk.trans hsorted.symm) hne (keyFields_ok v).2
      fun n hn => (hkeys n).mpr (h n hn)
    simp only [hpart] at hparts
    exact ⟨k', hparts, heq⟩
  · intro h
    obtain ⟨n, hn, hmissing, heq⟩ := scoreEntityKey_missing (d := sortedBy Prod.fst request.entityKey)
      (by simpa only [hkeys] using h)
    exact ⟨n, hn, fun hm => hmissing ((hkeys n).mpr hm), heq⟩

theorem lastResult_built {v : FeatureViewDef} {scores : List ScoreIn} {name : String} {r : Wire.FeatureResult}
    (h : lastResult (featuresByName v.features) now scores name = some r) : r.Built := by
  obtain ⟨s, hs, h⟩ := Option.bind_eq_some_iff.mp h
  obtain ⟨f, hf, rfl⟩ := Option.map_eq_some_iff.mp h
  obtain ⟨-, hname⟩ := featuresByName_name hf
  have hs : s.feature = name := by simpa using List.find?_some hs
  constructor
  · simp [Wire.FeatureResult.fields, ScoreIn.result, Value.Proper, s.value_ok.normal]
  · have hversion : (Value.int f.featureVersion).ltInt 1 = .ok false := by
      have := f.version_ok
      simp [Value.ltInt, Value.compareInt, Value.scaled]
      omega
    simp [Wire.checkRef, ScoreIn.result, hs, ← hname, f.name_ok, raiseIf, hversion]

/-- The writer makes a write set of a request if its registry offers the request. -/
theorem scoreWriteSet_ok {k : EntityKey} (hk : k.parts.Perm request.entityKey)
    (hwritten : request.writeOnline = true ∨ request.writeOffline = true) {v : FeatureViewDef}
    (hv : request.Offered registry v) : ∃ w, scoreWriteSet floatText registry (request.event now).normal = .ok w ∧
      request.Asks v now w ∧ w.Built := by
  obtain ⟨key, hparts, hkey⟩ := (scoreEntityKey_received hk v).1 hv.key
  obtain ⟨results, hresults, hnames, hget⟩ := scoreResults_ok floatText (.str request.view) now request.scores []
    hv.scores List.nodup_nil
  have hflags : ¬ (request.writeOnline = false ∧ request.writeOffline = false) := by
    rcases hwritten with h | h <;> simp [h]
  have hget : ∀ name, Dict.get? results name = lastResult (featuresByName v.features) now request.scores name := by
    simpa using hget
  rw [scoreWriteSet_received, raiseIf, if_neg hflags, ok_bind, hv.view, ok_bind, hkey, ok_bind, hresults, ok_bind]
  refine ⟨_, rfl, ⟨⟨rfl, rfl⟩, hparts, hget, rfl, rfl, rfl⟩, ?_, hnames, fun r hr => ?_, [], rfl, List.nodup_nil, trivial⟩
  · simp [Wire.FeatureWriteSet.fields, ModelScoreWriteRequested.normal, ModelScoreWriteIn.event, Value.Proper]
  · exact lastResult_built now ((hget r.1).symm.trans (Dict.get?_of_mem hnames hr))

/-- What the writer raises on a request is caught. -/
theorem scoreWriteSet_error {k : EntityKey} (hk : k.parts.Perm request.entityKey) {e : PyErr}
    (h : scoreWriteSet floatText registry (request.event now).normal = .error e) : e.isDeterministic = true := by
  rw [scoreWriteSet_received] at h
  by_cases hflags : request.writeOnline = false ∧ request.writeOffline = false
  · rw [raiseIf, if_pos hflags] at h
    cases h
    rfl
  · rw [raiseIf, if_neg hflags, ok_bind] at h
    cases hv : registry.findView request.view request.viewVersion with
    | error e' =>
      rw [hv, error_bind] at h
      unfold Registry.findView at hv
      split at hv
      · cases hv
      · cases hv
        cases h
        rfl
    | ok v =>
      rw [hv, ok_bind] at h
      by_cases hfields : ∀ n ∈ v.keyFields, n ∈ Dict.keys request.entityKey
      · obtain ⟨key, -, hkey⟩ := (scoreEntityKey_received hk v).1 hfields
        rw [hkey, ok_bind] at h
        cases hresults : scoreResults floatText (featuresByName v.features) (.str request.view) []
          (request.scores.map fun s => (s.item now).normal) with
        | error e' =>
          rw [hresults] at h
          cases h
          exact scoreResults_error floatText _ now _ _ hresults
        | ok results =>
          rw [hresults] at h
          cases h
      · obtain ⟨n, -, -, hkey⟩ := (scoreEntityKey_received hk v).2 (by simpa using hfields)
        rw [hkey] at h
        cases h
        rfl

theorem offered_of_scoreWriteSet {k : EntityKey} (hk : k.parts.Perm request.entityKey) {w : Wire.FeatureWriteSet}
    (h : scoreWriteSet floatText registry (request.event now).normal = .ok w) : ∃ v, request.Offered registry v := by
  rw [scoreWriteSet_received] at h
  obtain ⟨_, -, h⟩ := bind_eq_ok.mp h
  obtain ⟨v, hv, h⟩ := bind_eq_ok.mp h
  obtain ⟨key, hkey, h⟩ := bind_eq_ok.mp h
  obtain ⟨results, hresults, -⟩ := bind_eq_ok.mp h
  refine ⟨v, hv, ?_, scorable_of_scoreResults floatText _ now _ _ hresults⟩
  by_contra hfields
  obtain ⟨n, -, -, hmissing⟩ := (scoreEntityKey_received hk v).2 (by simpa using hfields)
  rw [hkey] at hmissing
  cases hmissing

end

/-- How a writer handles what it reads of an accepted request: it makes a write set exactly if its registry offers the
request, and what it raises otherwise is caught. The write set is what the request asks for, and the offline writer reads
it back. -/
structure ModelScoreWriteIn.Handled (request : ModelScoreWriteIn) (text : WireText) (floatText : PyFloat → String) (now : Int)
    (received : ModelScoreWriteRequested) (registry : Registry) : Prop where
  written : (∃ w, scoreWriteSet floatText registry received = .ok w) ↔ ∃ v, request.Offered registry v
  caught : ∀ e, scoreWriteSet floatText registry received = .error e → e.isDeterministic = true
  asked : ∀ w v, scoreWriteSet floatText registry received = .ok w → request.Offered registry v → request.Asks v now w
  survives : ∀ w later, scoreWriteSet floatText registry received = .ok w → ∃ raw,
    Wire.toJson text (Wire.FeatureOfflineWriteRequested.toDict text) (offlineWriteOf received w later) = .ok raw ∧
    Wire.fromJson text (Wire.FeatureOfflineWriteRequested.fromDict text.toWireCodec) raw =
      .ok (offlineWriteOf received w later).normal

theorem ModelScoreWriteIn.Accepted.handled (text : WireText) (floatText : PyFloat → String) {registry : Registry} (now : Int)
    {request : ModelScoreWriteIn} (h : request.Accepted registry) (registry' : Registry) :
    request.Handled text floatText now (request.event now).normal registry' := by
  obtain ⟨k, hk⟩ := h.key
  have hmade : ∀ w v, scoreWriteSet floatText registry' (request.event now).normal = .ok w →
      request.Offered registry' v → request.Asks v now w ∧ w.Built := by
    intro w v hw hv
    obtain ⟨w', hw', hasks⟩ := scoreWriteSet_ok floatText now hk h.written hv
    cases hw.symm.trans hw'
    exact hasks
  refine ⟨⟨?_, ?_⟩, ?_, ?_, ?_⟩
  · intro hw
    obtain ⟨w, hw⟩ := hw
    exact offered_of_scoreWriteSet floatText now hk hw
  · intro hv
    obtain ⟨v, hv⟩ := hv
    obtain ⟨w, hw, -⟩ := scoreWriteSet_ok floatText now hk h.written hv
    exact ⟨w, hw⟩
  · intro e he
    exact scoreWriteSet_error floatText now hk he
  · intro w v hw hv
    exact (hmade w v hw hv).1
  · intro w later hw
    obtain ⟨v, hv⟩ := offered_of_scoreWriteSet floatText now hk hw
    have hbuilt : (offlineWriteOf (request.event now).normal w later).Built := by
      refine ⟨?_, (hmade w v hw hv).2⟩
      simp [Wire.FeatureOfflineWriteRequested.fields, offlineWriteOf, ModelScoreWriteRequested.normal,
        ModelScoreWriteIn.event, Value.Proper]
    have htimes : ∀ t ∈ (offlineWriteOf (request.event now).normal w later).times, Wire.IsAware t := by
      simp [Wire.FeatureOfflineWriteRequested.times, offlineWriteOf, Wire.IsAware]
    obtain ⟨d, hd⟩ : ∃ d, (offlineWriteOf (request.event now).normal w later).toDict text = .ok d :=
      Wire.FeatureOfflineWriteRequested.written hbuilt htimes
    have hreads := Wire.FeatureOfflineWriteRequested.reads hbuilt (Wire.FeatureOfflineWriteRequested.encodes hd)
    exact ⟨text.dumps d, bind_eq_ok.mpr ⟨d, hd, rfl⟩, hreads.fromJson (text.printable d)⟩

/-- What the API publishes every writer reads and handles, whatever its registry. With the registry of the API all that
can be missing are key fields of the view. -/
theorem accepted_scores_handled (text : WireText) (floatText : PyFloat → String) (registry : Registry) (now : Int)
    (request : ModelScoreWriteIn) {published : String × ModelScoreWriteRequested}
    (h : writeModelScores registry now request = .ok published) :
    ∃ raw received, Wire.toJson text (ModelScoreWriteRequested.toDict text) published.2 = .ok raw ∧
      Wire.fromJson text (ModelScoreWriteRequested.fromDict text.toWireCodec) raw = .ok received ∧
      (∀ registry', request.Handled text floatText now received registry') ∧
      ((∃ w, scoreWriteSet floatText registry received = .ok w) ↔ ∃ v,
        registry.findView request.view request.viewVersion = .ok v ∧ ∀ n ∈ v.keyFields, n ∈ Dict.keys request.entityKey) := by
  obtain ⟨haccepted, heq⟩ := writeModelScores_ok h
  obtain ⟨k, hk⟩ := haccepted.key
  have hbuilt := ModelScoreWriteIn.event_built now hk
  obtain ⟨d, hd⟩ : ∃ d, (request.event now).toDict text = .ok d :=
    ModelScoreWriteRequested.written hbuilt (ModelScoreWriteIn.event_times now)
  have hreads := ModelScoreWriteRequested.reads hbuilt (ModelScoreWriteRequested.encodes hd)
  refine ⟨text.dumps d, (request.event now).normal, ?_, hreads.fromJson (text.printable d), haccepted.handled text floatText now, ?_⟩
  · rw [heq]
    exact bind_eq_ok.mpr ⟨d, hd, rfl⟩
  · rw [(haccepted.handled text floatText now registry).written]
    obtain ⟨v, hv, hscores⟩ := haccepted.view
    constructor
    · intro h
      obtain ⟨v', hv'⟩ := h
      exact ⟨v', hv'.view, hv'.key⟩
    · intro h
      obtain ⟨v', hv', hkey⟩ := h
      cases hv.symm.trans hv'
      exact ⟨v, hv, hkey, hscores⟩

def riskScore (value : Int) : ScoreIn where
  feature := "score"
  value := .int value
  dataTs := newYear
  modelName := "pd_model"
  modelVersion := "v4"
  value_ok := trivial
  context_ok := ⟨by exact List.nodup_nil, by trivial⟩

/-- The second score is the one that counts. -/
def riskScores : ModelScoreWriteIn where
  entityType := "user"
  entityKey := [("user_id", "1"), ("application_id", "A1")]
  view := "risk"
  viewVersion := 1
  scores := [riskScore 3, riskScore 4]
  idempotencyKey := "sw1"

noncomputable def riskScoresText : WireText :=
  sampledText [(((riskScores.event newYear).toDict sampleText).toOption).getD .null] (by decide +kernel) (by decide +kernel)

theorem accepted_scores_handled_risk : ∃ raw received w,
    Wire.toJson riskScoresText (ModelScoreWriteRequested.toDict riskScoresText) (riskScores.event newYear) = .ok raw ∧
    Wire.fromJson riskScoresText (ModelScoreWriteRequested.fromDict riskScoresText.toWireCodec) raw = .ok received ∧
    scoreWriteSet (fun _ => "") (userRegistry scoreView) received = .ok w ∧ w.entityKey.parts = [("user_id", "1")] ∧
    (Dict.get? w.results "score").map (·.value) = some (.int 4) := by
  have hpublished : writeModelScores (userRegistry scoreView) newYear riskScores =
      .ok ("application_id=A1|user_id=1", riskScores.event newYear) := rfl
  obtain ⟨raw, received, hraw, hreceived, hhandled, -⟩ :=
    accepted_scores_handled riskScoresText (fun _ => "") (userRegistry scoreView) newYear riskScores hpublished
  have hoffered : riskScores.Offered (userRegistry scoreView) scoreView := by
    refine ⟨rfl, by decide, ?_⟩
    intro s hs
    simp only [riskScores, List.mem_cons, List.not_mem_nil, or_false] at hs
    rcases hs with rfl | rfl
    · exact ⟨scoreFeature, rfl, rfl⟩
    · exact ⟨scoreFeature, rfl, rfl⟩
  obtain ⟨w, hw⟩ := (hhandled _).written.mpr ⟨scoreView, hoffered⟩
  have hasks := (hhandled _).asked w scoreView hw hoffered
  refine ⟨raw, received, w, hraw, hreceived, hw, hasks.key, ?_⟩
  rw [hasks.results]
  rfl

end ClearFeature
