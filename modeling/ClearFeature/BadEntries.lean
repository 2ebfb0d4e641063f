import ClearFeature.BadItems
import ClearFeature.Immutable

/-!
# Entries of a wave that raise (`api/propagation_worker.py`)

An entry reads what the entries before it have appended, so which one raises
may depend on them. One that raises appends nothing.
-/

namespace ClearFeature

open Prog

/-! ## A wave with its stores and the broker at hand -/

/-- `recomputeModel` is the batch model path: it raises before it appends, or gives its counts, the results it appends and
what it announces. -/
structure WaveBackend where
  store : FeatureStore
  now : Int
  hasModelRunner : Bool
  recomputeModel : OfflineStore → WaveUnit → Except PyErr (WaveTally × List FeatureResult × List FeatureUpdated)

structure WaveStores where
  offline : OfflineStore := []
  records : List PropagationRecord := []

def WaveStores.push (s : WaveStores) (record : PropagationRecord) : WaveStores :=
  { s with records := s.records ++ [record] }

def WaveStores.append (s : WaveStores) (view : String) (viewVersion : Int) (results : List FeatureResult) : WaveStores :=
  { s with offline := appendNewResults s.offline view viewVersion results }

def WaveStores.modelled (s : WaveStores) (unit : WaveUnit) (results : List FeatureResult) (events : List FeatureUpdated) :
    WaveStores :=
  events.foldl (fun s event => s.push (.updated event)) (s.append unit.view unit.viewVersion results)

section
variable (w : WaveBackend)

def WaveStores.act (s : WaveStores) : RunnerCall PropagationRecord Unit PropagationOwn → WaveStores
  | .publish _ _ record _ => s.push record
  | .own (.appendNew view viewVersion results) => s.append view viewVersion results
  | .own (.recomputeModel unit) =>
    match w.recomputeModel s.offline unit with
    | .error _ => s
    | .ok (_, results, events) => s.modelled unit results events
  | _ => s

def WaveStores.answer (s : WaveStores) :
    (c : RunnerCall PropagationRecord Unit PropagationOwn) → RunnerCall.Ans PropagationOwn.Ans c
  | .poll => none
  | .now => w.now
  | .commit _ | .publish _ _ _ _ | .statusPut _ _ => .ok ()
  | .statusRead _ _ => .ok none
  | .own (.recompute unit) =>
    w.store.computeDependentFromOffline s.offline unit.view unit.viewVersion unit.entityKey unit.calcTs unit.safetyGap
      unit.featureName
  | .own (.recomputeModel unit) => (w.recomputeModel s.offline unit).map Prod.fst
  | .own (.appendNew _ _ _) => .ok ()
  | .own (.waveMetrics _ _) => ()

def WaveBackend.service :
    Service (RunnerCall PropagationRecord Unit PropagationOwn) (RunnerCall.Ans PropagationOwn.Ans) WaveStores :=
  ⟨WaveStores.act w, WaveStores.answer w⟩

/-! ## One entry -/

def WaveBackend.registry : Registry := w.store.core.registry

def WaveBackend.unitOf (entry : DebounceEntry) (entityKey : EntityKey) : WaveUnit :=
  ⟨entry.view, entry.viewVersion, entityKey, entry.dependentFeature, w.now, 0⟩

def storeEntry (s : WaveStores) (entry : DebounceEntry) (result : FeatureResult) : WaveStores × WaveTally :=
  let appended := s.append entry.view entry.viewVersion [result]
  match findView? w.registry entry.view entry.viewVersion with
  | none => (appended, { computed := 1 })
  | some viewDef =>
    let events := buildFeatureUpdatedEvents viewDef [result] entry.entity.entityType .recomputeWave
    (events.foldl (fun s event => s.push (.updated event)) appended, { computed := 1, downstreamEmitted := events.length })

def modelEntry (s : WaveStores) (unit : WaveUnit) : WaveStores × Except PyErr WaveTally :=
  if w.hasModelRunner then
    match w.recomputeModel s.offline unit with
    | .error e => (s, .error e)
    | .ok (t, results, events) => (s.modelled unit results events, .ok t)
  else (s, .ok { skipped := 1 })

def waveEntry (s : WaveStores) (entry : DebounceEntry) : WaveStores × Except PyErr WaveTally :=
  let viewDef := findView? w.registry entry.view entry.viewVersion
  match Propagation.unitKey viewDef entry with
  | .error e => (s, .error e)
  | .ok entityKey =>
    let unit := w.unitOf entry entityKey
    if Propagation.isModel viewDef entry.dependentFeature then modelEntry w s unit
    else
      match w.store.computeDependentFromOffline s.offline unit.view unit.viewVersion unit.entityKey unit.calcTs
          unit.safetyGap unit.featureName with
      | .error e => (s, .error e)
      | .ok none => (s, .ok { skipped := 1 })
      | .ok (some result) => ((storeEntry w s entry result).1, .ok (storeEntry w s entry result).2)

end

def WaveTally.add (t d : WaveTally) : WaveTally :=
  { t with computed := t.computed + d.computed, skipped := t.skipped + d.skipped
           downstreamEmitted := t.downstreamEmitted + d.downstreamEmitted }

def WaveTally.fail (t : WaveTally) : WaveTally := { t with failed := t.failed + 1 }

/-! ## Refusals of a key -/

/-- Whatever is raised is deterministic. -/
def Refuses {α : Type} (x : Except PyErr α) : Prop := ∀ e, x = .error e → e.isDeterministic = true

theorem refuses_ok {α : Type} (a : α) : Refuses (.ok a) := fun _ h => (nomatch h)

theorem refuses_value {α : Type} (msg : String) : Refuses (.error (.valueError msg) : Except PyErr α) := by
  intro e h
  cases h
  rfl

theorem Refuses.bind {α β : Type} {x : Except PyErr α} {f : α → Except PyErr β} (hx : Refuses x)
    (hf : ∀ a, Refuses (f a)) : Refuses (x >>= f) := by
  cases x with
  | error e =>
    intro e' h
    cases h
    exact hx e rfl
  | ok a => exact hf a

theorem checkReserved_refuses (label token : String) : Refuses (checkReserved label token) := by
  unfold checkReserved
  dsimp only
  split
  · exact refuses_value _
  · split
    · exact refuses_value _
    · exact refuses_ok _

theorem validateParts_refuses : ∀ parts : List (String × String), Refuses (validateParts parts)
  | [] => refuses_ok _
  | (name, value) :: parts => by
    unfold validateParts
    refine Refuses.bind ?_ fun _ => validateParts_refuses parts
    unfold validatePart
    split
    · exact refuses_value _
    · split
      · exact refuses_value _
      · exact Refuses.bind (checkReserved_refuses _ _) fun _ => checkReserved_refuses _ _

theorem encodeEntityKey_refuses (parts : List (String × String)) (keyOrder : Option (List String)) :
    Refuses (encodeEntityKey parts keyOrder) := by
  unfold encodeEntityKey
  split
  · exact refuses_value _
  · refine Refuses.bind (validateParts_refuses parts) fun _ => ?_
    cases keyOrder with
    | none => exact refuses_ok _
    | some order =>
      refine Refuses.bind ?_ fun _ => refuses_ok _
      unfold validateKeyOrder
      split
      · exact refuses_value _
      · exact refuses_ok _

theorem ofParts_refuses (parts : List (String × String)) : Refuses (EntityKey.ofParts parts) := by
  unfold EntityKey.ofParts
  split
  · exact refuses_ok _
  · rename_i e h
    intro e' he
    cases he
    exact encodeEntityKey_refuses _ _ _ h

theorem unitKey_refuses (viewDef : Option FeatureViewDef) (entry : DebounceEntry) :
    Refuses (Propagation.unitKey viewDef entry) := by
  unfold Propagation.unitKey
  split
  · unfold EntityKey.fromMapping
    exact Refuses.bind (encodeEntityKey_refuses _ _) fun _ => ofParts_refuses _
  · exact ofParts_refuses _

/-! ## A wave -/

section
variable {w : WaveBackend}

theorem wave_takesRecords (w : WaveBackend) : TakesRecords w.service WaveStores.push :=
  ⟨fun _ _ _ _ _ => rfl, fun _ _ _ _ _ => rfl⟩

theorem storeUnit_exec (s : WaveStores) (entry : DebounceEntry) (result : FeatureResult) (t : WaveTally) :
    exec w.service s (Propagation.storeUnit (findView? w.registry entry.view entry.viewVersion) entry result t) =
      ((storeEntry w s entry result).1, .ok (t.add (storeEntry w s entry result).2)) := by
  unfold Propagation.storeUnit storeEntry
  rw [exec_ask_bind]
  show exec w.service (s.append entry.view entry.viewVersion [result]) _ = _
  cases findView? w.registry entry.view entry.viewVersion with
  | none => rfl
  | some viewDef =>
    show exec w.service _ (emitFeatureUpdates .updated viewDef [result] entry.entity.entityType .recomputeWave >>= _) = _
    rw [exec_bind, emitFeatureUpdates_exec (wave_takesRecords w)]
    rfl

theorem recomputeModel_exec (s : WaveStores) (unit : WaveUnit) (t : WaveTally) :
    exec w.service s (Propagation.recomputeModelDependent w.hasModelRunner unit t) =
      match modelEntry w s unit with
      | (s', .ok d) => (s', .ok (t.add d))
      | (s', .error e) => (s', if e.isDeterministic then .ok t.fail else .error e) := by
  unfold Propagation.recomputeModelDependent modelEntry
  cases w.hasModelRunner with
  | false => rfl
  | true =>
    rw [if_pos rfl, if_pos rfl, exec_ask_bind]
    have hact : w.service.act s (.own (.recomputeModel unit)) =
      match w.recomputeModel s.offline unit with
      | .error _ => s
      | .ok (_, results, events) => s.modelled unit results events := rfl
    have hans : w.service.answer s (.own (.recomputeModel unit)) = (w.recomputeModel s.offline unit).map Prod.fst := rfl
    rw [hact, hans]
    cases w.recomputeModel s.offline unit with
    | error e =>
      show exec w.service s (if e.isDeterministic then _ else _) = _
      dsimp only
      split <;> rfl
    | ok out => rfl

theorem waveUnit_exec (s : WaveStores) (entry : DebounceEntry) (t : WaveTally) :
    exec w.service s (Propagation.waveUnit w.registry w.hasModelRunner w.now 0 entry t) =
      match waveEntry w s entry with
      | (s', .ok d) => (s', .ok (t.add d))
      | (s', .error e) => (s', if e.isDeterministic then .ok t.fail else .error e) := by
  unfold Propagation.waveUnit waveEntry
  dsimp only
  cases hk : Propagation.unitKey (findView? w.registry entry.view entry.viewVersion) entry with
  | error e =>
    dsimp only
    rw [if_pos (unitKey_refuses _ _ e hk)]
    rfl
  | ok entityKey =>
    dsimp only
    split
    · exact recomputeModel_exec s (w.unitOf entry entityKey) t
    · have hact : ∀ unit : WaveUnit, w.service.act s (.own (.recompute unit)) = s := fun _ => rfl
      have hans : ∀ unit : WaveUnit, w.service.answer s (.own (.recompute unit)) =
        w.store.computeDependentFromOffline s.offline unit.view unit.viewVersion unit.entityKey unit.calcTs
          unit.safetyGap unit.featureName := fun _ => rfl
      rw [exec_ask_bind, hact, hans]
      dsimp only [WaveBackend.unitOf]
      rcases w.store.computeDependentFromOffline s.offline entry.view entry.viewVersion entityKey w.now 0
          entry.dependentFeature with e | _ | result
      · dsimp only
        split <;> rfl
      · rfl
      · exact storeUnit_exec s entry result t

def entryLoop (w : WaveBackend) (s : WaveStores) (entries : DebounceStore) (t : WaveTally) :
    WaveStores × Except PyErr WaveTally :=
  Items.loop (fun s (entry : DebounceKey × DebounceEntry) => waveEntry w s entry.2) PyErr.isDeterministic WaveTally.add
    (fun t _ => t.fail) s entries t

theorem waveLoop_exec : ∀ (entries : DebounceStore) (s : WaveStores) (t : WaveTally),
    exec w.service s (Propagation.waveLoop w.registry w.hasModelRunner w.now 0 entries t) = entryLoop w s entries t
  | [], s, t => rfl
  | (key, entry) :: entries, s, t => by
    rw [Propagation.waveLoop, exec_bind, waveUnit_exec]
    unfold entryLoop
    rw [Items.loop]
    rcases waveEntry w s entry with ⟨s', e | d⟩
    · dsimp only
      by_cases he : e.isDeterministic = true
      · rw [if_pos he, if_pos he]
        exact waveLoop_exec entries s' t.fail
      · rw [if_neg he, if_neg he]
        rfl
    · exact waveLoop_exec entries s' (t.add d)

theorem executeWave_exec (s : WaveStores) (entries : DebounceStore) :
    exec w.service s (Propagation.executeWave w.registry w.hasModelRunner entries) = entryLoop w s entries {} := by
  rw [Propagation.executeWave, exec_ask_bind, exec_bind]
  have hnow : w.service.answer s .now = w.now := rfl
  have hact : w.service.act s .now = s := rfl
  rw [hnow, hact, waveLoop_exec]
  rcases entryLoop w s entries {} with ⟨s', e | t⟩
  · rfl
  · rfl

theorem waveEntry_raises {s : WaveStores} {entry : DebounceEntry} {e : PyErr} (h : (waveEntry w s entry).2 = .error e) :
    s = (waveEntry w s entry).1 := by
  unfold waveEntry at h ⊢
  dsimp only at h ⊢
  split
  · rfl
  · rename_i entityKey hk
    rw [hk] at h
    dsimp only at h
    by_cases hm : Propagation.isModel (findView? w.registry entry.view entry.viewVersion) entry.dependentFeature = true
    · rw [if_pos hm] at h ⊢
      unfold modelEntry at h ⊢
      split
      · rename_i hr
        rw [if_pos hr] at h
        split
        · rfl
        · rename_i ho
          rw [ho] at h
          cases h
      · rfl
    · rw [if_neg hm] at h ⊢
      split
      · rfl
      · rfl
      · rename_i ho
        rw [ho] at h
        cases h

theorem waveEntry_isolated (w : WaveBackend) :
    Items.Isolated (fun s (entry : DebounceKey × DebounceEntry) => waveEntry w s entry.2) Eq where
  refl _ := rfl
  trans h h' := h.trans h'
  state item h := by rw [h]
  outcome item h := by rw [h]
  raises item e h he := h.trans (waveEntry_raises he)

def WaveTally.uncounted (t : WaveTally) : WaveTally := { t with failed := 0 }

def waveTally (t : WaveTally) (outs : List (Except PyErr WaveTally)) : WaveTally :=
  Items.tally WaveTally.add (fun t _ => t.fail) t outs

theorem wave_tally : ∀ (outs : List (Except PyErr WaveTally)) (t : WaveTally),
    (waveTally t outs).failed = t.failed + (Items.raised outs).length ∧
    (waveTally t outs).uncounted = waveTally t.uncounted ((Items.returned outs).map .ok)
  | [], t => ⟨rfl, rfl⟩
  | .ok d :: outs, t => wave_tally outs (t.add d)
  | .error e :: outs, t => by
    obtain ⟨hfailed, hrest⟩ := wave_tally outs t.fail
    refine ⟨?_, hrest⟩
    show (waveTally t.fail outs).failed = _
    rw [hfailed, Items.raised, List.length_cons]
    show t.failed + 1 + _ = _
    omega

end

section
variable (w : WaveBackend) (s : WaveStores) (entries : DebounceStore)

def goodEntries : DebounceStore :=
  Items.kept (fun s (entry : DebounceKey × DebounceEntry) => waveEntry w s entry.2) s entries

def waveErrors : List PyErr :=
  Items.raised (Items.outcomes (fun s (entry : DebounceKey × DebounceEntry) => waveEntry w s entry.2) s entries)

/-- The wave goes through; it appends and announces what it would without its bad entries, which are counted. -/
def WaveIsolated : Prop :=
  ∃ (done : WaveStores) (t t' : WaveTally),
    exec w.service s (Propagation.executeWave w.registry w.hasModelRunner entries) = (done, .ok t) ∧
    exec w.service s (Propagation.executeWave w.registry w.hasModelRunner (goodEntries w s entries)) = (done, .ok t') ∧
    t.uncounted = t' ∧ t.failed + (goodEntries w s entries).length = entries.length

end

theorem wave_isolated_iff {w : WaveBackend} {s : WaveStores} {entries : DebounceStore} :
    WaveIsolated w s entries ↔ ∀ e ∈ waveErrors w s entries, e.isDeterministic = true := by
  constructor
  · rintro ⟨done, t, t', hdone, -⟩
    rw [executeWave_exec] at hdone
    exact Items.isolated_of_loop (congrArg Prod.snd hdone)
  · intro herrors
    obtain ⟨hfinal, houts⟩ := (waveEntry_isolated w).kept entries (rfl : s = s)
    have hlen := Items.length_kept (fun s (entry : DebounceKey × DebounceEntry) => waveEntry w s entry.2) s entries
    have htotal := Items.length_returned
      (Items.outcomes (fun s (entry : DebounceKey × DebounceEntry) => waveEntry w s entry.2) s entries)
    rw [Items.length_outcomes] at htotal
    have hall : entryLoop w s entries {} = _ := Items.loop_isolated herrors
    have hgood : entryLoop w s (goodEntries w s entries) {} = _ := Items.loop_isolated (by
      unfold goodEntries
      rw [houts, Items.raised_ok]
      exact fun e he => (nomatch he))
    obtain ⟨hfailed, huncounted⟩ := wave_tally
      (Items.outcomes (fun s (entry : DebounceKey × DebounceEntry) => waveEntry w s entry.2) s entries) {}
    have habsent := executeWave_exec (w := w) s (goodEntries w s entries)
    rw [hgood, goodEntries, hfinal, houts] at habsent
    refine ⟨_, _, _, (executeWave_exec s entries).trans hall, habsent, huncounted, ?_⟩
    show (waveTally {} _).failed + _ = _
    rw [hfailed]
    show 0 + _ + (Items.kept _ _ _).length = _
    omega

/-- Exactly where no item raises anything but a deterministic error, a chunk or a wave goes through as if its bad items
were absent. -/
theorem bad_items_isolated_iff (b : BatchBackend) (event : BatchChunkRequested) (viewDef : FeatureViewDef)
    (features : List String) (stores : BatchStores) (hplan : b.planned event = .ok (viewDef, features))
    (w : WaveBackend) (history : WaveStores) (entries : DebounceStore) :
    (ChunkIsolated b event viewDef features stores ↔
      ∀ e ∈ chunkErrors b event viewDef features stores, e.isDeterministic = true) ∧
    (WaveIsolated w history entries ↔ ∀ e ∈ waveErrors w history entries, e.isDeterministic = true) :=
  ⟨chunk_isolated_iff hplan, wave_isolated_iff⟩

/-! ## A function that divides by zero -/

/-- `last // (last - 5)` -/
def ratioFeature : FeatureDef where
  name := "ratio"
  kind := .udf
  featureVersion := 1
  udf := "u.ratio"
  dtype := "int"
  status := "live"
  deps := [⟨{ feature := "last", propagation := .reactive }, reactiveOnLast_ok⟩]
  lifecycle := .live
  ok := by decide

def ratioView : FeatureViewDef where
  name := "risk"
  entity := "user"
  keyFields := ["user_id"]
  viewVersion := 1
  owner := "o"
  status := "live"
  features := [lastFeature, ratioFeature]
  ok := by decide
  groups_nodup := by exact List.nodup_nil

def ratioUdf : Udf := fun _ deps =>
  match Dict.get? deps "last" with
  | some (.int n) =>
    if n = 5 then .error (.other "ZeroDivisionError" "integer division or modulo by zero") else .ok (.int (n / (n - 5)))
  | _ => .error (.typeError "unsupported operand")

def hashTen : String := "sha256:4a44dc15364204a80fe80e9039455cc1608281820fe2b24f1e5233ade6af1dd5"

def ratioStore : FeatureStore where
  core := {
    registry := userRegistry ratioView
    udfs := ("u.ratio", ratioUdf) :: lastStore.core.udfs
    sha256 := digestTable (lastTable ++
      [(canonicalValueJson (.int 2), "d4735e3a265e16eee03f59718b9b5d03019c07d8b6c51f90da3a666eec13ab35"),
       (fingerprintText [("last:v1", 1, hashTen)], "6c8476ca33878d71237829b18b9027072d46922bb14d30a033c1c16dcfe52560")]) }
  resolver := lastStore.resolver

def ratioBackend : BatchBackend where
  core := ratioStore.core
  raw := memoryBackend
  inlineSource := fun _ => .error (.valueError "not a source of this kind")
  uuidHex := fun _ _ => ""
  itemNow := fun _ => 30
  chunkNow := 30
  withinBudget := id

/-- A user whose report of source `b` is the given one. -/
def ratioItem (user reportRef : String) : BatchItem where
  entityType := "user"
  entityKey := [("user_id", user)]
  sourceRefs := [("a", "rep_a"), ("b", reportRef)]

def ratioChunk (items : List BatchItem) : BatchChunkRequested where
  batchJobId := "job_1"
  chunkId := "job_1:0"
  chunkIndex := 0
  chunkCount := 1
  view := "risk"
  viewVersion := 1
  items
  requestedFeatures := ["ratio"]

def ratioStores : BatchStores := { reports := ratioStore.resolver }

theorem ratio_planned (items : List BatchItem) :
    ratioBackend.planned (ratioChunk items) = .ok (ratioView, ["ratio"]) := by
  have h : ratioBackend.planned (ratioChunk []) = .ok (ratioView, ["ratio"]) := by decide +kernel
  exact h

def otherUserKey : EntityKey := ⟨[("user_id", "2")], "user_id=2", by decide⟩

def lastAt (entityKey : EntityKey) (value : Int) : OfflineFeatureRecord :=
  ⟨"risk", 1, { ref := lastFeature.ref, entityKey, value := .int value, dataTs := 1, calcTs := 20 }⟩

def ratioHistory : WaveStores := { offline := [lastAt userKey 10, lastAt otherUserKey 5] }

def ratioEntry (feature : String) (entityKey : EntityKey) : DebounceKey × DebounceEntry :=
  (⟨"user", entityKey.encoded, "risk", 1, feature, 1⟩,
    { entity := ⟨"user", entityKey.parts⟩, view := "risk", viewVersion := 1, dependentFeature := feature,
      dependentVersion := 1, latestDataTs := 1, latestCalcTs := 20 })

def ratioWave : WaveBackend where
  store := ratioStore
  now := 30
  hasModelRunner := false
  recomputeModel := fun _ _ => .error (.valueError "no model")

/-- The second user's value is five. -/
theorem division_ends_all : validateRegistry ratioStore.core.registry = .ok () ∧
    ¬ ChunkIsolated ratioBackend (ratioChunk [ratioItem "1" "rep_b", ratioItem "2" "rep_late"]) ratioView
        ["ratio"] ratioStores ∧
    ¬ WaveIsolated ratioWave ratioHistory [ratioEntry "ratio" userKey, ratioEntry "ratio" otherUserKey] := by
  refine ⟨by decide +kernel, fun h => ?_, fun h => ?_⟩
  · have hraised : ∃ e ∈ chunkErrors ratioBackend (ratioChunk [ratioItem "1" "rep_b", ratioItem "2" "rep_late"])
        ratioView ["ratio"] ratioStores, e.isDeterministic = false := by decide +kernel
    obtain ⟨e, he, hd⟩ := hraised
    rw [(chunk_isolated_iff (ratio_planned _)).mp h e he] at hd
    cases hd
  · have hraised : ∃ e ∈ waveErrors ratioWave ratioHistory [ratioEntry "ratio" userKey, ratioEntry "ratio" otherUserKey],
        e.isDeterministic = false := by decide +kernel
    obtain ⟨e, he, hd⟩ := hraised
    rw [wave_isolated_iff.mp h e he] at hd
    cases hd

/-- A report that is not there is a `KeyError` of its item, a feature that is not there a `ValueError` of its entry. -/
theorem missing_report_isolated :
    ChunkIsolated ratioBackend (ratioChunk [ratioItem "1" "rep_b", ratioItem "2" "rep_c"]) ratioView ["ratio"]
        ratioStores ∧
      WaveIsolated ratioWave ratioHistory [ratioEntry "ratio" userKey, ratioEntry "gone" userKey] := by
  have h := bad_items_isolated_iff ratioBackend (ratioChunk [ratioItem "1" "rep_b", ratioItem "2" "rep_c"]) ratioView
    ["ratio"] ratioStores (ratio_planned _) ratioWave ratioHistory [ratioEntry "ratio" userKey, ratioEntry "gone" userKey]
  exact ⟨h.1.mpr (by decide +kernel), h.2.mpr (by decide +kernel)⟩

end ClearFeature
