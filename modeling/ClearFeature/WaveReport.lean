import ClearFeature.Debounce
import ClearFeature.ModelRows

/-!
# The report of a wave (`execute_wave` of `api/propagation_worker.py`)

A wave drains the debounce store and goes through the entries. Each entry is
computed, skipped or failed, also where the model path computes it; the report
has the trigger ids of all entries.
-/

namespace ClearFeature.Debounce

open Prog

inductive WaveStatus where
  | completed
  | completedWithErrors
  deriving DecidableEq, Repr

structure RecomputeWave where
  waveId : String
  triggerUpdateIds : List String
  entityCount : Nat
  dependentFeatureRefs : List String
  status : WaveStatus
  createdAt : Int
  planned : Nat := 0
  computed : Nat := 0
  skipped : Nat := 0
  failed : Nat := 0
  debounced : Nat := 0
  downstreamEmitted : Nat := 0
  deriving DecidableEq

/-- `_WaveTally`; the two sets are lists without repetition. -/
structure Tally where
  counts : WaveTally := {}
  entities : List String := []
  dependentRefs : List String := []
  triggerIds : List String := []

/-- What is noted of an entry before it is computed. -/
def Tally.note (t : Tally) (entry : Entry) : Except PyErr Tally := do
  let encoded ← entry.entity.encoded
  return { t with
    triggerIds := t.triggerIds ++ entry.triggerUpdateIds
    dependentRefs := t.dependentRefs.insert s!"{entry.dependentFeature}:v{entry.dependentVersion}"
    entities := t.entities.insert s!"{entry.entity.entityType}:{encoded}" }

def Tally.report (t : Tally) (waveId : String) (createdAt : Int) (planned : Nat) : RecomputeWave where
  waveId := waveId
  triggerUpdateIds := t.triggerIds
  entityCount := t.entities.length
  dependentFeatureRefs := sortNames t.dependentRefs
  status := if t.counts.failed = 0 then .completed else .completedWithErrors
  createdAt := createdAt
  planned := planned
  computed := t.counts.computed
  skipped := t.counts.skipped
  failed := t.counts.failed
  downstreamEmitted := t.counts.downstreamEmitted

/-- The entries as the wave computes them. -/
def project (store : Store) : DebounceStore := store.map fun e => (e.1, e.2.toDebounceEntry)

section
variable (registry : Registry) (hasModelRunner : Bool) (calcTs safetyGap : Int)

def waveLoop : List Entry → Tally → Propagation.Program (Except PyErr Tally)
  | [], t => return .ok t
  | entry :: entries, t =>
    match t.note entry with
    | .error e => return .error e
    | .ok t => do
      match ← Propagation.waveUnit registry hasModelRunner calcTs safetyGap entry.toDebounceEntry t.counts with
      | .error e => return .error e
      | .ok counts => waveLoop entries { t with counts }

end

/-- `calc_ts or datetime.now(tz=UTC)` -/
def clock : Option Int → Propagation.Program Int
  | some calcTs => pure calcTs
  | none => Runner.now

/-- The report, and the store afterwards. -/
def executeWave (registry : Registry) (hasModelRunner : Bool) (calcTs : Option Int) (safetyGap : Int) (waveId : String)
    (store : Store) : Propagation.Program (Except PyErr RecomputeWave × Store) := do
  let calcTs ← clock calcTs
  let drained := drain store
  match ← waveLoop registry hasModelRunner calcTs safetyGap drained.1 {} with
  | .error e => return (.error e, drained.2)
  | .ok t =>
    Propagation.waveMetrics t.counts (project store)
    return (.ok (t.report waveId calcTs drained.1.length), drained.2)

/-! ## Answers -/

def modelTally (out : ModelFeatureBatchResult) : WaveTally where
  computed := out.computed
  skipped := out.skipped
  downstreamEmitted := out.downstreamEmitted

section
variable (registry : Registry) (sha256 : Sha256)

/-- What the model path may come to for one entry, whatever its own calls are answered. -/
def ModelOutcome (unit : WaveUnit) (x : Except PyErr WaveTally) : Prop :=
  ∃ out, Returns Env.free () (ModelBatch.computeModelFeatureBatch registry sha256 unit.view unit.viewVersion
    unit.featureName [unit.entityKey] unit.calcTs unit.safetyGap .recomputeWave) () out ∧ x = out.map modelTally

/-- All other calls are answered in any way. -/
def waveAnswers : (c : RunnerCall PropagationRecord Unit PropagationOwn) → RunnerCall.Ans PropagationOwn.Ans c → Prop
  | .own (.recomputeModel unit), x => ModelOutcome registry sha256 unit x
  | _, _ => True

def waveEnv : Env (RunnerCall PropagationRecord Unit PropagationOwn) (RunnerCall.Ans PropagationOwn.Ans) Unit where
  may _ := waveAnswers registry sha256
  after _ _ _ := ()

end

theorem ModelOutcome.of_exec {registry : Registry} {sha256 : Sha256}
    (predict : ModelRef → List (List (String × Value)) → Except PyErr (List Value)) (offline : OfflineStore)
    (unit : WaveUnit) : ModelOutcome registry sha256 unit ((exec (modelService predict) offline
      (ModelBatch.computeModelFeatureBatch registry sha256 unit.view unit.viewVersion unit.featureName [unit.entityKey]
        unit.calcTs unit.safetyGap .recomputeWave)).2.map modelTally) := by
  refine ⟨_, ?_, rfl⟩
  have h : ∀ p : ModelBatch.Program (Except PyErr ModelFeatureBatchResult),
      ∃ s' : Unit, Returns Env.free () p s' (exec (modelService predict) offline p).2 :=
    fun p => returns_exec (fun _ _ _ => trivial) p () offline
  exact (h _).choose_spec

/-! ## Counts -/

/-- The entries a tally has been through. -/
def total (t : WaveTally) : Nat := t.computed + t.skipped + t.failed

section
variable {registry : Registry} {sha256 : Sha256} {hasModelRunner : Bool} {calcTs safetyGap : Int}

theorem ModelOutcome.total {unit : WaveUnit} {t : WaveTally} (h : ModelOutcome registry sha256 unit (.ok t)) :
    t.computed + t.skipped = 1 := by
  obtain ⟨out, hreturns, ht⟩ := h
  cases out with
  | error e => cases ht
  | ok out =>
    cases ht
    obtain ⟨hplanned, hcount⟩ := ModelBatch.computeModelFeatureBatch_counts hreturns
    exact hcount.symm.trans hplanned

theorem recomputeModelDependent_total {unit : WaveUnit} {t t' : WaveTally}
    (h : Returns (waveEnv registry sha256) () (Propagation.recomputeModelDependent hasModelRunner unit t) () (.ok t')) :
    total t' = total t + 1 := by
  unfold Propagation.recomputeModelDependent at h
  by_cases hrunner : hasModelRunner = true
  · rw [if_pos hrunner] at h
    obtain ⟨_, e | d, hd, h⟩ := returns_bind.mp h
    · dsimp only at h
      by_cases he : e.isDeterministic = true
      · rw [if_pos he] at h
        cases (returns_pure.mp h).2
        rfl
      · rw [if_neg he] at h
        cases (returns_pure.mp h).2
    · cases (returns_pure.mp h).2
      cases hd with
      | call hmay hret =>
        cases hret
        have hone := ModelOutcome.total hmay
        unfold total
        dsimp only
        omega
  · rw [if_neg hrunner] at h
    cases (returns_pure.mp h).2
    unfold total
    dsimp only
    omega

theorem storeUnit_total {viewDef : Option FeatureViewDef} {entry : DebounceEntry} {result : FeatureResult}
    {t t' : WaveTally} (h : Returns (waveEnv registry sha256) () (Propagation.storeUnit viewDef entry result t) () (.ok t')) :
    total t' = total t + 1 := by
  unfold Propagation.storeUnit at h
  obtain ⟨_, e | _, -, h⟩ := returns_bind.mp h
  · cases (returns_pure.mp h).2
  cases viewDef with
  | none =>
    cases (returns_pure.mp h).2
    unfold total
    dsimp only
    omega
  | some v =>
    obtain ⟨_, e | n, -, h⟩ := returns_bind.mp h
    · cases (returns_pure.mp h).2
    · cases (returns_pure.mp h).2
      unfold total
      dsimp only
      omega

theorem waveUnit_total {entry : DebounceEntry} {t t' : WaveTally} (h : Returns (waveEnv registry sha256) ()
    (Propagation.waveUnit registry hasModelRunner calcTs safetyGap entry t) () (.ok t')) : total t' = total t + 1 := by
  unfold Propagation.waveUnit at h
  dsimp only at h
  cases hkey : Propagation.unitKey (findView? registry entry.view entry.viewVersion) entry with
  | error e =>
    rw [hkey] at h
    cases (returns_pure.mp h).2
    rfl
  | ok entityKey =>
    rw [hkey] at h
    dsimp only at h
    by_cases hmodel : Propagation.isModel (findView? registry entry.view entry.viewVersion) entry.dependentFeature = true
    · rw [if_pos hmodel] at h
      exact recomputeModelDependent_total h
    · rw [if_neg hmodel] at h
      obtain ⟨_, e | _ | result, -, h⟩ := returns_bind.mp h
      · dsimp only at h
        by_cases he : e.isDeterministic = true
        · rw [if_pos he] at h
          cases (returns_pure.mp h).2
          rfl
        · rw [if_neg he] at h
          cases (returns_pure.mp h).2
      · cases (returns_pure.mp h).2
        unfold total
        dsimp only
        omega
      · exact storeUnit_total h

/-- Each entry adds its trigger ids and one to the counts. -/
theorem waveLoop_total : ∀ {entries : List Entry} {t t' : Tally},
    Returns (waveEnv registry sha256) () (waveLoop registry hasModelRunner calcTs safetyGap entries t) () (.ok t') →
    total t'.counts = total t.counts + entries.length ∧
      t'.triggerIds = t.triggerIds ++ entries.flatMap fun entry => entry.triggerUpdateIds
  | [], t, t', h => by
    cases (returns_pure.mp h).2
    exact ⟨rfl, (List.append_nil _).symm⟩
  | entry :: entries, t, t', h => by
    rw [waveLoop] at h
    cases hnote : t.note entry with
    | error e =>
      rw [hnote] at h
      cases (returns_pure.mp h).2
    | ok noted =>
      rw [hnote] at h
      obtain ⟨_, e | counts, hunit, h⟩ := returns_bind.mp h
      · cases (returns_pure.mp h).2
      obtain ⟨hcounts, hids⟩ := waveLoop_total h
      have hone := waveUnit_total hunit
      obtain ⟨encoded, -, hnoted⟩ := bind_eq_ok.mp hnote
      cases hnoted
      refine ⟨?_, ?_⟩
      · rw [List.length_cons]
        dsimp only at hcounts hone
        omega
      · rw [hids, List.flatMap_cons, List.append_assoc]

theorem executeWave_total {now : Option Int} {waveId : String} {store left : Store} {wave : RecomputeWave}
    (h : Returns (waveEnv registry sha256) () (executeWave registry hasModelRunner now safetyGap waveId store) ()
      (.ok wave, left)) :
    wave.planned = (drain store).1.length ∧ wave.planned = wave.computed + wave.skipped + wave.failed ∧
      wave.triggerUpdateIds = (drain store).1.flatMap fun entry => entry.triggerUpdateIds := by
  unfold executeWave at h
  obtain ⟨_, calcTs, -, h⟩ := returns_bind.mp h
  obtain ⟨_, e | t, hloop, h⟩ := returns_bind.mp h
  · cases (returns_pure.mp h).2
  obtain ⟨_, _, -, h⟩ := returns_bind.mp h
  cases (returns_pure.mp h).2
  obtain ⟨hcounts, hids⟩ := waveLoop_total hloop
  refine ⟨rfl, ?_, hids⟩
  have hnone : total ({} : Tally).counts = 0 := rfl
  rw [hnone, Nat.zero_add] at hcounts
  exact hcounts.symm

end

/-! ## The wave without its report -/

section
variable {S : Type} {env : Env (RunnerCall PropagationRecord Unit PropagationOwn) (RunnerCall.Ans PropagationOwn.Ans) S}
  {registry : Registry} {hasModelRunner : Bool}

theorem waveLoop_project {calcTs safetyGap : Int} : ∀ {store : Store} {t t' : Tally} {s s' : S},
    Returns env s (waveLoop registry hasModelRunner calcTs safetyGap (Dict.values store) t) s' (.ok t') →
    Returns env s (Propagation.waveLoop registry hasModelRunner calcTs safetyGap (project store) t.counts) s'
      (.ok t'.counts)
  | [], t, t', s, s', h => by
    obtain ⟨rfl, h⟩ := returns_pure.mp h
    cases h
    exact .ret _ _
  | (key, entry) :: store, t, t', s, s', h => by
    have hvalues : Dict.values ((key, entry) :: store) = entry :: Dict.values store := rfl
    rw [hvalues, waveLoop] at h
    cases hnote : t.note entry with
    | error e =>
      rw [hnote] at h
      cases (returns_pure.mp h).2
    | ok noted =>
      rw [hnote] at h
      obtain ⟨encoded, -, hnoted⟩ := bind_eq_ok.mp hnote
      cases hnoted
      obtain ⟨s₁, e | counts, hunit, h⟩ := returns_bind.mp h
      · cases (returns_pure.mp h).2
      · exact returns_bind.mpr ⟨s₁, .ok counts, hunit, waveLoop_project h⟩

/-- The counts of the report are those of the wave over the projected entries. -/
theorem executeWave_project {waveId : String} {store left : Store} {wave : RecomputeWave} {s s' : S}
    (h : Returns env s (executeWave registry hasModelRunner none 0 waveId store) s' (.ok wave, left)) :
    Returns env s (Propagation.executeWave registry hasModelRunner (project store)) s'
      (.ok ⟨wave.computed, wave.skipped, wave.failed, wave.downstreamEmitted⟩) := by
  unfold executeWave at h
  obtain ⟨s₁, calcTs, hnow, h⟩ := returns_bind.mp h
  obtain ⟨s₂, e | t, hloop, h⟩ := returns_bind.mp h
  · cases (returns_pure.mp h).2
  obtain ⟨s₃, _, hmetrics, h⟩ := returns_bind.mp h
  obtain ⟨rfl, h⟩ := returns_pure.mp h
  cases h
  exact returns_bind.mpr ⟨s₁, calcTs, hnow, returns_bind.mpr ⟨s₂, .ok t.counts, waveLoop_project hloop,
    returns_bind.mpr ⟨_, (), hmetrics, .ret _ _⟩⟩⟩

end

/-! ## No update is lost -/

/-- The observations that did not raise. -/
def recorded : List Call → List Observation
  | [] => []
  | .drain :: calls => recorded calls
  | .observe o :: calls =>
    match keyOf o.candidate with
    | .ok _ => o :: recorded calls
    | .error _ => recorded calls

theorem observed_flatten : ∀ (calls : List Call) (seen : List Observation),
    (observed seen calls).flatten = seen ++ recorded calls
  | [], seen => by
    rw [observed, List.flatten_singleton]
    exact (List.append_nil _).symm
  | .drain :: calls, seen => by
    rw [observed, List.flatten_cons, observed_flatten calls []]
    rfl
  | .observe o :: calls, seen => by
    rw [observed, recorded]
    cases keyOf o.candidate with
    | ok key =>
      dsimp only
      rw [observed_flatten calls, List.append_assoc]
      rfl
    | error e => exact observed_flatten calls seen

/-! ## Three updates of an income -/

/-- A wave over the model path of the credit score; nothing else is looked at. -/
def pdService : Service (RunnerCall PropagationRecord Unit PropagationOwn) (RunnerCall.Ans PropagationOwn.Ans) Unit where
  act _ _ := ()
  answer _
    | .poll => none
    | .now => 30000000
    | .commit _ | .publish _ _ _ _ | .statusPut _ _ => .ok ()
    | .statusRead _ _ => .ok none
    | .own (.recompute _) => .ok none
    | .own (.recomputeModel unit) =>
      (exec (modelService flatModel) incomeHistory (ModelBatch.computeModelFeatureBatch (userRegistry (pdView true))
        (digestTable []) unit.view unit.viewVersion unit.featureName [unit.entityKey] unit.calcTs unit.safetyGap
        .recomputeWave)).2.map modelTally
    | .own (.appendNew _ _ _) => .ok ()
    | .own (.waveMetrics _ _) => ()

theorem pdService_may (s t : Unit) (c : RunnerCall PropagationRecord Unit PropagationOwn) :
    (waveEnv (userRegistry (pdView true)) (digestTable [])).may s c (pdService.answer t c) := by
  cases c with
  | own c =>
    cases c with
    | recomputeModel unit =>
      exact ModelOutcome.of_exec flatModel incomeHistory unit
    | _ => trivial
  | _ => trivial

def pdCandidate : RecomputeCandidate := ⟨⟨"user", userKey.parts⟩, "risk", 1, "pd", 1, "income", 1⟩

def pdUpdate (id : String) (calcTs now : Int) : Observation := ⟨pdCandidate, ⟨id, 0, calcTs⟩, now⟩

/-- A drain between the observations. -/
def threeUpdates : List Call :=
  [.observe (pdUpdate "u1" 0 10), .observe (pdUpdate "u2" 5 20), .drain, .observe (pdUpdate "u3" 7 30)]

def pdKey : DebounceKey := ⟨"user", "user_id=1", "risk", 1, "pd", 1⟩

/-- What the drain takes out. -/
def pdStore : Store := [(pdKey, (Entry.start pdCandidate ⟨"u1", 0, 0⟩ 10).coalesce ⟨"u2", 0, 5⟩ 20)]

def pdWave : RecomputeWave where
  waveId := "wave_1"
  triggerUpdateIds := ["u1", "u2"]
  entityCount := 1
  dependentFeatureRefs := ["pd:v1"]
  status := .completed
  createdAt := 30000000
  planned := 1
  computed := 1

theorem pdWave_returns : Returns (waveEnv (userRegistry (pdView true)) (digestTable [])) ()
    (executeWave (userRegistry (pdView true)) true none 0 "wave_1" pdStore) () (.ok pdWave, []) := by
  obtain ⟨⟨⟩, h⟩ := returns_exec pdService_may
    (executeWave (userRegistry (pdView true)) true none 0 "wave_1" pdStore) () ()
  have hwave : (exec pdService () (executeWave (userRegistry (pdView true)) true none 0 "wave_1" pdStore)).2 =
      (.ok pdWave, []) := by decide +kernel
  rwa [hwave] at h

/-- Each recorded observation is in one entry of the drain that follows it, or of what is pending; the report of a wave
accounts for every entry it drained, and counts what came of the units of these entries, one after the other. -/
theorem debounce_loses_nothing (calls : List Call) (registry : Registry) (sha256 : Sha256) (hasModelRunner : Bool)
    (calcTs : Option Int) (safetyGap : Int) (waveId : String) (store : Store) :
    (observed [] calls).flatten = recorded calls ∧ List.Forall₂ Accounted (observed [] calls) (run [] calls) ∧
    (∀ wave left, Returns (waveEnv registry sha256) ()
        (executeWave registry hasModelRunner calcTs safetyGap waveId store) () (.ok wave, left) →
      wave.planned = (drain store).1.length ∧ wave.planned = wave.computed + wave.skipped + wave.failed ∧
        wave.triggerUpdateIds = (drain store).1.flatMap fun entry => entry.triggerUpdateIds) ∧
    ∀ wave left, Returns (waveEnv registry sha256) () (executeWave registry hasModelRunner none 0 waveId store) ()
        (.ok wave, left) →
      Returns (waveEnv registry sha256) () (Propagation.executeWave registry hasModelRunner (project store)) ()
        (.ok ⟨wave.computed, wave.skipped, wave.failed, wave.downstreamEmitted⟩) :=
  ⟨observed_flatten calls [], run_accounted calls Kept.empty, fun _ _ h => executeWave_total h,
    fun _ _ h => executeWave_project h⟩

theorem debounce_loses_nothing_thrice :
    List.Forall₂ Accounted (observed [] threeUpdates) (run [] threeUpdates) ∧
      run [] threeUpdates = [pending pdStore, [Entry.start pdCandidate ⟨"u3", 0, 7⟩ 30]] ∧
      pdWave.planned = pdWave.computed + pdWave.skipped + pdWave.failed ∧
      pdWave.triggerUpdateIds = ((drain pdStore).1.flatMap fun entry => entry.triggerUpdateIds) ∧
      Returns (waveEnv (userRegistry (pdView true)) (digestTable [])) ()
        (Propagation.executeWave (userRegistry (pdView true)) true (project pdStore)) ()
        (.ok ⟨pdWave.computed, pdWave.skipped, pdWave.failed, pdWave.downstreamEmitted⟩) := by
  obtain ⟨-, haccounted, hwave, hunits⟩ := debounce_loses_nothing threeUpdates (userRegistry (pdView true))
    (digestTable []) true none 0 "wave_1" pdStore
  obtain ⟨-, hcounts, hids⟩ := hwave pdWave [] pdWave_returns
  exact ⟨haccounted, by decide +kernel, hcounts, hids, hunits pdWave [] pdWave_returns⟩

end ClearFeature.Debounce
