import ClearFeature.FeatureStore
import ClearFeature.Propagation

/-!
# Propagation worker (`api/propagation_worker.py`, `api/propagation_worker_runner.py`)

A round observes updates into a fresh debounce store, then runs one wave over
what was coalesced, and commits the held messages if the wave went through.
-/

namespace ClearFeature

open Runner

structure UpdateEvents (U : Type) where
  fromJson : Bytes → Except PyErr U
  /-- `plan_recompute_wave(registry, event)` -/
  plan : U → Except PyErr (List RecomputeCandidate)
  /-- `event.entity.encoded()`, the part of `DebounceStore._key` that can fail -/
  encoded : U → Except PyErr String
  dataTs : U → Int
  calcTs : U → Int

inductive PropagationRecord where
  | updated (event : FeatureUpdated)
  | dlq (event : DeadLetterEvent)

structure WaveUnit where
  view : String
  viewVersion : Int
  entityKey : EntityKey
  featureName : String
  calcTs : Int
  safetyGap : Int
  deriving DecidableEq

structure WaveTally where
  computed : Nat := 0
  skipped : Nat := 0
  failed : Nat := 0
  downstreamEmitted : Nat := 0
  deriving DecidableEq

/-- `waveMetrics` is recorded once all entries have been through, with one lag observation for each. -/
inductive PropagationOwn where
  | recompute (unit : WaveUnit)
  | recomputeModel (unit : WaveUnit)
  | appendNew (view : String) (viewVersion : Int) (results : List FeatureResult)
  | waveMetrics (tally : WaveTally) (entries : DebounceStore)

abbrev PropagationOwn.Ans : PropagationOwn → Type
  | .waveMetrics _ _ => Unit
  | .recompute _ => Except PyErr (Option FeatureResult)
  | .recomputeModel _ => Except PyErr WaveTally
  | .appendNew _ _ _ => Except PyErr Unit

namespace Propagation

abbrev Program : Type → Type := RunnerProg PropagationRecord Unit PropagationOwn.Ans

abbrev recompute (unit : WaveUnit) : Program (Except PyErr (Option FeatureResult)) := own (PropagationOwn.recompute unit)

abbrev recomputeModel (unit : WaveUnit) : Program (Except PyErr WaveTally) := own (PropagationOwn.recomputeModel unit)

abbrev appendNew (view : String) (viewVersion : Int) (results : List FeatureResult) : Program (Except PyErr Unit) :=
  own (PropagationOwn.appendNew view viewVersion results)

abbrev waveMetrics (tally : WaveTally) (entries : DebounceStore) : Program Unit :=
  own (PropagationOwn.waveMetrics tally entries)

def deadLetter (message : ConsumedMessage) (failureStatus error : String) : Program (Except PyErr ProcessResult) :=
  Runner.deadLetter featureUpdates "propagation_worker" .dlq message failureStatus (some error)

/-! ## A wave -/

/-- The key in the view's field order; for an unknown view in the order of the event. -/
def unitKey (viewDef : Option FeatureViewDef) (entry : DebounceEntry) : Except PyErr EntityKey :=
  match viewDef with
  | some v => EntityKey.fromMapping entry.entity.entityKey (some v.keyFields)
  | none => EntityKey.ofParts entry.entity.entityKey

def isModel (viewDef : Option FeatureViewDef) (name : String) : Bool :=
  match viewDef.bind fun v => v.features.find? fun f => f.name = name with
  | some f => f.kind = .model
  | none => false

section
variable (registry : Registry) (hasModelRunner : Bool) (calcTs safetyGap : Int)

def recomputeModelDependent (unit : WaveUnit) (t : WaveTally) : Program (Except PyErr WaveTally) := do
  if hasModelRunner then
    match ← recomputeModel unit with
    | .error e =>
      if e.isDeterministic then return .ok { t with failed := t.failed + 1 } else return .error e
    | .ok d =>
      return .ok { t with
        computed := t.computed + d.computed
        skipped := t.skipped + d.skipped
        downstreamEmitted := t.downstreamEmitted + d.downstreamEmitted }
  else return .ok { t with skipped := t.skipped + 1 }

/-- The result is stored before it is announced. -/
def storeUnit (viewDef : Option FeatureViewDef) (entry : DebounceEntry) (result : FeatureResult) (t : WaveTally) :
    Program (Except PyErr WaveTally) := do
  match ← appendNew entry.view entry.viewVersion [result] with
  | .error e => return .error e
  | .ok () =>
    match viewDef with
    | none => return .ok { t with computed := t.computed + 1 }
    | some v =>
      match ← emitFeatureUpdates .updated v [result] entry.entity.entityType .recomputeWave with
      | .error e => return .error e
      | .ok n => return .ok { t with computed := t.computed + 1, downstreamEmitted := t.downstreamEmitted + n }

def waveUnit (entry : DebounceEntry) (t : WaveTally) : Program (Except PyErr WaveTally) :=
  let viewDef := findView? registry entry.view entry.viewVersion
  match unitKey viewDef entry with
  | .error _ => return .ok { t with failed := t.failed + 1 }
  | .ok entityKey =>
    let unit : WaveUnit := ⟨entry.view, entry.viewVersion, entityKey, entry.dependentFeature, calcTs, safetyGap⟩
    if isModel viewDef entry.dependentFeature then recomputeModelDependent hasModelRunner unit t
    else do
      match ← recompute unit with
      | .error e =>
        if e.isDeterministic then return .ok { t with failed := t.failed + 1 } else return .error e
      | .ok none => return .ok { t with skipped := t.skipped + 1 }
      | .ok (some result) => storeUnit viewDef entry result t

def waveLoop : DebounceStore → WaveTally → Program (Except PyErr WaveTally)
  | [], t => return .ok t
  | (_, entry) :: entries, t => do
    match ← waveUnit registry hasModelRunner calcTs safetyGap entry t with
    | .error e => return .error e
    | .ok t => waveLoop entries t

end

def executeWave (registry : Registry) (hasModelRunner : Bool) (entries : DebounceStore) :
    Program (Except PyErr WaveTally) := do
  let calcTs ← now
  match ← waveLoop registry hasModelRunner calcTs 0 entries {} with
  | .error e => return .error e
  | .ok t =>
    waveMetrics t entries
    return .ok t

/-! ## A round -/

/-- The debounce store and the held messages of a round. -/
structure Round where
  debounce : DebounceStore := []
  pending : List ConsumedMessage := []

section
variable {U : Type} (events : UpdateEvents U)

/-- The observations of `handle_feature_updated`; a key that cannot be built raises. -/
def observeAll (event : U) : List RecomputeCandidate → DebounceStore → Except PyErr DebounceStore
  | [], entries => .ok entries
  | candidate :: candidates, entries => do
    let encoded ← events.encoded event
    let key := debounceKey candidate encoded
    observeAll event candidates (entries.observe key candidate (events.dataTs event) (events.calcTs event))

/-- The candidates, or the text of a deterministic error. -/
def handleFeatureUpdated (event : U) (entries : DebounceStore) : Except PyErr (Except String DebounceStore) :=
  match events.plan event with
  | .error e => if e.isDeterministic then .ok (.error e.msg) else .error e
  | .ok candidates => do
    let entries ← observeAll events event candidates entries
    .ok (.ok entries)

def processNext (round : Round) : Program (Except PyErr (ProcessResult × Round)) := do
  match ← poll with
  | none => return .ok (⟨.idle, false, none⟩, round)
  | some message =>
    match message.error with
    | some e => return .ok (⟨.consumeError, false, some e⟩, round)
    | none =>
      match events.fromJson message.value with
      | .error e => return (← deadLetter message "deserialization_failed" e.msg).map (·, round)
      | .ok event =>
        match handleFeatureUpdated events event round.debounce with
        | .error e => return .error e
        | .ok (.error e) => return (← deadLetter message "invalid_event" e).map (·, round)
        | .ok (.ok entries) => return .ok (⟨.observed, false, none⟩, ⟨entries, round.pending ++ [message]⟩)

def commitAll : List ConsumedMessage → Program (Except PyErr Unit)
  | [] => return .ok ()
  | message :: messages => do
    match ← commit message with
    | .error e => return .error e
    | .ok () => commitAll messages

/-- A wave that raises leaves the held messages uncommitted. -/
def flush (registry : Registry) (hasModelRunner : Bool) (round : Round) : Program (Except PyErr Bool) := do
  match ← executeWave registry hasModelRunner round.debounce with
  | .error _ => return .ok false
  | .ok _ =>
    match ← commitAll round.pending with
    | .error e => return .error e
    | .ok () => return .ok true

/-- `run` with `max_messages`: observe that often, then flush. -/
def run (registry : Registry) (hasModelRunner : Bool) : Nat → Round → Program (Except PyErr Bool)
  | 0, round => flush registry hasModelRunner round
  | n + 1, round => do
    match ← processNext events round with
    | .error e => return .error e
    | .ok (_, round) => run registry hasModelRunner n round

end

end Propagation

end ClearFeature
