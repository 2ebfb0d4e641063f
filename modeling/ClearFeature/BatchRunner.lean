import ClearFeature.FeatureStore
import ClearFeature.Propagation

/-!
# Batch worker (`api/batch_worker.py`, `api/batch_worker_runner.py`)

A chunk is computed item by item. Items that refer to landed reports are
appended together at the end, inline items persist themselves. Deterministic
errors stay with their item; anything else ends the chunk.
-/

namespace ClearFeature

open Runner

structure BatchItem where
  entityType : String
  entityKey : List (String × String)
  inlineSources : List (String × Value) := []
  sourceRefs : List (String × String) := []

structure BatchChunkRequested where
  batchJobId : String
  chunkId : String
  chunkIndex : Int
  chunkCount : Int
  view : String
  viewVersion : Int
  items : List BatchItem
  requestedFeatures : List String := []
  requestedFeatureGroups : List String := []
  writeOnline : Bool := false
  manifestId : Option String := none

structure BatchChunkProcessed where
  batchJobId : String
  chunkId : String
  chunkIndex : Int
  chunkCount : Int
  status : String
  itemCount : Nat
  okItems : Nat
  failedItems : Nat
  firstErrors : List String
  manifestId : Option String

inductive BatchRecord where
  | updated (event : FeatureUpdated)
  | processed (event : BatchChunkProcessed)
  | dlq (event : DeadLetterEvent)

/-- `plan` finds the view and expands the request; the two item calls are one item's computation, which for an
inline item also stores its results. -/
inductive BatchOwn where
  | shouldPause
  | tryAcquire
  | plan (event : BatchChunkRequested)
  | computeItem (viewDef : FeatureViewDef) (features : List String) (item : BatchItem)
  | persistItem (viewDef : FeatureViewDef) (features : List String) (item : BatchItem) (writeOnline : Bool)
  | appendNew (view : String) (viewVersion : Int) (results : List FeatureResult)
  | refreshOnline (view : String) (viewVersion : Int) (results : List FeatureResult)

abbrev BatchOwn.Ans : BatchOwn → Type
  | .shouldPause | .tryAcquire => Except PyErr Bool
  | .plan _ => Except PyErr (FeatureViewDef × List String)
  | .computeItem _ _ _ | .persistItem _ _ _ _ => Except PyErr (List FeatureResult)
  | .appendNew _ _ _ | .refreshOnline _ _ _ => Except PyErr Unit

inductive BatchWorkerResult where
  | ok
  | invalidEvent (error : String)
  | publishFailed (error : String)

namespace Batch

abbrev Program : Type → Type := RunnerProg BatchRecord Unit BatchOwn.Ans

abbrev shouldPause : Program (Except PyErr Bool) := own BatchOwn.shouldPause

abbrev tryAcquire : Program (Except PyErr Bool) := own BatchOwn.tryAcquire

abbrev plan (event : BatchChunkRequested) : Program (Except PyErr (FeatureViewDef × List String)) :=
  own (BatchOwn.plan event)

abbrev computeItem (viewDef : FeatureViewDef) (features : List String) (item : BatchItem) :
    Program (Except PyErr (List FeatureResult)) :=
  own (BatchOwn.computeItem viewDef features item)

abbrev persistItem (viewDef : FeatureViewDef) (features : List String) (writeOnline : Bool) (item : BatchItem) :
    Program (Except PyErr (List FeatureResult)) :=
  own (BatchOwn.persistItem viewDef features item writeOnline)

abbrev appendNew (view : String) (viewVersion : Int) (results : List FeatureResult) : Program (Except PyErr Unit) :=
  own (BatchOwn.appendNew view viewVersion results)

abbrev refreshOnline (view : String) (viewVersion : Int) (results : List FeatureResult) : Program (Except PyErr Unit) :=
  own (BatchOwn.refreshOnline view viewVersion results)

def maxFirstErrors : Nat := 10

structure ChunkTally where
  results : List FeatureResult := []
  okItems : Nat := 0
  failedItems : Nat := 0
  firstErrors : List String := []

def ChunkTally.ok (t : ChunkTally) (results : List FeatureResult) : ChunkTally :=
  { t with results := t.results ++ results, okItems := t.okItems + 1 }

/-- `str(exc)[:200]`, for the first errors only. -/
def ChunkTally.failed (t : ChunkTally) (error : String) : ChunkTally where
  results := t.results
  okItems := t.okItems
  failedItems := t.failedItems + 1
  firstErrors :=
    if t.firstErrors.length < maxFirstErrors then t.firstErrors ++ [String.ofList (error.toList.take 200)]
    else t.firstErrors

def itemLoop (one : BatchItem → Program (Except PyErr (List FeatureResult))) : List BatchItem → ChunkTally →
    Program (Except PyErr ChunkTally)
  | [], t => return .ok t
  | item :: items, t => do
    match ← one item with
    | .ok results => itemLoop one items (t.ok results)
    | .error e => if e.isDeterministic then itemLoop one items (t.failed e.msg) else return .error e

def emitUpdates (viewDef : FeatureViewDef) (results : List FeatureResult) : Program (Except PyErr Nat) :=
  emitFeatureUpdates .updated viewDef results viewDef.entity .batchWorker

def computeRefChunk (event : BatchChunkRequested) (viewDef : FeatureViewDef) (features : List String) :
    Program (Except PyErr ChunkTally) := do
  match ← itemLoop (computeItem viewDef features) event.items {} with
  | .error e => return .error e
  | .ok t =>
    match ← appendNew viewDef.name viewDef.viewVersion t.results with
    | .error e => return .error e
    | .ok () =>
      match ← emitUpdates viewDef t.results with
      | .error e => return .error e
      | .ok _ =>
        if event.writeOnline then
          match ← refreshOnline viewDef.name viewDef.viewVersion t.results with
          | .error e => return .error e
          | .ok () => return .ok t
        else return .ok t

def computeInlineChunk (event : BatchChunkRequested) (viewDef : FeatureViewDef) (features : List String) :
    Program (Except PyErr ChunkTally) := do
  match ← itemLoop (persistItem viewDef features event.writeOnline) event.items {} with
  | .error e => return .error e
  | .ok t =>
    match ← emitUpdates viewDef t.results with
    | .error e => return .error e
    | .ok _ => return .ok t

/-- The first item tells the kind of the chunk. -/
def isRefChunk (event : BatchChunkRequested) : Bool :=
  match event.items with
  | [] => false
  | item :: _ => !item.sourceRefs.isEmpty

def processedEvent (event : BatchChunkRequested) (t : ChunkTally) : BatchChunkProcessed where
  batchJobId := event.batchJobId
  chunkId := event.chunkId
  chunkIndex := event.chunkIndex
  chunkCount := event.chunkCount
  status := if t.failedItems = 0 then "completed" else "completed_with_errors"
  itemCount := event.items.length
  okItems := t.okItems
  failedItems := t.failedItems
  firstErrors := t.firstErrors
  manifestId := event.manifestId

def handleBatchChunk (event : BatchChunkRequested) : Program (Except PyErr BatchWorkerResult) := do
  match ← plan event with
  | .error e => if e.isDeterministic then return .ok (.invalidEvent e.msg) else return .error e
  | .ok (viewDef, features) =>
    let chunk := if isRefChunk event then computeRefChunk event viewDef features
      else computeInlineChunk event viewDef features
    match ← chunk with
    | .error e => return .error e
    | .ok t =>
      match ← publish batchJobEvents event.batchJobId (.processed (processedEvent event t)) with
      | .error e => return .ok (.publishFailed e.msg)
      | .ok () => return .ok .ok

def deadLetter (message : ConsumedMessage) (failureStatus error : String) : Program (Except PyErr ProcessResult) :=
  Runner.deadLetter featureComputeBatch "batch_worker" .dlq message failureStatus (some error)

def processEvent (message : ConsumedMessage) (event : BatchChunkRequested) : Program (Except PyErr ProcessResult) := do
  match ← handleBatchChunk event with
  | .error e => return .ok ⟨.infraFailed, false, some e.msg⟩
  | .ok .ok => commitThen message (return .ok ⟨.ok, true, none⟩)
  | .ok (.publishFailed e) => return .ok ⟨.publishFailed, false, some e⟩
  | .ok (.invalidEvent e) => deadLetter message "invalid_event" e

/-- The gate is asked before the message is looked at: pause first, then the rate limit. -/
def processNext (fromJson : Bytes → Except PyErr BatchChunkRequested) : Program (Except PyErr ProcessResult) := do
  match ← poll with
  | none => return .ok ⟨.idle, false, none⟩
  | some message =>
    match message.error with
    | some e => return .ok ⟨.consumeError, false, some e⟩
    | none =>
      match ← shouldPause with
      | .error e => return .error e
      | .ok true => return .ok ⟨.paused, false, none⟩
      | .ok false =>
        match ← tryAcquire with
        | .error e => return .error e
        | .ok false => return .ok ⟨.rateLimited, false, none⟩
        | .ok true =>
          match fromJson message.value with
          | .error e => deadLetter message "deserialization_failed" e.msg
          | .ok event => processEvent message event

end Batch

end ClearFeature
