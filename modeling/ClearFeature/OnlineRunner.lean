import ClearFeature.FeatureStore
import ClearFeature.Runner

/-!
# Online worker (`api/online_worker.py`, `api/online_worker_runner.py`)

Deadline, compute, online write, offline event, completion event; then the
runner stores the request result, commits and updates the status. The event
type is a parameter with what the worker asks of an event.
-/

namespace ClearFeature

open Runner

def WriteOutcome.text : WriteOutcome → String
  | .written => "written"
  | .writtenRecompute => "written_recompute"
  | .skippedStale => "skipped_stale"
  | .noop => "noop"

def aggregateOnlineStatus (outcomes : List WriteOutcome) : String :=
  if outcomes.any WriteOutcome.stored then "written"
  else if outcomes.any (· = .skippedStale) then "skipped_stale"
  else "noop"

structure ComputeEvents (E R : Type) where
  fromJson : Bytes → Except PyErr E
  requestId : E → R
  /-- `event.entity.encoded()` -/
  encoded : E → Except PyErr String
  /-- `event.expires_at is not None and now >= event.expires_at` -/
  expired : E → Int → Except PyErr Bool

structure FeatureComputeCompleted (R : Type) where
  requestId : R
  writtenFeatures : List String
  onlineWriteStatus : Option String

structure FeatureOfflineWriteRequested (R : Type) where
  requestId : R
  writeSet : FeatureWriteSet

inductive OnlineRecord (E R : Type) where
  | compute (event : E)
  | completed (event : FeatureComputeCompleted R)
  | offlineWrite (event : FeatureOfflineWriteRequested R)
  | dlq (event : DeadLetterEvent)

/-! ## Request results -/

structure RequestResultItem where
  featureVersion : Int
  value : Value
  dataTs : Int
  maxInputDataTs : Option Int
  calcTs : Int
  inputFingerprint : Option String
  valueHash : Option String
  onlineWriteStatus : Option WriteOutcome

structure RequestResult (R : Type) where
  requestId : R
  view : String
  viewVersion : Int
  entityKey : List (String × String)
  features : List (String × RequestResultItem)

/-- The outcomes of `write_many`, by feature reference. -/
abbrev OnlineWritten := List (String × WriteOutcome)

def RequestResult.fromWriteSet {R : Type} (requestId : R) (writeSet : FeatureWriteSet) (onlineWritten : OnlineWritten) :
    RequestResult R where
  requestId := requestId
  view := writeSet.view
  viewVersion := writeSet.viewVersion
  entityKey := writeSet.entityKey.parts
  features := writeSet.results.map fun p => (p.1, {
    featureVersion := p.2.ref.version
    value := p.2.value
    dataTs := p.2.dataTs
    maxInputDataTs := p.2.maxInputDataTs
    calcTs := p.2.calcTs
    inputFingerprint := p.2.inputFingerprint
    valueHash := p.2.valueHash
    onlineWriteStatus := Dict.get? onlineWritten p.2.ref.encode })

/-! ## The handler -/

/-- `compute` runs from the view lookup to `compute_write_set`. -/
inductive OnlineOwn (E R : Type) where
  | compute (event : E)
  | writeOnline (writeSet : FeatureWriteSet)
  | putResult (result : RequestResult R)

abbrev OnlineOwn.Ans {E R : Type} : OnlineOwn E R → Type
  | .compute _ => Except PyErr FeatureWriteSet
  | .writeOnline _ => Except PyErr OnlineWritten
  | .putResult _ => Except PyErr Unit

/-- What the handler reports; the write set and its outcomes when they exist. -/
inductive WorkerResult where
  | ok (writeSet : FeatureWriteSet) (onlineWritten : OnlineWritten)
  | deadlineExpired
  | computeFailed (error : String)
  | onlineWriteFailed (error : String)
  | publishFailed (error : String)

namespace Online

section
variable {E R : Type} (events : ComputeEvents E R)

abbrev Program (E R : Type) : Type → Type := RunnerProg (OnlineRecord E R) R (OnlineOwn.Ans (E := E) (R := R))

abbrev compute (event : E) : Program E R (Except PyErr FeatureWriteSet) := own (OnlineOwn.compute event)

abbrev writeOnline (writeSet : FeatureWriteSet) : Program E R (Except PyErr OnlineWritten) :=
  own (OnlineOwn.writeOnline writeSet)

abbrev putResult (result : RequestResult R) : Program E R (Except PyErr Unit) := own (OnlineOwn.putResult result)

def completedFor (event : E) (written : List String) (status : Option String) : OnlineRecord E R :=
  .completed ⟨events.requestId event, written, status⟩

def writtenFeatures (writeSet : FeatureWriteSet) (onlineWritten : OnlineWritten) : List String :=
  (writeSet.results.filter fun p => (Dict.get? onlineWritten p.2.ref.encode).any WriteOutcome.stored).map Prod.fst

def handleExpired (event : E) (key : String) : Program E R (Except PyErr WorkerResult) := do
  match ← publish featureComputeCompleted key (completedFor events event [] (some "deadline_expired")) with
  | .error e => return .ok (.publishFailed e.msg)
  | .ok () => return .ok .deadlineExpired

/-- After the computation: online first, then the offline event, then the completion. -/
def handleComputed (event : E) (writeSet : FeatureWriteSet) : Program E R (Except PyErr WorkerResult) := do
  match ← writeOnline writeSet with
  | .error e => return .ok (.onlineWriteFailed e.msg)
  | .ok onlineWritten =>
    let key := writeSet.entityKey.encode
    match ← publish featureWriteOffline key (.offlineWrite ⟨events.requestId event, writeSet⟩) with
    | .error e => return .ok (.publishFailed e.msg)
    | .ok () =>
      let status := aggregateOnlineStatus (Dict.values onlineWritten)
      let completed := completedFor events event (writtenFeatures writeSet onlineWritten) (some status)
      match ← publish featureComputeCompleted key completed with
      | .error e => return .ok (.publishFailed e.msg)
      | .ok () => return .ok (.ok writeSet onlineWritten)

def handleFeatureComputeRequested (event : E) : Program E R (Except PyErr WorkerResult) := do
  match events.encoded event with
  | .error e => return .error e
  | .ok key =>
    let t ← now
    match events.expired event t with
    | .error e => return .error e
    | .ok true => handleExpired events event key
    | .ok false =>
      match ← compute event with
      | .ok writeSet => handleComputed events event writeSet
      | .error e => if e.isDeterministic then return .ok (.computeFailed e.msg) else return .error e

/-! ## The runner -/

def deadLetter (message : ConsumedMessage) (failureStatus error : String) : Program E R (Except PyErr ProcessResult) :=
  Runner.deadLetter featureComputeOnline "online_worker" .dlq message failureStatus (some error)

def statusAfterRetryOrDlq (requestId : R) (result : ProcessResult) (failureStatus error : String) : Program E R Unit :=
  match result.status with
  | .retryRepublished =>
    safeUpdate requestId { status := some .running, error := some (some s!"retrying: {failureStatus}") }
  | .deadLettered =>
    safeUpdate requestId { status := some .failed, error := some (some (if error = "" then failureStatus else error)) }
  | _ => return ()

def retryOrDlq (message : ConsumedMessage) (event : E) (failureStatus error : String) (maxAttempts : Int) :
    Program E R (Except PyErr ProcessResult) := do
  match ← Runner.retryOrDlq featureComputeOnline "online_worker" .dlq (.compute event) (events.encoded event) message
      failureStatus (some error) maxAttempts with
  | .error e => return .error e
  | .ok result =>
    statusAfterRetryOrDlq (events.requestId event) result failureStatus error
    return .ok result

def finishOk (message : ConsumedMessage) (event : E) (writeSet : FeatureWriteSet) (onlineWritten : OnlineWritten) :
    Program E R (Except PyErr ProcessResult) := do
  let requestId := events.requestId event
  match ← putResult (RequestResult.fromWriteSet requestId writeSet onlineWritten) with
  | .error e => return .ok ⟨.resultStoreFailed, false, some e.msg⟩
  | .ok () =>
    commitThen message do
      safeUpdate requestId {
        status := some .completed
        onlineWriteStatus := some (some (aggregateOnlineStatus (Dict.values onlineWritten)))
        offlineWriteStatus := some (some "pending")
        metadataWriteStatus := some (some "pending")
        error := some none }
      return .ok ⟨.ok, true, none⟩

def finishExpired (message : ConsumedMessage) (event : E) : Program E R (Except PyErr ProcessResult) :=
  commitThen message do
    safeUpdate (events.requestId event) {
      status := some .completed
      onlineWriteStatus := some (some "deadline_expired")
      offlineWriteStatus := some none
      metadataWriteStatus := some (some "pending")
      error := some none }
    return .ok ⟨.deadlineExpired, true, none⟩

def processEvent (maxAttempts : Int) (message : ConsumedMessage) (event : E) :
    Program E R (Except PyErr ProcessResult) := do
  safeUpdate (events.requestId event) { status := some .running }
  match ← handleFeatureComputeRequested events event with
  | .error e => retryOrDlq events message event "unexpected_error" e.msg maxAttempts
  | .ok (.ok writeSet onlineWritten) => finishOk events message event writeSet onlineWritten
  | .ok .deadlineExpired => finishExpired events message event
  | .ok (.computeFailed e) => retryOrDlq events message event "compute_failed" e maxAttempts
  | .ok (.onlineWriteFailed e) => return .ok ⟨.onlineWriteFailed, false, some e⟩
  | .ok (.publishFailed e) => return .ok ⟨.publishFailed, false, some e⟩

def processNext (maxAttempts : Int) : Program E R (Except PyErr ProcessResult) := do
  match ← poll with
  | none => return .ok ⟨.idle, false, none⟩
  | some message =>
    match message.error with
    | some e => return .ok ⟨.consumeError, false, some e⟩
    | none =>
      match events.fromJson message.value with
      | .error e => deadLetter message "deserialization_failed" e.msg
      | .ok event => processEvent events maxAttempts message event

end

end Online

end ClearFeature
