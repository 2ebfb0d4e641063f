import ClearFeature.FeatureStore
import ClearFeature.Propagation

/-!
# Offline writer (`api/offline_writer.py`, `api/offline_writer_runner.py`)

Append the computed values, announce them, commit, and report the request as
completed. The event type is a parameter.
-/

namespace ClearFeature

open Runner

structure OfflineEvents (O R : Type) where
  fromJson : Bytes → Except PyErr O
  requestId : O → R
  writeSet : O → Except PyErr FeatureWriteSet

inductive OfflineRecord (O : Type) where
  | retry (event : O)
  | updated (event : FeatureUpdated)
  | dlq (event : DeadLetterEvent)

/-- `appendNew` is `partition_new_results` followed by `append_many`. -/
inductive OfflineOwn where
  | appendNew (view : String) (viewVersion : Int) (results : List FeatureResult)

abbrev OfflineOwn.Ans : OfflineOwn → Type
  | .appendNew _ _ _ => Except PyErr Unit

inductive OfflineWriteResult where
  | ok (updatesEmitted : Nat)
  | invalidEvent (error : String)
  | appendFailed (error : String)
  | propagationPublishFailed (error : String)

namespace Offline

abbrev Program (O R : Type) : Type → Type := RunnerProg (OfflineRecord O) R OfflineOwn.Ans

section
variable {O R : Type} (events : OfflineEvents O R) (registry : Registry)

abbrev appendNew (view : String) (viewVersion : Int) (results : List FeatureResult) :
    Program O R (Except PyErr Unit) :=
  own (OfflineOwn.appendNew view viewVersion results)

/-- Every result is announced, also those that were already stored: a replay announces them again. -/
def announce (writeSet : FeatureWriteSet) : Program O R (Except PyErr OfflineWriteResult) :=
  match findView? registry writeSet.view writeSet.viewVersion with
  | none => return .ok (.ok 0)
  | some viewDef => do
    match ← emitFeatureUpdates .updated viewDef (Dict.values writeSet.results) viewDef.entity .offlineWriter with
    | .error e => return .ok (.propagationPublishFailed e.msg)
    | .ok n => return .ok (.ok n)

def handleFeatureOfflineWrite (event : O) : Program O R (Except PyErr OfflineWriteResult) :=
  match events.writeSet event with
  | .error e => return .ok (.invalidEvent e.msg)
  | .ok writeSet => do
    match ← appendNew writeSet.view writeSet.viewVersion (Dict.values writeSet.results) with
    | .error e => return .ok (.appendFailed e.msg)
    | .ok () => announce registry writeSet

def deadLetter (message : ConsumedMessage) (failureStatus error : String) : Program O R (Except PyErr ProcessResult) :=
  Runner.deadLetter featureWriteOffline "offline_writer" .dlq message failureStatus (some error)

/-- Only the offline part of the status moves. -/
def statusAfterRetryOrDlq (requestId : R) (result : ProcessResult) (failureStatus error : String) : Program O R Unit :=
  match result.status with
  | .retryRepublished =>
    safeUpdate requestId {
      offlineWriteStatus := some (some "retrying"), error := some (some s!"retrying: {failureStatus}") }
  | .deadLettered =>
    safeUpdate requestId {
      offlineWriteStatus := some (some "failed_dlq")
      error := some (some (if error = "" then failureStatus else error)) }
  | _ => return ()

def retryOrDlq (message : ConsumedMessage) (event : O) (failureStatus error : String) (maxAttempts : Int) :
    Program O R (Except PyErr ProcessResult) := do
  let key := (events.writeSet event).map fun writeSet => writeSet.entityKey.encode
  match ← Runner.retryOrDlq featureWriteOffline "offline_writer" .dlq (.retry event) key message failureStatus
      (some error) maxAttempts with
  | .error e => return .error e
  | .ok result =>
    statusAfterRetryOrDlq (events.requestId event) result failureStatus error
    return .ok result

def finishOk (message : ConsumedMessage) (event : O) : Program O R (Except PyErr ProcessResult) :=
  commitThen message do
    safeUpdate (events.requestId event) {
      status := some .completed, offlineWriteStatus := some (some "written") }
    return .ok ⟨.ok, true, none⟩

def finishInvalid (message : ConsumedMessage) (event : O) (error : String) :
    Program O R (Except PyErr ProcessResult) := do
  match ← deadLetter message "invalid_event" error with
  | .error e => return .error e
  | .ok result =>
    if result.status = .deadLettered then
      safeUpdate (events.requestId event) {
        offlineWriteStatus := some (some "failed_dlq"), error := some (some error) }
    return .ok result

def processEvent (maxAttempts : Int) (message : ConsumedMessage) (event : O) :
    Program O R (Except PyErr ProcessResult) := do
  match ← handleFeatureOfflineWrite events registry event with
  | .error e => retryOrDlq events message event "unexpected_error" e.msg maxAttempts
  | .ok (.ok _) => finishOk events message event
  | .ok (.invalidEvent e) => finishInvalid events message event e
  | .ok (.appendFailed e) => return .ok ⟨.appendFailed, false, some e⟩
  | .ok (.propagationPublishFailed e) => return .ok ⟨.propagationPublishFailed, false, some e⟩

def processNext (maxAttempts : Int) : Program O R (Except PyErr ProcessResult) := do
  match ← poll with
  | none => return .ok ⟨.idle, false, none⟩
  | some message =>
    match message.error with
    | some e => return .ok ⟨.consumeError, false, some e⟩
    | none =>
      match events.fromJson message.value with
      | .error e => deadLetter message "deserialization_failed" e.msg
      | .ok event => processEvent events registry maxAttempts message event

end

end Offline

end ClearFeature
