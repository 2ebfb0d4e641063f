import ClearFeature.Lib.Prog
import ClearFeature.Models

/-!
# Kafka runners: what they share (`api/dlq.py`, `fs_core/events/consumer.py`)

A runner is a program that polls, calls the stores and the broker, and commits.
What a call answers is left open: a store or the broker may fail at any time.
-/

namespace ClearFeature

/-! ## Messages -/

abbrev Headers := List (String × Bytes)

/-- A polled message; the offset is kept in the raw message for the commit. -/
structure ConsumedMessage where
  offset : Nat
  value : Bytes
  headers : Headers := []
  error : Option String := none
  deriving DecidableEq

def attemptHeader : String := "x-fsp-attempt"

/-- Decimal digits, with single underscores between them. -/
def digitsValue : List Char → Option Nat → Option Nat
  | [], acc => acc
  | '_' :: c :: cs, some n => if c.isDigit then digitsValue cs (some (10 * n + (c.toNat - 48))) else none
  | c :: cs, acc => if c.isDigit then digitsValue cs (some (10 * acc.getD 0 + (c.toNat - 48))) else none

/-- What `int` takes a character for: white space and decimal digits of any script are read as those of ASCII. -/
def asciiNumeral (c : Char) : Char :=
  if c.toNat < 127 then c
  else if isSpace c then ' '
  else match decimalValue c with
    | some d => Char.ofNat (48 + d)
    | none => '?'

/-- The white space around a numeral. -/
def isAsciiSpace (c : Char) : Bool := (9 ≤ c.toNat && c.toNat ≤ 13) || c.toNat == 32

/-- Python's `int(text)`, where the number of digits is not limited (`PYTHONINTMAXSTRDIGITS=0`). -/
def intOfText (text : List Char) : Option Int :=
  let t := (((text.map asciiNumeral).dropWhile isAsciiSpace).reverse.dropWhile isAsciiSpace).reverse
  match t with
  | '-' :: cs => (digitsValue cs none).map fun n => -(n : Int)
  | '+' :: cs => (digitsValue cs none).map fun n => (n : Int)
  | cs => (digitsValue cs none).map fun n => (n : Int)

/-- `raw.decode("utf-8")` -/
def decodeUtf8 (raw : Bytes) : Option (List Char) :=
  if raw.all (· < 128) then some (raw.map fun b => Char.ofNat b.toNat)
  else (String.fromUTF8? ⟨raw.toArray⟩).map String.toList

def getAttempt (headers : Headers) : Int :=
  match Dict.get? headers attemptHeader with
  | none => 0
  | some raw => ((decodeUtf8 raw).bind intOfText).getD 0

def nextAttempt (headers : Headers) : Int := getAttempt headers + 1

def withAttemptHeader (headers : Headers) (attempt : Int) : Headers :=
  Dict.set headers attemptHeader (asciiBytes (toString attempt))

structure DeadLetterEvent where
  sourceTopic : String
  failureStage : String
  failureStatus : String
  error : Option String
  sourcePayload : Bytes
  attemptCount : Option Int := none
  maxAttempts : Option Int := none
  deriving DecidableEq

def featureComputeOnline : String := "fp.feature-compute.online"
def featureComputeBatch : String := "fp.feature-compute.batch"
def featureWriteOffline : String := "fp.feature-write.offline"
def featureComputeCompleted : String := "fp.feature-compute.completed"
def featureUpdates : String := "fp.feature-updates"
def batchJobEvents : String := "fp.batch.events"
def dlqTopic : String := "fp.dlq"

/-! ## Request status -/

inductive RequestState where
  | accepted
  | running
  | completed
  | failed
  deriving DecidableEq, Repr

structure RequestStatus where
  status : RequestState
  onlineWriteStatus : Option String := none
  offlineWriteStatus : Option String := none
  metadataWriteStatus : Option String := none
  error : Option String := none
  deriving DecidableEq

/-- The keywords of one `update` call; `none` where a keyword is not passed. -/
structure StatusChanges where
  status : Option RequestState := none
  onlineWriteStatus : Option (Option String) := none
  offlineWriteStatus : Option (Option String) := none
  metadataWriteStatus : Option (Option String) := none
  error : Option (Option String) := none
  deriving DecidableEq

def applyChanges (existing : RequestStatus) (changes : StatusChanges) : RequestStatus where
  status := changes.status.getD existing.status
  onlineWriteStatus := changes.onlineWriteStatus.getD existing.onlineWriteStatus
  offlineWriteStatus := changes.offlineWriteStatus.getD existing.offlineWriteStatus
  metadataWriteStatus := changes.metadataWriteStatus.getD existing.metadataWriteStatus
  error := changes.error.getD existing.error

/-! ## Calls -/

/-- What a runner asks the outside for: records of type `Rec`, request ids of type `R`, and its own calls. -/
inductive RunnerCall (Rec R Own : Type) where
  | poll
  | now
  | commit (message : ConsumedMessage)
  | publish (topic key : String) (record : Rec) (headers : Headers)
  | statusRead (requestId : R) (changes : StatusChanges)
  | statusPut (requestId : R) (status : RequestStatus)
  | own (c : Own)

abbrev RunnerCall.Ans {Rec R Own : Type} (OwnAns : Own → Type) : RunnerCall Rec R Own → Type
  | .poll => Option ConsumedMessage
  | .now => Int
  | .commit _ | .publish _ _ _ _ | .statusPut _ _ => Except PyErr Unit
  | .statusRead _ _ => Except PyErr (Option RequestStatus)
  | .own c => OwnAns c

abbrev RunnerProg (Rec R : Type) {Own : Type} (OwnAns : Own → Type) : Type → Type :=
  Prog (RunnerCall Rec R Own) (RunnerCall.Ans OwnAns)

inductive ProcessStatus where
  | idle
  | ok
  | deadlineExpired
  | consumeError
  | deadLettered
  | dlqPublishFailed
  | retryRepublished
  | retryPublishFailed
  | resultStoreFailed
  | onlineWriteFailed
  | publishFailed
  | appendFailed
  | propagationPublishFailed
  | infraFailed
  | paused
  | rateLimited
  | observed
  deriving DecidableEq, Repr

structure ProcessResult where
  status : ProcessStatus
  committed : Bool := false
  error : Option String := none
  deriving DecidableEq

namespace Runner

section
variable {Rec R Own : Type} {OwnAns : Own → Type}

abbrev poll : RunnerProg Rec R OwnAns (Option ConsumedMessage) := Prog.ask RunnerCall.poll

abbrev now : RunnerProg Rec R OwnAns Int := Prog.ask RunnerCall.now

abbrev commit (message : ConsumedMessage) : RunnerProg Rec R OwnAns (Except PyErr Unit) := Prog.ask (RunnerCall.commit message)

abbrev publish (topic key : String) (record : Rec) (headers : Headers := []) :
    RunnerProg Rec R OwnAns (Except PyErr Unit) :=
  Prog.ask (RunnerCall.publish topic key record headers)

abbrev statusRead (requestId : R) (changes : StatusChanges) :
    RunnerProg Rec R OwnAns (Except PyErr (Option RequestStatus)) :=
  Prog.ask (RunnerCall.statusRead requestId changes)

abbrev statusPut (requestId : R) (status : RequestStatus) : RunnerProg Rec R OwnAns (Except PyErr Unit) :=
  Prog.ask (RunnerCall.statusPut requestId status)

abbrev own (c : Own) : RunnerProg Rec R OwnAns (OwnAns c) := Prog.ask (RunnerCall.own c)

/-- `_safe_update`: a read and a write, whose failures are swallowed. Without an entry nothing is written. -/
def safeUpdate (requestId : R) (changes : StatusChanges) : RunnerProg Rec R OwnAns Unit := do
  match ← statusRead requestId changes with
  | .error _ | .ok none => return ()
  | .ok (some existing) =>
    let _ ← statusPut requestId (applyChanges existing changes)
    return ()

/-- `consumer.commit(message)` and what follows it; a failing commit raises. -/
def commitThen (message : ConsumedMessage) (rest : RunnerProg Rec R OwnAns (Except PyErr ProcessResult)) :
    RunnerProg Rec R OwnAns (Except PyErr ProcessResult) := do
  match ← commit message with
  | .error e => return .error e
  | .ok () => rest

/-- `_dead_letter`; also the last part of `_retry_or_dlq`, which passes the attempts. -/
def deadLetter (topic stage : String) (dlq : DeadLetterEvent → Rec) (message : ConsumedMessage) (failureStatus : String)
    (error : Option String) (attemptCount maxAttempts : Option Int := none) :
    RunnerProg Rec R OwnAns (Except PyErr ProcessResult) := do
  let event := dlq ⟨topic, stage, failureStatus, error, message.value, attemptCount, maxAttempts⟩
  match ← publish dlqTopic topic event with
  | .error _ => return .ok ⟨.dlqPublishFailed, false, error⟩
  | .ok () => commitThen message (return .ok ⟨.deadLettered, true, error⟩)

/-- `_retry_or_dlq`. The partition key is evaluated before `republish_with_attempt` guards anything. -/
def retryOrDlq (topic stage : String) (dlq : DeadLetterEvent → Rec) (retry : Rec) (key : Except PyErr String)
    (message : ConsumedMessage) (failureStatus : String) (error : Option String) (maxAttempts : Int) :
    RunnerProg Rec R OwnAns (Except PyErr ProcessResult) := do
  let failedAttempt := nextAttempt message.headers
  if failedAttempt < maxAttempts then
    match key with
    | .error e => return .error e
    | .ok key =>
      match ← publish topic key retry (withAttemptHeader message.headers failedAttempt) with
      | .error _ => return .ok ⟨.retryPublishFailed, false, error⟩
      | .ok () => commitThen message (return .ok ⟨.retryRepublished, true, error⟩)
  else
    deadLetter topic stage dlq message failureStatus error (some failedAttempt) (some maxAttempts)

end

end Runner

end ClearFeature
