import ClearFeature.Requests

/-!
# The writers of a request's status (`api/app.py`, `api/metadata_writer_runner.py`)

The API accepts the request and repairs its entry on a read, the online worker
updates it, the metadata writer marks it. Each get, put and update is one step,
and the status store answers all of them.
-/

namespace ClearFeature

open Runner

/-! ## The mark and the read-repair -/

inductive MetadataOwn (R : Type) where
  | getRequest (requestId : R)

/-- The status of the durable projection. -/
abbrev MetadataOwn.Ans {R : Type} : MetadataOwn R → Type
  | .getRequest _ => Except PyErr (Option String)

namespace Metadata

section
variable {R : Type}

abbrev Program (R : Type) : Type → Type := RunnerProg Empty R (MetadataOwn.Ans (R := R))

abbrev statusGet (requestId : R) : Program R (Except PyErr (Option RequestStatus)) := statusRead requestId {}

abbrev getRequest (requestId : R) : Program R (Except PyErr (Option String)) := own (MetadataOwn.getRequest requestId)

def markMetadataWritten (requestId : R) : Program R Unit := do
  match ← statusGet requestId with
  | .error _ | .ok none => return ()
  | .ok (some current) =>
    if current.metadataWriteStatus = some "written" then return ()
    else
      let _ ← statusPut requestId { current with metadataWriteStatus := some "written" }
      return ()

def reconcileMetadataStatus (requestId : R) (status : RequestStatus) : Program R RequestStatus := do
  if status.metadataWriteStatus = some "pending" then
    match ← getRequest requestId with
    | .error _ | .ok none => return status
    | .ok (some durable) =>
      if durable = "completed" then
        let repaired := { status with metadataWriteStatus := some "written" }
        let _ ← statusPut requestId repaired
        return repaired
      else return status
  else return status

/-- The status of a request as the API shows it; `none` is a 404. -/
def getFeatureRequest (requestId : R) : Program R (Except PyErr (Option RequestStatus)) := do
  match ← statusGet requestId with
  | .error e => return .error e
  | .ok none => return .ok none
  | .ok (some status) => return .ok (some (← reconcileMetadataStatus requestId status))

end

end Metadata

/-- Nothing is published; the durable projection is read. -/
def metadataService (R : Type) (durable : Except PyErr (Option String)) :
    CallService Empty R (MetadataOwn R) MetadataOwn.Ans where
  publish _ _ _ s := s
  act _ s := s
  answer _
    | .getRequest _ => durable

theorem metadataService_keepsStatuses {R : Type} (durable : Except PyErr (Option String)) :
    (metadataService R durable).KeepsStatuses where
  publish_statuses topic rec headers s := rfl
  act_statuses c s := rfl

/-! ## Steps -/

section
variable {Rec R Own α : Type} {OwnAns : Own → Type}

/-- The request and the entry that the program is about to put. -/
def putAt (programs : List (RunnerProg Rec R OwnAns α)) (i : Nat) : Option (R × RequestStatus) :=
  match programs[i]?.bind Prog.next? with
  | some (.statusPut requestId status) => some (requestId, status)
  | _ => none

def updateAt (programs : List (RunnerProg Rec R OwnAns α)) (i : Nat) : Option (R × StatusChanges) :=
  match programs[i]?.bind Prog.next? with
  | some (.statusRead requestId changes) => some (requestId, changes)
  | _ => none

/-- A call of the status store is answered. -/
def CallEnv.forStatus (programs : List (RunnerProg Rec R OwnAns α)) (i : Nat) (env : CallEnv) : CallEnv :=
  if (putAt programs i).isSome || (updateAt programs i).isSome then { env with reached := true, answered := true }
  else env

/-- The read and the write of an update are one step. -/
def advanceUpdate [DecidableEq R] (svc : CallService Rec R Own OwnAns) (topic : String) (s : RequestStores R)
    (programs : List (RunnerProg Rec R OwnAns α)) (i : Nat) (env : CallEnv) :
    RequestStores R × List (RunnerProg Rec R OwnAns α) :=
  let next := advance svc topic s programs i (env.forStatus programs i)
  if (updateAt programs i).isSome && (putAt next.2 i).isSome then
    advance svc topic next.1 next.2 i (env.forStatus next.2 i)
  else next

end

/-- `reported` is the status of the last update that an online worker issued for a request. -/
structure StatusSystem (E R : Type) where
  stores : RequestStores R := {}
  submissions : List (Online.Program E R (Except PyErr R)) := []
  workers : List (Online.Program E R (Except PyErr ProcessResult)) := []
  marks : List (Metadata.Program R Unit) := []
  reads : List (Metadata.Program R (Except PyErr (Option RequestStatus))) := []
  reported : List (R × RequestState) := []

/-- The metadata writer marks what it has projected: `completion` is one of the completion events. -/
inductive StatusAction (E R : Type) where
  | submit (event : E)
  | startWorker (maxAttempts : Int)
  | startMark (completion : Nat)
  | startRead (requestId : R)
  | advanceSubmission (i : Nat) (env : CallEnv)
  | advanceWorker (i : Nat) (env : CallEnv)
  | advanceMark (i : Nat) (env : CallEnv)
  | advanceRead (i : Nat) (env : CallEnv) (durable : Except PyErr (Option String))

def recordReport {R : Type} [DecidableEq R] (reported : List (R × RequestState)) :
    Option (R × StatusChanges) → List (R × RequestState)
  | none => reported
  | some (requestId, changes) =>
    match changes.status with
    | none => reported
    | some status => Dict.set reported requestId status

def RequestState.final : RequestState → Bool
  | .completed | .failed => true
  | .accepted | .running => false

namespace StatusSystem

section
variable {E O R : Type} [DecidableEq R] (wire : RequestWire E O R)

def step (s : StatusSystem E R) : StatusAction E R → StatusSystem E R
  | .submit event => { s with submissions := s.submissions ++ [acceptFeatureRequest wire.compute event] }
  | .startWorker maxAttempts => { s with workers := s.workers ++ [Online.processNext wire.compute maxAttempts] }
  | .startMark completion =>
    match s.stores.completions[completion]? with
    | some event => { s with marks := s.marks ++ [Metadata.markMetadataWritten event.requestId] }
    | none => s
  | .startRead requestId => { s with reads := s.reads ++ [Metadata.getFeatureRequest requestId] }
  | .advanceSubmission i env =>
    let (stores, submissions) := advance (onlineService wire) featureComputeOnline s.stores s.submissions i
      (env.forStatus s.submissions i)
    { s with stores, submissions }
  | .advanceWorker i env =>
    let (stores, workers) := advanceUpdate (onlineService wire) featureComputeOnline s.stores s.workers i env
    { s with stores, workers, reported := recordReport s.reported (updateAt s.workers i) }
  | .advanceMark i env =>
    let (stores, marks) := advance (metadataService R (.ok none)) featureComputeCompleted s.stores s.marks i
      (env.forStatus s.marks i)
    { s with stores, marks }
  | .advanceRead i env durable =>
    let (stores, reads) := advance (metadataService R durable) featureComputeCompleted s.stores s.reads i
      (env.forStatus s.reads i)
    { s with stores, reads }

def statusOf (s : StatusSystem E R) (requestId : R) : Option RequestState :=
  (Dict.get? s.stores.statuses requestId).map RequestStatus.status

def Idle (s : StatusSystem E R) : Prop :=
  (∀ p ∈ s.submissions, p.next?.isNone) ∧ (∀ p ∈ s.workers, p.next?.isNone) ∧
  (∀ p ∈ s.marks, p.next?.isNone) ∧ ∀ p ∈ s.reads, p.next?.isNone

/-- What the online worker reported last is a final status, and the entry has it. -/
def TerminalKept (s : StatusSystem E R) : Prop :=
  s.Idle → ∀ requestId status, Dict.get? s.reported requestId = some status → status.final →
    s.statusOf requestId = some status

/-- The accepted entry is put before the final update, which finds it; a mark or a repair puts an entry back whose status
has not moved since it was read. -/
def InOrder (s : StatusSystem E R) : StatusAction E R → Prop
  | .advanceSubmission i _ => ∀ put ∈ putAt s.submissions i, ((Dict.get? s.reported put.1).map RequestState.final) ≠ some true
  | .advanceWorker i _ => ∀ update ∈ updateAt s.workers i, update.2.status.map RequestState.final = some true →
    (s.statusOf update.1).isSome
  | .advanceMark i _ => ∀ put ∈ putAt s.marks i, s.statusOf put.1 = some put.2.status
  | .advanceRead i _ _ => ∀ put ∈ putAt s.reads i, s.statusOf put.1 = some put.2.status
  | _ => True

instance (s : StatusSystem E R) : Decidable s.Idle := inferInstanceAs (Decidable (_ ∧ _))

instance decidableInOrder (s : StatusSystem E R) (a : StatusAction E R) : Decidable (s.InOrder a) := by
  cases a <;> unfold InOrder <;> infer_instance

end

end StatusSystem

end ClearFeature
