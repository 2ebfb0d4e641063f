import ClearFeature.Completed

/-!
# Requests across the API and the workers (`api/app.py`, both runners)

Submissions, online workers and offline writers run side by side over one status
store, one result store and the topics. Any of them may stop between two calls,
a write may take effect without its answer arriving, and any message of a topic
may be delivered again.
-/

namespace ClearFeature

open Runner

/-- The wire format of the events of a request. -/
structure RequestWire (E O R : Type) where
  compute : ComputeEvents E R
  offline : OfflineEvents O R
  computeJson : E → Bytes
  offlineJson : FeatureOfflineWriteRequested R → Bytes
  retryJson : O → Bytes

structure RequestStores (R : Type) where
  statuses : List (R × RequestStatus) := []
  results : List (R × RequestResult R) := []
  messages : List (String × Bytes × Headers) := []
  completions : List (FeatureComputeCompleted R) := []

/-- What the outside decides of one call. -/
structure CallEnv where
  reached : Bool := true
  answered : Bool := true
  failure : PyErr := .other "ConnectionError" ""
  arrival : Option Nat := none
  pollError : Option String := none
  now : Int := 0
  computed : Except PyErr FeatureWriteSet := .error (.valueError "")
  written : OnlineWritten := []

def CallEnv.reply {α : Type} (env : CallEnv) (a : α) : Except PyErr α :=
  if env.reached && env.answered then .ok a else .error env.failure

theorem CallEnv.reply_ok {α : Type} {env : CallEnv} {a b : α} (h : env.reply a = .ok b) :
    env.reached = true ∧ env.answered = true ∧ a = b := by
  unfold reply at h
  split at h
  · rename_i hr
    simp only [Bool.and_eq_true] at hr
    cases h
    exact ⟨hr.1, hr.2, rfl⟩
  · cases h

/-- How published records and own calls act on the stores, and what own calls answer. -/
structure CallService (Rec R Own : Type) (OwnAns : Own → Type) where
  publish : String → Rec → Headers → RequestStores R → RequestStores R
  act : Own → RequestStores R → RequestStores R
  answer : CallEnv → (c : Own) → OwnAns c

section
variable {E O R : Type}

def onlineService (wire : RequestWire E O R) [DecidableEq R] :
    CallService (OnlineRecord E R) R (OnlineOwn E R) OnlineOwn.Ans where
  publish topic rec headers s :=
    match rec with
    | .compute event => { s with messages := s.messages ++ [(topic, wire.computeJson event, headers)] }
    | .offlineWrite event => { s with messages := s.messages ++ [(topic, wire.offlineJson event, headers)] }
    | .completed event => { s with completions := s.completions ++ [event] }
    | .dlq _ => s
  act c s :=
    match c with
    | .putResult result => { s with results := Dict.set s.results result.requestId result }
    | _ => s
  answer env
    | .compute _ => env.computed
    | .writeOnline _ => env.reply env.written
    | .putResult _ => env.reply ()

def offlineService (wire : RequestWire E O R) : CallService (OfflineRecord O) R OfflineOwn OfflineOwn.Ans where
  publish topic rec headers s :=
    match rec with
    | .retry event => { s with messages := s.messages ++ [(topic, wire.retryJson event, headers)] }
    | _ => s
  act _ s := s
  answer env
    | .appendNew _ _ _ => env.reply ()

end

section
variable {Rec R Own : Type} {OwnAns : Own → Type} (svc : CallService Rec R Own OwnAns)

def RequestStores.apply [DecidableEq R] (s : RequestStores R) : RunnerCall Rec R Own → RequestStores R
  | .publish topic _ rec headers => svc.publish topic rec headers s
  | .statusPut requestId status => { s with statuses := Dict.set s.statuses requestId status }
  | .own c => svc.act c s
  | _ => s

def RequestStores.perform [DecidableEq R] (s : RequestStores R) (env : CallEnv) (c : RunnerCall Rec R Own) :
    RequestStores R :=
  if env.reached then s.apply svc c else s

def RequestStores.messageAt (s : RequestStores R) (topic : String) (env : CallEnv) : Option ConsumedMessage := do
  let i ← env.arrival
  let m ← (s.messages.filter (·.1 = topic))[i]?
  return ⟨i, m.2.1, m.2.2, env.pollError⟩

def RequestStores.answer [DecidableEq R] (s : RequestStores R) (topic : String) (env : CallEnv) :
    (c : RunnerCall Rec R Own) → RunnerCall.Ans OwnAns c
  | .poll => s.messageAt topic env
  | .now => env.now
  | .commit _ | .publish _ _ _ _ | .statusPut _ _ => env.reply ()
  | .statusRead requestId _ => env.reply (Dict.get? s.statuses requestId)
  | .own c => svc.answer env c

/-- One of several programs makes its next call. -/
def advance {α : Type} [DecidableEq R] (topic : String) (s : RequestStores R)
    (programs : List (RunnerProg Rec R OwnAns α)) (i : Nat) (env : CallEnv) :
    RequestStores R × List (RunnerProg Rec R OwnAns α) :=
  match programs[i]? with
  | some (.call c k) => (s.perform svc env c, programs.set i (k (s.answer svc topic env c)))
  | _ => (s, programs)

/-- A status entry is written by a status call only. -/
structure CallService.KeepsStatuses : Prop where
  publish_statuses : ∀ topic rec headers s, (svc.publish topic rec headers s).statuses = s.statuses
  act_statuses : ∀ c s, (svc.act c s).statuses = s.statuses

variable {svc}

theorem CallService.KeepsStatuses.perform_statuses [DecidableEq R] (hs : svc.KeepsStatuses) (s : RequestStores R)
    (env : CallEnv) (c : RunnerCall Rec R Own) :
    (s.perform svc env c).statuses = s.statuses ∨
    env.reached = true ∧ ∃ requestId status, c = .statusPut requestId status ∧
      (s.perform svc env c).statuses = Dict.set s.statuses requestId status := by
  unfold RequestStores.perform
  split
  · rename_i hr
    cases c with
    | publish topic key rec headers => exact .inl (hs.publish_statuses topic rec headers s)
    | own c => exact .inl (hs.act_statuses c s)
    | poll => exact .inl rfl
    | now => exact .inl rfl
    | commit m => exact .inl rfl
    | statusRead requestId changes => exact .inl rfl
    | statusPut requestId status => exact .inr ⟨hr, requestId, status, rfl, rfl⟩
  · exact .inl rfl

end

section
variable {Rec R Own α : Type} {OwnAns : Own → Type} [DecidableEq R] {svc : CallService Rec R Own OwnAns}
  {topic : String} {s : RequestStores R} {programs : List (RunnerProg Rec R OwnAns α)} {i : Nat} {env : CallEnv}

theorem advance_call {c : RunnerCall Rec R Own} {k : RunnerCall.Ans OwnAns c → RunnerProg Rec R OwnAns α}
    (hi : programs[i]? = some (.call c k)) : advance svc topic s programs i env =
      (s.perform svc env c, programs.set i (k (s.answer svc topic env c))) := by
  unfold advance
  rw [hi]

theorem advance_done (hi : ∀ c k, programs[i]? ≠ some (.call c k)) :
    advance svc topic s programs i env = (s, programs) := by
  unfold advance
  split
  · rename_i c k h
    exact absurd h (hi c k)
  · rfl

theorem advance_mem {q : RunnerProg Rec R OwnAns α} (hq : q ∈ (advance svc topic s programs i env).2) :
    q ∈ programs ∨ ∃ c k, Prog.call c k ∈ programs ∧ q = k (s.answer svc topic env c) := by
  unfold advance at hq
  split at hq
  · rename_i c k hi
    rcases List.mem_or_eq_of_mem_set hq with hq | rfl
    · exact .inl hq
    · exact .inr ⟨c, k, List.mem_of_getElem? hi, rfl⟩
  · exact .inl hq

end

section
variable {E O R : Type} (wire : RequestWire E O R)

theorem onlineService_keepsStatuses [DecidableEq R] : (onlineService wire).KeepsStatuses where
  publish_statuses topic rec headers s := by
    cases rec <;> rfl
  act_statuses c s := by
    cases c <;> rfl

theorem offlineService_keepsStatuses : (offlineService wire).KeepsStatuses where
  publish_statuses topic rec headers s := by
    cases rec <;> rfl
  act_statuses c s := rfl

end

/-! ## The system -/

/-- `_submit_feature_request` from the publish on; the status entry is best-effort. -/
def acceptFeatureRequest {E R : Type} (events : ComputeEvents E R) (event : E) :
    Online.Program E R (Except PyErr R) := do
  match events.encoded event with
  | .error e => return .error e
  | .ok key =>
    match ← publish featureComputeOnline key (.compute event) with
    | .error e => return .error e
    | .ok () =>
      let _ ← statusPut (events.requestId event) { status := .accepted, metadataWriteStatus := some "pending" }
      return .ok (events.requestId event)

structure RequestSystem (E O R : Type) where
  stores : RequestStores R := {}
  submissions : List (Online.Program E R (Except PyErr R)) := []
  workers : List (Online.Program E R (Except PyErr ProcessResult)) := []
  writers : List (Offline.Program O R (Except PyErr ProcessResult)) := []

inductive RequestAction (E : Type) where
  | submit (event : E)
  | startWorker (maxAttempts : Int)
  | startWriter (maxAttempts : Int)
  | advanceSubmission (i : Nat) (env : CallEnv)
  | advanceWorker (i : Nat) (env : CallEnv)
  | advanceWriter (i : Nat) (env : CallEnv)

namespace RequestSystem

section
variable {E O R : Type} [DecidableEq R] (wire : RequestWire E O R) (registry : Registry)

def step (s : RequestSystem E O R) : RequestAction E → RequestSystem E O R
  | .submit event => { s with submissions := s.submissions ++ [acceptFeatureRequest wire.compute event] }
  | .startWorker maxAttempts => { s with workers := s.workers ++ [Online.processNext wire.compute maxAttempts] }
  | .startWriter maxAttempts => { s with writers := s.writers ++ [Offline.processNext wire.offline registry maxAttempts] }
  | .advanceSubmission i env =>
    let (stores, submissions) := advance (onlineService wire) featureComputeOnline s.stores s.submissions i env
    { s with stores, submissions }
  | .advanceWorker i env =>
    let (stores, workers) := advance (onlineService wire) featureComputeOnline s.stores s.workers i env
    { s with stores, workers }
  | .advanceWriter i env =>
    let (stores, writers) := advance (offlineService wire) featureWriteOffline s.stores s.writers i env
    { s with stores, writers }

end

end RequestSystem

def RequestStores.Expired {R : Type} (s : RequestStores R) (requestId : R) : Prop :=
  ∃ event ∈ s.completions, event.Expired requestId

/-- Its result is stored, or it has expired. -/
def RequestStores.Settled {R : Type} [DecidableEq R] (s : RequestStores R) (requestId : R) : Prop :=
  (Dict.get? s.results requestId).isSome ∨ s.Expired requestId

/-- A completed request that has not expired has its result. -/
def RequestStores.CompletedReadable {R : Type} [DecidableEq R] (s : RequestStores R) : Prop :=
  ∀ requestId status, Dict.get? s.statuses requestId = some status → status.status = .completed →
    ¬ s.Expired requestId → ∃ result, Dict.get? s.results requestId = some result

/-- The request whose status entry the program is about to read in order to report it as completed. -/
def reportsCompleted {Rec R Own : Type} {OwnAns : Own → Type} {α : Type} (p : RunnerProg Rec R OwnAns α) : Option R :=
  match p.next? with
  | some (.statusRead requestId changes) => if changes.status = some .completed then some requestId else none
  | _ => none

/-- An offline writer that finds the status entry of the request it reports finds the request settled. -/
def RequestSystem.WriterWaits {E O R : Type} [DecidableEq R] (s : RequestSystem E O R) : RequestAction E → Prop
  | .advanceWriter i env => env.reached = true → env.answered = true →
    ∀ requestId ∈ s.writers[i]?.bind reportsCompleted, (Dict.get? s.stores.statuses requestId).isSome →
      s.stores.Settled requestId
  | _ => True

section
variable {E O R : Type} [DecidableEq R]

instance (event : FeatureComputeCompleted R) (requestId : R) : Decidable (event.Expired requestId) :=
  inferInstanceAs (Decidable (_ ∧ _))

instance (s : RequestStores R) (requestId : R) : Decidable (s.Expired requestId) :=
  inferInstanceAs (Decidable (∃ event ∈ s.completions, event.Expired requestId))

instance (s : RequestStores R) (requestId : R) : Decidable (s.Settled requestId) :=
  inferInstanceAs (Decidable (_ ∨ _))

instance RequestSystem.decidableWriterWaits (s : RequestSystem E O R) (a : RequestAction E) : Decidable (s.WriterWaits a) := by
  cases a <;> unfold RequestSystem.WriterWaits <;> infer_instance

end

end ClearFeature
