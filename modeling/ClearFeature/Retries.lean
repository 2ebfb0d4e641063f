import ClearFeature.Lib.Environment
import ClearFeature.OfflineRunner
import ClearFeature.OnlineRunner
import ClearFeature.Sessions

/-!
# Retry copies and dead letters

The broker as one message sees it: the source partition, to which retry copies
are appended, the dead letters, and the offsets of the consumer. The handler
is a parameter of both runners here; it fails in the same way every time.
-/

namespace ClearFeature

open Prog Runner

/-! ## Runners with a given handler -/

namespace Online

section
variable {E R : Type} (events : ComputeEvents E R) (handle : E → Program E R (Except PyErr WorkerResult))

def processEventWith (maxAttempts : Int) (message : ConsumedMessage) (event : E) :
    Program E R (Except PyErr ProcessResult) := do
  safeUpdate (events.requestId event) { status := some .running }
  match ← handle event with
  | .error e => retryOrDlq events message event "unexpected_error" e.msg maxAttempts
  | .ok (.ok writeSet onlineWritten) => finishOk events message event writeSet onlineWritten
  | .ok .deadlineExpired => finishExpired events message event
  | .ok (.computeFailed e) => retryOrDlq events message event "compute_failed" e maxAttempts
  | .ok (.onlineWriteFailed e) => return .ok ⟨.onlineWriteFailed, false, some e⟩
  | .ok (.publishFailed e) => return .ok ⟨.publishFailed, false, some e⟩

def processNextWith (maxAttempts : Int) : Program E R (Except PyErr ProcessResult) := do
  match ← poll with
  | none => return .ok ⟨.idle, false, none⟩
  | some message =>
    match message.error with
    | some e => return .ok ⟨.consumeError, false, some e⟩
    | none =>
      match events.fromJson message.value with
      | .error e => deadLetter message "deserialization_failed" e.msg
      | .ok event => processEventWith events handle maxAttempts message event

theorem processNext_eq (maxAttempts : Int) :
    processNext events maxAttempts = processNextWith events (handleFeatureComputeRequested events) maxAttempts := rfl

end

/-- The failure status and the error of a result that is retried. -/
def retried : Except PyErr WorkerResult → Option (String × String)
  | .error e => some ("unexpected_error", e.msg)
  | .ok (.computeFailed e) => some ("compute_failed", e)
  | _ => none

end Online

namespace Offline

section
variable {O R : Type} (events : OfflineEvents O R) (handle : O → Program O R (Except PyErr OfflineWriteResult))

def processEventWith (maxAttempts : Int) (message : ConsumedMessage) (event : O) :
    Program O R (Except PyErr ProcessResult) := do
  match ← handle event with
  | .error e => retryOrDlq events message event "unexpected_error" e.msg maxAttempts
  | .ok (.ok _) => finishOk events message event
  | .ok (.invalidEvent e) => finishInvalid events message event e
  | .ok (.appendFailed e) => return .ok ⟨.appendFailed, false, some e⟩
  | .ok (.propagationPublishFailed e) => return .ok ⟨.propagationPublishFailed, false, some e⟩

def processNextWith (maxAttempts : Int) : Program O R (Except PyErr ProcessResult) := do
  match ← poll with
  | none => return .ok ⟨.idle, false, none⟩
  | some message =>
    match message.error with
    | some e => return .ok ⟨.consumeError, false, some e⟩
    | none =>
      match events.fromJson message.value with
      | .error e => deadLetter message "deserialization_failed" e.msg
      | .ok event => processEventWith events handle maxAttempts message event

theorem processNext_eq (registry : Registry) (maxAttempts : Int) :
    processNext events registry maxAttempts =
      processNextWith events (handleFeatureOfflineWrite events registry) maxAttempts := rfl

end

/-- Only what the handler raises is retried. -/
def retried : Except PyErr OfflineWriteResult → Option (String × String)
  | .error e => some ("unexpected_error", e.msg)
  | .ok _ => none

end Offline

/-! ## The broker -/

/-- The source partition, the dead letters and the consumer. `pending` is set from the acknowledgement of a retry copy
or a dead letter to the commit that follows. -/
structure RetryBroker where
  log : List LogEntry
  dead : List DeadLetterEvent := []
  committed : Nat := 0
  position : Nat := 0
  pending : Bool := false

def RetryBroker.messageAt (b : RetryBroker) (offset : Nat) : Option ConsumedMessage :=
  b.log[offset]?.map fun e => ⟨offset, e.value, e.headers, e.error⟩

/-- The events of a topic: how they are read, retried, keyed and written, and those that the chain of copies keeps to. -/
structure RetryTopic (Rec E : Type) where
  name : String
  stage : String
  fromJson : Bytes → Except PyErr E
  retry : E → Rec
  dlq : DeadLetterEvent → Rec
  key : E → Except PyErr String
  payload : Rec → Option Bytes
  deadLetter : Rec → Option DeadLetterEvent
  Copy : E → Prop
  name_ne : name ≠ dlqTopic
  deadLetter_dlq : ∀ event, deadLetter (dlq event) = some event
  key_ok : ∀ {e}, Copy e → ∃ k, key e = .ok k
  payload_ok : ∀ {e}, Copy e → ∃ raw e', payload (retry e) = some raw ∧ fromJson raw = .ok e' ∧ Copy e'

section
variable {Rec E R Own : Type} {OwnAns : Own → Type} (topic : RetryTopic Rec E)

/-- An acknowledged publish. -/
def RetryBroker.publish (b : RetryBroker) (name : String) (record : Rec) (headers : Headers) : RetryBroker :=
  if name = topic.name then
    match topic.payload record with
    | some raw => { b with log := b.log ++ [⟨raw, headers, none⟩], pending := true }
    | none => b
  else if name = dlqTopic then
    match topic.deadLetter record with
    | some event => { b with dead := b.dead ++ [event], pending := true }
    | none => b
  else b

def RetryBroker.after (b : RetryBroker) : (c : RunnerCall Rec R Own) → RunnerCall.Ans OwnAns c → RetryBroker
  | .poll, some _ => { b with position := b.position + 1 }
  | .publish name _ record headers, .ok () => b.publish topic name record headers
  | .commit m, .ok () => { b with committed := m.offset + 1, pending := false }
  | _, _ => b

/-- What the runner's own stores and the clock may answer. -/
structure StoreAnswers (OwnAns : Own → Type) where
  own : (c : Own) → OwnAns c → Prop
  clock : Int → Prop
  answers : ∀ c, ∃ a, own c a
  ticks : ∃ t, clock t

def StoreAnswers.may (stores : StoreAnswers OwnAns) : (c : RunnerCall Rec R Own) → RunnerCall.Ans OwnAns c → Prop
  | .own c, a => stores.own c a
  | .now, t => stores.clock t
  | _, _ => True

/-- A commit goes through. Unless it is calm, polls may come back empty and publishes may be refused. -/
def retryEnv (stores : StoreAnswers OwnAns) (calm : Bool) :
    Env (RunnerCall Rec R Own) (RunnerCall.Ans OwnAns) RetryBroker where
  may b
    | .poll, m => m = b.messageAt b.position ∨ calm = false ∧ m = none
    | .publish _ _ _ _, a => a = .ok () ∨ calm = false
    | .commit _, a => a = .ok ()
    | c, a => stores.may c a
  after b c a := b.after topic c a

theorem retryEnv_live (stores : StoreAnswers OwnAns) (calm : Bool) :
    Env.Live (retryEnv (R := R) topic stores calm) := by
  intro b c
  cases c with
  | poll => exact ⟨_, .inl rfl⟩
  | publish name key record headers => exact ⟨.ok (), .inl rfl⟩
  | commit m => exact ⟨.ok (), rfl⟩
  | now => exact stores.ticks
  | statusRead requestId changes => exact ⟨.ok none, trivial⟩
  | statusPut requestId status => exact ⟨.ok (), trivial⟩
  | own c => exact stores.answers c

/-- Rounds of a runner in succession, and the results of those that were not stopped. A stopped runner starts again at
the committed offset; it is not stopped between an acknowledgement and its commit. -/
inductive Rounds (stores : StoreAnswers OwnAns) (calm : Bool)
    (program : RunnerProg Rec R OwnAns (Except PyErr ProcessResult)) :
    RetryBroker → List ProcessResult → RetryBroker → Prop
  | start (b : RetryBroker) : Rounds stores calm program b [] b
  | round {b b' b'' : RetryBroker} {rs : List ProcessResult} {r : ProcessResult} :
      Rounds stores calm program b rs b' → Returns (retryEnv topic stores calm) b' program b'' (.ok r) →
      Rounds stores calm program b (rs ++ [r]) b''
  | restart {b b' b'' : RetryBroker} {rs : List ProcessResult} : calm = false →
      Rounds stores calm program b rs b' → Stops (retryEnv topic stores calm) b' program b'' → b''.pending = false →
      Rounds stores calm program b rs { b'' with position := b''.committed }

/-! ## Handlers that fail -/

/-- Calls that touch neither the consumer nor the two topics. -/
def Elsewhere : RunnerCall Rec R Own → Prop
  | .poll | .commit _ => False
  | .publish name _ _ _ => name ≠ topic.name ∧ name ≠ dlqTopic
  | _ => True

/-- However the stores answer, the program fails with `failure`. -/
def FailsWith {β : Type} (stores : StoreAnswers OwnAns) (failure : β) : RunnerProg Rec R OwnAns β → Prop
  | .ret a => a = failure
  | .call c k => Elsewhere topic c ∧ ∀ a, stores.may c a → FailsWith stores failure (k a)

variable {topic} {stores : StoreAnswers OwnAns} {calm : Bool} {b : RetryBroker}

theorem failsWith_ask_bind {β : Type} {failure : β} {c : RunnerCall Rec R Own}
    {f : RunnerCall.Ans OwnAns c → RunnerProg Rec R OwnAns β} : FailsWith topic stores failure (Prog.ask c >>= f) ↔
      Elsewhere topic c ∧ ∀ a, stores.may c a → FailsWith topic stores failure (f a) := Iff.rfl

theorem after_elsewhere {c : RunnerCall Rec R Own} (hc : Elsewhere topic c) (a : RunnerCall.Ans OwnAns c) :
    b.after topic c a = b := by
  cases c with
  | poll => cases hc
  | commit m => cases hc
  | publish name key record headers =>
    cases a with
    | error e => rfl
    | ok u =>
      change b.publish topic name record headers = b
      rw [RetryBroker.publish, if_neg hc.1, if_neg hc.2]
  | now => rfl
  | statusRead requestId changes => rfl
  | statusPut requestId status => rfl
  | own c => rfl

theorem may_elsewhere {c : RunnerCall Rec R Own} (hc : Elsewhere topic c) {a : RunnerCall.Ans OwnAns c}
    (h : (retryEnv topic stores calm).may b c a) : stores.may c a := by
  cases c with
  | poll => cases hc
  | commit m => cases hc
  | publish name key record headers => trivial
  | now => exact h
  | statusRead requestId changes => exact h
  | statusPut requestId status => exact h
  | own c => exact h

/-- A failing handler leaves the broker as it was. -/
theorem FailsWith.always {β : Type} {failure : β} {inv : RetryBroker → Prop} (hinv : inv b) :
    ∀ {p : RunnerProg Rec R OwnAns β}, FailsWith topic stores failure p →
      Always (retryEnv topic stores calm) inv b p fun b' a => b' = b ∧ a = failure
  | .ret a, h => ⟨hinv, rfl, h⟩
  | .call c k, h => by
    refine ⟨hinv, fun a ha => ?_⟩
    change Always _ inv (b.after topic c a) (k a) _
    rw [after_elsewhere h.1]
    exact FailsWith.always hinv (h.2 a (may_elsewhere h.1 ha))

theorem always_safeUpdate {requestId : R} {changes : StatusChanges} {inv : RetryBroker → Prop}
    {post : RetryBroker → Unit → Prop} (hinv : inv b) (hpost : post b ()) :
    Always (retryEnv topic stores calm) inv b (safeUpdate requestId changes : RunnerProg Rec R OwnAns Unit) post := by
  unfold safeUpdate
  refine ⟨hinv, fun a _ => ?_⟩
  cases a with
  | error e => exact ⟨hinv, hpost⟩
  | ok entry =>
    cases entry with
    | none => exact ⟨hinv, hpost⟩
    | some existing => exact ⟨hinv, fun _ _ => ⟨hinv, hpost⟩⟩

theorem always_publish {inv : RetryBroker → Prop} {α : Type} {post : RetryBroker → α → Prop} {name key : String}
    {record : Rec} {headers : Headers} {f : Except PyErr Unit → RunnerProg Rec R OwnAns α} (hinv : inv b)
    (hrefused : calm = false → ∀ e, Always (retryEnv topic stores calm) inv b (f (.error e)) post)
    (hok : Always (retryEnv topic stores calm) inv
      (b.publish topic name record headers) (f (.ok ())) post) :
    Always (retryEnv topic stores calm) inv b (Runner.publish name key record headers >>= f) post := by
  rw [always_ask_bind]
  refine ⟨hinv, fun a ha => ?_⟩
  cases a with
  | ok u => exact hok
  | error e =>
    rcases ha with ha | ha
    · cases ha
    · exact hrefused ha e

theorem always_commitThen {inv : RetryBroker → Prop} {post : RetryBroker → Except PyErr ProcessResult → Prop}
    {m : ConsumedMessage} {rest : RunnerProg Rec R OwnAns (Except PyErr ProcessResult)} (hinv : inv b)
    (hrest : Always (retryEnv topic stores calm) inv { b with committed := m.offset + 1, pending := false } rest post) :
    Always (retryEnv topic stores calm) inv b (commitThen m rest) post := by
  unfold commitThen
  rw [always_ask_bind]
  refine ⟨hinv, fun a ha => ?_⟩
  cases ha
  exact hrest

end

end ClearFeature
