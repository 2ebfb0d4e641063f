import ClearFeature.Delivery
import ClearFeature.MetadataWriter
import ClearFeature.ModelScores
import ClearFeature.NoSkip

/-!
# Score writer and metadata writer (`api/model_score_writer_runner.py`, `api/metadata_writer_runner.py`)

Neither retries with an attempt count: what can never succeed is dead-lettered,
everything else stays uncommitted and comes again.
-/

namespace ClearFeature

open Prog Runner Partition
open Wire (ModelScoreWriteRequested)

/-! ## What the two runners share -/

/-- The statuses of the other runners, and two more. -/
inductive WriterProcessStatus where
  | of (status : ProcessStatus)
  | unexpectedError
  | storeFailed
  deriving DecidableEq

structure WriterProcessResult where
  status : WriterProcessStatus
  eventType : Value := .null
  committed : Bool := false
  error : Option String := none

section
variable {Rec R Own : Type} {OwnAns : Own → Type}

/-- `_dead_letter`, which reports the event type if there is one. -/
def writerDeadLetter (topic stage : String) (dlq : DeadLetterEvent → Rec) (message : ConsumedMessage)
    (failureStatus : String) (eventType : Value) (error : Option String) :
    RunnerProg Rec R OwnAns (Except PyErr WriterProcessResult) := do
  match ← deadLetter topic stage dlq message failureStatus error with
  | .error e => return .error e
  | .ok result => return .ok ⟨.of result.status, eventType, result.committed, result.error⟩

/-- `consumer.commit(message)` and the result after it. -/
def writerCommit (message : ConsumedMessage) (result : WriterProcessResult) :
    RunnerProg Rec R OwnAns (Except PyErr WriterProcessResult) := do
  match ← commit message with
  | .error e => return .error e
  | .ok () => return .ok result

end

/-! ## The score writer -/

inductive ScoreRecord where
  | offlineWrite (event : Wire.FeatureOfflineWriteRequested)
  | dlq (event : DeadLetterEvent)

/-- `write_many` of the results of a write set. -/
inductive ScoreOwn where
  | writeOnline (writeSet : Wire.FeatureWriteSet)

abbrev ScoreOwn.Ans : ScoreOwn → Type
  | .writeOnline _ => Except PyErr (List (String × WriteOutcome))

inductive ScoreWriterStatus where
  | ok
  | invalidEvent
  | onlineWriteFailed
  | publishFailed
  deriving DecidableEq

structure ScoreWriterResult where
  status : ScoreWriterStatus
  scoreWriteId : Value
  onlineWritten : List (String × WriteOutcome) := []
  downstreamPublished : Bool := false
  error : Option String := none

namespace ModelScore

abbrev Program : Type → Type := RunnerProg ScoreRecord Unit ScoreOwn.Ans

section
variable (fromJson : Bytes → Except PyErr ModelScoreWriteRequested) (floatText : PyFloat → String) (registry : Registry)

def writeOnline (event : ModelScoreWriteRequested) (writeSet : Wire.FeatureWriteSet) :
    Program (Except PyErr (List (String × WriteOutcome))) :=
  if event.writeOnline.truthy then own (ScoreOwn.writeOnline writeSet) else return .ok []

def publishOffline (event : ModelScoreWriteRequested) (writeSet : Wire.FeatureWriteSet) : Program (Except PyErr Unit) :=
  if event.writeOffline.truthy then do
    let t ← now
    publish featureWriteOffline writeSet.entityKey.encode (.offlineWrite (offlineWriteOf event writeSet t))
  else return .ok ()

/-- `handle_model_score_write`: only some errors of the first part are caught. -/
def handleModelScoreWrite (event : ModelScoreWriteRequested) : Program (Except PyErr ScoreWriterResult) :=
  match scoreWriteSet floatText registry event with
  | .error e =>
    if e.isDeterministic then
      return .ok { status := .invalidEvent, scoreWriteId := event.scoreWriteId, error := some e.msg }
    else return .error e
  | .ok writeSet => do
    match ← writeOnline event writeSet with
    | .error e =>
      return .ok { status := .onlineWriteFailed, scoreWriteId := event.scoreWriteId, error := some e.msg }
    | .ok onlineWritten =>
      match ← publishOffline event writeSet with
      | .error e =>
        return .ok { status := .publishFailed, scoreWriteId := event.scoreWriteId, onlineWritten, error := some e.msg }
      | .ok () =>
        return .ok { status := .ok, scoreWriteId := event.scoreWriteId, onlineWritten
                     downstreamPublished := event.writeOffline.truthy }

def deadLetter (message : ConsumedMessage) (failureStatus : String) (error : Option String) :
    Program (Except PyErr WriterProcessResult) :=
  writerDeadLetter modelScoreWrite "model_score_writer" .dlq message failureStatus .null error

def processEvent (message : ConsumedMessage) (event : ModelScoreWriteRequested) :
    Program (Except PyErr WriterProcessResult) := do
  match ← handleModelScoreWrite floatText registry event with
  | .error e => return .ok { status := .unexpectedError, error := some e.msg }
  | .ok result =>
    match result.status with
    | .ok => writerCommit message { status := .of .ok, committed := true }
    | .invalidEvent => deadLetter message "invalid_event" result.error
    | .onlineWriteFailed => return .ok { status := .of .onlineWriteFailed, error := result.error }
    | .publishFailed => return .ok { status := .of .publishFailed, error := result.error }

def processNext : Program (Except PyErr WriterProcessResult) := do
  match ← poll with
  | none => return .ok { status := .of .idle }
  | some message =>
    match message.error with
    | some e => return .ok { status := .of .consumeError, error := some e }
    | none =>
      match fromJson message.value with
      | .error e => deadLetter message "deserialization_failed" (some e.msg)
      | .ok event => processEvent floatText registry message event

end

end ModelScore

/-! ## The metadata writer -/

/-- `project_event` writes to the stores of the metadata. -/
inductive MetadataWriterOwn where
  | project (raw : Bytes)

abbrev MetadataWriterOwn.Ans : MetadataWriterOwn → Type
  | .project _ => Except PyErr ProjectionResult

namespace MetadataWriter

abbrev Program : Type → Type := RunnerProg DeadLetterEvent Value MetadataWriterOwn.Ans

/-- `_STRUCTURAL_STATUSES`, with their texts. -/
def structural? : ProjectionStatus → Option String
  | .structuralConflict => some "structural_conflict"
  | .deserializationFailed => some "deserialization_failed"
  | .unknownEventType => some "unknown_event_type"
  | .ok | .storeFailed => none

/-- `_TOPIC_BY_EVENT_TYPE.get(event_type, "unknown")` -/
def topicOf : Value → String
  | .str "feature_compute.requested" => featureComputeOnline
  | .str "feature_compute.completed" => featureComputeCompleted
  | .str "feature_write.offline.requested" => featureWriteOffline
  | .str "model_score.write.requested" => modelScoreWrite
  | .str "batch.chunk.requested" => featureComputeBatch
  | .str "batch.chunk.processed" => batchJobEvents
  | .str "event.dlq" => dlqTopic
  | _ => "unknown"

/-- `_mark_metadata_written`: failures are swallowed, and what is written stays. -/
def markMetadataWritten (requestId : Value) : Program Unit := do
  match ← statusRead requestId {} with
  | .error _ | .ok none => return ()
  | .ok (some current) =>
    if current.metadataWriteStatus = some "written" then return ()
    else
      let _ ← statusPut requestId { current with metadataWriteStatus := some "written" }
      return ()

def finishOk (hasStatusStore : Bool) (message : ConsumedMessage) (result : ProjectionResult) :
    Program (Except PyErr WriterProcessResult) := do
  if hasStatusStore ∧ result.requestId.truthy ∧ result.eventType.pyEq (.str "feature_compute.completed") then
    markMetadataWritten result.requestId
  writerCommit message { status := .of .ok, eventType := result.eventType, committed := true, error := result.error }

def processResult (hasStatusStore : Bool) (message : ConsumedMessage) (result : ProjectionResult) :
    Program (Except PyErr WriterProcessResult) :=
  match result.status with
  | .storeFailed => return .ok { status := .storeFailed, eventType := result.eventType, error := result.error }
  | status =>
    match structural? status with
    | some failureStatus =>
      writerDeadLetter (topicOf result.eventType) "metadata_writer" id message failureStatus result.eventType result.error
    | none => finishOk hasStatusStore message result

/-- What `project_event` raises is not caught. -/
def processNext (hasStatusStore : Bool) : Program (Except PyErr WriterProcessResult) := do
  match ← poll with
  | none => return .ok { status := .of .idle }
  | some message =>
    match message.error with
    | some e => return .ok { status := .of .consumeError, error := some e }
    | none =>
      match ← own (MetadataWriterOwn.project message.value) with
      | .error e => return .error e
      | .ok result => processResult hasStatusStore message result

end MetadataWriter

/-! ## When a message may be committed -/

inductive ScoreEffect where
  | published (sent : Sent ScoreRecord)
  | onlineWritten (writeSet : Wire.FeatureWriteSet)

def scoreEffects : Effects ScoreRecord ScoreOwn ScoreEffect ScoreOwn.Ans where
  published := .published
  achieved := fun
    | .writeOnline writeSet, .ok _ => .one (.onlineWritten writeSet)
    | .writeOnline _, .error _ => .none

inductive MetadataEffect where
  | published (sent : Sent DeadLetterEvent)
  | answered (raw : Bytes) (result : ProjectionResult)

def metadataEffects : Effects DeadLetterEvent MetadataWriterOwn MetadataEffect MetadataWriterOwn.Ans where
  published := .published
  achieved := fun
    | .project raw, .ok result => .one (.answered raw result)
    | .project _, .error _ => .none

section
variable (fromJson : Bytes → Except PyErr ModelScoreWriteRequested) (floatText : PyFloat → String) (registry : Registry)

/-- A message that no writer with this registry can ever write. -/
def Unwritable (raw : Bytes) : Prop :=
  (∃ e, fromJson raw = .error e) ∨
    ∃ event e, fromJson raw = .ok event ∧ scoreWriteSet floatText registry event = .error e ∧ e.isDeterministic = true

/-- The scores are written where the message asks for it; or they can never be, and the message is a dead letter. -/
def scoreOutcome : Outcome ScoreEffect := fun has m =>
  (Unwritable fromJson floatText registry m.value ∧
    DeadLettered .dlq modelScoreWrite "model_score_writer" (fun p => has (.published p)) m) ∨
    ∃ event writeSet, fromJson m.value = .ok event ∧ scoreWriteSet floatText registry event = .ok writeSet ∧
      (event.writeOnline.truthy = true → has (.onlineWritten writeSet)) ∧
      (event.writeOffline.truthy = true → ∃ t, has (.published
        ⟨featureWriteOffline, writeSet.entityKey.encode, .offlineWrite (offlineWriteOf event writeSet t), []⟩))

/-- The message is projected; or its projection was refused for good, and it is a dead letter that says why. -/
def metadataOutcome : Outcome MetadataEffect := fun has m =>
  ∃ result, has (.answered m.value result) ∧
    (result.status = .ok ∨ ∃ failureStatus, MetadataWriter.structural? result.status = some failureStatus ∧
      DeadLettered (fun letter => letter) (MetadataWriter.topicOf result.eventType) "metadata_writer"
        (fun p => has (.published p) ∧ p.record.failureStatus = failureStatus) m)

theorem scoreOutcome_mono : (scoreOutcome fromJson floatText registry).Mono := by
  intro has has' m hle ho
  rcases ho with ⟨hun, h⟩ | ⟨event, writeSet, hj, hw, honline, hoffline⟩
  · exact .inl ⟨hun, h.mono fun _ => hle _⟩
  · refine .inr ⟨event, writeSet, hj, hw, fun h => hle _ (honline h), fun h => ?_⟩
    obtain ⟨t, ht⟩ := hoffline h
    exact ⟨t, hle _ ht⟩

theorem metadataOutcome_mono : metadataOutcome.Mono := by
  intro has has' m hle ho
  obtain ⟨result, h, hok | ⟨status, hstatus, hl⟩⟩ := ho
  · exact ⟨result, hle _ h, .inl hok⟩
  · exact ⟨result, hle _ h, .inr ⟨status, hstatus, hl.mono fun _ hp => ⟨hle _ hp.1, hp.2⟩⟩⟩

end

section
variable {Rec R Own Eff : Type} {OwnAns : Own → Type} {eff : Effects Rec Own Eff OwnAns} {outcome : Outcome Eff}
  {l : Ledger Eff} {m : ConsumedMessage} {ms : List ConsumedMessage}

theorem wp_writerCommit {result : WriterProcessResult} (hp : l.polled = m :: ms) (ho : outcome (l.Has m) m) :
    wp (commitMonitor R eff outcome) l (writerCommit m result) fun _ _ => True := by
  unfold writerCommit
  rw [wp_commit]
  refine ⟨⟨?_, ho⟩, fun a => ?_⟩
  · rw [hp]
    exact List.mem_cons_self
  · cases a <;> trivial

theorem wp_writerDeadLetter {topic stage : String} {dlq : DeadLetterEvent → Rec} {status : String} {eventType : Value}
    {error : Option String} (hp : l.polled = m :: ms)
    (ho : ∀ has : Eff → Prop, (∀ e, l.Has m e → has e) →
      has (eff.published ⟨dlqTopic, topic, dlq ⟨topic, stage, status, error, m.value, none, none⟩, []⟩) → outcome has m) :
    wp (commitMonitor R eff outcome) l (writerDeadLetter topic stage dlq m status eventType error) fun _ _ => True := by
  unfold writerDeadLetter
  rw [wp_bind]
  refine wp_mono (fun l' r _ => ?_) (wp_deadLetter hp ho)
  cases r <;> trivial

end

/-! ## The score writer commits what is done -/

section
variable (fromJson : Bytes → Except PyErr ModelScoreWriteRequested) (floatText : PyFloat → String) (registry : Registry)

theorem wp_scoreOnline {l : Ledger ScoreEffect} {outcome : Outcome ScoreEffect} (event : ModelScoreWriteRequested)
    (writeSet : Wire.FeatureWriteSet) :
    wp (commitMonitor Unit scoreEffects outcome) l (ModelScore.writeOnline event writeSet) fun l' r =>
      l.Extends l' ∧ ∀ m ms written, l.polled = m :: ms → r = .ok written → event.writeOnline.truthy = true →
        l'.Has m (.onlineWritten writeSet) := by
  unfold ModelScore.writeOnline
  by_cases h : event.writeOnline.truthy = true
  · rw [if_pos h]
    refine ⟨fun m hm => (nomatch hm), fun a => ?_⟩
    cases a with
    | error e => exact ⟨.refl l, fun m ms written _ hr => (nomatch hr)⟩
    | ok written => exact ⟨l.extends_credit _, fun m ms _ hp _ _ => Ledger.has_credit_head hp _⟩
  · rw [if_neg h]
    exact ⟨.refl l, fun m ms written _ _ h' => absurd h' h⟩

theorem wp_scoreOffline {l : Ledger ScoreEffect} {outcome : Outcome ScoreEffect} (event : ModelScoreWriteRequested)
    (writeSet : Wire.FeatureWriteSet) :
    wp (commitMonitor Unit scoreEffects outcome) l (ModelScore.publishOffline event writeSet) fun l' r =>
      l.Extends l' ∧ ∀ m ms, l.polled = m :: ms → r = .ok () → event.writeOffline.truthy = true →
        ∃ t, l'.Has m (.published
          ⟨featureWriteOffline, writeSet.entityKey.encode, .offlineWrite (offlineWriteOf event writeSet t), []⟩) := by
  unfold ModelScore.publishOffline
  by_cases h : event.writeOffline.truthy = true
  · rw [if_pos h, wp_now]
    intro t
    refine ⟨fun m hm => (nomatch hm), fun a => ?_⟩
    cases a with
    | error e => exact ⟨.refl l, fun m ms _ hr => (nomatch hr)⟩
    | ok u => exact ⟨l.extends_credit _, fun m ms hp _ _ => ⟨t, Ledger.has_credit_head hp _⟩⟩
  · rw [if_neg h]
    exact ⟨.refl l, fun m ms _ _ h' => absurd h' h⟩

/-- What the handler has done when it reports: everything for `ok`, and for `invalid_event` the message is unwritable. -/
theorem wp_handleModelScoreWrite {l : Ledger ScoreEffect} {m : ConsumedMessage} {ms : List ConsumedMessage}
    {outcome : Outcome ScoreEffect} (hp : l.polled = m :: ms) {event : ModelScoreWriteRequested}
    (hj : fromJson m.value = .ok event) :
    wp (commitMonitor Unit scoreEffects outcome) l (ModelScore.handleModelScoreWrite floatText registry event) fun l' r =>
      l'.polled = m :: ms ∧ ∀ result, r = .ok result →
        (result.status = .ok → scoreOutcome fromJson floatText registry (l'.Has m) m) ∧
        (result.status = .invalidEvent → Unwritable fromJson floatText registry m.value) := by
  unfold ModelScore.handleModelScoreWrite
  cases hw : scoreWriteSet floatText registry event with
  | error e =>
    dsimp only
    by_cases he : e.isDeterministic = true
    · rw [if_pos he]
      refine ⟨hp, fun result hr => ?_⟩
      cases hr
      exact ⟨fun h => (nomatch h), fun _ => .inr ⟨event, e, hj, hw, he⟩⟩
    · rw [if_neg he]
      exact ⟨hp, fun result hr => (nomatch hr)⟩
  | ok writeSet =>
    dsimp only
    rw [wp_bind]
    refine wp_mono (fun l₁ r h₁ => ?_) (wp_scoreOnline event writeSet)
    have hp₁ := h₁.1.polled.trans hp
    cases r with
    | error e =>
      refine ⟨hp₁, fun result hr => ?_⟩
      cases hr
      exact ⟨fun h => (nomatch h), fun h => (nomatch h)⟩
    | ok written =>
      dsimp only
      rw [wp_bind]
      refine wp_mono (fun l₂ r h₂ => ?_) (wp_scoreOffline event writeSet)
      have hp₂ := h₂.1.polled.trans hp₁
      cases r with
      | error e =>
        refine ⟨hp₂, fun result hr => ?_⟩
        cases hr
        exact ⟨fun h => (nomatch h), fun h => (nomatch h)⟩
      | ok u =>
        refine ⟨hp₂, fun result hr => ?_⟩
        cases hr
        refine ⟨fun _ => .inr ⟨event, writeSet, hj, hw, fun h => ?_, fun h => ?_⟩, fun h => (nomatch h)⟩
        · exact h₂.1.has _ _ (h₁.2 m ms written hp rfl h)
        · exact h₂.2 m ms hp₁ rfl h

theorem score_covered (l : Ledger ScoreEffect) :
    wp (commitMonitor Unit scoreEffects (scoreOutcome fromJson floatText registry)) l
      (ModelScore.processNext fromJson floatText registry) fun _ _ => True := by
  unfold ModelScore.processNext
  rw [wp_poll]
  refine ⟨trivial, fun m => ?_⟩
  dsimp only
  cases m.error with
  | some e => trivial
  | none =>
    dsimp only
    have hdead : ∀ {l' : Ledger ScoreEffect} {status : String} {error : Option String}, l'.polled = m :: l.polled →
        Unwritable fromJson floatText registry m.value →
        wp (commitMonitor Unit scoreEffects (scoreOutcome fromJson floatText registry)) l'
          (ModelScore.deadLetter m status error) fun _ _ => True := by
      intro l' status error hp hun
      exact wp_writerDeadLetter hp fun has _ h => .inl ⟨hun, _, h, rfl, rfl, rfl⟩
    cases hj : fromJson m.value with
    | error e => exact hdead rfl (.inl ⟨e, hj⟩)
    | ok event =>
      dsimp only
      unfold ModelScore.processEvent
      rw [wp_bind]
      refine wp_mono (fun l' r h => ?_)
        (wp_handleModelScoreWrite fromJson floatText registry (rfl : _ = m :: l.polled) hj)
      cases r with
      | error e => trivial
      | ok result =>
        obtain ⟨hok, hinvalid⟩ := h.2 result rfl
        dsimp only
        cases hstatus : result.status with
        | ok => exact wp_writerCommit h.1 (hok hstatus)
        | invalidEvent => exact hdead h.1 (hinvalid hstatus)
        | onlineWriteFailed => trivial
        | publishFailed => trivial

end

/-! ## The metadata writer commits what is done -/

theorem wp_markMetadataWritten {l : Ledger MetadataEffect} {outcome : Outcome MetadataEffect} (requestId : Value) :
    wp (commitMonitor Value metadataEffects outcome) l (MetadataWriter.markMetadataWritten requestId) fun l' _ => l' = l := by
  unfold MetadataWriter.markMetadataWritten
  rw [wp_ask_bind]
  refine ⟨fun m hm => (nomatch hm), fun a => ?_⟩
  cases a with
  | error e => exact (rfl : l = l)
  | ok current =>
    cases current with
    | none => exact (rfl : l = l)
    | some current =>
      dsimp only
      by_cases h : current.metadataWriteStatus = some "written"
      · rw [if_pos h]
        exact (rfl : l = l)
      · rw [if_neg h]
        exact ⟨fun m hm => (nomatch hm), fun _ => rfl⟩

theorem wp_finishOk {l : Ledger MetadataEffect} {m : ConsumedMessage} {ms : List ConsumedMessage}
    {outcome : Outcome MetadataEffect} (hp : l.polled = m :: ms) (ho : outcome (l.Has m) m) (hasStatusStore : Bool)
    (result : ProjectionResult) :
    wp (commitMonitor Value metadataEffects outcome) l (MetadataWriter.finishOk hasStatusStore m result)
      fun _ _ => True := by
  unfold MetadataWriter.finishOk
  dsimp only
  split
  · rw [wp_bind]
    refine wp_mono (fun l' r h => ?_) (wp_markMetadataWritten result.requestId)
    rw [h]
    exact wp_writerCommit hp ho
  · exact wp_writerCommit hp ho

theorem wp_processResult {l : Ledger MetadataEffect} {m : ConsumedMessage} {ms : List ConsumedMessage}
    (hp : l.polled = m :: ms) (hasStatusStore : Bool) {result : ProjectionResult}
    (ha : l.Has m (.answered m.value result)) :
    wp (commitMonitor Value metadataEffects metadataOutcome) l (MetadataWriter.processResult hasStatusStore m result)
      fun _ _ => True := by
  have hdead : ∀ {status : String}, MetadataWriter.structural? result.status = some status →
      wp (commitMonitor Value metadataEffects metadataOutcome) l (writerDeadLetter (MetadataWriter.topicOf result.eventType)
        "metadata_writer" id m status result.eventType result.error) fun _ _ => True := by
    intro status hstatus
    exact wp_writerDeadLetter hp fun has hle h => ⟨result, hle _ ha, .inr ⟨status, hstatus, _, ⟨h, rfl⟩, rfl, rfl, rfl⟩⟩
  unfold MetadataWriter.processResult
  cases hs : result.status with
  | ok => exact wp_finishOk hp ⟨result, ha, .inl hs⟩ hasStatusStore result
  | unknownEventType => exact hdead (by rw [hs]; rfl)
  | deserializationFailed => exact hdead (by rw [hs]; rfl)
  | structuralConflict => exact hdead (by rw [hs]; rfl)
  | storeFailed => trivial

theorem metadata_covered (hasStatusStore : Bool) (l : Ledger MetadataEffect) :
    wp (commitMonitor Value metadataEffects metadataOutcome) l (MetadataWriter.processNext hasStatusStore)
      fun _ _ => True := by
  unfold MetadataWriter.processNext
  rw [wp_poll]
  refine ⟨trivial, fun m => ?_⟩
  dsimp only
  cases m.error with
  | some e => trivial
  | none =>
    dsimp only
    rw [wp_own]
    intro a
    cases a with
    | error e => trivial
    | ok result =>
      have ha : (({ l with polled := m :: l.polled, recent := [] } : Ledger MetadataEffect).credit
          (.answered m.value result)).Has m (.answered m.value result) := Ledger.has_credit_head (by exact rfl) _
      exact wp_processResult (by exact rfl) hasStatusStore ha

/-- Below the committed offset the scores of every message are written, or can never be and are dead-lettered; and every
message of the metadata writer is projected, or refused for good and dead-lettered. For every wire format and registry, in
every run whose commits are in order. -/
theorem writers_skip_none (fromJson : Bytes → Except PyErr ModelScoreWriteRequested) (floatText : PyFloat → String)
    (registry : Registry) (hasStatusStore : Bool) :
    NoneSkipped scoreEffects (scoreOutcome fromJson floatText registry)
      (fun _ => ModelScore.processNext fromJson floatText registry) ∧
    NoneSkipped metadataEffects metadataOutcome fun _ => MetadataWriter.processNext hasStatusStore := by
  constructor
  · intro actions
    exact none_skipped (scoreOutcome_mono fromJson floatText registry)
      (fun _ => score_covered fromJson floatText registry) actions
  · intro actions
    exact none_skipped metadataOutcome_mono (fun _ => metadata_covered hasStatusStore) actions

/-! ## A message that is written and one that is not -/

def oneScoreWrite (raw : Bytes) : Except PyErr ModelScoreWriteRequested :=
  if raw = asciiBytes "scores" then .ok (riskScores.event newYear).normal
  else .error (.valueError "Expecting value: line 1 column 1 (char 0)")

abbrev ScoreAction : Type := SessionAction ScoreRecord Unit ScoreOwn ScoreOwn.Ans

def scoreAnswers : (c : RunnerCall ScoreRecord Unit ScoreOwn) → RunnerCall.Ans ScoreOwn.Ans c
  | .poll => none
  | .now => newYear
  | .commit _ | .publish _ _ _ _ | .statusPut _ _ => .ok ()
  | .statusRead _ _ => .ok none
  | .own (.writeOnline _) => .ok [("score:v1", .written)]

def scoreStep : Partition ScoreRecord Unit ScoreOwn ScoreEffect ScoreOwn.Ans WriterProcessResult → ScoreAction →
    Partition ScoreRecord Unit ScoreOwn ScoreEffect ScoreOwn.Ans WriterProcessResult :=
  step scoreEffects fun _ => ModelScore.processNext oneScoreWrite (fun _ => "") (userRegistry scoreView)

/-- Scores that are written, and a message that is not JSON. -/
def scoreCommits : List ScoreAction :=
  [.produce { value := asciiBytes "scores" }, .produce { value := asciiBytes "x" }] ++
  .startRound 1 :: List.replicate 5 (.advance true scoreAnswers) ++
  .startRound 1 :: List.replicate 3 (.advance true scoreAnswers)

abbrev MetadataAction : Type := SessionAction DeadLetterEvent Value MetadataWriterOwn MetadataWriterOwn.Ans

def metadataAnswers : (c : RunnerCall DeadLetterEvent Value MetadataWriterOwn) → RunnerCall.Ans MetadataWriterOwn.Ans c
  | .poll => none
  | .now => newYear
  | .commit _ | .publish _ _ _ _ | .statusPut _ _ => .ok ()
  | .statusRead _ _ => .ok none
  | .own (.project raw) => .ok (if raw = asciiBytes "{}" then ⟨.unknownEventType, .null, .null, some "None"⟩
      else ⟨.ok, .str "feature_compute.requested", .str "freq_1", none⟩)

def metadataStep : Partition DeadLetterEvent Value MetadataWriterOwn MetadataEffect MetadataWriterOwn.Ans WriterProcessResult →
    MetadataAction →
    Partition DeadLetterEvent Value MetadataWriterOwn MetadataEffect MetadataWriterOwn.Ans WriterProcessResult :=
  step metadataEffects fun _ => MetadataWriter.processNext true

def metadataCommits : List MetadataAction :=
  [.produce { value := asciiBytes "requested" }, .produce { value := asciiBytes "{}" }] ++
  .startRound 1 :: List.replicate 3 (.advance true metadataAnswers) ++
  .startRound 1 :: List.replicate 4 (.advance true metadataAnswers)

theorem writers_skip_none_mixed :
    (Runs.run scoreStep {} scoreCommits).committed = 2 ∧ (Runs.run metadataStep {} metadataCommits).committed = 2 ∧
    (∀ offset < 2, ∃ m, (Runs.run scoreStep {} scoreCommits).messageAt offset = some m ∧
      scoreOutcome oneScoreWrite (fun _ => "") (userRegistry scoreView)
        ((Runs.run scoreStep {} scoreCommits).ledger.Has m) m) ∧
    ∀ offset < 2, ∃ m, (Runs.run metadataStep {} metadataCommits).messageAt offset = some m ∧
      metadataOutcome ((Runs.run metadataStep {} metadataCommits).ledger.Has m) m := by
  have hscore : (Runs.run scoreStep {} scoreCommits).committed = 2 := by
    decide +kernel
  have hmetadata : (Runs.run metadataStep {} metadataCommits).committed = 2 := by
    decide +kernel
  obtain ⟨h₁, h₂⟩ := writers_skip_none oneScoreWrite (fun _ => "") (userRegistry scoreView) true
  refine ⟨hscore, hmetadata, fun offset h => ?_, fun offset h => ?_⟩
  · have hlt : offset < (Runs.run scoreStep {} scoreCommits).committed := by
      rw [hscore]
      exact h
    have hs : Runs.Steady scoreStep InOrder {} scoreCommits := by
      decide +kernel
    exact h₁ scoreCommits hs scoreCommits (List.prefix_refl _) offset hlt
  · have hlt : offset < (Runs.run metadataStep {} metadataCommits).committed := by
      rw [hmetadata]
      exact h
    have hs : Runs.Steady metadataStep InOrder {} metadataCommits := by
      decide +kernel
    exact h₂ metadataCommits hs metadataCommits (List.prefix_refl _) offset hlt

end ClearFeature
