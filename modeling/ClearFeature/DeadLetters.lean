import ClearFeature.BatchTable
import ClearFeature.WriterRunners

/-!
# Dead letters of the metadata writer (`api/dlq.py`, `api/metadata_writer_runner.py`)

The metadata writer reads the topic its dead letters go to. What it dead-lettered
itself it always can project, so that no dead letter makes another.
-/

namespace ClearFeature

/-! ## Building a dead letter -/

section
variable (codec : WireCodec) (b64encode : Bytes → String)

/-- `parsed.get(name)`, for a payload that is a dictionary. -/
def payloadField (raw : Bytes) (name : String) : Value :=
  match codec.loads raw with
  | .ok (.obj kvs) => (Dict.get? kvs name).getD .null
  | _ => .null

/-- `a or b` -/
def orElse (a b : Value) : Value := if a.truthy then a else b

/-- `build_dead_letter_event` -/
def buildDeadLetterEvent (letter : DeadLetterEvent) (now : Int) : Wire.DeadLetterEvent where
  sourceTopic := .str letter.sourceTopic
  failureStage := .str letter.failureStage
  failureStatus := .str letter.failureStatus
  error := optStr letter.error
  occurredAt := .aware now
  sourcePayloadB64 := .str (b64encode letter.sourcePayload)
  originalRequestId :=
    orElse (payloadField codec letter.sourcePayload "request_id") (payloadField codec letter.sourcePayload "score_write_id")
  originalJobId :=
    orElse (payloadField codec letter.sourcePayload "job_id") (payloadField codec letter.sourcePayload "batch_job_id")
  originalCorrelationId := payloadField codec letter.sourcePayload "correlation_id"
  attemptCount := optInt letter.attemptCount
  maxAttempts := optInt letter.maxAttempts
  originalEventType := payloadField codec letter.sourcePayload "event_type"
  eventType := .str "event.dlq"
  eventVersion := .int 1

/-- `json.loads` makes dictionaries, which have no key twice. -/
def WireCodec.Parses : Prop := ∀ raw v, codec.loads raw = .ok v → v.Proper

end

/-- The message on the topic of dead letters. -/
def DeadLetterEvent.toBytes (text : WireText) (b64encode : Bytes → String) (letter : DeadLetterEvent) (now : Int) : Bytes :=
  text.dumps (.obj ((buildDeadLetterEvent text.toWireCodec b64encode letter now).entries (.str (text.isoformat now))))

/-- A dead letter that makes no snapshot is audited. -/
theorem run_projectDlq {s : Stores} {t : Readings} {event : Wire.DeadLetterEvent} {now : Int} (ehash : String)
    (htime : event.occurredAt = .aware now) (hsnapshot : Writer.dlqSnapshot t event = none) :
    ∃ s', EStateM.run (Writer.projectDlq ehash t event) s = .ok event.originalRequestId s' := by
  refine ⟨{ s with requests := (s.requests.appendEvent
    { eventHash := ehash, eventType := event.eventType, occurredAt := now, createdAt := t.projected
      requestId := event.originalRequestId }).1 }, ?_⟩
  rw [Writer.projectDlq, htime, Writing.run_bind_of_ok (run_audit ehash _ _ now t.projected), hsnapshot]
  rfl

section
variable {text : WireText} (b64encode : Bytes → String) (letter : DeadLetterEvent) (now : Int)

theorem optStr_proper : ∀ o : Option String, (optStr o).Proper
  | none => trivial
  | some _ => trivial

theorem optInt_proper : ∀ o : Option Int, (optInt o).Proper
  | none => trivial
  | some _ => trivial

theorem orElse_proper {a b : Value} (ha : a.Proper) (hb : b.Proper) : (orElse a b).Proper := by
  unfold orElse
  split
  · exact ha
  · exact hb

variable (hparses : text.toWireCodec.Parses)
include hparses

theorem payloadField_proper (raw : Bytes) (name : String) : (payloadField text.toWireCodec raw name).Proper := by
  unfold payloadField
  split
  · rename_i kvs hraw
    cases hget : Dict.get? kvs name with
    | none => trivial
    | some v =>
      have hproper : Value.ProperFields kvs := (hparses _ _ hraw).2
      exact Value.properFields_iff.mp hproper _ (Dict.mem_of_get? hget)
  · trivial

theorem deadLetter_built : (buildDeadLetterEvent text.toWireCodec b64encode letter now).Built := by
  simp only [Wire.DeadLetterEvent.Built, Wire.DeadLetterEvent.fields, List.forall_mem_cons]
  simp [buildDeadLetterEvent, Value.Proper, optStr_proper, optInt_proper, orElse_proper, payloadField_proper hparses]

/-- A dead letter is decoded as what it was built from. -/
theorem deadLetter_decoded : decoded text.toWireCodec (letter.toBytes text b64encode now) =
    some (.dlq (buildDeadLetterEvent text.toWireCodec b64encode letter now).normal) := by
  have hwritten : (buildDeadLetterEvent text.toWireCodec b64encode letter now).toDict text =
      .ok (.obj ((buildDeadLetterEvent text.toWireCodec b64encode letter now).entries (.str (text.isoformat now)))) := rfl
  obtain ⟨hproper, hread⟩ := Wire.DeadLetterEvent.reads (deadLetter_built b64encode letter now hparses)
    (Wire.DeadLetterEvent.encodes hwritten)
  have htype : eventTypeOf ((Value.obj ((buildDeadLetterEvent text.toWireCodec b64encode letter now).entries
      (.str (text.isoformat now)))).normal false) = .str "event.dlq" := by
    rw [Value.normal, eventTypeOf, Value.get?_normal hproper.1]
    rfl
  unfold decoded DeadLetterEvent.toBytes
  rw [text.loads_dumps hproper]
  dsimp only
  rw [htype]
  have hhandler : handlerOf text.toWireCodec (.str "event.dlq") =
      some fun data => .dlq <$> Wire.DeadLetterEvent.fromDict text.toWireCodec data := rfl
  rw [hhandler]
  dsimp only
  rw [hread]
  rfl

/-- The writer's own dead letter is audited, whatever the stores hold. -/
theorem deadLetter_projected (hstage : letter.failureStage = "metadata_writer") (s : Stores) (t : Readings) :
    ∃ result, (projectEvent text.toWireCodec s (letter.toBytes text b64encode now) t).1 = .ok result ∧
      result.status = .ok := by
  obtain ⟨eventType, heq⟩ := projectEvent_eq s t (deadLetter_decoded b64encode letter now hparses)
  have hsnapshot : Writer.dlqSnapshot t (buildDeadLetterEvent text.toWireCodec b64encode letter now).normal = none := by
    unfold Writer.dlqSnapshot
    split
    · rfl
    · rw [if_pos]
      simp [Wire.DeadLetterEvent.normal, buildDeadLetterEvent, hstage]
  obtain ⟨s', hrun⟩ := run_projectDlq (s := s) (text.toWireCodec.sha256 (letter.toBytes text b64encode now)) rfl hsnapshot
  rw [heq, show MetadataEvent.project _ t (.dlq _) = Writer.projectDlq _ t _ from rfl, hrun]
  exact ⟨_, rfl, rfl⟩

end

/-! ## The writer and the topic it writes to -/

/-- The messages whose offset no commit has passed, each with whether it is a dead letter of this writer, and what has
happened so far: the messages that others sent, the dead letters published, the commits made and those that failed. -/
structure MetadataSite where
  stores : Stores := {}
  pending : List (Bytes × Bool) := []
  arrived : Nat := 0
  letters : Nat := 0
  handled : Nat := 0
  lost : Nat := 0

/-- How the clocks, the consumer, the broker and the stores behave in one turn. The poll answers any message that no
commit has passed: the consumer polls on past one it did not commit, and after a restart it begins with it again. A
commit passes the messages before its own in their partition too. The driver of the stores may refuse a row, with an
error of its own and whatever was written by then. -/
structure SiteEnv where
  readings : Readings
  now : Int
  acknowledged : Bool
  committed : Bool
  status : Except PyErr (Option RequestStatus)
  polled : Nat := 0
  consumeError : Option String := none
  passes : Nat → Bool := fun _ => false
  refusal : Option (String × Stores) := none

/-- What stays of the messages when the one at `polled` is committed. -/
def remaining (polled : Nat) (passes : Nat → Bool) (pending : List (Bytes × Bool)) : List (Bytes × Bool) :=
  ((pending.zipIdx.eraseIdx polled).filter fun p => !passes p.2).map Prod.fst

namespace MetadataSite

def publish (s : MetadataSite) (raw : Bytes) : MetadataSite :=
  { s with pending := s.pending ++ [(raw, true)], letters := s.letters + 1 }

def commit (s : MetadataSite) (env : SiteEnv) : MetadataSite :=
  if env.committed then
    { s with pending := remaining env.polled env.passes s.pending, handled := s.handled + 1 }
  else { s with lost := s.lost + 1 }

/-- `project_event` on the stores of the site, whose driver may refuse the row of a decoded event. -/
def project (codec : WireCodec) (env : SiteEnv) (stores : Stores) (raw : Bytes) : Except PyErr ProjectionResult × Stores :=
  match env.refusal, decoded codec raw with
  | some (error, stores'), some _ => (.ok { status := .storeFailed, error := some error }, stores')
  | _, _ => projectEvent codec stores raw env.readings

section
variable (text : WireText) (b64encode : Bytes → String) (hasStatusStore : Bool)

def service (env : SiteEnv) :
    Prog.Service (RunnerCall DeadLetterEvent Value MetadataWriterOwn) (RunnerCall.Ans MetadataWriterOwn.Ans)
      MetadataSite where
  act s
    | .publish _ _ letter _ => if env.acknowledged then s.publish (letter.toBytes text b64encode env.now) else s
    | .commit _ => s.commit env
    | .own (.project raw) => { s with stores := (project text.toWireCodec env s.stores raw).2 }
    | .poll | .now | .statusRead _ _ | .statusPut _ _ => s
  answer s
    | .poll => s.pending[env.polled]?.map fun p => { offset := env.polled, value := p.1, error := env.consumeError }
    | .now => env.now
    | .commit _ => if env.committed then .ok () else .error (.other "KafkaException" "commit failed")
    | .publish _ _ _ _ => if env.acknowledged then .ok () else .error (.other "RuntimeError" "Kafka delivery failed")
    | .statusRead _ _ => env.status
    | .statusPut _ _ => .ok ()
    | .own (.project raw) => (project text.toWireCodec env s.stores raw).1

inductive Action where
  | arrive (raw : Bytes)
  | turn (env : SiteEnv)

def step (s : MetadataSite) : Action → MetadataSite
  | .arrive raw => { s with pending := s.pending ++ [(raw, false)], arrived := s.arrived + 1 }
  | .turn env => (Prog.exec (service text b64encode env) s (MetadataWriter.processNext hasStatusStore)).1

/-- The waiting messages that are not dead letters of this writer. -/
def foreign (s : MetadataSite) : Nat := s.pending.countP fun p => !p.2

/-- Every dead letter of this writer was published for another message, or published again after a commit failed. -/
structure Inv (s : MetadataSite) : Prop where
  own : ∀ p ∈ s.pending, p.2 = true → ∃ letter : DeadLetterEvent, ∃ now, letter.failureStage = "metadata_writer" ∧
    p.1 = letter.toBytes text b64encode now
  letters : s.letters + s.foreign ≤ s.arrived + s.lost
  pending : s.handled + s.pending.length ≤ s.arrived + s.letters

end

/-! ## One turn -/

section
variable {text : WireText} {b64encode : Bytes → String} {hasStatusStore : Bool} {s : MetadataSite} {env : SiteEnv}
  {message : ConsumedMessage}

theorem exec_writerCommit (result : WriterProcessResult) :
    (Prog.exec (service text b64encode env) s (writerCommit message result)).1 = s.commit env := by
  unfold writerCommit
  rw [Prog.exec_ask_bind]
  cases h : env.committed <;> simp [service, h]

theorem exec_markMetadataWritten (requestId : Value) :
    (Prog.exec (service text b64encode env) s (MetadataWriter.markMetadataWritten requestId)).1 = s := by
  unfold MetadataWriter.markMetadataWritten
  rw [Prog.exec_ask_bind]
  cases h : env.status with
  | error e => simp [service, h]
  | ok current =>
    cases current with
    | none => simp [service, h]
    | some current =>
      by_cases hw : current.metadataWriteStatus = some "written"
      · simp [service, h, hw]
      · simp only [service, h, hw]
        rfl

theorem exec_finishOk (result : ProjectionResult) :
    (Prog.exec (service text b64encode env) s (MetadataWriter.finishOk hasStatusStore message result)).1 =
      s.commit env := by
  unfold MetadataWriter.finishOk
  dsimp only
  split
  · rw [Prog.exec_bind, exec_markMetadataWritten, exec_writerCommit]
  · exact exec_writerCommit _

theorem exec_writerDeadLetter {topic status : String} {eventType : Value} {error : Option String} :
    (Prog.exec (service text b64encode env) s
      (writerDeadLetter topic "metadata_writer" id message status eventType error)).1 =
      if env.acknowledged then
        (s.publish (DeadLetterEvent.toBytes text b64encode
          ⟨topic, "metadata_writer", status, error, message.value, none, none⟩ env.now)).commit env
      else s := by
  unfold writerDeadLetter Runner.deadLetter Runner.commitThen
  dsimp only
  rw [Prog.exec_bind, Prog.exec_ask_bind]
  cases ha : env.acknowledged with
  | false => simp [service, ha]
  | true =>
    cases hc : env.committed with
    | false => simp [service, ha, hc, Prog.exec_ask_bind]
    | true => simp [service, ha, hc, Prog.exec_ask_bind]

/-- The writer's own dead letter is projected, unless the driver of the stores refuses its row. -/
theorem deadLetter_settled (b64encode : Bytes → String) (hparses : text.toWireCodec.Parses) {letter : DeadLetterEvent}
    (hstage : letter.failureStage = "metadata_writer") (now : Int) (env : SiteEnv) (stores : Stores) :
    ∃ result, (project text.toWireCodec env stores (letter.toBytes text b64encode now)).1 = .ok result ∧
      result.status = if env.refusal = none then .ok else .storeFailed := by
  unfold project
  rw [deadLetter_decoded b64encode letter now hparses]
  cases hrefusal : env.refusal with
  | none => exact deadLetter_projected b64encode letter now hparses hstage stores env.readings
  | some refusal => exact ⟨_, rfl, by simp⟩

/-! ## What a turn keeps -/

theorem remaining_sublist (polled : Nat) (passes : Nat → Bool) (pending : List (Bytes × Bool)) :
    (remaining polled passes pending).Sublist (pending.eraseIdx polled) := by
  have h := (List.filter_sublist (p := fun p => !passes p.2) (l := pending.zipIdx.eraseIdx polled)).map Prod.fst
  rwa [← List.eraseIdx_map, List.zipIdx_map_fst] at h

/-- A commit passes the message at `polled`, or is lost. -/
theorem commit_counts {p : Bytes × Bool} (hp : s.pending[env.polled]? = some p) :
    (∀ q ∈ (s.commit env).pending, q ∈ s.pending) ∧
      (s.commit env).foreign + s.lost + (if p.2 then 0 else 1) ≤ s.foreign + (s.commit env).lost ∧
      (s.commit env).handled + (s.commit env).pending.length ≤ s.handled + s.pending.length := by
  unfold commit
  by_cases hc : env.committed = true
  · rw [if_pos hc]
    obtain ⟨hlt, rfl⟩ := List.getElem?_eq_some_iff.mp hp
    have hsub := remaining_sublist env.polled env.passes s.pending
    have hperm := List.getElem_cons_eraseIdx_perm hlt
    have hlength := hsub.length_le
    have herased := List.length_eraseIdx_add_one hlt
    have hforeign := hsub.countP_le (p := fun p => !p.2)
    have hcount := hperm.countP_eq (fun p => !p.2)
    rw [List.countP_cons] at hcount
    refine ⟨fun q hq => (List.eraseIdx_sublist _ _).subset (hsub.subset hq), ?_, ?_⟩
    · simp only [foreign]
      cases hown : (s.pending[env.polled]).2 with
      | true =>
        simp [hown] at hcount ⊢
        omega
      | false =>
        simp [hown] at hcount ⊢
        omega
    · dsimp only
      omega
  · rw [if_neg hc]
    refine ⟨fun q hq => hq, ?_, Nat.le_refl _⟩
    simp only [foreign]
    split <;> omega

theorem Inv.withStores (h : s.Inv text b64encode) (stores : Stores) : Inv text b64encode { s with stores } :=
  ⟨h.own, h.letters, h.pending⟩

theorem commit_arrived (s : MetadataSite) (env : SiteEnv) :
    (s.commit env).arrived = s.arrived ∧ (s.commit env).letters = s.letters := by
  unfold commit
  split <;> exact ⟨rfl, rfl⟩

theorem Inv.commit (h : s.Inv text b64encode) {p : Bytes × Bool} (hp : s.pending[env.polled]? = some p) :
    Inv text b64encode (s.commit env) := by
  obtain ⟨hmem, hforeign, hpending⟩ := commit_counts hp
  obtain ⟨harrived, hletters⟩ := commit_arrived s env
  have hl := h.letters
  have hq := h.pending
  refine ⟨fun q hq' => h.own q (hmem q hq'), ?_, ?_⟩
  · omega
  · omega

/-- A dead letter is published for a message of others, and then that message is committed or the commit is lost. -/
theorem Inv.deadLetter (h : s.Inv text b64encode) {p : Bytes × Bool} (hp : s.pending[env.polled]? = some p)
    (hforeign : p.2 = false) (letter : DeadLetterEvent) (hstage : letter.failureStage = "metadata_writer") (now : Int) :
    Inv text b64encode ((s.publish (letter.toBytes text b64encode now)).commit env) := by
  have hp' : (s.publish (letter.toBytes text b64encode now)).pending[env.polled]? = some p := by
    obtain ⟨hlt, -⟩ := List.getElem?_eq_some_iff.mp hp
    rw [publish, List.getElem?_append_left hlt]
    exact hp
  obtain ⟨hmem, hcommit, hpending⟩ := commit_counts hp'
  obtain ⟨harrived, hletters⟩ := commit_arrived (s.publish (letter.toBytes text b64encode now)) env
  have hl := h.letters
  have hq := h.pending
  rw [hforeign] at hcommit
  simp only [publish, foreign, List.countP_append, List.length_append] at hmem hcommit hpending harrived hletters hl
  simp at hcommit hpending
  refine ⟨?_, ?_, ?_⟩
  · intro q hq' hown
    rcases List.mem_append.mp (hmem q hq') with hq' | hq'
    · exact h.own q hq' hown
    · rw [List.mem_singleton.mp hq']
      exact ⟨letter, now, hstage, rfl⟩
  · simp only [publish, foreign]
    omega
  · simp only [publish]
    omega

theorem Inv.turn (hparses : text.toWireCodec.Parses) (h : s.Inv text b64encode) :
    Inv text b64encode (Prog.exec (service text b64encode env) s (MetadataWriter.processNext hasStatusStore)).1 := by
  unfold MetadataWriter.processNext
  rw [Prog.exec_ask_bind]
  cases hp : s.pending[env.polled]? with
  | none => simpa [service, hp] using h
  | some p =>
    have hpoll : (service text b64encode env).answer s RunnerCall.poll =
        some { offset := env.polled, value := p.1, error := env.consumeError } := by
      simp [service, hp]
    have hstores := h.withStores (project text.toWireCodec env s.stores p.1).2
    rw [hpoll]
    dsimp only
    cases env.consumeError with
    | some error => exact h
    | none =>
      dsimp only
      rw [Prog.exec_ask_bind]
      have hact : (service text b64encode env).act ((service text b64encode env).act s RunnerCall.poll)
          (RunnerCall.own (MetadataWriterOwn.project p.1)) =
            { s with stores := (project text.toWireCodec env s.stores p.1).2 } := rfl
      have hanswer : (service text b64encode env).answer ((service text b64encode env).act s RunnerCall.poll)
          (RunnerCall.own (MetadataWriterOwn.project p.1)) = (project text.toWireCodec env s.stores p.1).1 := rfl
      rw [hact, hanswer]
      cases hr : (project text.toWireCodec env s.stores p.1).1 with
      | error e => exact hstores
      | ok result =>
        dsimp only
        have hdead : ∀ {topic status : String} {eventType : Value} {error : Option String}, result.status ≠ .ok →
            result.status ≠ .storeFailed → Inv text b64encode (Prog.exec (service text b64encode env)
              { s with stores := (project text.toWireCodec env s.stores p.1).2 }
              (writerDeadLetter topic "metadata_writer" id { offset := env.polled, value := p.1 } status eventType error)).1 := by
          intro topic status eventType error hok hfailed
          rw [exec_writerDeadLetter]
          split
          · refine hstores.deadLetter hp ?_ _ rfl _
            -- the writer's own dead letter is projected or refused by the driver
            by_contra hown
            obtain ⟨letter, now, hstage, hraw⟩ := h.own p (List.mem_of_getElem? hp) (by simpa using hown)
            obtain ⟨result', hresult', hsettled⟩ :=
              deadLetter_settled b64encode hparses hstage now env s.stores
            rw [← hraw, hr] at hresult'
            cases hresult'
            split at hsettled
            · exact hok hsettled
            · exact hfailed hsettled
          · exact hstores
        unfold MetadataWriter.processResult
        cases hs : result.status with
        | ok =>
          dsimp only [MetadataWriter.structural?]
          rw [exec_finishOk]
          exact hstores.commit hp
        | unknownEventType => exact hdead (by rw [hs]; decide) (by rw [hs]; decide)
        | deserializationFailed => exact hdead (by rw [hs]; decide) (by rw [hs]; decide)
        | structuralConflict => exact hdead (by rw [hs]; decide) (by rw [hs]; decide)
        | storeFailed => exact hstores

theorem Inv.arrive (h : s.Inv text b64encode) (raw : Bytes) :
    Inv text b64encode { s with pending := s.pending ++ [(raw, false)], arrived := s.arrived + 1 } := by
  have hletters := h.letters
  have hpending := h.pending
  refine ⟨?_, ?_, ?_⟩
  · intro p hp hown
    rcases List.mem_append.mp hp with hp | hp
    · exact h.own p hp hown
    · rw [List.mem_singleton.mp hp] at hown
      cases hown
  · simp [foreign] at hletters ⊢
    omega
  · simp only [List.length_append, List.length_singleton]
    omega

variable (hasStatusStore) in
theorem Inv.run (hparses : text.toWireCodec.Parses) (actions : List Action) (h : s.Inv text b64encode) :
    Inv text b64encode (Runs.run (step text b64encode hasStatusStore) s actions) := by
  induction actions generalizing s with
  | nil => exact h
  | cons a actions ih =>
    rw [Runs.run_cons]
    apply ih
    cases a with
    | arrive raw => exact h.arrive raw
    | turn env => exact h.turn hparses

end

end MetadataSite

theorem ofInjective_parses (write : List JsonTok → Bytes) (hwrite : Function.Injective write) (isoformat : Int → String)
    (hiso : Function.Injective isoformat) : (WireText.ofInjective write hwrite isoformat hiso).toWireCodec.Parses := by
  intro raw v h
  unfold WireText.ofInjective at h
  dsimp only at h
  split at h
  · rename_i hraw
    cases h
    exact hraw.choose_spec.1.normal
  · cases h

/-- A message that is no JSON is dead-lettered, but its commit is lost. It comes again, after the dead letter, which
the driver refuses; the consumer polls on past that, and at last both are committed. -/
def lettersComeBack : List MetadataSite.Action :=
  let turn : SiteEnv := ⟨⟨newYear, newYear, newYear, newYear⟩, newYear, true, true, .ok none, 0, none, fun _ => false, none⟩
  [.arrive (asciiBytes "x"), .turn { turn with committed := false },
   .turn { turn with polled := 1, refusal := some ("cannot adapt type 'dict'", {}) }, .turn turn, .turn turn]

end ClearFeature
