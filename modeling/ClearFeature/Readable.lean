import ClearFeature.Consistency
import ClearFeature.Requests

/-!
# Completed implies readable

Stores are honest when only settled requests have a completed entry. A call
keeps them honest if the program making it reports settled requests only, which
the online worker does by itself and the offline writer does where it waits.
-/

namespace ClearFeature

/-! ## What one call keeps -/

section
variable {Rec R Own : Type} {OwnAns : Own → Type} [DecidableEq R]

/-- The service does to the stores what settles requests, and unsettles none. -/
structure CallService.Sound (svc : CallService Rec R Own OwnAns) (set : Settles Rec R Own OwnAns) : Prop
    extends svc.KeepsStatuses where
  publish_settles : ∀ topic rec headers (s : RequestStores R) r, s.Settled r ∨ set.published rec r →
    (svc.publish topic rec headers s).Settled r
  act_settles : ∀ c (s : RequestStores R) r, s.Settled r → (svc.act c s).Settled r
  stored_settles : ∀ env c (s : RequestStores R) r, set.stored c (svc.answer env c) r →
    env.reached = true ∧ (svc.act c s).Settled r

/-- Only settled requests have a completed status entry. -/
def RequestStores.Honest (s : RequestStores R) : Prop :=
  ∀ requestId status, Dict.get? s.statuses requestId = some status → status.status = .completed → s.Settled requestId

variable {svc : CallService Rec R Own OwnAns} {set : Settles Rec R Own OwnAns} (hs : svc.Sound set)
include hs

theorem CallService.Sound.apply_settled {s : RequestStores R} (c : RunnerCall Rec R Own) {r : R} (h : s.Settled r) :
    (s.apply svc c).Settled r := by
  cases c with
  | publish topic key rec headers => exact hs.publish_settles topic rec headers s r (.inl h)
  | own c => exact hs.act_settles c s r h
  | poll => exact h
  | now => exact h
  | commit m => exact h
  | statusRead requestId changes => exact h
  | statusPut requestId status => exact h

theorem CallService.Sound.perform_settled {s : RequestStores R} (env : CallEnv) (c : RunnerCall Rec R Own) {r : R}
    (h : s.Settled r) : (s.perform svc env c).Settled r := by
  unfold RequestStores.perform
  split
  · exact hs.apply_settled c h
  · exact h

theorem CallService.Sound.perform_honest {s : RequestStores R} (hh : s.Honest) (env : CallEnv)
    {c : RunnerCall Rec R Own} (hc : (settleMonitor set).allowed s.Settled c) : (s.perform svc env c).Honest := by
  intro requestId status hget hdone
  refine hs.perform_settled env c ?_
  rcases hs.perform_statuses s env c with h | ⟨-, id, st, hput, h⟩
  · rw [h] at hget
    exact hh requestId status hget hdone
  · rw [h, Dict.get?_set] at hget
    split at hget
    · rename_i heq
      subst heq
      cases hget
      exact hc _ _ hput hdone
    · exact hh requestId status hget hdone

omit [DecidableEq R] hs in
theorem Settles.record_statusRead {settled : R → Prop} {requestId r : R} {changes : StatusChanges}
    {a : Except PyErr (Option RequestStatus)} (h : set.record settled (.statusRead requestId changes) a r) :
    settled r ∨ ∃ existing, a = .ok (some existing) ∧ r = requestId ∧
      (existing.status = .completed ∨ set.assumed changes) := by
  cases a with
  | error e => exact .inl h
  | ok entry =>
    cases entry with
    | none => exact .inl h
    | some existing => exact h.imp id fun h => ⟨existing, rfl, h⟩

theorem CallService.Sound.record_le {s : RequestStores R} (hh : s.Honest) (topic : String) (env : CallEnv)
    {c : RunnerCall Rec R Own}
    (hread : ∀ requestId changes, c = .statusRead requestId changes → set.assumed changes → env.reached = true →
      env.answered = true → (Dict.get? s.statuses requestId).isSome → s.Settled requestId) :
    SettledLe (set.record s.Settled c (s.answer svc topic env c)) (s.perform svc env c).Settled := by
  intro r h
  cases c with
  | publish topic' key rec headers =>
    cases ha : env.reply () with
    | error e =>
      simp only [RequestStores.answer, ha] at h
      exact hs.perform_settled env _ h
    | ok u =>
      simp only [RequestStores.answer, ha] at h
      have hr := (CallEnv.reply_ok ha).1
      simp only [RequestStores.perform, hr, if_true]
      exact hs.publish_settles topic' rec headers s r h
  | statusRead requestId changes =>
    refine hs.perform_settled env _ ?_
    rcases Settles.record_statusRead h with hold | ⟨existing, ha, hid, hnew⟩
    · exact hold
    · subst hid
      obtain ⟨hr, hans, hget⟩ := CallEnv.reply_ok ha
      rcases hnew with hdone | hassumed
      · exact hh r existing hget hdone
      · exact hread r changes rfl hassumed hr hans (by rw [hget]; rfl)
  | own c =>
    rcases h with h | h
    · exact hs.perform_settled env _ h
    · obtain ⟨hr, hact⟩ := hs.stored_settles env c s r h
      simp only [RequestStores.perform, hr, if_true]
      exact hact
  | poll => exact hs.perform_settled env _ h
  | now => exact hs.perform_settled env _ h
  | commit m => exact hs.perform_settled env _ h
  | statusPut requestId status => exact hs.perform_settled env _ h

end

/-! ## Every run -/

section
variable {Rec R Own α : Type} {OwnAns : Own → Type} [DecidableEq R]

def Reporting (set : Settles Rec R Own OwnAns) (s : RequestStores R) (p : RunnerProg Rec R OwnAns α) : Prop :=
  p.wp (settleMonitor set) s.Settled fun _ _ => True

theorem Reporting.mono {set : Settles Rec R Own OwnAns} {s s' : RequestStores R} {p : RunnerProg Rec R OwnAns α}
    (hle : SettledLe s.Settled s'.Settled) (h : Reporting set s p) : Reporting set s' p :=
  Prog.wp_weaken settleMonitor_grows (fun _ h => h) hle h

variable {svc : CallService Rec R Own OwnAns} {set : Settles Rec R Own OwnAns}

/-- One call of one program keeps the stores honest, settles no less, and keeps all programs of its kind reporting. -/
theorem advance_keeps (hs : svc.Sound set) (topic : String) (i : Nat) (env : CallEnv) {s : RequestStores R}
    {programs : List (RunnerProg Rec R OwnAns α)} (hh : s.Honest)
    (hp : ∀ p ∈ programs, Reporting set s p)
    (hread : ∀ p, programs[i]? = some p → ∀ requestId changes, p.next? = some (.statusRead requestId changes) →
      set.assumed changes → env.reached = true → env.answered = true → (Dict.get? s.statuses requestId).isSome →
      s.Settled requestId) :
    (advance svc topic s programs i env).1.Honest ∧
    SettledLe s.Settled (advance svc topic s programs i env).1.Settled ∧
    ∀ p ∈ (advance svc topic s programs i env).2, Reporting set (advance svc topic s programs i env).1 p := by
  cases hi : programs[i]? with
  | none =>
    rw [advance_done fun c k => by simp [hi]]
    exact ⟨hh, fun r h => h, hp⟩
  | some p =>
    cases p with
    | ret a =>
      rw [advance_done fun c k => by simp [hi]]
      exact ⟨hh, fun r h => h, hp⟩
    | call c k =>
      obtain ⟨hallowed, hrest⟩ := hp _ (List.mem_of_getElem? hi)
      have hle : SettledLe s.Settled (s.perform svc env c).Settled := fun r h => hs.perform_settled env c h
      have hrec := hs.record_le hh topic env (c := c) fun requestId changes hc =>
        hread _ hi requestId changes (congrArg some hc)
      rw [advance_call hi]
      refine ⟨hs.perform_honest hh env hallowed, hle, fun q hq => ?_⟩
      -- the program that has moved knows what its answer settled, the others what they knew
      rcases List.mem_or_eq_of_mem_set hq with hq | rfl
      · exact (hp q hq).mono hle
      · exact Reporting.mono (s := s.perform svc env c) (fun r h => h) (Prog.wp_weaken settleMonitor_grows
          (fun _ h => h) hrec (hrest _))

end

section
variable {E O R : Type} [DecidableEq R] (wire : RequestWire E O R) (registry : Registry)

theorem onlineService_sound : (onlineService wire).Sound (onlineSettles E R) where
  toKeepsStatuses := onlineService_keepsStatuses wire
  publish_settles topic rec headers s r h := by
    cases rec with
    | compute event => exact h.elim id fun h => h.elim
    | offlineWrite event => exact h.elim id fun h => h.elim
    | dlq event => exact h.elim id fun h => h.elim
    | completed event =>
      rcases h with (h | ⟨event', hm, h⟩) | h
      · exact .inl h
      · exact .inr ⟨event', List.mem_append_left _ hm, h⟩
      · exact .inr ⟨event, List.mem_append_right _ (List.mem_singleton.mpr rfl), h⟩
  act_settles c s r h := by
    cases c with
    | compute event => exact h
    | writeOnline writeSet => exact h
    | putResult result =>
      rcases h with h | h
      · refine .inl ?_
        show (Dict.get? (Dict.set s.results result.requestId result) r).isSome = true
        rw [Dict.get?_set]
        split
        · rfl
        · exact h
      · exact .inr h
  stored_settles env c s r h := by
    cases c with
    | compute event => exact h.elim
    | writeOnline writeSet => exact h.elim
    | putResult result =>
      cases ha : env.reply () with
      | error e =>
        simp only [onlineSettles, onlineService, ha] at h
      | ok u =>
        simp only [onlineSettles, onlineService, ha] at h
        subst h
        refine ⟨(CallEnv.reply_ok ha).1, .inl ?_⟩
        show (Dict.get? (Dict.set s.results result.requestId result) result.requestId).isSome = true
        rw [Dict.get?_set_self]
        rfl

theorem offlineService_sound : (offlineService wire).Sound (offlineSettles O R) where
  toKeepsStatuses := offlineService_keepsStatuses wire
  publish_settles topic rec headers s r h := by
    cases rec <;> exact h.elim id fun h => h.elim
  act_settles c s r h := h
  stored_settles env c s r h := h.elim

omit [DecidableEq R] in
theorem submit_settles (events : ComputeEvents E R) (event : E) (settled : R → Prop) :
    (acceptFeatureRequest events event).wp (settleMonitor (onlineSettles E R)) settled fun _ _ => True := by
  unfold acceptFeatureRequest
  cases events.encoded event with
  | error e => trivial
  | ok key =>
    refine wp_quiet (fun _ _ e => (nomatch e)) fun a => ?_
    cases a with
    | error e => trivial
    | ok u =>
      refine ⟨fun requestId status h hd => ?_, fun a => trivial⟩
      cases h
      cases hd

namespace RequestSystem

structure Inv (s : RequestSystem E O R) : Prop where
  honest : s.stores.Honest
  submissions : ∀ p ∈ s.submissions, Reporting (onlineSettles E R) s.stores p
  workers : ∀ p ∈ s.workers, Reporting (onlineSettles E R) s.stores p
  writers : ∀ p ∈ s.writers, Reporting (offlineSettles O R) s.stores p

omit [DecidableEq R] in
theorem online_assumes_nothing {changes : StatusChanges} : ¬ (onlineSettles E R).assumed changes := id

theorem Inv.initial : Inv ({} : RequestSystem E O R) := by
  refine ⟨?_, ?_, ?_, ?_⟩
  · intro requestId status h
    cases h
  · intro p h
    cases h
  · intro p h
    cases h
  · intro p h
    cases h

theorem Inv.step {s : RequestSystem E O R} (hi : Inv s) (a : RequestAction E) (hw : s.WriterWaits a) :
    Inv (s.step wire registry a) := by
  cases a with
  | submit event =>
    refine ⟨hi.honest, fun p hp => ?_, hi.workers, hi.writers⟩
    rcases List.mem_append.mp hp with hp | hp
    · exact hi.submissions p hp
    · cases List.mem_singleton.mp hp
      exact submit_settles wire.compute event s.stores.Settled
  | startWorker maxAttempts =>
    refine ⟨hi.honest, hi.submissions, fun p hp => ?_, hi.writers⟩
    rcases List.mem_append.mp hp with hp | hp
    · exact hi.workers p hp
    · cases List.mem_singleton.mp hp
      exact online_settles wire.compute maxAttempts s.stores.Settled
  | startWriter maxAttempts =>
    refine ⟨hi.honest, hi.submissions, hi.workers, fun p hp => ?_⟩
    rcases List.mem_append.mp hp with hp | hp
    · exact hi.writers p hp
    · cases List.mem_singleton.mp hp
      exact offline_settles wire.offline registry maxAttempts s.stores.Settled
  | advanceSubmission i env =>
    obtain ⟨hh, hle, hp⟩ := advance_keeps (onlineService_sound wire) featureComputeOnline i env
      hi.honest hi.submissions fun _ _ _ _ _ h => absurd h online_assumes_nothing
    exact ⟨hh, hp, fun p h => (hi.workers p h).mono hle, fun p h => (hi.writers p h).mono hle⟩
  | advanceWorker i env =>
    obtain ⟨hh, hle, hp⟩ := advance_keeps (onlineService_sound wire) featureComputeOnline i env
      hi.honest hi.workers fun _ _ _ _ _ h => absurd h online_assumes_nothing
    exact ⟨hh, fun p h => (hi.submissions p h).mono hle, hp, fun p h => (hi.writers p h).mono hle⟩
  | advanceWriter i env =>
    obtain ⟨hh, hle, hp⟩ := advance_keeps (offlineService_sound wire) featureWriteOffline i env
      hi.honest hi.writers fun p hp requestId changes hn hassumed hr ha hget => by
        refine hw hr ha requestId ?_ hget
        rw [hp]
        show requestId ∈ reportsCompleted p
        unfold reportsCompleted
        rw [hn]
        simp only [show changes.status = some .completed from hassumed, if_true]
        rfl
    exact ⟨hh, fun p h => (hi.submissions p h).mono hle, fun p h => (hi.workers p h).mono hle, hp⟩

end RequestSystem

end

/-- Where the offline writer waits for the result, every reachable state is readable. -/
theorem writer_waits_readable (E O R : Type) [DecidableEq R] (wire : RequestWire E O R) (registry : Registry)
    (actions : List (RequestAction E))
    (hw : Runs.Steady (RequestSystem.step wire registry) RequestSystem.WriterWaits {} actions)
    (visited : List (RequestAction E)) (hv : visited <+: actions) :
    (Runs.run (RequestSystem.step wire registry) {} visited).stores.CompletedReadable := by
  obtain ⟨rest, rfl⟩ := hv
  have hkeep : ∀ (s : RequestSystem E O R) a, RequestSystem.Inv s → s.WriterWaits a →
      RequestSystem.Inv (s.step wire registry a) := fun s a hi hc => hi.step wire registry a hc
  have hi := Runs.Steady.invariant hkeep RequestSystem.Inv.initial (Runs.Steady.append.mp hw).1
  intro requestId status hget hdone hlive
  rcases hi.honest requestId status hget hdone with h | h
  · exact Option.isSome_iff_exists.mp h
  · exact absurd h hlive

/-! ## A writer that is faster than the worker -/

def computeText : String :=
  "\x7b\"correlation_id\": \"freq_1\", \"deadline_ms\": 1000, " ++
  "\"entity\": \x7b\"entity_key\": \x7b\"user_id\": \"1\"\x7d, \"entity_type\": \"user\"\x7d, " ++
  "\"event_ts\": \"1970-01-01T00:00:00.000011+00:00\", \"event_type\": \"feature_compute.requested\", " ++
  "\"event_version\": 1, \"expires_at\": \"1970-01-01T00:00:01.000011+00:00\", " ++
  "\"idempotency_key\": \"idem_1\", \"job_id\": \"job_1\", " ++
  "\"occurred_at\": \"1970-01-01T00:00:00.000011+00:00\", \"priority\": \"normal\", " ++
  "\"reports\": [\x7b\"available_at\": \"1970-01-01T00:00:00.000011+00:00\", \"compression\": \"none\", " ++
  "\"content_hash\": \"ha\", \"format\": \"json\", \"object_key\": \"mem://a\", \"report_ref\": \"rep_a\", " ++
  "\"report_ts\": \"1970-01-01T00:00:00.000001+00:00\", \"report_type\": \"a\", \"schema_version\": \"1\", " ++
  "\"size_bytes\": 1, \"source_name\": \"a\"\x7d, \x7b\"available_at\": \"1970-01-01T00:00:00.000011+00:00\", " ++
  "\"compression\": \"none\", \"content_hash\": \"hb10\", \"format\": \"json\", \"object_key\": \"mem://b\", " ++
  "\"report_ref\": \"rep_b\", \"report_ts\": \"1970-01-01T00:00:00.000010+00:00\", \"report_type\": \"b\", " ++
  "\"schema_version\": \"1\", \"size_bytes\": 2, \"source_name\": \"b\"\x7d], \"request_id\": \"freq_1\", " ++
  "\"requested_feature_groups\": [], \"requested_features\": [\"last\"], \"view\": \"risk\", " ++
  "\"view_version\": 1, \"write_policy\": \"online_first\"\x7d"

def offlineText : String :=
  "\x7b\"correlation_id\": \"freq_1\", \"event_type\": \"feature_write.offline.requested\", " ++
  "\"event_version\": 1, \"job_id\": \"job_1\", \"occurred_at\": \"1970-01-01T00:00:00.000020+00:00\", " ++
  "\"request_id\": \"freq_1\", \"write_set\": \x7b\"correlation_id\": \"freq_1\", " ++
  "\"entity_key\": [[\"user_id\", \"1\"]], \"job_id\": \"job_1\", \"request_id\": \"freq_1\", " ++
  "\"results\": \x7b\"last\": \x7b\"availability_source\": null, \"available_at\": null, " ++
  "\"bundle_digest\": null, \"calc_ts\": \"1970-01-01T00:00:00.000020+00:00\", " ++
  "\"data_ts\": \"1970-01-01T00:00:00.000001+00:00\", \"feature_name\": \"last\", \"feature_version\": 1, " ++
  "\"input_fingerprint\": \"sha256:4c5efb3bd2065aa401ec8a9a63a6f9cc59be7d8dd3cb35d4c9c60fa9ebe1c817\", " ++
  "\"max_input_data_ts\": \"1970-01-01T00:00:00.000010+00:00\", \"model_digest\": null, " ++
  "\"model_output_name\": null, \"model_uri\": null, \"value\": 10, " ++
  "\"value_hash\": \"sha256:4a44dc15364204a80fe80e9039455cc1608281820fe2b24f1e5233ade6af1dd5\"\x7d\x7d, " ++
  "\"run_id\": null, \"source_refs\": \x7b\"a\": \"rep_a\", \"b\": \"rep_b\"\x7d, \"view\": \"risk\", " ++
  "\"view_version\": 1, \"write_policy\": \"online_first\"\x7d\x7d"

def lastWriteSet : FeatureWriteSet :=
  { okGet (lastStore.computeWriteSet lastCall none) (by decide +kernel) with
    requestId := some "freq_1", jobId := some "job_1", correlationId := some "freq_1" }

/-- The two events of one request. They are the only messages, and each stands for its own text. -/
def oneRequest : RequestWire Bytes Bytes String where
  compute := {
    fromJson := .ok
    requestId := fun _ => "freq_1"
    encoded := fun _ => .ok "user_id=1"
    expired := fun _ t => .ok (1000011 ≤ t) }
  offline := {
    fromJson := .ok
    requestId := fun _ => "freq_1"
    writeSet := fun _ => .ok lastWriteSet }
  computeJson := id
  offlineJson := fun _ => asciiBytes offlineText
  retryJson := id

def requestStep : RequestSystem Bytes Bytes String → RequestAction Bytes →
    RequestSystem Bytes Bytes String :=
  RequestSystem.step oneRequest (userRegistry lastView)

def allAnswer : CallEnv :=
  { arrival := some 0, now := 20, computed := .ok lastWriteSet, written := [("last:v1", .written)] }

/-- The request is accepted, and the worker stops after it has published the offline event. -/
def acceptedAndPublished : List (RequestAction Bytes) :=
  [.submit (asciiBytes computeText), .advanceSubmission 0 allAnswer, .advanceSubmission 0 allAnswer, .startWorker 5] ++
  List.replicate 7 (.advanceWorker 0 allAnswer)

/-- The offline writer handles the event and reports the request. -/
def writerReports : List (RequestAction Bytes) := .startWriter 5 :: List.replicate 5 (.advanceWriter 0 allAnswer)

theorem writer_reports_first :
    let s := (Runs.run requestStep {} (acceptedAndPublished ++ writerReports)).stores
    (Dict.get? s.statuses "freq_1").map RequestStatus.status = some .completed ∧ s.completions.length = 0 ∧
      (Dict.get? s.results "freq_1").isSome = false := by
  decide +kernel

/-- The worker stores the result and reports; the writer handles the event afterwards. -/
def workerFirst : List (RequestAction Bytes) :=
  acceptedAndPublished ++ List.replicate 5 (.advanceWorker 0 allAnswer) ++ writerReports

theorem worker_first_readable :
    (Dict.get? (Runs.run requestStep {} workerFirst).stores.statuses "freq_1").map RequestStatus.status = some .completed ∧
    Runs.Steady requestStep RequestSystem.WriterWaits {} workerFirst ∧
    (Runs.run requestStep {} workerFirst).stores.CompletedReadable := by
  have hw : Runs.Steady requestStep RequestSystem.WriterWaits {} workerFirst := by
    decide +kernel
  exact ⟨by decide +kernel, hw,
    writer_waits_readable Bytes Bytes String oneRequest (userRegistry lastView) workerFirst hw workerFirst
      (List.prefix_refl _)⟩

end ClearFeature
