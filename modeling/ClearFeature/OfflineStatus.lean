import ClearFeature.StatusKept

/-!
# The offline status of a request

The offline writer never reports `pending`. Its report stays where the other
writers of the entry come before it: the API with its entry, an online worker
with its final update, and any other update of a worker with read and put on the
same side of the first report.
-/

namespace ClearFeature

open Prog

/-! ## What each of the three puts -/

section
variable {Rec R Own α : Type} {OwnAns : Own → Type}

/-- Every entry put is of this kind. -/
def putMonitor (kind : RequestStatus → Prop) : RunnerMonitor Rec R OwnAns Unit where
  allowed _ c := ∀ requestId status, c = .statusPut requestId status → kind status
  record _ _ _ := ()

theorem put_plain {kind : RequestStatus → Prop} {c : RunnerCall Rec R Own} (hc : c.Plain) :
    Keeps (putMonitor kind : RunnerMonitor Rec R OwnAns _) (fun _ => True) c := by
  intro u h
  refine ⟨fun requestId status e => ?_, fun a => trivial⟩
  subst e
  exact absurd hc id

theorem report_safeUpdate {requestId : R} {changes : StatusChanges} {report : Option String}
    (hr : report ∈ offlineReports) (hc : changes.offlineWriteStatus = some report) :
    KeepsUpdate (putMonitor (·.offlineWriteStatus ∈ offlineReports) : RunnerMonitor Rec R OwnAns _) (fun _ => True)
      requestId changes := by
  intro u h
  unfold Runner.safeUpdate
  apply wp_ask (fun _ _ e => (nomatch e))
  intro a
  cases a with
  | error e => trivial
  | ok entry =>
    cases entry with
    | none => trivial
    | some existing =>
      refine ⟨fun id status e => ?_, fun a => trivial⟩
      cases e
      simp only [applyChanges, hc, Option.getD_some]
      exact hr

theorem putAt_call {programs : List (RunnerProg Rec R OwnAns α)} {i : Nat} {put : R × RequestStatus}
    (hput : put ∈ putAt programs i) : ∃ k, programs[i]? = some (.call (.statusPut put.1 put.2) k) := by
  unfold putAt at hput
  split at hput
  · rename_i requestId status hnext
    cases hput
    obtain ⟨p, hi, hcall⟩ := Option.bind_eq_some_iff.mp hnext
    cases p with
    | ret a => cases hcall
    | call c k =>
      cases hcall
      exact ⟨k, hi⟩
  · cases hput

theorem putAt_kind {kind : RequestStatus → Prop} {programs : List (RunnerProg Rec R OwnAns α)} {i : Nat}
    (hp : ∀ p ∈ programs, p.wp (putMonitor kind) () fun _ _ => True) {put : R × RequestStatus}
    (hput : put ∈ putAt programs i) : kind put.2 := by
  obtain ⟨k, hi⟩ := putAt_call hput
  exact (hp _ (List.mem_of_getElem? hi)).1 put.1 put.2 rfl

/-- An update that sets the offline status sets none of the offline writer's reports. -/
def readMonitor : RunnerMonitor Rec R OwnAns Unit where
  allowed _ c := ∀ requestId changes, c = .statusRead requestId changes →
    ∀ offline ∈ changes.offlineWriteStatus, offline ∉ offlineReports
  record _ _ _ := ()

theorem read_plain {c : RunnerCall Rec R Own} (hc : c.Plain) :
    Keeps (readMonitor : RunnerMonitor Rec R OwnAns _) (fun _ => True) c := by
  intro u h
  refine ⟨fun requestId changes e => ?_, fun a => trivial⟩
  subst e
  exact absurd hc id

theorem read_safeUpdate {requestId : R} {changes : StatusChanges}
    (hc : ∀ offline ∈ changes.offlineWriteStatus, offline ∉ offlineReports) :
    KeepsUpdate (readMonitor : RunnerMonitor Rec R OwnAns _) (fun _ => True) requestId changes := by
  intro u h
  unfold Runner.safeUpdate
  apply wp_ask
  · intro id given e
    cases e
    exact hc
  · intro a
    cases a with
    | error e => trivial
    | ok entry =>
      cases entry with
      | none => trivial
      | some existing => exact ⟨fun _ _ e => (nomatch e), fun a => trivial⟩

end

section
variable {E R : Type} (events : ComputeEvents E R)

def readOutline : Online.Outline events readMonitor where
  inv _ := True
  lapsed _ _ := True
  live _ _ := True
  told _ _ := True
  stored _ _ := True
  live_inv _ := trivial
  told_inv _ := trivial
  stored_inv _ := trivial
  poll := read_plain trivial
  commit m := read_plain trivial
  dlq topic event := read_plain trivial
  retry key event headers := read_plain trivial
  running requestId error := read_safeUpdate (by simp)
  failed requestId error := read_safeUpdate (by simp)
  now event u h := ⟨fun _ _ e => (nomatch e), fun t => ⟨trivial, fun _ => trivial, fun _ => trivial⟩⟩
  announceExpired key event := Keeps.yields (read_plain trivial)
  commitExpired event m := read_plain trivial
  expired event := read_safeUpdate (by simp [offlineReports])
  compute event := read_plain trivial
  writeOnline event writeSet := read_plain trivial
  offlineWrite event key writeSet := read_plain trivial
  announce event key names outcomes := read_plain trivial
  putResult event writeSet written := Keeps.yields (read_plain trivial)
  commitOk event m := read_plain trivial
  completed event outcomes := read_safeUpdate (by simp [offlineReports])

theorem online_reads (maxAttempts : Int) :
    (Online.processNext events maxAttempts).wp readMonitor () fun _ _ => True :=
  wp_mono (fun _ _ _ => trivial) ((readOutline events).processNext maxAttempts trivial)

/-- The accepted entry carries no report. -/
theorem accept_puts (event : E) :
    (acceptFeatureRequest events event).wp (putMonitor (·.offlineWriteStatus ∉ offlineReports)) () fun _ _ => True := by
  unfold acceptFeatureRequest
  cases events.encoded event with
  | error e => trivial
  | ok key =>
    apply wp_ask (fun _ _ e => (nomatch e))
    intro a
    cases a with
    | error e => trivial
    | ok u =>
      refine ⟨fun requestId status e => ?_, fun a => trivial⟩
      cases e
      simp [offlineReports]

end

section
variable {O R : Type}

def reportOutline (O R : Type) : Offline.Outline (putMonitor (·.offlineWriteStatus ∈ offlineReports) :
    RunnerMonitor (OfflineRecord O) R OfflineOwn.Ans _) where
  inv _ := True
  call c hc := put_plain hc
  update requestId changes h := by
    obtain ⟨report, hr, hc⟩ := h
    exact report_safeUpdate hr hc

theorem offline_reports (events : OfflineEvents O R) (registry : Registry) (maxAttempts : Int) :
    (Offline.processNext events registry maxAttempts).wp (putMonitor (·.offlineWriteStatus ∈ offlineReports)) ()
      fun _ _ => True :=
  (reportOutline O R).processNext events registry maxAttempts trivial

end

/-! ## The order of the reports -/

/-- The entry shows a report of the offline writer. -/
def offlineReportedIn {R : Type} [DecidableEq R] (statuses : List (R × RequestStatus)) (requestId : R) : Prop :=
  ∃ entry ∈ Dict.get? statuses requestId, entry.offlineWriteStatus ∈ offlineReports

theorem offlineReportedIn_set {R : Type} [DecidableEq R] (statuses : List (R × RequestStatus)) (put : R × RequestStatus)
    (requestId : R) : offlineReportedIn (Dict.set statuses put.1 put.2) requestId ↔
      if put.1 = requestId then put.2.offlineWriteStatus ∈ offlineReports else offlineReportedIn statuses requestId := by
  unfold offlineReportedIn
  rw [Dict.get?_set]
  split <;> simp

namespace RequestSystem

section
variable {E O R : Type} [DecidableEq R]

def offlineStatusOf (s : RequestSystem E O R) (requestId : R) : Option (Option String) :=
  (Dict.get? s.stores.statuses requestId).map RequestStatus.offlineWriteStatus

def OfflineReported (s : RequestSystem E O R) (requestId : R) : Prop := offlineReportedIn s.stores.statuses requestId

instance (s : RequestSystem E O R) (requestId : R) : Decidable (s.OfflineReported requestId) :=
  decidable_of_iff (((Dict.get? s.stores.statuses requestId).map
      fun entry => decide (entry.offlineWriteStatus ∈ offlineReports)) = some true) (by
    unfold OfflineReported offlineReportedIn
    simp)

/-- No online worker is between the read and the put of an update of the request. -/
def NoUpdateOpen (s : RequestSystem E O R) (requestId : R) : Prop :=
  ∀ p ∈ s.workers, ∀ put ∈ putAt [p] 0, put.1 ≠ requestId

/-- The accepted entry and the update of an online worker that sets the offline status come before the first report of
the offline writer, and no other update of an online worker is open at that report. -/
def ReportsFollow (requestId : R) (s : RequestSystem E O R) : RequestAction E → Prop
  | .advanceSubmission i env => env.reached = true → ∀ put ∈ putAt s.submissions i, put.1 = requestId →
    ¬ s.OfflineReported requestId
  | .advanceWorker i env => env.answered = true → ∀ update ∈ updateAt s.workers i, update.1 = requestId →
    update.2.offlineWriteStatus.isSome → ¬ s.OfflineReported requestId
  | .advanceWriter i env => env.reached = true → ∀ put ∈ putAt s.writers i, put.1 = requestId →
    ¬ s.OfflineReported requestId → s.NoUpdateOpen requestId
  | _ => True

instance (s : RequestSystem E O R) (requestId : R) : Decidable (s.NoUpdateOpen requestId) :=
  inferInstanceAs (Decidable (∀ p ∈ s.workers, ∀ put ∈ putAt [p] 0, put.1 ≠ requestId))

instance decidableReportsFollow (requestId : R) (s : RequestSystem E O R) :
    (a : RequestAction E) → Decidable (s.ReportsFollow requestId a)
  | .submit _ | .startWorker _ | .startWriter _ => .isTrue trivial
  | .advanceSubmission i env => inferInstanceAs (Decidable (env.reached = true → ∀ put ∈ putAt s.submissions i,
      put.1 = requestId → ¬ s.OfflineReported requestId))
  | .advanceWorker i env => inferInstanceAs (Decidable (env.answered = true → ∀ update ∈ updateAt s.workers i,
      update.1 = requestId → update.2.offlineWriteStatus.isSome → ¬ s.OfflineReported requestId))
  | .advanceWriter i env => inferInstanceAs (Decidable (env.reached = true → ∀ put ∈ putAt s.writers i,
      put.1 = requestId → ¬ s.OfflineReported requestId → s.NoUpdateOpen requestId))

end

/-! ## Every run -/

/-- What a worker is about to put shows a report where the entry does. -/
structure CarriesReport {E R : Type} (requestId : R) (reported : Prop)
    (p : Online.Program E R (Except PyErr ProcessResult)) : Prop where
  reads : p.wp readMonitor () fun _ _ => True
  pending : ∃ pending, p.wp updateMonitor pending (fun pending _ => pending = none) ∧
    ∀ put ∈ pending, put.1 = requestId → (put.2.offlineWriteStatus ∈ offlineReports ↔ reported)

section
variable {E R : Type} {requestId : R} {reported reported' : Prop} {p : Online.Program E R (Except PyErr ProcessResult)}

theorem CarriesReport.congr (h : CarriesReport requestId reported p) (hr : reported ↔ reported') :
    CarriesReport requestId reported' p := by
  obtain ⟨pending, hp, hput⟩ := h.pending
  exact ⟨h.reads, pending, hp, fun put hm hid => (hput put hm hid).trans hr⟩

theorem CarriesReport.start (events : ComputeEvents E R) (maxAttempts : Int) :
    CarriesReport requestId reported (Online.processNext events maxAttempts) := by
  refine ⟨online_reads events maxAttempts, none, online_updating events maxAttempts, ?_⟩
  intro put hput
  cases hput

theorem CarriesReport.put {put : R × RequestStatus}
    {k : RunnerCall.Ans OnlineOwn.Ans (.statusPut put.1 put.2) → Online.Program E R (Except PyErr ProcessResult)}
    (h : CarriesReport requestId reported (.call (.statusPut put.1 put.2) k)) (hid : put.1 = requestId) :
    put.2.offlineWriteStatus ∈ offlineReports ↔ reported := by
  obtain ⟨pending, hp, hput⟩ := h.pending
  cases pending with
  | none => exact absurd rfl (hp.1 put.1 put.2)
  | some given =>
    obtain ⟨id, status⟩ := put
    have hcall := hp.1
    cases hcall
    exact hput _ rfl hid

/-- With no update open it says nothing of the entry. -/
theorem CarriesReport.closed (h : CarriesReport requestId reported p) (hp : ∀ put ∈ putAt [p] 0, put.1 ≠ requestId) :
    CarriesReport requestId reported' p := by
  obtain ⟨pending, hw, -⟩ := h.pending
  refine ⟨h.reads, pending, hw, ?_⟩
  intro put hm hid
  cases hm
  obtain ⟨k, rfl, -⟩ := updating_pending hw
  exact absurd hid (hp put rfl)

end

section
variable {Rec R Own α : Type} {OwnAns : Own → Type} {svc : CallService Rec R Own OwnAns} [DecidableEq R] {topic : String}
  {stores : RequestStores R} {programs : List (RunnerProg Rec R OwnAns α)} {i : Nat} {env : CallEnv}

theorem advance_kind {kind : RequestStatus → Prop} (hp : ∀ p ∈ programs, p.wp (putMonitor kind) () fun _ _ => True) :
    ∀ p ∈ (advance svc topic stores programs i env).2, p.wp (putMonitor kind) () fun _ _ => True := by
  intro p hm
  rcases advance_mem hm with hold | ⟨c, k, hcall, rfl⟩
  · exact hp p hold
  · exact (hp _ hcall).2 _

/-- A put of a report where there is one, and of none where there is none, changes nothing. -/
theorem advance_offlineReported (hs : svc.KeepsStatuses) {requestId : R}
    (hp : env.reached = true → ∀ put ∈ putAt programs i, put.1 = requestId →
      (put.2.offlineWriteStatus ∈ offlineReports ↔ offlineReportedIn stores.statuses requestId)) :
    offlineReportedIn (advance svc topic stores programs i env).1.statuses requestId ↔
      offlineReportedIn stores.statuses requestId := by
  rcases advance_statuses hs topic stores programs i env with hst | ⟨hr, put, hput, hst⟩
  · rw [hst]
  · rw [hst, offlineReportedIn_set]
    by_cases hid : put.1 = requestId
    · rw [if_pos hid]
      exact hp hr put hput hid
    · rw [if_neg hid]

end

section
variable {E O R : Type} [DecidableEq R] (wire : RequestWire E O R) (registry : Registry)

/-- The next call of a worker: an update of the offline status reads the entry before any report. -/
theorem CarriesReport.answered {s : RequestSystem E O R} {requestId : R} {i : Nat} {env : CallEnv}
    {c : RunnerCall (OnlineRecord E R) R (OnlineOwn E R)}
    {k : RunnerCall.Ans OnlineOwn.Ans c → Online.Program E R (Except PyErr ProcessResult)} {topic : String}
    (h : CarriesReport requestId (s.OfflineReported requestId) (.call c k)) (hi : s.workers[i]? = some (.call c k))
    (hf : s.ReportsFollow requestId (.advanceWorker i env)) :
    CarriesReport requestId (s.OfflineReported requestId) (k (s.stores.answer (onlineService wire) topic env c)) := by
  obtain ⟨⟨hallowed, hreads⟩, pending, hw, hput⟩ := h
  refine ⟨hreads _, _, hw.2 _, ?_⟩
  intro put hm hid
  cases c with
  | statusRead id changes =>
    cases ha : s.stores.answer (onlineService wire) topic env (.statusRead id changes) with
    | error e =>
      rw [ha] at hm
      cases hm
    | ok entry =>
      cases entry with
      | none =>
        rw [ha] at hm
        cases hm
      | some existing =>
        rw [ha] at hm
        cases hm
        obtain ⟨-, hanswered, hget⟩ := CallEnv.reply_ok ha
        have hshown : existing.offlineWriteStatus ∈ offlineReports ↔ s.OfflineReported id := by
          unfold OfflineReported offlineReportedIn
          rw [hget]
          simp
        subst hid
        cases hc : changes.offlineWriteStatus with
        | none =>
          simp only [applyChanges, hc, Option.getD_none]
          exact hshown
        | some offline =>
          have hnew := hallowed id changes rfl offline hc
          have hnone := hf hanswered (id, changes) (updateAt_read hi) rfl (by simp [hc])
          simp only [applyChanges, hc, Option.getD_some]
          exact iff_of_false hnew hnone
  | _ => cases hm

/-- The puts of the API, of the workers and of the writers. -/
structure Reporting (requestId : R) (s : RequestSystem E O R) : Prop where
  submissions : ∀ p ∈ s.submissions, p.wp (putMonitor (·.offlineWriteStatus ∉ offlineReports)) () fun _ _ => True
  workers : ∀ p ∈ s.workers, CarriesReport requestId (s.OfflineReported requestId) p
  writers : ∀ p ∈ s.writers, p.wp (putMonitor (·.offlineWriteStatus ∈ offlineReports)) () fun _ _ => True

theorem Reporting.worker {s : RequestSystem E O R} {requestId : R} (h : Reporting requestId s) {i : Nat}
    {put : R × RequestStatus} (hput : put ∈ putAt s.workers i) (hid : put.1 = requestId) :
    put.2.offlineWriteStatus ∈ offlineReports ↔ s.OfflineReported requestId := by
  obtain ⟨k, hi⟩ := putAt_call hput
  exact (h.workers _ (List.mem_of_getElem? hi)).put hid

/-- The first report finds no update open. -/
theorem Reporting.writer {s : RequestSystem E O R} {requestId : R} (h : Reporting requestId s) {i : Nat} {env : CallEnv}
    (hf : s.ReportsFollow requestId (.advanceWriter i env)) :
    ((s.step wire registry (.advanceWriter i env)).OfflineReported requestId ↔ s.OfflineReported requestId) ∨
    s.NoUpdateOpen requestId ∧ (s.step wire registry (.advanceWriter i env)).OfflineReported requestId := by
  by_cases hold : s.OfflineReported requestId
  · refine .inl (advance_offlineReported (offlineService_keepsStatuses wire) fun hr put hput hid => ?_)
    exact iff_of_true (putAt_kind h.writers hput) hold
  · rcases advance_statuses (offlineService_keepsStatuses wire) featureWriteOffline s.stores s.writers i env with
      hst | ⟨hr, put, hput, hst⟩
    · refine .inl (Iff.of_eq ?_)
      exact congrArg (offlineReportedIn · requestId) hst
    · have hnew : (s.step wire registry (.advanceWriter i env)).OfflineReported requestId ↔
          offlineReportedIn (Dict.set s.stores.statuses put.1 put.2) requestId :=
        Iff.of_eq (congrArg (offlineReportedIn · requestId) hst)
      rw [offlineReportedIn_set] at hnew
      by_cases hid : put.1 = requestId
      · rw [if_pos hid] at hnew
        exact .inr ⟨hf hr put hput hid hold, hnew.mpr (putAt_kind h.writers hput)⟩
      · rw [if_neg hid] at hnew
        exact .inl hnew

theorem Reporting.step {s : RequestSystem E O R} {requestId : R} (h : Reporting requestId s) (a : RequestAction E)
    (hf : s.ReportsFollow requestId a) :
    Reporting requestId (s.step wire registry a) ∧
    (s.OfflineReported requestId → (s.step wire registry a).OfflineReported requestId) := by
  cases a with
  | submit event =>
    refine ⟨⟨?_, h.workers, h.writers⟩, id⟩
    intro p hp
    rcases List.mem_append.mp hp with hp | hp
    · exact h.submissions p hp
    · cases List.mem_singleton.mp hp
      exact accept_puts wire.compute event
  | startWorker maxAttempts =>
    refine ⟨⟨h.submissions, ?_, h.writers⟩, id⟩
    intro p hp
    rcases List.mem_append.mp hp with hp | hp
    · exact h.workers p hp
    · cases List.mem_singleton.mp hp
      exact CarriesReport.start wire.compute maxAttempts
  | startWriter maxAttempts =>
    refine ⟨⟨h.submissions, h.workers, ?_⟩, id⟩
    intro p hp
    rcases List.mem_append.mp hp with hp | hp
    · exact h.writers p hp
    · cases List.mem_singleton.mp hp
      exact offline_reports wire.offline registry maxAttempts
  | advanceSubmission i env =>
    have hsame : (s.step wire registry (.advanceSubmission i env)).OfflineReported requestId ↔
        s.OfflineReported requestId :=
      advance_offlineReported (onlineService_keepsStatuses wire) fun hr put hput hid =>
        iff_of_false (putAt_kind h.submissions hput) (hf hr put hput hid)
    exact ⟨⟨advance_kind h.submissions, fun p hp => (h.workers p hp).congr hsame.symm, h.writers⟩, hsame.mpr⟩
  | advanceWorker i env =>
    have hsame : (s.step wire registry (.advanceWorker i env)).OfflineReported requestId ↔
        s.OfflineReported requestId :=
      advance_offlineReported (onlineService_keepsStatuses wire) fun hr put hput hid => h.worker hput hid
    refine ⟨⟨h.submissions, ?_, h.writers⟩, hsame.mpr⟩
    intro p hp
    apply CarriesReport.congr _ hsame.symm
    cases hi : s.workers[i]? with
    | none =>
      have hdone : ∀ c k, s.workers[i]? ≠ some (.call c k) := fun c k => by simp [hi]
      have hp : p ∈ (advance (onlineService wire) featureComputeOnline s.stores s.workers i env).2 := hp
      rw [advance_done hdone] at hp
      exact h.workers p hp
    | some program =>
      have hp : p ∈ (advance (onlineService wire) featureComputeOnline s.stores s.workers i env).2 := hp
      cases program with
      | ret a =>
        have hdone : ∀ c k, s.workers[i]? ≠ some (.call c k) := fun c k => by simp [hi]
        rw [advance_done hdone] at hp
        exact h.workers p hp
      | call c k =>
        rw [advance_call hi] at hp
        rcases List.mem_or_eq_of_mem_set hp with hold | rfl
        · exact h.workers p hold
        · exact CarriesReport.answered wire (h.workers _ (List.mem_of_getElem? hi)) hi hf
  | advanceWriter i env =>
    have hwriters : ∀ p ∈ (advance (offlineService wire) featureWriteOffline s.stores s.writers i env).2,
        p.wp (putMonitor _) () fun _ _ => True := advance_kind h.writers
    rcases h.writer wire registry hf with hsame | ⟨hopen, hreported⟩
    · exact ⟨⟨h.submissions, fun p hp => (h.workers p hp).congr hsame.symm, hwriters⟩, hsame.mpr⟩
    · exact ⟨⟨h.submissions, fun p hp => (h.workers p hp).closed (hopen p hp), hwriters⟩, fun _ => hreported⟩

end

end RequestSystem

/-- Where the accepted entry and the updates of the online workers come before the first report of the offline writer,
`written` is not followed by `pending`. -/
theorem offline_status_kept (E O R : Type) [DecidableEq R] (wire : RequestWire E O R) (registry : Registry) (requestId : R)
    (before after : List (RequestAction E))
    (hf : Runs.Steady (RequestSystem.step wire registry) (RequestSystem.ReportsFollow requestId) {} (before ++ after))
    (hwritten : (Runs.run (RequestSystem.step wire registry) {} before).offlineStatusOf requestId = some (some "written")) :
    (Runs.run (RequestSystem.step wire registry) {} (before ++ after)).offlineStatusOf requestId ≠ some (some "pending") := by
  obtain ⟨hbefore, hafter⟩ := Runs.Steady.append.mp hf
  have hfirst : RequestSystem.Reporting requestId (Runs.run (RequestSystem.step wire registry) {} before) := by
    refine Runs.Steady.invariant (fun s a h hc => (h.step wire registry a hc).1) ?_ hbefore
    exact ⟨fun p hp => (nomatch hp), fun p hp => (nomatch hp), fun p hp => (nomatch hp)⟩
  have hkeep : ∀ (s : RequestSystem E O R) a, RequestSystem.Reporting requestId s ∧ s.OfflineReported requestId →
      s.ReportsFollow requestId a → RequestSystem.Reporting requestId (s.step wire registry a) ∧
        (s.step wire registry a).OfflineReported requestId := by
    intro s a h hc
    obtain ⟨hnext, hreported⟩ := h.1.step wire registry a hc
    exact ⟨hnext, hreported h.2⟩
  have hreported : (Runs.run (RequestSystem.step wire registry) {} (before ++ after)).OfflineReported requestId := by
    rw [Runs.run_append]
    refine (Runs.Steady.invariant hkeep ⟨hfirst, ?_⟩ hafter).2
    obtain ⟨entry, hentry, hshown⟩ := Option.map_eq_some_iff.mp hwritten
    exact ⟨entry, hentry, by simp [hshown, offlineReports]⟩
  obtain ⟨entry, hentry, hshown⟩ := hreported
  intro hpending
  unfold RequestSystem.offlineStatusOf at hpending
  rw [hentry] at hpending
  rw [Option.some.inj hpending] at hshown
  exact absurd hshown (by decide)

/-! ## A worker that finishes late -/

/-- The worker stores the result, commits and updates the status. -/
def workerFinishes : List (RequestAction Bytes) := List.replicate 5 (.advanceWorker 0 allAnswer)

theorem worker_reports_late :
    (Runs.run requestStep {} (acceptedAndPublished ++ writerReports)).offlineStatusOf "freq_1" = some (some "written") ∧
    (Runs.run requestStep {} (acceptedAndPublished ++ writerReports ++ workerFinishes)).offlineStatusOf "freq_1" =
      some (some "pending") := by
  decide +kernel

/-- Both events are delivered once more: the worker cannot compute and sends a retry copy, the writer reports again. -/
def bothRepeat : List (RequestAction Bytes) :=
  .startWorker 5 :: List.replicate 9 (.advanceWorker 1 { allAnswer with computed := .error (.valueError "no rows") }) ++
    .startWriter 5 :: List.replicate 5 (.advanceWriter 1 allAnswer)

theorem worker_first_kept :
    (Runs.run requestStep {} (acceptedAndPublished ++ workerFinishes ++ writerReports)).offlineStatusOf "freq_1" =
      some (some "written") ∧
    (Runs.run requestStep {} ((acceptedAndPublished ++ workerFinishes ++ writerReports) ++ bothRepeat)).offlineStatusOf
      "freq_1" ≠ some (some "pending") := by
  have hf : Runs.Steady requestStep (RequestSystem.ReportsFollow "freq_1") {}
      ((acceptedAndPublished ++ workerFinishes ++ writerReports) ++ bothRepeat) := by
    decide +kernel
  have hwritten : (Runs.run requestStep {} (acceptedAndPublished ++ workerFinishes ++ writerReports)).offlineStatusOf
      "freq_1" = some (some "written") := by
    decide +kernel
  exact ⟨hwritten, offline_status_kept Bytes Bytes String oneRequest (userRegistry lastView) "freq_1"
    (acceptedAndPublished ++ workerFinishes ++ writerReports) bothRepeat hf hwritten⟩

end ClearFeature
