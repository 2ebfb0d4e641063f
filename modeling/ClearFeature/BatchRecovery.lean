import ClearFeature.IdempotencyKeys

/-!
# Recovery of a batch job whose publication failed

The API publishes the chunks of a job one by one, batch workers update those
that are published, and the same request may be submitted again at any time.
All of them interleave call by call.
-/

namespace ClearFeature

open Prog

/-! ## The run -/

structure BatchSubmission where
  settings : BatchSettings
  registry : Registry
  datasets : SourceDatasets
  request : BatchJobIn

namespace BatchSubmission

variable (sub : BatchSubmission)

def prepared : Except HttpError PreparedBatch := prepareBatch sub.settings sub.registry sub.datasets sub.request

def program : BatchApi.Program (Except HttpError BatchJobResponse) :=
  BatchApi.createBatchJob sub.settings sub.registry sub.datasets sub.request

def key : String := sub.request.idempotencyKey

def chunkIds : List String :=
  match sub.prepared with
  | .error _ => []
  | .ok prepared => (prepared.chunkEvents sub.request 0).map fun e => e.2.chunkId

end BatchSubmission

def BatchApiCall.isPut : BatchApiCall → Bool
  | .put _ => true
  | _ => false

/-- One call of the endpoint; `putJob` once it has written the job. -/
structure Submission where
  program : BatchApi.Program (Except HttpError BatchJobResponse)
  putJob : Bool := false

def Submission.accepted (x : Submission) : Bool :=
  match x.program with
  | .ret (.ok _) => true
  | _ => false

/-- The job has been written and the submission goes on. -/
def Submission.publishing (x : Submission) : Bool := x.putJob && x.program.next?.isSome

/-- `reported` are the chunks that a worker has reported as terminal. -/
structure RecoveryRun where
  store : BatchStore := {}
  submissions : List Submission := []
  reported : List String := []

/-- A worker handles one of the published chunks; `report` is what it sets, under the chunk's own id. -/
inductive RecoveryAction where
  | submit
  | advance (i : Nat) (env : CallEnv)
  | work (delivery : Nat) (report : BatchChunkStatus) (now : Int)

namespace RecoveryRun

variable (sub : BatchSubmission)

def step (s : RecoveryRun) : RecoveryAction → RecoveryRun
  | .submit => { s with submissions := s.submissions ++ [{ program := sub.program }] }
  | .advance i env =>
    match s.submissions[i]? with
    | some ⟨.call c k, putJob⟩ =>
      { s with
        store := s.store.perform env c
        submissions := s.submissions.set i ⟨k (s.store.answer env c), putJob || c.isPut⟩ }
    | _ => s
  | .work delivery report now =>
    match s.store.published[delivery]? with
    | none => s
    | some event =>
      let chunk := { report with chunkId := event.chunkId }
      { s with
        store := { s.store with jobs := setChunk now s.store.jobs event.batchJobId chunk }
        reported := if report.status.terminal then s.reported ++ [event.chunkId] else s.reported }

def AllPublished (s : RecoveryRun) : Prop := ∀ chunkId ∈ sub.chunkIds, ∃ event ∈ s.store.published, event.chunkId = chunkId

def Recovered (s : RecoveryRun) : Prop := ∀ x ∈ s.submissions, x.accepted → s.AllPublished sub

def job? (s : RecoveryRun) : Option BatchJobStatus := Dict.get? s.store.jobs sub.key

/-- Before the job is submitted again, a chunk that was reported as terminal is shown as terminal. -/
def ReportsKept (s : RecoveryRun) : Prop :=
  s.submissions.length ≤ 1 →
    ∀ chunkId ∈ s.reported, ((s.job? sub).bind (·.chunkState chunkId)).any ChunkState.terminal

/-- A submission that does not find the job as failed finds no error of its publication, and no other one publishing. -/
def FailureSeen (s : RecoveryRun) : RecoveryAction → Prop
  | .advance i _ =>
    match s.submissions[i]?.bind (·.program.next?) with
    | some (.get jobId) => ∀ job ∈ Dict.get? s.store.jobs jobId, job.status ≠ .publishFailed →
        job.errorSummary = none ∧ ∀ x ∈ s.submissions, x.publishing = false
    | _ => True
  | _ => True

/-- Before the job is submitted again, it is put as failed where no chunk has been reported as terminal. -/
def SnapshotCurrent (s : RecoveryRun) : RecoveryAction → Prop
  | .advance i _ =>
    match s.submissions[i]?.bind (·.program.next?) with
    | some (.put job) => s.submissions.length ≤ 1 → job.status = .publishFailed → s.reported = []
    | _ => True
  | _ => True

instance (s : RecoveryRun) : Decidable (s.AllPublished sub) :=
  inferInstanceAs (Decidable (∀ chunkId ∈ _, ∃ event ∈ _, _))

instance (s : RecoveryRun) : Decidable (s.Recovered sub) := inferInstanceAs (Decidable (∀ x ∈ _, _ → _))

instance (s : RecoveryRun) : Decidable (s.ReportsKept sub) := inferInstanceAs (Decidable (_ → _))

instance decidableFailureSeen (s : RecoveryRun) (a : RecoveryAction) : Decidable (s.FailureSeen a) := by
  unfold FailureSeen
  split
  · split <;> infer_instance
  · infer_instance

instance decidableSnapshotCurrent (s : RecoveryRun) (a : RecoveryAction) : Decidable (s.SnapshotCurrent a) := by
  unfold SnapshotCurrent
  split
  · split <;> infer_instance
  · infer_instance

end RecoveryRun

/-! ## What a submission knows -/

/-- The chunks known to be published; whether the program has put the job, and has put it as failed. -/
structure Progress where
  known : String → Prop
  putJob : Bool
  failed : Bool

/-- The job is put before the first chunk is published, and a second time where a publish failed. -/
def progressMonitor (key : String) : Monitor BatchApiCall BatchApiCall.Ans Progress where
  allowed p
    | .put job => job.jobId = key ∧ (p.putJob = false → job.errorSummary = none) ∧
        (p.putJob = true → job.status = .publishFailed ∧ job.errorSummary ≠ none)
    | .publish event => event.batchJobId = key ∧ p.putJob = true
    | .get jobId => jobId = key
    | .now => True
  record p c a := match c, a with
    | .get _, some job => { p with known := fun chunkId => p.known chunkId ∨ job.status ≠ .publishFailed }
    | .put _, _ => { p with putJob := true, failed := p.putJob }
    | .publish event, .ok () => { p with known := fun chunkId => p.known chunkId ∨ chunkId = event.chunkId }
    | _, _ => p

def Knows (sub : BatchSubmission) (p : Progress) : Except HttpError BatchJobResponse → Prop
  | .ok _ => ∀ chunkId ∈ sub.chunkIds, p.known chunkId
  | .error _ => p.putJob = true → p.failed = true

section
variable {sub : BatchSubmission}

theorem publishChunks_progress {job : BatchJobStatus} (hjob : job.jobId = sub.key) (response : BatchJobResponse) :
    ∀ (events : List (Nat × BatchChunkEvent)) (published : Nat) (p : Progress), p.putJob = true →
      (∀ e ∈ events, e.2.batchJobId = sub.key) →
      (∀ chunkId ∈ sub.chunkIds, p.known chunkId ∨ chunkId ∈ events.map fun e => e.2.chunkId) →
      wp (progressMonitor sub.key) p (BatchApi.publishChunks job response published events) (Knows sub)
  | [], published, p, hs, hk, ha => fun chunkId h => (ha chunkId h).elim id fun h => (nomatch h)
  | (index, event) :: events, published, p, hs, hk, ha => by
    rw [BatchApi.publishChunks, wp_ask_bind]
    refine ⟨⟨hk _ List.mem_cons_self, hs⟩, fun a => ?_⟩
    cases a with
    | ok u =>
      have hknown : ∀ chunkId ∈ sub.chunkIds, (p.known chunkId ∨ chunkId = event.chunkId) ∨
          chunkId ∈ events.map fun e => e.2.chunkId := by
        intro chunkId h
        rcases ha chunkId h with h | h
        · exact .inl (.inl h)
        · rcases List.mem_cons.mp h with h | h
          · exact .inl (.inr h)
          · exact .inr h
      have hrest := publishChunks_progress hjob response events (published + 1)
        { p with known := fun chunkId => p.known chunkId ∨ chunkId = event.chunkId } hs
        (fun e he => hk e (List.mem_cons_of_mem _ he)) hknown
      exact hrest
    | error e =>
      refine ⟨trivial, fun failedAt => ⟨⟨hjob, fun h => ?_, fun _ => ⟨rfl, by simp [BatchApi.failedToPublish]⟩⟩,
        fun u _ => hs⟩⟩
      have hp : p.putJob = false := h
      rw [hs] at hp
      cases hp

theorem createAndPublish_progress {prepared : PreparedBatch} (hp : sub.prepared = .ok prepared) (startedAt : Int)
    {p : Progress} (hput : p.putJob = false) :
    wp (progressMonitor sub.key) p (BatchApi.createAndPublish prepared sub.request startedAt) (Knows sub) := by
  rw [BatchApi.createAndPublish, wp_ask_bind]
  refine ⟨⟨rfl, fun _ => rfl, fun h => ?_⟩, fun u => ?_⟩
  · rw [hput] at h
    cases h
  · apply publishChunks_progress rfl _ _ 0 _ rfl
    · intro e he
      obtain ⟨⟨items, index⟩, -, rfl⟩ := List.mem_map.mp he
      rfl
    · intro chunkId h
      refine .inr ?_
      unfold BatchSubmission.chunkIds at h
      rw [hp] at h
      simp only [PreparedBatch.chunkEvents, List.map_map] at h ⊢
      exact h

theorem program_progress (sub : BatchSubmission) :
    wp (progressMonitor sub.key) ⟨fun _ => False, false, false⟩ sub.program (Knows sub) := by
  unfold BatchSubmission.program BatchApi.createBatchJob
  cases hp : prepareBatch sub.settings sub.registry sub.datasets sub.request with
  | error e => exact fun h => h
  | ok prepared =>
    dsimp only
    rw [wp_ask_bind]
    refine ⟨trivial, fun startedAt => ?_⟩
    rw [wp_ask_bind]
    refine ⟨rfl, fun found => ?_⟩
    cases found with
    | none => exact createAndPublish_progress hp startedAt rfl
    | some existing =>
      dsimp only
      split
      · exact createAndPublish_progress hp startedAt rfl
      · rename_i hlive
        unfold BatchApi.replayJob
        split
        · exact fun chunkId h => .inr hlive
        · exact fun h => h

structure Submission.Tracked (sub : BatchSubmission) (x : Submission) (p : Progress) : Prop where
  putJob : p.putJob = x.putJob
  wp : x.program.wp (progressMonitor sub.key) p (Knows sub)

theorem Submission.Tracked.initial : Submission.Tracked sub { program := sub.program } ⟨fun _ => False, false, false⟩ :=
  ⟨rfl, program_progress sub⟩

theorem Submission.Tracked.call {c : BatchApiCall} {k : c.Ans → BatchApi.Program (Except HttpError BatchJobResponse)}
    {putJob : Bool} {p : Progress} (h : Submission.Tracked sub ⟨.call c k, putJob⟩ p) (a : c.Ans) :
    Submission.Tracked sub ⟨k a, putJob || c.isPut⟩ ((progressMonitor sub.key).record p c a) := by
  refine ⟨?_, h.wp.2 a⟩
  have hp : p.putJob = putJob := h.putJob
  cases c with
  | put job =>
    show true = (putJob || true)
    rw [Bool.or_true]
  | now => rw [← hp]; exact (Bool.or_false _).symm
  | get jobId => rw [← hp]; cases a <;> exact (Bool.or_false _).symm
  | publish event => rw [← hp]; cases a <;> exact (Bool.or_false _).symm

end

/-! ## One step -/

section
variable {s : BatchStore} {env : CallEnv} {c : BatchApiCall}

theorem perform_published {event : BatchChunkEvent} (h : event ∈ s.published) : event ∈ (s.perform env c).published := by
  unfold BatchStore.perform
  split
  · exact h
  · split
    · exact List.mem_append_left _ h
    · exact h
  · exact h

theorem perform_published_cases {event : BatchChunkEvent} (h : event ∈ (s.perform env c).published) :
    event ∈ s.published ∨ c = .publish event := by
  unfold BatchStore.perform at h
  split at h
  · exact .inl h
  · split at h
    · rcases List.mem_append.mp h with h | h
      · exact .inl h
      · exact .inr (congrArg _ (List.mem_singleton.mp h).symm)
    · exact .inl h
  · exact .inl h

theorem perform_jobs (hc : c.isPut = false) : (s.perform env c).jobs = s.jobs := by
  cases c with
  | put job => cases hc
  | publish event =>
    unfold BatchStore.perform
    dsimp only
    split <;> rfl
  | now => rfl
  | get jobId => rfl

theorem perform_publish_ok {event : BatchChunkEvent} {u : Unit} (h : s.answer env (.publish event) = .ok u) :
    event ∈ (s.perform env (.publish event)).published := by
  obtain ⟨hr, -, -⟩ := CallEnv.reply_ok h
  unfold BatchStore.perform
  dsimp only
  rw [if_pos hr]
  exact List.mem_append_right _ (List.mem_singleton.mpr rfl)

theorem mem_set_of_mem {α : Type} {l : List α} {i : Nat} {a b x : α} (hi : l[i]? = some a) (h : x ∈ l) :
    x = a ∨ x ∈ l.set i b := by
  obtain ⟨j, hj⟩ := List.mem_iff_getElem?.mp h
  by_cases hij : i = j
  · subst hij
    rw [hi] at hj
    cases hj
    exact .inl rfl
  · refine .inr (List.mem_of_getElem? (i := j) ?_)
    rw [List.getElem?_set_ne hij]
    exact hj

theorem setChunk_errorSummary {now : Int} {jobs : BatchJobs} {jobId key : String} {chunk : BatchChunkStatus}
    {job' : BatchJobStatus} (h : Dict.get? (setChunk now jobs jobId chunk) key = some job') :
    ∃ job, Dict.get? jobs key = some job ∧ job.errorSummary = job'.errorSummary := by
  unfold setChunk at h
  split at h
  · exact ⟨job', h, rfl⟩
  · rename_i existing he
    rw [Dict.get?_set] at h
    split at h
    · rename_i hk
      subst hk
      cases h
      refine ⟨existing, he, ?_⟩
      unfold mergeChunk
      dsimp only
      split <;> rfl
    · exact ⟨job', h, rfl⟩

end

namespace RecoveryRun

section
variable {sub : BatchSubmission} {s : RecoveryRun}

def Published (s : RecoveryRun) (chunkId : String) : Prop := ∃ event ∈ s.store.published, event.chunkId = chunkId

structure Informed (sub : BatchSubmission) (s : RecoveryRun) (x : Submission) (p : Progress) : Prop extends
    x.Tracked sub p where
  known : ∀ chunkId ∈ sub.chunkIds, p.known chunkId → s.Published chunkId

theorem Informed.mono {s' : RecoveryRun} {x : Submission} {p : Progress} (h : s.Informed sub x p)
    (hs : ∀ event ∈ s.store.published, event ∈ s'.store.published) : s'.Informed sub x p :=
  ⟨h.toTracked, fun chunkId hc hk =>
    let ⟨event, he, hid⟩ := h.known chunkId hc hk
    ⟨event, hs event he, hid⟩⟩

/-! ### Recovery -/

/-- A job without an error is published, or a submission is publishing it. -/
structure RecoveryInv (sub : BatchSubmission) (s : RecoveryRun) : Prop where
  informed : ∀ x ∈ s.submissions, ∃ p, s.Informed sub x p
  live : ∀ job, s.job? sub = some job → job.errorSummary = none →
    s.AllPublished sub ∨ ∃ x ∈ s.submissions, ∃ p, s.Informed sub x p ∧ x.putJob = true ∧ p.failed = false

theorem RecoveryInv.recovered (hi : RecoveryInv sub s) : s.Recovered sub := by
  intro x hx haccepted chunkId hc
  obtain ⟨p, hp⟩ := hi.informed x hx
  obtain ⟨program, putJob⟩ := x
  cases program with
  | call c k => cases haccepted
  | ret result =>
    cases result with
    | error e => cases haccepted
    | ok response => exact hp.known chunkId hc (hp.wp chunkId hc)

theorem RecoveryInv.quiet (hi : RecoveryInv sub s) (hq : ∀ x ∈ s.submissions, x.publishing = false) {job : BatchJobStatus}
    (hjob : s.job? sub = some job) (he : job.errorSummary = none) : s.AllPublished sub := by
  rcases hi.live job hjob he with h | ⟨x, hx, p, hp, hput, hfailed⟩
  · exact h
  · have hquiet := hq x hx
    obtain ⟨program, putJob⟩ := x
    cases program with
    | call c k =>
      cases hput
      cases hquiet
    | ret result =>
      cases result with
      | ok response => exact fun chunkId hc => hp.known chunkId hc (hp.wp chunkId hc)
      | error e =>
        have hf : p.failed = true := hp.wp (hp.putJob.trans hput)
        rw [hfailed] at hf
        cases hf

theorem RecoveryInv.initial : RecoveryInv sub {} :=
  ⟨fun _ h => (nomatch h), fun _ h => (nomatch h)⟩

theorem RecoveryInv.submit (hi : RecoveryInv sub s) : RecoveryInv sub (s.step sub .submit) := by
  refine ⟨fun x hx => ?_, fun job hjob he => ?_⟩
  · rcases List.mem_append.mp hx with hx | hx
    · obtain ⟨p, hp⟩ := hi.informed x hx
      exact ⟨p, hp.mono fun _ h => h⟩
    · cases List.mem_singleton.mp hx
      exact ⟨_, Submission.Tracked.initial, fun _ _ h => h.elim⟩
  · rcases hi.live job hjob he with h | ⟨x, hx, p, hp, hlive⟩
    · exact .inl h
    · exact .inr ⟨x, List.mem_append_left _ hx, p, hp.mono fun _ h => h, hlive⟩

theorem RecoveryInv.work (hi : RecoveryInv sub s) (delivery : Nat) (report : BatchChunkStatus) (now : Int) :
    RecoveryInv sub (s.step sub (.work delivery report now)) := by
  unfold RecoveryRun.step
  dsimp only
  cases s.store.published[delivery]? with
  | none => exact hi
  | some event =>
    refine ⟨fun x hx => ?_, fun job hjob he => ?_⟩
    · obtain ⟨p, hp⟩ := hi.informed x hx
      exact ⟨p, hp.mono fun _ h => h⟩
    · obtain ⟨before, hbefore, heq⟩ := setChunk_errorSummary hjob
      rcases hi.live before hbefore (heq.trans he) with h | ⟨x, hx, p, hp, hlive⟩
      · exact .inl h
      · exact .inr ⟨x, hx, p, hp.mono fun _ h => h, hlive⟩

theorem RecoveryInv.informed_call (hi : RecoveryInv sub s) {i : Nat} {env : CallEnv} {c : BatchApiCall}
    {k : c.Ans → BatchApi.Program (Except HttpError BatchJobResponse)} {putJob : Bool}
    (hx : s.submissions[i]? = some ⟨.call c k, putJob⟩) (hf : s.FailureSeen (.advance i env)) {p : Progress}
    (hp : s.Informed sub ⟨.call c k, putJob⟩ p) {s' : RecoveryRun} (hs : s'.store = s.store.perform env c) :
    s'.Informed sub ⟨k (s.store.answer env c), putJob || c.isPut⟩
      ((progressMonitor sub.key).record p c (s.store.answer env c)) := by
  refine ⟨hp.toTracked.call _, fun chunkId hc hk => ?_⟩
  have hmono : s.Published chunkId → s'.Published chunkId := fun ⟨event, he, hid⟩ =>
    ⟨event, by rw [hs]; exact perform_published he, hid⟩
  cases c with
  | now => exact hmono (hp.known chunkId hc hk)
  | put job => exact hmono (hp.known chunkId hc hk)
  | get jobId =>
    have hkey : jobId = sub.key := hp.wp.1
    subst hkey
    unfold FailureSeen at hf
    dsimp only at hf
    rw [hx] at hf
    cases hjob : Dict.get? s.store.jobs sub.key with
    | none =>
      rw [show s.store.answer env (.get sub.key) = none from hjob] at hk
      exact hmono (hp.known chunkId hc hk)
    | some job =>
      rw [show s.store.answer env (.get sub.key) = some job from hjob] at hk
      rcases hk with hk | hk
      · exact hmono (hp.known chunkId hc hk)
      · obtain ⟨he, hq⟩ := hf job hjob hk
        exact hmono (hi.quiet hq hjob he chunkId hc)
  | publish event =>
    cases ha : s.store.answer env (.publish event) with
    | error e =>
      rw [ha] at hk
      exact hmono (hp.known chunkId hc hk)
    | ok u =>
      rw [ha] at hk
      rcases hk with hk | rfl
      · exact hmono (hp.known chunkId hc hk)
      · exact ⟨event, by rw [hs]; exact perform_publish_ok ha, rfl⟩

theorem RecoveryInv.advance (hi : RecoveryInv sub s) (i : Nat) (env : CallEnv) (hf : s.FailureSeen (.advance i env)) :
    RecoveryInv sub (s.step sub (.advance i env)) := by
  unfold RecoveryRun.step
  dsimp only
  split
  · rename_i c k putJob hx
    have hmem : (⟨.call c k, putJob⟩ : Submission) ∈ s.submissions := List.mem_of_getElem? hx
    have hnew : (⟨k (s.store.answer env c), putJob || c.isPut⟩ : Submission) ∈
        s.submissions.set i ⟨k (s.store.answer env c), putJob || c.isPut⟩ :=
      List.mem_set (List.getElem?_eq_some_iff.mp hx).1 _
    refine ⟨fun x hmem' => ?_, fun job hjob he => ?_⟩
    · rcases List.mem_or_eq_of_mem_set hmem' with hold | rfl
      · obtain ⟨p, hp⟩ := hi.informed x hold
        exact ⟨p, hp.mono fun _ h => perform_published h⟩
      · obtain ⟨p, hp⟩ := hi.informed _ hmem
        exact ⟨_, hi.informed_call hx hf hp rfl⟩
    · by_cases hput : c.isPut = true
      · obtain ⟨p, hp⟩ := hi.informed _ hmem
        cases c with
        | put written =>
          obtain ⟨hkey, hfirst, hagain⟩ := hp.wp.1
          have hjob' : Dict.get? (Dict.set s.store.jobs written.jobId written) sub.key = some job := hjob
          rw [hkey, Dict.get?_set_self] at hjob'
          cases hjob'
          refine .inr ⟨_, hnew, _, hi.informed_call hx hf hp rfl, Bool.or_true _, ?_⟩
          show p.putJob = false
          by_contra hne
          exact (hagain (eq_true_of_ne_false hne)).2 he
        | _ => cases hput
      · have hno : c.isPut = false := eq_false_of_ne_true hput
        have hjob' : Dict.get? (s.store.perform env c).jobs sub.key = some job := hjob
        rw [perform_jobs hno] at hjob'
        rcases hi.live job hjob' he with h | ⟨x, hold, p, hp, hlive, hfailed⟩
        · exact .inl fun chunkId hc =>
            let ⟨event, hev, hid⟩ := h chunkId hc
            ⟨event, perform_published hev, hid⟩
        · rcases mem_set_of_mem (b := ⟨k (s.store.answer env c), putJob || c.isPut⟩) hx hold with rfl | hkept
          · refine .inr ⟨_, hnew, _, hi.informed_call hx hf hp rfl, by rw [show putJob = true from hlive]; rfl, ?_⟩
            cases c with
            | put job => cases hno
            | now => exact hfailed
            | get jobId => cases s.store.answer env (.get jobId) <;> exact hfailed
            | publish event => cases s.store.answer env (.publish event) <;> exact hfailed
          · exact .inr ⟨x, hkept, p, hp.mono fun _ h => perform_published h, hlive, hfailed⟩
  · exact hi

theorem RecoveryInv.step (hi : RecoveryInv sub s) (a : RecoveryAction) (hf : s.FailureSeen a) :
    RecoveryInv sub (s.step sub a) := by
  cases a with
  | submit => exact hi.submit
  | advance i env => exact hi.advance i env hf
  | work delivery report now => exact hi.work delivery report now

/-! ### Reports -/

/-- Chunks are published after the job is put; until it is submitted again only one submission puts it. -/
structure ReportsInv (sub : BatchSubmission) (s : RecoveryRun) : Prop where
  tracked : ∀ x ∈ s.submissions, ∃ p, x.Tracked sub p
  events : ∀ event ∈ s.store.published, event.batchJobId = sub.key
  stored : ∀ x ∈ s.submissions, x.putJob = true → (s.job? sub).isSome
  found : s.store.published ≠ [] → (s.job? sub).isSome
  single : s.submissions.length ≤ 1 → (∀ x ∈ s.submissions, x.putJob = false) → s.reported = []
  published : s.submissions.length ≤ 1 → (∀ x ∈ s.submissions, x.putJob = false) → s.store.published = []
  kept : s.ReportsKept sub

theorem ReportsInv.initial : ReportsInv sub {} where
  tracked _ h := (nomatch h)
  events _ h := (nomatch h)
  stored _ h := (nomatch h)
  found h := absurd rfl h
  single _ _ := rfl
  published _ _ := rfl
  kept _ _ h := (nomatch h)

theorem ReportsInv.submit (hi : ReportsInv sub s) : ReportsInv sub (s.step sub .submit) := by
  have hfirst : (s.submissions ++ [(⟨sub.program, false⟩ : Submission)]).length ≤ 1 → s.submissions = [] := by
    intro h
    rw [List.length_append, List.length_singleton] at h
    exact List.length_eq_zero_iff.mp (by omega)
  refine ⟨fun x hx => ?_, hi.events, fun x hx hput => ?_, hi.found, fun h _ => ?_, fun h _ => ?_, fun h => ?_⟩
  · rcases List.mem_append.mp hx with hx | hx
    · exact hi.tracked x hx
    · cases List.mem_singleton.mp hx
      exact ⟨_, Submission.Tracked.initial⟩
  · rcases List.mem_append.mp hx with hx | hx
    · exact hi.stored x hx hput
    · cases List.mem_singleton.mp hx
      cases hput
  · have hnil := hfirst h
    exact hi.single (by rw [hnil]; exact Nat.zero_le _) (by rw [hnil]; exact fun _ h => (nomatch h))
  · have hnil := hfirst h
    exact hi.published (by rw [hnil]; exact Nat.zero_le _) (by rw [hnil]; exact fun _ h => (nomatch h))
  · have hnil := hfirst h
    exact hi.kept (by rw [hnil]; exact Nat.zero_le _)

theorem ReportsInv.work (hi : ReportsInv sub s) (delivery : Nat) (report : BatchChunkStatus) (now : Int) :
    ReportsInv sub (s.step sub (.work delivery report now)) := by
  unfold RecoveryRun.step
  dsimp only
  cases hev : s.store.published[delivery]? with
  | none => exact hi
  | some event =>
    have hmem := List.mem_of_getElem? hev
    have hkey := hi.events event hmem
    have hne : s.store.published ≠ [] := List.ne_nil_of_mem hmem
    dsimp only
    rw [hkey]
    have hget := setChunk_get? now s.store.jobs sub.key { report with chunkId := event.chunkId }
    obtain ⟨job, hjob⟩ := Option.isSome_iff_exists.mp (hi.found hne)
    rw [show Dict.get? s.store.jobs sub.key = some job from hjob] at hget
    refine ⟨hi.tracked, hi.events, fun x _ _ => by rw [job?, hget]; rfl, fun _ => by rw [job?, hget]; rfl,
      fun h hput => absurd (hi.published h hput) hne, hi.published, fun h chunkId hc => ?_⟩
    rw [job?, hget]
    show ((mergeChunk now job { report with chunkId := event.chunkId }).chunkState chunkId).any ChunkState.terminal
    have hold : chunkId ∈ s.reported →
        ((mergeChunk now job { report with chunkId := event.chunkId }).chunkState chunkId).any ChunkState.terminal := by
      intro hr
      have hshown := hi.kept h chunkId hr
      rw [hjob] at hshown
      obtain ⟨state, hstate, ht⟩ := (Option.any_eq_true _ _).mp hshown
      obtain ⟨state', hstate', ht'⟩ := mergeChunk_terminal hstate ht
      rw [hstate']
      exact ht'
    by_cases ht : report.status.terminal = true
    · rw [if_pos ht] at hc
      rcases List.mem_append.mp hc with hc | hc
      · exact hold hc
      · cases List.mem_singleton.mp hc
        have hself : (mergeChunk now job { report with chunkId := event.chunkId }).chunkState event.chunkId =
            some report.status := mergeChunk_self ht
        rw [hself]
        exact ht
    · rw [if_neg ht] at hc
      exact hold hc

/-- The job that is there stays, and one that is put is there. -/
theorem job_found {c : BatchApiCall} {k : c.Ans → BatchApi.Program (Except HttpError BatchJobResponse)}
    {putJob : Bool} {p : Progress} (hp : Submission.Tracked sub ⟨.call c k, putJob⟩ p) (env : CallEnv)
    (h : c.isPut = true ∨ (s.job? sub).isSome) : (Dict.get? (s.store.perform env c).jobs sub.key).isSome := by
  by_cases hput : c.isPut = true
  · cases c with
    | put written =>
      show (Dict.get? (Dict.set s.store.jobs written.jobId written) sub.key).isSome
      rw [hp.wp.1.1, Dict.get?_set_self]
      rfl
    | _ => cases hput
  · rw [perform_jobs (eq_false_of_ne_true hput)]
    exact h.resolve_left hput

/-- The only submission puts the job before a worker reports anything, or puts a failed job again. -/
theorem ReportsInv.put_unreported (hi : ReportsInv sub s) {i : Nat} {env : CallEnv} {job : BatchJobStatus}
    {k : (BatchApiCall.put job).Ans → BatchApi.Program (Except HttpError BatchJobResponse)} {putJob : Bool}
    (hx : s.submissions[i]? = some ⟨.call (.put job) k, putJob⟩) (hone : s.submissions.length ≤ 1)
    (hc : s.SnapshotCurrent (.advance i env)) : s.reported = [] := by
  have hmem : (⟨.call (.put job) k, putJob⟩ : Submission) ∈ s.submissions := List.mem_of_getElem? hx
  obtain ⟨p, hp⟩ := hi.tracked _ hmem
  cases hput : putJob with
  | false =>
    refine hi.single hone fun x hx' => ?_
    obtain ⟨a, ha⟩ : ∃ a, s.submissions = [a] :=
      List.length_eq_one_iff.mp (Nat.le_antisymm hone (List.length_pos_of_mem hmem))
    rw [ha] at hx' hmem
    rw [List.mem_singleton.mp hx', ← List.mem_singleton.mp hmem]
    exact hput
  | true =>
    have hstatus := (hp.wp.1.2.2 (hp.putJob.trans hput)).1
    unfold SnapshotCurrent at hc
    dsimp only at hc
    rw [hx] at hc
    exact hc hone hstatus

theorem ReportsInv.advance (hi : ReportsInv sub s) (i : Nat) (env : CallEnv) (hc : s.SnapshotCurrent (.advance i env)) :
    ReportsInv sub (s.step sub (.advance i env)) := by
  unfold RecoveryRun.step
  dsimp only
  split
  · rename_i c k putJob hx
    have hmem : (⟨.call c k, putJob⟩ : Submission) ∈ s.submissions := List.mem_of_getElem? hx
    have hnew : (⟨k (s.store.answer env c), putJob || c.isPut⟩ : Submission) ∈
        s.submissions.set i ⟨k (s.store.answer env c), putJob || c.isPut⟩ :=
      List.mem_set (List.getElem?_eq_some_iff.mp hx).1 _
    obtain ⟨p, hp⟩ := hi.tracked _ hmem
    have hjob := job_found (s := s) hp env
    -- Where no submission has put the job now, none had before.
    have hbefore : (∀ x ∈ s.submissions.set i ⟨k (s.store.answer env c), putJob || c.isPut⟩, x.putJob = false) →
        c.isPut = false ∧ ∀ x ∈ s.submissions, x.putJob = false := by
      intro h
      obtain ⟨hold, hno⟩ := Bool.or_eq_false_iff.mp (h _ hnew)
      refine ⟨hno, fun x hx' => ?_⟩
      rcases mem_set_of_mem (b := ⟨k (s.store.answer env c), putJob || c.isPut⟩) hx hx' with rfl | hx'
      · exact hold
      · exact h x hx'
    refine ⟨fun x hx' => ?_, fun event he => ?_, fun x hx' hput => ?_, fun h => ?_, fun h hput => ?_, fun h hput => ?_,
      fun h => ?_⟩
    · rcases List.mem_or_eq_of_mem_set hx' with hx' | rfl
      · exact hi.tracked x hx'
      · exact ⟨_, hp.call _⟩
    · rcases perform_published_cases he with he | rfl
      · exact hi.events event he
      · exact hp.wp.1.1
    · rcases List.mem_or_eq_of_mem_set hx' with hx' | rfl
      · exact hjob (.inr (hi.stored x hx' hput))
      · rcases Bool.or_eq_true_iff.mp hput with hput | hput
        · exact hjob (.inr (hi.stored _ hmem hput))
        · exact hjob (.inl hput)
    · obtain ⟨event, he⟩ := List.exists_mem_of_ne_nil _ h
      rcases perform_published_cases he with he | rfl
      · exact hjob (.inr (hi.found (List.ne_nil_of_mem he)))
      · exact hjob (.inr (hi.stored _ hmem (hp.putJob.symm.trans hp.wp.1.2)))
    · rw [List.length_set] at h
      exact hi.single h (hbefore hput).2
    · rw [List.length_set] at h
      refine List.eq_nil_iff_forall_not_mem.mpr fun event he => ?_
      rcases perform_published_cases he with he | rfl
      · rw [hi.published h (hbefore hput).2] at he
        cases he
      · have hown : putJob = true := hp.putJob.symm.trans hp.wp.1.2
        have hno : putJob = false := (hbefore hput).2 _ hmem
        rw [hown] at hno
        cases hno
    · have hone : s.submissions.length ≤ 1 := by
        have hlen : (s.submissions.set i ⟨k (s.store.answer env c), putJob || c.isPut⟩).length ≤ 1 := h
        rwa [List.length_set] at hlen
      show ∀ chunkId ∈ s.reported, ((Dict.get? (s.store.perform env c).jobs sub.key).bind _).any _
      by_cases hput : c.isPut = true
      · cases c with
        | put written =>
          have hnone : s.reported = [] := hi.put_unreported hx hone hc
          rw [hnone]
          exact fun _ h => (nomatch h)
        | _ => cases hput
      · rw [perform_jobs (eq_false_of_ne_true hput)]
        exact hi.kept hone
  · exact hi

theorem ReportsInv.step (hi : ReportsInv sub s) (a : RecoveryAction) (hc : s.SnapshotCurrent a) :
    ReportsInv sub (s.step sub a) := by
  cases a with
  | submit => exact hi.submit
  | advance i env => exact hi.advance i env hc
  | work delivery report now => exact hi.work delivery report now

end

end RecoveryRun

/-- Where no submission overlooks that the publication failed, an accepted one leaves every chunk published; where the job
is not put as failed over reports, they are kept until it is submitted again. -/
theorem failed_publication_recovered (sub : BatchSubmission) (actions visited : List RecoveryAction)
    (hv : visited <+: actions) :
    (Runs.Steady (RecoveryRun.step sub) RecoveryRun.FailureSeen {} actions →
      (Runs.run (RecoveryRun.step sub) {} visited).Recovered sub) ∧
    (Runs.Steady (RecoveryRun.step sub) RecoveryRun.SnapshotCurrent {} actions →
      (Runs.run (RecoveryRun.step sub) {} visited).ReportsKept sub) := by
  obtain ⟨rest, rfl⟩ := hv
  constructor
  · intro hs
    have hkeep : ∀ (s : RecoveryRun) a, RecoveryRun.RecoveryInv sub s → s.FailureSeen a →
        RecoveryRun.RecoveryInv sub (s.step sub a) := fun s a hi hf => hi.step a hf
    exact (Runs.Steady.invariant hkeep .initial (Runs.Steady.append.mp hs).1).recovered
  · intro hs
    have hkeep : ∀ (s : RecoveryRun) a, RecoveryRun.ReportsInv sub s → s.SnapshotCurrent a →
        RecoveryRun.ReportsInv sub (s.step sub a) := fun s a hi hc => hi.step a hc
    exact (Runs.Steady.invariant hkeep .initial (Runs.Steady.append.mp hs).1).kept

/-! ## Workers that go on after the failure -/

def usersSubmission (users : List String) : BatchSubmission :=
  ⟨smallSettings, userRegistry lastView, {}, usersJob users⟩

/-- The calls of the first submission: the clock, the job, its put, the first chunk, and the second, which is not
published. -/
def secondChunkFails : List RecoveryAction :=
  [.submit, .advance 0 {}, .advance 0 {}, .advance 0 {}, .advance 0 {}, .advance 0 { reached := false }]

def failAndRetry : List RecoveryAction :=
  [.advance 0 {}, .advance 0 {}, .submit, .advance 1 {}, .advance 1 {}, .advance 1 {}, .advance 1 {}, .advance 1 {}]

def chunkReport (state : ChunkState) : BatchChunkStatus := ⟨"", 0, state, 1, 5, 0, 0, [], none⟩

/-- A worker starts on the first chunk after the job is put as failed: the second one is never published. -/
def startedAfterFailure : List RecoveryAction :=
  secondChunkFails ++ [.advance 0 {}, .advance 0 {}, .work 0 (chunkReport .running) 5, .submit, .advance 1 {},
    .advance 1 {}]

/-- A worker completes the first chunk before the job is put as failed: it is shown as accepted again. -/
def completedBeforeFailure : List RecoveryAction :=
  secondChunkFails ++ [.work 0 (chunkReport .completed) 5, .advance 0 {}, .advance 0 {}]

theorem failure_overlooked :
    ¬ (Runs.run (RecoveryRun.step (usersSubmission ["1", "2"])) {} startedAfterFailure).Recovered
        (usersSubmission ["1", "2"]) ∧
    ¬ (Runs.run (RecoveryRun.step (usersSubmission ["1", "2"])) {} completedBeforeFailure).ReportsKept
        (usersSubmission ["1", "2"]) := by
  decide +kernel

theorem retry_publishes :
    let s := Runs.run (RecoveryRun.step (usersSubmission ["1", "2"])) {} (secondChunkFails ++ failAndRetry)
    s.submissions.map Submission.accepted = [false, true] ∧
      s.Recovered (usersSubmission ["1", "2"]) ∧ s.ReportsKept (usersSubmission ["1", "2"]) := by
  have h := failed_publication_recovered (usersSubmission ["1", "2"]) (secondChunkFails ++ failAndRetry) _
    (List.prefix_refl _)
  exact ⟨by decide +kernel, h.1 (by decide +kernel), h.2 (by decide +kernel)⟩

end ClearFeature
