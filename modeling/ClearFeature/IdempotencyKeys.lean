import ClearFeature.BatchJobs
import ClearFeature.Consistency
import ClearFeature.Requests

/-!
# Idempotency keys of batch jobs

A stored job has the identity of the request it was made of, whatever its
chunks are by now. A request that meets a job of its key and is compared with it
either is refused or has this identity.
-/

namespace ClearFeature

/-! ## The identity of a stored job -/

/-- One slice more: `-(-n // size)` counts them. -/
theorem ceilDiv_step {n size : Nat} (hn : 0 < n) (hs : 0 < size) :
    -(-((n - size : Nat) : Int) / size) + 1 = -(-(n : Int) / size) := by
  have hne : (size : Int) ≠ 0 := by omega
  by_cases h : size ≤ n
  · have hsub : -((n - size : Nat) : Int) = -(n : Int) + 1 * (size : Int) := by omega
    rw [hsub, Int.add_mul_ediv_right _ _ hne]
    omega
  · have hzero : n - size = 0 := by omega
    have hlast : -(n : Int) = ((size : Int) - n) + -1 * (size : Int) := by omega
    have hquot : ((size : Int) - n) / size = 0 := Int.ediv_eq_zero_of_lt (by omega) (by omega)
    rw [hzero, hlast, Int.add_mul_ediv_right _ _ hne, hquot]
    simp

theorem slices_length {α : Type} (size : Nat) (hs : 0 < size) : ∀ (fuel : Nat) (items : List α), items.length ≤ fuel →
    ((slices size fuel items).length : Int) = -(-(items.length : Int) / size)
  | 0, items, h => by
    have hnil : items.length = 0 := Nat.le_zero.mp h
    simp [slices, hnil]
  | fuel + 1, items, h => by
    unfold slices
    split
    · rename_i he
      have hnil : items.length = 0 := by simpa using he
      simp [hnil]
    · rename_i he
      have hpos : 0 < items.length := by
        cases items with
        | nil => simp at he
        | cons a as => simp
      have ih := slices_length size hs fuel (items.drop size) (by simp; omega)
      rw [List.length_cons, Int.natCast_add, ih, List.length_drop]
      exact ceilDiv_step hpos hs

section
variable {settings : BatchSettings} {registry : Registry} {datasets : SourceDatasets} {request : BatchJobIn}
  {prepared : PreparedBatch}

theorem prepareBatch_ok (h : prepareBatch settings registry datasets request = .ok prepared) :
    0 < request.chunkSize ∧ ∃ viewDef, planRequest registry request.view request.viewVersion request.requestedFeatures
      request.requestedFeatureGroups = .ok (viewDef, prepared.plan) := by
  unfold prepareBatch at h
  obtain ⟨u, hsize, h⟩ := bind_eq_ok.mp h
  have hpos : 0 < request.chunkSize := by
    unfold refuseIf at hsize
    split at hsize
    · cases hsize
    · omega
  refine ⟨hpos, ?_⟩
  split at h
  · cases h
  · rename_i viewDef plan hplan
    simp only [bind_eq_ok] at h
    obtain ⟨⟨items, manifestId, manifestIds⟩, -, -, -, -, -, hprepared⟩ := h
    cases hprepared
    exact ⟨viewDef, hplan⟩

/-- The fields of a job that its identity is made of. -/
structure SameRequest (a b : BatchJobStatus) : Prop where
  view : a.view = b.view
  viewVersion : a.viewVersion = b.viewVersion
  requestedFeatures : a.requestedFeatures = b.requestedFeatures
  requestedFeatureGroups : a.requestedFeatureGroups = b.requestedFeatureGroups
  manifestId : a.manifestId = b.manifestId
  manifestIds : a.manifestIds = b.manifestIds
  writeOnline : a.writeOnline = b.writeOnline
  onlineRefreshMode : a.onlineRefreshMode = b.onlineRefreshMode
  totalItems : a.totalItems = b.totalItems
  chunkCount : a.chunkCount = b.chunkCount

theorem SameRequest.identity {a b : BatchJobStatus} (h : SameRequest a b) :
    existingJobIdentity registry a = existingJobIdentity registry b := by
  unfold existingJobIdentity
  rw [h.view, h.viewVersion, h.requestedFeatures, h.requestedFeatureGroups, h.manifestId, h.manifestIds,
    h.writeOnline, h.onlineRefreshMode, h.totalItems, h.chunkCount]

theorem mergeChunk_sameRequest (now : Int) (job : BatchJobStatus) (chunk : BatchChunkStatus) :
    SameRequest (mergeChunk now job chunk) job := by
  unfold mergeChunk
  dsimp only
  split
  · exact ⟨rfl, rfl, rfl, rfl, rfl, rfl, rfl, rfl, rfl, rfl⟩
  · exact ⟨rfl, rfl, rfl, rfl, rfl, rfl, rfl, rfl, rfl, rfl⟩

theorem job_identity (h : prepareBatch settings registry datasets request = .ok prepared) {job : BatchJobStatus} {t : Int}
    (hj : SameRequest job (prepared.job request t)) :
    existingJobIdentity registry job = some (prepared.identity request) := by
  obtain ⟨hpos, viewDef, hplan⟩ := prepareBatch_ok h
  have hcount : ((prepared.chunks request).length : Int) = -(-(prepared.items.length : Int) / request.chunkSize) := by
    have hsize : ((request.chunkSize.toNat : Nat) : Int) = request.chunkSize := by omega
    have hlen := slices_length request.chunkSize.toNat (by omega) prepared.items.length prepared.items
      (Nat.le_refl _)
    rw [hsize] at hlen
    exact hlen
  rw [hj.identity]
  unfold existingJobIdentity PreparedBatch.job PreparedBatch.identity
  dsimp only
  rw [hplan, hcount]

end

/-! ## Submissions, one after the other -/

/-- `puts` are all writes of jobs. -/
structure BatchStore where
  jobs : BatchJobs := []
  puts : List BatchJobStatus := []
  published : List BatchChunkEvent := []

def BatchStore.perform (s : BatchStore) (env : CallEnv) : BatchApiCall → BatchStore
  | .put job => { s with jobs := Dict.set s.jobs job.jobId job, puts := s.puts ++ [job] }
  | .publish event => if env.reached then { s with published := s.published ++ [event] } else s
  | _ => s

def BatchStore.answer (s : BatchStore) (env : CallEnv) : (c : BatchApiCall) → c.Ans
  | .now => env.now
  | .get jobId => Dict.get? s.jobs jobId
  | .put _ => ()
  | .publish _ => env.reply ()

/-- A program from its first to its last call; each call takes the next of `envs`. -/
def BatchStore.exec {α : Type} : BatchStore → List CallEnv → BatchApi.Program α → BatchStore × α
  | s, _, .ret a => (s, a)
  | s, envs, .call c k =>
    (s.perform (envs.headD {}) c).exec envs.tail (k (s.answer (envs.headD {}) c))

theorem BatchStore.exec_ask {α : Type} (s : BatchStore) (envs : List CallEnv) (c : BatchApiCall)
    (f : c.Ans → BatchApi.Program α) : s.exec envs (Prog.ask c >>= f) =
      (s.perform (envs.headD {}) c).exec envs.tail (f (s.answer (envs.headD {}) c)) := rfl

theorem BatchStore.exec_pure {α : Type} (s : BatchStore) (envs : List CallEnv) (a : α) :
    s.exec envs (pure a) = (s, a) := rfl

def HttpError.conflicted {α : Type} : Except HttpError α → Bool
  | .error e => e.statusCode = 409
  | .ok _ => false

/-- What is known of a submission afterwards; one that validation refuses has no identity. -/
structure SubmissionRecord where
  key : String
  identity : Option BatchIdentity
  wrote : Bool
  result : Except HttpError BatchJobResponse

structure JobsHistory where
  store : BatchStore := {}
  submissions : List SubmissionRecord := []

/-- `setChunk` is an update by a batch worker. -/
inductive JobsAction where
  | submit (datasets : SourceDatasets) (request : BatchJobIn) (envs : List CallEnv)
  | setChunk (now : Int) (jobId : String) (chunk : BatchChunkStatus)

namespace JobsHistory

section
variable (settings : BatchSettings) (registry : Registry)

def step (s : JobsHistory) : JobsAction → JobsHistory
  | .submit datasets request envs =>
    let (store, result) := s.store.exec envs (BatchApi.createBatchJob settings registry datasets request)
    { store
      submissions := s.submissions ++ [{
        key := request.idempotencyKey
        identity := (prepareBatch settings registry datasets request).toOption.map (·.identity request)
        wrote := s.store.puts.length < store.puts.length ∨ s.store.published.length < store.published.length
        result }] }
  | .setChunk now jobId chunk => { s with store := { s.store with jobs := setChunk now s.store.jobs jobId chunk } }

/-- After a submission that has written, one of the same key that is not refused has its identity; one that is refused
with 409, or by validation, writes nothing. -/
def KeysSound (s : JobsHistory) : Prop :=
  s.submissions.Pairwise (fun a b => a.wrote → b.key = a.key → HttpError.conflicted b.result = false →
    b.identity ≠ none → b.identity = a.identity) ∧
  ∀ b ∈ s.submissions, HttpError.conflicted b.result ∨ b.identity = none → b.wrote = false

/-- A request that meets a job whose publication failed has the identity of that job. -/
def RetriesIdentical (s : JobsHistory) : JobsAction → Prop
  | .submit datasets request _ =>
    ∀ prepared ∈ (prepareBatch settings registry datasets request).toOption,
      ∀ job ∈ Dict.get? s.store.jobs request.idempotencyKey, job.status = .publishFailed →
        existingJobIdentity registry job = some (prepared.identity request)
  | .setChunk _ _ _ => True

instance (s : JobsHistory) : Decidable s.KeysSound := inferInstanceAs (Decidable (_ ∧ _))

instance decidableRetriesIdentical (s : JobsHistory) (a : JobsAction) :
    Decidable (s.RetriesIdentical settings registry a) := by
  cases a <;> unfold RetriesIdentical <;> infer_instance

end

end JobsHistory

/-! ## What one submission does -/

section
variable {settings : BatchSettings} {registry : Registry} {datasets : SourceDatasets} {request : BatchJobIn}
  {prepared : PreparedBatch}

/-- The jobs of other keys stay; the job of the key is one of the same request. -/
structure WritesJob (job : BatchJobStatus) (jobs jobs' : BatchJobs) : Prop where
  others : ∀ key, key ≠ job.jobId → Dict.get? jobs' key = Dict.get? jobs key
  own : ∃ job', SameRequest job' job ∧ Dict.get? jobs' job.jobId = some job'

theorem WritesJob.put {job job' : BatchJobStatus} (hs : SameRequest job' job) (hid : job'.jobId = job.jobId)
    (jobs : BatchJobs) : WritesJob job jobs (Dict.set jobs job'.jobId job') where
  others key hne := Dict.get?_set_ne _ _ (by rw [hid]; exact hne.symm)
  own := ⟨job', hs, by rw [hid, Dict.get?_set_self]⟩

theorem WritesJob.trans {job : BatchJobStatus} {jobs jobs₁ jobs₂ : BatchJobs} (h₁ : WritesJob job jobs jobs₁)
    (h₂ : WritesJob job jobs₁ jobs₂) : WritesJob job jobs jobs₂ where
  others key hne := (h₂.others key hne).trans (h₁.others key hne)
  own := h₂.own

theorem failedToPublish_sameRequest (job : BatchJobStatus) (failedAt : Int) (error : PublishError) :
    SameRequest (BatchApi.failedToPublish job failedAt error) job :=
  ⟨rfl, rfl, rfl, rfl, rfl, rfl, rfl, rfl, rfl, rfl⟩

/-- Nothing is refused, and the job is left or put again. -/
structure Publishes (job : BatchJobStatus) (s : BatchStore) (out : BatchStore × Except HttpError BatchJobResponse) :
    Prop where
  accepted : HttpError.conflicted out.2 = false
  puts : s.puts.length ≤ out.1.puts.length
  jobs : out.1.jobs = s.jobs ∨ WritesJob job s.jobs out.1.jobs

theorem publishChunks_exec (job : BatchJobStatus) (response : BatchJobResponse) :
    ∀ (events : List (Nat × BatchChunkEvent)) (published : Nat) (s : BatchStore) (envs : List CallEnv),
      Publishes job s (s.exec envs (BatchApi.publishChunks job response published events))
  | [], published, s, envs => ⟨rfl, Nat.le_refl _, .inl rfl⟩
  | (index, event) :: events, published, s, envs => by
    have hsame : (s.perform (envs.headD {}) (.publish event)).jobs = s.jobs ∧
        (s.perform (envs.headD {}) (.publish event)).puts = s.puts := by
      unfold BatchStore.perform
      dsimp only
      split <;> exact ⟨rfl, rfl⟩
    rw [BatchApi.publishChunks, BatchStore.exec_ask]
    cases s.answer (envs.headD {}) (.publish event) with
    | ok u =>
      have hrest := publishChunks_exec job response events (published + 1)
        (s.perform (envs.headD {}) (.publish event)) envs.tail
      exact ⟨hrest.accepted, hsame.2 ▸ hrest.puts, hsame.1 ▸ hrest.jobs⟩
    | error e =>
      dsimp only
      rw [BatchStore.exec_ask, BatchStore.exec_ask, BatchStore.exec_pure]
      refine ⟨rfl, ?_, .inr ?_⟩
      · show s.puts.length ≤ ((s.perform (envs.headD {}) (.publish event)).puts ++ [_]).length
        rw [hsame.2, List.length_append]
        exact Nat.le_add_right _ _
      · rw [← hsame.1]
        exact WritesJob.put (failedToPublish_sameRequest job _ _) rfl _

structure Creates (prepared : PreparedBatch) (request : BatchJobIn) (s : BatchStore)
    (out : BatchStore × Except HttpError BatchJobResponse) : Prop where
  accepted : HttpError.conflicted out.2 = false
  puts : s.puts.length < out.1.puts.length
  job : ∃ t, WritesJob (prepared.job request t) s.jobs out.1.jobs

theorem createAndPublish_exec (startedAt : Int) (s : BatchStore) (envs : List CallEnv) :
    Creates prepared request s (s.exec envs (BatchApi.createAndPublish prepared request startedAt)) := by
  rw [BatchApi.createAndPublish, BatchStore.exec_ask]
  have hput : WritesJob (prepared.job request startedAt) s.jobs
      (s.perform (envs.headD {}) (.put (prepared.job request startedAt))).jobs :=
    WritesJob.put ⟨rfl, rfl, rfl, rfl, rfl, rfl, rfl, rfl, rfl, rfl⟩ rfl _
  have hone : s.puts.length < (s.perform (envs.headD {}) (.put (prepared.job request startedAt))).puts.length := by
    show s.puts.length < (s.puts ++ [_]).length
    rw [List.length_append]
    exact Nat.lt_succ_self _
  have hrest := publishChunks_exec (prepared.job request startedAt) (acceptedJob (prepared.job request startedAt))
    (prepared.chunkEvents request startedAt) 0
    (s.perform (envs.headD {}) (.put (prepared.job request startedAt))) envs.tail
  refine ⟨hrest.accepted, Nat.lt_of_lt_of_le hone hrest.puts, startedAt, ?_⟩
  rcases hrest.jobs with h | h
  · rw [h]
    exact hput
  · exact hput.trans h

/-- What a validated request does: it is compared with the job of its key, or its job is written. -/
inductive Submits (registry : Registry) (prepared : PreparedBatch) (request : BatchJobIn) (s : BatchStore) :
    BatchStore × Except HttpError BatchJobResponse → Prop where
  | compared {job : BatchJobStatus} (found : Dict.get? s.jobs request.idempotencyKey = some job)
      (live : job.status ≠ .publishFailed) :
      Submits registry prepared request s (s, BatchApi.replayJob registry prepared request job)
  | created {out : BatchStore × Except HttpError BatchJobResponse}
      (failed : ∀ job, Dict.get? s.jobs request.idempotencyKey = some job → job.status = .publishFailed)
      (creates : Creates prepared request s out) : Submits registry prepared request s out

theorem createBatchJob_exec (h : prepareBatch settings registry datasets request = .ok prepared) (s : BatchStore)
    (envs : List CallEnv) :
    Submits registry prepared request s (s.exec envs (BatchApi.createBatchJob settings registry datasets request)) := by
  unfold BatchApi.createBatchJob
  rw [h]
  dsimp only
  rw [BatchStore.exec_ask, BatchStore.exec_ask]
  have hjob : (s.perform (envs.headD {}) .now).answer (envs.tail.headD {}) (.get request.idempotencyKey) =
      Dict.get? s.jobs request.idempotencyKey := rfl
  rw [hjob]
  cases hj : Dict.get? s.jobs request.idempotencyKey with
  | none =>
    refine .created (fun job hjob => ?_) (createAndPublish_exec _ s _)
    rw [hj] at hjob
    cases hjob
  | some job =>
    dsimp only
    by_cases hf : job.status = .publishFailed
    · rw [if_pos hf]
      refine .created (fun job' hjob => ?_) (createAndPublish_exec _ s _)
      rw [hj] at hjob
      cases hjob
      exact hf
    · rw [if_neg hf]
      exact .compared hj hf

theorem createBatchJob_refused {e : HttpError} (h : prepareBatch settings registry datasets request = .error e)
    (s : BatchStore) (envs : List CallEnv) :
    s.exec envs (BatchApi.createBatchJob settings registry datasets request) = (s, .error e) := by
  unfold BatchApi.createBatchJob
  rw [h]
  rfl

end

/-! ## Every sequence of submissions -/

namespace JobsHistory

section
variable {settings : BatchSettings} {registry : Registry}

/-- The job of a key is one of the request that wrote it. -/
structure Inv (settings : BatchSettings) (registry : Registry) (s : JobsHistory) : Prop where
  sound : s.KeysSound
  stored : ∀ a ∈ s.submissions, a.wrote → ∃ job, Dict.get? s.store.jobs a.key = some job ∧
    a.identity = existingJobIdentity registry job

theorem Inv.initial : Inv settings registry {} := by
  refine ⟨⟨.nil, ?_⟩, ?_⟩
  · intro b hb
    cases hb
  · intro a ha
    cases ha

theorem Inv.setChunk {s : JobsHistory} (hi : Inv settings registry s) (now : Int) (jobId : String)
    (chunk : BatchChunkStatus) : Inv settings registry (s.step settings registry (.setChunk now jobId chunk)) := by
  refine ⟨hi.sound, fun a ha hw => ?_⟩
  obtain ⟨job, hjob, hid⟩ := hi.stored a ha hw
  show ∃ job, Dict.get? (ClearFeature.setChunk now s.store.jobs jobId chunk) a.key = some job ∧ _
  unfold ClearFeature.setChunk
  cases he : Dict.get? s.store.jobs jobId with
  | none => exact ⟨job, hjob, hid⟩
  | some existing =>
    dsimp only
    rw [Dict.get?_set]
    split
    · rename_i heq
      subst heq
      rw [he] at hjob
      cases hjob
      exact ⟨_, rfl, hid.trans (mergeChunk_sameRequest now job chunk).identity.symm⟩
    · exact ⟨job, hjob, hid⟩

theorem Inv.silent {s : JobsHistory} (hi : Inv settings registry s) {record : SubmissionRecord}
    (hw : record.wrote = false)
    (hid : HttpError.conflicted record.result = false → record.identity ≠ none →
      ∀ job, Dict.get? s.store.jobs record.key = some job → record.identity = existingJobIdentity registry job) :
    Inv settings registry { s with submissions := s.submissions ++ [record] } := by
  refine ⟨⟨List.pairwise_append.mpr ⟨hi.sound.1, List.pairwise_singleton _ _, ?_⟩, ?_⟩, ?_⟩
  · intro a ha b hb haw hkey hres hne
    cases List.mem_singleton.mp hb
    obtain ⟨job, hjob, ha'⟩ := hi.stored a ha haw
    rw [hid hres hne job (hkey ▸ hjob), ha']
  · intro b hb href
    rcases List.mem_append.mp hb with hb | hb
    · exact hi.sound.2 b hb href
    · cases List.mem_singleton.mp hb
      exact hw
  · intro a ha haw
    rcases List.mem_append.mp ha with ha | ha
    · exact hi.stored a ha haw
    · cases List.mem_singleton.mp ha
      rw [hw] at haw
      cases haw

theorem Inv.written {s : JobsHistory} (hi : Inv settings registry s) {record : SubmissionRecord} {store : BatchStore}
    {job : BatchJobStatus} (hwrites : WritesJob job s.store.jobs store.jobs) (hkey : record.key = job.jobId)
    (hid : record.identity = existingJobIdentity registry job) (hne : record.identity ≠ none)
    (hres : HttpError.conflicted record.result = false)
    (hold : ∀ old, Dict.get? s.store.jobs record.key = some old → existingJobIdentity registry old = record.identity) :
    Inv settings registry { store, submissions := s.submissions ++ [record] } := by
  obtain ⟨job', hsame, hjob'⟩ := hwrites.own
  refine ⟨⟨List.pairwise_append.mpr ⟨hi.sound.1, List.pairwise_singleton _ _, ?_⟩, ?_⟩, ?_⟩
  · intro a ha b hb haw hk _ _
    cases List.mem_singleton.mp hb
    obtain ⟨old, hfound, ha'⟩ := hi.stored a ha haw
    rw [ha', hold old (hk ▸ hfound)]
  · intro b hb href
    rcases List.mem_append.mp hb with hb | hb
    · exact hi.sound.2 b hb href
    · cases List.mem_singleton.mp hb
      rcases href with href | href
      · rw [hres] at href
        cases href
      · exact absurd href hne
  · intro a ha haw
    rcases List.mem_append.mp ha with ha | ha
    · obtain ⟨old, hfound, ha'⟩ := hi.stored a ha haw
      by_cases hk : a.key = record.key
      · refine ⟨job', by rw [hk, hkey]; exact hjob', ?_⟩
        rw [ha', hold old (hk ▸ hfound), hid, hsame.identity]
      · exact ⟨old, (hwrites.others a.key (by rw [← hkey]; exact hk)).trans hfound, ha'⟩
    · cases List.mem_singleton.mp ha
      exact ⟨job', by rw [hkey]; exact hjob', hid.trans hsame.identity.symm⟩

theorem Inv.submit {s : JobsHistory} (hi : Inv settings registry s) (datasets : SourceDatasets) (request : BatchJobIn)
    (envs : List CallEnv) (hr : s.RetriesIdentical settings registry (.submit datasets request envs)) :
    Inv settings registry (s.step settings registry (.submit datasets request envs)) := by
  unfold JobsHistory.step
  dsimp only
  cases hp : prepareBatch settings registry datasets request with
  | error e =>
    rw [createBatchJob_refused hp]
    refine hi.silent (by simp) fun _ hne => ?_
    exact absurd rfl hne
  | ok prepared =>
    have hretry := hr prepared (by rw [hp]; rfl)
    have hsub := createBatchJob_exec hp s.store envs
    generalize s.store.exec envs (BatchApi.createBatchJob settings registry datasets request) = out at hsub
    cases hsub with
    | @compared job found live =>
      refine hi.silent (by simp) fun hres hne job' hjob' => ?_
      rw [found] at hjob'
      cases hjob'
      unfold BatchApi.replayJob at hres
      split at hres
      · assumption
      · cases hres
    | created failed creates =>
      obtain ⟨t, hwrites⟩ := creates.job
      refine hi.written hwrites rfl ?_ (fun h => (nomatch h)) creates.accepted fun old hfound => ?_
      · exact (job_identity hp ⟨rfl, rfl, rfl, rfl, rfl, rfl, rfl, rfl, rfl, rfl⟩).symm
      · exact hretry old hfound (failed old hfound)

theorem Inv.step {s : JobsHistory} (hi : Inv settings registry s) (a : JobsAction)
    (hr : s.RetriesIdentical settings registry a) : Inv settings registry (s.step settings registry a) := by
  cases a with
  | submit datasets request envs => exact hi.submit datasets request envs hr
  | setChunk now jobId chunk => exact hi.setChunk now jobId chunk

end

end JobsHistory

/-- Where a failed job is only submitted again as it was, idempotency keys are sound. -/
theorem idempotency_keys_sound (settings : BatchSettings) (registry : Registry) (actions : List JobsAction)
    (hr : Runs.Steady (JobsHistory.step settings registry) (JobsHistory.RetriesIdentical settings registry) {} actions)
    (visited : List JobsAction) (hv : visited <+: actions) :
    (Runs.run (JobsHistory.step settings registry) {} visited).KeysSound := by
  obtain ⟨rest, rfl⟩ := hv
  have hkeep : ∀ (s : JobsHistory) a, JobsHistory.Inv settings registry s → s.RetriesIdentical settings registry a →
      JobsHistory.Inv settings registry (s.step settings registry a) := fun s a hi hc => hi.step a hc
  exact (Runs.Steady.invariant hkeep JobsHistory.Inv.initial (Runs.Steady.append.mp hr).1).sound

/-! ## A failed job, and another request with its key -/

def smallSettings : BatchSettings := ⟨10, 10, 10⟩

def usersJob (users : List String) : BatchJobIn where
  view := "risk"
  viewVersion := 1
  scope := { type := "inline", items := users.map fun user => ⟨"user", [("user_id", user)], []⟩ }
  idempotencyKey := "job_1"
  requestedFeatures := ["last"]
  chunkSize := 1

/-- The broker is not reached at the first chunk. -/
def brokerDown : List CallEnv := [{}, {}, {}, { reached := false }]

def otherJobRetries : List JobsAction := [.submit {} (usersJob ["1", "2"]) brokerDown, .submit {} (usersJob ["3"]) []]

theorem failed_key_reused :
    ¬ (Runs.run (JobsHistory.step smallSettings (userRegistry lastView)) {} otherJobRetries).KeysSound := by
  decide +kernel

/-- The failed job is submitted again, a worker starts on it, and another request is refused. -/
def sameJobRetries : List JobsAction := [.submit {} (usersJob ["1", "2"]) brokerDown, .submit {} (usersJob ["1", "2"]) [],
  .setChunk 5 "job_1" ⟨"job_1:0", 0, .running, 1, 5, 0, 0, [], none⟩, .submit {} (usersJob ["3"]) []]

theorem same_job_sound :
    let s := Runs.run (JobsHistory.step smallSettings (userRegistry lastView)) {} sameJobRetries
    s.submissions.map (fun r => (r.wrote, HttpError.conflicted r.result)) = [(true, false), (true, false), (false, true)] ∧
      s.KeysSound := by
  have hr : Runs.Steady (JobsHistory.step smallSettings (userRegistry lastView))
      (JobsHistory.RetriesIdentical smallSettings (userRegistry lastView)) {} sameJobRetries := by
    decide +kernel
  exact ⟨by decide +kernel, idempotency_keys_sound smallSettings (userRegistry lastView) sameJobRetries hr sameJobRetries
    (List.prefix_refl _)⟩

end ClearFeature
