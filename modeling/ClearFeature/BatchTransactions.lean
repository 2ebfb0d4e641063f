import ClearFeature.Lib.Optimistic
import ClearFeature.RetriesBounded
import ClearFeature.StatusRecords

/-!
# Chunk updates in the shared store (`fs_core/stores/batch_status.py`)

Workers that finish chunks of one job at the same time set them through
optimistic transactions on the text of the job. The dict-backed store holds a
lock instead. Both stores answer alike.
-/

namespace ClearFeature

open StableSort

/-! ## Jobs up to the order of their chunks -/

theorem deriveJobStatus_perm {a b : BatchJobStatus} (hcount : a.chunkCount = b.chunkCount)
    (h : a.chunks.Perm b.chunks) : deriveJobStatus a = deriveJobStatus b := by
  have hstates : ((Dict.values a.chunks).map BatchChunkStatus.status).Perm
      ((Dict.values b.chunks).map BatchChunkStatus.status) := (h.map Prod.snd).map BatchChunkStatus.status
  have hnil : (Dict.values a.chunks).map BatchChunkStatus.status = [] ↔
      (Dict.values b.chunks).map BatchChunkStatus.status = [] := by
    rw [← List.length_eq_zero_iff, hstates.length_eq, List.length_eq_zero_iff]
  simp only [deriveJobStatus, hcount, hstates.length_eq, hstates.any_eq, hstates.all_eq, ne_eq, hnil]

theorem BatchJobStatus.normal_perm (job : BatchJobStatus) : job.normal.chunks.Perm job.chunks := sortedBy_perm _ _

theorem sortedBy_entries {V : Type} {d d' : List (String × V)} (hn : (Dict.keys d).Nodup) (h : d.Perm d') :
    sortedBy Prod.fst d = sortedBy Prod.fst d' := by
  apply (sortedBy_eq_iff_perm Prod.fst ?_).mpr h
  intro a ha b hb hab
  have hav := Dict.get?_of_mem hn ha
  have hbv := Dict.get?_of_mem hn hb
  rw [hab, hbv] at hav
  exact Prod.ext hab (Option.some.inj hav).symm

/-- Setting a chunk does not look at the order of the others. -/
theorem mergeChunk_normal {job : BatchJobStatus} (hkeys : (Dict.keys job.chunks).Nodup) (now : Int)
    (chunk : BatchChunkStatus) : (mergeChunk now job.normal chunk).normal = (mergeChunk now job chunk).normal := by
  have hperm := job.normal_perm
  have hkeys' : (Dict.keys job.normal.chunks).Nodup := (hperm.map Prod.fst).nodup_iff.mpr hkeys
  have hset := Dict.set_perm hkeys' hperm chunk.chunkId chunk
  have hsorted := sortedBy_entries (Dict.keys_set_nodup chunk.chunkId chunk hkeys') hset
  have hderive := deriveJobStatus_perm
    (a := { job.normal with chunks := Dict.set job.normal.chunks chunk.chunkId chunk, updatedAt := now })
    (b := { job with chunks := Dict.set job.chunks chunk.chunkId chunk, updatedAt := now }) rfl hset
  unfold mergeChunk
  dsimp only
  rw [Dict.get?_perm hkeys' hperm, hderive]
  split
  · have hjob := sortedBy_entries hkeys' hperm
    simp only [BatchJobStatus.normal] at hjob ⊢
    rw [hjob]
  · simp only [BatchJobStatus.normal] at hsorted ⊢
    rw [hsorted]

theorem mergeChunk_nodup {job : BatchJobStatus} (hkeys : (Dict.keys job.chunks).Nodup) (now : Int)
    (chunk : BatchChunkStatus) : (Dict.keys (mergeChunk now job chunk).chunks).Nodup := by
  unfold mergeChunk
  dsimp only
  split
  · exact hkeys
  · exact Dict.keys_set_nodup _ _ hkeys

/-! ## Calls and events -/

/-- The chunks of a job are a dict. -/
abbrev DictJob := { job : BatchJobStatus // (Dict.keys job.chunks).Nodup }

/-- The arguments of `set_chunk`. -/
structure ChunkCall where
  jobId : String
  chunk : BatchChunkStatus

/-- What happens to a store: a job is put, its entry expires, or the call `i` goes on. -/
inductive StatusEvent (ι : Type) where
  | put (job : DictJob)
  | expire (jobId : String)
  | setChunk (i : ι) (now : Int)

section
variable {ι : Type}

def StatusEvent.caller? : StatusEvent ι → Option ι
  | .setChunk i _ => some i
  | _ => none

/-- The calls of `set_chunk` that have had their effect, in order. -/
def callers (history : List (StatusEvent ι)) : List ι := history.filterMap StatusEvent.caller?

def StatusEvent.concerns (calls : ι → ChunkCall) (jobId : String) : StatusEvent ι → Bool
  | .put job => job.1.jobId = jobId
  | .expire id => id = jobId
  | .setChunk i _ => (calls i).jobId = jobId

end

/-! ## The store in memory -/

namespace InMemoryBatchJobStatusStore

section
variable {ι : Type} (calls : ι → ChunkCall)

def put (jobs : BatchJobs) (job : BatchJobStatus) : BatchJobs := Dict.set jobs job.jobId job

def expire (jobs : BatchJobs) (jobId : String) : BatchJobs := jobs.filter fun e => e.1 ≠ jobId

def apply (jobs : BatchJobs) : StatusEvent ι → BatchJobs
  | .put job => put jobs job.1
  | .expire jobId => expire jobs jobId
  | .setChunk i now => setChunk now jobs (calls i).jobId (calls i).chunk

def run (history : List (StatusEvent ι)) : BatchJobs := Runs.run (apply calls) [] history

theorem expire_get? (jobId jobId' : String) : ∀ jobs : BatchJobs,
    Dict.get? (expire jobs jobId) jobId' = if jobId' = jobId then none else Dict.get? jobs jobId'
  | [] => by simp [expire]
  | (id, job) :: jobs => by
    have ih := expire_get? jobId jobId' jobs
    unfold expire at ih ⊢
    by_cases h : id = jobId
    · subst h
      rw [List.filter_cons_of_neg (by simp), ih, Dict.get?_cons]
      by_cases h' : jobId' = id
      · simp [h']
      · simp [h', Ne.symm h']
    · rw [List.filter_cons_of_pos (by simpa using h), Dict.get?_cons, Dict.get?_cons, ih]
      by_cases h' : id = jobId'
      · subst h'
        simp [h]
      · simp [h']

theorem get?_setChunk (now : Int) (jobs : BatchJobs) (call : ChunkCall) (jobId : String) :
    Dict.get? (setChunk now jobs call.jobId call.chunk) jobId =
      if call.jobId = jobId then (Dict.get? jobs jobId).map (mergeChunk now · call.chunk) else Dict.get? jobs jobId :=
  applyReport_get? jobs ⟨call.jobId, call.chunk, now⟩ jobId

end

end InMemoryBatchJobStatusStore

/-! ## The shared store -/

def batchJobKey (jobId : String) : String := "fs:batch-job:" ++ jobId

theorem batchJobKey_inj {a b : String} : batchJobKey a = batchJobKey b ↔ a = b := by
  simp [batchJobKey, String.append_right_inj]

namespace ValkeyBatchJobStatusStore

section
variable (text : WireText)

abbrev Answer := Except PyErr (Option BatchJobStatus)

def read (raw : Option Bytes) : Answer :=
  match raw with
  | none => .ok none
  | some raw => do return some (← BatchJobStatus.fromJson text raw)

def get (values : String → Option Bytes) (jobId : String) : Answer := read text (values (batchJobKey jobId))

/-- `_merge_in_txn` with the key it watches. -/
def setChunk (call : ChunkCall) : Optimistic.Txn String (Option Bytes) Int Answer where
  key := batchJobKey call.jobId
  body now raw :=
    match read text raw with
    | .error e => (none, .error e)
    | .ok none => (none, .ok none)
    | .ok (some existing) =>
      let merged := mergeChunk now existing call.chunk
      (some (some (merged.toJson text)), .ok (some merged))

variable {ι : Type}

def action : StatusEvent ι → Optimistic.Action ι String (Option Bytes) Int
  | .put job => .write (batchJobKey job.1.jobId) (some (job.1.toJson text))
  | .expire jobId => .write (batchJobKey jobId) none
  | .setChunk i now => .advance i now

abbrev World (ι : Type) := Optimistic.World ι String (Option Bytes) Int Answer

variable [DecidableEq ι] (calls : ι → ChunkCall)

def txns (i : ι) : Optimistic.Txn String (Option Bytes) Int Answer := setChunk text (calls i)

def step (w : World ι) (event : StatusEvent ι) : World ι := Optimistic.step (txns text calls) w (action text event)

def run (events : List (StatusEvent ι)) : World ι :=
  Runs.run (step text calls) { store := { value := fun _ => none, version := fun _ => 0 } } events

/-- An event has its effect at once, but a call has it when its transaction is executed. -/
def effect (w : World ι) : StatusEvent ι → List (StatusEvent ι)
  | .setChunk i _ =>
    match w.phase i with
    | .queued version now _ _ => if w.store.version (batchJobKey (calls i).jobId) = version then [.setChunk i now] else []
    | _ => []
  | event => [event]

def effects (w : World ι) : List (StatusEvent ι) → List (StatusEvent ι)
  | [] => []
  | event :: events => effect calls w event ++ effects (step text calls w event) events

/-- The effects of a run, in the order in which they came about. -/
def history (events : List (StatusEvent ι)) : List (StatusEvent ι) :=
  effects text calls { store := { value := fun _ => none, version := fun _ => 0 } } events

/-! ### The log of the transactions -/

def logged : StatusEvent ι → Optimistic.Event ι String (Option Bytes) Int
  | .put job => .write (batchJobKey job.1.jobId) (some (job.1.toJson text))
  | .expire jobId => .write (batchJobKey jobId) none
  | .setChunk i now => .commit i now

theorem step_log (w : World ι) (event : StatusEvent ι) :
    (step text calls w event).log = w.log ++ (effect calls w event).map (logged text) := by
  cases event with
  | put job => rfl
  | expire jobId => rfl
  | setChunk i now =>
    unfold step action effect Optimistic.step
    dsimp only
    unfold Optimistic.advance
    cases hp : w.phase i with
    | started => simp
    | watching version => simp
    | done result => simp
    | queued version input write result =>
      have hkey : (txns text calls i).key = batchJobKey (calls i).jobId := rfl
      rw [hkey]
      by_cases hversion : w.store.version (batchJobKey (calls i).jobId) = version
      · simp [hversion, logged]
      · simp [hversion]

theorem run_log (events : List (StatusEvent ι)) : ∀ w : World ι,
    (Runs.run (step text calls) w events).log = w.log ++ (effects text calls w events).map (logged text) := by
  induction events with
  | nil => intro w; simp [effects]
  | cons event events ih =>
    intro w
    rw [Runs.run_cons, ih, step_log, effects, List.map_append, List.append_assoc]

theorem run_eq (events : List (StatusEvent ι)) : ∀ w : World ι,
    Runs.run (step text calls) w events = Optimistic.run (txns text calls) w (events.map (action text)) := by
  induction events with
  | nil => intro w; rfl
  | cons event events ih => intro w; exact ih _

omit [DecidableEq ι] in
theorem committed_logged (history : List (StatusEvent ι)) :
    Optimistic.committed (history.map (logged text)) = callers history := by
  unfold Optimistic.committed callers
  rw [List.filterMap_map]
  congr 1
  funext event
  cases event <;> rfl

/-- Only calls wait for their effect. -/
theorem effects_others (events : List (StatusEvent ι)) : ∀ w : World ι,
    (effects text calls w events).filter (·.caller?.isNone) = events.filter (·.caller?.isNone) := by
  induction events with
  | nil => intro w; rfl
  | cons event events ih =>
    intro w
    rw [effects, List.filter_append, ih]
    cases event with
    | put job => rfl
    | expire jobId => rfl
    | setChunk i now =>
      have hnone : (effect calls w (.setChunk i now)).filter (·.caller?.isNone) = [] := by
        unfold effect
        dsimp only
        split
        · split <;> rfl
        · rfl
      rw [hnone]
      rfl

end

/-! ### Both stores -/

section
variable (text : WireText)

/-- Every job that is read from the texts is the job in memory, its chunks in the order of their ids. -/
structure Agrees (values : String → Option Bytes) (jobs : BatchJobs) : Prop where
  get : ∀ jobId, get text values jobId = .ok ((Dict.get? jobs jobId).map BatchJobStatus.normal)
  nodup : ∀ jobId job, Dict.get? jobs jobId = some job → (Dict.keys job.chunks).Nodup

variable {text}

theorem get_update (values : String → Option Bytes) (a b : String) (raw : Option Bytes) :
    get text (Function.update values (batchJobKey a) raw) b = if b = a then read text raw else get text values b := by
  unfold get
  by_cases h : b = a
  · subst h
    simp
  · rw [Function.update_of_ne (by simpa [batchJobKey_inj] using h), if_neg h]

theorem read_toJson {job : BatchJobStatus} (hkeys : (Dict.keys job.chunks).Nodup) :
    read text (some (job.toJson text)) = .ok (some job.normal) := by
  rw [read, BatchJobStatus.fromJson_toJson hkeys]
  rfl

variable {values : String → Option Bytes} {jobs : BatchJobs}

theorem Agrees.put (h : Agrees text values jobs) (job : DictJob) :
    Agrees text (Function.update values (batchJobKey job.1.jobId) (some (job.1.toJson text)))
      (InMemoryBatchJobStatusStore.put jobs job.1) := by
  refine ⟨?_, ?_⟩
  · intro jobId
    rw [get_update, InMemoryBatchJobStatusStore.put, Dict.get?_set]
    by_cases hid : jobId = job.1.jobId
    · simp [hid, read_toJson job.2]
    · simp [hid, Ne.symm hid, h.get]
  · intro jobId found hfound
    rw [InMemoryBatchJobStatusStore.put, Dict.get?_set] at hfound
    by_cases hid : job.1.jobId = jobId
    · rw [if_pos hid] at hfound
      cases hfound
      exact job.2
    · rw [if_neg hid] at hfound
      exact h.nodup jobId found hfound

theorem Agrees.expire (h : Agrees text values jobs) (jobId : String) :
    Agrees text (Function.update values (batchJobKey jobId) none) (InMemoryBatchJobStatusStore.expire jobs jobId) := by
  refine ⟨?_, ?_⟩
  · intro jobId'
    rw [get_update, InMemoryBatchJobStatusStore.expire_get?]
    by_cases hid : jobId' = jobId
    · simp [hid, read]
    · simp [hid, h.get]
  · intro jobId' found hfound
    rw [InMemoryBatchJobStatusStore.expire_get?] at hfound
    by_cases hid : jobId' = jobId
    · simp [hid] at hfound
    · rw [if_neg hid] at hfound
      exact h.nodup jobId' found hfound

/-- What the transaction of a call writes and answers, by the job in memory. -/
theorem Agrees.body (h : Agrees text values jobs) (call : ChunkCall) (now : Int) :
    (setChunk text call).body now (values (batchJobKey call.jobId)) =
      match Dict.get? jobs call.jobId with
      | none => (none, .ok none)
      | some job =>
        (some (some ((mergeChunk now job.normal call.chunk).toJson text)),
          .ok (some (mergeChunk now job.normal call.chunk))) := by
  have hread : read text (values (batchJobKey call.jobId)) = _ := h.get call.jobId
  unfold setChunk
  dsimp only
  rw [hread]
  cases Dict.get? jobs call.jobId <;> rfl

theorem Agrees.setChunk (h : Agrees text values jobs) (call : ChunkCall) (now : Int) :
    Agrees text (Optimistic.apply (fun _ : Unit => ValkeyBatchJobStatusStore.setChunk text call) values (.commit () now))
      (ClearFeature.setChunk now jobs call.jobId call.chunk) := by
  have hbody := h.body call now
  have hkey : (ValkeyBatchJobStatusStore.setChunk text call).key = batchJobKey call.jobId := rfl
  unfold Optimistic.apply
  dsimp only
  rw [hkey, hbody]
  cases hg : Dict.get? jobs call.jobId with
  | none =>
    have hsame : ClearFeature.setChunk now jobs call.jobId call.chunk = jobs := by
      simp [ClearFeature.setChunk, hg]
    rwa [hsame]
  | some job =>
    have hkeys := h.nodup _ _ hg
    have hkeys' : (Dict.keys job.normal.chunks).Nodup := (job.normal_perm.map Prod.fst).nodup_iff.mpr hkeys
    refine ⟨?_, ?_⟩
    · intro jobId
      dsimp only
      rw [get_update, InMemoryBatchJobStatusStore.get?_setChunk, read_toJson (mergeChunk_nodup hkeys' _ _),
        mergeChunk_normal hkeys]
      by_cases hid : jobId = call.jobId
      · subst hid
        simp [hg]
      · simp [hid, Ne.symm hid, h.get]
    · intro jobId found hfound
      rw [InMemoryBatchJobStatusStore.get?_setChunk] at hfound
      by_cases hid : call.jobId = jobId
      · subst hid
        simp only [hg, Option.map_some, if_true, Option.some.injEq] at hfound
        subst hfound
        exact mergeChunk_nodup hkeys _ _
      · rw [if_neg hid] at hfound
        exact h.nodup jobId found hfound

variable {ι : Type} (calls : ι → ChunkCall)

/-- One after another both stores do the same. -/
theorem Agrees.apply (h : Agrees text values jobs) (event : StatusEvent ι) :
    Agrees text (Optimistic.apply (txns text calls) values (logged text event))
      (InMemoryBatchJobStatusStore.apply calls jobs event) := by
  cases event with
  | put job => exact h.put job
  | expire jobId => exact h.expire jobId
  | setChunk i now => exact h.setChunk (calls i) now

theorem Agrees.replay (history : List (StatusEvent ι)) : ∀ {values : String → Option Bytes} {jobs : BatchJobs},
    Agrees text values jobs →
    Agrees text (Optimistic.replay (txns text calls) values (history.map (logged text)))
      (Runs.run (InMemoryBatchJobStatusStore.apply calls) jobs history) := by
  induction history with
  | nil => intro values jobs h; exact h
  | cons event history ih => intro values jobs h; exact ih (h.apply calls event)

variable (text) in
theorem Agrees.empty : Agrees text (fun _ => none) [] := ⟨fun _ => rfl, fun _ _ h => by cases h⟩

variable [DecidableEq ι]

theorem effects_append (events more : List (StatusEvent ι)) : ∀ w : World ι,
    effects text calls w (events ++ more) =
      effects text calls w events ++ effects text calls (Runs.run (step text calls) w events) more := by
  induction events with
  | nil => intro w; rfl
  | cons event events ih =>
    intro w
    rw [List.cons_append, effects, effects, ih, Runs.run_cons, List.append_assoc]

variable (text) in
theorem run_inv (events : List (StatusEvent ι)) :
    Optimistic.Inv (txns text calls) (fun _ => none) (run text calls events) ∧
      (run text calls events).log = (history text calls events).map (logged text) := by
  refine ⟨?_, ?_⟩
  · rw [run, run_eq]
    exact Optimistic.run_inv (txns text calls) { value := fun _ => none, version := fun _ => 0 } _
  · rw [run, run_log]
    rfl

/-- In every state of every interleaving the texts of the shared store are the jobs that the store in memory would hold
after the same effects, each call has its effect once and is answered by it, and only what is written in between sends
a call back. -/
theorem valkey_linearizable (text : WireText) (calls : ι → ChunkCall) (events more : List (StatusEvent ι)) :
    let w := run text calls events
    let effects := history text calls events
    let memory := InMemoryBatchJobStatusStore.run calls
    (∀ jobId, get text w.store.value jobId = .ok ((Dict.get? (memory effects) jobId).map BatchJobStatus.normal)) ∧
    effects <+: history text calls (events ++ more) ∧
    effects.filter (·.caller?.isNone) = events.filter (·.caller?.isNone) ∧
    (callers effects).Nodup ∧ (∀ i, i ∈ callers effects ↔ ∃ answer, w.phase i = .done answer) ∧
    (∀ i answer, w.phase i = .done answer → ∃ before now after, effects = before ++ .setChunk i now :: after ∧
      answer.map (Option.map BatchJobStatus.normal) =
        .ok ((Dict.get? (memory (before ++ [.setChunk i now])) (calls i).jobId).map BatchJobStatus.normal)) ∧
    ∀ i, w.aborts i ≤ effects.countP (StatusEvent.concerns calls (calls i).jobId) := by
  intro w effects memory
  obtain ⟨hinv, hlog⟩ := run_inv text calls events
  have hagrees : ∀ history : List (StatusEvent ι),
      Agrees text (Optimistic.replay (txns text calls) (fun _ => none) (history.map (logged text))) (memory history) :=
    fun history => (Agrees.empty text).replay calls history
  have hcommitted : Optimistic.committed w.log = callers effects := by
    rw [hlog, committed_logged]
  refine ⟨?_, ?_, effects_others text calls events _, ?_, ?_, ?_, ?_⟩
  · intro jobId
    rw [hinv.value, hlog]
    exact (hagrees effects).get jobId
  · exact ⟨_, (effects_append calls events more _).symm⟩
  · rw [← hcommitted]
    exact hinv.once
  · intro i
    rw [← hcommitted]
    exact hinv.done i
  · intro i answer hdone
    obtain ⟨before', now, after', hsplit, hanswer⟩ := hinv.executed i answer hdone
    rw [hlog] at hsplit
    obtain ⟨before, rest, heffects, rfl, hrest⟩ := List.map_eq_append_iff.mp hsplit
    obtain ⟨event, after, rfl, hevent, rfl⟩ := List.map_eq_cons_iff.mp hrest
    have hcall : event = .setChunk i now := by
      cases event <;> cases hevent
      rfl
    subst hcall
    refine ⟨before, now, after, heffects, ?_⟩
    have hmemory : memory (before ++ [.setChunk i now]) =
        ClearFeature.setChunk now (memory before) (calls i).jobId (calls i).chunk := by
      show Runs.run _ _ _ = _
      rw [Runs.run_append]
      rfl
    have hbody := (hagrees before).body (calls i) now
    rw [hmemory, InMemoryBatchJobStatusStore.get?_setChunk, if_pos rfl, hanswer]
    have htxn : (txns text calls i) = setChunk text (calls i) := rfl
    rw [htxn]
    show Except.map _ ((setChunk text (calls i)).body now
      (Optimistic.replay (txns text calls) (fun _ => none) (before.map (logged text)) (batchJobKey (calls i).jobId))).2 = _
    rw [hbody]
    cases hg : Dict.get? (memory before) (calls i).jobId with
    | none => rfl
    | some job =>
      have hkeys := (hagrees before).nodup _ _ hg
      simp [Except.map, mergeChunk_normal hkeys]
  · intro i
    have hle := Optimistic.aborts_le (txns text calls)
      ({ value := fun _ => none, version := fun _ => 0 } : Optimistic.Store String (Option Bytes))
      (events.map (action text)) i
    rw [← run_eq] at hle
    have hcount : w.log.countP (Optimistic.touches (txns text calls) (txns text calls i).key) =
        effects.countP (StatusEvent.concerns calls (calls i).jobId) := by
      rw [hlog, List.countP_map]
      congr 1
      funext event
      have hkey : ∀ i, (txns text calls i).key = batchJobKey (calls i).jobId := fun i => rfl
      cases event <;>
        simp [logged, Optimistic.touches, StatusEvent.concerns, hkey, batchJobKey_inj]
    rw [← hcount]
    rw [Nat.zero_add] at hle
    exact hle

end

end ValkeyBatchJobStatusStore

/-! ## Jobs end -/

/-- The chunk has a terminal state. -/
def BatchJobStatus.Ended (job : BatchJobStatus) (chunkId : String) : Prop :=
  ∃ state, job.chunkState chunkId = some state ∧ state.terminal = true

def ChunkCall.Ends (call : ChunkCall) (jobId chunkId : String) : Prop :=
  call.jobId = jobId ∧ call.chunk.chunkId = chunkId ∧ call.chunk.status.terminal = true

theorem mergeChunk_ended_iff {now : Int} {job : BatchJobStatus} {chunk : BatchChunkStatus} {chunkId : String} :
    (mergeChunk now job chunk).Ended chunkId ↔
      job.Ended chunkId ∨ (chunk.chunkId = chunkId ∧ chunk.status.terminal = true) := by
  constructor
  · intro h
    obtain ⟨state, hstate, ht⟩ := h
    by_cases hid : chunk.chunkId = chunkId
    · subst hid
      by_cases hchunk : chunk.status.terminal = true
      · exact .inr ⟨rfl, hchunk⟩
      · -- the report is on a chunk that has ended, or it is the state of the chunk from now on
        by_cases hi : ignores job chunk = true
        · rw [mergeChunk_of_ignores hi] at hstate
          exact .inl ⟨state, hstate, ht⟩
        · rw [mergeChunk_of_not_ignores (eq_false_of_ne_true hi)] at hstate
          simp only [BatchJobStatus.chunkState, Dict.get?_set_self, Option.map_some, Option.some.injEq] at hstate
          rw [hstate] at hchunk
          exact absurd ht hchunk
    · rw [BatchJobStatus.chunkState, mergeChunk_get?_ne hid] at hstate
      exact .inl ⟨state, hstate, ht⟩
  · intro h
    cases h with
    | inl h =>
      obtain ⟨state, hstate, ht⟩ := h
      exact mergeChunk_terminal hstate ht
    | inr h =>
      obtain ⟨rfl, ht⟩ := h
      exact ⟨_, mergeChunk_self ht, ht⟩

theorem Registered.terminal_iff_ended {ids : List String} {job : BatchJobStatus} (h : Registered ids job) :
    job.status.terminal = true ↔ ∀ id ∈ ids, job.Ended id := by
  rw [h.terminal_iff]
  constructor
  · intro hall id hid
    have hkey : id ∈ Dict.keys job.chunks := by
      rw [h.keys]
      exact hid
    cases hg : Dict.get? job.chunks id with
    | none => exact absurd hkey (Dict.get?_eq_none_iff.mp hg)
    | some c => exact ⟨c.status, by simp [BatchJobStatus.chunkState, hg], hall c (h.mem_values.mpr ⟨id, hid, hg⟩)⟩
  · intro hall c hc
    obtain ⟨id, hid, hg⟩ := h.mem_values.mp hc
    obtain ⟨state, hstate, ht⟩ := hall id hid
    simp only [BatchJobStatus.chunkState, hg, Option.map_some, Option.some.injEq] at hstate
    rw [hstate]
    exact ht

theorem BatchJobStatus.normal_ended {job : BatchJobStatus} (hkeys : (Dict.keys job.chunks).Nodup) (chunkId : String) :
    job.normal.Ended chunkId ↔ job.Ended chunkId := by
  have hkeys' : (Dict.keys job.normal.chunks).Nodup := (job.normal_perm.map Prod.fst).nodup_iff.mpr hkeys
  simp only [Ended, chunkState, Dict.get?_perm hkeys' job.normal_perm]

theorem BatchJobStatus.normal_states (job : BatchJobStatus) : job.normal.states = job.states :=
  Multiset.coe_eq_coe.mpr ((job.normal_perm.map Prod.snd).map BatchChunkStatus.status)

section
variable {ι : Type} {calls : ι → ChunkCall} {ids : List String} {jobId : String}

theorem callers_cons (event : StatusEvent ι) (history : List (StatusEvent ι)) :
    callers (event :: history) = event.caller?.toList ++ callers history := by
  unfold callers
  cases h : event.caller? <;> simp [h]

/-- While nobody puts the job again and it does not expire, its chunks end by the calls alone. -/
theorem InMemoryBatchJobStatusStore.run_ended (history : List (StatusEvent ι)) :
    ∀ {jobs : BatchJobs} {job : BatchJobStatus}, Dict.get? jobs jobId = some job → Registered ids job →
    (∀ e ∈ history, e.caller? = none → e.concerns calls jobId = false) →
    (∀ i, (calls i).jobId = jobId → (calls i).chunk.chunkId ∈ ids) →
    ∃ job', Dict.get? (Runs.run (apply calls) jobs history) jobId = some job' ∧ Registered ids job' ∧
      ∀ id, job'.Ended id ↔ job.Ended id ∨ ∃ i ∈ callers history, (calls i).Ends jobId id := by
  induction history with
  | nil =>
    intro jobs job hg hr _ _
    exact ⟨job, hg, hr, by simp [callers]⟩
  | cons e history ih =>
    intro jobs job hg hr hquiet hids
    have hrest : ∀ e ∈ history, e.caller? = none → e.concerns calls jobId = false :=
      fun e he => hquiet e (List.mem_cons_of_mem _ he)
    rw [Runs.run_cons]
    cases e with
    | put other =>
      have hne := hquiet _ List.mem_cons_self rfl
      simp only [StatusEvent.concerns, decide_eq_false_iff_not] at hne
      apply ih _ hr hrest hids
      rw [apply, InMemoryBatchJobStatusStore.put, Dict.get?_set_ne _ _ hne]
      exact hg
    | expire other =>
      have hne := hquiet _ List.mem_cons_self rfl
      simp only [StatusEvent.concerns, decide_eq_false_iff_not] at hne
      apply ih _ hr hrest hids
      rw [apply, expire_get?, if_neg (Ne.symm hne)]
      exact hg
    | setChunk i now =>
      have hget := get?_setChunk now jobs (calls i) jobId
      rw [hg] at hget
      by_cases hi : (calls i).jobId = jobId
      · rw [if_pos hi] at hget
        obtain ⟨job', hg', hr', hended⟩ := ih hget (hr.merge now (hids i hi)) hrest hids
        refine ⟨job', hg', hr', ?_⟩
        intro id
        rw [hended, mergeChunk_ended_iff, callers_cons]
        simp only [StatusEvent.caller?, Option.toList_some, List.singleton_append, List.mem_cons, exists_eq_or_imp,
          ChunkCall.Ends, hi, true_and, or_assoc]
      · rw [if_neg hi] at hget
        obtain ⟨job', hg', hr', hended⟩ := ih hget hr hrest hids
        refine ⟨job', hg', hr', ?_⟩
        intro id
        rw [hended, callers_cons]
        simp [StatusEvent.caller?, ChunkCall.Ends, hi]

theorem ValkeyBatchJobStatusStore.effects_concern {text : WireText} [DecidableEq ι] (events : List (StatusEvent ι)) :
    ∀ (w : World ι) (p : StatusEvent ι → Prop), (∀ i now now', p (.setChunk i now) → p (.setChunk i now')) →
      (∀ e ∈ events, p e) → ∀ e ∈ effects text calls w events, p e := by
  induction events with
  | nil => intro w p _ _ e he; cases he
  | cons event events ih =>
    intro w p hp hall e he
    rw [effects, List.mem_append] at he
    cases he with
    | inr he => exact ih _ p hp (fun e he => hall e (List.mem_cons_of_mem _ he)) e he
    | inl he =>
      have hevent := hall event List.mem_cons_self
      cases event with
      | put job => simp only [effect, List.mem_singleton] at he; rwa [he]
      | expire id => simp only [effect, List.mem_singleton] at he; rwa [he]
      | setChunk i now =>
        unfold effect at he
        dsimp only at he
        split at he
        · split at he
          · simp only [List.mem_singleton] at he
            subst he
            exact hp i now _ hevent
          · cases he
        · cases he

/-- A submitted job as a dict of chunks. -/
def PreparedBatch.dictJob (prepared : PreparedBatch) (request : BatchJobIn) (now : Int) : DictJob :=
  ⟨prepared.job request now, by
    show (Dict.keys (prepared.chunkStatuses request now)).Nodup
    rw [prepared.keys_chunkStatuses]
    exact prepared.chunkIds_nodup request⟩

/-- However the workers of a submitted job interleave, no report of a chunk that has ended is lost: a chunk has ended in
the store exactly if a call that ends it has returned, and the job has ended exactly if this is so for all its chunks. -/
theorem valkey_job_ends (text : WireText) [DecidableEq ι] (settings : BatchSettings) (registry : Registry)
    (datasets : SourceDatasets) (request : BatchJobIn) (prepared : PreparedBatch)
    (hprepared : prepareBatch settings registry datasets request = .ok prepared) (submittedAt : Int)
    (calls : ι → ChunkCall)
    (hids : ∀ i, (calls i).jobId = request.idempotencyKey → (calls i).chunk.chunkId ∈ prepared.chunkIds request)
    (before events : List (StatusEvent ι))
    (hbefore : ∀ e ∈ before, e.concerns calls request.idempotencyKey = false)
    (hquiet : ∀ e ∈ events, e.caller? = none → e.concerns calls request.idempotencyKey = false) :
    let jobId := request.idempotencyKey
    let w := ValkeyBatchJobStatusStore.run text calls (before ++ .put (prepared.dictJob request submittedAt) :: events)
    let ended := fun chunkId => ∃ i answer, w.phase i = .done answer ∧ (calls i).Ends jobId chunkId
    ∃ job, ValkeyBatchJobStatusStore.get text w.store.value jobId = .ok (some job) ∧
      (∀ chunkId, job.Ended chunkId ↔ ended chunkId) ∧
      (job.status.terminal = true ↔ ∀ chunkId ∈ prepared.chunkIds request, ended chunkId) ∧
      job.status = aggregate job.states := by
  intro jobId w ended
  obtain ⟨hinv, hlog⟩ := ValkeyBatchJobStatusStore.run_inv text calls
    (before ++ .put (prepared.dictJob request submittedAt) :: events)
  have hagrees := (ValkeyBatchJobStatusStore.Agrees.empty text).replay calls
    (ValkeyBatchJobStatusStore.history text calls (before ++ .put (prepared.dictJob request submittedAt) :: events))
  rw [← hlog, ← hinv.value] at hagrees
  have hcallers : ∀ i, (∃ answer, w.phase i = .done answer) ↔ i ∈ callers (ValkeyBatchJobStatusStore.history text calls
      (before ++ .put (prepared.dictJob request submittedAt) :: events)) := by
    intro i
    rw [← ValkeyBatchJobStatusStore.committed_logged text, ← hlog]
    exact (hinv.done i).symm
  -- the effects before the job is put, the put, and the effects after it
  have hsplit : ∃ earlier later, ValkeyBatchJobStatusStore.history text calls
        (before ++ .put (prepared.dictJob request submittedAt) :: events) =
        earlier ++ .put (prepared.dictJob request submittedAt) :: later ∧
      (∀ e ∈ earlier, e.concerns calls jobId = false) ∧
      ∀ e ∈ later, e.caller? = none → e.concerns calls jobId = false := by
    refine ⟨_, _, ValkeyBatchJobStatusStore.effects_append calls before _ _, ?_, ?_⟩
    · exact ValkeyBatchJobStatusStore.effects_concern before _ (fun e => e.concerns calls jobId = false)
        (fun _ _ _ h => h) hbefore
    · exact ValkeyBatchJobStatusStore.effects_concern events _
        (fun e => e.caller? = none → e.concerns calls jobId = false) (fun _ _ _ _ h => by cases h) hquiet
  obtain ⟨earlier, later, heffects, hearlier, hlater⟩ := hsplit
  rw [heffects] at hagrees hcallers
  have hstart : Dict.get? (InMemoryBatchJobStatusStore.apply calls
      (Runs.run (InMemoryBatchJobStatusStore.apply calls) [] earlier) (.put (prepared.dictJob request submittedAt))) jobId =
      some (prepared.job request submittedAt) := Dict.get?_set_self _ _ _
  have hreg := PreparedBatch.job_registered request (prepareBatch_items hprepared) submittedAt
  obtain ⟨job, hg, hr, hended⟩ := InMemoryBatchJobStatusStore.run_ended later hstart hreg hlater hids
  rw [← Runs.run_cons, ← Runs.run_append] at hg
  have hkeys := hagrees.nodup _ _ hg
  have hopen : ∀ id, ¬ (prepared.job request submittedAt).Ended id := by
    intro id h
    obtain ⟨state, hstate, ht⟩ := h
    obtain ⟨c, hc, rfl⟩ := Option.map_eq_some_iff.mp hstate
    have hmem := Dict.mem_of_get? hc
    simp only [PreparedBatch.job, prepared.chunkStatuses_eq, List.mem_map] at hmem
    obtain ⟨entry, -, hentry⟩ := hmem
    cases hentry
    cases ht
  have hcalls : ∀ id, job.Ended id ↔ ended id := by
    intro id
    rw [hended]
    simp only [hopen, false_or]
    constructor
    · intro h
      obtain ⟨i, hi, hends⟩ := h
      obtain ⟨answer, hdone⟩ := (hcallers i).mpr (by
        simp [callers, List.filterMap_append, List.filterMap_cons, StatusEvent.caller?] at hi ⊢
        exact .inr hi)
      exact ⟨i, answer, hdone, hends⟩
    · intro h
      obtain ⟨i, answer, hdone, hends⟩ := h
      have hi := (hcallers i).mp ⟨answer, hdone⟩
      simp only [callers, List.filterMap_append, List.mem_append] at hi
      cases hi with
      | inr hi => exact ⟨i, by simpa [callers, List.filterMap_cons, StatusEvent.caller?] using hi, hends⟩
      | inl hi =>
        obtain ⟨e, he, hcaller⟩ := List.mem_filterMap.mp hi
        cases e with
        | setChunk j now =>
          cases hcaller
          have := hearlier _ he
          simp [StatusEvent.concerns, hends.1] at this
        | put other => cases hcaller
        | expire other => cases hcaller
  refine ⟨job.normal, ?_, ?_, ?_, ?_⟩
  · have hget := hagrees.get jobId
    rw [hg] at hget
    exact hget
  · intro chunkId
    rw [BatchJobStatus.normal_ended hkeys, hcalls]
  · show job.status.terminal = true ↔ _
    rw [hr.terminal_iff_ended]
    simp only [hcalls]
  · rw [job.normal_states]
    exact hr.status

end

/-! ## Two workers -/

def quoted? (s : String) : Option Bytes :=
  let bytes := asciiBytes s
  if bytes.all fun b => 32 ≤ b ∧ b < 127 ∧ b ≠ 34 ∧ b ≠ 92 then some (34 :: (bytes ++ [34])) else none

def commaSeparated : List Bytes → Bytes
  | [] => []
  | [raw] => raw
  | raw :: raws => raw ++ [44, 32] ++ commaSeparated raws

mutual
/-- `json.dumps(value, sort_keys=True)`, but for floats and for strings with escapes. -/
def Value.text? : Value → Option Bytes
  | .null => some (asciiBytes "null")
  | .bool b => some (asciiBytes (if b then "true" else "false"))
  | .int n => some (asciiBytes (toString n))
  | .float _ => none
  | .str s => quoted? s
  | .arr xs => do return [91] ++ commaSeparated (← Value.texts? xs) ++ [93]
  | .obj kvs => do
    let fields := (← Value.fieldTexts? kvs).insertionSort fun a b => a.1 ≤ b.1
    return [123] ++ commaSeparated (fields.map Prod.snd) ++ [125]
def Value.texts? : List Value → Option (List Bytes)
  | [] => some []
  | x :: xs => do return (← Value.text? x) :: (← Value.texts? xs)
def Value.fieldTexts? : List (String × Value) → Option (List (String × Bytes))
  | [] => some []
  | (k, v) :: kvs => do return (k, (← quoted? k) ++ [58, 32] ++ (← Value.text? v)) :: (← Value.fieldTexts? kvs)
end

def textSamples (values : List Value) : List (List JsonTok × Bytes) :=
  values.filterMap fun v => v.text?.map fun raw => (canonicalValueJson v, raw)

/-- A text that is the real one on the given values and at the new year. -/
noncomputable def sampledText (values : List Value) (hzero : ∀ s ∈ textSamples values, ∃ b ∈ s.2, b ≠ 0)
    (hnodup : ((textSamples values).map Prod.snd).Nodup) : WireText :=
  .ofInjective (sampleWrite (textSamples values))
    (sampleWrite_injective hzero fun _ hs _ hs' h => congrArg Prod.fst (List.inj_on_of_nodup_map hnodup hs hs' h))
    sampleIso sampleIso_injective

/-- The first chunk completes and the second fails. -/
def twoCalls (i : Fin 2) : ChunkCall where
  jobId := "job_1"
  chunk := if i = 0 then { chunkReport .completed with chunkId := "job_1:0", updatedAt := newYear }
    else { chunkReport .failed with chunkId := "job_1:1", chunkIndex := 1, updatedAt := newYear }

/-- Both workers watch the job, and the second to execute has to start over. -/
def twoWorkers : List (StatusEvent (Fin 2)) :=
  [.setChunk 0 newYear, .setChunk 1 newYear, .setChunk 0 newYear, .setChunk 1 newYear, .setChunk 1 newYear,
   .setChunk 0 newYear, .setChunk 0 newYear, .setChunk 0 newYear, .setChunk 0 newYear]

/-- The job as it is put and as the two workers leave it. -/
def twoChunkJobs : List BatchJobStatus :=
  let job := twoChunks.job (usersJob ["1", "2"]) newYear
  let failed := mergeChunk newYear job (twoCalls 1).chunk
  [job, failed, mergeChunk newYear failed (twoCalls 0).chunk]

noncomputable def twoChunkText : WireText :=
  sampledText (twoChunkJobs.map fun job => job.toDict sampleText) (by decide +kernel) (by decide +kernel)

theorem valkey_job_ends_two :
    let jobId := "job_1"
    let w := ValkeyBatchJobStatusStore.run twoChunkText twoCalls
      ([] ++ .put (twoChunks.dictJob (usersJob ["1", "2"]) newYear) :: twoWorkers)
    let ended := fun chunkId => ∃ i answer, w.phase i = .done answer ∧ (twoCalls i).Ends jobId chunkId
    ∃ job, ValkeyBatchJobStatusStore.get twoChunkText w.store.value jobId = .ok (some job) ∧
      (∀ chunkId, job.Ended chunkId ↔ ended chunkId) ∧
      (job.status.terminal = true ↔ ∀ chunkId ∈ twoChunks.chunkIds (usersJob ["1", "2"]), ended chunkId) ∧
      job.status = aggregate job.states :=
  valkey_job_ends twoChunkText smallSettings (userRegistry lastView) {} (usersJob ["1", "2"]) twoChunks
    (eq_ok_okGet usersPrepared (by decide +kernel)) newYear twoCalls (by decide +kernel) [] twoWorkers
    (by decide +kernel) (by decide +kernel)

end ClearFeature
