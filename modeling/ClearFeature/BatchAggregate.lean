import ClearFeature.BatchRecovery
import Mathlib.Data.Multiset.MapFold

/-!
# The status of a job as an aggregate

A submitted job has an entry for each of its chunks before any worker reports.
Its status is a function of the chunk states taken without order, and reports on
different chunks may be taken in either order.
-/

namespace ClearFeature

/-! ## The aggregate -/

/-- The status of a job whose chunks have the given states. -/
def aggregate (states : Multiset ChunkState) : JobState :=
  if ∀ s ∈ states, s.terminal = true then
    if ∀ s ∈ states, s = .failed then .failed
    else if ∀ s ∈ states, s = .completed then .completed
    else .completedWithErrors
  else if ∀ s ∈ states, s = .accepted then .accepted
  else .running

theorem aggregate_terminal (states : Multiset ChunkState) :
    (aggregate states).terminal = true ↔ ∀ s ∈ states, s.terminal = true := by
  unfold aggregate
  by_cases h : ∀ s ∈ states, s.terminal = true
  · rw [if_pos h]
    refine ⟨fun _ => h, fun _ => ?_⟩
    split_ifs <;> rfl
  · rw [if_neg h]
    split_ifs <;> simp [JobState.terminal, h]

/-- The states of the chunks, without order. -/
def BatchJobStatus.states (job : BatchJobStatus) : Multiset ChunkState :=
  ((Dict.values job.chunks).map BatchChunkStatus.status : List ChunkState)

theorem BatchJobStatus.mem_states {job : BatchJobStatus} {s : ChunkState} :
    s ∈ job.states ↔ ∃ c ∈ Dict.values job.chunks, c.status = s := by
  simp [states]

/-- With an entry for each chunk the derivation is the aggregate. -/
theorem deriveJobStatus_eq_aggregate {job : BatchJobStatus} (hlen : job.chunks.length = job.chunkCount)
    (hne : job.chunks ≠ []) : deriveJobStatus job = aggregate job.states := by
  have hcount : ((Dict.values job.chunks).map BatchChunkStatus.status).length = job.chunkCount := by
    simp [Dict.values, hlen]
  have hstates : (Dict.values job.chunks).map BatchChunkStatus.status ≠ [] := by
    simp [Dict.values, hne]
  unfold deriveJobStatus aggregate BatchJobStatus.states
  dsimp only
  generalize (Dict.values job.chunks).map BatchChunkStatus.status = states at hcount hstates
  rw [hcount]
  have hopen : (job.chunkCount < job.chunkCount ∨
      (states.any fun s => decide (s = .accepted ∨ s = .running)) = true) ↔ ¬ ∀ s ∈ states, s.terminal = true := by
    have hlt : ¬ job.chunkCount < job.chunkCount := by omega
    have hrun : ∀ s : ChunkState, (s = .accepted ∨ s = .running) ↔ ¬ s.terminal = true := by
      intro s
      cases s <;> simp [ChunkState.terminal]
    simp only [hlt, false_or, List.any_eq_true, decide_eq_true_eq, hrun, not_forall, exists_prop]
  have hall : ∀ state : ChunkState, (states.all fun s => decide (s = state)) = true ↔ ∀ s ∈ states, s = state := by
    intro state
    simp only [List.all_eq_true, decide_eq_true_eq]
  simp only [hopen, hall, Multiset.mem_coe, and_true, ite_not]
  by_cases h : ∀ s ∈ states, s.terminal = true
  · have herr : (states.any fun s => decide (s = .failed ∨ s = .completedWithErrors)) = true ↔
        ¬ ∀ s ∈ states, s = .completed := by
      simp only [List.any_eq_true, decide_eq_true_eq, not_forall, exists_prop]
      refine exists_congr fun s => and_congr_right fun hs => ?_
      have ht := h s hs
      cases s <;> simp [ChunkState.terminal] at ht ⊢
    rw [if_pos h, if_pos h]
    simp only [herr, ite_not]
  · rw [if_neg h, if_neg h]
    simp only [ne_eq, hstates, not_false_eq_true, true_and]

/-! ## Jobs with their chunks -/

/-- The job has an entry for each of the chunk ids, and its status is the aggregate of them. -/
structure Registered (ids : List String) (job : BatchJobStatus) : Prop where
  keys : Dict.keys job.chunks = ids
  nodup : ids.Nodup
  nonempty : ids ≠ []
  count : job.chunkCount = ids.length
  status : job.status = aggregate job.states
  finished : job.finishedAt.isSome = job.status.terminal

section
variable {ids : List String} {job : BatchJobStatus}

theorem Registered.merge (h : Registered ids job) (now : Int) {chunk : BatchChunkStatus} (hc : chunk.chunkId ∈ ids) :
    Registered ids (mergeChunk now job chunk) := by
  unfold mergeChunk
  dsimp only
  split
  · exact h
  · have hkeys : Dict.keys (Dict.set job.chunks chunk.chunkId chunk) = ids := by
      rw [Dict.keys_set_of_mem chunk (by rw [h.keys]; exact hc), h.keys]
    have hlen : (Dict.set job.chunks chunk.chunkId chunk).length = job.chunkCount := by
      have := congrArg List.length hkeys
      simp only [Dict.keys, List.length_map] at this
      rw [this, h.count]
    have hne : Dict.set job.chunks chunk.chunkId chunk ≠ [] := by
      intro he
      apply h.nonempty
      rw [← hkeys, he]
      rfl
    refine ⟨hkeys, h.nodup, h.nonempty, h.count, ?_, ?_⟩
    · exact deriveJobStatus_eq_aggregate hlen hne
    · dsimp only
      split
      · rename_i ht
        rw [ht]
        rfl
      · rename_i ht
        rw [eq_false_of_ne_true ht]
        rfl

theorem Registered.terminal_iff (h : Registered ids job) :
    job.status.terminal = true ↔ ∀ c ∈ Dict.values job.chunks, c.status.terminal = true := by
  rw [h.status, aggregate_terminal]
  constructor
  · intro hall c hc
    exact hall _ (BatchJobStatus.mem_states.mpr ⟨c, hc, rfl⟩)
  · intro hall s hs
    obtain ⟨c, hc, rfl⟩ := BatchJobStatus.mem_states.mp hs
    exact hall c hc

theorem Registered.mem_values (h : Registered ids job) {c : BatchChunkStatus} :
    c ∈ Dict.values job.chunks ↔ ∃ id ∈ ids, Dict.get? job.chunks id = some c := by
  have hn : (Dict.keys job.chunks).Nodup := by
    rw [h.keys]
    exact h.nodup
  constructor
  · intro hc
    obtain ⟨⟨id, c'⟩, hm, rfl⟩ := List.mem_map.mp hc
    refine ⟨id, ?_, Dict.get?_of_mem hn hm⟩
    rw [← h.keys]
    exact List.mem_map.mpr ⟨_, hm, rfl⟩
  · rintro ⟨id, -, hg⟩
    exact List.mem_map.mpr ⟨_, Dict.mem_of_get? hg, rfl⟩

/-- A finished job stays finished: its chunks stay terminal. -/
theorem Registered.merge_terminal (h : Registered ids job) (now : Int) {chunk : BatchChunkStatus}
    (hc : chunk.chunkId ∈ ids) (ht : job.status.terminal = true) :
    (mergeChunk now job chunk).status.terminal = true := by
  have h' := h.merge now hc
  rw [h'.terminal_iff]
  intro c hm
  obtain ⟨id, hid, hg⟩ := h'.mem_values.mp hm
  have hkey : id ∈ Dict.keys job.chunks := by
    rw [h.keys]
    exact hid
  cases hold : Dict.get? job.chunks id with
  | none => exact absurd hkey (Dict.get?_eq_none_iff.mp hold)
  | some c₀ =>
    have hc₀ : c₀.status.terminal = true := h.terminal_iff.mp ht c₀ (h.mem_values.mpr ⟨id, hid, hold⟩)
    have hstate : job.chunkState id = some c₀.status := by
      simp only [BatchJobStatus.chunkState, hold, Option.map_some]
    obtain ⟨state', hs', hterm⟩ := @mergeChunk_terminal now job chunk id c₀.status hstate hc₀
    simp only [BatchJobStatus.chunkState, hg, Option.map_some, Option.some.injEq] at hs'
    rw [hs']
    exact hterm

end

/-! ## Reports on different chunks -/

/-- The same job but for the times of the last report and of the end. -/
def SameButClock (x y : BatchJobStatus) : Prop :=
  { x with updatedAt := y.updatedAt, finishedAt := y.finishedAt } = y ∧ x.finishedAt.isSome = y.finishedAt.isSome

theorem SameButClock.refl (x : BatchJobStatus) : SameButClock x x := ⟨rfl, rfl⟩

theorem SameButClock.trans {x y z : BatchJobStatus} (h : SameButClock x y) (h' : SameButClock y z) :
    SameButClock x z := by
  refine ⟨?_, h.2.trans h'.2⟩
  rw [← h'.1, ← h.1]

/-- The clock of a report shows in these two times only. -/
theorem SameButClock.merge {x y : BatchJobStatus} (h : SameButClock x y) (t t' : Int) (chunk : BatchChunkStatus) :
    SameButClock (mergeChunk t x chunk) (mergeChunk t' y chunk) := by
  have hchunks : y.chunks = x.chunks := by rw [← h.1]
  have hcount : y.chunkCount = x.chunkCount := by rw [← h.1]
  have hy : y = { x with updatedAt := y.updatedAt, finishedAt := y.finishedAt } := h.1.symm
  unfold mergeChunk
  dsimp only
  rw [hchunks]
  split
  · exact h
  · have hderive : ∀ u u' : Int, deriveJobStatus
        { x with chunks := Dict.set x.chunks chunk.chunkId chunk, updatedAt := u } =
        deriveJobStatus { y with chunks := Dict.set x.chunks chunk.chunkId chunk, updatedAt := u' } := by
      intro u u'
      simp only [deriveJobStatus, hcount]
    rw [← hderive t t']
    refine ⟨?_, ?_⟩
    · rw [hy]
    · dsimp only
      split
      · rfl
      · rfl

theorem mergeChunk_ignored {now : Int} {job : BatchJobStatus} {chunk existing : BatchChunkStatus}
    (hg : Dict.get? job.chunks chunk.chunkId = some existing) (he : existing.status.terminal = true)
    (hc : chunk.status.terminal = false) : mergeChunk now job chunk = job := by
  unfold mergeChunk
  dsimp only
  rw [hg, if_pos ⟨he, hc⟩]

theorem mergeChunk_get?_ne {now : Int} {job : BatchJobStatus} {chunk : BatchChunkStatus} {id : String}
    (h : chunk.chunkId ≠ id) : Dict.get? (mergeChunk now job chunk).chunks id = Dict.get? job.chunks id := by
  unfold mergeChunk
  dsimp only
  split
  · rfl
  · exact Dict.get?_set_ne _ _ h

/-- The report is on a finished chunk and does not finish it. -/
def ignores (job : BatchJobStatus) (chunk : BatchChunkStatus) : Bool :=
  (Dict.get? job.chunks chunk.chunkId).any (·.status.terminal) && !chunk.status.terminal

theorem mergeChunk_of_ignores {now : Int} {job : BatchJobStatus} {chunk : BatchChunkStatus} (h : ignores job chunk = true) :
    mergeChunk now job chunk = job := by
  simp only [ignores, Bool.and_eq_true, Bool.not_eq_true'] at h
  cases hg : Dict.get? job.chunks chunk.chunkId with
  | none =>
    rw [hg] at h
    cases h.1
  | some existing =>
    rw [hg] at h
    exact mergeChunk_ignored hg h.1 h.2

theorem ignores_merge {now : Int} {job : BatchJobStatus} {a b : BatchChunkStatus} (hne : a.chunkId ≠ b.chunkId) :
    ignores (mergeChunk now job a) b = ignores job b := by
  simp only [ignores, mergeChunk_get?_ne hne]

theorem mergeChunk_of_not_ignores {now : Int} {job : BatchJobStatus} {chunk : BatchChunkStatus}
    (h : ignores job chunk = false) :
    let merged := { job with chunks := Dict.set job.chunks chunk.chunkId chunk, updatedAt := now }
    mergeChunk now job chunk =
      { merged with
        status := deriveJobStatus merged
        finishedAt := if (deriveJobStatus merged).terminal then some now else none } := by
  unfold mergeChunk
  dsimp only
  rw [if_neg]
  rintro ⟨h₁, h₂⟩
  simp only [ignores, h₁, h₂] at h
  cases h

theorem Registered.merge_comm {ids : List String} {job : BatchJobStatus} (h : Registered ids job) (now : Int)
    {a b : BatchChunkStatus} (ha : a.chunkId ∈ ids) (hb : b.chunkId ∈ ids) (hne : a.chunkId ≠ b.chunkId) :
    mergeChunk now (mergeChunk now job a) b = mergeChunk now (mergeChunk now job b) a := by
  have hab : ignores (mergeChunk now job a) b = ignores job b := ignores_merge hne
  have hba : ignores (mergeChunk now job b) a = ignores job a := ignores_merge hne.symm
  cases hia : ignores job a with
  | true =>
    rw [hia] at hba
    rw [mergeChunk_of_ignores hia, mergeChunk_of_ignores hba]
  | false =>
    cases hib : ignores job b with
    | true =>
      rw [hib] at hab
      rw [mergeChunk_of_ignores hib, mergeChunk_of_ignores hab]
    | false =>
      rw [hia] at hba
      rw [hib] at hab
      rw [mergeChunk_of_not_ignores hab, mergeChunk_of_not_ignores hba, mergeChunk_of_not_ignores hia,
        mergeChunk_of_not_ignores hib]
      have hset := Dict.set_comm a b hne (by rw [h.keys]; exact ha) (by rw [h.keys]; exact hb)
      simp only [hset, deriveJobStatus]

theorem Registered.merge_comm_clock {ids : List String} {job : BatchJobStatus} (h : Registered ids job) (ta tb : Int)
    {a b : BatchChunkStatus} (ha : a.chunkId ∈ ids) (hb : b.chunkId ∈ ids) (hne : a.chunkId ≠ b.chunkId) :
    SameButClock (mergeChunk tb (mergeChunk ta job a) b) (mergeChunk ta (mergeChunk tb job b) a) := by
  have h₁ := (SameButClock.refl (mergeChunk ta job a)).merge tb ta b
  have h₂ := ((SameButClock.refl job).merge ta tb b).merge ta ta a
  rw [h.merge_comm ta ha hb hne] at h₁
  exact h₁.trans h₂

/-! ## The submitted job -/

theorem chunkIdOf_injective (jobId : String) : Function.Injective (chunkIdOf jobId) := by
  intro i j h
  have hdigits : Nat.toDigits 10 i = Nat.toDigits 10 j := by
    have h' := congrArg String.toList h
    simpa [chunkIdOf, toString] using h'
  have hread := congrArg (Nat.ofDigitChars 10 · 0) hdigits
  simpa using hread

section
variable (prepared : PreparedBatch) (request : BatchJobIn)

def PreparedBatch.chunkIds : List String :=
  (List.range (prepared.chunks request).length).map (chunkIdOf request.idempotencyKey)

theorem PreparedBatch.chunkIds_nodup : (prepared.chunkIds request).Nodup :=
  List.nodup_range.map (chunkIdOf_injective request.idempotencyKey)

theorem PreparedBatch.chunkStatuses_eq (now : Int) :
    prepared.chunkStatuses request now = ((prepared.chunks request).zipIdx).map fun (items, index) =>
      (chunkIdOf request.idempotencyKey index,
        { chunkId := chunkIdOf request.idempotencyKey index, chunkIndex := index, status := .accepted,
          itemCount := items.length, updatedAt := now }) := by
  -- each index is new, so every entry is appended
  have key : ∀ (chunks : List (List BatchItem)) (n : Nat) (acc : List (String × BatchChunkStatus)),
      (∀ k ∈ Dict.keys acc, ∃ i < n, k = chunkIdOf request.idempotencyKey i) →
      (chunks.zipIdx n).foldl (fun statuses (items, index) =>
        Dict.set statuses (chunkIdOf request.idempotencyKey index)
          { chunkId := chunkIdOf request.idempotencyKey index, chunkIndex := index, status := .accepted,
            itemCount := items.length, updatedAt := now }) acc =
      acc ++ (chunks.zipIdx n).map fun (items, index) =>
        (chunkIdOf request.idempotencyKey index,
          { chunkId := chunkIdOf request.idempotencyKey index, chunkIndex := index, status := .accepted,
            itemCount := items.length, updatedAt := now }) := by
    intro chunks
    induction chunks with
    | nil =>
      intro n acc _
      simp
    | cons items chunks ih =>
      intro n acc hacc
      have hnew : chunkIdOf request.idempotencyKey n ∉ Dict.keys acc := by
        intro hm
        obtain ⟨i, hi, he⟩ := hacc _ hm
        have := chunkIdOf_injective _ he
        omega
      rw [List.zipIdx_cons, List.foldl_cons, List.map_cons]
      dsimp only
      rw [Dict.set_of_notMem _ hnew, ih (n + 1), List.append_assoc]
      · rfl
      · intro k hk
        simp only [Dict.keys, List.map_append, List.map_cons, List.map_nil, List.mem_append,
          List.mem_singleton] at hk
        rcases hk with hk | rfl
        · obtain ⟨i, hi, he⟩ := hacc k hk
          exact ⟨i, by omega, he⟩
        · exact ⟨n, by omega, rfl⟩
  have h := key (prepared.chunks request) 0 [] (by simp [Dict.keys])
  simpa [PreparedBatch.chunkStatuses] using h

theorem PreparedBatch.keys_chunkStatuses (now : Int) :
    Dict.keys (prepared.chunkStatuses request now) = prepared.chunkIds request := by
  rw [prepared.chunkStatuses_eq request now, PreparedBatch.chunkIds, List.range_eq_range',
    ← List.zipIdx_map_snd 0 (prepared.chunks request), Dict.keys, List.map_map, List.map_map]
  rfl

end

theorem prepareBatch_items {settings : BatchSettings} {registry : Registry} {datasets : SourceDatasets}
    {request : BatchJobIn} {prepared : PreparedBatch}
    (h : prepareBatch settings registry datasets request = .ok prepared) : prepared.items ≠ [] := by
  unfold prepareBatch at h
  obtain ⟨_, -, h⟩ := bind_eq_ok.mp h
  split at h
  · cases h
  · simp only [bind_eq_ok] at h
    obtain ⟨⟨items, manifestId, manifestIds⟩, -, _, hempty, _, -, hprepared⟩ := h
    cases hprepared
    intro hnil
    unfold refuseIf at hempty
    rw [if_pos (by simpa using hnil)] at hempty
    cases hempty

theorem PreparedBatch.chunks_ne_nil {prepared : PreparedBatch} (request : BatchJobIn) (h : prepared.items ≠ []) :
    prepared.chunks request ≠ [] := by
  unfold PreparedBatch.chunks
  cases hitems : prepared.items with
  | nil => exact absurd hitems h
  | cons item items => simp [slices]

/-- The job as it is put before its chunks are published. -/
theorem PreparedBatch.job_registered {prepared : PreparedBatch} (request : BatchJobIn) (h : prepared.items ≠ [])
    (now : Int) : Registered (prepared.chunkIds request) (prepared.job request now) := by
  have hne := PreparedBatch.chunks_ne_nil request h
  have hpos : 0 < (prepared.chunks request).length := List.length_pos_iff.mpr hne
  have hstates : ∀ s ∈ (prepared.job request now).states, s = ChunkState.accepted := by
    intro s hs
    obtain ⟨c, hc, rfl⟩ := BatchJobStatus.mem_states.mp hs
    simp only [PreparedBatch.job, Dict.values, prepared.chunkStatuses_eq, List.map_map, List.mem_map] at hc
    obtain ⟨entry, -, rfl⟩ := hc
    rfl
  refine ⟨prepared.keys_chunkStatuses request now, prepared.chunkIds_nodup request, ?_, ?_, ?_, rfl⟩
  · intro he
    have := congrArg List.length he
    simp only [PreparedBatch.chunkIds, List.length_map, List.length_range, List.length_nil] at this
    omega
  · simp [PreparedBatch.job, PreparedBatch.chunkIds]
  · obtain ⟨s, hs⟩ : ∃ s, s ∈ (prepared.job request now).states := by
      refine Multiset.exists_mem_of_ne_zero fun hzero => ?_
      have := congrArg Multiset.card hzero
      simp [BatchJobStatus.states, PreparedBatch.job, Dict.values, prepared.chunkStatuses_eq, hne] at this
    have hopen : ¬ ∀ s ∈ (prepared.job request now).states, s.terminal = true := by
      intro hall
      have := hall s hs
      rw [hstates s hs] at this
      cases this
    unfold aggregate
    rw [if_neg hopen, if_pos hstates]
    rfl

/-! ## Runs of reports -/

structure ChunkReport where
  jobId : String
  chunk : BatchChunkStatus
  now : Int

def applyReport (jobs : BatchJobs) (report : ChunkReport) : BatchJobs :=
  setChunk report.now jobs report.jobId report.chunk

theorem applyReport_get? (jobs : BatchJobs) (report : ChunkReport) (jobId : String) :
    Dict.get? (applyReport jobs report) jobId =
      if report.jobId = jobId then (Dict.get? jobs jobId).map (mergeChunk report.now · report.chunk)
      else Dict.get? jobs jobId := by
  by_cases h : report.jobId = jobId
  · subst h
    rw [if_pos rfl]
    exact setChunk_get? _ _ _ _
  · rw [if_neg h]
    unfold applyReport setChunk
    cases Dict.get? jobs report.jobId with
    | none => rfl
    | some job => exact Dict.get?_set_ne _ _ h

theorem run_registered {ids : List String} {jobId : String} : ∀ (reports : List ChunkReport) {jobs : BatchJobs}
    {job : BatchJobStatus}, Dict.get? jobs jobId = some job → Registered ids job →
    (∀ r ∈ reports, r.jobId = jobId → r.chunk.chunkId ∈ ids) →
    ∃ job', Dict.get? (Runs.run applyReport jobs reports) jobId = some job' ∧ Registered ids job'
  | [], _, job, hg, h, _ => ⟨job, hg, h⟩
  | r :: reports, jobs, job, hg, h, hids => by
    have hget := applyReport_get? jobs r jobId
    rw [hg] at hget
    have hrest : ∀ r ∈ reports, r.jobId = jobId → r.chunk.chunkId ∈ ids :=
      fun r hr => hids r (List.mem_cons_of_mem _ hr)
    rw [Runs.run_cons]
    by_cases hj : r.jobId = jobId
    · rw [if_pos hj] at hget
      exact run_registered reports hget (h.merge r.now (hids r List.mem_cons_self hj)) hrest
    · rw [if_neg hj] at hget
      exact run_registered reports hget h hrest

theorem applyReport_job {jobs : BatchJobs} {jobId : String} {job : BatchJobStatus} (hg : Dict.get? jobs jobId = some job)
    {report : ChunkReport} (hr : report.jobId = jobId) :
    Dict.get? (applyReport jobs report) jobId = some (mergeChunk report.now job report.chunk) := by
  rw [applyReport_get?, if_pos hr, hg, Option.map_some]

/-- After any reports on the chunks of a submitted job, its status is the aggregate of its chunks; one report more
leaves terminal what is terminal, and two reports on different chunks can be exchanged. -/
theorem batch_status_aggregates (settings : BatchSettings) (registry : Registry) (datasets : SourceDatasets)
    (request : BatchJobIn) (prepared : PreparedBatch)
    (hprepared : prepareBatch settings registry datasets request = .ok prepared) (jobs : BatchJobs) (submittedAt : Int)
    (reports : List ChunkReport)
    (hids : ∀ r ∈ reports, r.jobId = request.idempotencyKey → r.chunk.chunkId ∈ prepared.chunkIds request) :
    let key := request.idempotencyKey
    let ids := prepared.chunkIds request
    let s := Runs.run applyReport (Dict.set jobs key (prepared.job request submittedAt)) reports
    ∃ job, Dict.get? s key = some job ∧ Dict.keys job.chunks = ids ∧
      (job.status.terminal = true ↔ ∀ c ∈ Dict.values job.chunks, c.status.terminal = true) ∧
      job.status = aggregate job.states ∧
      (∀ r : ChunkReport, r.jobId = key → r.chunk.chunkId ∈ ids → ∃ job', Dict.get? (applyReport s r) key = some job' ∧
        (∀ id state, job.chunkState id = some state → state.terminal = true →
          ∃ state', job'.chunkState id = some state' ∧ state'.terminal = true) ∧
        (job.status.terminal = true → job'.status.terminal = true)) ∧
      ∀ a b : ChunkReport, a.jobId = key → b.jobId = key → a.chunk.chunkId ∈ ids → b.chunk.chunkId ∈ ids →
        a.chunk.chunkId ≠ b.chunk.chunkId →
        ∃ x y, Dict.get? (applyReport (applyReport s a) b) key = some x ∧
          Dict.get? (applyReport (applyReport s b) a) key = some y ∧ SameButClock x y ∧ (a.now = b.now → x = y) := by
  intro key ids s
  have hstart : Dict.get? (Dict.set jobs key (prepared.job request submittedAt)) key =
      some (prepared.job request submittedAt) := Dict.get?_set_self _ _ _
  have hreg := PreparedBatch.job_registered request (prepareBatch_items hprepared) submittedAt
  obtain ⟨job, hg, h⟩ := run_registered reports hstart hreg hids
  refine ⟨job, hg, h.keys, h.terminal_iff, h.status, fun r hr hc => ?_, fun a b hja hjb ha hb hne => ?_⟩
  · refine ⟨_, applyReport_job hg hr, fun id state hs ht => ?_, fun ht => ?_⟩
    · exact mergeChunk_terminal hs ht
    · exact h.merge_terminal r.now hc ht
  · refine ⟨_, _, applyReport_job (applyReport_job hg hja) hjb, applyReport_job (applyReport_job hg hjb) hja, ?_, ?_⟩
    · exact h.merge_comm_clock a.now b.now ha hb hne
    · intro hnow
      rw [hnow]
      exact h.merge_comm b.now ha hb hne

/-! ## A job of two chunks -/

def usersPrepared : Except HttpError PreparedBatch := (usersSubmission ["1", "2"]).prepared

def twoChunks : PreparedBatch := okGet usersPrepared (by decide +kernel)

/-- The second chunk fails, the first completes, and a late report says that the second is running. -/
def twoChunkReports : List ChunkReport :=
  [⟨"job_1", { chunkReport .failed with chunkId := "job_1:1" }, 5⟩,
   ⟨"job_1", { chunkReport .completed with chunkId := "job_1:0" }, 6⟩,
   ⟨"job_1", { chunkReport .running with chunkId := "job_1:1" }, 7⟩]

theorem batch_status_aggregates_two :
    let key := "job_1"
    let ids := twoChunks.chunkIds (usersJob ["1", "2"])
    let s := Runs.run applyReport (Dict.set [] key (twoChunks.job (usersJob ["1", "2"]) 1)) twoChunkReports
    ∃ job, Dict.get? s key = some job ∧ Dict.keys job.chunks = ids ∧
      (job.status.terminal = true ↔ ∀ c ∈ Dict.values job.chunks, c.status.terminal = true) ∧
      job.status = aggregate job.states ∧
      (∀ r : ChunkReport, r.jobId = key → r.chunk.chunkId ∈ ids → ∃ job', Dict.get? (applyReport s r) key = some job' ∧
        (∀ id state, job.chunkState id = some state → state.terminal = true →
          ∃ state', job'.chunkState id = some state' ∧ state'.terminal = true) ∧
        (job.status.terminal = true → job'.status.terminal = true)) ∧
      ∀ a b : ChunkReport, a.jobId = key → b.jobId = key → a.chunk.chunkId ∈ ids → b.chunk.chunkId ∈ ids →
        a.chunk.chunkId ≠ b.chunk.chunkId →
        ∃ x y, Dict.get? (applyReport (applyReport s a) b) key = some x ∧
          Dict.get? (applyReport (applyReport s b) a) key = some y ∧ SameButClock x y ∧ (a.now = b.now → x = y) :=
  batch_status_aggregates smallSettings (userRegistry lastView) {} (usersJob ["1", "2"]) twoChunks
    (eq_ok_okGet usersPrepared (by decide +kernel)) [] 1 twoChunkReports (by decide +kernel)

end ClearFeature
