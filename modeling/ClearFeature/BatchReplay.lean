import ClearFeature.BatchProjection

/-!
# Events of a finished job, again

On a finished job a result changes nothing, whatever it says. A request leaves
the chunks, but it merges the snapshot of the job and derives its status again:
with the status comes a new time of finishing.
-/

namespace ClearFeature

open BatchMetadata

/-- The status, the counts and the time of finishing of a job. -/
def BatchMetadata.BatchJobRecord.summary (row : BatchJobRecord) : JobState × Value × Value × Option Int :=
  (row.status, row.totalItems, row.chunkCount, row.finishedAt)

/-- The chunk rows of the job are the same, and so is the summary of the job. -/
def SameOutcome (jobId : String) (store store' : BatchMetadataStore) : Prop :=
  store'.listChunks (.str jobId) = store.listChunks (.str jobId) ∧
    (store'.job? jobId).map BatchJobRecord.summary = (store.job? jobId).map BatchJobRecord.summary

/-- The event is no request, or it names the stored total, if any, and the clock shows the stored time of finishing. -/
def MetadataEvent.Restates (row : BatchJobRecord) (t : Readings) : MetadataEvent → Prop
  | .batchChunkRequested e =>
    (e.totalItems.truthy = true → e.totalItems = row.totalItems) ∧ row.finishedAt = some t.derived
  | _ => True

section
variable {jobId : String} {n : Nat} {s : Stores}

theorem pickTruthy_eq_iff {inc exi : Value} : pickTruthy inc exi = exi ↔ (inc.truthy = true → inc = exi) := by
  unfold pickTruthy
  by_cases h : inc.truthy = true
  · rw [if_pos h]
    exact ⟨fun he _ => he, fun himp => himp h⟩
  · rw [if_neg h]
    exact iff_of_true rfl fun ht => absurd ht h

/-- The row of a finished job after a request of one of its chunks. -/
theorem summary_afterJob (h : Tabled jobId n s.batch) {row : BatchJobRecord} (hrow : s.batch.job? jobId = some row)
    (hdone : row.status.terminal = true) {job : BatchJobRecord} (hcount : job.chunkCount = .int n) (hn : 0 < n)
    (mergedAt derivedAt : Int) :
    ((s.batch.afterJob jobId n job mergedAt derivedAt).job? jobId).map BatchJobRecord.summary =
      some (row.status, pickTruthy job.totalItems row.totalItems, row.chunkCount, some derivedAt) := by
  have hmerged := mergeJobSnapshot_chunkCount hn hcount (some row) mergedAt
  have hstatus := h.status hrow
  unfold BatchMetadataStore.afterJob
  rw [job?_putJob, hrow, Option.map_some]
  unfold BatchJobRecord.summary BatchMetadataStore.derivedRow
  dsimp only
  rw [← hstatus, if_pos hdone, hmerged, h.chunkCount hrow]
  rfl

/-- One event of a finished job: its outcome is the same exactly if the event restates it. -/
theorem finished_step (h : Tabled jobId n s.batch) {row : BatchJobRecord} (hrow : s.batch.job? jobId = some row)
    (hdone : row.status.terminal = true) {event : MetadataEvent} {i : Nat} (hon : event.OnChunk jobId n i) (ehash : String)
    (t : Readings) :
    SameOutcome jobId s.batch (Writing.left (EStateM.run (event.project ehash t) s)).batch ↔ event.Restates row t := by
  have hfinal : (s.batch.cell jobId i).any BatchChunkRecord.final = true := by
    rw [h.status hrow, tableStatus_terminal] at hdone
    exact hdone i (MetadataEvent.OnChunk.inRange hon)
  cases event with
  | batchChunkRequested e =>
    have hn : 0 < n := Nat.zero_lt_of_lt hon.1.inRange
    have hcount : (Writer.requestedJob t e).chunkCount = .int n := hon.1.count
    have hsummary := summary_afterJob h hrow hdone hcount hn t.merged t.derived
    dsimp only [MetadataEvent.project]
    rw [batch_requested h.toJobRows hon ehash t]
    unfold afterRequested SameOutcome
    rw [if_pos hfinal, hsummary, hrow, Option.map_some, BatchJobRecord.summary, Option.some.injEq, Prod.mk.injEq,
      Prod.mk.injEq, Prod.mk.injEq]
    constructor
    · rintro ⟨-, -, htotal, -, hfinish⟩
      exact ⟨pickTruthy_eq_iff.mp htotal, hfinish.symm⟩
    · rintro ⟨htotal, hfinish⟩
      exact ⟨rfl, rfl, pickTruthy_eq_iff.mpr htotal, rfl, hfinish.symm⟩
  | batchChunkProcessed e =>
    obtain ⟨finishedAt, htime⟩ := hon.2.1
    dsimp only [MetadataEvent.project]
    rw [batch_processed h.toJobRows hon htime ehash t]
    unfold afterProcessed
    rw [if_pos hfinal]
    exact iff_of_true ⟨rfl, rfl⟩ trivial
  | _ => exact hon.elim

end

/-- After any run that finishes a job, any event of the job, and so any that the run has delivered, leaves its chunks, its
status, its counts and its time of finishing exactly if it restates them. -/
theorem replay_unchanged_iff (codec : WireCodec) (jobId : String) (n : Nat) (s : Stores) (hs : Untouched jobId n s.batch)
    (ms : List RawMessage) (hms : ∀ m ∈ ms, m.About codec jobId n) (row : BatchJobRecord)
    (hrow : (Runs.run (deliver codec) s ms).batch.job? jobId = some row) (hdone : row.status.terminal = true)
    (m : RawMessage) (event : MetadataEvent) (hevent : decoded codec m.rawValue = some event) (i : Nat)
    (hon : event.OnChunk jobId n i) :
    SameOutcome jobId (Runs.run (deliver codec) s ms).batch (deliver codec (Runs.run (deliver codec) s ms) m).batch ↔
      event.Restates row m.clock := by
  obtain ⟨htabled, -⟩ := run_tabled ms hs.tabled hms
  rw [deliver, projectEvent_decoded _ m.clock hevent]
  exact finished_step htabled hrow hdone hon (codec.sha256 m.rawValue) m.clock

/-! ## A job of one chunk -/

def finishedJob : List RawMessage := [(oneItem 1 1).sent 1, (chunkResult 1).sent 2]

theorem about_finishedJob : ∀ m ∈ finishedJob, m.About (chunkCodec 1 1) "job_1" 1 := by
  intro m hm
  rcases List.mem_pair.mp hm with rfl | rfl
  · exact about_oneItem 1 Nat.one_pos 1
  · exact about_chunkResult 1 Nat.one_pos 2

/-- The rows that the two messages leave. -/
def finishedRows : BatchMetadataStore :=
  afterProcessed (afterRequested {} "job_1" 1 0 ⟨1, 1, 1, 1⟩ (requestEvent 1 1 ["1"])) "job_1" 1 0 ⟨2, 2, 2, 2⟩
    (resultEvent 1) 1704067200000000

theorem run_finishedJob : (Runs.run (deliver (chunkCodec 1 1)) {} finishedJob).batch = finishedRows := by
  have hempty := (untouched_empty "job_1" 1).tabled
  have hone := (deliver_step hempty (about_oneItem 1 Nat.one_pos 1)).1.toJobRows
  have hresult := deliver_processed hone (m := (chunkResult 1).sent 2) (decoded_chunkResult 1 1)
    (resultEvent_onChunk Nat.one_pos) rfl
  rw [deliver_requested hempty.toJobRows (m := (oneItem 1 1).sent 1) (decoded_oneItem 1 1)
    (requestEvent_onChunk 1 Nat.one_pos ["1"])] at hresult
  rw [finishedJob, Runs.run_cons, Runs.run_cons, Runs.run_nil, hresult]
  rfl

theorem summary_finishedJob : ((Runs.run (deliver (chunkCodec 1 1)) {} finishedJob).batch.job? "job_1").map
    BatchJobRecord.summary = some (.completed, .int 1, .int 1, some 2) := by
  rw [run_finishedJob]
  rfl

/-- The result again, at a later time, changes nothing. -/
theorem replay_unchanged_result : SameOutcome "job_1" (Runs.run (deliver (chunkCodec 1 1)) {} finishedJob).batch
    (deliver (chunkCodec 1 1) (Runs.run (deliver (chunkCodec 1 1)) {} finishedJob) ((chunkResult 1).sent 3)).batch := by
  obtain ⟨row, hrow, hsummary⟩ := Option.map_eq_some_iff.mp summary_finishedJob
  have hdone : row.status = .completed := (Prod.mk.inj hsummary).1
  have hevent : decoded (chunkCodec 1 1) ((chunkResult 1).sent 3).rawValue = some (.batchChunkProcessed (resultEvent 1)) := by
    rw [KnownMessage.sent_rawValue]
    exact decoded_chunkResult 1 1
  exact (replay_unchanged_iff (chunkCodec 1 1) "job_1" 1 {} (untouched_empty "job_1" 1) finishedJob about_finishedJob row
    hrow (by rw [hdone]; rfl) ((chunkResult 1).sent 3) (.batchChunkProcessed (resultEvent 1)) hevent 0
    (resultEvent_onChunk Nat.one_pos)).mpr trivial

/-- The request again, at a later time, moves the time at which the job finished. -/
theorem replay_moves_finish :
    (oneItem 1 1).sent 1 ∈ finishedJob ∧
      ((Runs.run (deliver (chunkCodec 1 1)) {} finishedJob).batch.job? "job_1").map BatchJobRecord.summary =
        some (.completed, .int 1, .int 1, some 2) ∧
      ((deliver (chunkCodec 1 1) (Runs.run (deliver (chunkCodec 1 1)) {} finishedJob)
        ((oneItem 1 1).sent 3)).batch.job? "job_1").map BatchJobRecord.summary =
          some (.completed, .int 1, .int 1, some 3) := by
  have hrows := (run_tabled finishedJob (untouched_empty "job_1" 1).tabled about_finishedJob).1.toJobRows
  have hagain := deliver_requested hrows (m := (oneItem 1 1).sent 3) (decoded_oneItem 1 1)
    (requestEvent_onChunk 1 Nat.one_pos ["1"])
  refine ⟨List.mem_cons_self, summary_finishedJob, ?_⟩
  rw [hagain, run_finishedJob]
  rfl

end ClearFeature
