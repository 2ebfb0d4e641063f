import ClearFeature.Lib.Dict
import ClearFeature.Value

/-!
# Batch job status (`fs_core/stores/batch_status.py`)

A job holds the status of each of its chunks; its own status is derived from
them whenever a chunk is set.
-/

namespace ClearFeature

inductive ChunkState where
  | accepted
  | running
  | completed
  | completedWithErrors
  | failed
  deriving DecidableEq, Repr

inductive JobState where
  | accepted
  | running
  | completed
  | completedWithErrors
  | failed
  | publishFailed
  deriving DecidableEq, Repr

def ChunkState.terminal : ChunkState → Bool
  | .completed | .completedWithErrors | .failed => true
  | .accepted | .running => false

def JobState.terminal : JobState → Bool
  | .completed | .completedWithErrors | .failed => true
  | .accepted | .running | .publishFailed => false

structure BatchChunkStatus where
  chunkId : String
  chunkIndex : Nat
  status : ChunkState
  itemCount : Nat
  updatedAt : Int
  okItems : Nat := 0
  failedItems : Nat := 0
  firstErrors : List String := []
  finishedAt : Option Int := none
  deriving DecidableEq

structure PublishError where
  publishedChunks : Nat
  failedChunkIndex : Nat
  error : String
  deriving DecidableEq

structure BatchJobStatus where
  jobId : String
  status : JobState
  view : String
  viewVersion : Int
  createdAt : Int
  updatedAt : Int
  totalItems : Nat
  chunkCount : Nat
  writeOnline : Bool
  requestedFeatures : List String := []
  requestedFeatureGroups : List String := []
  chunks : List (String × BatchChunkStatus) := []
  finishedAt : Option Int := none
  errorSummary : Option PublishError := none
  manifestId : Option String := none
  manifestIds : List String := []
  onlineRefreshMode : Option String := none
  deriving DecidableEq

def deriveJobStatus (job : BatchJobStatus) : JobState :=
  let states := (Dict.values job.chunks).map BatchChunkStatus.status
  if states.length < job.chunkCount ∨ states.any (fun s => s = .accepted ∨ s = .running) then
    if states ≠ [] ∧ states.all (· = .accepted) ∧ states.length = job.chunkCount then .accepted else .running
  else if states.all (· = .failed) then .failed
  else if states.any (fun s => s = .failed ∨ s = .completedWithErrors) then .completedWithErrors
  else .completed

/-- A terminal chunk does not become non-terminal again. -/
def mergeChunk (now : Int) (job : BatchJobStatus) (chunk : BatchChunkStatus) : BatchJobStatus :=
  let existing := Dict.get? job.chunks chunk.chunkId
  if existing.any (·.status.terminal) ∧ chunk.status.terminal = false then job
  else
    let merged := { job with chunks := Dict.set job.chunks chunk.chunkId chunk, updatedAt := now }
    let status := deriveJobStatus merged
    { merged with status, finishedAt := if status.terminal then some now else none }

abbrev BatchJobs := List (String × BatchJobStatus)

/-- `set_chunk`, as one transaction; without an entry nothing is written. -/
def setChunk (now : Int) (jobs : BatchJobs) (jobId : String) (chunk : BatchChunkStatus) : BatchJobs :=
  match Dict.get? jobs jobId with
  | none => jobs
  | some existing => Dict.set jobs jobId (mergeChunk now existing chunk)

/-! ## What a chunk update leaves -/

def BatchJobStatus.chunkState (job : BatchJobStatus) (chunkId : String) : Option ChunkState :=
  (Dict.get? job.chunks chunkId).map BatchChunkStatus.status

theorem mergeChunk_terminal {now : Int} {job : BatchJobStatus} {chunk : BatchChunkStatus} {chunkId : String}
    {state : ChunkState} (h : job.chunkState chunkId = some state) (ht : state.terminal) :
    ∃ state', (mergeChunk now job chunk).chunkState chunkId = some state' ∧ state'.terminal := by
  unfold mergeChunk
  dsimp only
  split
  · exact ⟨state, h, ht⟩
  · rename_i hne
    unfold BatchJobStatus.chunkState at *
    dsimp only
    rw [Dict.get?_set]
    split
    · rename_i heq
      subst heq
      obtain ⟨existing, he, rfl⟩ := Option.map_eq_some_iff.mp h
      refine ⟨chunk.status, rfl, ?_⟩
      by_contra hrun
      apply hne
      rw [he]
      exact ⟨ht, eq_false_of_ne_true hrun⟩
    · exact ⟨state, h, ht⟩

theorem mergeChunk_self {now : Int} {job : BatchJobStatus} {chunk : BatchChunkStatus} (ht : chunk.status.terminal) :
    (mergeChunk now job chunk).chunkState chunk.chunkId = some chunk.status := by
  unfold mergeChunk
  dsimp only
  split
  · rename_i h
    rw [ht] at h
    cases h.2
  · unfold BatchJobStatus.chunkState
    dsimp only
    rw [Dict.get?_set_self]
    rfl

theorem setChunk_get? (now : Int) (jobs : BatchJobs) (jobId : String) (chunk : BatchChunkStatus) :
    Dict.get? (setChunk now jobs jobId chunk) jobId = (Dict.get? jobs jobId).map (mergeChunk now · chunk) := by
  unfold setChunk
  cases h : Dict.get? jobs jobId with
  | none => exact h
  | some job => exact Dict.get?_set_self _ _ _

end ClearFeature
