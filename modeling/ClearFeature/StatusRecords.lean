import ClearFeature.BatchAggregate
import ClearFeature.WireRoundTrip
import Mathlib.Algebra.GroupWithZero.Nat

/-!
# Job status records as texts (`fs_core/stores/batch_status.py`)

The shared store keeps a job as the JSON text of its record. Read back it is the
same job, its chunks in the order of their ids; setting a chunk does not look at
that order.
-/

namespace ClearFeature

open StableSort

def ChunkState.text : ChunkState → String
  | .accepted => "accepted"
  | .running => "running"
  | .completed => "completed"
  | .completedWithErrors => "completed_with_errors"
  | .failed => "failed"

def ChunkState.ofText? (s : String) : Option ChunkState :=
  [.accepted, .running, .completed, .completedWithErrors, .failed].find? fun state => state.text = s

def JobState.text : JobState → String
  | .accepted => "accepted"
  | .running => "running"
  | .completed => "completed"
  | .completedWithErrors => "completed_with_errors"
  | .failed => "failed"
  | .publishFailed => "publish_failed"

def JobState.ofText? (s : String) : Option JobState :=
  [.accepted, .running, .completed, .completedWithErrors, .failed, .publishFailed].find? fun state => state.text = s

@[simp] theorem ChunkState.ofText?_text (state : ChunkState) : ofText? state.text = some state := by
  cases state <;> decide

@[simp] theorem JobState.ofText?_text (state : JobState) : ofText? state.text = some state := by
  cases state <;> decide

/-! ## Fields of a declared type -/

namespace Wire

def ofType {T : Type} (what : String) (v : Value) : Option T → Except PyErr T
  | some a => .ok a
  | none => .error (.typeError s!"expected {what}, not {v.typeName}")

def asStr (v : Value) : Except PyErr String :=
  ofType "a str" v (match v with | .str s => some s | _ => none)

def asInt (v : Value) : Except PyErr Int :=
  ofType "an int" v (match v with | .int n => some n | _ => none)

def asNat (v : Value) : Except PyErr Nat :=
  ofType "a count" v (match v with | .int (.ofNat n) => some n | _ => none)

def asBool (v : Value) : Except PyErr Bool :=
  ofType "a bool" v (match v with | .bool b => some b | _ => none)

def asStr? (v : Value) : Except PyErr (Option String) :=
  match v with
  | .null => .ok none
  | v => do return some (← asStr v)

def asState {T : Type} (ofText? : String → Option T) (v : Value) : Except PyErr T :=
  ofType "a status" v (match v with | .str s => ofText? s | _ => none)

@[simp] theorem asStr_str (s : String) : asStr (.str s) = .ok s := rfl

@[simp] theorem asInt_int (n : Int) : asInt (.int n) = .ok n := rfl

@[simp] theorem asNat_int (n : Nat) : asNat (.int n) = .ok n := rfl

/-- `value if value is not None else None` as JSON. -/
def str? : Option String → Value
  | none => .null
  | some s => .str s

@[simp] theorem asStr?_str? (s : Option String) : asStr? (str? s) = .ok s := by
  cases s <;> rfl

def strs (xs : List String) : Value := .arr (xs.map .str)

theorem strs_normal (xs : List String) : (xs.map Value.str).map (Value.normal false) = xs.map Value.str := by
  simp [Value.normal_str]

theorem mapM_asStr (xs : List String) : (xs.map Value.str).mapM asStr = .ok xs := by
  have h := mapM_map_eq_ok (f := asStr) (g := Value.str) (k := id) (l := xs) fun a _ => rfl
  rwa [List.map_id] at h

theorem strs_proper (xs : List String) : (strs xs).Proper := by
  unfold strs
  refine Value.properList_iff.mpr ?_
  intro x hx
  obtain ⟨s, -, rfl⟩ := List.mem_map.mp hx
  trivial

section
variable (text : WireText)

/-- `_parse_dt(data[name])` with the check of the constructor. -/
def instantAt (codec : WireCodec) (data : Value) (name : String) : Except PyErr Int := do
  let time ← timeAt codec data name
  requireAware time name

def instantAt? (codec : WireCodec) (data : Value) (name : String) : Except PyErr (Option Int) := do
  let time ← timeAt? codec data name
  time.mapM fun t => requireAware t name

variable {text} {optional full kvs : List (String × Value)} (h : LeftOut optional full kvs)
  (hn : (Dict.keys full).Nodup)
include h hn

theorem LeftOut.instantAt (name : String) {t : Int} (hv : Dict.get? full name = some (.str (text.isoformat t)))
    (hrequired : Dict.get? optional name = none) :
    Wire.instantAt text.toWireCodec ((Value.obj kvs).normal false) name = .ok t := by
  have htime : iso text (.aware t) = .ok (.str (text.isoformat t)) := rfl
  rw [Wire.instantAt, h.timeAt hn name hv hrequired htime, ok_bind]
  rfl

theorem LeftOut.instantAt? (name : String) {t : Option Int} (hv : Dict.get? full name = some (isoformat? text t))
    (hoptional : Dict.get? optional name = some .null) :
    Wire.instantAt? text.toWireCodec ((Value.obj kvs).normal false) name = .ok t := by
  rw [Wire.instantAt?, h.timeAt? hn name hv hoptional (isoformat?_eq text t), ok_bind]
  cases t <;> rfl

end

end Wire

open Wire

/-! ## Chunks -/

section
variable (text : WireText)

def BatchChunkStatus.entries (c : BatchChunkStatus) : List (String × Value) :=
  [("chunk_id", .str c.chunkId), ("chunk_index", .int c.chunkIndex), ("status", .str c.status.text),
   ("item_count", .int c.itemCount), ("ok_items", .int c.okItems), ("failed_items", .int c.failedItems),
   ("first_errors", strs c.firstErrors), ("updated_at", .str (text.isoformat c.updatedAt)),
   ("finished_at", isoformat? text c.finishedAt)]

def BatchChunkStatus.toDict (c : BatchChunkStatus) : Value := .obj (c.entries text)

def BatchChunkStatus.fromDict (codec : WireCodec) (data : Value) : Except PyErr BatchChunkStatus := do
  let chunkId ← asStr (← data.item "chunk_id")
  let chunkIndex ← asNat (← data.item "chunk_index")
  let status ← asState ChunkState.ofText? (← data.item "status")
  let itemCount ← asNat (← data.item "item_count")
  let updatedAt ← instantAt codec data "updated_at"
  let okItems ← asNat (← data.getOr "ok_items" (.int 0))
  let failedItems ← asNat (← data.getOr "failed_items" (.int 0))
  let firstErrors ← (← listOr data "first_errors").mapM asStr
  let finishedAt ← instantAt? codec data "finished_at"
  return { chunkId, chunkIndex, status, itemCount, updatedAt, okItems, failedItems, firstErrors, finishedAt }

theorem BatchChunkStatus.reads (c : BatchChunkStatus) :
    ReadsAs (fromDict text.toWireCodec) id c (c.toDict text) := by
  have hn : (Dict.keys (c.entries text)).Nodup := by
    simp [entries, Dict.keys]
  have hleft := LeftOut.refl
    [("ok_items", .int 0), ("failed_items", .int 0), ("first_errors", .arr []), ("finished_at", .null)] (c.entries text)
  refine ⟨hleft.proper hn ?_, ?_⟩
  · refine ⟨trivial, trivial, trivial, trivial, trivial, trivial, strs_proper _, trivial, ?_, trivial⟩
    exact iso?_proper (isoformat?_eq text c.finishedAt)
  · rw [fromDict, toDict, hleft.item hn "chunk_id" rfl rfl, hleft.item hn "chunk_index" rfl rfl,
      hleft.item hn "status" rfl rfl, hleft.item hn "item_count" rfl rfl, hleft.instantAt hn "updated_at" rfl rfl,
      hleft.getOr hn "ok_items" rfl rfl rfl, hleft.getOr hn "failed_items" rfl rfl rfl,
      hleft.listOr hn "first_errors" rfl rfl, hleft.instantAt? hn "finished_at" rfl rfl]
    simp only [ok_bind, Value.normal, asStr_str, asNat_int, asState, ofType, ChunkState.ofText?_text,
      strs_normal, mapM_asStr]
    rfl

/-! ## Jobs -/

def BatchJobStatus.completedChunks (job : BatchJobStatus) : Nat :=
  (Dict.values job.chunks).countP fun c => c.status = .completed ∨ c.status = .completedWithErrors

def BatchJobStatus.failedChunks (job : BatchJobStatus) : Nat :=
  (Dict.values job.chunks).countP fun c => c.status = .failed

def BatchJobStatus.failedItems (job : BatchJobStatus) : Nat :=
  ((Dict.values job.chunks).map BatchChunkStatus.failedItems).sum

def PublishError.entries (e : PublishError) : List (String × Value) :=
  [("published_chunks", .int e.publishedChunks), ("failed_chunk_index", .int e.failedChunkIndex),
   ("error", .str e.error)]

/-- The summary is empty until a publication fails. -/
def errorSummaryDict : Option PublishError → Value
  | none => .obj []
  | some e => .obj e.entries

def readErrorSummary (data : Value) : Except PyErr (Option PublishError) :=
  match data with
  | .obj [] => .ok none
  | data => do
    let publishedChunks ← asNat (← data.item "published_chunks")
    let failedChunkIndex ← asNat (← data.item "failed_chunk_index")
    let error ← asStr (← data.item "error")
    return some { publishedChunks, failedChunkIndex, error }

def BatchJobStatus.entries (job : BatchJobStatus) (chunks : Value) : List (String × Value) :=
  [("job_id", .str job.jobId), ("status", .str job.status.text), ("view", .str job.view),
   ("view_version", .int job.viewVersion), ("requested_features", strs job.requestedFeatures),
   ("requested_feature_groups", strs job.requestedFeatureGroups), ("total_items", .int job.totalItems),
   ("chunk_count", .int job.chunkCount), ("write_online", .bool job.writeOnline),
   ("completed_chunks", .int job.completedChunks), ("failed_chunks", .int job.failedChunks),
   ("failed_items", .int job.failedItems), ("chunks", chunks), ("created_at", .str (text.isoformat job.createdAt)),
   ("updated_at", .str (text.isoformat job.updatedAt)), ("finished_at", isoformat? text job.finishedAt),
   ("error_summary", errorSummaryDict job.errorSummary), ("manifest_id", str? job.manifestId),
   ("manifest_ids", strs job.manifestIds), ("online_refresh_mode", str? job.onlineRefreshMode)]

def BatchJobStatus.toDict (job : BatchJobStatus) : Value :=
  .obj (job.entries text (.obj (job.chunks.map fun c => (c.1, c.2.toDict text))))

def BatchJobStatus.toJson (job : BatchJobStatus) : Bytes := text.dumps (job.toDict text)

def BatchJobStatus.fromDict (codec : WireCodec) (data : Value) : Except PyErr BatchJobStatus := do
  let jobId ← asStr (← data.item "job_id")
  let status ← asState JobState.ofText? (← data.item "status")
  let view ← asStr (← data.item "view")
  let viewVersion ← asInt (← data.item "view_version")
  let createdAt ← instantAt codec data "created_at"
  let updatedAt ← instantAt codec data "updated_at"
  let totalItems ← asNat (← data.item "total_items")
  let chunkCount ← asNat (← data.item "chunk_count")
  let writeOnline ← asBool (← data.item "write_online")
  let requestedFeatures ← (← listOr data "requested_features").mapM asStr
  let requestedFeatureGroups ← (← listOr data "requested_feature_groups").mapM asStr
  let chunks ← (← items (← data.getOr "chunks" (.obj []))).mapM fun kv => do
    return (kv.1, ← BatchChunkStatus.fromDict codec kv.2)
  let finishedAt ← instantAt? codec data "finished_at"
  let errorSummary ← readErrorSummary (← data.getOr "error_summary" (.obj []))
  let manifestId ← asStr? (← data.getOr "manifest_id" .null)
  let manifestIds ← (← listOr data "manifest_ids").mapM asStr
  let onlineRefreshMode ← asStr? (← data.getOr "online_refresh_mode" .null)
  return { jobId, status, view, viewVersion, createdAt, updatedAt, totalItems, chunkCount, writeOnline,
           requestedFeatures, requestedFeatureGroups, chunks, finishedAt, errorSummary, manifestId, manifestIds,
           onlineRefreshMode }

def BatchJobStatus.fromJson (raw : Bytes) : Except PyErr BatchJobStatus :=
  Wire.fromJson text (BatchJobStatus.fromDict text.toWireCodec) raw

/-- A job as it is read back. -/
def BatchJobStatus.normal (job : BatchJobStatus) : BatchJobStatus :=
  { job with chunks := sortedBy Prod.fst job.chunks }

theorem PublishError.proper : ∀ e : Option PublishError, (errorSummaryDict e).Proper
  | none => ⟨List.nodup_nil, trivial⟩
  | some e => ⟨by simp [PublishError.entries, Dict.keys], trivial, trivial, trivial, trivial⟩

theorem readErrorSummary_normal (e : Option PublishError) :
    readErrorSummary ((errorSummaryDict e).normal false) = .ok e := by
  cases e with
  | none => rfl
  | some e =>
    have hn : (Dict.keys e.entries).Nodup := by
      simp [PublishError.entries, Dict.keys]
    have hleft := LeftOut.refl [] e.entries
    have hne : (errorSummaryDict (some e)).normal false ≠ .obj [] := by
      intro h
      have hitem := hleft.item hn "error" rfl rfl
      rw [errorSummaryDict] at h
      rw [h] at hitem
      cases hitem
    have hread : readErrorSummary ((errorSummaryDict (some e)).normal false) = (do
        let publishedChunks ← asNat (← ((errorSummaryDict (some e)).normal false).item "published_chunks")
        let failedChunkIndex ← asNat (← ((errorSummaryDict (some e)).normal false).item "failed_chunk_index")
        let error ← asStr (← ((errorSummaryDict (some e)).normal false).item "error")
        return some { publishedChunks, failedChunkIndex, error }) := by
      unfold readErrorSummary
      split
      · rename_i h
        exact absurd h hne
      · rfl
    rw [hread, errorSummaryDict, hleft.item hn "published_chunks" rfl rfl, hleft.item hn "failed_chunk_index" rfl rfl,
      hleft.item hn "error" rfl rfl]
    rfl

variable {text}

variable (text) in
theorem BatchJobStatus.reads {job : BatchJobStatus} (hkeys : (Dict.keys job.chunks).Nodup) :
    ReadsAs (fromDict text.toWireCodec) normal job (job.toDict text) := by
  have hread : List.Forall₂ (Named (ReadsAs (BatchChunkStatus.fromDict text.toWireCodec) id)) job.chunks
      (job.chunks.map fun c => (c.1, c.2.toDict text)) := by
    apply List.forall₂_map_right_iff.mpr (List.forall₂_same.mpr ?_)
    intro c _
    exact ⟨rfl, c.2.reads text⟩
  obtain ⟨hproper, sorted, hsorted, hchunks⟩ := entries_roundTrip hread hkeys
  have hn : (Dict.keys (job.entries text (.obj (job.chunks.map fun c => (c.1, c.2.toDict text))))).Nodup := by
    simp [entries, Dict.keys]
  have hleft := LeftOut.refl
    [("requested_features", .arr []), ("requested_feature_groups", .arr []), ("chunks", .obj []),
     ("finished_at", .null), ("error_summary", .obj []), ("manifest_id", .null), ("manifest_ids", .arr []),
     ("online_refresh_mode", .null)]
    (job.entries text (.obj (job.chunks.map fun c => (c.1, c.2.toDict text))))
  have hstr? : ∀ s : Option String, (str? s).Proper ∧ (str? s).normal false = str? s := by
    intro s
    cases s <;> exact ⟨trivial, rfl⟩
  refine ⟨hleft.proper hn ?_, ?_⟩
  · refine ⟨trivial, trivial, trivial, trivial, strs_proper _, strs_proper _, trivial, trivial, trivial, trivial, trivial,
      trivial, hproper, trivial, trivial, ?_, PublishError.proper _, (hstr? _).1, strs_proper _, (hstr? _).1, trivial⟩
    exact iso?_proper (isoformat?_eq text job.finishedAt)
  · rw [fromDict, toDict, hleft.item hn "job_id" rfl rfl, hleft.item hn "status" rfl rfl, hleft.item hn "view" rfl rfl,
      hleft.item hn "view_version" rfl rfl, hleft.instantAt hn "created_at" rfl rfl,
      hleft.instantAt hn "updated_at" rfl rfl, hleft.item hn "total_items" rfl rfl,
      hleft.item hn "chunk_count" rfl rfl, hleft.item hn "write_online" rfl rfl,
      hleft.listOr hn "requested_features" rfl rfl, hleft.listOr hn "requested_feature_groups" rfl rfl,
      hleft.getOr hn "chunks" rfl rfl rfl, hleft.instantAt? hn "finished_at" rfl rfl,
      hleft.getOr hn "error_summary" rfl rfl rfl, hleft.getOr hn "manifest_id" rfl rfl rfl,
      hleft.listOr hn "manifest_ids" rfl rfl, hleft.getOr hn "online_refresh_mode" rfl rfl rfl, hsorted]
    simp only [ok_bind, Value.normal, asStr_str, asNat_int, asInt_int, asState, ofType,
      JobState.ofText?_text, strs_normal, mapM_asStr, items, readErrorSummary_normal, (hstr? _).2, asStr?_str?]
    rw [hchunks]
    simp [normal, normalEntries]
    rfl

/-- A job is read back from its text, its chunks in the order of their ids. -/
theorem BatchJobStatus.fromJson_toJson {job : BatchJobStatus} (hkeys : (Dict.keys job.chunks).Nodup) :
    fromJson text (job.toJson text) = .ok job.normal := by
  obtain ⟨hproper, hread⟩ := reads text hkeys
  rw [fromJson, Wire.fromJson, toJson, text.loads_dumps hproper]
  exact hread

end

end ClearFeature
