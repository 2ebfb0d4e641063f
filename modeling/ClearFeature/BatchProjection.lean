import ClearFeature.BatchTable

/-!
# Batch events in any order

The messages of a job may be delivered in any order, any number of times and
among any others. What is left of the job depends on which of its events were
projected, and on their order only in the item count of a chunk that was
requested in more than one way.
-/

namespace ClearFeature

open BatchMetadata

/-! ## Messages that leave a job alone -/

theorem asKey_ne {v : Value} {key : Value.Key} {text : String} (h : v.asKey = .ok key)
    (hne : v.pyEq (.str text) = false) : key ≠ [.str text] := by
  rintro rfl
  have heq : v.toks true = [.str text] := by
    unfold Value.asKey at h
    split at h
    · cases h
    · cases h
    · exact Except.ok.inj h
  rw [Value.pyEq, heq] at hne
  simp [Value.toks] at hne

section
variable (jobId : String) (n : Nat)

/-- The rows of the job are as they were. -/
structure SameJob (store store' : BatchMetadataStore) : Prop where
  job : store'.job? jobId = store.job? jobId
  cell : ∀ i < n, store'.cell jobId i = store.cell jobId i
  rows : JobRows jobId n store → JobRows jobId n store'

variable {jobId n}

theorem SameJob.refl (store : BatchMetadataStore) : SameJob jobId n store store := ⟨rfl, fun _ _ => rfl, id⟩

theorem SameJob.trans {a b c : BatchMetadataStore} (h : SameJob jobId n a b) (h' : SameJob jobId n b c) :
    SameJob jobId n a c :=
  ⟨h'.job.trans h.job, fun i hi => (h'.cell i hi).trans (h.cell i hi), fun hr => h'.rows (h.rows hr)⟩

theorem SameJob.putJob (store : BatchMetadataStore) {key : Value.Key} (hkey : key ≠ jobKey jobId) (row : BatchJobRecord) :
    SameJob jobId n store (store.putJob key row) := by
  have hjob : (store.putJob key row).job? jobId = store.job? jobId := Dict.get?_set_ne _ _ hkey
  refine ⟨hjob, fun _ _ => rfl, fun h => ⟨h.nodup, h.keyed, h.counted, ?_⟩⟩
  rw [hjob]
  exact h.chunkCount

theorem SameJob.putChunk (store : BatchMetadataStore) {key : Value.Key} (hkey : ∀ i < n, key ≠ chunkKey jobId i)
    {row : BatchChunkRecord} (hrow : row.jobId.pyEq (.str jobId) = false) :
    SameJob jobId n store (store.putChunk key row) := by
  refine ⟨rfl, fun i hi => ?_, fun h => ⟨Dict.keys_set_nodup _ _ h.nodup, ?_, ?_, h.chunkCount⟩⟩
  · unfold BatchMetadataStore.cell BatchMetadataStore.putChunk
    rw [Dict.get?_set_ne _ _ (hkey i hi)]
  · intro key' row' hg
    rcases get?_putChunk hg with ⟨rfl, rfl⟩ | hold
    · refine iff_of_false (by simp [hrow]) ?_
      rintro ⟨i, hi, he⟩
      exact hkey i hi he
    · exact h.keyed hold
  · intro key' row' hg hmine
    rcases get?_putChunk hg with ⟨-, rfl⟩ | hold
    · rw [hrow] at hmine
      cases hmine
    · exact h.counted hold hmine

theorem keeps_recompute {other : Value} (hne : other.pyEq (.str jobId) = false) (chunkCount : Value) (now : Int) :
    Writing.Keeps (SameJob jobId n) (BatchMetadataStore.recomputeJobStatus other chunkCount now) := by
  refine Writing.keeps_write SameJob.refl fun {store store'} h => ?_
  unfold BatchMetadataStore.recomputed at h
  obtain ⟨key, hkey, h⟩ := bind_eq_ok.mp h
  obtain ⟨status, -, h⟩ := bind_eq_ok.mp h
  cases h
  exact SameJob.putJob store (asKey_ne hkey hne) _

theorem keeps_upsertJob {job : BatchJobRecord} (hne : job.jobId.pyEq (.str jobId) = false) (mergedAt derivedAt : Int) :
    Writing.Keeps (SameJob jobId n) (BatchMetadataStore.upsertJob job mergedAt derivedAt) := by
  intro store
  rw [BatchMetadataStore.run_upsertJob]
  cases hkey : job.jobId.asKey with
  | error e => exact SameJob.refl store
  | ok key => exact (SameJob.putJob store (asKey_ne hkey hne) _).trans (keeps_recompute hne _ _ _)

theorem replacing_jobId (existing : Option BatchChunkRecord) (chunk : BatchChunkRecord) :
    (BatchMetadataStore.replacing existing chunk).jobId = chunk.jobId := by
  cases existing <;> rfl

section
variable {chunk : BatchChunkRecord} (hne : chunk.jobId.pyEq (.str jobId) = false)
  (hkey : ∀ i < n, chunk.chunkId.pyEq (.str (chunkIdOf jobId i)) = false)
include hne hkey

theorem keeps_put (store : BatchMetadataStore) {key : Value.Key} (hk : chunk.chunkId.asKey = .ok key) (now : Int) :
    SameJob jobId n store (Writing.left (EStateM.run
      (BatchMetadataStore.recomputeJobStatus chunk.jobId chunk.chunkCount now)
      (store.putChunk key (BatchMetadataStore.replacing (Dict.get? store.chunks key) chunk)))) := by
  refine (SameJob.putChunk store (fun i hi => asKey_ne hk (hkey i hi)) ?_).trans (keeps_recompute hne _ _ _)
  rw [replacing_jobId]
  exact hne

theorem keeps_upsertChunkRequested (now : Int) :
    Writing.Keeps (SameJob jobId n) (BatchMetadataStore.upsertChunkRequested chunk now) := by
  intro store
  rw [BatchMetadataStore.run_upsertChunkRequested]
  cases hk : chunk.chunkId.asKey with
  | error e => exact SameJob.refl store
  | ok key =>
    dsimp only
    split
    · exact SameJob.refl store
    · exact keeps_put hne hkey store hk now

theorem keeps_upsertChunkProcessed (now : Int) :
    Writing.Keeps (SameJob jobId n) (BatchMetadataStore.upsertChunkProcessed chunk now) := by
  intro store
  rw [BatchMetadataStore.run_upsertChunkProcessed]
  cases hk : chunk.chunkId.asKey with
  | error e => exact SameJob.refl store
  | ok key =>
    dsimp only
    cases checkProcessedConflict (Dict.get? store.chunks key) chunk with
    | error e => exact SameJob.refl store
    | ok same =>
      cases same with
      | true => exact SameJob.refl store
      | false => exact keeps_put hne hkey store hk now

end

end

/-! ## Handlers of other events -/

section
variable {jobId : String} {n : Nat}

theorem fixes_upsertRequest (metadata : RequestMetadata) (now : Int) :
    Writing.Fixes Stores.batch (Writer.upsertRequest metadata now) := by
  refine Writing.fixes_write fun h => ?_
  obtain ⟨requests, -, h⟩ := bind_eq_ok.mp h
  cases h
  rfl

theorem fixes_audit (ehash : String) (eventType requestId : Value) (occurredAt : WireTime) (createdAt : Int) :
    Writing.Fixes Stores.batch (Writer.audit ehash eventType occurredAt createdAt requestId) :=
  (Writing.fixes_need _).bind fun _ => Writing.fixes_write fun h => by cases h; rfl

theorem fixes_audited (ehash : String) (eventType requestId : Value) (occurredAt : WireTime) (createdAt : Int) :
    Writing.Fixes Stores.batch (do
      Writer.audit ehash eventType occurredAt createdAt requestId
      return requestId) :=
  (fixes_audit _ _ _ _ _).bind fun _ => Writing.fixes_pure _

theorem fixes_projectReport (t : Readings) (event : Wire.FeatureComputeRequested) (descriptor : Wire.ReportDescriptor) :
    Writing.Fixes Stores.batch (Writer.projectReport t event descriptor) := by
  refine (Writing.fixes_need _).bind fun row => Writing.fixes_write fun h => ?_
  obtain ⟨rawMeta, -, h⟩ := bind_eq_ok.mp h
  cases h
  rfl

/-- A program that leaves the rows of the job as they are. -/
abbrev KeepsJob (jobId : String) (n : Nat) {α : Type} (w : Writer.Program α) : Prop :=
  Writing.Keeps (fun s s' : Stores => SameJob jobId n s.batch s'.batch) w

theorem KeepsJob.bind {α β : Type} {x : Writer.Program α} {f : α → Writer.Program β} (hx : KeepsJob jobId n x)
    (hf : ∀ a, KeepsJob jobId n (f a)) : KeepsJob jobId n (x >>= f) :=
  Writing.Keeps.bind (fun h h' => h.trans h') hx hf

theorem keepsJob_of_fixes {α : Type} {w : Writer.Program α} (hw : Writing.Fixes Stores.batch w) : KeepsJob jobId n w := by
  intro s
  show SameJob jobId n s.batch (Writing.left (EStateM.run w s)).batch
  have hbatch : (Writing.left (EStateM.run w s)).batch = s.batch := hw s
  rw [hbatch]
  exact SameJob.refl s.batch

theorem keepsJob_onBatch {w : BatchMetadataStore.Program Unit} (hw : Writing.Keeps (SameJob jobId n) w) :
    KeepsJob jobId n (Writer.onBatch w) := Writing.keeps_within hw id

/-- A foreign event leaves the rows of the job, however its projection ends. -/
theorem keepsJob_foreign {event : MetadataEvent} (h : event.Foreign jobId n) (ehash : String) (t : Readings) :
    KeepsJob jobId n (event.project ehash t) := by
  cases event with
  | requested e =>
    exact keepsJob_of_fixes ((Writing.fixes_need _).bind fun _ => (fixes_upsertRequest _ _).bind fun _ =>
      (fixes_audit _ _ _ _ _).bind fun _ => (Writing.fixes_each (fixes_projectReport t e) e.reports).bind fun _ =>
      Writing.fixes_pure _)
  | completed e => exact keepsJob_of_fixes ((fixes_upsertRequest _ _).bind fun _ => fixes_audited _ _ _ _ _)
  | offlineRequested e => exact keepsJob_of_fixes ((fixes_upsertRequest _ _).bind fun _ => fixes_audited _ _ _ _ _)
  | modelScore e => exact keepsJob_of_fixes (fixes_audited _ _ _ _ _)
  | dlq e =>
    refine keepsJob_of_fixes ((fixes_audit _ _ _ _ _).bind fun _ => ?_)
    cases Writer.dlqSnapshot t e with
    | none => exact Writing.fixes_pure _
    | some metadata => exact (fixes_upsertRequest _ _).bind fun _ => Writing.fixes_pure _
  | batchChunkRequested e =>
    obtain ⟨hjob, hchunk⟩ := h
    exact (keepsJob_onBatch (keeps_upsertJob hjob _ _)).bind fun _ =>
      (keepsJob_onBatch (keeps_upsertChunkRequested hjob hchunk _)).bind fun _ =>
      keepsJob_of_fixes (fixes_audited _ _ _ _ _)
  | batchChunkProcessed e =>
    obtain ⟨hjob, hchunk⟩ := h
    exact (keepsJob_of_fixes (Writing.fixes_need _)).bind fun _ =>
      (keepsJob_onBatch (keeps_upsertChunkProcessed hjob hchunk _)).bind fun _ =>
      keepsJob_of_fixes (fixes_audited _ _ _ _ _)

end

/-! ## Runs of messages -/

structure RawMessage where
  rawValue : Bytes
  clock : Readings

def deliver (codec : WireCodec) (s : Stores) (m : RawMessage) : Stores := (projectEvent codec s m.rawValue m.clock).2

/-- The rows of a job with the status that follows from them; a job that is known has a chunk that is known. -/
structure Tabled (jobId : String) (n : Nat) (store : BatchMetadataStore) : Prop extends Projected jobId n store where
  present : (store.job? jobId).isSome = true → ∃ i < n, (store.cell jobId i).isSome = true

/-- Nothing is known of the job. -/
structure Untouched (jobId : String) (n : Nat) (store : BatchMetadataStore) : Prop where
  nodup : (Dict.keys store.chunks).Nodup
  job : store.job? jobId = none
  free : ∀ i < n, Dict.get? store.chunks (chunkKey jobId i) = none
  others : ∀ {key row}, Dict.get? store.chunks key = some row → row.jobId.pyEq (.str jobId) = false

section
variable {codec : WireCodec} {jobId : String} {n : Nat}

theorem Untouched.tabled {store : BatchMetadataStore} (h : Untouched jobId n store) : Tabled jobId n store where
  nodup := h.nodup
  keyed := by
    intro key row hg
    refine iff_of_false (by simp [h.others hg]) ?_
    rintro ⟨i, hi, rfl⟩
    rw [h.free i hi] at hg
    cases hg
  counted := by
    intro key row hg hmine
    rw [h.others hg] at hmine
    cases hmine
  chunkCount := by
    intro row hrow
    rw [h.job] at hrow
    cases hrow
  status := by
    intro row hrow
    rw [h.job] at hrow
    cases hrow
  finished := by
    intro row hrow
    rw [h.job] at hrow
    cases hrow
  absent := by
    intro _ i hi
    unfold BatchMetadataStore.cell
    rw [h.free i hi]
    rfl
  present := by
    rw [h.job]
    intro hsome
    cases hsome

theorem Tabled.sameJob {store store' : BatchMetadataStore} (h : Tabled jobId n store) (hsame : SameJob jobId n store store') :
    Tabled jobId n store' where
  toJobRows := hsame.rows h.toJobRows
  status := by
    intro row hrow
    rw [hsame.job] at hrow
    rw [h.status hrow]
    exact tableStatus_congr fun i hi => (hsame.cell i hi).symm
  finished := by
    rw [hsame.job]
    exact h.finished
  absent := by
    rw [hsame.job]
    intro hnone i hi
    rw [hsame.cell i hi]
    exact h.absent hnone i hi
  present := by
    rw [hsame.job]
    intro hsome
    obtain ⟨i, hi, hc⟩ := h.present hsome
    refine ⟨i, hi, ?_⟩
    rw [hsame.cell i hi]
    exact hc

/-- The message carries no chunk event that concerns the job, or a well-formed event of one of its chunks. -/
def RawMessage.About (codec : WireCodec) (jobId : String) (n : Nat) (m : RawMessage) : Prop :=
  ∀ event, decoded codec m.rawValue = some event → event.Foreign jobId n ∨ ∃ i, event.OnChunk jobId n i

/-- What a message puts into the row of a chunk. -/
def RawMessage.rowOn (codec : WireCodec) (jobId : String) (i : Nat) (m : RawMessage) : Option BatchChunkRecord :=
  (decoded codec m.rawValue).bind fun event => event.chunkRow.filter fun row => row.chunkId.pyEq (.str (chunkIdOf jobId i))

theorem chunkRow_foreign {event : MetadataEvent} (h : event.Foreign jobId n) {i : Nat} (hi : i < n) :
    event.chunkRow.filter (fun row => row.chunkId.pyEq (.str (chunkIdOf jobId i))) = none := by
  cases event with
  | batchChunkRequested e => exact if_neg (ne_true_of_eq_false (h.2 i hi))
  | batchChunkProcessed e => exact if_neg (ne_true_of_eq_false (h.2 i hi))
  | _ => rfl

theorem chunkRow_onChunk {event : MetadataEvent} {i : Nat} (h : event.OnChunk jobId n i) {row : BatchChunkRecord}
    (hrow : event.chunkRow = some row) (k : Nat) :
    event.chunkRow.filter (fun row => row.chunkId.pyEq (.str (chunkIdOf jobId k))) = if i = k then some row else none := by
  have hid : row.chunkId = .str (chunkIdOf jobId i) := by
    cases event with
    | batchChunkRequested e =>
      cases hrow
      exact h.1.chunk
    | batchChunkProcessed e =>
      cases hrow
      exact h.1.chunk
    | _ => exact h.elim
  have hiff : row.chunkId.pyEq (.str (chunkIdOf jobId k)) = decide (i = k) := by
    rw [hid, Value.pyEq_str, Bool.eq_iff_iff, decide_eq_true_eq, decide_eq_true_eq]
    exact ⟨fun e => chunkIdOf_injective jobId e, fun e => by rw [e]⟩
  rw [hrow, Option.filter_some, hiff]
  by_cases hk : i = k <;> simp [hk]

theorem deliver_requested {s : Stores} (h : JobRows jobId n s.batch) {m : RawMessage} {event : Wire.BatchChunkRequested}
    (hd : decoded codec m.rawValue = some (.batchChunkRequested event)) {i : Nat}
    (hon : (MetadataEvent.batchChunkRequested event).OnChunk jobId n i) :
    (deliver codec s m).batch = afterRequested s.batch jobId n i m.clock event := by
  rw [deliver, projectEvent_decoded s m.clock hd]
  exact batch_requested h hon _ _

theorem deliver_processed {s : Stores} (h : JobRows jobId n s.batch) {m : RawMessage} {event : Wire.BatchChunkProcessed}
    (hd : decoded codec m.rawValue = some (.batchChunkProcessed event)) {i : Nat} {finishedAt : Int}
    (hon : (MetadataEvent.batchChunkProcessed event).OnChunk jobId n i) (htime : event.processedAt = .aware finishedAt) :
    (deliver codec s m).batch = afterProcessed s.batch jobId n i m.clock event finishedAt := by
  rw [deliver, projectEvent_decoded s m.clock hd]
  exact batch_processed h hon htime _ _

/-- One message keeps the table, and puts its value into the cell it is on. -/
theorem deliver_step {s : Stores} (h : Tabled jobId n s.batch) {m : RawMessage} (hm : m.About codec jobId n) :
    Tabled jobId n (deliver codec s m).batch ∧ ∀ k < n, (deliver codec s m).batch.cell jobId k =
      match m.rowOn codec jobId k with
      | none => s.batch.cell jobId k
      | some row => Closing.put BatchChunkRecord.final (s.batch.cell jobId k) row := by
  unfold deliver RawMessage.rowOn
  cases hd : decoded codec m.rawValue with
  | none =>
    rw [projectEvent_undecoded s m.clock hd]
    exact ⟨h, fun _ _ => rfl⟩
  | some event =>
    rw [projectEvent_decoded s m.clock hd]
    rcases hm event hd with hforeign | ⟨i, hon⟩
    · have hsame := keepsJob_foreign hforeign (codec.sha256 m.rawValue) m.clock s
      refine ⟨h.sameJob hsame, fun k hk => ?_⟩
      rw [Option.bind_some, chunkRow_foreign hforeign hk]
      exact hsame.cell k hk
    · obtain ⟨hproj, hjob, row, hrow, hcells⟩ := projected_onChunk h.toProjected hon (codec.sha256 m.rawValue) m.clock
      have hi : i < n := MetadataEvent.OnChunk.inRange hon
      refine ⟨{ hproj with present := fun _ => ⟨i, hi, ?_⟩ }, fun k hk => ?_⟩
      · rw [hcells i, if_pos rfl]
        exact Closing.put_isSome _ _
      · rw [Option.bind_some, chunkRow_onChunk hon hrow k, hcells k]
        by_cases hik : i = k <;> simp [hik]

/-- A run keeps the table, and each cell has taken the values of the messages on it. -/
theorem run_tabled : ∀ (ms : List RawMessage) {s : Stores}, Tabled jobId n s.batch → (∀ m ∈ ms, m.About codec jobId n) →
    Tabled jobId n (Runs.run (deliver codec) s ms).batch ∧
      ∀ k < n, (Runs.run (deliver codec) s ms).batch.cell jobId k =
        Closing.run BatchChunkRecord.final (s.batch.cell jobId k) (ms.filterMap (RawMessage.rowOn codec jobId k))
  | [], _, h, _ => ⟨h, fun _ _ => rfl⟩
  | m :: ms, s, h, hms => by
    obtain ⟨hstep, hcell⟩ := deliver_step h (hms m List.mem_cons_self)
    obtain ⟨hrun, hcells⟩ := run_tabled ms hstep fun m' hm' => hms m' (List.mem_cons_of_mem _ hm')
    refine ⟨hrun, fun k hk => ?_⟩
    rw [Runs.run_cons, hcells k hk, hcell k hk]
    cases hrow : m.rowOn codec jobId k with
    | none => rw [List.filterMap_cons_none hrow]
    | some row => rw [List.filterMap_cons_some hrow]; rfl

end

/-! ## Sets of events -/

section
variable (codec : WireCodec) (jobId : String) (n : Nat)

def Delivered (ms : List RawMessage) (event : MetadataEvent) : Prop := ∃ m ∈ ms, decoded codec m.rawValue = some event

/-- The runs deliver the same events of the job. -/
def SameEvents (xs ys : List RawMessage) : Prop :=
  ∀ i event, event.OnChunk jobId n i → (Delivered codec xs event ↔ Delivered codec ys event)

/-- All results of one chunk are the same result. -/
def OneOutcome (ms : List RawMessage) : Prop :=
  ∀ i e e', MetadataEvent.OnChunk jobId n i (.batchChunkProcessed e) → MetadataEvent.OnChunk jobId n i (.batchChunkProcessed e') →
    Delivered codec ms (.batchChunkProcessed e) → Delivered codec ms (.batchChunkProcessed e') →
    e.status = e'.status ∧ e.itemCount = e'.itemCount ∧ e.okItems = e'.okItems ∧ e.failedItems = e'.failedItems ∧
      e.firstErrors = e'.firstErrors

/-- All requests agree on the fields of the job. -/
def OneJob (ms : List RawMessage) : Prop :=
  ∀ i k e e', MetadataEvent.OnChunk jobId n i (.batchChunkRequested e) → MetadataEvent.OnChunk jobId n k (.batchChunkRequested e') →
    Delivered codec ms (.batchChunkRequested e) → Delivered codec ms (.batchChunkRequested e') →
    e.view = e'.view ∧ e.viewVersion = e'.viewVersion ∧ e.requestedFeatures = e'.requestedFeatures ∧
      e.requestedFeatureGroups = e'.requestedFeatureGroups ∧ e.totalItems = e'.totalItems ∧ e.writeOnline = e'.writeOnline ∧
      e.manifestId = e'.manifestId ∧ e.manifestIds = e'.manifestIds

/-- All requests of one chunk have the same number of items. -/
def OneRequest (ms : List RawMessage) : Prop :=
  ∀ i e e', MetadataEvent.OnChunk jobId n i (.batchChunkRequested e) → MetadataEvent.OnChunk jobId n i (.batchChunkRequested e') →
    Delivered codec ms (.batchChunkRequested e) → Delivered codec ms (.batchChunkRequested e') →
    e.items.length = e'.items.length

end

section
variable {codec : WireCodec} {jobId : String} {n : Nat}

theorem Delivered.of_raws {xs ys : List RawMessage} {event : MetadataEvent}
    (h : ∀ raw, (∃ m ∈ xs, m.rawValue = raw) → ∃ m ∈ ys, m.rawValue = raw) (hx : Delivered codec xs event) :
    Delivered codec ys event := by
  obtain ⟨m, hm, hd⟩ := hx
  obtain ⟨m', hm', he⟩ := h m.rawValue ⟨m, hm, rfl⟩
  refine ⟨m', hm', ?_⟩
  rw [he]
  exact hd

theorem sameEvents_of_raws {xs ys : List RawMessage}
    (h : ∀ raw, (∃ m ∈ xs, m.rawValue = raw) ↔ ∃ m ∈ ys, m.rawValue = raw) : SameEvents codec jobId n xs ys :=
  fun _ _ _ => ⟨Delivered.of_raws fun raw => (h raw).mp, Delivered.of_raws fun raw => (h raw).mpr⟩

theorem mem_rowsOn {ms : List RawMessage} (hms : ∀ m ∈ ms, m.About codec jobId n) {k : Nat} (hk : k < n)
    {row : BatchChunkRecord} : row ∈ ms.filterMap (RawMessage.rowOn codec jobId k) ↔
      ∃ event, Delivered codec ms event ∧ event.OnChunk jobId n k ∧ event.chunkRow = some row := by
  rw [List.mem_filterMap]
  constructor
  · rintro ⟨m, hm, hrow⟩
    obtain ⟨event, hd, hput⟩ := Option.bind_eq_some_iff.mp hrow
    rcases hms m hm event hd with hforeign | ⟨i, hon⟩
    · rw [chunkRow_foreign hforeign hk] at hput
      cases hput
    · cases hval : event.chunkRow with
      | none =>
        rw [hval] at hput
        cases hput
      | some value =>
        rw [chunkRow_onChunk hon hval k] at hput
        by_cases hik : i = k
        · subst hik
          rw [if_pos rfl] at hput
          cases hput
          exact ⟨event, ⟨m, hm, hd⟩, hon, hval⟩
        · rw [if_neg hik] at hput
          cases hput
  · rintro ⟨event, ⟨m, hm, hd⟩, hon, hval⟩
    refine ⟨m, hm, ?_⟩
    unfold RawMessage.rowOn
    rw [hd, Option.bind_some, chunkRow_onChunk hon hval k, if_pos rfl]

/-- The final rows come from results, the others from requests. -/
theorem chunkRow_final {i : Nat} {event : MetadataEvent} (hon : event.OnChunk jobId n i) {row : BatchChunkRecord}
    (hrow : event.chunkRow = some row) :
    (∃ e, event = .batchChunkProcessed e ∧ row.final = true) ∨ ∃ e, event = .batchChunkRequested e ∧ row.final = false := by
  cases event with
  | batchChunkRequested e =>
    cases hrow
    exact .inr ⟨e, rfl, rfl⟩
  | batchChunkProcessed e =>
    cases hrow
    exact .inl ⟨e, rfl, hon.2.2.1⟩
  | _ => exact hon.elim

theorem final_rows_eq {ms : List RawMessage} (hone : OneOutcome codec jobId n ms) {i : Nat} {event event' : MetadataEvent}
    (hon : event.OnChunk jobId n i) (hon' : event'.OnChunk jobId n i) (hd : Delivered codec ms event)
    (hd' : Delivered codec ms event') {row row' : BatchChunkRecord} (hrow : event.chunkRow = some row)
    (hrow' : event'.chunkRow = some row') (hf : row.final = true) (hf' : row'.final = true) : row = row' := by
  rcases chunkRow_final hon hrow with ⟨e, rfl, -⟩ | ⟨e, -, hopen⟩
  · rcases chunkRow_final hon' hrow' with ⟨e', rfl, -⟩ | ⟨e', -, hopen⟩
    · obtain ⟨h₁, h₂, h₃, h₄, h₅⟩ := hone i e e' hon hon' hd hd'
      obtain ⟨⟨hjob, hchunk, hindex, hcount, -⟩, -⟩ := hon
      obtain ⟨⟨hjob', hchunk', hindex', hcount', -⟩, -⟩ := hon'
      cases hrow
      cases hrow'
      simp only [BatchChunkRecord.untimed, Writer.processedChunk, hjob, hjob', hchunk, hchunk', hindex, hindex', hcount,
        hcount', h₁, h₂, h₃, h₄, h₅]
    · rw [hf'] at hopen
      cases hopen
  · rw [hf] at hopen
    cases hopen

/-- Rows of requests differ in the number of items alone. -/
theorem open_rows_eq {i : Nat} {event event' : MetadataEvent} (hon : event.OnChunk jobId n i)
    (hon' : event'.OnChunk jobId n i) {row row' : BatchChunkRecord} (hrow : event.chunkRow = some row)
    (hrow' : event'.chunkRow = some row') (hf : row.final = false) (hf' : row'.final = false) :
    ∃ e e', event = .batchChunkRequested e ∧ event' = .batchChunkRequested e' ∧
      row = { row' with itemCount := .int e.items.length } ∧ row'.itemCount = .int e'.items.length := by
  rcases chunkRow_final hon hrow with ⟨e, -, hfinal⟩ | ⟨e, rfl, -⟩
  · rw [hf] at hfinal
    cases hfinal
  · rcases chunkRow_final hon' hrow' with ⟨e', -, hfinal⟩ | ⟨e', rfl, -⟩
    · rw [hf'] at hfinal
      cases hfinal
    · obtain ⟨⟨hjob, hchunk, hindex, hcount, -⟩, -⟩ := hon
      obtain ⟨⟨hjob', hchunk', hindex', hcount', -⟩, -⟩ := hon'
      cases hrow
      cases hrow'
      refine ⟨e, e', rfl, rfl, ?_, rfl⟩
      simp only [BatchChunkRecord.untimed, Writer.requestedChunk, hjob, hjob', hchunk, hchunk', hindex, hindex', hcount,
        hcount']

section
variable {s : Stores} (hs : Untouched jobId n s.batch) {xs ys : List RawMessage}
  (hxs : ∀ m ∈ xs, m.About codec jobId n) (hys : ∀ m ∈ ys, m.About codec jobId n)
  (hsame : SameEvents codec jobId n xs ys) (hone : OneOutcome codec jobId n xs)
include hs hxs hys hsame hone

/-- The cells are the same under a function that does not tell the requests of one chunk apart. -/
theorem cells_eq {β : Type} (g : BatchChunkRecord → β)
    (hopen : ∀ k < n, ∀ row ∈ xs.filterMap (RawMessage.rowOn codec jobId k),
      ∀ row' ∈ xs.filterMap (RawMessage.rowOn codec jobId k), row.final = false → row'.final = false → g row = g row')
    {k : Nat} (hk : k < n) :
    ((Runs.run (deliver codec) s xs).batch.cell jobId k).map g = ((Runs.run (deliver codec) s ys).batch.cell jobId k).map g := by
  have hfree : s.batch.cell jobId k = none := by
    unfold BatchMetadataStore.cell
    rw [hs.free k hk]
    rfl
  rw [(run_tabled xs hs.tabled hxs).2 k hk, (run_tabled ys hs.tabled hys).2 k hk, hfree]
  refine Closing.run_map_eq g (fun row => ?_) ?_ (hopen k hk)
  · rw [mem_rowsOn hxs hk, mem_rowsOn hys hk]
    exact exists_congr fun event => and_congr_left fun hrow => hsame k event hrow.1
  · intro row hrow row' hrow' hf hf'
    obtain ⟨event, hd, hon, hval⟩ := (mem_rowsOn hxs hk).mp hrow
    obtain ⟨event', hd', hon', hval'⟩ := (mem_rowsOn hxs hk).mp hrow'
    exact final_rows_eq hone hon hon' hd hd' hval hval' hf hf'

theorem settled_cells_eq {k : Nat} (hk : k < n) :
    ((Runs.run (deliver codec) s xs).batch.cell jobId k).map BatchChunkRecord.settled =
      ((Runs.run (deliver codec) s ys).batch.cell jobId k).map BatchChunkRecord.settled := by
  refine cells_eq hs hxs hys hsame hone BatchChunkRecord.settled (fun k hk row hrow row' hrow' hf hf' => ?_) hk
  obtain ⟨event, -, hon, hval⟩ := (mem_rowsOn hxs hk).mp hrow
  obtain ⟨event', -, hon', hval'⟩ := (mem_rowsOn hxs hk).mp hrow'
  obtain ⟨e, e', -, -, heq, -⟩ := open_rows_eq hon hon' hval hval' hf hf'
  have hopen : ¬ row.final = true := by simp [hf]
  have hopen' : ¬ row'.final = true := by simp [hf']
  unfold BatchChunkRecord.settled
  rw [if_neg hopen, if_neg hopen', heq]
  rfl

theorem untimed_cells_eq (hrequest : OneRequest codec jobId n xs) {k : Nat} (hk : k < n) :
    (Runs.run (deliver codec) s xs).batch.cell jobId k = (Runs.run (deliver codec) s ys).batch.cell jobId k := by
  have h := cells_eq hs hxs hys hsame hone id (fun k hk row hrow row' hrow' hf hf' => ?_) hk
  · simpa only [Option.map_id, id] using h
  obtain ⟨event, hd, hon, hval⟩ := (mem_rowsOn hxs hk).mp hrow
  obtain ⟨event', hd', hon', hval'⟩ := (mem_rowsOn hxs hk).mp hrow'
  obtain ⟨e, e', rfl, rfl, heq, hitems⟩ := open_rows_eq hon hon' hval hval' hf hf'
  rw [hrequest k e e' hon hon' hd hd', ← hitems] at heq
  exact heq

theorem job_status_eq : ((Runs.run (deliver codec) s xs).batch.job? jobId).map BatchJobRecord.status =
    ((Runs.run (deliver codec) s ys).batch.job? jobId).map BatchJobRecord.status := by
  obtain ⟨ha, -⟩ := run_tabled xs hs.tabled hxs
  obtain ⟨hb, -⟩ := run_tabled ys hs.tabled hys
  have hcells := fun k (hk : k < n) => settled_cells_eq hs hxs hys hsame hone hk
  generalize (Runs.run (deliver codec) s xs).batch = a at *
  generalize (Runs.run (deliver codec) s ys).batch = b at *
  have hstatus := tableStatus_settled hcells
  have hknown : ∀ {x y : BatchMetadataStore}, Tabled jobId n x → Tabled jobId n y →
      (∀ k < n, (x.cell jobId k).map BatchChunkRecord.settled = (y.cell jobId k).map BatchChunkRecord.settled) →
      x.job? jobId = none → y.job? jobId = none := by
    intro x y hx hy heq hnone
    by_contra hsome
    obtain ⟨i, hi, hc⟩ := hy.present (Option.isSome_iff_ne_none.mpr hsome)
    have := congrArg Option.isSome (heq i hi)
    rw [Option.isSome_map, Option.isSome_map, hc, hx.absent hnone i hi] at this
    cases this
  cases hja : a.job? jobId with
  | none => rw [hknown ha hb hcells hja]
  | some row =>
    cases hjb : b.job? jobId with
    | none =>
      rw [hknown hb ha (fun k hk => (hcells k hk).symm) hjb] at hja
      cases hja
    | some row' => rw [Option.map_some, Option.map_some, ha.status hja, hb.status hjb, hstatus]

end

/-- Along a run a finished chunk and a finished job stay as they are. -/
theorem run_keeps_final {s : Stores} (hs : Tabled jobId n s.batch) {ms : List RawMessage}
    (hms : ∀ m ∈ ms, m.About codec jobId n) :
    (∀ row ∈ s.batch.listChunks (.str jobId), row.final = true →
      ∃ row' ∈ (Runs.run (deliver codec) s ms).batch.listChunks (.str jobId), row'.untimed = row.untimed) ∧
    ∀ row, s.batch.job? jobId = some row → row.status.terminal = true →
      ∃ row', (Runs.run (deliver codec) s ms).batch.job? jobId = some row' ∧ row'.status = row.status := by
  obtain ⟨hrun, hcells⟩ := run_tabled ms hs hms
  have hkept : ∀ k < n, (s.batch.cell jobId k).any BatchChunkRecord.final = true →
      (Runs.run (deliver codec) s ms).batch.cell jobId k = s.batch.cell jobId k := fun k hk hf => by
    rw [hcells k hk, Closing.run_of_final hf]
  refine ⟨fun row hrow hf => ?_, fun row hrow ht => ?_⟩
  · obtain ⟨i, hi, hg⟩ := hs.mem_listChunks.mp hrow
    have hcell : s.batch.cell jobId i = some row.untimed := by
      unfold BatchMetadataStore.cell
      rw [hg]
      rfl
    have hkeep := hkept i hi (by rw [hcell]; exact hf)
    rw [hcell] at hkeep
    obtain ⟨row', hg', heq⟩ := Option.map_eq_some_iff.mp hkeep
    exact ⟨row', hrun.mem_listChunks.mpr ⟨i, hi, hg'⟩, heq⟩
  · have hstatus := hs.status hrow
    rw [hstatus, tableStatus_terminal] at ht
    have hsame : ∀ k < n, (Runs.run (deliver codec) s ms).batch.cell jobId k = s.batch.cell jobId k :=
      fun k hk => hkept k hk (ht k hk)
    cases hjob : (Runs.run (deliver codec) s ms).batch.job? jobId with
    | none =>
      obtain ⟨i, hi, hc⟩ := hs.present (by rw [hrow]; rfl)
      rw [← hsame i hi, hrun.absent hjob i hi] at hc
      cases hc
    | some row' =>
      refine ⟨row', rfl, ?_⟩
      rw [hrun.status hjob, hstatus, tableStatus_congr hsame]

end

/-! ## Messages about a first chunk -/

def userItem (id : String) : Value := .obj [("entity_type", .str "user"), ("entity_key", .obj [("user_id", .str id)])]

def itemText (id : String) : String :=
  "\x7b\"entity_type\": \"user\", \"entity_key\": \x7b\"user_id\": \"" ++ id ++ "\"\x7d\x7d"

section
variable (count total : Nat)

/-- A request of the first chunk, with the fields that name it in the order of the text. -/
def chunkRequest (naming : List (String × Value)) : Value :=
  .obj (naming ++ [("event_type", .str "batch.chunk.requested"), ("batch_job_id", .str "job_1"), ("chunk_index", .int 0),
    ("chunk_count", .int count), ("correlation_id", .str "job_1"), ("occurred_at", .str "2024-01-01T00:00:00+00:00"),
    ("view", .str "users"), ("view_version", .int 1), ("total_items", .int total)])

def requestFields : String :=
  ", \"event_type\": \"batch.chunk.requested\", \"batch_job_id\": \"job_1\", \"chunk_index\": 0, \"chunk_count\": " ++
  toString count ++ ", \"correlation_id\": \"job_1\", \"occurred_at\": \"2024-01-01T00:00:00+00:00\", " ++
  "\"view\": \"users\", \"view_version\": 1, \"total_items\": " ++ toString total ++ "\x7d"

def oneItem : KnownMessage where
  tag := 'c'
  rest := "hunk_id\": \"job_1:0\", \"items\": [" ++ itemText "1" ++ "]" ++ requestFields count total
  value := chunkRequest count total [("chunk_id", .str "job_1:0"), ("items", .arr [userItem "1"])]

def twoItems : KnownMessage where
  tag := 'i'
  rest := "tems\": [" ++ itemText "1" ++ ", " ++ itemText "2" ++ "], \"chunk_id\": \"job_1:0\"" ++ requestFields count total
  value := chunkRequest count total [("items", .arr [userItem "1", userItem "2"]), ("chunk_id", .str "job_1:0")]

def chunkResult : KnownMessage where
  tag := 's'
  rest := "tatus\": \"completed\", \"event_type\": \"batch.chunk.processed\", \"batch_job_id\": \"job_1\", " ++
    "\"chunk_id\": \"job_1:0\", \"chunk_index\": 0, \"chunk_count\": " ++ toString count ++
    ", \"correlation_id\": \"job_1\", \"processed_at\": \"2024-01-01T00:00:00+00:00\", \"item_count\": 1, " ++
    "\"ok_items\": 1, \"failed_items\": 0\x7d"
  value := .obj [("status", .str "completed"), ("event_type", .str "batch.chunk.processed"), ("batch_job_id", .str "job_1"),
    ("chunk_id", .str "job_1:0"), ("chunk_index", .int 0), ("chunk_count", .int count), ("correlation_id", .str "job_1"),
    ("processed_at", .str "2024-01-01T00:00:00+00:00"), ("item_count", .int 1), ("ok_items", .int 1),
    ("failed_items", .int 0)]

def chunkMessages : List KnownMessage := [oneItem count total, twoItems count total, chunkResult count]

def chunkCodec : WireCodec := codecOf (chunkMessages count total)

def requestEvent (ids : List String) : Wire.BatchChunkRequested where
  batchJobId := .str "job_1"
  chunkId := .str "job_1:0"
  chunkIndex := .int 0
  chunkCount := .int count
  correlationId := .str "job_1"
  occurredAt := .aware 1704067200000000
  view := .str "users"
  viewVersion := .int 1
  items := ids.map fun id =>
    { entityType := .str "user", entityKey := [(.str "user_id", .str id)], inlineSources := [], sourceRefs := [] }
  requestedFeatures := []
  requestedFeatureGroups := []
  writeOnline := .bool false
  totalItems := .int total
  manifestId := .null
  manifestIds := []
  eventType := .str "batch.chunk.requested"
  eventVersion := .int 1

def resultEvent : Wire.BatchChunkProcessed where
  batchJobId := .str "job_1"
  chunkId := .str "job_1:0"
  chunkIndex := .int 0
  chunkCount := .int count
  correlationId := .str "job_1"
  processedAt := .aware 1704067200000000
  status := .str "completed"
  itemCount := .int 1
  okItems := .int 1
  failedItems := .int 0
  firstErrors := []
  manifestId := .null
  onlineRefreshCounts := none
  eventType := .str "batch.chunk.processed"
  eventVersion := .int 1

theorem chunkTags_nodup : ((chunkMessages count total).map fun m => UInt8.ofNat m.tag.toNat).Nodup := by
  show [UInt8.ofNat (Char.toNat 'c'), UInt8.ofNat (Char.toNat 'i'), UInt8.ofNat (Char.toNat 's')].Nodup
  decide

theorem decoded_oneItem : decoded (chunkCodec count total) (oneItem count total).raw =
    some (.batchChunkRequested (requestEvent count total ["1"])) :=
  decoded_codecOf (chunkTags_nodup count total) (by simp [chunkMessages]) rfl

theorem decoded_twoItems : decoded (chunkCodec count total) (twoItems count total).raw =
    some (.batchChunkRequested (requestEvent count total ["1", "2"])) :=
  decoded_codecOf (chunkTags_nodup count total) (by simp [chunkMessages]) rfl

theorem decoded_chunkResult : decoded (chunkCodec count total) (chunkResult count).raw =
    some (.batchChunkProcessed (resultEvent count)) :=
  decoded_codecOf (chunkTags_nodup count total) (by simp [chunkMessages]) rfl

variable {count}

theorem requestEvent_onChunk (hcount : 0 < count) (ids : List String) :
    MetadataEvent.OnChunk "job_1" count 0 (.batchChunkRequested (requestEvent count total ids)) :=
  ⟨⟨rfl, rfl, rfl, rfl, hcount⟩, _, rfl⟩

theorem resultEvent_onChunk (hcount : 0 < count) :
    MetadataEvent.OnChunk "job_1" count 0 (.batchChunkProcessed (resultEvent count)) :=
  ⟨⟨rfl, rfl, rfl, rfl, hcount⟩, ⟨_, rfl⟩, (by decide : isTerminal (.str "completed") = true), _, rfl⟩

/-- A known message at a time of the clock. -/
def KnownMessage.sent (m : KnownMessage) (now : Int) : RawMessage := ⟨m.raw, ⟨now, now, now, now⟩⟩

@[simp] theorem KnownMessage.sent_rawValue (m : KnownMessage) (now : Int) : (m.sent now).rawValue = m.raw := rfl

theorem sent_about {codec : WireCodec} {m : KnownMessage} {event : MetadataEvent} (now : Int)
    (h : decoded codec m.raw = some event) (hon : event.OnChunk "job_1" count 0) : (m.sent now).About codec "job_1" count := by
  intro event' hd
  rw [KnownMessage.sent_rawValue, h] at hd
  cases hd
  exact .inr ⟨0, hon⟩

theorem about_oneItem (hcount : 0 < count) (now : Int) :
    ((oneItem count total).sent now).About (chunkCodec count total) "job_1" count :=
  sent_about now (decoded_oneItem count total) (requestEvent_onChunk total hcount ["1"])

theorem about_twoItems (hcount : 0 < count) (now : Int) :
    ((twoItems count total).sent now).About (chunkCodec count total) "job_1" count :=
  sent_about now (decoded_twoItems count total) (requestEvent_onChunk total hcount ["1", "2"])

theorem about_chunkResult (hcount : 0 < count) (now : Int) :
    ((chunkResult count).sent now).About (chunkCodec count total) "job_1" count :=
  sent_about now (decoded_chunkResult count total) (resultEvent_onChunk hcount)

theorem untouched_empty (jobId : String) (n : Nat) : Untouched jobId n ({} : Stores).batch :=
  ⟨List.nodup_nil, rfl, fun _ _ => rfl, fun h => (nomatch h)⟩

end

/-! ## A chunk with its result -/

def requestFirst : List RawMessage := [(oneItem 2 3).sent 1, (chunkResult 2).sent 2, (oneItem 2 3).sent 3]

def resultFirst : List RawMessage := [(chunkResult 2).sent 1, (oneItem 2 3).sent 2]

theorem about_requestFirst : ∀ m ∈ requestFirst, m.About (chunkCodec 2 3) "job_1" 2 := by
  intro m hm
  simp only [requestFirst, List.mem_cons, List.not_mem_nil, or_false] at hm
  rcases hm with rfl | rfl | rfl
  · exact about_oneItem 3 Nat.zero_lt_two 1
  · exact about_chunkResult 3 Nat.zero_lt_two 2
  · exact about_oneItem 3 Nat.zero_lt_two 3

theorem about_resultFirst : ∀ m ∈ resultFirst, m.About (chunkCodec 2 3) "job_1" 2 := by
  intro m hm
  rcases List.mem_pair.mp hm with rfl | rfl
  · exact about_chunkResult 3 Nat.zero_lt_two 1
  · exact about_oneItem 3 Nat.zero_lt_two 2

theorem sameEvents_resultFirst : SameEvents (chunkCodec 2 3) "job_1" 2 requestFirst resultFirst := by
  refine sameEvents_of_raws fun raw => ?_
  simp only [requestFirst, resultFirst, List.mem_cons, List.not_mem_nil, or_false, exists_eq_or_imp, exists_eq_left,
    KnownMessage.sent_rawValue]
  generalize (oneItem 2 3).raw = request, (chunkResult 2).raw = result
  tauto

theorem oneOutcome_requestFirst : OneOutcome (chunkCodec 2 3) "job_1" 2 requestFirst := by
  have honly : ∀ {e}, Delivered (chunkCodec 2 3) requestFirst (.batchChunkProcessed e) → e = resultEvent 2 := by
    rintro e ⟨m, hm, hd⟩
    simp only [requestFirst, List.mem_cons, List.not_mem_nil, or_false] at hm
    rcases hm with rfl | rfl | rfl
    · rw [KnownMessage.sent_rawValue, decoded_oneItem] at hd
      cases hd
    · rw [KnownMessage.sent_rawValue, decoded_chunkResult 2 3] at hd
      cases hd
      rfl
    · rw [KnownMessage.sent_rawValue, decoded_oneItem] at hd
      cases hd
  intro i e e' _ _ hd hd'
  rw [honly hd, honly hd']
  exact ⟨rfl, rfl, rfl, rfl, rfl⟩

/-! ## Confluence -/

/-- Whatever the order of the messages and their number, the table of the job is the same, timestamps and the item counts
of open chunks aside, and so is its status; the item counts are the same, too, if the requests of a chunk agree on
them. Along a run what is finished stays. -/
theorem batch_projection_confluent (codec : WireCodec) (jobId : String) (n : Nat) (s : Stores)
    (hs : Untouched jobId n s.batch) (xs ys : List RawMessage) (hxs : ∀ m ∈ xs, m.About codec jobId n)
    (hys : ∀ m ∈ ys, m.About codec jobId n) (hsame : SameEvents codec jobId n xs ys) (hone : OneOutcome codec jobId n xs) :
    let a := Runs.run (deliver codec) s xs
    let b := Runs.run (deliver codec) s ys
    ((a.batch.listChunks (.str jobId)).map BatchChunkRecord.settled).Perm
      ((b.batch.listChunks (.str jobId)).map BatchChunkRecord.settled) ∧
    (OneRequest codec jobId n xs → ((a.batch.listChunks (.str jobId)).map BatchChunkRecord.untimed).Perm
      ((b.batch.listChunks (.str jobId)).map BatchChunkRecord.untimed)) ∧
    (a.batch.job? jobId).map BatchJobRecord.status = (b.batch.job? jobId).map BatchJobRecord.status ∧
    ∀ before after, xs = before ++ after →
      let c := Runs.run (deliver codec) s before
      (∀ row ∈ c.batch.listChunks (.str jobId), row.final = true →
        ∃ row' ∈ a.batch.listChunks (.str jobId), row'.untimed = row.untimed) ∧
      ∀ row, c.batch.job? jobId = some row → row.status.terminal = true →
        ∃ row', a.batch.job? jobId = some row' ∧ row'.status = row.status := by
  intro a b
  have ha := (run_tabled xs hs.tabled hxs).1.map_listChunks (g := BatchChunkRecord.settled) BatchChunkRecord.settled_untimed
  have hb := (run_tabled ys hs.tabled hys).1.map_listChunks (g := BatchChunkRecord.settled) BatchChunkRecord.settled_untimed
  have hsettled : (List.range n).filterMap (fun i => (a.batch.cell jobId i).map BatchChunkRecord.settled) =
      (List.range n).filterMap fun i => (b.batch.cell jobId i).map BatchChunkRecord.settled :=
    List.filterMap_congr fun i hi => settled_cells_eq hs hxs hys hsame hone (List.mem_range.mp hi)
  refine ⟨ha.trans (hsettled ▸ hb.symm), fun hrequest => ?_, job_status_eq hs hxs hys hsame hone, ?_⟩
  · have ha := (run_tabled xs hs.tabled hxs).1.map_listChunks (g := BatchChunkRecord.untimed) fun _ => rfl
    have hb := (run_tabled ys hs.tabled hys).1.map_listChunks (g := BatchChunkRecord.untimed) fun _ => rfl
    have huntimed : (List.range n).filterMap (fun i => (a.batch.cell jobId i).map BatchChunkRecord.untimed) =
        (List.range n).filterMap fun i => (b.batch.cell jobId i).map BatchChunkRecord.untimed :=
      List.filterMap_congr fun i hi => by
        rw [untimed_cells_eq hs hxs hys hsame hone hrequest (List.mem_range.mp hi)]
    exact ha.trans (huntimed ▸ hb.symm)
  · rintro before after rfl
    have hbefore := (run_tabled before hs.tabled fun m hm => hxs m (List.mem_append_left _ hm)).1
    have := run_keeps_final hbefore fun m hm => hxs m (List.mem_append_right _ hm)
    rw [← Runs.run_append] at this
    exact this

theorem batch_projection_confluent_result :
    let a := Runs.run (deliver (chunkCodec 2 3)) {} requestFirst
    let b := Runs.run (deliver (chunkCodec 2 3)) {} resultFirst
    ((a.batch.listChunks (.str "job_1")).map BatchChunkRecord.settled).Perm
      ((b.batch.listChunks (.str "job_1")).map BatchChunkRecord.settled) ∧
    (OneRequest (chunkCodec 2 3) "job_1" 2 requestFirst →
      ((a.batch.listChunks (.str "job_1")).map BatchChunkRecord.untimed).Perm
        ((b.batch.listChunks (.str "job_1")).map BatchChunkRecord.untimed)) ∧
    (a.batch.job? "job_1").map BatchJobRecord.status = (b.batch.job? "job_1").map BatchJobRecord.status ∧
    ∀ before after, requestFirst = before ++ after →
      let c := Runs.run (deliver (chunkCodec 2 3)) {} before
      (∀ row ∈ c.batch.listChunks (.str "job_1"), row.final = true →
        ∃ row' ∈ a.batch.listChunks (.str "job_1"), row'.untimed = row.untimed) ∧
      ∀ row, c.batch.job? "job_1" = some row → row.status.terminal = true →
        ∃ row', a.batch.job? "job_1" = some row' ∧ row'.status = row.status :=
  batch_projection_confluent (chunkCodec 2 3) "job_1" 2 {} (untouched_empty "job_1" 2) requestFirst resultFirst
    about_requestFirst about_resultFirst sameEvents_resultFirst oneOutcome_requestFirst

/-! ## A chunk with two requests -/

def requestsOnly : List RawMessage := [(oneItem 2 3).sent 1, (twoItems 2 3).sent 2]

def requestsSwapped : List RawMessage := [(twoItems 2 3).sent 1, (oneItem 2 3).sent 2]

theorem delivered_requestsOnly {event : MetadataEvent} (h : Delivered (chunkCodec 2 3) requestsOnly event) :
    ∃ ids, event = .batchChunkRequested (requestEvent 2 3 ids) := by
  obtain ⟨m, hm, hd⟩ := h
  rcases List.mem_pair.mp hm with rfl | rfl
  · rw [KnownMessage.sent_rawValue, decoded_oneItem] at hd
    exact ⟨_, (Option.some.inj hd).symm⟩
  · rw [KnownMessage.sent_rawValue, decoded_twoItems] at hd
    exact ⟨_, (Option.some.inj hd).symm⟩

/-- Two requests of one chunk with different items: its row has the number of items of the last. -/
theorem batch_projection_last_request :
    let xs := requestsOnly
    let ys := requestsSwapped
    (∀ m ∈ xs, m.About (chunkCodec 2 3) "job_1" 2) ∧ (∀ m ∈ ys, m.About (chunkCodec 2 3) "job_1" 2) ∧
      SameEvents (chunkCodec 2 3) "job_1" 2 xs ys ∧ OneOutcome (chunkCodec 2 3) "job_1" 2 xs ∧
      OneJob (chunkCodec 2 3) "job_1" 2 xs ∧
      ¬ (((Runs.run (deliver (chunkCodec 2 3)) {} xs).batch.listChunks (.str "job_1")).map BatchChunkRecord.untimed).Perm
        (((Runs.run (deliver (chunkCodec 2 3)) {} ys).batch.listChunks (.str "job_1")).map BatchChunkRecord.untimed) := by
  refine ⟨?_, ?_, sameEvents_of_raws fun raw => ?_, ?_, ?_, ?_⟩
  · intro m hm
    rcases List.mem_pair.mp hm with rfl | rfl
    · exact about_oneItem 3 Nat.zero_lt_two 1
    · exact about_twoItems 3 Nat.zero_lt_two 2
  · intro m hm
    rcases List.mem_pair.mp hm with rfl | rfl
    · exact about_twoItems 3 Nat.zero_lt_two 1
    · exact about_oneItem 3 Nat.zero_lt_two 2
  · simp only [requestsOnly, requestsSwapped, List.mem_pair, exists_eq_or_imp, exists_eq_left, KnownMessage.sent_rawValue]
    exact or_comm
  · intro i e e' _ _ hd
    obtain ⟨ids, he⟩ := delivered_requestsOnly hd
    cases he
  · intro i k e e' _ _ hd hd'
    obtain ⟨ids, he⟩ := delivered_requestsOnly hd
    obtain ⟨ids', he'⟩ := delivered_requestsOnly hd'
    cases he
    cases he'
    exact ⟨rfl, rfl, rfl, rfl, rfl, rfl, rfl, rfl⟩
  · intro hperm
    have hempty := (untouched_empty "job_1" 2).tabled
    have hone := (deliver_step hempty (about_oneItem 3 Nat.zero_lt_two 1)).1.toJobRows
    have htwo := (deliver_step hempty (about_twoItems 3 Nat.zero_lt_two 1)).1.toJobRows
    have hlast := deliver_requested hone (m := (twoItems 2 3).sent 2) (decoded_twoItems 2 3)
      (requestEvent_onChunk 3 Nat.zero_lt_two ["1", "2"])
    have hlast' := deliver_requested htwo (m := (oneItem 2 3).sent 2) (decoded_oneItem 2 3)
      (requestEvent_onChunk 3 Nat.zero_lt_two ["1"])
    rw [deliver_requested hempty.toJobRows (m := (oneItem 2 3).sent 1) (decoded_oneItem 2 3)
      (requestEvent_onChunk 3 Nat.zero_lt_two ["1"])] at hlast
    rw [deliver_requested hempty.toJobRows (m := (twoItems 2 3).sent 1) (decoded_twoItems 2 3)
      (requestEvent_onChunk 3 Nat.zero_lt_two ["1", "2"])] at hlast'
    have hcounts := hperm.map BatchChunkRecord.itemCount
    rw [requestsOnly, requestsSwapped, Runs.run_cons, Runs.run_cons, Runs.run_nil, Runs.run_cons, Runs.run_cons,
      Runs.run_nil, hlast, hlast'] at hcounts
    have hitems : [Value.int 2].Perm [Value.int 1] := hcounts
    rw [List.perm_singleton] at hitems
    cases hitems

end ClearFeature
