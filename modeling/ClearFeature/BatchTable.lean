import ClearFeature.BatchAggregate
import ClearFeature.Lib.Closing
import ClearFeature.MetadataWriter

/-!
# The chunk table of a job

A chunk row is a cell that a processed event closes, and the status of a job is a
function of the rows of its chunks. Each event on a chunk puts one value into one
cell, whatever else it writes.
-/

namespace ClearFeature.BatchMetadata

/-! ## Rows without their timestamps -/

namespace BatchChunkRecord

def untimed (c : BatchChunkRecord) : BatchChunkRecord := { c with createdAt := 0, updatedAt := 0, finishedAt := none }

def final (c : BatchChunkRecord) : Bool := isTerminal c.status

/-- The row of an open chunk without its item count, too. -/
def settled (c : BatchChunkRecord) : BatchChunkRecord :=
  if c.final then c.untimed else { c.untimed with itemCount := .null }

def failedChunk (c : BatchChunkRecord) : Bool := c.status.pyEq (.str "failed")

def hasFailedItems (c : BatchChunkRecord) : Bool :=
  match c.failedItems with
  | .int m => decide (0 < m)
  | _ => false

def hasErrors (c : BatchChunkRecord) : Bool :=
  isOneOf c.status ["failed", "completed_with_errors"] || c.hasFailedItems

def waiting (c : BatchChunkRecord) : Bool := isOneOf c.status ["accepted", "requested"]

end BatchChunkRecord

theorem BatchChunkRecord.settled_untimed (c : BatchChunkRecord) : c.untimed.settled = c.settled := rfl

/-- The tests of the derivation look at the status and at the failed items alone. -/
theorem BatchChunkRecord.test_settled {p : BatchChunkRecord → Bool} (hp : ∀ c : BatchChunkRecord, p c.untimed = p c)
    (hq : ∀ c : BatchChunkRecord, p { c with itemCount := .null } = p c) (c : BatchChunkRecord) : p c.settled = p c := by
  unfold settled
  by_cases h : c.final = true
  · rw [if_pos h, hp]
  · rw [if_neg h, hq, hp]

/-! ## The status of a table -/

/-- The status of a job with the rows of its chunks in a table. -/
def tableStatus (n : Nat) (cell : Nat → Option BatchChunkRecord) : JobState :=
  if ∀ i < n, (cell i).any BatchChunkRecord.final = true then
    if ∀ i < n, (cell i).any BatchChunkRecord.failedChunk = true then .failed
    else if ∃ i < n, (cell i).any BatchChunkRecord.hasErrors = true then .completedWithErrors
    else .completed
  else if ∀ i < n, (cell i).all BatchChunkRecord.waiting = true then .accepted
  else .running

theorem tableStatus_terminal {n : Nat} {cell : Nat → Option BatchChunkRecord} :
    (tableStatus n cell).terminal = true ↔ ∀ i < n, (cell i).any BatchChunkRecord.final = true := by
  unfold tableStatus
  by_cases h : ∀ i < n, (cell i).any BatchChunkRecord.final = true
  · rw [if_pos h]
    refine ⟨fun _ => h, fun _ => ?_⟩
    split_ifs <;> rfl
  · rw [if_neg h]
    split_ifs <;> simp [JobState.terminal, h]

theorem tableStatus_congr {n : Nat} {cell cell' : Nat → Option BatchChunkRecord} (h : ∀ i < n, cell i = cell' i) :
    tableStatus n cell = tableStatus n cell' := by
  have key : ∀ p : Option BatchChunkRecord → Prop, (∀ i < n, p (cell i)) ↔ ∀ i < n, p (cell' i) := fun p =>
    forall_congr' fun i => forall_congr' fun hi => by rw [h i hi]
  have keyEx : ∀ p : Option BatchChunkRecord → Prop, (∃ i < n, p (cell i)) ↔ ∃ i < n, p (cell' i) := fun p =>
    exists_congr fun i => and_congr_right fun hi => by rw [h i hi]
  unfold tableStatus
  simp only [key fun c => c.any BatchChunkRecord.final = true, key fun c => c.any BatchChunkRecord.failedChunk = true,
    keyEx fun c => c.any BatchChunkRecord.hasErrors = true, key fun c => c.all BatchChunkRecord.waiting = true]

theorem tableStatus_settled {n : Nat} {cell cell' : Nat → Option BatchChunkRecord}
    (h : ∀ i < n, (cell i).map BatchChunkRecord.settled = (cell' i).map BatchChunkRecord.settled) :
    tableStatus n cell = tableStatus n cell' := by
  have hany : ∀ {p : BatchChunkRecord → Bool}, (∀ c, p c.settled = p c) → ∀ i < n, (cell i).any p = (cell' i).any p := by
    intro p hp i hi
    have := congrArg (Option.any p) (h i hi)
    simpa only [Option.any_map, Function.comp_def, hp] using this
  have hall : ∀ {p : BatchChunkRecord → Bool}, (∀ c, p c.settled = p c) → ∀ i < n, (cell i).all p = (cell' i).all p := by
    intro p hp i hi
    have := congrArg (Option.all p) (h i hi)
    simpa only [Option.all_map, Function.comp_def, hp] using this
  have hfinal := hany (BatchChunkRecord.test_settled (p := BatchChunkRecord.final) (fun _ => rfl) fun _ => rfl)
  have hfailed := hany (BatchChunkRecord.test_settled (p := BatchChunkRecord.failedChunk) (fun _ => rfl) fun _ => rfl)
  have herrors := hany (BatchChunkRecord.test_settled (p := BatchChunkRecord.hasErrors) (fun _ => rfl) fun _ => rfl)
  have hwaiting := hall (BatchChunkRecord.test_settled (p := BatchChunkRecord.waiting) (fun _ => rfl) fun _ => rfl)
  have hforall : ∀ {f g : Nat → Bool}, (∀ i < n, f i = g i) → ((∀ i < n, f i = true) ↔ ∀ i < n, g i = true) :=
    fun hfg => forall₂_congr fun i hi => by rw [hfg i hi]
  have hexists : (∃ i < n, (cell i).any BatchChunkRecord.hasErrors = true) ↔
      ∃ i < n, (cell' i).any BatchChunkRecord.hasErrors = true :=
    exists_congr fun i => and_congr_right fun hi => by rw [herrors i hi]
  unfold tableStatus
  simp only [hforall hfinal, hforall hfailed, hexists, hforall hwaiting]

theorem anyFailedItems_eq : ∀ {chunks : List BatchChunkRecord}, (∀ c ∈ chunks, ∃ m : Int, c.failedItems = .int m) →
    anyFailedItems chunks = .ok (chunks.any BatchChunkRecord.hasFailedItems)
  | [], _ => rfl
  | c :: cs, h => by
    obtain ⟨m, hm⟩ := h c List.mem_cons_self
    have ih := anyFailedItems_eq fun c' hc' => h c' (List.mem_cons_of_mem _ hc')
    simp only [anyFailedItems, hm, Value.gtInt_int, ok_bind, List.any_cons, BatchChunkRecord.hasFailedItems]
    by_cases hpos : 0 < m
    · simp [hpos]
      rfl
    · simp [hpos, ih]

/-! ## The rows of one job -/

def jobKey (jobId : String) : Value.Key := [.str jobId]

def chunkKey (jobId : String) (i : Nat) : Value.Key := [.str (chunkIdOf jobId i)]

theorem asKey_chunkId (jobId : String) (i : Nat) : (Value.str (chunkIdOf jobId i)).asKey = .ok (chunkKey jobId i) := rfl

theorem chunkKey_injective {jobId : String} {i k : Nat} (h : chunkKey jobId i = chunkKey jobId k) : i = k := by
  have h' : chunkIdOf jobId i = chunkIdOf jobId k := by simpa [chunkKey] using h
  exact chunkIdOf_injective jobId h'

namespace BatchMetadataStore

/-- The row of a chunk of the job, timestamps aside. -/
def cell (store : BatchMetadataStore) (jobId : String) (i : Nat) : Option BatchChunkRecord :=
  (Dict.get? store.chunks (chunkKey jobId i)).map BatchChunkRecord.untimed

def job? (store : BatchMetadataStore) (jobId : String) : Option BatchJobRecord := Dict.get? store.jobs (jobKey jobId)

end BatchMetadataStore

/-- The rows of a job of `n` chunks are under the ids of its chunks, and no others are there. -/
structure JobRows (jobId : String) (n : Nat) (store : BatchMetadataStore) : Prop where
  nodup : (Dict.keys store.chunks).Nodup
  keyed : ∀ {key row}, Dict.get? store.chunks key = some row →
    (row.jobId.pyEq (.str jobId) = true ↔ ∃ i < n, key = chunkKey jobId i)
  counted : ∀ {key row}, Dict.get? store.chunks key = some row → row.jobId.pyEq (.str jobId) = true →
    ∃ m : Int, row.failedItems = .int m
  chunkCount : ∀ {row}, store.job? jobId = some row → row.chunkCount = .int n

section
variable {jobId : String} {n : Nat} {store : BatchMetadataStore}

theorem JobRows.listChunks_perm (h : JobRows jobId n store) : (store.listChunks (.str jobId)).Perm
    ((List.range n).filterMap fun i => Dict.get? store.chunks (chunkKey jobId i)) := by
  let mine : List (Value.Key × BatchChunkRecord) := store.chunks.filter fun kv => kv.2.jobId.pyEq (.str jobId)
  let table : List (Value.Key × BatchChunkRecord) := (List.range n).filterMap fun i =>
    (Dict.get? store.chunks (chunkKey jobId i)).map fun row => (chunkKey jobId i, row)
  have hmine : mine.Nodup := List.Nodup.filter _ (List.Nodup.of_map Prod.fst h.nodup)
  have htable : table.Nodup := by
    refine List.Nodup.filterMap (fun i k entry hi hk => ?_) List.nodup_range
    simp only [Option.mem_def, Option.map_eq_some_iff] at hi hk
    obtain ⟨_, -, rfl⟩ := hi
    obtain ⟨_, -, he⟩ := hk
    exact (chunkKey_injective (Prod.mk.inj he).1).symm
  have hperm : mine.Perm table := by
    refine (List.perm_ext_iff_of_nodup hmine htable).mpr fun entry => ?_
    obtain ⟨key, row⟩ := entry
    simp only [mine, table, List.mem_filter, List.mem_filterMap, List.mem_range, Option.map_eq_some_iff,
      Prod.mk.injEq]
    constructor
    · rintro ⟨hm, hj⟩
      have hg := Dict.get?_of_mem h.nodup hm
      obtain ⟨i, hi, rfl⟩ := (h.keyed hg).mp hj
      exact ⟨i, hi, row, hg, rfl, rfl⟩
    · rintro ⟨i, hi, row', hg, rfl, rfl⟩
      exact ⟨Dict.mem_of_get? hg, (h.keyed hg).mpr ⟨i, hi, rfl⟩⟩
  have hlist : store.listChunks (.str jobId) = mine.map Prod.snd := by
    simp only [BatchMetadataStore.listChunks, Dict.values, List.filter_map]
    rfl
  rw [hlist]
  refine (hperm.map Prod.snd).trans ?_
  simp only [table, List.map_filterMap, Option.map_map]
  simp only [Function.comp_def, Option.map_id']
  exact List.Perm.refl _

theorem JobRows.mem_listChunks (h : JobRows jobId n store) {c : BatchChunkRecord} :
    c ∈ store.listChunks (.str jobId) ↔ ∃ i < n, Dict.get? store.chunks (chunkKey jobId i) = some c := by
  rw [h.listChunks_perm.mem_iff]
  simp

/-- The rows of the job, looked at through a function that ignores their timestamps. -/
theorem JobRows.map_listChunks (h : JobRows jobId n store) {β : Type} {g : BatchChunkRecord → β}
    (hg : ∀ c, g c.untimed = g c) : ((store.listChunks (.str jobId)).map g).Perm
      ((List.range n).filterMap fun i => (store.cell jobId i).map g) := by
  have hmap : ∀ c : Option BatchChunkRecord, (c.map BatchChunkRecord.untimed).map g = c.map g := by
    intro c
    cases c with
    | none => rfl
    | some c => exact congrArg some (hg c)
  simp only [BatchMetadataStore.cell, hmap, ← List.map_filterMap]
  exact h.listChunks_perm.map g

theorem JobRows.le_length (h : JobRows jobId n store) :
    n ≤ (store.listChunks (.str jobId)).length ↔ ∀ i < n, (store.cell jobId i).isSome = true := by
  have hle := List.length_filterMap_le (fun i => Dict.get? store.chunks (chunkKey jobId i)) (List.range n)
  have hfull := List.filterMap_length_eq_length (f := fun i => Dict.get? store.chunks (chunkKey jobId i))
    (l := List.range n)
  rw [h.listChunks_perm.length_eq]
  simp only [List.length_range, List.mem_range] at hle hfull
  simp only [BatchMetadataStore.cell, Option.isSome_map]
  rw [← hfull]
  omega

/-- A test of a row that does not look at its timestamps. -/
theorem JobRows.all_listChunks (h : JobRows jobId n store) {p : BatchChunkRecord → Bool} (hp : ∀ c, p c.untimed = p c) :
    (store.listChunks (.str jobId)).all p = true ↔ ∀ i < n, (store.cell jobId i).all p = true := by
  simp only [List.all_eq_true, h.mem_listChunks, BatchMetadataStore.cell]
  constructor
  · intro hall i hi
    cases hg : Dict.get? store.chunks (chunkKey jobId i) with
    | none => rfl
    | some c => simpa [hp] using hall c ⟨i, hi, hg⟩
  · rintro hall c ⟨i, hi, hg⟩
    have := hall i hi
    simpa [hg, hp] using this

theorem JobRows.any_listChunks (h : JobRows jobId n store) {p : BatchChunkRecord → Bool} (hp : ∀ c, p c.untimed = p c) :
    (store.listChunks (.str jobId)).any p = true ↔ ∃ i < n, (store.cell jobId i).any p = true := by
  simp only [List.any_eq_true, h.mem_listChunks, BatchMetadataStore.cell]
  constructor
  · rintro ⟨c, ⟨i, hi, hg⟩, hc⟩
    exact ⟨i, hi, by simpa [hg, hp] using hc⟩
  · rintro ⟨i, hi, hc⟩
    cases hg : Dict.get? store.chunks (chunkKey jobId i) with
    | none => simp [hg] at hc
    | some c => exact ⟨c, ⟨i, hi, hg⟩, by simpa [hg, hp] using hc⟩

/-- The derivation computes the status of the table. -/
theorem JobRows.cell_of_nil (h : JobRows jobId n store) (hnil : store.listChunks (.str jobId) = []) :
    ∀ i < n, store.cell jobId i = none := by
  intro i hi
  cases hg : Dict.get? store.chunks (chunkKey jobId i) with
  | none => simp [BatchMetadataStore.cell, hg]
  | some c =>
    have hm := h.mem_listChunks.mpr ⟨i, hi, hg⟩
    rw [hnil] at hm
    cases hm

/-- There is a row for each chunk and each row passes the test. -/
theorem any_cells_iff (cell : Nat → Option BatchChunkRecord) (p : BatchChunkRecord → Bool) :
    (∀ i < n, (cell i).any p = true) ↔ (∀ i < n, (cell i).isSome = true) ∧ ∀ i < n, (cell i).all p = true := by
  rw [← forall₂_and]
  refine forall₂_congr fun i _ => ?_
  cases cell i <;> simp

theorem any_hasErrors (rows : List BatchChunkRecord) : rows.any BatchChunkRecord.hasErrors =
    (rows.any (fun c => isOneOf c.status ["failed", "completed_with_errors"]) ||
      rows.any BatchChunkRecord.hasFailedItems) := by
  rw [Bool.eq_iff_iff]
  simp only [BatchChunkRecord.hasErrors, List.any_eq_true, Bool.or_eq_true, and_or_left, exists_or]

/-- Once every chunk has reported, the derivation looks at the failed rows and at the failed items. -/
theorem deriveJobStatus_final {rows : List BatchChunkRecord} (hnil : rows ≠ []) (hlen : n ≤ rows.length)
    (hfinal : rows.all BatchChunkRecord.final = true) (hcounted : ∀ c ∈ rows, ∃ m : Int, c.failedItems = .int m) :
    deriveJobStatus rows (.int n) = .ok (if rows.all BatchChunkRecord.failedChunk = true then .failed
      else if rows.any BatchChunkRecord.hasErrors = true then .completedWithErrors else .completed) := by
  unfold deriveJobStatus
  have hterm : (rows.all fun c => isTerminal c.status) = true := hfinal
  rw [if_neg (by simpa using hnil)]
  simp only [Value.leInt_int, ok_bind, Int.ofNat_le]
  rw [if_neg (by simp [hlen, hterm])]
  by_cases hfailed : (rows.all fun c => c.status.pyEq (.str "failed")) = true
  · have hrows : rows.all BatchChunkRecord.failedChunk = true := hfailed
    rw [if_pos hfailed, if_pos hrows]
    rfl
  · have hrows : ¬ rows.all BatchChunkRecord.failedChunk = true := hfailed
    rw [if_neg hfailed, if_neg hrows, anyFailedItems_eq hcounted, ok_bind, any_hasErrors]
    simp only [Bool.or_eq_true]
    by_cases hs : (rows.any fun c => isOneOf c.status ["failed", "completed_with_errors"]) = true
    · rw [if_pos hs, if_pos (.inl hs)]
      rfl
    · rw [if_neg hs]
      by_cases hitems : rows.any BatchChunkRecord.hasFailedItems = true
      · rw [if_pos hitems, if_pos (.inr hitems)]
        rfl
      · rw [if_neg hitems, if_neg (by simp [hs, hitems])]
        rfl

theorem JobRows.deriveJobStatus_eq (h : JobRows jobId n store) (hn : 0 < n) :
    deriveJobStatus (store.listChunks (.str jobId)) (.int n) = .ok (tableStatus n (store.cell jobId)) := by
  have hcounted : ∀ c ∈ store.listChunks (.str jobId), ∃ m : Int, c.failedItems = .int m := by
    intro c hc
    obtain ⟨i, hi, hg⟩ := h.mem_listChunks.mp hc
    exact h.counted hg ((h.keyed hg).mpr ⟨i, hi, rfl⟩)
  have hlength := h.le_length
  have hfinal := h.all_listChunks (p := BatchChunkRecord.final) fun _ => rfl
  have hfailed := h.all_listChunks (p := BatchChunkRecord.failedChunk) fun _ => rfl
  have hwaiting := h.all_listChunks (p := BatchChunkRecord.waiting) fun _ => rfl
  have herrors := h.any_listChunks (p := BatchChunkRecord.hasErrors) fun _ => rfl
  have hpresent := h.cell_of_nil
  have hall := any_cells_iff (n := n) (store.cell jobId)
  generalize store.listChunks (.str jobId) = rows at *
  unfold tableStatus
  by_cases hdone : ∀ i < n, (store.cell jobId i).any BatchChunkRecord.final = true
  · obtain ⟨hsome, hfin⟩ := (hall _).mp hdone
    have hnil : rows ≠ [] := by
      rintro rfl
      have hfirst := hsome 0 hn
      rw [hpresent rfl 0 hn] at hfirst
      cases hfirst
    have hfailed' := hfailed.trans ((hall _).trans (and_iff_right hsome)).symm
    rw [deriveJobStatus_final hnil (hlength.mpr hsome) (hfinal.mpr hfin) hcounted, if_pos hdone]
    simp only [herrors, hfailed']
  · rw [if_neg hdone]
    unfold deriveJobStatus
    by_cases hnil : rows = []
    · have hwait : ∀ i < n, (store.cell jobId i).all BatchChunkRecord.waiting = true := by
        intro i hi
        rw [hpresent hnil i hi]
        rfl
      rw [if_pos (by simp [hnil]), if_pos hwait]
    · rw [if_neg (by simpa using hnil)]
      simp only [Value.leInt_int, ok_bind, Int.ofNat_le]
      have hopen : (!(decide (n ≤ rows.length) && rows.all fun c => isTerminal c.status)) = true := by
        rw [Bool.not_eq_true', Bool.eq_false_iff]
        intro hc
        rw [Bool.and_eq_true, decide_eq_true_eq] at hc
        exact hdone ((hall _).mpr ⟨hlength.mp hc.1, hfinal.mp hc.2⟩)
      rw [if_pos hopen]
      simp only [← hwaiting]
      rfl

theorem JobRows.effectiveCount (h : JobRows jobId n store) :
    BatchMetadataStore.effectiveCount (store.job? jobId) (.int n) = .int n := by
  unfold BatchMetadataStore.effectiveCount
  cases hj : store.job? jobId with
  | none => rfl
  | some row =>
    dsimp only
    rw [h.chunkCount hj]
    split <;> rfl

/-- What is left of the rows when the status of the job is derived from them. -/
theorem JobRows.recompute (h : JobRows jobId n store) (hn : 0 < n) (now : Int) :
    EStateM.run (BatchMetadataStore.recomputeJobStatus (.str jobId) (.int n) now) store =
      .ok () (store.putJob (jobKey jobId)
        (BatchMetadataStore.derivedRow (store.job? jobId) (.str jobId) (.int n) (tableStatus n (store.cell jobId)) now)) := by
  refine Writing.run_write_ok ?_
  unfold BatchMetadataStore.recomputed
  have hcount := h.effectiveCount
  unfold BatchMetadataStore.job? jobKey at hcount
  simp only [Value.asKey_str, ok_bind]
  rw [hcount, h.deriveJobStatus_eq hn]
  rfl

@[simp] theorem job?_putJob (row : BatchJobRecord) : (store.putJob (jobKey jobId) row).job? jobId = some row :=
  Dict.get?_set_self _ _ _

theorem cell_putChunk (i : Nat) (row : BatchChunkRecord) (k : Nat) :
    (store.putChunk (chunkKey jobId i) row).cell jobId k = if i = k then some row.untimed else store.cell jobId k := by
  unfold BatchMetadataStore.cell BatchMetadataStore.putChunk
  rw [Dict.get?_set]
  by_cases hik : i = k
  · subst hik
    simp
  · have hne : chunkKey jobId i ≠ chunkKey jobId k := fun e => hik (chunkKey_injective e)
    rw [if_neg hne, if_neg hik]

theorem JobRows.putJob (h : JobRows jobId n store) {row : BatchJobRecord} (hrow : row.chunkCount = .int n) :
    JobRows jobId n (store.putJob (jobKey jobId) row) := by
  refine ⟨h.nodup, h.keyed, h.counted, ?_⟩
  intro row' hg
  rw [job?_putJob] at hg
  cases hg
  exact hrow

theorem get?_putChunk {key key' : Value.Key} {row row' : BatchChunkRecord}
    (hg : Dict.get? (store.putChunk key row).chunks key' = some row') :
    (key = key' ∧ row = row') ∨ Dict.get? store.chunks key' = some row' := by
  unfold BatchMetadataStore.putChunk at hg
  rw [Dict.get?_set] at hg
  by_cases hk : key = key'
  · rw [if_pos hk] at hg
    exact .inl ⟨hk, Option.some.inj hg⟩
  · rw [if_neg hk] at hg
    exact .inr hg

theorem JobRows.putChunk (h : JobRows jobId n store) {i : Nat} (hi : i < n) {row : BatchChunkRecord}
    (hj : row.jobId = .str jobId) (hm : ∃ m : Int, row.failedItems = .int m) :
    JobRows jobId n (store.putChunk (chunkKey jobId i) row) := by
  refine ⟨Dict.keys_set_nodup _ _ h.nodup, ?_, ?_, h.chunkCount⟩
  · intro key row' hg
    rcases get?_putChunk hg with ⟨rfl, rfl⟩ | hold
    · rw [hj]
      exact iff_of_true (by simp) ⟨i, hi, rfl⟩
    · exact h.keyed hold
  · intro key row' hg hmine
    rcases get?_putChunk hg with ⟨-, rfl⟩ | hold
    · exact hm
    · exact h.counted hold hmine

end

/-- The rows of a job with the status that follows from them. -/
structure Projected (jobId : String) (n : Nat) (store : BatchMetadataStore) : Prop extends JobRows jobId n store where
  status : ∀ {row}, store.job? jobId = some row → row.status = tableStatus n (store.cell jobId)
  finished : ∀ {row}, store.job? jobId = some row → row.finishedAt.isSome = row.status.terminal
  absent : store.job? jobId = none → ∀ i < n, store.cell jobId i = none

section
variable {jobId : String} {n : Nat} {store : BatchMetadataStore}

theorem derivedRow_chunkCount (existing : Option BatchJobRecord) (status : JobState) (now : Int)
    (h : ∀ row, existing = some row → row.chunkCount = .int n) :
    (BatchMetadataStore.derivedRow existing (.str jobId) (.int n) status now).chunkCount = .int n := by
  cases existing with
  | none => rfl
  | some row => exact h row rfl

theorem JobRows.derived (h : JobRows jobId n store) (now : Int) :
    Projected jobId n (store.putJob (jobKey jobId)
      (BatchMetadataStore.derivedRow (store.job? jobId) (.str jobId) (.int n) (tableStatus n (store.cell jobId)) now)) := by
  refine ⟨h.putJob (derivedRow_chunkCount _ _ _ fun _ hrow => h.chunkCount hrow), ?_, ?_, ?_⟩
  · intro row hrow
    rw [job?_putJob] at hrow
    cases hrow
    cases store.job? jobId <;> rfl
  · intro row hrow
    rw [job?_putJob] at hrow
    cases hrow
    unfold BatchMetadataStore.derivedRow
    cases store.job? jobId <;> dsimp only <;> split <;> simp_all
  · intro hnone
    rw [job?_putJob] at hnone
    cases hnone

/-! ## What the writes of an event leave -/

/-- The store after `upsert_job` has merged the snapshot of an event and derived the status. -/
def BatchMetadataStore.afterJob (store : BatchMetadataStore) (jobId : String) (n : Nat) (job : BatchJobRecord)
    (mergedAt derivedAt : Int) : BatchMetadataStore :=
  let merged := mergeJobSnapshot (store.job? jobId) job mergedAt
  (store.putJob (jobKey jobId) merged).putJob (jobKey jobId)
    (BatchMetadataStore.derivedRow (some merged) (.str jobId) (.int n) (tableStatus n (store.cell jobId)) derivedAt)

/-- The store after the row of a chunk was put and the status derived. -/
def BatchMetadataStore.afterChunk (store : BatchMetadataStore) (jobId : String) (n i : Nat) (chunk : BatchChunkRecord)
    (derivedAt : Int) : BatchMetadataStore :=
  let put := store.putChunk (chunkKey jobId i)
    (BatchMetadataStore.replacing (Dict.get? store.chunks (chunkKey jobId i)) chunk)
  put.putJob (jobKey jobId)
    (BatchMetadataStore.derivedRow (store.job? jobId) (.str jobId) (.int n) (tableStatus n (put.cell jobId)) derivedAt)

theorem mergeJobSnapshot_chunkCount (hn : 0 < n) {job : BatchJobRecord} (hcount : job.chunkCount = .int n)
    (existing : Option BatchJobRecord) (mergedAt : Int) :
    (mergeJobSnapshot existing job mergedAt).chunkCount = .int n := by
  cases existing with
  | none => exact hcount
  | some row =>
    have hpos : (Value.int n).truthy = true := by
      rw [Value.truthy_int, decide_eq_true_eq]
      omega
    simp only [mergeJobSnapshot, hcount, pickTruthy, hpos, if_true]

theorem JobRows.upsertJob (h : JobRows jobId n store) (hn : 0 < n) {job : BatchJobRecord} (hid : job.jobId = .str jobId)
    (hcount : job.chunkCount = .int n) (mergedAt derivedAt : Int) :
    EStateM.run (BatchMetadataStore.upsertJob job mergedAt derivedAt) store =
        .ok () (store.afterJob jobId n job mergedAt derivedAt) ∧
      Projected jobId n (store.afterJob jobId n job mergedAt derivedAt) := by
  have hmerged := mergeJobSnapshot_chunkCount hn hcount (store.job? jobId) mergedAt
  have hput := h.putJob hmerged
  have hrec := hput.recompute hn derivedAt
  have hderived := hput.derived derivedAt
  rw [job?_putJob] at hrec hderived
  refine ⟨?_, hderived⟩
  rw [BatchMetadataStore.run_upsertJob, hid, Value.asKey_str]
  unfold BatchMetadataStore.job? jobKey at hmerged hrec
  dsimp only
  rw [hmerged]
  exact hrec

theorem JobRows.putChunk_derived (h : JobRows jobId n store) (hn : 0 < n) {i : Nat} (hi : i < n)
    {chunk : BatchChunkRecord} (hj : chunk.jobId = .str jobId) (hc : chunk.chunkCount = .int n)
    (hm : ∃ m : Int, chunk.failedItems = .int m) (derivedAt : Int) :
    EStateM.run (BatchMetadataStore.recomputeJobStatus chunk.jobId chunk.chunkCount derivedAt)
        (store.putChunk (chunkKey jobId i)
          (BatchMetadataStore.replacing (Dict.get? store.chunks (chunkKey jobId i)) chunk)) =
        .ok () (store.afterChunk jobId n i chunk derivedAt) ∧
      Projected jobId n (store.afterChunk jobId n i chunk derivedAt) ∧
      ∀ k, (store.afterChunk jobId n i chunk derivedAt).cell jobId k =
        if i = k then some chunk.untimed else store.cell jobId k := by
  have hreplaced : ∀ existing, (BatchMetadataStore.replacing existing chunk).untimed = chunk.untimed ∧
      (BatchMetadataStore.replacing existing chunk).jobId = .str jobId ∧
      ∃ m : Int, (BatchMetadataStore.replacing existing chunk).failedItems = .int m := by
    intro existing
    cases existing <;> exact ⟨rfl, hj, hm⟩
  obtain ⟨hrow, hrowj, hrowm⟩ := hreplaced (Dict.get? store.chunks (chunkKey jobId i))
  have hput := h.putChunk hi hrowj hrowm
  refine ⟨?_, hput.derived derivedAt, fun k => ?_⟩
  · rw [hj, hc]
    exact hput.recompute hn derivedAt
  · rw [← hrow]
    exact cell_putChunk i _ k

end

end BatchMetadata

/-! ## Events of the chunks of a job -/

open BatchMetadata

/-- The event names the chunk `i` of the `n` chunks of the job, as the batch API names it. -/
structure NamesChunk (jobId : String) (n i : Nat) (batchJobId chunkId chunkIndex chunkCount : Value) : Prop where
  job : batchJobId = .str jobId
  chunk : chunkId = .str (chunkIdOf jobId i)
  index : chunkIndex = .int i
  count : chunkCount = .int n
  inRange : i < n

/-- A well-formed event of the chunk `i`: what it names, an aware time, and of a result its status and its count. -/
def MetadataEvent.OnChunk (jobId : String) (n i : Nat) : MetadataEvent → Prop
  | .batchChunkRequested e =>
    NamesChunk jobId n i e.batchJobId e.chunkId e.chunkIndex e.chunkCount ∧ ∃ instant, e.occurredAt = .aware instant
  | .batchChunkProcessed e =>
    NamesChunk jobId n i e.batchJobId e.chunkId e.chunkIndex e.chunkCount ∧ (∃ instant, e.processedAt = .aware instant) ∧
      isTerminal e.status = true ∧ ∃ m : Int, e.failedItems = .int m
  | _ => False

theorem MetadataEvent.OnChunk.inRange {jobId : String} {n i : Nat} : ∀ {event : MetadataEvent}, event.OnChunk jobId n i → i < n
  | .batchChunkRequested _, h => h.1.inRange
  | .batchChunkProcessed _, h => h.1.inRange

/-- The event is no chunk event, or one that names neither the job nor one of its chunks. -/
def MetadataEvent.Foreign (jobId : String) (n : Nat) : MetadataEvent → Prop
  | .batchChunkRequested e => e.batchJobId.pyEq (.str jobId) = false ∧ ∀ i < n, e.chunkId.pyEq (.str (chunkIdOf jobId i)) = false
  | .batchChunkProcessed e => e.batchJobId.pyEq (.str jobId) = false ∧ ∀ i < n, e.chunkId.pyEq (.str (chunkIdOf jobId i)) = false
  | _ => True

/-- The row an event puts, timestamps aside. -/
def MetadataEvent.chunkRow : MetadataEvent → Option BatchChunkRecord
  | .batchChunkRequested e => some (Writer.requestedChunk ⟨0, 0, 0, 0⟩ e).untimed
  | .batchChunkProcessed e => some (Writer.processedChunk ⟨0, 0, 0, 0⟩ e 0).untimed
  | _ => none

section
variable {jobId : String} {n : Nat} {s : Stores}

theorem run_onBatch {w : BatchMetadataStore.Program Unit} {batch : BatchMetadataStore}
    (h : EStateM.run w s.batch = .ok () batch) : EStateM.run (Writer.onBatch w) s = .ok () { s with batch } :=
  Writing.within_ok.mpr ⟨batch, h, rfl⟩

theorem run_onBatch_error {w : BatchMetadataStore.Program Unit} {batch : BatchMetadataStore} {e : PyErr}
    (h : EStateM.run w s.batch = .error e batch) : EStateM.run (Writer.onBatch w) s = .error e { s with batch } :=
  Writing.within_error.mpr ⟨batch, h, rfl⟩

theorem run_audit (ehash : String) (eventType requestId : Value) (instant createdAt : Int) :
    EStateM.run (Writer.audit ehash eventType (.aware instant) createdAt requestId) s =
      .ok () { s with requests := (s.requests.appendEvent
        { eventHash := ehash, eventType, occurredAt := instant, createdAt, requestId }).1 } := rfl

/-- Where a requested event leaves the rows. -/
def afterRequested (store : BatchMetadataStore) (jobId : String) (n i : Nat) (t : Readings)
    (event : Wire.BatchChunkRequested) : BatchMetadataStore :=
  let merged := store.afterJob jobId n (Writer.requestedJob t event) t.merged t.derived
  if (store.cell jobId i).any BatchChunkRecord.final then merged
  else merged.afterChunk jobId n i (Writer.requestedChunk t event) t.rederived

/-- Where a processed event leaves the rows; a second result of a chunk changes nothing, whether it is refused or not. -/
def afterProcessed (store : BatchMetadataStore) (jobId : String) (n i : Nat) (t : Readings)
    (event : Wire.BatchChunkProcessed) (finishedAt : Int) : BatchMetadataStore :=
  if (store.cell jobId i).any BatchChunkRecord.final then store
  else store.afterChunk jobId n i (Writer.processedChunk t event finishedAt) t.derived

theorem any_cell (store : BatchMetadataStore) (jobId : String) (i : Nat) :
    (store.cell jobId i).any BatchChunkRecord.final =
      (Dict.get? store.chunks (chunkKey jobId i)).any fun e => isTerminal e.status := by
  unfold BatchMetadataStore.cell
  cases Dict.get? store.chunks (chunkKey jobId i) <;> rfl

theorem batch_requested (h : JobRows jobId n s.batch) {i : Nat} {event : Wire.BatchChunkRequested}
    (he : (MetadataEvent.batchChunkRequested event).OnChunk jobId n i) (ehash : String) (t : Readings) :
    (Writing.left (EStateM.run (Writer.projectBatchChunkRequested ehash t event) s)).batch =
      afterRequested s.batch jobId n i t event := by
  obtain ⟨⟨hjob, hchunk, -, hcount, hi⟩, instant, haware⟩ := he
  have hn : 0 < n := by omega
  have hid : (Writer.requestedJob t event).jobId = .str jobId := hjob
  have hname : (Writer.requestedChunk t event).chunkId = .str (chunkIdOf jobId i) := hchunk
  have hrow : (Writer.requestedChunk t event).jobId = .str jobId := hjob
  have hrowCount : (Writer.requestedChunk t event).chunkCount = .int n := hcount
  obtain ⟨hrun, hmerged⟩ := h.upsertJob hn hid hcount t.merged t.derived
  have hcell : (s.batch.afterJob jobId n (Writer.requestedJob t event) t.merged t.derived).cell jobId = s.batch.cell jobId :=
    rfl
  unfold Writer.projectBatchChunkRequested afterRequested
  rw [Writing.run_bind_of_ok (run_onBatch hrun), ← hcell]
  dsimp only
  generalize s.batch.afterJob jobId n (Writer.requestedJob t event) t.merged t.derived = merged at *
  have hreq := merged.run_upsertChunkRequested (Writer.requestedChunk t event) t.rederived
  rw [hname, asKey_chunkId] at hreq
  dsimp only at hreq
  by_cases hfin : (merged.cell jobId i).any BatchChunkRecord.final = true
  · rw [if_pos hfin]
    rw [any_cell] at hfin
    rw [if_pos hfin] at hreq
    rw [Writing.run_bind_of_ok (run_onBatch hreq), haware, Writing.run_bind_of_ok (run_audit ..)]
    rfl
  · rw [if_neg hfin]
    rw [any_cell] at hfin
    rw [if_neg hfin] at hreq
    obtain ⟨hput, -⟩ := hmerged.toJobRows.putChunk_derived hn hi hrow hrowCount
      ⟨0, rfl⟩ t.rederived
    rw [Writing.run_bind_of_ok (run_onBatch (hreq.trans hput)), haware, Writing.run_bind_of_ok (run_audit ..)]
    rfl

theorem batch_processed (h : JobRows jobId n s.batch) {i : Nat} {event : Wire.BatchChunkProcessed} {finishedAt : Int}
    (he : (MetadataEvent.batchChunkProcessed event).OnChunk jobId n i) (htime : event.processedAt = .aware finishedAt)
    (ehash : String) (t : Readings) :
    (Writing.left (EStateM.run (Writer.projectBatchChunkProcessed ehash t event) s)).batch =
      afterProcessed s.batch jobId n i t event finishedAt := by
  obtain ⟨⟨hjob, hchunk, -, hcount, hi⟩, -, hfinal, hitems⟩ := he
  have hn : 0 < n := by omega
  have hname : (Writer.processedChunk t event finishedAt).chunkId = .str (chunkIdOf jobId i) := hchunk
  have hrow : (Writer.processedChunk t event finishedAt).jobId = .str jobId := hjob
  have hrowCount : (Writer.processedChunk t event finishedAt).chunkCount = .int n := hcount
  unfold Writer.projectBatchChunkProcessed afterProcessed
  rw [htime, requireAware_aware, Writing.run_bind_of_ok (Writing.run_need_ok finishedAt s)]
  have hrun := s.batch.run_upsertChunkProcessed (Writer.processedChunk t event finishedAt) t.derived
  rw [hname, asKey_chunkId] at hrun
  dsimp only at hrun
  by_cases hfin : (s.batch.cell jobId i).any BatchChunkRecord.final = true
  · rw [if_pos hfin]
    rw [any_cell] at hfin
    cases hg : Dict.get? s.batch.chunks (chunkKey jobId i) with
    | none =>
      rw [hg] at hfin
      cases hfin
    | some row =>
      rw [hg] at hfin hrun
      have hterm : ¬ isTerminal row.status = false := by simpa using hfin
      by_cases hsame : sameResult row (Writer.processedChunk t event finishedAt) = true
      · simp only [checkProcessedConflict, if_neg hterm, if_pos hsame] at hrun
        rw [Writing.run_bind_of_ok (run_onBatch hrun), Writing.run_bind_of_ok (run_audit ..)]
        rfl
      · simp only [checkProcessedConflict, if_neg hterm, if_neg hsame] at hrun
        rw [Writing.run_bind_of_error (run_onBatch_error hrun)]
        rfl
  · rw [if_neg hfin]
    rw [any_cell] at hfin
    have hnew : checkProcessedConflict (Dict.get? s.batch.chunks (chunkKey jobId i))
        (Writer.processedChunk t event finishedAt) = .ok false := by
      cases hg : Dict.get? s.batch.chunks (chunkKey jobId i) with
      | none => rfl
      | some row =>
        rw [hg] at hfin
        simp only [Option.any_some, Bool.not_eq_true] at hfin
        simp only [checkProcessedConflict, if_pos hfin]
    rw [hnew] at hrun
    obtain ⟨hput, -⟩ := h.putChunk_derived hn hi hrow hrowCount hitems t.derived
    rw [Writing.run_bind_of_ok (run_onBatch (hrun.trans hput)), Writing.run_bind_of_ok (run_audit ..)]
    rfl

/-- The cells after a value was put into one of them. -/
theorem cells_put {cell : Nat → Option BatchChunkRecord} {i : Nat} {row : BatchChunkRecord} {value : Option BatchChunkRecord}
    (h : value = Closing.put BatchChunkRecord.final (cell i) row) (k : Nat) : (if i = k then value else cell k) =
      if i = k then Closing.put BatchChunkRecord.final (cell k) row else cell k := by
  subst h
  by_cases hk : i = k
  · subst hk
    rfl
  · rw [if_neg hk, if_neg hk]

/-- A final cell is the same after a value was put into it. -/
theorem cells_kept {cell : Nat → Option BatchChunkRecord} {i : Nat} {row : BatchChunkRecord}
    (h : (cell i).any BatchChunkRecord.final = true) (k : Nat) :
    cell k = if i = k then Closing.put BatchChunkRecord.final (cell k) row else cell k := by
  by_cases hk : i = k
  · subst hk
    rw [if_pos rfl, Closing.put_of_final h]
  · rw [if_neg hk]

/-- What an event on a chunk does to the table of its job. -/
theorem projected_onChunk (h : Projected jobId n s.batch) {i : Nat} {event : MetadataEvent} (he : event.OnChunk jobId n i)
    (ehash : String) (t : Readings) :
    let batch := (Writing.left (EStateM.run (event.project ehash t) s)).batch
    Projected jobId n batch ∧ (batch.job? jobId).isSome = true ∧ ∃ row, event.chunkRow = some row ∧
      ∀ k, batch.cell jobId k =
        if i = k then Closing.put BatchChunkRecord.final (s.batch.cell jobId k) row else s.batch.cell jobId k := by
  cases event with
  | batchChunkRequested e =>
    have hbatch := batch_requested h.toJobRows he ehash t
    obtain ⟨⟨hjob, hchunk, -, hcount, hi⟩, -⟩ := he
    have hn : 0 < n := by omega
    have hid : (Writer.requestedJob t e).jobId = .str jobId := hjob
    obtain ⟨-, hmerged⟩ := h.toJobRows.upsertJob hn hid hcount t.merged t.derived
    dsimp only [MetadataEvent.project]
    rw [hbatch]
    unfold afterRequested
    by_cases hfin : (s.batch.cell jobId i).any BatchChunkRecord.final = true
    · rw [if_pos hfin]
      refine ⟨hmerged, ?_, _, rfl, cells_kept hfin⟩
      unfold BatchMetadataStore.afterJob
      rw [job?_putJob]
      rfl
    · have hrow : (Writer.requestedChunk t e).jobId = .str jobId := hjob
      have hrowCount : (Writer.requestedChunk t e).chunkCount = .int n := hcount
      obtain ⟨-, hafter, hcells⟩ := hmerged.toJobRows.putChunk_derived hn hi hrow hrowCount ⟨0, rfl⟩ t.rederived
      rw [if_neg hfin]
      refine ⟨hafter, ?_, _, rfl, fun k => ?_⟩
      · unfold BatchMetadataStore.afterChunk
        rw [job?_putJob]
        rfl
      · exact (hcells k).trans (cells_put (Closing.put_of_open (eq_false_of_ne_true hfin) _).symm k)
  | batchChunkProcessed e =>
    obtain ⟨finishedAt, htime⟩ := he.2.1
    have hbatch := batch_processed h.toJobRows he htime ehash t
    obtain ⟨⟨hjob, hchunk, -, hcount, hi⟩, -, -, hitems⟩ := he
    have hn : 0 < n := by omega
    dsimp only [MetadataEvent.project]
    rw [hbatch]
    unfold afterProcessed
    by_cases hfin : (s.batch.cell jobId i).any BatchChunkRecord.final = true
    · rw [if_pos hfin]
      refine ⟨h, ?_, _, rfl, cells_kept hfin⟩
      rw [Option.isSome_iff_ne_none]
      intro hnone
      rw [h.absent hnone i hi] at hfin
      cases hfin
    · have hrow : (Writer.processedChunk t e finishedAt).jobId = .str jobId := hjob
      have hrowCount : (Writer.processedChunk t e finishedAt).chunkCount = .int n := hcount
      obtain ⟨-, hafter, hcells⟩ := h.toJobRows.putChunk_derived hn hi hrow hrowCount hitems t.derived
      rw [if_neg hfin]
      refine ⟨hafter, ?_, _, rfl, fun k => ?_⟩
      · unfold BatchMetadataStore.afterChunk
        rw [job?_putJob]
        rfl
      · exact (hcells k).trans (cells_put (Closing.put_of_open (eq_false_of_ne_true hfin) _).symm k)
  | requested e => exact he.elim
  | completed e => exact he.elim
  | offlineRequested e => exact he.elim
  | modelScore e => exact he.elim
  | dlq e => exact he.elim

end

end ClearFeature
