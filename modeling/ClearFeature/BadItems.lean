import ClearFeature.BatchItems
import ClearFeature.Lib.Items
import ClearFeature.Consistency
import ClearFeature.PropagationRunner

/-!
# Items that raise

The items of a chunk and the entries of a wave are handled one by one. One that
raises a deterministic error is counted and leaves the others as they are; any
other exception ends the chunk or the wave.
-/

namespace ClearFeature

open Prog

/-! ## Announcing results -/

theorem encodeEntityKey_of_order {parts : List (String × String)} {order : List String} {encoded : String}
    (h : encodeEntityKey parts (some order) = .ok encoded) : ∃ key, encodeEntityKey parts none = .ok key := by
  unfold encodeEntityKey at h ⊢
  split at h
  · cases h
  · rename_i hne
    rw [if_neg hne]
    obtain ⟨u, hv, -⟩ := bind_eq_ok.mp h
    rw [hv]
    exact ⟨_, rfl⟩

theorem featureUpdated_encoded (viewDef : FeatureViewDef) (entityType : String) (source : FeatureUpdateSource)
    (r : FeatureResult) : ∃ key, (featureUpdatedOf viewDef entityType source r).entity.encoded = .ok key :=
  encodeEntityKey_of_order r.entityKey.valid

section
variable {Rec R Own S : Type} {OwnAns : Own → Type}

/-- A broker that takes every record. -/
structure TakesRecords (srv : Service (RunnerCall Rec R Own) (RunnerCall.Ans OwnAns) S) (push : S → Rec → S) : Prop where
  act : ∀ s topic key record headers, srv.act s (.publish topic key record headers) = push s record
  answer : ∀ s topic key record headers, srv.answer s (.publish topic key record headers) = .ok ()

variable {srv : Service (RunnerCall Rec R Own) (RunnerCall.Ans OwnAns) S} {push : S → Rec → S}

theorem publishFeatureUpdates_exec (hb : TakesRecords srv push) (updated : FeatureUpdated → Rec) :
    ∀ (events : List FeatureUpdated) (s : S), (∀ event ∈ events, ∃ key, event.entity.encoded = .ok key) →
      exec srv s (publishFeatureUpdates updated events) = (events.foldl (fun s event => push s (updated event)) s, .ok ())
  | [], s, _ => rfl
  | event :: events, s, hk => by
    obtain ⟨key, hkey⟩ := hk event List.mem_cons_self
    rw [publishFeatureUpdates, hkey]
    dsimp only
    rw [exec_ask_bind, hb.answer, hb.act]
    exact publishFeatureUpdates_exec hb updated events _ fun e he => hk e (List.mem_cons_of_mem _ he)

theorem emitFeatureUpdates_exec (hb : TakesRecords srv push) (updated : FeatureUpdated → Rec) (viewDef : FeatureViewDef)
    (results : List FeatureResult) (entityType : String) (source : FeatureUpdateSource) (s : S) :
    exec srv s (emitFeatureUpdates updated viewDef results entityType source) =
      ((buildFeatureUpdatedEvents viewDef results entityType source).foldl (fun s event => push s (updated event)) s,
        .ok (buildFeatureUpdatedEvents viewDef results entityType source).length) := by
  have hkeys : ∀ event ∈ buildFeatureUpdatedEvents viewDef results entityType source,
      ∃ key, event.entity.encoded = .ok key := by
    intro event he
    obtain ⟨r, -, rfl⟩ := List.mem_map.mp he
    exact featureUpdated_encoded viewDef entityType source r
  unfold emitFeatureUpdates
  rw [exec_bind, publishFeatureUpdates_exec hb updated _ s hkeys]
  rfl

end

/-! ## A chunk -/

section
variable (b : BatchBackend) (ref writeOnline : Bool) (viewDef : FeatureViewDef) (features : List String)

/-- One item of a chunk; `ref` where the items refer to reports. -/
def chunkItem (s : BatchStores) (item : BatchItem) : BatchStores × Except PyErr (List FeatureResult) :=
  if ref then (s, refItem b viewDef features s item) else inlineItem b viewDef features writeOnline s item

def chunkStep : BatchItem → Batch.Program (Except PyErr (List FeatureResult)) :=
  if ref then Batch.computeItem viewDef features else Batch.persistItem viewDef features writeOnline

def computeChunk (event : BatchChunkRequested) : Batch.Program (Except PyErr Batch.ChunkTally) :=
  if ref then Batch.computeRefChunk event viewDef features else Batch.computeInlineChunk event viewDef features

def chunkLoop (s : BatchStores) (items : List BatchItem) : BatchStores × Except PyErr Batch.ChunkTally :=
  Items.loop (chunkItem b ref writeOnline viewDef features) PyErr.isDeterministic Batch.ChunkTally.ok
    (fun t e => t.failed e.msg) s items {}

/-- What follows the loop: the results are appended, announced and refreshed online. -/
def finishChunk (s : BatchStores) (results : List FeatureResult) : BatchStores :=
  let appended : BatchStores :=
    if ref then
      { s with stores := { s.stores with
          offline := appendNewResults s.stores.offline viewDef.name viewDef.viewVersion results } }
    else s
  let announced := (buildFeatureUpdatedEvents viewDef results viewDef.entity .batchWorker).foldl
    (fun s event => s.push (.updated event)) appended
  if ref && writeOnline then
    { announced with stores := { announced.stores with
        online := (b.withinBudget results).foldl (fun online r => (online.write viewDef.name viewDef.viewVersion r).2)
          announced.stores.online } }
  else announced

end

section
variable {b : BatchBackend} {ref writeOnline : Bool} {viewDef : FeatureViewDef} {features : List String}

theorem service_takesRecords (b : BatchBackend) : TakesRecords b.service BatchStores.push :=
  ⟨fun _ _ _ _ _ => rfl, fun _ _ _ _ _ => rfl⟩

theorem chunkStep_exec (s : BatchStores) (item : BatchItem) :
    exec b.service s (chunkStep ref writeOnline viewDef features item) =
      chunkItem b ref writeOnline viewDef features s item := by
  unfold chunkStep chunkItem
  cases ref <;> rfl

theorem itemLoop_exec : ∀ (items : List BatchItem) (s : BatchStores) (t : Batch.ChunkTally),
    exec b.service s (Batch.itemLoop (chunkStep ref writeOnline viewDef features) items t) =
      Items.loop (chunkItem b ref writeOnline viewDef features) PyErr.isDeterministic Batch.ChunkTally.ok
        (fun t e => t.failed e.msg) s items t
  | [], s, t => rfl
  | item :: items, s, t => by
    rw [Batch.itemLoop, exec_bind, chunkStep_exec, Items.loop]
    cases (chunkItem b ref writeOnline viewDef features s item).2 with
    | ok results => exact itemLoop_exec items _ _
    | error e =>
      dsimp only
      split
      · exact itemLoop_exec items _ _
      · rfl

theorem computeChunk_exec (s : BatchStores) (event : BatchChunkRequested) :
    exec b.service s (computeChunk ref viewDef features event) =
      match chunkLoop b ref event.writeOnline viewDef features s event.items with
      | (s', .ok t) => (finishChunk b ref event.writeOnline viewDef s' t.results, .ok t)
      | (s', .error e) => (s', .error e) := by
  have hloop := @itemLoop_exec b ref event.writeOnline viewDef features event.items s {}
  unfold computeChunk chunkLoop
  cases ref with
  | false =>
    rw [if_neg (by decide), Batch.computeInlineChunk, exec_bind]
    rw [show chunkStep false event.writeOnline viewDef features = Batch.persistItem viewDef features event.writeOnline
      from rfl] at hloop
    rw [hloop]
    rcases Items.loop _ _ _ _ s event.items _ with ⟨s', e | t⟩
    · rfl
    · dsimp only
      rw [exec_bind, Batch.emitUpdates, emitFeatureUpdates_exec (service_takesRecords b)]
      rfl
  | true =>
    rw [if_pos rfl, Batch.computeRefChunk, exec_bind]
    rw [show chunkStep true event.writeOnline viewDef features = Batch.computeItem viewDef features from rfl] at hloop
    rw [hloop]
    rcases Items.loop _ _ _ _ s event.items _ with ⟨s', e | t⟩
    · rfl
    · dsimp only
      rw [exec_ask_bind]
      show exec b.service _ (Batch.emitUpdates viewDef t.results >>= _) = _
      rw [exec_bind, Batch.emitUpdates, emitFeatureUpdates_exec (service_takesRecords b)]
      dsimp only
      unfold finishChunk
      cases event.writeOnline <;> rfl

/-! ### What a chunk leaves -/

theorem BatchStores.Same.symm {s s' : BatchStores} (h : s.Same s') : s'.Same s := ⟨h.1.symm, h.2.symm⟩

theorem BatchStores.Same.push {s s' : BatchStores} (h : s.Same s') (record : BatchRecord) :
    (s.push record).Same (s'.push record) :=
  ⟨h.1, congrArg (· ++ [record]) h.2⟩

theorem BatchStores.Same.pushAll {α : Type} (record : α → BatchRecord) : ∀ (as : List α) {s s' : BatchStores}, s.Same s' →
    (as.foldl (fun s a => s.push (record a)) s).Same (as.foldl (fun s a => s.push (record a)) s')
  | [], _, _, h => h
  | a :: as, _, _, h => pushAll record as (h.push (record a))

theorem finishChunk_same {s s' : BatchStores} (h : s.Same s') (results : List FeatureResult) :
    (finishChunk b ref writeOnline viewDef s results).Same (finishChunk b ref writeOnline viewDef s' results) := by
  unfold finishChunk
  have happended : BatchStores.Same
      (if ref then { s with stores := { s.stores with
          offline := appendNewResults s.stores.offline viewDef.name viewDef.viewVersion results } } else s)
      (if ref then { s' with stores := { s'.stores with
          offline := appendNewResults s'.stores.offline viewDef.name viewDef.viewVersion results } } else s') := by
    cases ref with
    | false => exact h
    | true =>
      refine ⟨?_, h.2⟩
      show StoreState.mk _ _ = StoreState.mk _ _
      rw [h.1]
  have hannounced := happended.pushAll BatchRecord.updated
    (buildFeatureUpdatedEvents viewDef results viewDef.entity .batchWorker)
  dsimp only
  split
  · exact ⟨by dsimp only; rw [hannounced.1], hannounced.2⟩
  · exact hannounced

theorem chunk_tally : ∀ (outs : List (Except PyErr (List FeatureResult))) (t : Batch.ChunkTally),
    let t' := Items.tally Batch.ChunkTally.ok (fun t e => t.failed e.msg) t outs
    t'.results = t.results ++ (Items.returned outs).flatten ∧ t'.okItems = t.okItems + (Items.returned outs).length ∧
      t'.failedItems = t.failedItems + (Items.raised outs).length
  | [], t => ⟨(List.append_nil _).symm, rfl, rfl⟩
  | .ok results :: outs, t => by
    obtain ⟨hresults, hok, hfailed⟩ := chunk_tally outs (t.ok results)
    refine ⟨?_, ?_, hfailed⟩
    · rw [Items.tally, hresults, Items.returned, List.flatten_cons, ← List.append_assoc]
      rfl
    · rw [Items.tally, hok, Items.returned, List.length_cons]
      show t.okItems + 1 + _ = _
      omega
  | .error e :: outs, t => by
    obtain ⟨hresults, hok, hfailed⟩ := chunk_tally outs (t.failed e.msg)
    refine ⟨hresults, hok, ?_⟩
    rw [Items.tally, hfailed, Items.raised, List.length_cons]
    show t.failedItems + 1 + _ = _
    omega

end

section
variable (b : BatchBackend) (event : BatchChunkRequested) (viewDef : FeatureViewDef) (features : List String)
  (s : BatchStores)

def goodItems : List BatchItem :=
  Items.kept (chunkItem b (Batch.isRefChunk event) event.writeOnline viewDef features) s event.items

def chunkErrors : List PyErr :=
  Items.raised
    (Items.outcomes (chunkItem b (Batch.isRefChunk event) event.writeOnline viewDef features) s event.items)

/-- The chunk is handled; stores and announcements are those of the chunk without its bad items, which are counted. -/
def ChunkIsolated : Prop :=
  ∃ (done : BatchStores) (t : Batch.ChunkTally) (absent : BatchStores) (t' : Batch.ChunkTally),
    exec b.service s (Batch.handleBatchChunk event) = (done.push (.processed (Batch.processedEvent event t)), .ok .ok) ∧
    exec b.service s (computeChunk (Batch.isRefChunk event) viewDef features
      { event with items := goodItems b event viewDef features s }) = (absent, .ok t') ∧
    done.Same absent ∧ t.results = t'.results ∧ t.okItems = (goodItems b event viewDef features s).length ∧
      t.failedItems + (goodItems b event viewDef features s).length = event.items.length

end

section
variable {b : BatchBackend} {event : BatchChunkRequested} {viewDef : FeatureViewDef} {features : List String}
  {s : BatchStores}

theorem handleBatchChunk_exec (hplan : b.planned event = .ok (viewDef, features)) :
    exec b.service s (Batch.handleBatchChunk event) =
      match exec b.service s (computeChunk (Batch.isRefChunk event) viewDef features event) with
      | (s', .ok t) => (s'.push (.processed (Batch.processedEvent event t)), .ok .ok)
      | (s', .error e) => (s', .error e) := by
  rw [Batch.handleBatchChunk, exec_ask_bind]
  have hact : b.service.act s (.own (.plan event)) = s := rfl
  have hchunk : (if Batch.isRefChunk event then Batch.computeRefChunk event viewDef features
      else Batch.computeInlineChunk event viewDef features) = computeChunk (Batch.isRefChunk event) viewDef features event :=
    rfl
  rw [show b.service.answer s (.own (.plan event)) = .ok (viewDef, features) from hplan, hact]
  dsimp only
  rw [hchunk, exec_bind]
  rcases exec b.service s (computeChunk (Batch.isRefChunk event) viewDef features event) with ⟨s', e | t⟩
  · rfl
  · rfl

theorem chunk_isolated_of (same : BatchStores → BatchStores → Prop) (hplan : b.planned event = .ok (viewDef, features))
    (hiso : Items.Isolated (chunkItem b (Batch.isRefChunk event) event.writeOnline viewDef features) same)
    (hsame : ∀ {s s'}, same s s' → s.Same s') :
    ChunkIsolated b event viewDef features s ↔ ∀ e ∈ chunkErrors b event viewDef features s, e.isDeterministic = true := by
  constructor
  · rintro ⟨done, t, absent, t', hdone, -⟩
    rw [handleBatchChunk_exec hplan, computeChunk_exec] at hdone
    have hloop : ∃ t', (chunkLoop b (Batch.isRefChunk event) event.writeOnline viewDef features s event.items).2 =
        .ok t' := by
      rcases hl : chunkLoop b (Batch.isRefChunk event) event.writeOnline viewDef features s event.items with ⟨s', e | t'⟩
      · rw [hl] at hdone
        cases congrArg Prod.snd hdone
      · exact ⟨t', rfl⟩
    obtain ⟨t', ht'⟩ := hloop
    exact Items.isolated_of_loop ht'
  · intro herrors
    obtain ⟨hfinal, houts⟩ := hiso.kept event.items (hiso.refl s)
    have hlen := Items.length_kept (chunkItem b (Batch.isRefChunk event) event.writeOnline viewDef features) s event.items
    have htotal := Items.length_returned
      (Items.outcomes (chunkItem b (Batch.isRefChunk event) event.writeOnline viewDef features) s event.items)
    rw [Items.length_outcomes] at htotal
    have hall : chunkLoop b (Batch.isRefChunk event) event.writeOnline viewDef features s event.items = _ :=
      Items.loop_isolated herrors
    have hgood : chunkLoop b (Batch.isRefChunk event) event.writeOnline viewDef features s
        (goodItems b event viewDef features s) = _ := Items.loop_isolated (by
      unfold goodItems
      rw [houts, Items.raised_ok]
      exact fun e he => (nomatch he))
    obtain ⟨hresults, hok, hfailed⟩ := chunk_tally
      (Items.outcomes (chunkItem b (Batch.isRefChunk event) event.writeOnline viewDef features) s event.items) {}
    obtain ⟨hresults', -, -⟩ := chunk_tally
      (Items.outcomes (chunkItem b (Batch.isRefChunk event) event.writeOnline viewDef features) s
        (goodItems b event viewDef features s)) {}
    have hsameResults := hresults.trans (hresults'.trans (by rw [goodItems, houts, Items.returned_ok])).symm
    have hdone := handleBatchChunk_exec (s := s) hplan
    rw [computeChunk_exec, hall] at hdone
    have habsent := @computeChunk_exec b (Batch.isRefChunk event) viewDef features s
      { event with items := goodItems b event viewDef features s }
    dsimp only at habsent
    rw [hgood] at habsent
    refine ⟨_, _, _, _, hdone, habsent, ?_, hsameResults, ?_, ?_⟩
    · rw [← hsameResults]
      exact finishChunk_same (hsame hfinal).symm _
    · rw [hok]
      show 0 + _ = (Items.kept _ _ _).length
      omega
    · rw [hfailed]
      show 0 + _ + (Items.kept _ _ _).length = _
      omega

theorem refItem_isolated : Items.Isolated (chunkItem b true event.writeOnline viewDef features) Eq where
  refl _ := rfl
  trans h h' := h.trans h'
  state item h := by rw [h]
  outcome item h := by rw [h]
  raises item e h _ := h

theorem chunk_isolated_iff (hplan : b.planned event = .ok (viewDef, features)) :
    ChunkIsolated b event viewDef features s ↔ ∀ e ∈ chunkErrors b event viewDef features s, e.isDeterministic = true := by
  cases href : Batch.isRefChunk event with
  | true =>
    have hsame : ∀ {s s' : BatchStores}, s = s' → s.Same s' := by
      intro s s' h
      subst h
      exact ⟨rfl, rfl⟩
    refine chunk_isolated_of Eq hplan ?_ hsame
    rw [href]
    exact refItem_isolated
  | false =>
    refine chunk_isolated_of BatchStores.Same hplan ?_ id
    rw [href]
    exact inlineItem_isolated event.writeOnline

end

end ClearFeature
