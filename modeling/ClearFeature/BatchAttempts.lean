import ClearFeature.BadEntries
import ClearFeature.CalcTimes
import ClearFeature.EntityKeys
import ClearFeature.Rerun
import ClearFeature.Lib.Environment

/-!
# Attempts at a chunk

A chunk whose items refer to reports is attempted until one attempt goes
through. An attempt appends what the ones before it did not, whatever they were
stopped at, and announces all results of the chunk.
-/

namespace ClearFeature

open Prog

/-! ## The results of a chunk -/

section
variable (b : BatchBackend) (viewDef : FeatureViewDef) (features : List String)

def refResults (s : BatchStores) (items : List BatchItem) : List FeatureResult :=
  (Items.returned (items.map (refItem b viewDef features s))).flatten

/-- No two items have the same entity key. -/
def DistinctKeys (items : List BatchItem) : Prop :=
  items.Pairwise fun i j => ∀ key, itemKey viewDef i = .ok key → itemKey viewDef j ≠ .ok key

variable {b viewDef features} {s s' : BatchStores}

theorem mem_refResults {items : List BatchItem} {r : FeatureResult} : r ∈ refResults b viewDef features s items ↔
    ∃ item ∈ items, ∃ rs, refItem b viewDef features s item = .ok rs ∧ r ∈ rs := by
  unfold refResults
  constructor
  · intro h
    obtain ⟨rs, hrs, hr⟩ := List.mem_flatten.mp h
    obtain ⟨item, hitem, hout⟩ := List.mem_map.mp (Items.mem_returned.mp hrs)
    exact ⟨item, hitem, rs, hout, hr⟩
  · rintro ⟨item, hitem, rs, hout, hr⟩
    exact List.mem_flatten.mpr ⟨rs, Items.mem_returned.mpr (hout ▸ List.mem_map_of_mem hitem), hr⟩

theorem refItem_reports (h : s.reports = s'.reports) (item : BatchItem) :
    refItem b viewDef features s item = refItem b viewDef features s' item := by
  unfold refItem
  rw [h]

theorem refResults_reports (h : s.reports = s'.reports) (items : List BatchItem) :
    refResults b viewDef features s items = refResults b viewDef features s' items := by
  unfold refResults
  rw [funext (refItem_reports h)]

theorem refItem_slots {item : BatchItem} {rs : List FeatureResult} (h : refItem b viewDef features s item = .ok rs) :
    ∃ key, itemKey viewDef item = .ok key ∧ (∀ r ∈ rs, r.entityKey = key) ∧
      (rs.map (FeatureResult.slot viewDef.name viewDef.viewVersion)).Nodup := by
  obtain ⟨key, hkey, h⟩ := bind_eq_ok.mp h
  obtain ⟨stamps, -, h⟩ := bind_eq_ok.mp h
  obtain ⟨w, hw, h⟩ := bind_eq_ok.mp h
  cases h
  obtain ⟨hn, _, _, hr⟩ := results_slots hw
  exact ⟨key, hkey, fun r hm => (hr r hm).2.1, hn⟩

theorem refResults_slots : ∀ {items : List BatchItem}, DistinctKeys viewDef items →
    ((refResults b viewDef features s items).map (FeatureResult.slot viewDef.name viewDef.viewVersion)).Nodup
  | [], _ => List.nodup_nil
  | item :: items, h => by
    obtain ⟨hitem, hitems⟩ := List.pairwise_cons.mp h
    have hrest := @refResults_slots items hitems
    unfold refResults at hrest ⊢
    rw [List.map_cons]
    cases hout : refItem b viewDef features s item with
    | error e => exact hrest
    | ok rs =>
      obtain ⟨key, hkey, hkeys, hn⟩ := refItem_slots hout
      rw [Items.returned, List.flatten_cons, List.map_append]
      refine List.nodup_append.mpr ⟨hn, hrest, fun slot hm slot' hm' he => ?_⟩
      obtain ⟨r, hr, rfl⟩ := List.mem_map.mp hm
      obtain ⟨r', hr', rfl⟩ := List.mem_map.mp hm'
      obtain ⟨item', hm, rs', hout', hr'⟩ := mem_refResults.mp hr'
      obtain ⟨key', hkey', hkeys', -⟩ := refItem_slots hout'
      -- the slots name their entities
      have hkeyEq : r.entityKey = r'.entityKey := EntityKey.eq_of_encode (congrArg FeatureSlot.entity he)
      rw [hkeys r hr, hkeys' r' hr'] at hkeyEq
      exact hitem item' hm key hkey (hkeyEq ▸ hkey')

theorem refResults_calcTs {name : String} {version : Int} (hview : b.core.registry.findView name version = .ok viewDef)
    (hn : ∀ f ∈ features, NoBounds (featuresByName viewDef.features) f) (t : Int) (items : List BatchItem) :
    (refResults { b with chunkNow := t } viewDef features s items).map FeatureResult.timeless =
      (refResults b viewDef features s items).map FeatureResult.timeless := by
  unfold refResults
  rw [List.map_flatten, List.map_flatten, ← Items.returned_map, ← Items.returned_map, List.map_map, List.map_map]
  have hitems := List.map_congr_left (l := items) fun item _ => refItem_calcTs hview hn t s item
  exact congrArg (fun outs => (Items.returned outs).flatten) hitems

end

/-! ## Attempts -/

/-- What a worker handles items with at another time, with another refresh budget. -/
def BatchBackend.during (b : BatchBackend) (now : Int) (budget : List FeatureResult → List FeatureResult) : BatchBackend :=
  { b with chunkNow := now, withinBudget := budget }

/-- The surroundings of an attempt at items that refer to reports. Calls may raise at any time; of an append that raises
the first `kept` rows stay. -/
def attemptEnv (b : BatchBackend) (kept : Nat) :
    Env (RunnerCall BatchRecord Unit BatchOwn) (RunnerCall.Ans BatchOwn.Ans) BatchStores where
  may s
    | .own (.plan event), x => x = b.planned event
    | .own (.computeItem viewDef features item), x =>
      x = refItem b viewDef features s item ∨ ∃ e, x = .error e ∧ e.isDeterministic = false
    | _, _ => True
  after s
    | .own (.appendNew view viewVersion results), .error _ =>
      let new := (partitionNewResults s.stores.offline view viewVersion results).1
      { s with stores := { s.stores with offline := s.stores.offline.appendMany view viewVersion (new.take kept) } }
    | .own (.refreshOnline _ _ _), .error _ | .publish _ _ _ _, .error _ => s
    | c, _ => s.act b c

/-- An attempt, stopped somewhere or not. -/
def Attempted (b : BatchBackend) (event : BatchChunkRequested) (s s' : BatchStores) : Prop :=
  ∃ now budget kept, Stops (attemptEnv (b.during now budget) kept) s (Batch.handleBatchChunk event) s'

section
variable {b : BatchBackend} {viewDef : FeatureViewDef} {features : List String} {kept : Nat} {inv : BatchStores → Prop}
  {s : BatchStores}

theorem itemLoop_always (hs : inv s) : ∀ (items : List BatchItem) (t : Batch.ChunkTally),
    Always (attemptEnv b kept) inv s (Batch.itemLoop (Batch.computeItem viewDef features) items t) fun s' out =>
      s' = s ∧ ∀ t', out = .ok t' → t'.results = t.results ++ refResults b viewDef features s items
  | [], t => by
    refine ⟨hs, rfl, fun t' h => ?_⟩
    cases h
    exact (List.append_nil _).symm
  | item :: items, t => by
    rw [Batch.itemLoop, always_ask_bind]
    refine ⟨hs, fun x hx => ?_⟩
    change Always _ inv s _ _
    cases x with
    | ok rs =>
      have hout : refItem b viewDef features s item = .ok rs := by
        rcases hx with hx | ⟨e, he, -⟩
        · exact hx.symm
        · cases he
      refine (itemLoop_always hs items (t.ok rs)).mono fun s' out h => ⟨h.1, fun t' ht' => ?_⟩
      rw [h.2 t' ht', refResults, refResults, List.map_cons, hout]
      exact List.append_assoc _ _ _
    | error e =>
      dsimp only
      by_cases he : e.isDeterministic = true
      · have hout : refItem b viewDef features s item = .error e := by
          rcases hx with hx | ⟨e', he', hinfra⟩
          · exact hx.symm
          · cases he'
            rw [he] at hinfra
            cases hinfra
        rw [if_pos he]
        refine (itemLoop_always hs items (t.failed e.msg)).mono fun s' out h => ⟨h.1, fun t' ht' => ?_⟩
        rw [h.2 t' ht', refResults, refResults, List.map_cons, hout]
        rfl
      · rw [if_neg he]
        exact ⟨hs, rfl, fun t' h => by cases h⟩

theorem publishFeatureUpdates_always (hpush : ∀ s record, inv s → inv (s.push record)) : ∀ (events : List FeatureUpdated)
    {s : BatchStores}, inv s →
    Always (attemptEnv b kept) inv s (publishFeatureUpdates BatchRecord.updated events) fun s' out =>
      inv s' ∧ s'.stores = s.stores ∧ s'.reports = s.reports ∧
        (out = .ok () → s'.records = s.records ++ events.map BatchRecord.updated)
  | [], s, hs => ⟨hs, hs, rfl, rfl, fun _ => (List.append_nil _).symm⟩
  | event :: events, s, hs => by
    rw [publishFeatureUpdates]
    cases event.entity.encoded with
    | error e => exact ⟨hs, hs, rfl, rfl, fun h => by cases h⟩
    | ok key =>
      dsimp only
      rw [always_ask_bind]
      refine ⟨hs, fun x _ => ?_⟩
      cases x with
      | error e => exact ⟨hs, hs, rfl, rfl, fun h => by cases h⟩
      | ok u =>
        change Always _ inv (s.push (.updated event)) _ _
        refine (publishFeatureUpdates_always hpush events (hpush s _ hs)).mono fun s' out h => ?_
        obtain ⟨hinv, hstores, hreports, hrecords⟩ := h
        refine ⟨hinv, hstores, hreports, fun hout => ?_⟩
        rw [hrecords hout, List.map_cons]
        exact List.append_assoc s.records [.updated event] _

theorem emitUpdates_always (hpush : ∀ s record, inv s → inv (s.push record)) (hs : inv s) (results : List FeatureResult) :
    Always (attemptEnv b kept) inv s (Batch.emitUpdates viewDef results) fun s' out =>
      inv s' ∧ s'.stores = s.stores ∧ s'.reports = s.reports ∧ ∀ n, out = .ok n →
        s'.records = s.records ++ (buildFeatureUpdatedEvents viewDef results viewDef.entity .batchWorker).map .updated := by
  unfold Batch.emitUpdates emitFeatureUpdates
  refine always_bind ((publishFeatureUpdates_always hpush _ hs).mono fun s' out h => ?_)
  obtain ⟨hinv, hstores, hreports, hrecords⟩ := h
  cases out with
  | error e => exact ⟨hinv, hinv, hstores, hreports, fun n h => by cases h⟩
  | ok u => exact ⟨hinv, hinv, hstores, hreports, fun n _ => hrecords rfl⟩

end

/-! ## The history between attempts -/

section
variable (b : BatchBackend) (viewDef : FeatureViewDef) (features : List String) (items : List BatchItem)
  (start : BatchStores)

/-- What the chunk has to append, up to times. -/
def newRows : List FeatureResult :=
  (partitionNewResults start.stores.offline.timeless viewDef.name viewDef.viewVersion
    ((refResults b viewDef features start items).map FeatureResult.timeless)).1

/-- The history with the first `i` of the rows to append. -/
def historyWith (i : Nat) : OfflineStore :=
  start.stores.offline.timeless ++
    ((newRows b viewDef features items start).take i).map fun r => ⟨viewDef.name, viewDef.viewVersion, r⟩

def completeHistory : OfflineStore :=
  start.stores.offline.timeless ++
    (newRows b viewDef features items start).map fun r => ⟨viewDef.name, viewDef.viewVersion, r⟩

/-- Reports are as they were, and of the rows to append the first few are there. -/
structure Between (s : BatchStores) : Prop where
  reports : s.reports = start.reports
  appended : ∃ i, s.stores.offline.timeless = historyWith b viewDef features items start i

variable {b viewDef features items start} {s : BatchStores}

theorem Between.self : Between b viewDef features items start start :=
  ⟨rfl, 0, (List.append_nil _).symm⟩

theorem Between.of_offline {s' : BatchStores} (h : Between b viewDef features items start s)
    (hreports : s'.reports = s.reports) (hoffline : s'.stores.offline = s.stores.offline) :
    Between b viewDef features items start s' :=
  ⟨hreports.trans h.reports, hoffline ▸ h.appended⟩

/-- Whatever part of its new rows an attempt appends, they are the next ones of the chunk. -/
theorem Between.append (h : Between b viewDef features items start s) {name : String} {version : Int}
    (hview : b.core.registry.findView name version = .ok viewDef)
    (hn : ∀ f ∈ features, NoBounds (featuresByName viewDef.features) f) (hkeys : DistinctKeys viewDef items) (now : Int)
    (budget : List FeatureResult → List FeatureResult) :
    let new := (partitionNewResults s.stores.offline viewDef.name viewDef.viewVersion
      (refResults (b.during now budget) viewDef features s items)).1
    ∃ i, historyWith b viewDef features items start (i + new.length) = completeHistory b viewDef features items start ∧
      ∀ j, (s.stores.offline.appendMany viewDef.name viewDef.viewVersion (new.take j)).timeless =
        historyWith b viewDef features items start (i + j) := by
  intro new
  obtain ⟨i, hi⟩ := h.appended
  have hresults : (refResults (b.during now budget) viewDef features s items).map FeatureResult.timeless =
      (refResults b viewDef features start items).map FeatureResult.timeless := by
    rw [refResults_reports h.reports]
    exact refResults_calcTs hview hn now items
  have hslots : (((refResults b viewDef features start items).map FeatureResult.timeless).map
      (FeatureResult.slot viewDef.name viewDef.viewVersion)).Nodup := by
    rw [List.map_map]
    exact refResults_slots hkeys
  have hnew : new.map FeatureResult.timeless = (newRows b viewDef features items start).drop i := by
    have hpartition := partitionLoop_timeless s.stores.offline viewDef.name viewDef.viewVersion
      (refResults (b.during now budget) viewDef features s items) []
    rw [hresults, hi] at hpartition
    exact hpartition.symm.trans (partition_rerun start.stores.offline.timeless _ i hslots)
  have hlength : new.length = (newRows b viewDef features items start).length - i := by
    have h := congrArg List.length hnew
    rwa [List.length_map, List.length_drop] at h
  refine ⟨i, ?_, fun j => ?_⟩
  · rw [historyWith, completeHistory, List.take_of_length_le (by omega)]
  rw [appendMany_timeless, hi, List.map_take, hnew, historyWith, historyWith, List.append_assoc, ← List.map_append,
    ← List.take_add]

end

section
variable {b : BatchBackend} {viewDef : FeatureViewDef} {features : List String} {start s : BatchStores}
  {event : BatchChunkRequested} {kept : Nat} {name : String} {version : Int} {now : Int}
  {budget : List FeatureResult → List FeatureResult}

/-- What follows the append leaves the history alone and announces every result. -/
theorem announce_always (hs : Between b viewDef features event.items start s) (t : Batch.ChunkTally) :
    Always (attemptEnv (b.during now budget) kept) (Between b viewDef features event.items start) s
      (do
        match ← Batch.emitUpdates viewDef t.results with
        | .error e => return .error e
        | .ok _ =>
          if event.writeOnline then
            match ← Batch.refreshOnline viewDef.name viewDef.viewVersion t.results with
            | .error e => return .error e
            | .ok () => return .ok t
          else return .ok t : Batch.Program (Except PyErr Batch.ChunkTally)) fun s' out =>
        Between b viewDef features event.items start s' ∧ ∀ t', out = .ok t' →
          s'.stores.offline = s.stores.offline ∧ s'.records = s.records ++
            (buildFeatureUpdatedEvents viewDef t.results viewDef.entity .batchWorker).map .updated := by
  refine always_bind ((emitUpdates_always (fun s record h => h.of_offline rfl rfl) hs t.results).mono fun s₁ out h => ?_)
  obtain ⟨hs₁, hstores, -, hrecords⟩ := h
  cases out with
  | error e => exact ⟨hs₁, hs₁, fun t h => (nomatch h)⟩
  | ok n =>
    have hdone := And.intro (congrArg StoreState.offline hstores) (hrecords n rfl)
    dsimp only
    by_cases hon : event.writeOnline = true
    · rw [if_pos hon, always_ask_bind]
      refine ⟨hs₁, fun x _ => ?_⟩
      cases x with
      | error e => exact ⟨hs₁, hs₁, fun t h => (nomatch h)⟩
      | ok u =>
        have hs₂ : Between b viewDef features event.items start ((attemptEnv (b.during now budget) kept).after s₁
            (.own (.refreshOnline viewDef.name viewDef.viewVersion t.results)) (.ok u)) := hs₁.of_offline rfl rfl
        exact ⟨hs₂, hs₂, fun _ _ => hdone⟩
    · rw [if_neg hon]
      exact ⟨hs₁, hs₁, fun _ _ => hdone⟩

theorem computeRefChunk_always (hview : b.core.registry.findView name version = .ok viewDef)
    (hn : ∀ f ∈ features, NoBounds (featuresByName viewDef.features) f) (hkeys : DistinctKeys viewDef event.items)
    (hs : Between b viewDef features event.items start s) :
    Always (attemptEnv (b.during now budget) kept) (Between b viewDef features event.items start) s
      (Batch.computeRefChunk event viewDef features) fun s' out =>
        Between b viewDef features event.items start s' ∧ ∀ t, out = .ok t →
          s'.stores.offline.timeless = completeHistory b viewDef features event.items start ∧
          s'.records = s.records ++ (buildFeatureUpdatedEvents viewDef
            (refResults (b.during now budget) viewDef features start event.items) viewDef.entity .batchWorker).map .updated := by
  unfold Batch.computeRefChunk
  refine always_bind ((itemLoop_always hs event.items {}).mono fun s' out h => ?_)
  obtain ⟨rfl, hresults⟩ := h
  cases out with
  | error e => exact ⟨hs, hs, fun t h => (nomatch h)⟩
  | ok t =>
    have ht : t.results = refResults (b.during now budget) viewDef features s' event.items := hresults t rfl
    dsimp only
    rw [always_ask_bind]
    refine ⟨hs, fun x _ => ?_⟩
    obtain ⟨i, hall, happend⟩ := hs.append hview hn hkeys now budget
    rw [← ht] at hall happend
    cases x with
    | error e =>
      have hafter : Between b viewDef features event.items start ((attemptEnv (b.during now budget) kept).after s'
          (.own (.appendNew viewDef.name viewDef.viewVersion t.results)) (.error e)) := ⟨hs.reports, _, happend kept⟩
      exact ⟨hafter, hafter, fun t h => (nomatch h)⟩
    | ok u =>
      have happended := happend (partitionNewResults s'.stores.offline viewDef.name viewDef.viewVersion t.results).1.length
      rw [List.take_length] at happended
      have hafter : Between b viewDef features event.items start ((attemptEnv (b.during now budget) kept).after s'
          (.own (.appendNew viewDef.name viewDef.viewVersion t.results)) (.ok u)) := ⟨hs.reports, _, happended⟩
      refine (announce_always hafter t).mono fun s₁ out h => ⟨h.1, fun t' ht' => ?_⟩
      obtain ⟨hoffline, hrecords⟩ := h.2 t' ht'
      rw [ht, refResults_reports hs.reports] at hrecords
      exact ⟨(congrArg OfflineStore.timeless hoffline).trans (happended.trans hall), hrecords⟩

theorem handleBatchChunk_always (hplan : b.planned event = .ok (viewDef, features)) (href : Batch.isRefChunk event = true)
    (hn : ∀ f ∈ features, NoBounds (featuresByName viewDef.features) f) (hkeys : DistinctKeys viewDef event.items)
    (hs : Between b viewDef features event.items start s) :
    Always (attemptEnv (b.during now budget) kept) (Between b viewDef features event.items start) s
      (Batch.handleBatchChunk event) fun s' out => out = .ok .ok →
        s'.stores.offline.timeless = completeHistory b viewDef features event.items start ∧
        ∃ t, s'.records = s.records ++ (buildFeatureUpdatedEvents viewDef
            (refResults (b.during now budget) viewDef features start event.items) viewDef.entity .batchWorker).map .updated ++
          [.processed (Batch.processedEvent event t)] := by
  have hview : b.core.registry.findView event.view event.viewVersion = .ok viewDef := by
    obtain ⟨out, hout, h⟩ := bind_eq_ok.mp hplan
    cases h
    obtain ⟨v, hv, h⟩ := bind_eq_ok.mp hout
    obtain ⟨plan, -, h⟩ := bind_eq_ok.mp h
    cases h
    exact hv
  rw [Batch.handleBatchChunk, always_ask_bind]
  refine ⟨hs, fun x hx => ?_⟩
  change Always _ _ s _ _
  have hx : x = .ok (viewDef, features) := Eq.trans hx hplan
  subst hx
  dsimp only
  rw [if_pos href]
  refine always_bind ((computeRefChunk_always hview hn hkeys hs).mono fun s' out h => ?_)
  obtain ⟨hs', hdone⟩ := h
  cases out with
  | error e => exact ⟨hs', fun h => by cases h⟩
  | ok t =>
    obtain ⟨hhistory, hrecords⟩ := hdone t rfl
    dsimp only
    rw [always_ask_bind]
    refine ⟨hs', fun x _ => ?_⟩
    cases x with
    | error e => exact ⟨hs', fun h => by cases h⟩
    | ok u => exact ⟨hs'.of_offline rfl rfl, fun _ => ⟨hhistory, t, congrArg (· ++ _) hrecords⟩⟩

theorem between_of_attempts (hplan : b.planned event = .ok (viewDef, features)) (href : Batch.isRefChunk event = true)
    (hn : ∀ f ∈ features, NoBounds (featuresByName viewDef.features) f) (hkeys : DistinctKeys viewDef event.items)
    (h : Relation.ReflTransGen (Attempted b event) start s) : Between b viewDef features event.items start s := by
  induction h with
  | refl => exact Between.self
  | tail _ hattempt ih =>
    obtain ⟨now, budget, kept, hstops⟩ := hattempt
    exact hstops.always (handleBatchChunk_always hplan href hn hkeys ih)

end

/-! ## Complete attempts -/

def HasReactiveDependents (viewDef : FeatureViewDef) (name : String) : Prop :=
  ∃ f ∈ viewDef.features, ∃ d ∈ f.deps, d.propagation = .reactive ∧ d.feature = name

theorem mem_featuresWithReactiveDependents {viewDef : FeatureViewDef} {name : String} :
    name ∈ featuresWithReactiveDependents viewDef ↔ HasReactiveDependents viewDef name := by
  unfold featuresWithReactiveDependents reactiveEdges HasReactiveDependents
  constructor
  · intro h
    obtain ⟨e, he, rfl⟩ := List.mem_map.mp h
    obtain ⟨f, hf, he⟩ := List.mem_flatMap.mp he
    obtain ⟨d, hd, rfl⟩ := List.mem_map.mp he
    obtain ⟨hd, hreactive⟩ := List.mem_filter.mp hd
    exact ⟨f, hf, d, hd, of_decide_eq_true hreactive, rfl⟩
  · rintro ⟨f, hf, d, hd, hreactive, rfl⟩
    refine List.mem_map.mpr ⟨(d.feature, f, d), List.mem_flatMap.mpr ⟨f, hf, List.mem_map.mpr ⟨d, ?_, rfl⟩⟩, rfl⟩
    exact List.mem_filter.mpr ⟨hd, decide_eq_true hreactive⟩

theorem answer_may (b : BatchBackend) (kept : Nat) (s : BatchStores) (c : RunnerCall BatchRecord Unit BatchOwn) :
    (attemptEnv b kept).may s c (s.answer b c) := by
  cases c with
  | own c =>
    cases c with
    | plan event => exact rfl
    | computeItem viewDef features item => exact .inl rfl
    | _ => trivial
  | _ => trivial

/-- Undisturbed, an attempt at a chunk without infrastructure errors is complete. -/
theorem exists_complete {b : BatchBackend} {event : BatchChunkRequested} {viewDef : FeatureViewDef} {features : List String}
    {s : BatchStores} (hplan : b.planned event = .ok (viewDef, features)) (kept : Nat)
    (herrors : ∀ e ∈ chunkErrors b event viewDef features s, e.isDeterministic = true) :
    ∃ s', Returns (attemptEnv b kept) s (Batch.handleBatchChunk event) s' (.ok .ok) := by
  have hserving : (attemptEnv b kept).serving (BatchStores.answer b) = b.service := by
    refine congrArg (Service.mk · _) (funext fun s => funext fun c => ?_)
    cases c with
    | own c => cases c <;> rfl
    | _ => rfl
  have hreturns := returns_serving (answer_may b kept) (Batch.handleBatchChunk event) s
  obtain ⟨done, t, -, -, hdone, -⟩ := (chunk_isolated_iff hplan).mpr herrors
  rw [hserving, hdone] at hreturns
  exact ⟨_, hreturns⟩

/-! ## Earlier attempts do not show -/

def lastChunk : BatchChunkRequested :=
  { ratioChunk [ratioItem "1" "rep_b", ratioItem "2" "rep_late"] with requestedFeatures := ["last"] }

/-- Where the first append breaks off after a row. -/
def brokenAppend (s : BatchStores) :
    (c : RunnerCall BatchRecord Unit BatchOwn) → RunnerCall.Ans BatchOwn.Ans c
  | .own (.appendNew _ _ _) => .error (.other "ConnectionError" "server closed the connection")
  | c => s.answer ratioBackend c

/-- What the first attempt at `lastChunk` leaves. -/
def afterBrokenAppend : BatchStores :=
  (exec ((attemptEnv ratioBackend 1).serving brokenAppend) ratioStores (Batch.handleBatchChunk lastChunk)).1

theorem aborted_attempts_hidden (b : BatchBackend) (event : BatchChunkRequested) (viewDef : FeatureViewDef)
    (features : List String) (hplan : b.planned event = .ok (viewDef, features)) (href : Batch.isRefChunk event = true)
    (hkeys : DistinctKeys viewDef event.items) (hbounds : ∀ f ∈ features, NoBounds (featuresByName viewDef.features) f)
    (start stopped done single : BatchStores) (hattempts : Relation.ReflTransGen (Attempted b event) start stopped)
    (now now' : Int) (budget budget' : List FeatureResult → List FeatureResult) (kept kept' : Nat)
    (hdone : Returns (attemptEnv (b.during now budget) kept) stopped (Batch.handleBatchChunk event) done (.ok .ok))
    (hsingle : Returns (attemptEnv (b.during now' budget') kept') start (Batch.handleBatchChunk event) single (.ok .ok)) :
    done.stores.offline.timeless = single.stores.offline.timeless ∧
    ∃ emitted, done.records = stopped.records ++ emitted ∧
      ∀ r ∈ refResults (b.during now budget) viewDef features start event.items,
        HasReactiveDependents viewDef r.ref.name →
          .updated (featureUpdatedOf viewDef viewDef.entity .batchWorker r) ∈ emitted := by
  have hbetween := between_of_attempts hplan href hbounds hkeys hattempts
  obtain ⟨hhistory, t, hrecords⟩ := hdone.always (handleBatchChunk_always hplan href hbounds hkeys hbetween) rfl
  obtain ⟨hhistory', -⟩ := hsingle.always (handleBatchChunk_always hplan href hbounds hkeys Between.self) rfl
  refine ⟨hhistory.trans hhistory'.symm, _, hrecords.trans (List.append_assoc _ _ _), fun r hr hreactive => ?_⟩
  refine List.mem_append_left _ (List.mem_map_of_mem (List.mem_map_of_mem (List.mem_filter.mpr ⟨hr, ?_⟩)))
  exact decide_eq_true (mem_featuresWithReactiveDependents.mpr hreactive)

/-- A row is there after the first attempt; the second attempt, at another time, announces two. -/
theorem last_attempts_hidden : afterBrokenAppend.stores.offline.length = 1 ∧ ∃ done single : BatchStores,
    done.stores.offline.timeless = single.stores.offline.timeless ∧
    ∃ emitted, done.records = afterBrokenAppend.records ++ emitted ∧
      ∀ r ∈ refResults (ratioBackend.during 40 id) ratioView ["last"] ratioStores lastChunk.items,
        HasReactiveDependents ratioView r.ref.name →
          .updated (featureUpdatedOf ratioView ratioView.entity .batchWorker r) ∈ emitted := by
  have hplan : ratioBackend.planned lastChunk = .ok (ratioView, ["last"]) := by decide +kernel
  have hbounds : ∀ f ∈ ["last"], NoBounds (featuresByName ratioView.features) f :=
    fun f _ => NoBounds.of_view (by decide) f
  have hkeys : DistinctKeys ratioView lastChunk.items := by
    have h₁ : itemKey ratioView (ratioItem "1" "rep_b") = .ok userKey := by decide +kernel
    have h₂ : itemKey ratioView (ratioItem "2" "rep_late") ≠ .ok userKey := by decide +kernel
    refine List.pairwise_pair.mpr fun key hkey => ?_
    cases h₁.symm.trans hkey
    exact h₂
  have hmay : ∀ s c, (attemptEnv ratioBackend 1).may s c (brokenAppend s c) := by
    intro s c
    cases c with
    | own c =>
      cases c with
      | appendNew view viewVersion results => trivial
      | _ => exact answer_may ratioBackend 1 s _
    | _ => exact answer_may ratioBackend 1 s _
  have hattempt : Attempted ratioBackend lastChunk ratioStores afterBrokenAppend :=
    ⟨30, id, 1, (returns_serving hmay (Batch.handleBatchChunk lastChunk) ratioStores).stops⟩
  have hattempts := Relation.ReflTransGen.single hattempt
  obtain ⟨done, hdone⟩ := @exists_complete (ratioBackend.during 40 id) lastChunk ratioView ["last"] afterBrokenAppend
    hplan 0 (by decide +kernel)
  obtain ⟨single, hsingle⟩ := @exists_complete (ratioBackend.during 30 id) lastChunk ratioView ["last"] ratioStores
    hplan 0 (by decide +kernel)
  exact ⟨by decide +kernel, done, single, aborted_attempts_hidden ratioBackend lastChunk ratioView ["last"] hplan rfl hkeys
    hbounds ratioStores afterBrokenAppend done single hattempts 40 30 id id 0 0 hdone hsingle⟩

end ClearFeature
