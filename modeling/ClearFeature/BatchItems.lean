import ClearFeature.BatchJobs
import ClearFeature.BatchRunner
import ClearFeature.Lib.Items
import ClearFeature.RawWrites

/-!
# One item of a chunk (`api/batch_worker.py`, `api/direct_compute.py`)

An item that refers to landed reports is computed from them. An inline item
first stores its sources as reports of its own, and is computed through an
overlay that serves just these.
-/

namespace ClearFeature

/-- `InlineSource`, once it is validated. -/
structure InlineSource where
  reportType : String
  reportTs : Int
  payload : Value
  availableAt : Option Int := none

/-- What a worker handles items with. `uuidHex` is what `uuid4().hex` returns for a source of an item, `itemNow` the clock
at an inline item, `chunkNow` at the start of a chunk; `withinBudget` are the results that the refresh budget lets
through. -/
structure BatchBackend where
  core : ComputeCore
  raw : RawBackend
  inlineSource : Value → Except PyErr InlineSource
  uuidHex : BatchItem → String → String
  itemNow : BatchItem → Int
  chunkNow : Int
  withinBudget : List FeatureResult → List FeatureResult

structure BatchStores where
  stores : StoreState := {}
  reports : ReportResolver
  records : List BatchRecord := []

def itemKey (viewDef : FeatureViewDef) (item : BatchItem) : Except PyErr EntityKey := do
  let parts ← viewDef.keyFields.mapM fun name =>
    match Dict.get? item.entityKey name with
    | some value => Except.ok (name, value)
    | none => Except.error (PyErr.keyError (reprStr name))
  EntityKey.fromMapping (dictOf parts) (some viewDef.keyFields)

def SourceStamp.make (reportTs : Int) (contentHash : String) (availableAt : Int) (source : AvailabilitySource) :
    Except PyErr SourceStamp :=
  if h : isBlank contentHash = false then .ok ⟨reportTs, contentHash, some availableAt, some source, h⟩
  else .error (.valueError "content_hash must be non-empty")

/-! ## Items that refer to reports -/

/-- Legacy rows fall back to their ingestion time. -/
def refStamps (repo : MetaRepository) : List (String × String) → Except PyErr SourceStamps
  | [] => .ok []
  | (sourceName, reportRef) :: refs => do
    let row ← repo.getMeta reportRef
    let stamp ← SourceStamp.make row.reportTs row.contentHash (row.availableAt.getD row.createdAt)
      (row.availabilitySource.getD .ingestionTime)
    let stamps ← refStamps repo refs
    return (sourceName, stamp) :: stamps

section
variable (b : BatchBackend) (viewDef : FeatureViewDef) (features : List String)

/-- The body of the loop of `_compute_ref_chunk`. -/
def refItem (s : BatchStores) (item : BatchItem) : Except PyErr (List FeatureResult) := do
  let entityKey ← itemKey viewDef item
  let sourceStamps ← refStamps s.reports.metaRepo item.sourceRefs
  let store : FeatureStore := ⟨b.core, s.reports⟩
  let writeSet ← store.computeWriteSet {
    view := viewDef.name
    viewVersion := viewDef.viewVersion
    entityKey
    requestedFeatures := features
    sourceRefs := item.sourceRefs
    sourceStamps
    calcTs := b.chunkNow } none
  return Dict.values writeSet.results

/-! ## Inline items -/

/-- What `persist_and_compute` keeps of the sources it has stored. -/
structure InlineOverlay where
  payloads : PayloadStore := []
  metas : List (String × RawReportMeta) := []
  sourceRefs : List (String × String) := []
  stamps : SourceStamps := []

def InlineOverlay.over (overlay : InlineOverlay) (reports : ReportResolver) : ReportResolver where
  payloadStore := overlay.payloads ++ reports.payloadStore
  metaRepo := { reports.metaRepo with metas := overlay.metas ++ reports.metaRepo.metas }

def inlineAvailability (source : InlineSource) (calcTs : Int) : Int × AvailabilitySource :=
  match source.availableAt with
  | some t => (t, .sourceProvided)
  | none => (calcTs, .ingestionTime)

def inlineMeta (entityKey : EntityKey) (item : BatchItem) (sourceName : String) (source : InlineSource) :
    Except PyErr RawReportMeta := do
  let reportRef := "rep_" ++ b.uuidHex item sourceName
  let serialized ← b.raw.serializePayload source.payload
  let (availableAt, availabilitySource) := inlineAvailability source (b.itemNow item)
  RawReportMeta.make {
    reportRef
    reportType := source.reportType
    entityType := viewDef.entity
    entityKey
    reportTs := source.reportTs
    payloadSizeBytes := serialized.length
    contentHash := b.raw.contentHash serialized
    storageUri := b.raw.makeStorageUri source.reportType reportRef source.reportTs
    createdAt := b.itemNow item
    format := b.raw.rawFormat
    compression := b.raw.rawCompression
    availableAt := some availableAt
    availabilitySource := some availabilitySource }

/-- The loop over the sources; the reports that were stored stay when a later source is refused. -/
def landInline (entityKey : EntityKey) (item : BatchItem) : List (String × InlineSource) → InlineOverlay →
    ReportResolver → ReportResolver × Except PyErr InlineOverlay
  | [], overlay, reports => (reports, .ok overlay)
  | (sourceName, source) :: sources, overlay, reports =>
    match inlineMeta b viewDef entityKey item sourceName source with
    | .error e => (reports, .error e)
    | .ok row =>
      let landed : ReportResolver := {
        payloadStore := reports.payloadStore.put row.storageUri source.payload
        metaRepo := { reports.metaRepo with metas := Dict.set reports.metaRepo.metas row.reportRef row } }
      let (availableAt, availabilitySource) := inlineAvailability source (b.itemNow item)
      match SourceStamp.make source.reportTs row.contentHash availableAt availabilitySource with
      | .error e => (landed, .error e)
      | .ok stamp =>
        landInline entityKey item sources {
          payloads := overlay.payloads.put row.storageUri source.payload
          metas := Dict.set overlay.metas row.reportRef row
          sourceRefs := Dict.set overlay.sourceRefs sourceName row.reportRef
          stamps := Dict.set overlay.stamps sourceName stamp } landed

def inlineSources : List (String × Value) → Except PyErr (List (String × InlineSource))
  | [] => .ok []
  | (sourceName, source) :: sources => do
    let parsed ← b.inlineSource source
    let rest ← inlineSources sources
    return (sourceName, parsed) :: rest

def inlineCall (entityKey : EntityKey) (item : BatchItem) (writeOnline : Bool) (overlay : InlineOverlay) : ComputeCall where
  view := viewDef.name
  viewVersion := viewDef.viewVersion
  entityKey
  requestedFeatures := features
  sourceRefs := overlay.sourceRefs
  sourceStamps := overlay.stamps
  calcTs := b.itemNow item
  writeOnline
  skipDuplicateOffline := true

/-- `persist_and_compute`; the stores are written once everything is computed. -/
def persistAndCompute (entityKey : EntityKey) (item : BatchItem) (sources : List (String × InlineSource))
    (writeOnline : Bool) (s : BatchStores) : BatchStores × Except PyErr (List FeatureResult) :=
  if sources.isEmpty then (s, .error (.valueError "inline_sources must not be empty"))
  else
    match landInline b viewDef entityKey item sources {} s.reports with
    | (reports, .error e) => ({ s with reports }, .error e)
    | (reports, .ok overlay) =>
      let store : FeatureStore := ⟨b.core, overlay.over reports⟩
      match store.compute (inlineCall b viewDef features entityKey item writeOnline overlay) s.stores with
      | .error e => ({ s with reports }, .error e)
      | .ok (outcome, stores) => ({ s with reports, stores }, .ok (Dict.values outcome.results))

/-- The body of the loop of `_compute_inline_chunk`. -/
def inlineItem (writeOnline : Bool) (s : BatchStores) (item : BatchItem) :
    BatchStores × Except PyErr (List FeatureResult) :=
  match itemKey viewDef item with
  | .error e => (s, .error e)
  | .ok entityKey =>
    match inlineSources b item.inlineSources with
    | .error e => (s, .error e)
    | .ok sources => persistAndCompute b viewDef features entityKey item sources writeOnline s

end

/-! ## A worker with its stores and the broker at hand -/

def appendNewResults (offline : OfflineStore) (view : String) (viewVersion : Int) (results : List FeatureResult) :
    OfflineStore :=
  offline.appendMany view viewVersion (partitionNewResults offline view viewVersion results).1

def BatchBackend.planned (b : BatchBackend) (event : BatchChunkRequested) :
    Except PyErr (FeatureViewDef × List String) := do
  let (viewDef, plan) ← planRequest b.core.registry event.view event.viewVersion event.requestedFeatures
    event.requestedFeatureGroups
  return (viewDef, plan.computeFeatures)

def BatchStores.push (s : BatchStores) (record : BatchRecord) : BatchStores := { s with records := s.records ++ [record] }

def BatchStores.act (b : BatchBackend) (s : BatchStores) : RunnerCall BatchRecord Unit BatchOwn → BatchStores
  | .publish _ _ record _ => s.push record
  | .own (.persistItem viewDef features item writeOnline) => (inlineItem b viewDef features writeOnline s item).1
  | .own (.appendNew view viewVersion results) =>
    { s with stores := { s.stores with offline := appendNewResults s.stores.offline view viewVersion results } }
  | .own (.refreshOnline view viewVersion results) =>
    { s with stores := { s.stores with
        online := (b.withinBudget results).foldl (fun online r => (online.write view viewVersion r).2) s.stores.online } }
  | _ => s

def BatchStores.answer (b : BatchBackend) (s : BatchStores) :
    (c : RunnerCall BatchRecord Unit BatchOwn) → RunnerCall.Ans BatchOwn.Ans c
  | .poll => none
  | .now => b.chunkNow
  | .commit _ | .publish _ _ _ _ | .statusPut _ _ => .ok ()
  | .statusRead _ _ => .ok none
  | .own .shouldPause => .ok false
  | .own .tryAcquire => .ok true
  | .own (.plan event) => b.planned event
  | .own (.computeItem viewDef features item) => refItem b viewDef features s item
  | .own (.persistItem viewDef features item writeOnline) => (inlineItem b viewDef features writeOnline s item).2
  | .own (.appendNew _ _ _) | .own (.refreshOnline _ _ _) => .ok ()

def BatchBackend.service (b : BatchBackend) :
    Prog.Service (RunnerCall BatchRecord Unit BatchOwn) (RunnerCall.Ans BatchOwn.Ans) BatchStores :=
  ⟨BatchStores.act b, BatchStores.answer b⟩

/-! ## Inline items and the reports of others -/

section
variable {b : BatchBackend} {viewDef : FeatureViewDef} {features : List String}

theorem dict_get?_append {K V : Type} [DecidableEq K] : ∀ (d₁ d₂ : List (K × V)) (k : K),
    Dict.get? (d₁ ++ d₂) k = (Dict.get? d₁ k).or (Dict.get? d₂ k)
  | [], d₂, k => rfl
  | (k', v) :: d₁, d₂, k => by
    rw [List.cons_append, Dict.get?_cons, Dict.get?_cons]
    by_cases h : k' = k
    · rw [if_pos h, if_pos h]
      rfl
    · rw [if_neg h, if_neg h]
      exact dict_get?_append d₁ d₂ k

/-- Every report that is referred to is in the overlay, with its payload. -/
def InlineOverlay.Complete (overlay : InlineOverlay) : Prop :=
  ∀ sourceName reportRef, Dict.get? overlay.sourceRefs sourceName = some reportRef →
    ∃ row payload, Dict.get? overlay.metas reportRef = some row ∧
      Dict.get? overlay.payloads row.storageUri = some payload

theorem InlineOverlay.Complete.add {overlay : InlineOverlay} (h : overlay.Complete) (sourceName : String)
    (row : RawReportMeta) (payload : Value) (stamps : SourceStamps) :
    InlineOverlay.Complete ⟨overlay.payloads.put row.storageUri payload, Dict.set overlay.metas row.reportRef row,
      Dict.set overlay.sourceRefs sourceName row.reportRef, stamps⟩ := by
  -- A payload that is there may be replaced, but does not go.
  have hput : ∀ uri, (Dict.get? overlay.payloads uri).isSome →
      ∃ p, Dict.get? (overlay.payloads.put row.storageUri payload) uri = some p := by
    intro uri hu
    unfold PayloadStore.put
    rw [Dict.get?_set]
    split
    · exact ⟨payload, rfl⟩
    · exact Option.isSome_iff_exists.mp hu
  have hown : ∃ p, Dict.get? (overlay.payloads.put row.storageUri payload) row.storageUri = some p :=
    ⟨payload, Dict.get?_set_self _ _ _⟩
  intro name reportRef href
  dsimp only at href ⊢
  rw [Dict.get?_set] at href ⊢
  by_cases hr : row.reportRef = reportRef
  · rw [if_pos hr]
    obtain ⟨p, hp⟩ := hown
    exact ⟨row, p, rfl, hp⟩
  · rw [if_neg hr]
    split at href
    · cases href
      exact absurd rfl hr
    · obtain ⟨old, p, hm, hp⟩ := h name reportRef href
      obtain ⟨p', hp'⟩ := hput old.storageUri (by rw [hp]; rfl)
      exact ⟨old, p', hm, hp'⟩

/-- What is landed before makes no difference to what an item keeps of its sources. -/
theorem landInline_overlay (entityKey : EntityKey) (item : BatchItem) :
    ∀ (sources : List (String × InlineSource)) (overlay : InlineOverlay) (reports reports' : ReportResolver),
      (landInline b viewDef entityKey item sources overlay reports).2 =
        (landInline b viewDef entityKey item sources overlay reports').2
  | [], overlay, reports, reports' => rfl
  | (sourceName, source) :: sources, overlay, reports, reports' => by
    unfold landInline
    cases inlineMeta b viewDef entityKey item sourceName source with
    | error e => rfl
    | ok row =>
      dsimp only
      cases SourceStamp.make source.reportTs row.contentHash (inlineAvailability source (b.itemNow item)).1
          (inlineAvailability source (b.itemNow item)).2 with
      | error e => rfl
      | ok stamp => exact landInline_overlay entityKey item sources _ _ _

theorem landInline_complete (entityKey : EntityKey) (item : BatchItem) :
    ∀ (sources : List (String × InlineSource)) (overlay : InlineOverlay) (reports : ReportResolver)
      {out : InlineOverlay}, overlay.Complete →
      (landInline b viewDef entityKey item sources overlay reports).2 = .ok out → out.Complete
  | [], overlay, reports, out, hc, h => by
    cases h
    exact hc
  | (sourceName, source) :: sources, overlay, reports, out, hc, h => by
    unfold landInline at h
    cases hm : inlineMeta b viewDef entityKey item sourceName source with
    | error e =>
      rw [hm] at h
      cases h
    | ok row =>
      rw [hm] at h
      dsimp only at h
      cases hs : SourceStamp.make source.reportTs row.contentHash (inlineAvailability source (b.itemNow item)).1
          (inlineAvailability source (b.itemNow item)).2 with
      | error e =>
        rw [hs] at h
        cases h
      | ok stamp =>
        rw [hs] at h
        exact landInline_complete entityKey item sources _ _ (hc.add sourceName row source.payload _) h

/-- A complete overlay serves its item alike over all reports. -/
theorem InlineOverlay.Complete.loader {overlay : InlineOverlay} (h : overlay.Complete) (reports reports' : ReportResolver)
    (types : Option (List (String × String))) :
    (overlay.over reports).makeSourceLoader overlay.sourceRefs types =
      (overlay.over reports').makeSourceLoader overlay.sourceRefs types := by
  funext sourceName
  unfold ReportResolver.makeSourceLoader
  cases hr : Dict.get? overlay.sourceRefs sourceName with
  | none => rfl
  | some reportRef =>
    obtain ⟨row, payload, hm, hp⟩ := h sourceName reportRef hr
    have hrow : ∀ reports : ReportResolver, (overlay.over reports).metaRepo.getMeta reportRef = .ok row := by
      intro reports
      unfold MetaRepository.getMeta InlineOverlay.over
      dsimp only
      rw [dict_get?_append, hm]
      rfl
    have hpayload : ∀ reports : ReportResolver,
        (overlay.over reports).payloadStore.getPayload row.storageUri = .ok payload := by
      intro reports
      unfold PayloadStore.getPayload InlineOverlay.over
      dsimp only
      rw [dict_get?_append, hp]
      rfl
    dsimp only
    rw [hrow, hrow]
    dsimp only
    rw [hpayload, hpayload]

theorem InlineOverlay.Complete.compute {overlay : InlineOverlay} (h : overlay.Complete) (reports reports' : ReportResolver)
    (core : ComputeCore) {call : ComputeCall} (hc : call.sourceRefs = overlay.sourceRefs) (s : StoreState) :
    FeatureStore.compute ⟨core, overlay.over reports⟩ call s = FeatureStore.compute ⟨core, overlay.over reports'⟩ call s := by
  have hw : FeatureStore.computeWriteSet ⟨core, overlay.over reports⟩ call none =
      FeatureStore.computeWriteSet ⟨core, overlay.over reports'⟩ call none := by
    unfold FeatureStore.computeWriteSet FeatureStore.loaderOf FeatureStore.expectedTypes
    dsimp only [Option.getD]
    rw [hc, h.loader reports reports']
  unfold FeatureStore.compute
  rw [hw]

def BatchStores.Same (s s' : BatchStores) : Prop := s.stores = s'.stores ∧ s.records = s'.records

theorem persistAndCompute_same {s s' : BatchStores} (hs : s.Same s') (entityKey : EntityKey) (item : BatchItem)
    (sources : List (String × InlineSource)) (writeOnline : Bool) :
    (persistAndCompute b viewDef features entityKey item sources writeOnline s).1.Same
      (persistAndCompute b viewDef features entityKey item sources writeOnline s').1 ∧
    (persistAndCompute b viewDef features entityKey item sources writeOnline s).2 =
      (persistAndCompute b viewDef features entityKey item sources writeOnline s').2 := by
  have hover : (landInline b viewDef entityKey item sources {} s.reports).2 =
      (landInline b viewDef entityKey item sources {} s'.reports).2 := landInline_overlay entityKey item sources {} _ _
  have hcomplete : ∀ {out : InlineOverlay}, (landInline b viewDef entityKey item sources {} s.reports).2 = .ok out →
      out.Complete := landInline_complete entityKey item sources {} _ fun _ _ h => (nomatch h)
  unfold persistAndCompute
  split
  · exact ⟨hs, rfl⟩
  · rcases hl : landInline b viewDef entityKey item sources {} s.reports with ⟨reports, e | overlay⟩
    · rw [hl] at hover
      rcases hl' : landInline b viewDef entityKey item sources {} s'.reports with ⟨reports', out⟩
      rw [hl'] at hover
      cases hover
      exact ⟨hs, rfl⟩
    · rw [hl] at hover hcomplete
      rcases hl' : landInline b viewDef entityKey item sources {} s'.reports with ⟨reports', out⟩
      rw [hl'] at hover
      cases hover
      dsimp only
      rw [(hcomplete rfl).compute reports reports' b.core rfl, hs.1]
      cases FeatureStore.compute ⟨b.core, overlay.over reports'⟩
          (inlineCall b viewDef features entityKey item writeOnline overlay) s'.stores with
      | error e => exact ⟨⟨rfl, hs.2⟩, rfl⟩
      | ok out => exact ⟨⟨rfl, hs.2⟩, rfl⟩

theorem persistAndCompute_raises {s : BatchStores} {entityKey : EntityKey} {item : BatchItem}
    {sources : List (String × InlineSource)} {writeOnline : Bool} {e : PyErr}
    (h : (persistAndCompute b viewDef features entityKey item sources writeOnline s).2 = .error e) :
    s.Same (persistAndCompute b viewDef features entityKey item sources writeOnline s).1 := by
  unfold persistAndCompute at h ⊢
  split
  · exact ⟨rfl, rfl⟩
  · rename_i hne
    rw [if_neg hne] at h
    rcases hl : landInline b viewDef entityKey item sources {} s.reports with ⟨reports, e' | overlay⟩
    · exact ⟨rfl, rfl⟩
    · rw [hl] at h
      dsimp only at h ⊢
      cases hc : FeatureStore.compute ⟨b.core, overlay.over reports⟩
          (inlineCall b viewDef features entityKey item writeOnline overlay) s.stores with
      | error e' => exact ⟨rfl, rfl⟩
      | ok out =>
        rw [hc] at h
        cases h

theorem inlineItem_isolated (writeOnline : Bool) :
    Items.Isolated (inlineItem b viewDef features writeOnline) BatchStores.Same := by
  have hsame : ∀ {s s' : BatchStores} (item : BatchItem), s.Same s' →
      (inlineItem b viewDef features writeOnline s item).1.Same (inlineItem b viewDef features writeOnline s' item).1 ∧
      (inlineItem b viewDef features writeOnline s item).2 = (inlineItem b viewDef features writeOnline s' item).2 := by
    intro s s' item hs
    unfold inlineItem
    split
    · exact ⟨hs, rfl⟩
    · split
      · exact ⟨hs, rfl⟩
      · exact persistAndCompute_same hs _ _ _ _
  refine ⟨fun s => ⟨rfl, rfl⟩, fun h h' => ⟨h.1.trans h'.1, h.2.trans h'.2⟩, fun item hs => (hsame item hs).1,
    fun item hs => (hsame item hs).2, fun {s s'} item e hs h => ?_⟩
  have hkeep : s'.Same (inlineItem b viewDef features writeOnline s' item).1 := by
    unfold inlineItem at h ⊢
    split
    · exact ⟨rfl, rfl⟩
    · rename_i hk
      rw [hk] at h
      dsimp only at h
      split
      · exact ⟨rfl, rfl⟩
      · rename_i hsrc
        rw [hsrc] at h
        exact persistAndCompute_raises h
  exact ⟨hs.1.trans hkeep.1, hs.2.trans hkeep.2⟩

end

end ClearFeature
