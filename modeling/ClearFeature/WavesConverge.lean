import ClearFeature.UpdateWaves

/-!
# What a wave leaves of a dependent

In the course of a wave either an update for the dependent is announced, or its
history holds what a recomputation would give.
-/

namespace ClearFeature

open Prog

/-! ## Rows and inputs -/

def Eligible (calcTs : Int) (rec : OfflineFeatureRecord) : Prop :=
  rec.result.dataTs ≤ calcTs ∧ effectiveAvailable rec.result ≤ calcTs

theorem Eligible.mono {t t' : Int} (ht : t ≤ t') {rec : OfflineFeatureRecord} (h : Eligible t rec) : Eligible t' rec :=
  ⟨h.1.trans ht, h.2.trans ht⟩

def latest (offline : OfflineStore) (slot : FeatureSlot) : Option OfflineFeatureRecord :=
  LastMax.lastMax pitKey (offline.rows slot)

theorem pitRow_eq_latest {offline : OfflineStore} {slot : FeatureSlot} {calcTs : Int}
    (h : ∀ rec ∈ offline.rows slot, Eligible calcTs rec) : pitRow (offline.rows slot) calcTs 0 = latest offline slot := by
  have hall : (offline.rows slot).filter (eligible calcTs 0) = offline.rows slot := by
    refine List.filter_eq_self.mpr fun rec hrec => ?_
    obtain ⟨hdata, havail⟩ := h rec hrec
    simp only [eligible, Int.sub_zero, Bool.and_eq_true, decide_eq_true_eq]
    exact ⟨hdata, havail⟩
  unfold pitRow latest
  rw [hall]

theorem rows_append_self (offline : OfflineStore) (rec : OfflineFeatureRecord) :
    OfflineStore.rows (offline ++ [rec]) rec.slot = offline.rows rec.slot ++ [rec] := by
  rw [OfflineStore.rows_append]
  simp [OfflineStore.rows]

theorem rows_append_other {offline : OfflineStore} {rec : OfflineFeatureRecord} {slot : FeatureSlot} (h : rec.slot ≠ slot) :
    OfflineStore.rows (offline ++ [rec]) slot = offline.rows slot := by
  rw [OfflineStore.rows_append]
  simp [OfflineStore.rows, h]

theorem latest_append {offline : OfflineStore} {slot : FeatureSlot} {y : OfflineFeatureRecord}
    (h : latest offline slot = some y) (rec : OfflineFeatureRecord) :
    ∃ y', latest (offline ++ [rec]) slot = some y' ∧ y.result.dataTs ≤ y'.result.dataTs := by
  unfold latest at h ⊢
  by_cases hs : rec.slot = slot
  · subst hs
    rw [rows_append_self, LastMax.lastMax_append, h]
    unfold LastMax.step
    dsimp only
    split
    · rename_i hle
      refine ⟨rec, rfl, ?_⟩
      simp only [pitKey, Prod.Lex.toLex_le_toLex] at hle
      omega
    · exact ⟨y, rfl, le_refl _⟩
  · rw [rows_append_other hs]
    exact ⟨y, h, le_refl _⟩

/-- A row of the event time of the latest one is that row or was appended before it. -/
theorem before_latest {rows : List OfflineFeatureRecord} {x y : OfflineFeatureRecord}
    (hsorted : rows.Pairwise fun a b => a.result.calcTs ≤ b.result.calcTs) (hx : LastMax.lastMax pitKey rows = some x)
    (hy : y ∈ rows) (hdata : y.result.dataTs = x.result.dataTs) : y = x ∨ [y, x].Sublist rows := by
  obtain ⟨before, after, rfl, -, hlater⟩ := LastMax.isLastMax_of_eq pitKey hx
  rcases List.mem_append.mp hy with hy | hy
  · exact .inr ((List.singleton_sublist.mpr hy).append (List.singleton_sublist.mpr List.mem_cons_self))
  · rcases List.mem_cons.mp hy with rfl | hy
    · exact .inl rfl
    · have hlt := hlater y hy
      have hle := (List.pairwise_cons.mp (List.pairwise_append.mp hsorted).2.1).1 y hy
      simp only [pitKey, Prod.Lex.toLex_lt_toLex, hdata] at hlt
      omega

/-! ## The inputs of a dependent -/

def FeatureStore.inputOf (fs : FeatureStore) (view : FeatureViewDef) (offline : OfflineStore) (entityKey : EntityKey)
    (name : String) : Option FeatureComputation :=
  ((view.slotOf entityKey name).bind (latest offline)).map fun rec => FeatureStore.prefilled fs.core.sha256 rec.result

def ownSlot (view : FeatureViewDef) (feature : FeatureDef) (entityKey : EntityKey) : FeatureSlot :=
  ⟨entityKey.encode, view.name, view.viewVersion, feature.name, feature.featureVersion⟩

def InputSlot (view : FeatureViewDef) (feature : FeatureDef) (entityKey : EntityKey) (slot : FeatureSlot) : Prop :=
  ∃ d ∈ feature.deps, view.slotOf entityKey d.feature = some slot

section
variable {fs : FeatureStore} {view : FeatureViewDef} {feature : FeatureDef} {entityKey : EntityKey}
  {offline : OfflineStore} {calcTs : Int}

theorem slotOf_name {name : String} {slot : FeatureSlot} (h : view.slotOf entityKey name = some slot) :
    slot.featureName = name := by
  unfold FeatureViewDef.slotOf at h
  obtain ⟨target, -, rfl⟩ := Option.map_eq_some_iff.mp h
  rfl

theorem Dependent.own_not_input (hd : Dependent fs.core.registry view feature entityKey) :
    ¬ InputSlot view feature entityKey (ownSlot view feature entityKey) := by
  rintro ⟨d, hdep, hslot⟩
  exact no_self_dependency hd.valid hd.view_mem hd.feature_mem d hdep (slotOf_name hslot).symm

theorem cachedOf_eq_inputOf {name : String}
    (h : ∀ slot, view.slotOf entityKey name = some slot → ∀ rec ∈ offline.rows slot, Eligible calcTs rec) :
    fs.cachedOf view offline entityKey calcTs name = fs.inputOf view offline entityKey name := by
  unfold FeatureStore.cachedOf FeatureStore.inputOf FeatureViewDef.pitOf
  cases hs : view.slotOf entityKey name with
  | none => rfl
  | some slot =>
    rw [Option.bind_some, Option.bind_some, pitRow_eq_latest (h slot hs)]

theorem inputOf_append_other {rec : OfflineFeatureRecord} {name : String} (h : view.slotOf entityKey name ≠ some rec.slot) :
    fs.inputOf view (offline ++ [rec]) entityKey name = fs.inputOf view offline entityKey name := by
  unfold FeatureStore.inputOf
  cases hs : view.slotOf entityKey name with
  | none => rfl
  | some slot =>
    have hne : rec.slot ≠ slot := fun e => h (hs.trans (congrArg some e.symm))
    rw [Option.bind_some, Option.bind_some, latest, latest, rows_append_other hne]

/-- The recomputation in terms of the latest rows, once the rows of the inputs are eligible. -/
theorem Dependent.compute_latest (hd : Dependent fs.core.registry view feature entityKey)
    (he : ∀ rec ∈ offline, InputSlot view feature entityKey rec.slot → Eligible calcTs rec) :
    fs.computeDependentFromOffline offline view.name view.viewVersion entityKey calcTs 0 feature.name =
      if feature.deps.all fun d => (fs.inputOf view offline entityKey d.feature).isSome then
        (recomputed fs.core view feature 0 (fs.inputOf view offline entityKey)).map fun out =>
          out.map fun c => c.result feature.ref entityKey calcTs
      else .ok none := by
  have hinput : ∀ d ∈ feature.deps, fs.cachedOf view offline entityKey calcTs d.feature =
      fs.inputOf view offline entityKey d.feature := by
    refine fun d hdep => cachedOf_eq_inputOf fun slot hs rec hrec => ?_
    obtain ⟨hmem, rfl⟩ := OfflineStore.mem_rows.mp hrec
    exact he rec hmem ⟨d, hdep, hs⟩
  have hall : (feature.deps.all fun d => (fs.cachedOf view offline entityKey calcTs d.feature).isSome) =
      feature.deps.all fun d => (fs.inputOf view offline entityKey d.feature).isSome := by
    rw [Bool.eq_iff_iff, List.all_eq_true, List.all_eq_true]
    exact forall₂_congr fun d hdep => by rw [hinput d hdep]
  rw [computeDependent_eq hd.valid hd.view_mem hd.feature_mem offline entityKey calcTs hd.no_inputs, hall,
    recomputed_congr hd.no_bounds calcTs 0 hinput]

end

/-! ## What holds of the history -/

section
variable (fs : FeatureStore) (view : FeatureViewDef) (feature : FeatureDef) (entityKey : EntityKey)

/-- The rows of the dependent are those of waves up to `calcTs`, and none is newer than the inputs. -/
structure OwnRows (calcTs : Int) (offline : OfflineStore) : Prop where
  eligible : ∀ rec ∈ offline.rows (ownSlot view feature entityKey), Eligible calcTs rec ∧ rec.result.calcTs ≤ calcTs
  sorted : (offline.rows (ownSlot view feature entityKey)).Pairwise fun a b => a.result.calcTs ≤ b.result.calcTs
  inputs_later : ∀ rec ∈ offline.rows (ownSlot view feature entityKey), ∀ d ∈ feature.deps,
    ∃ y, (view.slotOf entityKey d.feature).bind (latest offline) = some y ∧ rec.result.dataTs ≤ y.result.dataTs

/-- What a recomputation would give is in the history. -/
def Current (offline : OfflineStore) : Prop :=
  ∀ c, (∀ d ∈ feature.deps, (fs.inputOf view offline entityKey d.feature).isSome) →
    recomputed fs.core view feature 0 (fs.inputOf view offline entityKey) = .ok (some c) →
    existsInOffline offline view.name view.viewVersion (c.result feature.ref entityKey 0) = true

end

section
variable {fs : FeatureStore} {view : FeatureViewDef} {feature : FeatureDef} {entityKey : EntityKey}
  {offline : OfflineStore} {calcTs : Int} {rec : OfflineFeatureRecord}

theorem OwnRows.mono {t t' : Int} (ht : t ≤ t') (h : OwnRows view feature entityKey t offline) :
    OwnRows view feature entityKey t' offline where
  eligible rec hrec := ⟨(h.eligible rec hrec).1.mono ht, (h.eligible rec hrec).2.trans ht⟩
  sorted := h.sorted
  inputs_later := h.inputs_later

theorem later_append {y : OfflineFeatureRecord} {name : String} {t : Int}
    (h : (view.slotOf entityKey name).bind (latest offline) = some y) (ht : t ≤ y.result.dataTs) :
    ∃ y', (view.slotOf entityKey name).bind (latest (offline ++ [rec])) = some y' ∧ t ≤ y'.result.dataTs := by
  obtain ⟨slot, hs, hy⟩ := Option.bind_eq_some_iff.mp h
  obtain ⟨y', hy', hle⟩ := latest_append hy rec
  exact ⟨y', Option.bind_eq_some_iff.mpr ⟨slot, hs, hy'⟩, ht.trans hle⟩

theorem OwnRows.append_other (h : OwnRows view feature entityKey calcTs offline)
    (hrec : rec.slot ≠ ownSlot view feature entityKey) : OwnRows view feature entityKey calcTs (offline ++ [rec]) := by
  have hrows := @rows_append_other offline rec _ hrec
  refine ⟨by rw [hrows]; exact h.eligible, by rw [hrows]; exact h.sorted, fun row hrow d hdep => ?_⟩
  rw [hrows] at hrow
  obtain ⟨y, hy, hle⟩ := h.inputs_later row hrow d hdep
  exact later_append hy hle

theorem OwnRows.append_own (h : OwnRows view feature entityKey calcTs offline)
    (hrec : rec.slot = ownSlot view feature entityKey) (he : Eligible calcTs rec) (hcalc : rec.result.calcTs = calcTs)
    (hlater : ∀ d ∈ feature.deps, ∃ y, (view.slotOf entityKey d.feature).bind (latest offline) = some y ∧
      rec.result.dataTs ≤ y.result.dataTs) : OwnRows view feature entityKey calcTs (offline ++ [rec]) := by
  have hrows := rows_append_self offline rec
  rw [hrec] at hrows
  have hcases : ∀ row ∈ OfflineStore.rows (offline ++ [rec]) (ownSlot view feature entityKey),
      row ∈ offline.rows (ownSlot view feature entityKey) ∨ row = rec := by
    intro row hrow
    rw [hrows] at hrow
    exact (List.mem_append.mp hrow).imp id List.mem_singleton.mp
  refine ⟨fun row hrow => ?_, ?_, fun row hrow d hdep => ?_⟩
  · rcases hcases row hrow with hrow | rfl
    · exact h.eligible row hrow
    · exact ⟨he, le_of_eq hcalc⟩
  · rw [hrows]
    refine List.pairwise_append.mpr ⟨h.sorted, List.pairwise_singleton _ _, fun a ha b hb => ?_⟩
    rw [List.mem_singleton.mp hb, hcalc]
    exact (h.eligible a ha).2
  · rcases hcases row hrow with hrow | rfl
    · obtain ⟨y, hy, hle⟩ := h.inputs_later row hrow d hdep
      exact later_append hy hle
    · obtain ⟨y, hy, hle⟩ := hlater d hdep
      exact later_append hy hle

theorem Current.append_other (h : Current fs view feature entityKey offline)
    (hrec : ¬ InputSlot view feature entityKey rec.slot) (hd : Dependent fs.core.registry view feature entityKey) :
    Current fs view feature entityKey (offline ++ [rec]) := by
  have hinput : ∀ d ∈ feature.deps, fs.inputOf view (offline ++ [rec]) entityKey d.feature =
      fs.inputOf view offline entityKey d.feature :=
    fun d hdep => inputOf_append_other fun hs => hrec ⟨d, hdep, hs⟩
  intro c hall hc
  rw [recomputed_congr hd.no_bounds 0 0 hinput] at hc
  rw [existsInOffline_append, h c (fun d hdep => hinput d hdep ▸ hall d hdep) hc]
  rfl

theorem Current.initial : Current fs view feature entityKey [] := by
  intro c hall hc
  obtain ⟨d, hdep, c', hc', -⟩ := (recomputed_from hc).data_mem
  unfold FeatureStore.inputOf at hc'
  obtain ⟨rec, hrec, -⟩ := Option.map_eq_some_iff.mp hc'
  obtain ⟨slot, -, hrow⟩ := Option.bind_eq_some_iff.mp hrec
  cases hrow

theorem OwnRows.initial : OwnRows view feature entityKey calcTs [] :=
  ⟨fun _ h => (nomatch h), .nil, fun _ h => (nomatch h)⟩

end

/-! ## One entry of a wave -/

theorem appendNewResults_single (offline : OfflineStore) (view : String) (viewVersion : Int) (r : FeatureResult) :
    appendNewResults offline view viewVersion [r] =
      if existsInOffline offline view viewVersion r then offline else offline ++ [⟨view, viewVersion, r⟩] := by
  unfold appendNewResults partitionNewResults
  rw [OfflineStore.appendMany_eq, partitionLoop, if_neg (by simp)]
  split
  · exact List.append_nil offline
  · rfl

theorem pushAll_spec : ∀ (events : List FeatureUpdated) (s : WaveStores),
    (events.foldl (fun s event => s.push (.updated event)) s).offline = s.offline ∧
    updatesOf (events.foldl (fun s event => s.push (.updated event)) s).records = updatesOf s.records ++ events
  | [], s => ⟨rfl, (List.append_nil _).symm⟩
  | event :: events, s => by
    obtain ⟨hoffline, hupdates⟩ := pushAll_spec events (s.push (.updated event))
    refine ⟨hoffline, ?_⟩
    rw [List.foldl_cons, hupdates]
    simp [updatesOf, WaveStores.push]

section
variable {w : WaveBackend} {view : FeatureViewDef} {feature : FeatureDef} {entityKey : EntityKey}

/-- Where there is a model runner, no feature is a model. -/
def WaveBackend.PureUdfs (w : WaveBackend) : Prop :=
  w.hasModelRunner = true → ∀ view ∈ w.registry.featureViews, ∀ f ∈ view.features, f.kind ≠ .model

theorem isModel_false (hp : w.PureUdfs) (hw : w.hasModelRunner = true) (name : String) (version : Int) (feature : String) :
    Propagation.isModel (findView? w.registry name version) feature = false := by
  unfold Propagation.isModel
  split
  · rename_i f hf
    obtain ⟨v, hv, hfind⟩ := Option.bind_eq_some_iff.mp hf
    exact decide_eq_false (hp hw v (findView?_some hv).1 f (List.mem_of_find?_eq_some hfind))
  · rfl

/-- An entry leaves the stores as they are, or appends and announces what it recomputes. -/
theorem waveEntry_cases (hp : w.PureUdfs) (s : WaveStores) (entry : DebounceEntry) :
    ((waveEntry w s entry).1 = s ∧ ∀ key,
      Propagation.unitKey (findView? w.registry entry.view entry.viewVersion) entry = .ok key →
      Propagation.isModel (findView? w.registry entry.view entry.viewVersion) entry.dependentFeature = false → ∀ r,
      w.store.computeDependentFromOffline s.offline entry.view entry.viewVersion key w.now 0 entry.dependentFeature ≠
        .ok (some r)) ∨
    ∃ key r, Propagation.unitKey (findView? w.registry entry.view entry.viewVersion) entry = .ok key ∧
      w.store.computeDependentFromOffline s.offline entry.view entry.viewVersion key w.now 0 entry.dependentFeature =
        .ok (some r) ∧ (waveEntry w s entry).1 = (storeEntry w s entry r).1 := by
  unfold waveEntry
  dsimp only
  cases hk : Propagation.unitKey (findView? w.registry entry.view entry.viewVersion) entry with
  | error e => exact .inl ⟨rfl, fun key h => (nomatch h)⟩
  | ok key =>
    dsimp only
    cases hm : Propagation.isModel (findView? w.registry entry.view entry.viewVersion) entry.dependentFeature with
    | true =>
      have hw : w.hasModelRunner = false := by
        cases hw : w.hasModelRunner with
        | false => rfl
        | true => exact absurd hm (by rw [isModel_false hp hw]; exact Bool.false_ne_true)
      rw [if_pos rfl]
      unfold modelEntry
      rw [hw]
      exact .inl ⟨rfl, fun _ _ h => (nomatch h)⟩
    | false =>
      rw [if_neg Bool.false_ne_true]
      dsimp only [WaveBackend.unitOf]
      cases hc : w.store.computeDependentFromOffline s.offline entry.view entry.viewVersion key w.now 0
          entry.dependentFeature with
      | error e =>
        refine .inl ⟨rfl, fun key' h' _ r hr => ?_⟩
        cases h'
        cases hc.symm.trans hr
      | ok out =>
        cases out with
        | none =>
          refine .inl ⟨rfl, fun key' h' _ r hr => ?_⟩
          cases h'
          cases hc.symm.trans hr
        | some r => exact .inr ⟨key, r, rfl, hc, rfl⟩

theorem storeEntry_spec {viewDef : FeatureViewDef} (s : WaveStores) (entry : DebounceEntry) (r : FeatureResult)
    (hv : findView? w.registry entry.view entry.viewVersion = some viewDef) :
    (storeEntry w s entry r).1.offline =
      (if existsInOffline s.offline entry.view entry.viewVersion r then s.offline
        else s.offline ++ [⟨entry.view, entry.viewVersion, r⟩]) ∧
    updatesOf (storeEntry w s entry r).1.records = updatesOf s.records ++
      buildFeatureUpdatedEvents viewDef [r] entry.entity.entityType .recomputeWave := by
  unfold storeEntry
  rw [hv]
  obtain ⟨hoffline, hupdates⟩ := pushAll_spec
    (buildFeatureUpdatedEvents viewDef [r] entry.entity.entityType .recomputeWave)
    (s.append entry.view entry.viewVersion [r])
  exact ⟨hoffline.trans (appendNewResults_single _ _ _ _), hupdates⟩

/-- What holds in the course of a wave. -/
structure WaveInv (view : FeatureViewDef) (feature : FeatureDef) (entityKey : EntityKey) (calcTs : Int) (s : WaveStores) :
    Prop where
  rows : OwnRows view feature entityKey calcTs s.offline
  eligible : ∀ rec ∈ s.offline, Eligible calcTs rec
  keyed : ∀ u ∈ updatesOf s.records, WellKeyed u.entity

/-- An update of the wave is about an input, or the history is current. -/
def Covered (w : WaveBackend) (view : FeatureViewDef) (feature : FeatureDef) (entityKey : EntityKey) (s : WaveStores) :
    Prop :=
  (∃ u ∈ updatesOf s.records, Triggers view feature entityKey u) ∨ Current w.store view feature entityKey s.offline

theorem input_view {r : FeatureResult} {name : String} {version : Int}
    (h : InputSlot view feature entityKey (r.slot name version)) : name = view.name ∧ version = view.viewVersion := by
  obtain ⟨d, -, hslot⟩ := h
  unfold FeatureViewDef.slotOf at hslot
  obtain ⟨target, -, he⟩ := Option.map_eq_some_iff.mp hslot
  simp only [FeatureResult.slot, FeatureSlot.mk.injEq] at he
  exact ⟨he.2.1.symm, he.2.2.1.symm⟩

theorem Dependent.found_eq (hd : Dependent w.registry view feature entityKey) {viewDef : FeatureViewDef}
    (h : findView? w.registry view.name view.viewVersion = some viewDef) : viewDef = view := by
  rw [findView?_valid hd.valid hd.view_mem] at h
  exact (Option.some.inj h).symm

theorem Dependent.announces (hd : Dependent w.registry view feature entityKey) {r : FeatureResult} {name : String}
    {version : Int} {viewDef : FeatureViewDef} (h : InputSlot view feature entityKey (r.slot name version))
    (hfound : findView? w.registry name version = some viewDef) (entityType : String) (source : FeatureUpdateSource) :
    ∃ u ∈ buildFeatureUpdatedEvents viewDef [r] entityType source, Triggers view feature entityKey u := by
  obtain ⟨rfl, rfl⟩ := input_view h
  obtain ⟨d, hdep, hslot⟩ := h
  rw [hd.found_eq hfound]
  exact hd.triggered hdep hslot entityType source

/-- What the recomputation of an entry stands on. -/
structure Recomputes (w : WaveBackend) (s : WaveStores) (entry : DebounceEntry) (key : EntityKey) (r : FeatureResult)
    (viewDef : FeatureViewDef) (f : FeatureDef) (c : FeatureComputation) : Prop where
  found : findView? w.registry entry.view entry.viewVersion = some viewDef
  named : entry.view = viewDef.name ∧ entry.viewVersion = viewDef.viewVersion
  feature_mem : f ∈ viewDef.features
  feature_name : entry.dependentFeature = f.name
  recomputed : recomputed w.store.core viewDef f w.now (w.store.cachedOf viewDef s.offline key w.now) = .ok (some c)
  result : r = c.result f.ref key w.now
  cached : ∀ d ∈ f.deps, (w.store.cachedOf viewDef s.offline key w.now d.feature).isSome

theorem recomputes_of_compute {s : WaveStores} {entry : DebounceEntry} {key : EntityKey} {r : FeatureResult}
    (hr : validateRegistry w.registry = .ok ())
    (h : w.store.computeDependentFromOffline s.offline entry.view entry.viewVersion key w.now 0 entry.dependentFeature =
      .ok (some r)) : ∃ viewDef f c, Recomputes w s entry key r viewDef f c := by
  obtain ⟨viewDef, hv, hname, hversion, f, hf, hfeature⟩ := computeDependent_found h
  rw [← hname, ← hversion, ← hfeature] at h
  obtain ⟨c, hc, hres, hall⟩ := computeDependent_result hr hv hf h
  have hfound := findView?_valid hr hv
  rw [hname, hversion] at hfound
  exact ⟨viewDef, f, c, hfound, ⟨hname.symm, hversion.symm⟩, hf, hfeature.symm, hc, hres, hall⟩

section
variable {s : WaveStores} {entry : DebounceEntry} {key : EntityKey} {r : FeatureResult} {viewDef : FeatureViewDef}
  {f : FeatureDef} {c : FeatureComputation}

theorem Recomputes.eligible (h : Recomputes w s entry key r viewDef f c) :
    Eligible w.now ⟨entry.view, entry.viewVersion, r⟩ := by
  have he := (recomputed_from h.recomputed).eligible f.ref
  rw [← h.result] at he
  exact he

theorem Recomputes.slot (h : Recomputes w s entry key r viewDef f c) :
    r.slot entry.view entry.viewVersion = ⟨key.encode, entry.view, entry.viewVersion, f.name, f.featureVersion⟩ := by
  rw [h.result]
  rfl

theorem Recomputes.offline (h : Recomputes w s entry key r viewDef f c) :
    (storeEntry w s entry r).1.offline = s.offline ∧
      existsInOffline s.offline entry.view entry.viewVersion r = true ∨
    (storeEntry w s entry r).1.offline = s.offline ++ [⟨entry.view, entry.viewVersion, r⟩] := by
  rw [(storeEntry_spec s entry r h.found).1]
  by_cases hdup : existsInOffline s.offline entry.view entry.viewVersion r = true
  · exact .inl ⟨if_pos hdup, hdup⟩
  · exact .inr (if_neg hdup)

theorem Recomputes.keyed (h : Recomputes w s entry key r viewDef f c)
    (hs : ∀ u ∈ updatesOf s.records, WellKeyed u.entity) :
    ∀ u ∈ updatesOf (storeEntry w s entry r).1.records, WellKeyed u.entity := by
  intro u hu
  rw [(storeEntry_spec s entry r h.found).2] at hu
  rcases List.mem_append.mp hu with hu | hu
  · exact hs u hu
  · obtain ⟨r', -, rfl⟩ := List.mem_map.mp hu
    exact featureUpdatedOf_wellKeyed viewDef entry.entity.entityType .recomputeWave r'

theorem Recomputes.triggers (h : Recomputes w s entry key r viewDef f c)
    (hd : Dependent w.registry view feature entityKey)
    (hslot : InputSlot view feature entityKey (r.slot entry.view entry.viewVersion)) :
    ∃ u ∈ updatesOf (storeEntry w s entry r).1.records, Triggers view feature entityKey u := by
  obtain ⟨u, hu, ht⟩ := hd.announces hslot h.found entry.entity.entityType .recomputeWave
  rw [(storeEntry_spec s entry r h.found).2]
  exact ⟨u, List.mem_append_right _ hu, ht⟩

/-- A row in the slot of the dependent is a recomputation of the dependent. -/
theorem Recomputes.own (h : Recomputes w s entry key r viewDef f c) (hd : Dependent w.registry view feature entityKey)
    (hslot : r.slot entry.view entry.viewVersion = ownSlot view feature entityKey) :
    key = entityKey ∧ viewDef = view ∧ f = feature := by
  rw [h.slot] at hslot
  simp only [ownSlot, FeatureSlot.mk.injEq] at hslot
  obtain ⟨hkey, hname, hversion, hfeature, -⟩ := hslot
  have hfound := h.found
  rw [hname, hversion] at hfound
  obtain rfl := hd.found_eq hfound
  have hnodup := (ValidView.of_validateRegistry hd.valid hd.view_mem).names_nodup
  exact ⟨EntityKey.eq_of_encode hkey, rfl, List.inj_on_of_nodup_map hnodup h.feature_mem hd.feature_mem hfeature⟩

/-- Where all rows are eligible the recomputation reads the latest ones. -/
theorem Recomputes.latest (h : Recomputes w s entry entityKey r view feature c)
    (hd : Dependent w.registry view feature entityKey) (hs : ∀ rec ∈ s.offline, Eligible w.now rec) :
    ClearFeature.recomputed w.store.core view feature 0 (w.store.inputOf view s.offline entityKey) = .ok (some c) ∧
    ∀ d ∈ feature.deps, ∃ y, (view.slotOf entityKey d.feature).bind (ClearFeature.latest s.offline) = some y ∧
      r.dataTs ≤ y.result.dataTs := by
  have hinput : ∀ d ∈ feature.deps, w.store.cachedOf view s.offline entityKey w.now d.feature =
      w.store.inputOf view s.offline entityKey d.feature := fun d _ =>
    cachedOf_eq_inputOf fun slot _ rec hrec => hs rec (OfflineStore.mem_rows.mp hrec).1
  refine ⟨?_, fun d hdep => ?_⟩
  · rw [← recomputed_congr hd.no_bounds w.now 0 hinput]
    exact h.recomputed
  · obtain ⟨c', hc'⟩ := Option.isSome_iff_exists.mp (h.cached d hdep)
    have hle := (recomputed_from h.recomputed).data_le d hdep c' hc'
    rw [hinput d hdep] at hc'
    obtain ⟨y, hy, rfl⟩ := Option.map_eq_some_iff.mp hc'
    refine ⟨y, hy, ?_⟩
    rw [h.result]
    exact hle

theorem Recomputes.waveInv (h : Recomputes w s entry key r viewDef f c)
    (hd : Dependent w.registry view feature entityKey) (hs : WaveInv view feature entityKey w.now s) :
    WaveInv view feature entityKey w.now (storeEntry w s entry r).1 := by
  refine ⟨?_, ?_, h.keyed hs.keyed⟩
  · rcases h.offline with ⟨heq, -⟩ | heq
    · rw [heq]
      exact hs.rows
    · rw [heq]
      by_cases hown : r.slot entry.view entry.viewVersion = ownSlot view feature entityKey
      · -- only the dependent itself is recomputed into its slot
        obtain ⟨rfl, rfl, rfl⟩ := h.own hd hown
        have hcalc : r.calcTs = w.now := by
          rw [h.result]
          rfl
        exact hs.rows.append_own hown h.eligible hcalc (h.latest hd hs.eligible).2
      · exact hs.rows.append_other hown
  · intro rec hrec
    rcases h.offline with ⟨heq, -⟩ | heq
    · rw [heq] at hrec
      exact hs.eligible rec hrec
    · rw [heq] at hrec
      rcases List.mem_append.mp hrec with hrec | hrec
      · exact hs.eligible rec hrec
      · rw [List.mem_singleton.mp hrec]
        exact h.eligible

/-- Storing a recomputation of the dependent makes the history current. -/
theorem Recomputes.current (h : Recomputes w s entry entityKey r view feature c)
    (hd : Dependent w.registry view feature entityKey) (hs : WaveInv view feature entityKey w.now s) :
    Current w.store view feature entityKey (storeEntry w s entry r).1.offline := by
  obtain ⟨hname, hversion⟩ := h.named
  have hexists : existsInOffline (storeEntry w s entry r).1.offline entry.view entry.viewVersion r = true := by
    rcases h.offline with ⟨heq, hdup⟩ | heq
    · rw [heq]
      exact hdup
    · rw [heq, existsInOffline_append]
      exact Bool.or_eq_true_iff.mpr (.inr (existsInOffline_self (List.mem_singleton.mpr rfl)))
  have hinput : ∀ d ∈ feature.deps, w.store.inputOf view (storeEntry w s entry r).1.offline entityKey d.feature =
      w.store.inputOf view s.offline entityKey d.feature := by
    intro d hdep
    rcases h.offline with ⟨heq, -⟩ | heq
    · rw [heq]
    · rw [heq]
      refine inputOf_append_other fun hslot => hd.own_not_input ⟨d, hdep, hslot.trans (congrArg some ?_)⟩
      show r.slot entry.view entry.viewVersion = _
      rw [h.slot, hname, hversion]
      rfl
  intro c' _ hc'
  rw [recomputed_congr hd.no_bounds 0 0 hinput, (h.latest hd hs.eligible).1] at hc'
  cases hc'
  rw [hname, hversion] at hexists
  have hresult := h.result
  subst hresult
  exact hexists

theorem Recomputes.covered (h : Recomputes w s entry key r viewDef f c)
    (hd : Dependent w.registry view feature entityKey) (hs : WaveInv view feature entityKey w.now s)
    (hc : Covered w view feature entityKey s ∨ key = entityKey ∧ viewDef = view ∧ f = feature) :
    Covered w view feature entityKey (storeEntry w s entry r).1 := by
  by_cases hin : InputSlot view feature entityKey (r.slot entry.view entry.viewVersion)
  · -- a chained dependency: the wave announces it, even where the result is a duplicate
    exact .inl (h.triggers hd hin)
  · rcases hc with (⟨u, hu, ht⟩ | hc) | ⟨rfl, rfl, rfl⟩
    · refine .inl ⟨u, ?_, ht⟩
      rw [(storeEntry_spec s entry r h.found).2]
      exact List.mem_append_left _ hu
    · rcases h.offline with ⟨heq, -⟩ | heq
      · exact .inr (heq ▸ hc)
      · exact .inr (heq ▸ hc.append_other hin hd)
    · exact .inr (h.current hd hs)

end

theorem Dependent.isModel_false (hd : Dependent w.registry view feature entityKey) :
    Propagation.isModel (some view) feature.name = false := by
  have hnodup := (ValidView.of_validateRegistry hd.valid hd.view_mem).names_nodup
  unfold Propagation.isModel
  split
  · rename_i f hf
    have hname := List.find?_some hf
    have hmem : f ∈ view.features := List.mem_of_find?_eq_some hf
    have he : f = feature :=
      List.inj_on_of_nodup_map hnodup hmem hd.feature_mem (by simpa using hname)
    rw [he, hd.computed]
    rfl
  · rfl

/-- A wave keeps what it has covered, and covers the dependent when it recomputes it. -/
theorem waveEntry_covered (hp : w.PureUdfs) (hd : Dependent w.registry view feature entityKey) {s : WaveStores}
    (entry : DebounceEntry) (hs : WaveInv view feature entityKey w.now s) :
    WaveInv view feature entityKey w.now (waveEntry w s entry).1 ∧
    (Covered w view feature entityKey s ∨ Targets view feature entityKey entry →
      Covered w view feature entityKey (waveEntry w s entry).1) := by
  have hfound := findView?_valid hd.valid hd.view_mem
  rcases waveEntry_cases hp s entry with ⟨heq, hnone⟩ | ⟨key, r, hkey, hc, heq⟩
  · rw [heq]
    refine ⟨hs, fun hc => hc.elim id fun ht => .inr ?_⟩
    rw [ht.view_name, ht.view_version, ht.feature_name, hfound] at hnone
    intro c hall hc
    -- the entry recomputes the dependent, so it would have found `c`
    refine absurd ?_ (hnone entityKey (hd.unitKey ht) hd.isModel_false (c.result feature.ref entityKey w.now))
    rw [hd.compute_latest fun rec hrec _ => hs.eligible rec hrec, if_pos (List.all_eq_true.mpr hall), hc]
    rfl
  · obtain ⟨viewDef, f, c, h⟩ := recomputes_of_compute hd.valid hc
    rw [heq]
    refine ⟨h.waveInv hd hs, fun hcov => h.covered hd hs (hcov.imp id fun ht => ?_)⟩
    have hf := h.found
    rw [ht.view_name, ht.view_version] at hf
    obtain rfl := hd.found_eq hf
    have hnodup := (ValidView.of_validateRegistry hd.valid hd.view_mem).names_nodup
    have hfeature : f = feature :=
      List.inj_on_of_nodup_map hnodup h.feature_mem hd.feature_mem (h.feature_name.symm.trans ht.feature_name)
    rw [h.found, hd.unitKey ht] at hkey
    cases hkey
    exact ⟨rfl, rfl, hfeature⟩

theorem wave_covered (hp : w.PureUdfs) (hd : Dependent w.registry view feature entityKey) :
    ∀ (entries : DebounceStore) {s : WaveStores}, WaveInv view feature entityKey w.now s →
      WaveInv view feature entityKey w.now (Items.final (fun s entry => waveEntry w s entry.2) s entries) ∧
      (Covered w view feature entityKey s ∨ (∃ entry ∈ entries, Targets view feature entityKey entry.2) →
        Covered w view feature entityKey (Items.final (fun s entry => waveEntry w s entry.2) s entries))
  | [], s, hs => ⟨hs, fun hc => hc.elim id fun ⟨_, h, _⟩ => (nomatch h)⟩
  | entry :: entries, s, hs => by
    obtain ⟨hs', hstep⟩ := waveEntry_covered hp hd entry.2 hs
    obtain ⟨hinv, hrun⟩ := wave_covered hp hd entries hs'
    rw [Items.final_cons]
    refine ⟨hinv, fun hc => hrun ?_⟩
    rcases hc with hc | ⟨e, he, ht⟩
    · exact .inl (hstep (.inl hc))
    · rcases List.mem_cons.mp he with rfl | he
      · exact .inl (hstep (.inr ht))
      · exact .inr ⟨e, he, ht⟩

theorem executeWave_covered (hp : w.PureUdfs) (hd : Dependent w.registry view feature entityKey)
    {entries : DebounceStore} {s done : WaveStores} {t : WaveTally} (hs : WaveInv view feature entityKey w.now s)
    (h : exec w.service s (Propagation.executeWave w.registry w.hasModelRunner entries) = (done, .ok t)) :
    WaveInv view feature entityKey w.now done ∧
    (Covered w view feature entityKey s ∨ (∃ entry ∈ entries, Targets view feature entityKey entry.2) →
      Covered w view feature entityKey done) := by
  rw [executeWave_exec] at h
  unfold entryLoop at h
  have hdone := congrArg Prod.fst
    ((Items.loop_isolated (Items.isolated_of_loop (congrArg Prod.snd h))).symm.trans h)
  rw [← show _ = done from hdone]
  exact wave_covered hp hd entries hs

end

end ClearFeature
