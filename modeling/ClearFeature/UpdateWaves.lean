import ClearFeature.BadEntries
import ClearFeature.EntityKeys
import ClearFeature.Lib.Runs
import ClearFeature.Recompute

/-!
# Updates and recompute waves (`fs_core/propagation.py`, `api/propagation_worker.py`)

Rows are appended and announced; waves take up announced updates in any
grouping, recompute the dependents and announce what they append in turn.
-/

namespace ClearFeature

open Prog

/-! ## Updates on their way -/

/-- JSON sorts the entries of the entity key. -/
def FeatureUpdated.delivered (u : FeatureUpdated) : FeatureUpdated :=
  { u with entity := { u.entity with entityKey := u.entity.entityKey.insertionSort fun a b => a.1 ≤ b.1 } }

def updateEvents (registry : Registry) (fromJson : Bytes → Except PyErr FeatureUpdated) : UpdateEvents FeatureUpdated where
  fromJson := fromJson
  plan u := .ok (planRecomputeWave registry u)
  encoded u := u.entity.encoded
  dataTs := FeatureUpdated.dataTs
  calcTs := FeatureUpdated.calcTs

section
variable {U : Type} (events : UpdateEvents U)

def observeUpdates : List U → DebounceStore → Except PyErr DebounceStore
  | [], entries => .ok entries
  | u :: us, entries => do
    match ← Propagation.handleFeatureUpdated events u entries with
    | .ok entries => observeUpdates us entries
    | .error _ => observeUpdates us entries

end

def updatesOf (records : List PropagationRecord) : List FeatureUpdated :=
  records.filterMap fun
    | .updated u => some u
    | .dlq _ => none

/-! ## Runs -/

/-- `updates` are announced and not taken up by a wave, `arrived` the results appended since the last wave. -/
structure PropagationRun where
  offline : OfflineStore := []
  updates : List FeatureUpdated := []
  arrived : List FeatureResult := []
  lastWave : Option Int := none

/-- A result is appended and announced, or a wave takes up the updates at the given places. -/
inductive PropagationAction where
  | append (view : String) (viewVersion : Int) (r : FeatureResult) (entityType : String) (source : FeatureUpdateSource)
  | wave (places : List Nat) (calcTs : Int)

namespace PropagationRun

section
variable (w : WaveBackend) (fromJson : Bytes → Except PyErr FeatureUpdated)

def announced (view : String) (viewVersion : Int) (r : FeatureResult) (entityType : String)
    (source : FeatureUpdateSource) : List FeatureUpdated :=
  match findView? w.registry view viewVersion with
  | none => []
  | some viewDef => buildFeatureUpdatedEvents viewDef [r] entityType source

def chosen (s : PropagationRun) (places : List Nat) : List FeatureUpdated := places.filterMap fun i => s.updates[i]?

def left (s : PropagationRun) (places : List Nat) : List FeatureUpdated :=
  (s.updates.zipIdx.filter fun u => u.2 ∉ places).map Prod.fst

def runWave (s : PropagationRun) (places : List Nat) (calcTs : Int) : Except PyErr (WaveStores × Except PyErr WaveTally) := do
  let entries ← observeUpdates (updateEvents w.registry fromJson) ((s.chosen places).map FeatureUpdated.delivered) []
  .ok (exec { w with now := calcTs }.service ⟨s.offline, []⟩
    (Propagation.executeWave w.registry w.hasModelRunner entries))

/-- The updates of a wave that raises stay where they are. -/
def step (s : PropagationRun) : PropagationAction → PropagationRun
  | .append view viewVersion r entityType source =>
    { s with
      offline := s.offline.append view viewVersion r
      updates := s.updates ++ announced w view viewVersion r entityType source
      arrived := s.arrived ++ [r] }
  | .wave places calcTs =>
    match s.runWave w fromJson places calcTs with
    | .error _ => s
    | .ok (done, .error _) => { s with offline := done.offline, updates := s.updates ++ updatesOf done.records }
    | .ok (done, .ok _) =>
      { offline := done.offline, updates := s.left places ++ updatesOf done.records, arrived := [], lastWave := some calcTs }

def goesThrough (s : PropagationRun) (places : List Nat) (calcTs : Int) : Bool :=
  match s.runWave w fromJson places calcTs with
  | .ok (_, .ok _) => true
  | _ => false

/-- Waves go through, one after the other, and later than what has arrived. The rows of `slot` come from waves. -/
def Advances (slot : FeatureSlot) (s : PropagationRun) : PropagationAction → Prop
  | .append view viewVersion r _ _ => r.slot view viewVersion ≠ slot
  | .wave places calcTs => s.goesThrough w fromJson places calcTs = true ∧ (∀ t ∈ s.lastWave, t < calcTs) ∧
      ∀ r ∈ s.arrived, r.dataTs ≤ calcTs ∧ effectiveAvailable r ≤ calcTs

instance (slot : FeatureSlot) (s : PropagationRun) (a : PropagationAction) : Decidable (Advances w fromJson slot s a) := by
  cases a <;> unfold Advances <;> infer_instance

end

end PropagationRun

/-! ## A dependent and what concerns it -/

/-- The inputs of `feature` are reactive dependencies without staleness bounds; the key has the view's fields. -/
structure Dependent (r : Registry) (view : FeatureViewDef) (feature : FeatureDef) (entityKey : EntityKey) : Prop where
  valid : validateRegistry r = .ok ()
  view_mem : view ∈ r.featureViews
  feature_mem : feature ∈ view.features
  computed : feature.kind = .udf
  no_inputs : feature.inputs = []
  reactive : ∀ d ∈ feature.deps, d.propagation = .reactive
  no_bounds : ∀ d ∈ feature.deps, d.maxInputAgeSeconds = none
  key_fields : Dict.keys entityKey.parts = view.keyFields

/-- The update is about a dependency of `feature` at the key. -/
structure Triggers (view : FeatureViewDef) (feature : FeatureDef) (entityKey : EntityKey) (u : FeatureUpdated) : Prop where
  view_name : u.view = view.name
  view_version : u.viewVersion = view.viewVersion
  dep : ∃ d ∈ feature.deps, ∃ target, Dict.get? (featuresByName view.features) d.feature = some target ∧
    u.featureName = d.feature ∧ u.featureVersion = target.featureVersion
  key : entityKey.parts.Perm u.entity.entityKey

/-- The entry recomputes `feature` at the key. -/
structure Targets (view : FeatureViewDef) (feature : FeatureDef) (entityKey : EntityKey) (entry : DebounceEntry) : Prop where
  view_name : entry.view = view.name
  view_version : entry.viewVersion = view.viewVersion
  feature_name : entry.dependentFeature = feature.name
  key : entityKey.parts.Perm entry.entity.entityKey

def WellKeyed (entity : EntityRef) : Prop := ∃ k : EntityKey, k.parts.Perm entity.entityKey

theorem WellKeyed.nodup {entity : EntityRef} (h : WellKeyed entity) : (Dict.keys entity.entityKey).Nodup := by
  obtain ⟨k, hk⟩ := h
  exact (hk.map Prod.fst).nodup_iff.mp k.parts_nodup

theorem WellKeyed.encoded {entity : EntityRef} (h : WellKeyed entity) : ∃ s, entity.encoded = .ok s := by
  obtain ⟨k, hk⟩ := h
  exact EntityKey.encoded_of_perm hk

theorem delivered_perm (u : FeatureUpdated) : u.entity.entityKey.Perm u.delivered.entity.entityKey :=
  (List.perm_insertionSort _ _).symm

theorem WellKeyed.delivered {u : FeatureUpdated} (h : WellKeyed u.entity) : WellKeyed u.delivered.entity := by
  obtain ⟨k, hk⟩ := h
  exact ⟨k, hk.trans (delivered_perm u)⟩

section
variable {r : Registry} {view : FeatureViewDef} {feature : FeatureDef} {entityKey : EntityKey}

theorem Triggers.delivered {u : FeatureUpdated} (h : Triggers view feature entityKey u) :
    Triggers view feature entityKey u.delivered :=
  ⟨h.view_name, h.view_version, h.dep, h.key.trans (delivered_perm u)⟩

theorem featureUpdatedOf_wellKeyed (viewDef : FeatureViewDef) (entityType : String) (source : FeatureUpdateSource)
    (r : FeatureResult) : WellKeyed (featureUpdatedOf viewDef entityType source r).entity := by
  refine ⟨r.entityKey, ?_⟩
  show r.entityKey.parts.Perm (dictOf r.entityKey.parts)
  rw [r.entityKey.dictOf_parts]

theorem Dependent.target (hd : Dependent r view feature entityKey) {d : FeatureDependency} (hdep : d ∈ feature.deps) :
    ∃ target, Dict.get? (featuresByName view.features) d.feature = some target ∧
      d.version.getD target.featureVersion = target.featureVersion := by
  have hvalid := ValidView.of_validateRegistry hd.valid hd.view_mem
  obtain ⟨target, ht, hname, hpin⟩ := hvalid.deps_known feature hd.feature_mem d hdep
  refine ⟨target, hname ▸ featuresByName_mem hvalid.names_nodup ht, ?_⟩
  cases hv : d.version with
  | none => rfl
  | some p => exact hpin p hv

theorem Dependent.edge (hd : Dependent r view feature entityKey) {d : FeatureDependency} (hdep : d ∈ feature.deps) :
    (d.feature, feature, d) ∈ reactiveEdges view := by
  refine List.mem_flatMap.mpr ⟨feature, hd.feature_mem, List.mem_map.mpr ⟨d, ?_, rfl⟩⟩
  exact List.mem_filter.mpr ⟨hdep, by simpa using hd.reactive d hdep⟩

/-- A result in the slot of a dependency is announced to `feature`. -/
theorem Dependent.triggered (hd : Dependent r view feature entityKey) {d : FeatureDependency} (hdep : d ∈ feature.deps)
    {result : FeatureResult} (hslot : view.slotOf entityKey d.feature = some (result.slot view.name view.viewVersion))
    (entityType : String) (source : FeatureUpdateSource) :
    ∃ u ∈ buildFeatureUpdatedEvents view [result] entityType source, Triggers view feature entityKey u := by
  unfold FeatureViewDef.slotOf at hslot
  obtain ⟨target, ht, hslot⟩ := Option.map_eq_some_iff.mp hslot
  simp only [FeatureResult.slot, FeatureSlot.mk.injEq, true_and] at hslot
  obtain ⟨hkey, hname, hversion⟩ := hslot
  have hparts := EntityKey.encode_inj hkey
  refine ⟨featureUpdatedOf view entityType source result, List.mem_map.mpr ⟨result, ?_, rfl⟩, rfl, rfl,
    ⟨d, hdep, target, ht, hname.symm, hversion.symm⟩, ?_⟩
  · refine List.mem_filter.mpr ⟨List.mem_singleton.mpr rfl, ?_⟩
    rw [decide_eq_true_eq, ← hname]
    exact List.mem_map.mpr ⟨_, hd.edge hdep, rfl⟩
  · show entityKey.parts.Perm (dictOf result.entityKey.parts)
    rw [result.entityKey.dictOf_parts, hparts]

/-- An update that triggers `feature` plans its recomputation. -/
theorem Dependent.planned (hd : Dependent r view feature entityKey) {u : FeatureUpdated}
    (h : Triggers view feature entityKey u) :
    ∃ c ∈ planRecomputeWave r u, c.entity = u.entity ∧ c.view = view.name ∧ c.viewVersion = view.viewVersion ∧
      c.dependentFeature = feature.name := by
  have hvalid := ValidView.of_validateRegistry hd.valid hd.view_mem
  obtain ⟨d, hdep, target, ht, hname, hversion⟩ := h.dep
  obtain ⟨target', ht', hpin⟩ := hd.target hdep
  cases ht.symm.trans ht'
  obtain ⟨c, hc, hentity, hname', hversion', hfeature⟩ : ∃ c, candidateOf view u (feature.name, d) = some c ∧
      c.entity = u.entity ∧ c.view = u.view ∧ c.viewVersion = u.viewVersion ∧ c.dependentFeature = feature.name := by
    unfold candidateOf
    rw [featuresByName_mem hvalid.names_nodup hd.feature_mem]
    dsimp only
    rw [if_neg (by rw [hversion, hpin]; simp)]
    exact ⟨_, rfl, rfl, rfl, rfl, rfl⟩
  refine ⟨c, ?_, hentity, hname'.trans h.view_name, hversion'.trans h.view_version, hfeature⟩
  · unfold planRecomputeWave
    rw [h.view_name, h.view_version, findView?_valid hd.valid hd.view_mem]
    refine (List.mem_insertionSort _).mpr (List.mem_filterMap.mpr ⟨(feature.name, d), ?_, hc⟩)
    unfold reactiveDependents
    refine List.mem_map.mpr ⟨(d.feature, feature, d), List.mem_filter.mpr ⟨hd.edge hdep, ?_⟩, rfl⟩
    rw [decide_eq_true_eq, hname]

end

/-! ## What a wave starts from -/

/-- Each entry is about the entity and the dependent of its key. -/
def Faithful (key : DebounceKey) (entry : DebounceEntry) : Prop :=
  entry.view = key.view ∧ entry.viewVersion = key.viewVersion ∧ entry.dependentFeature = key.dependentFeature ∧
    WellKeyed entry.entity ∧ entry.entity.encoded = .ok key.encoded

section
variable {registry : Registry} {fromJson : Bytes → Except PyErr FeatureUpdated} {u : FeatureUpdated}

theorem planned_entity {c : RecomputeCandidate} (h : c ∈ planRecomputeWave registry u) : c.entity = u.entity := by
  unfold planRecomputeWave at h
  split at h
  · cases h
  · obtain ⟨edge, -, hc⟩ := List.mem_filterMap.mp ((List.mem_insertionSort _).mp h)
    unfold candidateOf at hc
    split at hc
    · cases hc
    · split at hc
      · cases hc
      · cases hc
        rfl

theorem observeAll_faithful (hu : WellKeyed u.entity) : ∀ {cs : List RecomputeCandidate} {entries : DebounceStore},
    (∀ c ∈ cs, c.entity = u.entity) → (∀ key entry, Dict.get? entries key = some entry → Faithful key entry) →
    ∃ entries', Propagation.observeAll (updateEvents registry fromJson) u cs entries = .ok entries' ∧
      (∀ key entry, Dict.get? entries' key = some entry → Faithful key entry) ∧
      (∀ key, (Dict.get? entries key).isSome → (Dict.get? entries' key).isSome) ∧
      ∀ c ∈ cs, ∀ encoded, u.entity.encoded = .ok encoded → (Dict.get? entries' (debounceKey c encoded)).isSome
  | [], entries, _, hf => ⟨entries, rfl, hf, fun _ h => h, fun c hc => (nomatch hc)⟩
  | c :: cs, entries, hcs, hf => by
    obtain ⟨encoded, henc⟩ := hu.encoded
    have hc : c.entity = u.entity := hcs c List.mem_cons_self
    have hfresh : Faithful (debounceKey c encoded)
        ⟨c.entity, c.view, c.viewVersion, c.dependentFeature, c.dependentVersion, u.dataTs, u.calcTs, 1⟩ :=
      ⟨rfl, rfl, rfl, hc ▸ hu, hc ▸ henc⟩
    obtain ⟨entries', ho, hf', hkeep, hall⟩ := observeAll_faithful hu (fun c hc => hcs c (List.mem_cons_of_mem _ hc))
      (DebounceStore.observe_preserves (debounceKey c encoded) c u.dataTs u.calcTs hf hfresh fun _ _ _ _ h => h)
    refine ⟨entries', ?_, hf', fun key h => hkeep key (DebounceStore.observe_keeps _ c u.dataTs u.calcTs h),
      fun c' hc' encoded' henc' => ?_⟩
    · unfold Propagation.observeAll
      rw [show (updateEvents registry fromJson).encoded u = .ok encoded from henc, ok_bind]
      exact ho
    · rcases List.mem_cons.mp hc' with rfl | hc'
      · cases henc.symm.trans henc'
        exact hkeep _ (DebounceStore.observe_adds _ c' u.dataTs u.calcTs entries)
      · exact hall c' hc' encoded' henc'

theorem observeUpdates_faithful : ∀ {us : List FeatureUpdated} {entries : DebounceStore},
    (∀ u ∈ us, WellKeyed u.entity) → (∀ key entry, Dict.get? entries key = some entry → Faithful key entry) →
    ∃ entries', observeUpdates (updateEvents registry fromJson) us entries = .ok entries' ∧
      (∀ key entry, Dict.get? entries' key = some entry → Faithful key entry) ∧
      (∀ key, (Dict.get? entries key).isSome → (Dict.get? entries' key).isSome) ∧
      ∀ u ∈ us, ∀ c ∈ planRecomputeWave registry u, ∀ encoded, u.entity.encoded = .ok encoded →
        (Dict.get? entries' (debounceKey c encoded)).isSome
  | [], entries, _, hf => ⟨entries, rfl, hf, fun _ h => h, fun u hu => (nomatch hu)⟩
  | u :: us, entries, hus, hf => by
    obtain ⟨entries₁, ho₁, hf₁, hkeep₁, hall₁⟩ := @observeAll_faithful registry fromJson u
      (hus u List.mem_cons_self) _ _ (fun c hc => planned_entity hc) hf
    obtain ⟨entries₂, ho₂, hf₂, hkeep₂, hall₂⟩ := observeUpdates_faithful
      (fun u hu => hus u (List.mem_cons_of_mem _ hu)) hf₁
    refine ⟨entries₂, ?_, hf₂, fun key h => hkeep₂ key (hkeep₁ key h), fun u' hu' c hc encoded henc => ?_⟩
    · have hplan : (updateEvents registry fromJson).plan u = .ok (planRecomputeWave registry u) := rfl
      unfold observeUpdates Propagation.handleFeatureUpdated
      rw [hplan]
      dsimp only
      rw [ho₁, ok_bind, ok_bind]
      exact ho₂
    · rcases List.mem_cons.mp hu' with rfl | hu'
      · exact hkeep₂ _ (hall₁ c hc encoded henc)
      · exact hall₂ u' hu' c hc encoded henc

theorem Dependent.targeted {view : FeatureViewDef} {feature : FeatureDef} {entityKey : EntityKey}
    (hd : Dependent registry view feature entityKey) {us : List FeatureUpdated} (hus : ∀ u ∈ us, WellKeyed u.entity)
    {entries : DebounceStore} (ho : observeUpdates (updateEvents registry fromJson) us [] = .ok entries) (hu : u ∈ us)
    (ht : Triggers view feature entityKey u) : ∃ entry ∈ entries, Targets view feature entityKey entry.2 := by
  obtain ⟨entries', ho', hfaithful, -, hall⟩ := @observeUpdates_faithful registry fromJson us [] hus
    fun key entry h => (nomatch h)
  cases ho.symm.trans ho'
  obtain ⟨c, hc, -, hview, hversion, hfeature⟩ := hd.planned ht
  obtain ⟨encoded, henc⟩ := (hus u hu).encoded
  obtain ⟨entry, hget⟩ := Option.isSome_iff_exists.mp (hall u hu c hc encoded henc)
  obtain ⟨hname, hvv, hdep, hkeyed, hentry⟩ := hfaithful _ entry hget
  refine ⟨_, Dict.mem_of_get? hget, hname.trans hview, hvv.trans hversion, hdep.trans hfeature, ?_⟩
  exact ht.key.trans (perm_of_encoded (hus u hu).nodup hkeyed.nodup henc hentry)

/-- The key of the unit is the key in the order of the view's fields. -/
theorem Dependent.unitKey {view : FeatureViewDef} {feature : FeatureDef} {entityKey : EntityKey}
    (hd : Dependent registry view feature entityKey) {entry : DebounceEntry}
    (h : Targets view feature entityKey entry) : Propagation.unitKey (some view) entry = .ok entityKey := by
  unfold Propagation.unitKey
  dsimp only
  rw [← hd.key_fields]
  exact EntityKey.fromMapping_perm h.key

end

end ClearFeature
