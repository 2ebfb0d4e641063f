import ClearFeature.WavesConverge

/-!
# Propagation converges

Between the steps of a run an update for the dependent is on its way, or its
history holds what a recomputation would give. A value that has gone away and
come back at one event time is not appended again, so an older row may hold it.
-/

namespace ClearFeature

open Prog

section
variable {w : WaveBackend} {view : FeatureViewDef} {feature : FeatureDef} {entityKey : EntityKey}

/-! ## A run -/

namespace PropagationRun

variable {fromJson : Bytes → Except PyErr FeatureUpdated} {s : PropagationRun}

/-- Between the steps of a run: an input row that no wave has seen is announced, and so is what the history lacks. -/
structure Inv (w : WaveBackend) (view : FeatureViewDef) (feature : FeatureDef) (entityKey : EntityKey)
    (s : PropagationRun) : Prop where
  keyed : ∀ u ∈ s.updates, WellKeyed u.entity
  seen : ∀ rec ∈ s.offline, rec.result ∈ s.arrived ∨ ∃ t ∈ s.lastWave, Eligible t rec
  rows : ∀ t, (∀ t' ∈ s.lastWave, t' ≤ t) → OwnRows view feature entityKey t s.offline
  inputs : ∀ rec ∈ s.offline, InputSlot view feature entityKey rec.slot →
    (∃ t ∈ s.lastWave, Eligible t rec) ∨ ∃ u ∈ s.updates, Triggers view feature entityKey u
  settled : (∃ u ∈ s.updates, Triggers view feature entityKey u) ∨ Current w.store view feature entityKey s.offline

theorem Inv.initial : Inv w view feature entityKey {} where
  keyed _ h := (nomatch h)
  seen _ h := (nomatch h)
  rows _ _ := .initial
  inputs _ h := (nomatch h)
  settled := .inr .initial

theorem announced_wellKeyed (name : String) (version : Int) (r : FeatureResult) (entityType : String)
    (source : FeatureUpdateSource) : ∀ u ∈ announced w name version r entityType source, WellKeyed u.entity := by
  intro u hu
  unfold announced at hu
  split at hu
  · cases hu
  · rename_i viewDef _
    obtain ⟨r', -, rfl⟩ := List.mem_map.mp hu
    exact featureUpdatedOf_wellKeyed viewDef entityType source r'

theorem announced_triggers (hd : Dependent w.registry view feature entityKey) {name : String} {version : Int}
    {r : FeatureResult} (h : InputSlot view feature entityKey (r.slot name version)) (entityType : String)
    (source : FeatureUpdateSource) :
    ∃ u ∈ announced w name version r entityType source, Triggers view feature entityKey u := by
  obtain ⟨hname, hversion⟩ := input_view h
  have hfound : findView? w.registry name version = some view := by
    rw [hname, hversion]
    exact findView?_valid hd.valid hd.view_mem
  unfold announced
  rw [hfound]
  exact hd.announces h hfound entityType source

theorem Inv.append (h : Inv w view feature entityKey s) (hd : Dependent w.registry view feature entityKey)
    {name : String} {version : Int} {r : FeatureResult} (hslot : r.slot name version ≠ ownSlot view feature entityKey)
    (entityType : String) (source : FeatureUpdateSource) :
    Inv w view feature entityKey (s.step w fromJson (.append name version r entityType source)) := by
  have hkeep : (∃ u ∈ s.updates, Triggers view feature entityKey u) →
      ∃ u ∈ s.updates ++ announced w name version r entityType source, Triggers view feature entityKey u :=
    fun ⟨u, hu, ht⟩ => ⟨u, List.mem_append_left _ hu, ht⟩
  have hnew : InputSlot view feature entityKey (r.slot name version) →
      ∃ u ∈ s.updates ++ announced w name version r entityType source, Triggers view feature entityKey u := by
    intro hin
    obtain ⟨u, hu, ht⟩ := announced_triggers hd hin entityType source
    exact ⟨u, List.mem_append_right _ hu, ht⟩
  refine ⟨fun u hu => ?_, fun rec hrec => ?_, fun t ht => (h.rows t ht).append_other hslot, fun rec hrec hin => ?_, ?_⟩
  · rcases List.mem_append.mp hu with hu | hu
    · exact h.keyed u hu
    · exact announced_wellKeyed name version r entityType source u hu
  · rcases List.mem_append.mp hrec with hrec | hrec
    · exact (h.seen rec hrec).imp (List.mem_append_left _) id
    · rw [List.mem_singleton.mp hrec]
      exact .inl (List.mem_append_right _ (List.mem_singleton.mpr rfl))
  · rcases List.mem_append.mp hrec with hrec | hrec
    · exact (h.inputs rec hrec hin).imp id hkeep
    · rw [List.mem_singleton.mp hrec] at hin
      exact .inr (hnew hin)
  · by_cases hin : InputSlot view feature entityKey (r.slot name version)
    · exact .inl (hnew hin)
    · exact h.settled.imp hkeep fun hc => hc.append_other hin hd

/-- An update is taken up by the wave or stays. -/
theorem mem_chosen_or_left {places : List Nat} {u : FeatureUpdated} (hu : u ∈ s.updates) :
    u ∈ s.chosen places ∨ u ∈ s.left places := by
  obtain ⟨i, hi, rfl⟩ := List.mem_iff_getElem.mp hu
  by_cases hplace : i ∈ places
  · exact .inl (List.mem_filterMap.mpr ⟨i, hplace, List.getElem?_eq_getElem hi⟩)
  · refine .inr (List.mem_map.mpr ⟨(s.updates[i], i), List.mem_filter.mpr ⟨?_, by simpa using hplace⟩, rfl⟩)
    exact List.mk_mem_zipIdx_iff_getElem?.mpr (List.getElem?_eq_getElem hi)

theorem chosen_subset {places : List Nat} : ∀ u ∈ s.chosen places, u ∈ s.updates := by
  intro u hu
  obtain ⟨i, -, hi⟩ := List.mem_filterMap.mp hu
  exact List.mem_of_getElem? hi

theorem left_subset {places : List Nat} : ∀ u ∈ s.left places, u ∈ s.updates := by
  intro u hu
  obtain ⟨⟨v, i⟩, hv, rfl⟩ := List.mem_map.mp hu
  exact List.mem_of_getElem? (List.mk_mem_zipIdx_iff_getElem?.mp (List.mem_filter.mp hv).1)

theorem goesThrough_spec {places : List Nat} {calcTs : Int} (h : s.goesThrough w fromJson places calcTs = true) :
    ∃ entries done t,
      observeUpdates (updateEvents w.registry fromJson) ((s.chosen places).map FeatureUpdated.delivered) [] = .ok entries ∧
      exec { w with now := calcTs }.service ⟨s.offline, []⟩
        (Propagation.executeWave w.registry w.hasModelRunner entries) = (done, .ok t) ∧
      s.step w fromJson (.wave places calcTs) =
        { offline := done.offline, updates := s.left places ++ updatesOf done.records, arrived := [],
          lastWave := some calcTs } := by
  unfold goesThrough at h
  unfold step
  dsimp only
  unfold runWave at h ⊢
  cases ho : observeUpdates (updateEvents w.registry fromJson) ((s.chosen places).map FeatureUpdated.delivered) [] with
  | error e =>
    rw [ho] at h
    cases h
  | ok entries =>
    rw [ho, ok_bind] at h
    rw [ok_bind]
    rcases hx : exec { w with now := calcTs }.service ⟨s.offline, []⟩
      (Propagation.executeWave w.registry w.hasModelRunner entries) with ⟨done, e | t⟩
    · rw [hx] at h
      cases h
    · refine ⟨entries, done, t, rfl, hx, ?_⟩
      rw [hx]

theorem Inv.wave (h : Inv w view feature entityKey s) (hp : w.PureUdfs)
    (hd : Dependent w.registry view feature entityKey) {places : List Nat} {calcTs : Int}
    (hadv : Advances w fromJson (ownSlot view feature entityKey) s (.wave places calcTs)) :
    Inv w view feature entityKey (s.step w fromJson (.wave places calcTs)) := by
  obtain ⟨hgo, hlater, harrived⟩ := hadv
  obtain ⟨entries, done, t, ho, hx, hstep⟩ := goesThrough_spec hgo
  have hbefore : ∀ t' ∈ s.lastWave, t' ≤ calcTs := fun t' ht' => le_of_lt (hlater t' ht')
  have hstart : WaveInv view feature entityKey calcTs ⟨s.offline, []⟩ := by
    refine ⟨h.rows calcTs hbefore, fun rec hrec => ?_, fun u hu => (nomatch hu)⟩
    rcases h.seen rec hrec with hin | ⟨t', ht', he⟩
    · exact harrived rec.result hin
    · exact he.mono (hbefore t' ht')
  have hkeyed : ∀ u ∈ (s.chosen places).map FeatureUpdated.delivered, WellKeyed u.entity := by
    intro u hu
    obtain ⟨v, hv, rfl⟩ := List.mem_map.mp hu
    exact (h.keyed v (chosen_subset v hv)).delivered
  have hpure : ({ w with now := calcTs } : WaveBackend).PureUdfs := hp
  have hdep : Dependent ({ w with now := calcTs } : WaveBackend).registry view feature entityKey := hd
  obtain ⟨hdone, hcovered⟩ := executeWave_covered hpure hdep hstart hx
  have hcov : (∃ u ∈ s.left places, Triggers view feature entityKey u) ∨
      Covered { w with now := calcTs } view feature entityKey done := by
    rcases h.settled with ⟨u, hu, ht⟩ | hc
    · -- the wave recomputes the dependent if it takes up the update that triggers it
      rcases @mem_chosen_or_left s places u hu with hu | hu
      · exact .inr (hcovered (.inr (hd.targeted hkeyed ho (List.mem_map_of_mem hu) ht.delivered)))
      · exact .inl ⟨u, hu, ht⟩
    · exact .inr (hcovered (.inl (.inr hc)))
  rw [hstep]
  refine ⟨fun u hu => ?_, fun rec hrec => .inr ⟨calcTs, rfl, hdone.eligible rec hrec⟩,
    fun t' ht' => hdone.rows.mono (ht' calcTs rfl), fun rec hrec _ => .inl ⟨calcTs, rfl, hdone.eligible rec hrec⟩, ?_⟩
  · rcases List.mem_append.mp hu with hu | hu
    · exact h.keyed u (left_subset u hu)
    · exact hdone.keyed u hu
  · rcases hcov with ⟨u, hu, ht⟩ | ⟨u, hu, ht⟩ | hc
    · exact .inl ⟨u, List.mem_append_left _ hu, ht⟩
    · exact .inl ⟨u, List.mem_append_right _ hu, ht⟩
    · exact .inr hc

theorem Inv.step (hp : w.PureUdfs) (hd : Dependent w.registry view feature entityKey) (s : PropagationRun)
    (a : PropagationAction) (h : Inv w view feature entityKey s)
    (hadv : Advances w fromJson (ownSlot view feature entityKey) s a) :
    Inv w view feature entityKey (s.step w fromJson a) := by
  cases a with
  | append name version r entityType source => exact h.append hd hadv entityType source
  | wave places calcTs => exact h.wave hp hd hadv

end PropagationRun

/-! ## Once all updates are taken up -/

/-- An exact duplicate of `r` stands before `x`. -/
def CameBack (offline : OfflineStore) (r : FeatureResult) (x : OfflineFeatureRecord) : Prop :=
  ∃ y, [y, x].Sublist (offline.rows x.slot) ∧ y.result.dataTs = r.dataTs ∧ y.result.value.pyEq r.value = true ∧
    sameFingerprint y.result r = true ∧ sameAvailability y.result r = true

/-- What is recomputed and what is selected: of one event time and with one value, unless the value came back. -/
def Reproduces (offline : OfflineStore) (r : FeatureResult) (x : OfflineFeatureRecord) : Prop :=
  x.result.dataTs = r.dataTs ∧ (x.result.value.pyEq r.value = true ∨ CameBack offline r x)

variable {offline : OfflineStore} {calcTs : Int}

theorem OwnRows.has_inputs (h : OwnRows view feature entityKey calcTs offline) {x : OfflineFeatureRecord}
    (hx : latest offline (ownSlot view feature entityKey) = some x) :
    ∀ d ∈ feature.deps, (w.store.inputOf view offline entityKey d.feature).isSome := by
  intro d hdep
  obtain ⟨y, hy, -⟩ := h.inputs_later x (LastMax.mem_of_lastMax _ hx) d hdep
  unfold FeatureStore.inputOf
  rw [hy]
  rfl

theorem OwnRows.reproduces (h : OwnRows view feature entityKey calcTs offline) {c : FeatureComputation}
    (hcur : existsInOffline offline view.name view.viewVersion (c.result feature.ref entityKey 0) = true)
    (hc : RecomputedFrom feature.deps (w.store.inputOf view offline entityKey) c) :
    ∃ x, latest offline (ownSlot view feature entityKey) = some x ∧
      Reproduces offline (c.result feature.ref entityKey calcTs) x := by
  obtain ⟨y, hmem, ⟨hslot, hdata, hvalue⟩, hfp, havail⟩ := exists_of_existsInOffline hcur
  have hy : y ∈ offline.rows (ownSlot view feature entityKey) := OfflineStore.mem_rows.mpr ⟨hmem, hslot⟩
  cases hx : latest offline (ownSlot view feature entityKey) with
  | none =>
    rw [(LastMax.lastMax_eq_none pitKey).mp hx] at hy
    cases hy
  | some x =>
    have hxin := LastMax.mem_of_lastMax _ hx
    -- the selected row is not newer than the oldest input, whose event time the recomputation has
    have hle : x.result.dataTs ≤ c.dataTs := by
      obtain ⟨d, hdep, c', hc', hcd⟩ := hc.data_mem
      obtain ⟨z, hz, hxz⟩ := h.inputs_later x hxin d hdep
      unfold FeatureStore.inputOf at hc'
      rw [hz] at hc'
      cases hc'
      rw [← hcd]
      exact hxz
    have hge := LastMax.le_of_lastMax _ hx y hy
    simp only [pitKey, Prod.Lex.toLex_le_toLex] at hge
    have hdata' : y.result.dataTs = c.dataTs := hdata
    have heq : y.result.dataTs = x.result.dataTs := by omega
    refine ⟨x, rfl, heq.symm.trans hdata', ?_⟩
    rcases before_latest h.sorted hx hy heq with rfl | hbefore
    · exact .inl hvalue
    · refine .inr ⟨y, ?_, hdata', hvalue, hfp, havail⟩
      rw [(OfflineStore.mem_rows.mp hxin).2]
      exact hbefore

/-- When no update is left, what is selected at the last wave is what a recomputation gives. -/
theorem propagation_converges (hp : w.PureUdfs) {fromJson : Bytes → Except PyErr FeatureUpdated}
    (hd : Dependent w.registry view feature entityKey) {actions : List PropagationAction}
    (hs : Runs.Steady (PropagationRun.step w fromJson)
      (PropagationRun.Advances w fromJson (ownSlot view feature entityKey)) {} actions)
    (hleft : (Runs.run (PropagationRun.step w fromJson) {} actions).updates = [])
    (hlast : (Runs.run (PropagationRun.step w fromJson) {} actions).lastWave = some calcTs) :
    let offline := (Runs.run (PropagationRun.step w fromJson) {} actions).offline
    ∀ out, w.store.computeDependentFromOffline offline view.name view.viewVersion entityKey calcTs 0 feature.name =
        .ok out →
      ∃ selected, offline.getPit entityKey feature.name feature.featureVersion view.name view.viewVersion calcTs 0 =
          .ok selected ∧
        Option.Rel (Reproduces offline) out selected := by
  intro offline out hout
  have hinv := Runs.Steady.invariant (PropagationRun.Inv.step hp hd) PropagationRun.Inv.initial hs
  have hrows : OwnRows view feature entityKey calcTs offline := hinv.rows calcTs fun t ht => by
    rw [hlast] at ht
    cases ht
    exact le_refl _
  have hinputs : ∀ rec ∈ offline, InputSlot view feature entityKey rec.slot → Eligible calcTs rec := by
    intro rec hrec hin
    rcases hinv.inputs rec hrec hin with ⟨t, ht, he⟩ | ⟨u, hu, -⟩
    · rw [hlast] at ht
      cases ht
      exact he
    · rw [hleft] at hu
      cases hu
  have hcurrent : Current w.store view feature entityKey offline := by
    rcases hinv.settled with ⟨u, hu, -⟩ | hc
    · rw [hleft] at hu
      cases hu
    · exact hc
  have hselected : pitRow (offline.rows (ownSlot view feature entityKey)) calcTs 0 =
      latest offline (ownSlot view feature entityKey) := pitRow_eq_latest fun rec hrec => (hrows.eligible rec hrec).1
  refine ⟨_, (getPit_eq (le_refl 0)).trans (congrArg Except.ok hselected), ?_⟩
  rw [hd.compute_latest hinputs] at hout
  by_cases hall : (feature.deps.all fun d => (w.store.inputOf view offline entityKey d.feature).isSome) = true
  · rw [if_pos hall] at hout
    rw [List.all_eq_true] at hall
    rcases hc : recomputed w.store.core view feature 0 (w.store.inputOf view offline entityKey) with e | _ | c
    · rw [hc] at hout
      cases hout
    · exact absurd hc (recomputed_ne_none hd.no_bounds hall)
    · rw [hc] at hout
      cases hout
      obtain ⟨x, hx, hreproduces⟩ := hrows.reproduces (hcurrent c hall hc) (recomputed_from hc)
      rw [hx]
      exact .some hreproduces
  · rw [if_neg hall] at hout
    cases hout
    cases hx : latest offline (ownSlot view feature entityKey) with
    | none => exact .none
    | some x => exact absurd (List.all_eq_true.mpr (hrows.has_inputs hx)) hall

end

/-! ## A copy of the last value -/

def copyFeature : FeatureDef where
  name := "copy"
  kind := .udf
  featureVersion := 1
  udf := "u.copy"
  dtype := "int"
  status := "live"
  deps := [⟨{ feature := "last", propagation := .reactive }, reactiveOnLast_ok⟩]
  lifecycle := .live
  ok := by decide

def copyView : FeatureViewDef where
  name := "risk"
  entity := "user"
  keyFields := ["user_id"]
  viewVersion := 1
  owner := "o"
  status := "live"
  features := [lastFeature, copyFeature]
  ok := by decide
  groups_nodup := by exact List.nodup_nil

def hashFive : String := "sha256:ef2d127de37b942baad06145e54b0c619a1f22327b2ebbcfbec78f5564afe39d"

def copyStore : FeatureStore where
  core := {
    registry := userRegistry copyView
    udfs := ("u.copy", fun _ deps => .ok ((Dict.get? deps "last").getD .null)) :: lastStore.core.udfs
    sha256 := digestTable (lastTable ++
      [(fingerprintText [("last:v1", 1, hashTen)], "6c8476ca33878d71237829b18b9027072d46922bb14d30a033c1c16dcfe52560"),
       (fingerprintText [("last:v1", 1, hashFive)], "eac3c38c431c23892ef29f3e39f84f1a24b16f312cb9dace735b2e19b5694b9b"),
       (fingerprintText [("last:v1", 20, hashTen)], "aa7fb9a924090e7afa10d6301c25429a66cd6b344d6fe2428ed6ac9dd4550eac")]) }
  resolver := lastStore.resolver

def copyWave : WaveBackend where
  store := copyStore
  now := 0
  hasModelRunner := false
  recomputeModel := fun _ _ => .error (.valueError "no model")

def copyFromJson : Bytes → Except PyErr FeatureUpdated := fun _ => .error (.valueError "FeatureUpdated is not valid JSON")

/-- The last value of a user for the event time, as computed at the calculation time. -/
def lastRow (entityKey : EntityKey) (value dataTs calcTs : Int) : PropagationAction :=
  .append "risk" 1 { ref := lastFeature.ref, entityKey, value := .int value, dataTs, calcTs } "user" .offlineWriter

theorem copy_dependent : Dependent copyWave.registry copyView copyFeature userKey where
  valid := by decide +kernel
  view_mem := List.mem_singleton.mpr rfl
  feature_mem := by decide
  computed := rfl
  no_inputs := rfl
  reactive := by decide
  no_bounds := by decide
  key_fields := rfl

theorem copy_pure : copyWave.PureUdfs := fun h => (nomatch h)

def copyRun (actions : List PropagationAction) : PropagationRun :=
  Runs.run (PropagationRun.step copyWave copyFromJson) {} actions

def copiedOnce : OfflineStore := (copyRun [lastRow userKey 10 1 10, .wave [0] 15]).offline

def copyRecomputed : Except PyErr (Option FeatureResult) :=
  copyStore.computeDependentFromOffline copiedOnce "risk" 1 userKey 15 0 "copy"

theorem propagation_converges_once :
    ∃ selected, copiedOnce.getPit userKey "copy" 1 "risk" 1 15 0 = .ok selected ∧
      Option.Rel (Reproduces copiedOnce) (okGet copyRecomputed (by decide +kernel)) selected :=
  @propagation_converges copyWave copyView copyFeature userKey 15 copy_pure copyFromJson copy_dependent
    [lastRow userKey 10 1 10, .wave [0] 15] (by decide +kernel) (by decide +kernel) (by decide +kernel) _
    (eq_ok_okGet copyRecomputed (by decide +kernel))

def selectedText : Except PyErr (Option OfflineFeatureRecord) → Option (List JsonTok)
  | .ok (some rec) => some (canonicalValueJson rec.result.value)
  | _ => none

def recomputedText : Except PyErr (Option FeatureResult) → Option (List JsonTok)
  | .ok (some r) => some (canonicalValueJson r.value)
  | _ => none

/-- Ten, then five, then ten again: the third recomputation is an exact duplicate of the first. -/
def backAndForth : List PropagationAction :=
  [lastRow userKey 10 1 10, .wave [0] 15, lastRow userKey 5 1 20, .wave [0] 25, lastRow userKey 10 1 30, .wave [0] 35]

/-- `Advances` for waves that are later than the calculation and the availability of what has arrived, not than its event
time. -/
def AdvancesByClock (s : PropagationRun) : PropagationAction → Prop
  | .append _ _ _ _ _ => True
  | .wave places calcTs => s.goesThrough copyWave copyFromJson places calcTs = true ∧ (∀ t ∈ s.lastWave, t < calcTs) ∧
      ∀ r ∈ s.arrived, r.calcTs < calcTs ∧ effectiveAvailable r < calcTs

instance (s : PropagationRun) : (a : PropagationAction) → Decidable (AdvancesByClock s a)
  | .append _ _ _ _ _ => inferInstanceAs (Decidable True)
  | .wave places calcTs => inferInstanceAs (Decidable (s.goesThrough copyWave copyFromJson places calcTs = true ∧
      (∀ t ∈ s.lastWave, t < calcTs) ∧ ∀ r ∈ s.arrived, r.calcTs < calcTs ∧ effectiveAvailable r < calcTs))

/-- A row of the event time twenty is taken up at fifteen; the second wave is about another user. -/
def aheadOfTime : List PropagationAction :=
  [lastRow userKey 10 20 10, .wave [0] 15, lastRow otherUserKey 5 1 20, .wave [0] 25]

theorem not_converged :
    Dependent copyWave.registry copyView copyFeature userKey ∧ copyWave.PureUdfs ∧
    (Runs.Steady (PropagationRun.step copyWave copyFromJson)
        (PropagationRun.Advances copyWave copyFromJson (ownSlot copyView copyFeature userKey)) {} backAndForth ∧
      Runs.Steady (PropagationRun.step copyWave copyFromJson) AdvancesByClock {} backAndForth ∧
      (copyRun backAndForth).updates = [] ∧ (copyRun backAndForth).lastWave = some 35 ∧
      recomputedText (copyStore.computeDependentFromOffline (copyRun backAndForth).offline "risk" 1 userKey 35 0 "copy") =
        some [.int 10] ∧
      selectedText ((copyRun backAndForth).offline.getPit userKey "copy" 1 "risk" 1 35 0) = some [.int 5]) ∧
    (Runs.Steady (PropagationRun.step copyWave copyFromJson) AdvancesByClock {} aheadOfTime ∧
      (copyRun aheadOfTime).updates = [] ∧ (copyRun aheadOfTime).lastWave = some 25 ∧
      recomputedText (copyStore.computeDependentFromOffline (copyRun aheadOfTime).offline "risk" 1 userKey 25 0 "copy") =
        some [.int 10] ∧
      selectedText ((copyRun aheadOfTime).offline.getPit userKey "copy" 1 "risk" 1 25 0) = none) := by
  refine ⟨copy_dependent, copy_pure, ⟨?_, ?_, ?_, ?_, ?_, ?_⟩, ?_, ?_, ?_, ?_, ?_⟩ <;> decide +kernel

end ClearFeature
