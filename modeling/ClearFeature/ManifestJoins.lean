import ClearFeature.BatchScope
import ClearFeature.EntityKeys
import ClearFeature.LandingAccounts
import Mathlib.Data.List.Dedup

/-!
# The join of several manifests

The join is a function of the bindings that the eligible items state: an entity,
a source and a report. It is refused where a source of an entity has two reports,
and otherwise it has one item for each entity.
-/

namespace ClearFeature

/-! ## Bindings -/

/-- The key of an item in the order of the view's key fields. -/
def CanonicalKey (viewDef : FeatureViewDef) (key : List (String × String)) (k : EntityKey) : Prop :=
  ∃ parts, keyOfFields key viewDef.keyFields = .ok parts ∧ EntityKey.fromMapping parts (some viewDef.keyFields) = .ok k

/-- One of the items is eligible and states that the entity has the report from the source. -/
def ItemsBind (viewDef : FeatureViewDef) (items : List SourceDatasetItem) (k : EntityKey) (source reportRef : String) : Prop :=
  ∃ item ∈ items, ∃ key, item.eligible? [itemWritten, itemDuplicate] = some (key, reportRef) ∧ item.sourceName = source ∧
    CanonicalKey viewDef key k

/-- An item of one of the manifests does. -/
def Binds (datasets : SourceDatasets) (viewDef : FeatureViewDef) (ids : List String) (k : EntityKey)
    (source reportRef : String) : Prop :=
  ∃ id ∈ ids, ItemsBind viewDef (datasets.listItems id) k source reportRef

/-- Each eligible item has the view's key fields, with values that a key may have. -/
def ItemsCarry (viewDef : FeatureViewDef) (items : List SourceDatasetItem) : Prop :=
  ∀ item ∈ items, ∀ key reportRef, item.eligible? [itemWritten, itemDuplicate] = some (key, reportRef) →
    ∃ k, CanonicalKey viewDef key k

theorem keyOfFields_keys {key : List (String × String)} : ∀ {names : List String} {parts : List (String × String)},
    keyOfFields key names = .ok parts → Dict.keys parts = names
  | [], parts, h => by
    cases h
    rfl
  | name :: names, parts, h => by
    rw [keyOfFields] at h
    cases hv : Dict.get? key name with
    | none =>
      rw [hv] at h
      cases h
    | some value =>
      rw [hv] at h
      obtain ⟨rest, hrest, h⟩ := bind_eq_ok.mp h
      cases h
      exact congrArg (name :: ·) (keyOfFields_keys hrest)

theorem ofParts_ok {parts : List (String × String)} {k : EntityKey} (h : EntityKey.ofParts parts = .ok k) : k.parts = parts := by
  unfold EntityKey.ofParts at h
  split at h
  · cases h
    rfl
  · cases h

theorem fromMapping_ok {parts : List (String × String)} {order : List String} {k : EntityKey}
    (h : EntityKey.fromMapping parts (some order) = .ok k) : k.parts = order.map fun n => (n, partOf parts n) := by
  unfold EntityKey.fromMapping at h
  obtain ⟨_, -, h⟩ := bind_eq_ok.mp h
  exact ofParts_ok h

theorem canonical_parts {key parts : List (String × String)} {names : List String} {k : EntityKey}
    (hparts : keyOfFields key names = .ok parts) (hk : EntityKey.fromMapping parts (some names) = .ok k) : parts = k.parts := by
  have hkeys := keyOfFields_keys hparts
  have hk' := fromMapping_ok hk
  rw [← hkeys] at hk'
  have hnodup : (Dict.keys parts).Nodup := by
    have hn := k.parts_nodup
    rw [hk', Dict.keys, List.map_map] at hn
    simpa [Function.comp_def] using hn
  rw [hk', map_partOf hnodup]

theorem CanonicalKey.det {viewDef : FeatureViewDef} {key : List (String × String)} {k k' : EntityKey}
    (h : CanonicalKey viewDef key k) (h' : CanonicalKey viewDef key k') : k = k' := by
  obtain ⟨parts, hparts, hk⟩ := h
  obtain ⟨parts', hparts', hk'⟩ := h'
  rw [hparts] at hparts'
  cases hparts'
  rw [hk] at hk'
  exact Except.ok.inj hk'

/-! ## One binding more -/

namespace ManifestJoin

def bindings (j : ManifestJoin) (encoded : String) : List (String × String) := (Dict.get? j.join encoded).getD []

/-- The first report of a source stays; a second one is counted. -/
def add (j : ManifestJoin) (k : EntityKey) (source reportRef : String) : ManifestJoin :=
  match Dict.get? (j.bindings k.encode) source with
  | none => { j with
      join := Dict.set j.join k.encode (Dict.set (j.bindings k.encode) source reportRef)
      keyParts := Dict.set j.keyParts k.encode k.parts }
  | some existing =>
    if existing = reportRef then j
    else { j with
      ambiguousBindings := j.ambiguousBindings + 1
      ambiguousSources :=
        if source ∈ j.ambiguousSources then j.ambiguousSources else j.ambiguousSources ++ [source] }

end ManifestJoin

theorem joinItem_eq {viewDef : FeatureViewDef} {key : List (String × String)} {k : EntityKey} (h : CanonicalKey viewDef key k)
    (manifestId source reportRef : String) (j : ManifestJoin) :
    joinItem viewDef manifestId key source reportRef j = .ok (j.add k source reportRef) := by
  obtain ⟨parts, hparts, hk⟩ := h
  have heq := canonical_parts hparts hk
  subst heq
  unfold joinItem ManifestJoin.add
  rw [hparts, ok_bind, hk]
  show (match Dict.get? (j.bindings k.encode) source with
    | none => _
    | some existing => _) = _
  cases Dict.get? (j.bindings k.encode) source with
  | none => rfl
  | some existing =>
    dsimp only
    split <;> rfl

/-- What the join has of the bindings seen so far. -/
structure Joined (j : ManifestJoin) (seen : EntityKey → String → String → Prop) : Prop where
  bound : ∀ encoded source reportRef, Dict.get? (j.bindings encoded) source = some reportRef →
    ∃ k : EntityKey, k.encode = encoded ∧ seen k source reportRef
  found : ∀ k source reportRef, seen k source reportRef → ∃ first, Dict.get? (j.bindings k.encode) source = some first
  parts : ∀ k source reportRef, seen k source reportRef → Dict.get? j.keyParts k.encode = some k.parts
  keys : ∀ encoded ∈ Dict.keys j.join, ∃ source reportRef, Dict.get? (j.bindings encoded) source = some reportRef
  only : j.ambiguousBindings = 0 → ∀ k source reportRef, seen k source reportRef →
    Dict.get? (j.bindings k.encode) source = some reportRef
  conflict : j.ambiguousBindings ≠ 0 → ∃ k source reportRef reportRef', seen k source reportRef ∧
    seen k source reportRef' ∧ reportRef ≠ reportRef'
  nodup : (Dict.keys j.join).Nodup
  sources : ∀ encoded, (Dict.keys (j.bindings encoded)).Nodup

theorem Joined.empty : Joined {} fun _ _ _ => False where
  bound _ _ _ h := nomatch h
  found _ _ _ h := h.elim
  parts _ _ _ h := h.elim
  keys _ h := nomatch h
  only _ _ _ _ h := h.elim
  conflict h := absurd rfl h
  nodup := List.nodup_nil
  sources _ := List.nodup_nil

theorem Joined.congr {j : ManifestJoin} {seen seen' : EntityKey → String → String → Prop} (h : Joined j seen)
    (hseen : ∀ k source reportRef, seen k source reportRef ↔ seen' k source reportRef) : Joined j seen' := by
  have heq : seen = seen' := funext fun k => funext fun source => funext fun reportRef => propext (hseen k source reportRef)
  exact heq ▸ h

section
variable {j : ManifestJoin} {seen : EntityKey → String → String → Prop} {k : EntityKey} {source reportRef : String}

theorem bindings_new (encoded : String) : ({ j with
      join := Dict.set j.join k.encode (Dict.set (j.bindings k.encode) source reportRef)
      keyParts := Dict.set j.keyParts k.encode k.parts } : ManifestJoin).bindings encoded =
    if k.encode = encoded then Dict.set (j.bindings k.encode) source reportRef else j.bindings encoded := by
  unfold ManifestJoin.bindings
  dsimp only
  rw [Dict.get?_set]
  split
  · rfl
  · rfl

theorem get_bindings_new (encoded source' : String) : Dict.get? (({ j with
      join := Dict.set j.join k.encode (Dict.set (j.bindings k.encode) source reportRef)
      keyParts := Dict.set j.keyParts k.encode k.parts } : ManifestJoin).bindings encoded) source' =
    if k.encode = encoded ∧ source = source' then some reportRef else Dict.get? (j.bindings encoded) source' := by
  rw [bindings_new]
  by_cases he : k.encode = encoded
  · subst he
    rw [if_pos rfl, Dict.get?_set]
    simp only [true_and]
  · rw [if_neg he, if_neg fun h => he h.1]

theorem Joined.addNew (h : Joined j seen) (hnew : Dict.get? (j.bindings k.encode) source = none) :
    Joined { j with
        join := Dict.set j.join k.encode (Dict.set (j.bindings k.encode) source reportRef)
        keyParts := Dict.set j.keyParts k.encode k.parts }
      fun k' source' reportRef' => seen k' source' reportRef' ∨ (k' = k ∧ source' = source ∧ reportRef' = reportRef) where
  bound encoded source' reportRef' hget := by
    rw [get_bindings_new] at hget
    split at hget
    · rename_i hsame
      exact ⟨k, hsame.1, .inr ⟨rfl, hsame.2.symm, (Option.some.inj hget).symm⟩⟩
    · obtain ⟨k', hk', hseen⟩ := h.bound encoded source' reportRef' hget
      exact ⟨k', hk', .inl hseen⟩
  found k' source' reportRef' hseen := by
    rw [get_bindings_new]
    by_cases hsame : k.encode = k'.encode ∧ source = source'
    · exact ⟨reportRef, if_pos hsame⟩
    · rw [if_neg hsame]
      rcases hseen with hseen | ⟨rfl, rfl, -⟩
      · exact h.found k' source' reportRef' hseen
      · exact absurd ⟨rfl, rfl⟩ hsame
  parts k' source' reportRef' hseen := by
    dsimp only
    rw [Dict.get?_set]
    by_cases he : k.encode = k'.encode
    · rw [if_pos he, EntityKey.encode_inj he]
    · rw [if_neg he]
      rcases hseen with hseen | ⟨rfl, -, -⟩
      · exact h.parts k' source' reportRef' hseen
      · exact absurd rfl he
  keys encoded hm := by
    by_cases he : k.encode = encoded
    · refine ⟨source, reportRef, ?_⟩
      rw [get_bindings_new, if_pos ⟨he, rfl⟩]
    · rcases Dict.mem_keys_set.mp hm with hm | hm
      · exact absurd hm.symm he
      · obtain ⟨source', reportRef', hget⟩ := h.keys encoded hm
        refine ⟨source', reportRef', ?_⟩
        rw [get_bindings_new, if_neg fun hsame => he hsame.1, hget]
  only hzero k' source' reportRef' hseen := by
    rw [get_bindings_new]
    rcases hseen with hseen | ⟨rfl, rfl, rfl⟩
    · have hget := h.only hzero k' source' reportRef' hseen
      have hother : ¬ (k.encode = k'.encode ∧ source = source') := by
        rintro ⟨he, rfl⟩
        rw [← he, hnew] at hget
        cases hget
      rw [if_neg hother, hget]
    · rw [if_pos ⟨rfl, rfl⟩]
  conflict hne := by
    obtain ⟨k', source', ref, ref', hseen, hseen', hdiff⟩ := h.conflict hne
    exact ⟨k', source', ref, ref', .inl hseen, .inl hseen', hdiff⟩
  nodup := Dict.keys_set_nodup _ _ h.nodup
  sources encoded := by
    rw [bindings_new]
    split
    · exact Dict.keys_set_nodup _ _ (h.sources _)
    · exact h.sources _

/-- A binding that repeats or contradicts one leaves the bindings as they are. -/
theorem Joined.addKnown (h : Joined j seen) {existing : String}
    (hget : Dict.get? (j.bindings k.encode) source = some existing) (n : Nat) (sources : List String)
    (hcount : n = 0 ↔ j.ambiguousBindings = 0 ∧ existing = reportRef) :
    Joined { j with ambiguousBindings := n, ambiguousSources := sources }
      fun k' source' reportRef' => seen k' source' reportRef' ∨ (k' = k ∧ source' = source ∧ reportRef' = reportRef) := by
  obtain ⟨k₀, hk₀, hfirst⟩ := h.bound _ _ _ hget
  have hfirst : seen k source existing := EntityKey.eq_of_encode hk₀ ▸ hfirst
  constructor
  · intro encoded source' reportRef' hget'
    obtain ⟨k', hk', hseen⟩ := h.bound encoded source' reportRef' hget'
    exact ⟨k', hk', .inl hseen⟩
  · rintro k' source' reportRef' (hseen | ⟨rfl, rfl, rfl⟩)
    · exact h.found k' source' reportRef' hseen
    · exact ⟨existing, hget⟩
  · rintro k' source' reportRef' (hseen | ⟨rfl, rfl, rfl⟩)
    · exact h.parts k' source' reportRef' hseen
    · exact h.parts k' source' existing hfirst
  · exact h.keys
  · rintro hzero k' source' reportRef' (hseen | ⟨rfl, rfl, rfl⟩)
    · exact h.only (hcount.mp hzero).1 k' source' reportRef' hseen
    · exact (hcount.mp hzero).2 ▸ hget
  · intro hne
    by_cases hsame : existing = reportRef
    · obtain ⟨k', source', ref, ref', hseen, hseen', hdiff⟩ := h.conflict fun hzero => hne (hcount.mpr ⟨hzero, hsame⟩)
      exact ⟨k', source', ref, ref', .inl hseen, .inl hseen', hdiff⟩
    · exact ⟨k, source, existing, reportRef, .inl hfirst, .inr ⟨rfl, rfl, rfl⟩, hsame⟩
  · exact h.nodup
  · exact h.sources

theorem Joined.add (h : Joined j seen) (k : EntityKey) (source reportRef : String) : Joined (j.add k source reportRef)
    fun k' source' reportRef' => seen k' source' reportRef' ∨ (k' = k ∧ source' = source ∧ reportRef' = reportRef) := by
  unfold ManifestJoin.add
  cases hget : Dict.get? (j.bindings k.encode) source with
  | none => exact h.addNew hget
  | some existing =>
    dsimp only
    by_cases hsame : existing = reportRef
    · rw [if_pos hsame]
      exact h.addKnown hget j.ambiguousBindings j.ambiguousSources (by simp [hsame])
    · rw [if_neg hsame]
      exact h.addKnown hget _ _ (by simp [hsame])

end

/-! ## All items of all manifests -/

theorem itemsBind_cons {viewDef : FeatureViewDef} {item : SourceDatasetItem} {items : List SourceDatasetItem} {k : EntityKey}
    {source reportRef : String} : ItemsBind viewDef (item :: items) k source reportRef ↔
      ItemsBind viewDef [item] k source reportRef ∨ ItemsBind viewDef items k source reportRef := by
  simp only [ItemsBind, List.mem_cons, List.not_mem_nil, or_false, exists_eq_left, or_and_right, exists_or]

theorem itemsBind_one {viewDef : FeatureViewDef} {item : SourceDatasetItem} {key : List (String × String)} {ref : String}
    (he : item.eligible? [itemWritten, itemDuplicate] = some (key, ref)) {k₀ : EntityKey} (hk₀ : CanonicalKey viewDef key k₀)
    {k : EntityKey} {source reportRef : String} : ItemsBind viewDef [item] k source reportRef ↔
      k = k₀ ∧ source = item.sourceName ∧ reportRef = ref := by
  constructor
  · rintro ⟨item', hm, key', he', rfl, hk⟩
    rw [List.mem_singleton.mp hm, he] at he'
    cases he'
    exact ⟨hk.det hk₀, congrArg SourceDatasetItem.sourceName (List.mem_singleton.mp hm), rfl⟩
  · rintro ⟨rfl, rfl, rfl⟩
    exact ⟨item, List.mem_singleton.mpr rfl, key, he, rfl, hk₀⟩

theorem joinItems_joined {viewDef : FeatureViewDef} {manifestId : String} : ∀ {items : List SourceDatasetItem}
    {j : ManifestJoin} {seen : EntityKey → String → String → Prop}, ItemsCarry viewDef items → Joined j seen →
    ∃ j', joinItems viewDef manifestId j items = .ok j' ∧
      Joined j' fun k source reportRef => seen k source reportRef ∨ ItemsBind viewDef items k source reportRef
  | [], j, seen, _, hj => by
    refine ⟨j, rfl, hj.congr fun k source reportRef => ⟨.inl, ?_⟩⟩
    rintro (h | ⟨item, hm, -⟩)
    · exact h
    · exact nomatch hm
  | item :: items, j, seen, hcarry, hj => by
    have hrest : ItemsCarry viewDef items := fun i hi => hcarry i (List.mem_cons_of_mem _ hi)
    rw [joinItems]
    cases he : item.eligible? [itemWritten, itemDuplicate] with
    | none =>
      obtain ⟨j', hj', hjoined⟩ := joinItems_joined hrest hj
      have hnone : ∀ k source reportRef, ¬ ItemsBind viewDef [item] k source reportRef := by
        rintro k source reportRef ⟨i, hm, key, he', -⟩
        rw [List.mem_singleton.mp hm, he] at he'
        cases he'
      refine ⟨j', hj', hjoined.congr fun k source reportRef => ?_⟩
      rw [itemsBind_cons, or_iff_right (hnone k source reportRef)]
    | some bound =>
      obtain ⟨key, ref⟩ := bound
      obtain ⟨k₀, hk₀⟩ := hcarry item List.mem_cons_self key ref he
      obtain ⟨j', hj', hjoined⟩ := joinItems_joined hrest (hj.add k₀ item.sourceName ref)
      refine ⟨j', ?_, hjoined.congr fun k source reportRef => ?_⟩
      · dsimp only
        rw [joinItem_eq hk₀, ok_bind, hj']
      · rw [itemsBind_cons, itemsBind_one he hk₀, or_assoc]

theorem joinManifests_joined {datasets : SourceDatasets} {viewDef : FeatureViewDef} :
    ∀ {manifests : List SourceDatasetManifest} {j : ManifestJoin} {seen : EntityKey → String → String → Prop},
    (∀ m ∈ manifests, ItemsCarry viewDef (datasets.listItems m.manifestId)) → Joined j seen →
    ∃ j', joinManifests datasets viewDef j manifests = .ok j' ∧ Joined j' fun k source reportRef =>
      seen k source reportRef ∨ Binds datasets viewDef (manifests.map fun m => m.manifestId) k source reportRef
  | [], j, seen, _, hj => by
    refine ⟨j, rfl, hj.congr fun k source reportRef => ⟨.inl, ?_⟩⟩
    rintro (h | ⟨id, hm, -⟩)
    · exact h
    · exact nomatch hm
  | m :: manifests, j, seen, hcarry, hj => by
    obtain ⟨j₁, h₁, hjoined₁⟩ := @joinItems_joined viewDef m.manifestId _ j seen (hcarry m List.mem_cons_self) hj
    obtain ⟨j₂, h₂, hjoined₂⟩ := joinManifests_joined (fun m' hm' => hcarry m' (List.mem_cons_of_mem _ hm')) hjoined₁
    refine ⟨j₂, ?_, hjoined₂.congr fun k source reportRef => ?_⟩
    · rw [joinManifests, h₁, ok_bind, h₂]
    · simp only [Binds, List.map_cons, List.mem_cons, exists_eq_or_imp, or_assoc]

/-! ## The checks of the manifests -/

/-- What is checked of the manifests before their items are read. -/
structure ManifestsPass (registry : Registry) (datasets : SourceDatasets) (request : BatchJobIn) (ids : List String)
    (entityType : String) : Prop where
  selected : request.scope.manifestIds = some ids
  nonempty : ids ≠ []
  distinct : ids.Nodup
  exact : request.scope.includeDuplicateItems = false
  guarded : request.writeOnline = true → request.onlineRefreshMode = none ∨ request.onlineRefreshMode = some "guarded"
  landed : ∀ id ∈ ids, ∃ m, datasets.getManifest id = some m ∧ m.landingForm = landingRawReports ∧
    m.sourceName ∈ registry.sources.map (fun s => s.name) ∧ m.entityType = entityType

theorem refuseIf_pos {p : Prop} [Decidable p] {detail : String} (h : p) : refuseIf p detail = .error (badRequest detail) :=
  if_pos h

theorem refuseIf_neg {p : Prop} [Decidable p] {detail : String} (h : ¬ p) : refuseIf p detail = .ok () := if_neg h

theorem getManifest_id {datasets : SourceDatasets} {id : String} {m : SourceDatasetManifest}
    (h : datasets.getManifest id = some m) : m.manifestId = id := by
  simpa using List.find?_some h

theorem landedManifests_ok {registry : Registry} {datasets : SourceDatasets} {entityType : String} :
    ∀ {ids : List String}, (∀ id ∈ ids, ∃ m, datasets.getManifest id = some m ∧ m.landingForm = landingRawReports ∧
      m.sourceName ∈ registry.sources.map (fun s => s.name) ∧ m.entityType = entityType) →
    ∃ ms, landedManifests registry datasets ids = .ok ms ∧ ms.map (fun m => m.manifestId) = ids ∧
      ∀ m ∈ ms, m.entityType = entityType
  | [], _ => ⟨[], rfl, rfl, fun m hm => nomatch hm⟩
  | id :: ids, h => by
    obtain ⟨m, hget, hform, hsource, htype⟩ := h id List.mem_cons_self
    obtain ⟨ms, hms, hids, hall⟩ := landedManifests_ok fun i hi => h i (List.mem_cons_of_mem _ hi)
    refine ⟨m :: ms, ?_, ?_, List.forall_mem_cons.mpr ⟨htype, hall⟩⟩
    · have hlanded : landedManifest datasets id = .ok m := by
        unfold landedManifest
        rw [hget]
        exact bind_eq_ok.mpr ⟨(), refuseIf_neg (not_not.mpr hform), rfl⟩
      rw [landedManifests, hlanded, ok_bind, refuseIf_neg (not_not.mpr hsource), ok_bind, hms]
      rfl
    · rw [List.map_cons, getManifest_id hget, hids]

theorem sortNames_one {names : List String} {name : String} (hne : names ≠ []) (h : ∀ n ∈ names, n = name) :
    sortNames names.dedup = [name] := by
  have hdedup : names.dedup = [name] := by
    refine List.perm_singleton.mp ((List.perm_ext_iff_of_nodup (List.nodup_dedup _) (List.nodup_singleton _)).mpr fun n => ?_)
    rw [List.mem_dedup, List.mem_singleton]
    refine ⟨h n, ?_⟩
    rintro rfl
    obtain ⟨m, hm⟩ := List.exists_mem_of_ne_nil _ hne
    exact h m hm ▸ hm
  rw [hdedup]
  rfl

namespace ManifestJoin

def items (j : ManifestJoin) (entityType : String) : List BatchItem :=
  (sortNames (Dict.keys j.join)).map fun encoded =>
    { entityType, entityKey := (Dict.get? j.keyParts encoded).getD [], sourceRefs := j.bindings encoded }

/-- What is said of the bindings with more than one report. -/
def ambiguity (j : ManifestJoin) : String :=
  s!"{j.ambiguousBindings} entity/source binding(s) resolve to more than " ++
    (s!"one distinct report_ref across the selected manifests (sources: {reprNames (sortNames j.ambiguousSources)}); " ++
      "split the request or re-ingest a corrected dataset")

end ManifestJoin

def ambiguousBinding (detail : String) : HttpError := badRequest ("ambiguous_source_binding: " ++ detail)

section
variable {registry : Registry} {datasets : SourceDatasets} {request : BatchJobIn} {viewDef : FeatureViewDef}
  {ids : List String} {entityType : String}

/-- Past the checks the answer is read off the join of the manifests in sorted order. -/
theorem multiManifest_eq (hpass : ManifestsPass registry datasets request ids entityType)
    (hcarry : ∀ id ∈ ids, ItemsCarry viewDef (datasets.listItems id)) :
    ∃ j, Joined j (Binds datasets viewDef ids) ∧ multiManifestBatchItems registry datasets request viewDef =
      if j.ambiguousBindings ≠ 0 then .error (ambiguousBinding j.ambiguity)
      else .ok (j.items entityType, sortNames ids) := by
  have hmem : ∀ id, id ∈ sortNames ids ↔ id ∈ ids := fun id => (List.perm_insertionSort _ ids).mem_iff
  obtain ⟨ms, hms, hids, htypes⟩ := @landedManifests_ok registry datasets entityType (sortNames ids) fun id hid =>
    hpass.landed id ((hmem id).mp hid)
  have hne : ms ≠ [] := by
    rintro rfl
    obtain ⟨id, hid⟩ := List.exists_mem_of_ne_nil _ hpass.nonempty
    have hid' := (hmem id).mpr hid
    rw [← hids] at hid'
    exact nomatch hid'
  obtain ⟨j, hj, hjoined⟩ := @joinManifests_joined datasets viewDef ms {} _
    (fun m hm => hcarry m.manifestId ((hmem _).mp (hids ▸ List.mem_map_of_mem hm))) Joined.empty
  refine ⟨j, hjoined.congr fun k source reportRef => ?_, ?_⟩
  · rw [false_or, hids]
    simp only [Binds, hmem]
  have htype : sortNames (ms.map SourceDatasetManifest.entityType).dedup = [entityType] := by
    refine sortNames_one (fun h => hne (List.map_eq_nil_iff.mp h)) fun t ht => ?_
    obtain ⟨m, hm, rfl⟩ := List.mem_map.mp ht
    exact htypes m hm
  have hhead : (ms.head?.map SourceDatasetManifest.entityType).getD "" = entityType := by
    cases ms with
    | nil => exact absurd rfl hne
    | cons m ms => exact htypes m List.mem_cons_self
  have hrefresh : checkRefresh request = .ok () := by
    refine refuseIf_neg ?_
    rintro ⟨hwrite, hnone, hmode⟩
    exact (hpass.guarded hwrite).elim hnone hmode
  unfold multiManifestBatchItems
  simp only [hpass.selected, Option.getD_some, hpass.exact, hrefresh, hms, htype, hj, hhead, ok_bind]
  rw [refuseIf_neg (by decide), ok_bind, refuseIf_neg hpass.nonempty, ok_bind, refuseIf_neg (not_not.mpr hpass.distinct),
    ok_bind, refuseIf_neg (by simp), ok_bind]
  by_cases hzero : j.ambiguousBindings ≠ 0
  · rw [if_pos hzero, refuseIf_pos hzero, ambiguousBinding, ManifestJoin.ambiguity]
    simp only [String.append_assoc]
    rfl
  · rw [if_neg hzero, refuseIf_neg hzero, ok_bind]
    rfl

end

/-! ## The items -/

/-- A source of an entity has two reports. -/
def TwoReports (binds : EntityKey → String → String → Prop) : Prop :=
  ∃ k source reportRef reportRef', binds k source reportRef ∧ binds k source reportRef' ∧ reportRef ≠ reportRef'

/-- One item for each entity, in the order of the encoded keys, with all its bindings and no others. -/
structure ItemsJoin (binds : EntityKey → String → String → Prop) (entityType : String) (items : List BatchItem) : Prop where
  entity : ∀ item ∈ items, item.entityType = entityType ∧ item.inlineSources = [] ∧ ∃ k : EntityKey, item.entityKey = k.parts
  keys : ∀ k : EntityKey, (∃ item ∈ items, item.entityKey = k.parts) ↔ ∃ source reportRef, binds k source reportRef
  refs : ∀ item ∈ items, ∀ k : EntityKey, item.entityKey = k.parts → ∀ source reportRef,
    Dict.get? item.sourceRefs source = some reportRef ↔ binds k source reportRef
  sources : ∀ item ∈ items, (Dict.keys item.sourceRefs).Nodup
  sorted : (items.map fun item => joinParts item.entityKey).Pairwise (· < ·)

theorem EntityKey.encode_eq (k : EntityKey) : k.encode = joinParts k.parts := k.encoded_spec.2.2.2

theorem EntityKey.eq_of_parts {k k' : EntityKey} (h : k.parts = k'.parts) : k = k' :=
  EntityKey.eq_of_encode (by rw [k.encode_eq, k'.encode_eq, h])

section
variable {j : ManifestJoin} {binds : EntityKey → String → String → Prop} {entityType : String}

theorem Joined.twoReports (h : Joined j binds) : j.ambiguousBindings ≠ 0 ↔ TwoReports binds := by
  refine ⟨h.conflict, ?_⟩
  rintro ⟨k, source, reportRef, reportRef', hbind, hbind', hne⟩ hzero
  have hget := h.only hzero k source reportRef hbind
  rw [h.only hzero k source reportRef' hbind'] at hget
  exact hne (Option.some.inj hget).symm

theorem Joined.key (h : Joined j binds) {encoded : String} (hm : encoded ∈ Dict.keys j.join) :
    ∃ k : EntityKey, k.encode = encoded ∧ (Dict.get? j.keyParts encoded).getD [] = k.parts ∧
      ∃ source reportRef, binds k source reportRef := by
  obtain ⟨source, reportRef, hget⟩ := h.keys encoded hm
  obtain ⟨k, rfl, hbind⟩ := h.bound encoded source reportRef hget
  refine ⟨k, rfl, ?_, source, reportRef, hbind⟩
  rw [h.parts k source reportRef hbind]
  rfl

theorem Joined.key_mem (h : Joined j binds) {k : EntityKey} {source reportRef : String} (hbind : binds k source reportRef) :
    k.encode ∈ Dict.keys j.join := by
  obtain ⟨first, hget⟩ := h.found k source reportRef hbind
  by_contra hm
  rw [ManifestJoin.bindings, Dict.get?_eq_none_iff.mpr hm] at hget
  cases hget

theorem Joined.item (h : Joined j binds) {item : BatchItem} (hm : item ∈ j.items entityType) :
    ∃ k : EntityKey, (∃ source reportRef, binds k source reportRef) ∧
      item = { entityType, entityKey := k.parts, sourceRefs := j.bindings k.encode } := by
  obtain ⟨encoded, hencoded, rfl⟩ := List.mem_map.mp hm
  obtain ⟨k, rfl, hparts, hbind⟩ := h.key ((List.perm_insertionSort _ _).mem_iff.mp hencoded)
  exact ⟨k, hbind, by rw [hparts]⟩

theorem Joined.items (h : Joined j binds) (hzero : j.ambiguousBindings = 0) :
    ItemsJoin binds entityType (j.items entityType) := by
  constructor
  · intro item hm
    obtain ⟨k, -, rfl⟩ := h.item hm
    exact ⟨rfl, rfl, k, rfl⟩
  · intro k
    constructor
    · rintro ⟨item, hm, hkey⟩
      obtain ⟨k', hbind, rfl⟩ := h.item hm
      exact EntityKey.eq_of_parts hkey ▸ hbind
    · rintro ⟨source, reportRef, hbind⟩
      have hmem : k.encode ∈ sortNames (Dict.keys j.join) := (List.perm_insertionSort _ _).mem_iff.mpr (h.key_mem hbind)
      refine ⟨_, List.mem_map_of_mem hmem, ?_⟩
      dsimp only
      rw [h.parts k source reportRef hbind]
      rfl
  · intro item hm k hkey source reportRef
    obtain ⟨k', -, rfl⟩ := h.item hm
    obtain rfl := EntityKey.eq_of_parts hkey
    refine ⟨fun hget => ?_, fun hbind => h.only hzero _ source reportRef hbind⟩
    obtain ⟨k'', hk, hbind⟩ := h.bound _ source reportRef hget
    exact EntityKey.eq_of_encode hk ▸ hbind
  · intro item hm
    obtain ⟨k, -, rfl⟩ := h.item hm
    exact h.sources k.encode
  · have hkeys : (j.items entityType).map (fun item => joinParts item.entityKey) = sortNames (Dict.keys j.join) := by
      rw [ManifestJoin.items, List.map_map]
      refine (List.map_congr_left fun encoded hm => ?_).trans (List.map_id _)
      obtain ⟨k, rfl, hparts, -⟩ := h.key ((List.perm_insertionSort _ _).mem_iff.mp hm)
      dsimp only [Function.comp_apply, id_eq]
      rw [hparts, k.encode_eq]
    rw [hkeys]
    have hle : (sortNames (Dict.keys j.join)).Pairwise (· ≤ ·) := List.pairwise_insertionSort _ _
    have hnodup : (sortNames (Dict.keys j.join)).Nodup := (List.perm_insertionSort _ _).nodup_iff.mpr h.nodup
    refine List.Pairwise.imp₂ (fun a b hab hne => ?_) hle hnodup
    exact Decidable.not_not.mp fun hn => hne (String.le_antisymm hab (String.not_lt.mp hn))

end

end ClearFeature
