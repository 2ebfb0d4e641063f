import ClearFeature.BatchAggregate
import ClearFeature.IdempotencyKeys
import ClearFeature.ManifestJoins

/-!
# Jobs over several manifests

The items of the join are published in chunks, in their order, with none lost
and none twice. What a store has of a job is a first part of its chunks, and all
of them where nothing is raised.
-/

namespace ClearFeature

/-! ## The chunks -/

theorem slices_flatten {α : Type} {size : Nat} (hs : 0 < size) : ∀ (fuel : Nat) (items : List α), items.length ≤ fuel →
    (slices size fuel items).flatten = items
  | 0, items, h => by
    rw [List.length_eq_zero_iff.mp (Nat.le_zero.mp h)]
    rfl
  | fuel + 1, items, h => by
    unfold slices
    split
    · rename_i he
      rw [List.isEmpty_iff.mp he]
      rfl
    · rename_i he
      have hpos : 0 < items.length := List.length_pos_iff.mpr fun e => he (List.isEmpty_iff.mpr e)
      have hdrop : (items.drop size).length ≤ fuel := by
        rw [List.length_drop]
        omega
      rw [List.flatten_cons, slices_flatten hs fuel _ hdrop, List.take_append_drop]

theorem mem_slices {α : Type} {size : Nat} (hs : 0 < size) : ∀ {fuel : Nat} {items chunk : List α},
    chunk ∈ slices size fuel items → chunk ≠ [] ∧ chunk.length ≤ size
  | 0, items, chunk, h => nomatch h
  | fuel + 1, items, chunk, h => by
    unfold slices at h
    split at h
    · cases h
    · rename_i he
      rcases List.mem_cons.mp h with rfl | h
      · refine ⟨fun hnil => ?_, (List.length_take_le _ _)⟩
        rcases List.take_eq_nil_iff.mp hnil with h0 | h0
        · omega
        · exact he (List.isEmpty_iff.mpr h0)
      · exact mem_slices hs h

/-- The chunks hold the items in order, each chunk its own id and between one and `chunk_size` items. -/
structure ChunksExact (request : BatchJobIn) (items : List BatchItem) (events : List BatchChunkEvent) : Prop where
  concatenate : (events.map fun e => e.items).flatten = items
  ids : (events.map fun e => e.chunkId).Nodup
  nonempty : ∀ e ∈ events, e.items ≠ []
  bounded : ∀ e ∈ events, (e.items.length : Int) ≤ request.chunkSize

theorem chunkEvents_exact {prepared : PreparedBatch} {request : BatchJobIn} (hsize : 0 < request.chunkSize) (now : Int) :
    ChunksExact request prepared.items ((prepared.chunkEvents request now).map Prod.snd) := by
  have hpos : 0 < request.chunkSize.toNat := by omega
  have hitems : ((prepared.chunkEvents request now).map Prod.snd).map (fun e => e.items) = prepared.chunks request := by
    rw [PreparedBatch.chunkEvents, List.map_map, List.map_map]
    exact List.zipIdx_map_fst 0 _
  have hmem : ∀ e ∈ (prepared.chunkEvents request now).map Prod.snd, e.items ∈ prepared.chunks request := fun e he =>
    hitems ▸ List.mem_map_of_mem he
  constructor
  · rw [hitems]
    exact slices_flatten hpos _ _ (Nat.le_refl _)
  · have hids : ((prepared.chunkEvents request now).map Prod.snd).map (fun e => e.chunkId) =
        ((prepared.chunks request).zipIdx.map Prod.snd).map (chunkIdOf request.idempotencyKey) := by
      rw [PreparedBatch.chunkEvents, List.map_map, List.map_map, List.map_map]
      rfl
    rw [hids, List.zipIdx_map_snd]
    exact (List.nodup_range' 1 Nat.one_pos).map (chunkIdOf_injective request.idempotencyKey)
  · intro e he
    exact (mem_slices hpos (hmem e he)).1
  · intro e he
    have hle := (mem_slices hpos (hmem e he)).2
    omega

/-! ## Publication -/

/-- The first of the events are published, and all of them where nothing is raised. -/
structure PublishesInOrder (events : List BatchChunkEvent) (s : BatchStore)
    (out : BatchStore × Except HttpError BatchJobResponse) : Prop where
  begun : ∃ n, out.1.published = s.published ++ events.take n
  complete : ∀ response, out.2 = .ok response → out.1.published = s.published ++ events

theorem publishChunks_inOrder (job : BatchJobStatus) (response : BatchJobResponse) :
    ∀ (events : List (Nat × BatchChunkEvent)) (published : Nat) (s : BatchStore) (envs : List CallEnv),
      PublishesInOrder (events.map Prod.snd) s (s.exec envs (BatchApi.publishChunks job response published events))
  | [], published, s, envs => ⟨⟨0, (List.append_nil _).symm⟩, fun _ _ => (List.append_nil _).symm⟩
  | (index, event) :: events, published, s, envs => by
    rw [BatchApi.publishChunks, BatchStore.exec_ask]
    cases hreply : s.answer (envs.headD {}) (.publish event) with
    | ok u =>
      have hreached : (envs.headD {}).reached = true := (CallEnv.reply_ok hreply).1
      have hperform : (s.perform (envs.headD {}) (.publish event)).published = s.published ++ [event] := by
        rw [BatchStore.perform, if_pos hreached]
      obtain ⟨⟨n, hn⟩, hall⟩ := publishChunks_inOrder job response events (published + 1)
        (s.perform (envs.headD {}) (.publish event)) envs.tail
      refine ⟨⟨n + 1, ?_⟩, fun response' h => ?_⟩
      · rw [List.map_cons, List.take_succ_cons]
        rw [hperform, List.append_assoc] at hn
        exact hn
      · have h' := hall response' h
        rw [hperform, List.append_assoc] at h'
        exact h'
    | error e =>
      constructor
      · by_cases hreached : (envs.headD {}).reached = true
        · refine ⟨1, ?_⟩
          show (s.perform (envs.headD {}) (.publish event)).published = _
          rw [BatchStore.perform, if_pos hreached]
          rfl
        · refine ⟨0, ?_⟩
          show (s.perform (envs.headD {}) (.publish event)).published = _
          rw [BatchStore.perform, if_neg hreached, List.take_zero, List.append_nil]
      · intro response' h
        cases h

/-- The chunks of the items are what a request publishes: from the first on, and all of them where a job is made or made
again and nothing is raised. -/
def PublishesChunks (request : BatchJobIn) (items : List BatchItem) (s : BatchStore)
    (out : BatchStore × Except HttpError BatchJobResponse) : Prop :=
  ∃ events, ChunksExact request items events ∧ (∃ n, out.1.published = s.published ++ events.take n) ∧
    ((∀ job, Dict.get? s.jobs request.idempotencyKey = some job → job.status = .publishFailed) →
      ∀ response, out.2 = .ok response → out.1.published = s.published ++ events)

theorem createBatchJob_publishes {settings : BatchSettings} {registry : Registry} {datasets : SourceDatasets}
    {request : BatchJobIn} {prepared : PreparedBatch} (h : prepareBatch settings registry datasets request = .ok prepared)
    (s : BatchStore) (envs : List CallEnv) :
    PublishesChunks request prepared.items s (s.exec envs (BatchApi.createBatchJob settings registry datasets request)) := by
  have hsize := (prepareBatch_ok h).1
  have hcreate : ∀ (startedAt : Int) (envs : List CallEnv), PublishesChunks request prepared.items s
      (s.exec envs (BatchApi.createAndPublish prepared request startedAt)) := by
    intro startedAt envs
    rw [BatchApi.createAndPublish, BatchStore.exec_ask]
    have hrest := publishChunks_inOrder (prepared.job request startedAt) (acceptedJob (prepared.job request startedAt))
      (prepared.chunkEvents request startedAt) 0
      (s.perform (envs.headD {}) (.put (prepared.job request startedAt))) envs.tail
    exact ⟨_, chunkEvents_exact hsize startedAt, hrest.begun, fun _ => hrest.complete⟩
  unfold BatchApi.createBatchJob
  rw [h]
  dsimp only
  rw [BatchStore.exec_ask, BatchStore.exec_ask]
  have hjob : (s.perform (envs.headD {}) .now).answer (envs.tail.headD {}) (.get request.idempotencyKey) =
      Dict.get? s.jobs request.idempotencyKey := rfl
  rw [hjob]
  cases hj : Dict.get? s.jobs request.idempotencyKey with
  | none => exact hcreate _ _
  | some job =>
    dsimp only
    by_cases hf : job.status = .publishFailed
    · rw [if_pos hf]
      exact hcreate _ _
    · rw [if_neg hf]
      refine ⟨_, chunkEvents_exact hsize 0, ⟨0, (List.append_nil _).symm⟩, fun hfailed => absurd (hfailed job hj) hf⟩

/-! ## The whole job -/

def BatchJobIn.withManifests (request : BatchJobIn) (ids : List String) : BatchJobIn :=
  { request with scope := { request.scope with manifestIds := some ids } }

/-- What a job over several manifests is, given the bindings of their eligible items. -/
structure ManifestsJoin (registry : Registry) (datasets : SourceDatasets) (request : BatchJobIn) (viewDef : FeatureViewDef)
    (ids : List String) (entityType : String) : Prop where
  order : ∀ ids', ids'.Perm ids → multiManifestBatchItems registry datasets (request.withManifests ids') viewDef =
    multiManifestBatchItems registry datasets request viewDef
  ambiguous : (∃ detail, multiManifestBatchItems registry datasets request viewDef = .error (ambiguousBinding detail)) ↔
    TwoReports (Binds datasets viewDef ids)
  joined : ¬ TwoReports (Binds datasets viewDef ids) → ∃ items,
    multiManifestBatchItems registry datasets request viewDef = .ok (items, sortNames ids) ∧
      ItemsJoin (Binds datasets viewDef ids) entityType items
  published : ∀ settings prepared, prepareBatch settings registry datasets request = .ok prepared →
    multiManifestBatchItems registry datasets request viewDef = .ok (prepared.items, prepared.manifestIds) ∧
      ∀ (s : BatchStore) (envs : List CallEnv), PublishesChunks request prepared.items s
        (s.exec envs (BatchApi.createBatchJob settings registry datasets request))

section
variable {registry : Registry} {datasets : SourceDatasets} {request : BatchJobIn} {viewDef : FeatureViewDef}
  {ids : List String} {entityType : String}

theorem multiManifest_order (hids : request.scope.manifestIds = some ids) {ids' : List String} (h : ids'.Perm ids) :
    multiManifestBatchItems registry datasets (request.withManifests ids') viewDef =
      multiManifestBatchItems registry datasets request viewDef := by
  have hnil : ids' = [] ↔ ids = [] := ⟨fun e => (e ▸ h).nil_eq.symm, fun e => (e ▸ h).eq_nil⟩
  unfold multiManifestBatchItems BatchJobIn.withManifests checkRefresh
  simp only [hids, Option.getD_some, sortNames_eq_of_perm h, hnil, h.nodup_iff]

theorem prepareBatch_joined {settings : BatchSettings} {plan : FeaturePlan} {prepared : PreparedBatch}
    (htype : request.scope.type = "source_dataset_manifests")
    (hplan : planRequest registry request.view request.viewVersion request.requestedFeatures
      request.requestedFeatureGroups = .ok (viewDef, plan))
    (h : prepareBatch settings registry datasets request = .ok prepared) :
    multiManifestBatchItems registry datasets request viewDef = .ok (prepared.items, prepared.manifestIds) := by
  unfold prepareBatch at h
  obtain ⟨_, -, h⟩ := bind_eq_ok.mp h
  rw [hplan] at h
  dsimp only at h
  obtain ⟨⟨items, manifestId, manifestIds⟩, hscope, h⟩ := bind_eq_ok.mp h
  obtain ⟨_, -, h⟩ := bind_eq_ok.mp h
  obtain ⟨_, -, h⟩ := bind_eq_ok.mp h
  cases h
  unfold scopeItems at hscope
  rw [if_neg (by rw [htype]; decide), if_neg (by rw [htype]; decide), if_pos htype] at hscope
  obtain ⟨⟨items', ids'⟩, hmulti, hscope⟩ := bind_eq_ok.mp hscope
  cases hscope
  exact hmulti

/-- For every registry, store of manifests and request over manifests that pass the checks and whose eligible items have
the view's key fields. -/
theorem manifests_join {plan : FeaturePlan} (htype : request.scope.type = "source_dataset_manifests")
    (hplan : planRequest registry request.view request.viewVersion request.requestedFeatures
      request.requestedFeatureGroups = .ok (viewDef, plan))
    (hpass : ManifestsPass registry datasets request ids entityType)
    (hcarry : ∀ id ∈ ids, ItemsCarry viewDef (datasets.listItems id)) :
    ManifestsJoin registry datasets request viewDef ids entityType := by
  obtain ⟨j, hjoined, heq⟩ := multiManifest_eq hpass hcarry
  refine ⟨fun ids' => multiManifest_order hpass.selected, ?_, fun hnone => ?_, fun settings prepared h => ?_⟩
  · rw [← hjoined.twoReports, heq]
    constructor
    · rintro ⟨detail, h⟩ hzero
      rw [if_neg (not_not.mpr hzero)] at h
      cases h
    · intro hne
      exact ⟨j.ambiguity, if_pos hne⟩
  · have hzero : j.ambiguousBindings = 0 := by
      by_contra hne
      exact hnone (hjoined.twoReports.mp hne)
    exact ⟨j.items entityType, by rw [heq, if_neg (not_not.mpr hzero)], hjoined.items hzero⟩
  · exact ⟨prepareBatch_joined htype hplan h, fun s envs => createBatchJob_publishes h s envs⟩

end

/-! ## Two manifests -/

def reportItem (manifestId source user reportRef : String) : SourceDatasetItem where
  manifestId
  status := itemWritten
  sourceName := source
  entityKey := some [("user_id", user)]
  reportRef := some reportRef

def twoManifests : SourceDatasets where
  manifests := [⟨"m1", "user", "a", landingRawReports⟩, ⟨"m2", "user", "b", landingRawReports⟩]
  items := [reportItem "m1" "a" "1" "r1", reportItem "m1" "a" "2" "r2", reportItem "m2" "b" "1" "r3"]

def manifestsJob : BatchJobIn where
  view := "risk"
  viewVersion := 1
  scope := { type := "source_dataset_manifests", manifestIds := some ["m2", "m1"] }
  idempotencyKey := "job_1"
  requestedFeatures := ["last"]
  chunkSize := 1

theorem twoManifests_carry : ∀ id ∈ ["m2", "m1"], ItemsCarry lastView (twoManifests.listItems id) := by
  have hone : CanonicalKey lastView [("user_id", "1")] userKey :=
    ⟨userKey.parts, rfl, EntityKey.fromMapping_perm (k := userKey) (List.Perm.refl _)⟩
  have htwo : CanonicalKey lastView [("user_id", "2")] ⟨[("user_id", "2")], "user_id=2", by decide⟩ :=
    ⟨[("user_id", "2")], rfl, by rfl⟩
  have hall : ∀ item ∈ twoManifests.items, ∀ key reportRef,
      item.eligible? [itemWritten, itemDuplicate] = some (key, reportRef) → ∃ k, CanonicalKey lastView key k := by
    intro item hm key reportRef he
    simp only [twoManifests, List.mem_cons, List.not_mem_nil, or_false] at hm
    rcases hm with rfl | rfl | rfl
    · cases he
      exact ⟨_, hone⟩
    · cases he
      exact ⟨_, htwo⟩
    · cases he
      exact ⟨_, hone⟩
  exact fun id _ item hm => hall item (List.mem_filter.mp hm).1

theorem manifests_join_two :
    ManifestsJoin (userRegistry lastView) twoManifests manifestsJob lastView ["m2", "m1"] "user" := by
  have hplan : ∃ plan, planRequest (userRegistry lastView) manifestsJob.view manifestsJob.viewVersion
      manifestsJob.requestedFeatures manifestsJob.requestedFeatureGroups = .ok (lastView, plan) := by
    have hview : (planRequest (userRegistry lastView) manifestsJob.view manifestsJob.viewVersion
        manifestsJob.requestedFeatures manifestsJob.requestedFeatureGroups).toOption.map Prod.fst = some lastView := by
      decide +kernel
    cases hp : planRequest (userRegistry lastView) manifestsJob.view manifestsJob.viewVersion
        manifestsJob.requestedFeatures manifestsJob.requestedFeatureGroups with
    | error e =>
      rw [hp] at hview
      cases hview
    | ok out =>
      obtain ⟨view, plan⟩ := out
      rw [hp] at hview
      cases Option.some.inj hview
      exact ⟨plan, rfl⟩
  obtain ⟨plan, hplan⟩ := hplan
  refine manifests_join rfl hplan ⟨rfl, by decide, by decide, rfl, fun h => (nomatch h), ?_⟩ twoManifests_carry
  intro id hid
  rcases List.mem_cons.mp hid with rfl | hid
  · exact ⟨_, rfl, rfl, by decide, rfl⟩
  · rw [List.mem_singleton.mp hid]
    exact ⟨_, rfl, rfl, by decide, rfl⟩

end ClearFeature
