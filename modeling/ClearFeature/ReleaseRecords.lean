import ClearFeature.BundleStore
import ClearFeature.Promotion
import ClearFeature.StatusRecords

/-!
# Release records as texts (`fs_core/registry/bundle.py`, `fs_core/registry/promotion.py`)

Bundles, pointers and audit records are files of one JSON text each. Read back
a pointer or a record is what was written; the dictionaries of a bundle come
back in the order of their keys.
-/

namespace ClearFeature

open StableSort Wire

namespace Wire

/-- A dictionary of texts. -/
def texts (m : List (String × String)) : Value := .obj (m.map fun e => (e.1, .str e.2))

def asTexts (v : Value) : Except PyErr (List (String × String)) := do
  (← items v).mapM fun kv => do return (kv.1, ← asStr kv.2)

theorem texts_reads {m : List (String × String)} (hn : (Dict.keys m).Nodup) :
    (texts m).Proper ∧ asTexts ((texts m).normal false) = .ok (sortedBy Prod.fst m) := by
  have hread : List.Forall₂ (Named (ReadsAs asStr id)) m (m.map fun e => (e.1, .str e.2)) := by
    apply List.forall₂_map_right_iff.mpr (List.forall₂_same.mpr ?_)
    intro e _
    exact ⟨rfl, trivial, rfl⟩
  obtain ⟨hproper, sorted, hsorted, hentries⟩ := entries_roundTrip hread hn
  refine ⟨hproper, ?_⟩
  rw [asTexts, texts, hsorted]
  simp only [items, ok_bind]
  rw [hentries]
  simp [normalEntries]

/-- `None` or a dictionary of texts. -/
def texts? : Option (List (String × String)) → Value
  | none => .null
  | some m => texts m

def asTexts? (v : Value) : Except PyErr (Option (List (String × String))) :=
  match v with
  | .null => .ok none
  | v => do return some (← asTexts v)

theorem texts?_reads {m : Option (List (String × String))} (hn : ∀ d ∈ m, (Dict.keys d).Nodup) :
    (texts? m).Proper ∧ asTexts? ((texts? m).normal false) = .ok (m.map (sortedBy Prod.fst)) := by
  cases m with
  | none => exact ⟨trivial, rfl⟩
  | some d =>
    obtain ⟨hproper, hread⟩ := texts_reads (hn d rfl)
    refine ⟨hproper, ?_⟩
    rw [texts?, texts, Value.normal] at *
    simp only [asTexts?, hread, ok_bind]
    rfl

theorem str?_normal (s : Option String) : (str? s).normal false = str? s := by
  cases s <;> rfl

theorem str?_proper (s : Option String) : (str? s).Proper := by
  cases s <;> trivial

end Wire

def PromotionAction.text : PromotionAction → String
  | .promote => "promote"
  | .rollback => "rollback"

def PromotionAction.ofText? (s : String) : Option PromotionAction :=
  [.promote, .rollback].find? fun action => action.text = s

@[simp] theorem PromotionAction.ofText?_text (action : PromotionAction) : ofText? action.text = some action := by
  cases action <;> decide

section
variable (text : WireText)

/-! ## Bundles -/

def RegistryBundle.baseEntries (b : RegistryBundle) : List (String × Value) :=
  [("bundle_id", .str b.bundleId), ("bundle_digest", .str b.bundleDigest),
   ("created_at", .str (text.isoformat b.createdAt)), ("views", strs b.views), ("features", strs b.features),
   ("registry_version", str? b.registryVersion), ("source_ref", str? b.sourceRef), ("metadata", texts b.metadata)]

/-- The artifact's entries are there when it is. -/
def RegistryBundle.toDict (b : RegistryBundle) : Value :=
  .obj (b.baseEntries text ++ match b.featureArtifact with
    | none => []
    | some artifact =>
      [("feature_artifact", texts artifact), ("registry_definition_digest", str? b.registryDefinitionDigest)])

def RegistryBundle.fromDict (codec : WireCodec) (data : Value) : Except PyErr RegistryBundle := do
  let featureArtifact ← asTexts? (← data.getOr "feature_artifact" .null)
  let bundleId ← asStr (← data.item "bundle_id")
  let bundleDigest ← asStr (← data.item "bundle_digest")
  let createdAt ← instantAt codec data "created_at"
  let views ← (← (← data.item "views").toList).mapM asStr
  let features ← (← (← data.item "features").toList).mapM asStr
  let registryVersion ← asStr? (← data.getOr "registry_version" .null)
  let sourceRef ← asStr? (← data.getOr "source_ref" .null)
  let metadata ← asTexts (← data.getOr "metadata" (.obj []))
  let registryDefinitionDigest ← asStr? (← data.getOr "registry_definition_digest" .null)
  return { bundleId, bundleDigest, createdAt, views, features, registryVersion, sourceRef, metadata, featureArtifact,
           registryDefinitionDigest }

/-- A bundle as it is read back. -/
def RegistryBundle.normal (b : RegistryBundle) : RegistryBundle :=
  { b with metadata := sortedBy Prod.fst b.metadata, featureArtifact := b.featureArtifact.map (sortedBy Prod.fst) }

/-- A bundle whose dictionaries have no key twice, and which has the digest of its definitions only beside an artifact. -/
structure RegistryBundle.Written (b : RegistryBundle) : Prop where
  metadata : (Dict.keys b.metadata).Nodup
  artifact : ∀ m ∈ b.featureArtifact, (Dict.keys m).Nodup
  definition : b.featureArtifact = none → b.registryDefinitionDigest = none

theorem RegistryBundle.reads {b : RegistryBundle} (h : b.Written) :
    ReadsAs (fromDict text.toWireCodec) normal b (b.toDict text) := by
  let full := b.baseEntries text ++
    [("feature_artifact", texts? b.featureArtifact), ("registry_definition_digest", str? b.registryDefinitionDigest)]
  let optional : List (String × Value) :=
    [("feature_artifact", .null), ("registry_version", .null), ("source_ref", .null), ("metadata", .obj []),
     ("registry_definition_digest", .null)]
  have hn : (Dict.keys full).Nodup := by
    simp [full, baseEntries, Dict.keys]
  have hleft : LeftOut optional full (b.baseEntries text ++ match b.featureArtifact with
      | none => []
      | some artifact =>
        [("feature_artifact", texts artifact), ("registry_definition_digest", str? b.registryDefinitionDigest)]) := by
    cases hm : b.featureArtifact with
    | some artifact =>
      simp only [full, hm]
      exact LeftOut.refl _ _
    | none =>
      simp only [full, hm, h.definition hm]
      constructor
      · exact List.Sublist.append_left (List.nil_sublist _) _
      · intro kv hkv hnot
        rw [List.append_nil] at hnot
        have hrest := (List.mem_append.mp hkv).resolve_left hnot
        simp only [List.mem_cons, List.not_mem_nil, or_false] at hrest
        rcases hrest with rfl | rfl
        · rfl
        · rfl
  obtain ⟨hmetadata, hreadMetadata⟩ := texts_reads h.metadata
  obtain ⟨hartifact, hreadArtifact⟩ := texts?_reads h.artifact
  refine ⟨hleft.proper hn ?_, ?_⟩
  · exact ⟨trivial, trivial, trivial, strs_proper _, strs_proper _, str?_proper _, str?_proper _, hmetadata, hartifact,
      str?_proper _, trivial⟩
  · rw [fromDict, toDict, hleft.getOr hn "feature_artifact" rfl rfl rfl, hleft.item hn "bundle_id" rfl rfl,
      hleft.item hn "bundle_digest" rfl rfl, hleft.instantAt hn "created_at" rfl rfl, hleft.item hn "views" rfl rfl,
      hleft.item hn "features" rfl rfl, hleft.getOr hn "registry_version" rfl rfl rfl,
      hleft.getOr hn "source_ref" rfl rfl rfl, hleft.getOr hn "metadata" rfl rfl rfl,
      hleft.getOr hn "registry_definition_digest" rfl rfl rfl]
    simp only [ok_bind, hreadArtifact, hreadMetadata, asStr_str, str?_normal, asStr?_str?, strs,
      Value.normal, Value.normalList_eq_map, strs_normal, Value.toList, mapM_asStr]
    rfl

/-! ## Pointers -/

def EnvironmentPointer.entries (p : EnvironmentPointer) : List (String × Value) :=
  [("env", .str p.env), ("stage", .str p.stage), ("bundle_digest", .str p.bundleDigest),
   ("updated_at", .str (text.isoformat p.updatedAt)), ("shadow_started_at", isoformat? text p.shadowStartedAt),
   ("previous_digest", str? p.previousDigest)]

def EnvironmentPointer.toDict (p : EnvironmentPointer) : Value := .obj (p.entries text)

def EnvironmentPointer.fromDict (codec : WireCodec) (data : Value) : Except PyErr EnvironmentPointer := do
  let shadowStartedAt ← instantAt? codec data "shadow_started_at"
  let env ← asStr (← data.item "env")
  let stage ← asStr (← data.item "stage")
  let bundleDigest ← asStr (← data.item "bundle_digest")
  let updatedAt ← instantAt codec data "updated_at"
  let previousDigest ← asStr? (← data.getOr "previous_digest" .null)
  return { env, stage, bundleDigest, updatedAt, shadowStartedAt, previousDigest }

theorem EnvironmentPointer.reads (p : EnvironmentPointer) :
    ReadsAs (fromDict text.toWireCodec) id p (p.toDict text) := by
  have hn : (Dict.keys (p.entries text)).Nodup := by
    simp [entries, Dict.keys]
  have hleft := LeftOut.refl [("shadow_started_at", .null), ("previous_digest", .null)] (p.entries text)
  refine ⟨hleft.proper hn ?_, ?_⟩
  · refine ⟨trivial, trivial, trivial, trivial, ?_, str?_proper _, trivial⟩
    exact iso?_proper (isoformat?_eq text p.shadowStartedAt)
  · rw [fromDict, toDict, hleft.instantAt? hn "shadow_started_at" rfl rfl, hleft.item hn "env" rfl rfl,
      hleft.item hn "stage" rfl rfl, hleft.item hn "bundle_digest" rfl rfl, hleft.instantAt hn "updated_at" rfl rfl,
      hleft.getOr hn "previous_digest" rfl rfl rfl]
    simp only [ok_bind, Value.normal_str, asStr_str, str?_normal, asStr?_str?]
    rfl

/-! ## Audit records -/

def PromotionRecord.entries (r : PromotionRecord) : List (String × Value) :=
  [("promotion_id", .str r.promotionId), ("action", .str r.action.text), ("env", .str r.env), ("stage", .str r.stage),
   ("bundle_digest", .str r.bundleDigest), ("previous_digest", str? r.previousDigest), ("actor", .str r.actor),
   ("reason", .str r.reason), ("created_at", .str (text.isoformat r.createdAt)), ("approved_by", strs r.approvedBy),
   ("profile", str? r.profile), ("shadow_started_at", isoformat? text r.shadowStartedAt),
   ("shadow_age_override", .bool r.shadowAgeOverride), ("override_reason", str? r.overrideReason)]

def PromotionRecord.toDict (r : PromotionRecord) : Value := .obj (r.entries text)

def PromotionRecord.fromDict (codec : WireCodec) (data : Value) : Except PyErr PromotionRecord := do
  let shadowStartedAt ← instantAt? codec data "shadow_started_at"
  let promotionId ← asStr (← data.item "promotion_id")
  let action ← asState PromotionAction.ofText? (← data.item "action")
  let env ← asStr (← data.item "env")
  let stage ← asStr (← data.item "stage")
  let bundleDigest ← asStr (← data.item "bundle_digest")
  let previousDigest ← asStr? (← data.getOr "previous_digest" .null)
  let actor ← asStr (← data.item "actor")
  let reason ← asStr (← data.item "reason")
  let createdAt ← instantAt codec data "created_at"
  let approvedBy ← (← listOr data "approved_by").mapM asStr
  let profile ← asStr? (← data.getOr "profile" .null)
  let shadowAgeOverride ← asBool (← data.getOr "shadow_age_override" (.bool false))
  let overrideReason ← asStr? (← data.getOr "override_reason" .null)
  return { promotionId, action, env, stage, bundleDigest, previousDigest, actor, reason, createdAt, approvedBy, profile,
           shadowStartedAt, shadowAgeOverride, overrideReason }

theorem PromotionRecord.reads (r : PromotionRecord) : ReadsAs (fromDict text.toWireCodec) id r (r.toDict text) := by
  have hn : (Dict.keys (r.entries text)).Nodup := by
    simp [entries, Dict.keys]
  have hleft := LeftOut.refl
    [("previous_digest", .null), ("approved_by", .arr []), ("profile", .null), ("shadow_started_at", .null),
     ("shadow_age_override", .bool false), ("override_reason", .null)] (r.entries text)
  refine ⟨hleft.proper hn ?_, ?_⟩
  · refine ⟨trivial, trivial, trivial, trivial, trivial, str?_proper _, trivial, trivial, trivial, strs_proper _,
      str?_proper _, ?_, trivial, str?_proper _, trivial⟩
    exact iso?_proper (isoformat?_eq text r.shadowStartedAt)
  · rw [fromDict, toDict, hleft.instantAt? hn "shadow_started_at" rfl rfl, hleft.item hn "promotion_id" rfl rfl,
      hleft.item hn "action" rfl rfl, hleft.item hn "env" rfl rfl, hleft.item hn "stage" rfl rfl,
      hleft.item hn "bundle_digest" rfl rfl, hleft.getOr hn "previous_digest" rfl rfl rfl,
      hleft.item hn "actor" rfl rfl, hleft.item hn "reason" rfl rfl, hleft.instantAt hn "created_at" rfl rfl,
      hleft.listOr hn "approved_by" rfl rfl, hleft.getOr hn "profile" rfl rfl rfl,
      hleft.getOr hn "shadow_age_override" rfl rfl rfl, hleft.getOr hn "override_reason" rfl rfl rfl]
    simp only [ok_bind, asStr_str, str?_normal, asStr?_str?, asState, ofType,
      PromotionAction.ofText?_text, strs_normal, mapM_asStr, Value.normal]
    rfl

end

end ClearFeature
