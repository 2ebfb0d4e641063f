import ClearFeature.BundleIdentity
import ClearFeature.Hashing
import Mathlib.Data.Set.Function

/-!
# Bundles and their store (`fs_core/registry/bundle.py`)

A store never replaces a bundle: a digest that is there with another
definitional key is refused. The key holds the registry's version, which the
digest is not computed from.
-/

namespace ClearFeature

open StableSort

/-- A digest-identified snapshot; instants are epoch microseconds. -/
structure RegistryBundle where
  bundleId : String
  bundleDigest : String
  createdAt : Int
  views : List String
  features : List String
  registryVersion : Option String := none
  sourceRef : Option String := none
  metadata : List (String × String) := []
  featureArtifact : Option (List (String × String)) := none
  registryDefinitionDigest : Option String := none

def RegistryBundle.definitionalKey (b : RegistryBundle) : String × Option String × List String × List String :=
  (b.bundleDigest, b.registryVersion, b.views, b.features)

/-- The text whose hash is the definitions-only digest. -/
def definitionText (content : Value) : List JsonTok := canonicalValueJson content

def computeBundleDigest (sha256 : Sha256) (r : Registry) : Except PyErr String := do
  let content ← canonicalRegistryContent r
  .ok ("sha256:" ++ sha256 (definitionText content))

/-- The text whose hash is the artifact-bound digest. -/
def finalText (registryDefinitionDigest : String) (featureArtifact : List (String × String)) : List JsonTok :=
  canonicalValueJson (.obj [("registry_definition_digest", .str registryDefinitionDigest),
    ("feature_artifact", .obj ((sortedBy Prod.fst featureArtifact).map fun e => (e.1, .str e.2)))])

def computeFinalBundleDigest (sha256 : Sha256) (registryDefinitionDigest : String)
    (featureArtifact : List (String × String)) : String :=
  "sha256:" ++ sha256 (finalText registryDefinitionDigest featureArtifact)

def viewLabel (v : FeatureViewDef) : String := s!"{v.name}:v{v.viewVersion}"

def featureLabel (v : FeatureViewDef) (f : FeatureDef) : String := s!"{v.name}:v{v.viewVersion}:{f.name}:v{f.featureVersion}"

/-- The arguments of `build_registry_bundle`. -/
structure BundleArgs where
  registry : Registry
  bundleId : Option String := none
  createdAt : Int
  sourceRef : Option String := none
  metadata : Option (List (String × String)) := none
  featureArtifact : Option (List (String × String)) := none
  artifact_nodup : ∀ m ∈ featureArtifact, (Dict.keys m).Nodup

def bundleOf (sha256 : Sha256) (a : BundleArgs) (definitionDigest : String) : RegistryBundle :=
  let digest := match a.featureArtifact with
    | none => definitionDigest
    | some artifact => computeFinalBundleDigest sha256 definitionDigest artifact
  {
    -- an empty id is no id
    bundleId := match a.bundleId with
      | some id => if id = "" then digest else id
      | none => digest
    bundleDigest := digest
    createdAt := a.createdAt
    views := sortedBy id (a.registry.featureViews.map viewLabel)
    features := sortedBy id (a.registry.featureViews.flatMap fun v => v.features.map (featureLabel v))
    registryVersion := some a.registry.registryVersion
    sourceRef := a.sourceRef
    metadata := a.metadata.getD []
    featureArtifact := a.featureArtifact
    registryDefinitionDigest := a.featureArtifact.map fun _ => definitionDigest }

def buildRegistryBundle (sha256 : Sha256) (a : BundleArgs) : Except PyErr RegistryBundle := do
  let definitionDigest ← computeBundleDigest sha256 a.registry
  .ok (bundleOf sha256 a definitionDigest)

/-! ## The store -/

/-- `InMemoryBundleStore._bundles`. -/
abbrev BundleStore := List (String × RegistryBundle)

def BundleStore.put (bundles : BundleStore) (bundle : RegistryBundle) : Except PyErr BundleStore :=
  match Dict.get? bundles bundle.bundleDigest with
  | none => .ok (Dict.set bundles bundle.bundleDigest bundle)
  | some existing =>
    if existing.definitionalKey ≠ bundle.definitionalKey then
      .error (.valueError s!"bundle digest {bundle.bundleDigest} already stored with different content; registry bundles are immutable")
    else .ok bundles

/-- What a sequence of puts answers; a refused put leaves the store as it was. -/
def BundleStore.putAll : BundleStore → List RegistryBundle → List (Except PyErr Unit)
  | _, [] => []
  | bundles, b :: bs =>
    match bundles.put b with
    | .ok bundles' => .ok () :: bundles'.putAll bs
    | .error e => .error e :: bundles.putAll bs

/-- Nothing is refused exactly when one digest comes with one key, in the store and among the bundles. -/
theorem BundleStore.putAll_ok_iff : ∀ (bs : List RegistryBundle) (bundles : BundleStore),
    (∀ answer ∈ bundles.putAll bs, answer = .ok ()) ↔
      (∀ b ∈ bs, ∀ e, Dict.get? bundles b.bundleDigest = some e → e.definitionalKey = b.definitionalKey) ∧
      ∀ b ∈ bs, ∀ b' ∈ bs, b.bundleDigest = b'.bundleDigest → b.definitionalKey = b'.definitionalKey
  | [], bundles => by simp [BundleStore.putAll]
  | b :: bs, bundles => by
    have ih := BundleStore.putAll_ok_iff bs
    rw [BundleStore.putAll, BundleStore.put]
    cases hget : Dict.get? bundles b.bundleDigest with
    | none =>
      simp only [List.forall_mem_cons, ih, true_and, hget, reduceCtorEq, false_implies, implies_true]
      constructor
      · rintro ⟨hstored, hpairs⟩
        have hb : ∀ c ∈ bs, b.bundleDigest = c.bundleDigest → b.definitionalKey = c.definitionalKey := by
          intro c hc h
          exact hstored c hc b (by rw [Dict.get?_set, if_pos h])
        refine ⟨fun c hc e he => hstored c hc e ?_, hb, fun c hc => ⟨fun h => (hb c hc h.symm).symm, hpairs c hc⟩⟩
        have hne : b.bundleDigest ≠ c.bundleDigest := by
          intro h
          rw [← h, hget] at he
          cases he
        rw [Dict.get?_set, if_neg hne, he]
      · rintro ⟨hstored, hb, hpairs⟩
        refine ⟨fun c hc e he => ?_, fun c hc => (hpairs c hc).2⟩
        rw [Dict.get?_set] at he
        by_cases h : b.bundleDigest = c.bundleDigest
        · rw [if_pos h, Option.some.injEq] at he
          exact he ▸ hb c hc h
        · rw [if_neg h] at he
          exact hstored c hc e he
    | some existing =>
      dsimp only
      by_cases hkey : existing.definitionalKey = b.definitionalKey
      · rw [if_neg (not_not.mpr hkey)]
        simp only [List.forall_mem_cons, ih, true_and, hget, Option.some.injEq, forall_eq', imp_self]
        constructor
        · rintro ⟨hstored, hpairs⟩
          have hb : ∀ c ∈ bs, b.bundleDigest = c.bundleDigest → b.definitionalKey = c.definitionalKey := by
            intro c hc h
            exact hkey.symm.trans (hstored c hc existing (h ▸ hget))
          exact ⟨⟨hkey, hstored⟩, hb, fun c hc => ⟨fun h => (hb c hc h.symm).symm, hpairs c hc⟩⟩
        · rintro ⟨⟨-, hstored⟩, -, hpairs⟩
          exact ⟨hstored, fun c hc => (hpairs c hc).2⟩
      · rw [if_pos hkey]
        constructor
        · intro h
          cases h _ List.mem_cons_self
        · rintro ⟨hstored, -⟩
          exact absurd (hstored b List.mem_cons_self existing hget) hkey

theorem BundleStore.putAll_conflict {b b' : RegistryBundle} (hdigest : b.bundleDigest = b'.bundleDigest)
    (hkey : b.definitionalKey ≠ b'.definitionalKey) :
    BundleStore.putAll [] [b, b'] = [.ok (),
      .error (.valueError s!"bundle digest {b.bundleDigest} already stored with different content; registry bundles are immutable")] := by
  have hfirst : BundleStore.put [] b = .ok [(b.bundleDigest, b)] := rfl
  have hsecond : BundleStore.put [(b.bundleDigest, b)] b' =
      .error (.valueError s!"bundle digest {b.bundleDigest} already stored with different content; registry bundles are immutable") := by
    rw [BundleStore.put, Dict.get?_cons, if_pos hdigest]
    dsimp only
    rw [if_pos hkey, hdigest]
  simp [BundleStore.putAll, hfirst, hsecond]

/-! ## Digests and definitions -/

/-- The texts that building a bundle hashes. -/
def BundleArgs.Hashes (sha256 : Sha256) (a : BundleArgs) (text : List JsonTok) : Prop :=
  ∃ content, canonicalRegistryContent a.registry = .ok content ∧
    (text = definitionText content ∨
      ∃ artifact ∈ a.featureArtifact, text = finalText ("sha256:" ++ sha256 (definitionText content)) artifact)

/-- The same definitions, bound to the same artifact. -/
structure SameDefinitions (a a' : BundleArgs) : Prop where
  registry : Equivalent a.registry a'.registry
  ties : SameTies a.registry a'.registry
  artifact : Option.Rel List.Perm a.featureArtifact a'.featureArtifact

theorem definitionText_eq_iff {r r' : Registry} (hr : validateRegistry r = .ok ()) (hr' : validateRegistry r' = .ok ()) :
    definitionText (registryContent r) = definitionText (registryContent r') ↔ Equivalent r r' ∧ SameTies r r' :=
  Value.toks_eq_iff.trans (normal_registryContent_iff hr hr')

theorem finalText_eq_iff {d d' : String} {m m' : List (String × String)} (hn : (Dict.keys m).Nodup) :
    finalText d m = finalText d' m' ↔ d = d' ∧ m.Perm m' := by
  have hinj : Function.Injective fun e : String × String => (e.1, (Value.str e.2).normal false) := by
    rintro ⟨k, v⟩ ⟨k', v'⟩ h
    simpa using h
  have hartifact : (Value.obj ((sortedBy Prod.fst m).map fun e => (e.1, .str e.2))).normal false =
      (Value.obj ((sortedBy Prod.fst m').map fun e => (e.1, .str e.2))).normal false ↔ m.Perm m' := by
    rw [Value.normal_obj_eq_iff_perm, List.map_map, List.map_map]
    · refine (List.map_perm_map_iff hinj).trans ⟨fun h => ?_, fun h => ?_⟩
      · exact (sortedBy_perm Prod.fst m).symm.trans (h.trans (sortedBy_perm Prod.fst m'))
      · exact (sortedBy_perm Prod.fst m).trans (h.trans (sortedBy_perm Prod.fst m').symm)
    · rw [Dict.keys, List.map_map]
      exact ((sortedBy_perm Prod.fst m).map _).nodup_iff.mpr hn
  refine Value.toks_eq_iff.trans ?_
  rw [Value.normal_obj_eq_iff]
  · simp [Dict.values, hartifact]
  · rfl
  · simp [Dict.keys]

/-- A definitions-only text is never an artifact-bound one. -/
theorem definitionText_ne_finalText (r : Registry) (d : String) (m : List (String × String)) :
    definitionText (registryContent r) ≠ finalText d m := by
  intro h
  have hperm := (Value.normal_obj_eq_iff_perm (by simp [Dict.keys])).mp (Value.toks_eq_iff.mp h)
  have hlen := hperm.length_eq
  simp at hlen

section
variable {sha256 : Sha256} {a a' : BundleArgs}

def definitionDigest (sha256 : Sha256) (r : Registry) : String := "sha256:" ++ sha256 (definitionText (registryContent r))

theorem buildRegistryBundle_eq (hr : validateRegistry a.registry = .ok ()) :
    buildRegistryBundle sha256 a = .ok (bundleOf sha256 a (definitionDigest sha256 a.registry)) := by
  rw [buildRegistryBundle, computeBundleDigest, canonicalRegistryContent_eq hr]
  rfl

theorem hashes_definitionText (hr : validateRegistry a.registry = .ok ()) :
    a.Hashes sha256 (definitionText (registryContent a.registry)) :=
  ⟨_, canonicalRegistryContent_eq hr, .inl rfl⟩

theorem hashes_finalText (hr : validateRegistry a.registry = .ok ()) {m : List (String × String)}
    (hm : a.featureArtifact = some m) : a.Hashes sha256 (finalText (definitionDigest sha256 a.registry) m) :=
  ⟨_, canonicalRegistryContent_eq hr, .inr ⟨m, hm, rfl⟩⟩

variable (hr : validateRegistry a.registry = .ok ()) (hr' : validateRegistry a'.registry = .ok ())
  (hsha : ∀ t t', a.Hashes sha256 t → a'.Hashes sha256 t' → sha256 t = sha256 t' → t = t')
include hr hr' hsha

theorem definitionDigest_eq_iff :
    definitionDigest sha256 a.registry = definitionDigest sha256 a'.registry ↔
      Equivalent a.registry a'.registry ∧ SameTies a.registry a'.registry := by
  rw [← definitionText_eq_iff hr hr', definitionDigest, definitionDigest, String.append_right_inj]
  exact ⟨hsha _ _ (hashes_definitionText hr) (hashes_definitionText hr'), fun h => by rw [h]⟩

theorem finalDigest_eq_iff {m m' : List (String × String)} (hm : a.featureArtifact = some m)
    (hm' : a'.featureArtifact = some m') :
    computeFinalBundleDigest sha256 (definitionDigest sha256 a.registry) m =
        computeFinalBundleDigest sha256 (definitionDigest sha256 a'.registry) m' ↔
      (Equivalent a.registry a'.registry ∧ SameTies a.registry a'.registry) ∧ m.Perm m' := by
  rw [← definitionDigest_eq_iff hr hr' hsha, ← finalText_eq_iff (a.artifact_nodup m hm), computeFinalBundleDigest,
    computeFinalBundleDigest, String.append_right_inj]
  exact ⟨hsha _ _ (hashes_finalText hr hm) (hashes_finalText hr' hm'), fun h => by rw [h]⟩

/-- One digest, one set of definitions and one artifact. -/
theorem bundleDigest_eq_iff :
    (bundleOf sha256 a (definitionDigest sha256 a.registry)).bundleDigest =
        (bundleOf sha256 a' (definitionDigest sha256 a'.registry)).bundleDigest ↔ SameDefinitions a a' := by
  have hsame : SameDefinitions a a' ↔ (Equivalent a.registry a'.registry ∧ SameTies a.registry a'.registry) ∧
      Option.Rel List.Perm a.featureArtifact a'.featureArtifact :=
    ⟨fun h => ⟨⟨h.registry, h.ties⟩, h.artifact⟩, fun h => ⟨h.1.1, h.1.2, h.2⟩⟩
  rw [hsame]
  cases hm : a.featureArtifact with
  | none =>
    cases hm' : a'.featureArtifact with
    | none =>
      simp only [bundleOf, hm, hm', definitionDigest_eq_iff hr hr' hsha]
      exact ⟨fun h => ⟨h, .none⟩, And.left⟩
    | some m' =>
      simp only [bundleOf, hm, hm']
      constructor
      · intro h
        have hhash := (String.append_right_inj "sha256:").mp h
        exact absurd (hsha _ _ (hashes_definitionText hr) (hashes_finalText hr' hm') hhash)
          (definitionText_ne_finalText _ _ _)
      · rintro ⟨-, h⟩
        cases h
  | some m =>
    cases hm' : a'.featureArtifact with
    | none =>
      simp only [bundleOf, hm, hm']
      constructor
      · intro h
        have hhash := (String.append_right_inj "sha256:").mp h
        exact absurd (hsha _ _ (hashes_finalText hr hm) (hashes_definitionText hr') hhash).symm
          (definitionText_ne_finalText _ _ _)
      · rintro ⟨-, h⟩
        cases h
    | some m' =>
      simp only [bundleOf, hm, hm', finalDigest_eq_iff hr hr' hsha hm hm']
      refine and_congr_right fun _ => ⟨.some, fun h => ?_⟩
      cases h with
      | some h => exact h

omit hr hr' hsha in
/-- Equal definitions are listed under equal labels. -/
theorem labels_eq (h : Equivalent a.registry a'.registry) (d d' : String) :
    (bundleOf sha256 a d).views = (bundleOf sha256 a' d').views ∧
      (bundleOf sha256 a d).features = (bundleOf sha256 a' d').features := by
  have hviews : (a.registry.featureViews.map viewLabel).Perm (a'.registry.featureViews.map viewLabel) :=
    h.featureViews.map_perm fun v v' hv => by rw [viewLabel, viewLabel, hv.name, hv.viewVersion]
  have hfeatures : (a.registry.featureViews.flatMap fun v => v.features.map (featureLabel v)).Perm
      (a'.registry.featureViews.flatMap fun v => v.features.map (featureLabel v)) := by
    refine h.featureViews.flatMap_perm fun v v' hv => hv.features.map_perm fun f f' hf => ?_
    rw [featureLabel, featureLabel, hv.name, hv.viewVersion, hf.name, hf.featureVersion]
  exact ⟨(sortedBy_eq_iff_perm id fun _ _ _ _ h => h).mpr hviews,
    (sortedBy_eq_iff_perm id fun _ _ _ _ h => h).mpr hfeatures⟩

theorem definitionalKey_eq_iff
    (hdigest : (bundleOf sha256 a (definitionDigest sha256 a.registry)).bundleDigest =
      (bundleOf sha256 a' (definitionDigest sha256 a'.registry)).bundleDigest) :
    (bundleOf sha256 a (definitionDigest sha256 a.registry)).definitionalKey =
        (bundleOf sha256 a' (definitionDigest sha256 a'.registry)).definitionalKey ↔
      a.registry.registryVersion = a'.registry.registryVersion := by
  obtain ⟨hviews, hfeatures⟩ := @labels_eq sha256 a a' ((bundleDigest_eq_iff hr hr' hsha).mp hdigest).registry
    (definitionDigest sha256 a.registry) (definitionDigest sha256 a'.registry)
  rw [RegistryBundle.definitionalKey, RegistryBundle.definitionalKey, hdigest, hviews, hfeatures]
  simp [bundleOf]

end

/-! ## Rebuilding under another version -/

def creditBuild : BundleArgs := ⟨userRegistry (creditView true), none, 0, none, none, none, by simp⟩

/-- The registry under its next version; no definition has changed. -/
def renumberedRegistry : Registry := { userRegistry (creditView true) with registryVersion := "2", ok := by decide }

def renumberedBuild : BundleArgs := ⟨renumberedRegistry, none, 1, none, none, none, by simp⟩

def creditSha : Sha256 :=
  digestTable [(definitionText (registryContent (userRegistry (creditView true))),
    "587c0946eba495aab2a022f2d554a2d4c41fdb3a841180ce5c444fa2e778ec8d")]

theorem creditBuilds_valid : ∀ a ∈ [creditBuild, renumberedBuild], validateRegistry a.registry = .ok () := by
  intro a ha
  rcases List.mem_pair.mp ha with rfl | rfl
  · decide +kernel
  · decide +kernel

theorem creditBuilds_hash {sha256 : Sha256} {a : BundleArgs} (ha : a ∈ [creditBuild, renumberedBuild]) {t : List JsonTok}
    (h : a.Hashes sha256 t) : t = definitionText (registryContent (userRegistry (creditView true))) := by
  obtain ⟨content, hc, h⟩ := h
  rw [canonicalRegistryContent_eq (creditBuilds_valid a ha)] at hc
  cases hc
  rcases List.mem_pair.mp ha with rfl | rfl
  · rcases h with rfl | ⟨m, hm, -⟩
    · rfl
    · cases hm
  · rcases h with rfl | ⟨m, hm, -⟩
    · rfl
    · cases hm

/-- Bundles of one digest have one key, and no put is refused, exactly when bundles of the same definitions come from
registries of one version. -/
theorem rebuild_never_conflicts_iff {sha256 : Sha256} {builds : List BundleArgs}
    (hvalid : ∀ a ∈ builds, validateRegistry a.registry = .ok ())
    (hsha : ∀ a ∈ builds, ∀ a' ∈ builds, ∀ t t', a.Hashes sha256 t → a'.Hashes sha256 t' →
      sha256 t = sha256 t' → t = t') :
    ∃ bundles, builds.mapM (buildRegistryBundle sha256) = .ok bundles ∧
      ((∀ b ∈ bundles, ∀ b' ∈ bundles, b.bundleDigest = b'.bundleDigest → b.definitionalKey = b'.definitionalKey) ↔
        ∀ a ∈ builds, ∀ a' ∈ builds, SameDefinitions a a' →
          a.registry.registryVersion = a'.registry.registryVersion) ∧
      ((∀ answer ∈ BundleStore.putAll [] bundles, answer = .ok ()) ↔
        ∀ a ∈ builds, ∀ a' ∈ builds, SameDefinitions a a' →
          a.registry.registryVersion = a'.registry.registryVersion) := by
  have hkeys : (∀ b ∈ builds.map fun a => bundleOf sha256 a (definitionDigest sha256 a.registry),
      ∀ b' ∈ builds.map fun a => bundleOf sha256 a (definitionDigest sha256 a.registry),
        b.bundleDigest = b'.bundleDigest → b.definitionalKey = b'.definitionalKey) ↔
      ∀ a ∈ builds, ∀ a' ∈ builds, SameDefinitions a a' →
        a.registry.registryVersion = a'.registry.registryVersion := by
    simp only [List.forall_mem_map]
    refine forall₂_congr fun a ha => forall₂_congr fun a' ha' => ?_
    have hdigest := bundleDigest_eq_iff (hvalid a ha) (hvalid a' ha') (hsha a ha a' ha')
    rw [hdigest]
    exact imp_congr_right fun h =>
      definitionalKey_eq_iff (hvalid a ha) (hvalid a' ha') (hsha a ha a' ha') (hdigest.mpr h)
  refine ⟨_, mapM_eq_ok fun a ha => buildRegistryBundle_eq (hvalid a ha), hkeys, ?_⟩
  rw [BundleStore.putAll_ok_iff, ← hkeys]
  simp

theorem rebuild_never_conflicts_iff_credit :
    ∃ bundles, [creditBuild, renumberedBuild].mapM (buildRegistryBundle creditSha) = .ok bundles ∧
      ((∀ b ∈ bundles, ∀ b' ∈ bundles, b.bundleDigest = b'.bundleDigest → b.definitionalKey = b'.definitionalKey) ↔
        ∀ a ∈ [creditBuild, renumberedBuild], ∀ a' ∈ [creditBuild, renumberedBuild], SameDefinitions a a' →
          a.registry.registryVersion = a'.registry.registryVersion) ∧
      ((∀ answer ∈ BundleStore.putAll [] bundles, answer = .ok ()) ↔
        ∀ a ∈ [creditBuild, renumberedBuild], ∀ a' ∈ [creditBuild, renumberedBuild], SameDefinitions a a' →
          a.registry.registryVersion = a'.registry.registryVersion) :=
  rebuild_never_conflicts_iff creditBuilds_valid fun _ ha _ ha' _ _ ht ht' _ =>
    (creditBuilds_hash ha ht).trans (creditBuilds_hash ha' ht').symm

theorem renumbered_refused :
    (∀ a ∈ [creditBuild, renumberedBuild], validateRegistry a.registry = .ok ()) ∧
      creditBuild.featureArtifact = renumberedBuild.featureArtifact ∧
      ∃ b b', buildRegistryBundle creditSha creditBuild = .ok b ∧ buildRegistryBundle creditSha renumberedBuild = .ok b' ∧
        b.bundleDigest = b'.bundleDigest ∧ b.definitionalKey ≠ b'.definitionalKey ∧
        BundleStore.putAll [] [b, b'] = [.ok (),
          .error (.valueError s!"bundle digest {b.bundleDigest} already stored with different content; registry bundles are immutable")] := by
  have hb := @buildRegistryBundle_eq creditSha creditBuild (creditBuilds_valid _ (by simp))
  have hb' := @buildRegistryBundle_eq creditSha renumberedBuild (creditBuilds_valid _ (by simp))
  have hdigest : (bundleOf creditSha creditBuild (definitionDigest creditSha creditBuild.registry)).bundleDigest =
      (bundleOf creditSha renumberedBuild (definitionDigest creditSha renumberedBuild.registry)).bundleDigest := rfl
  have hkey : (bundleOf creditSha creditBuild (definitionDigest creditSha creditBuild.registry)).definitionalKey ≠
      (bundleOf creditSha renumberedBuild (definitionDigest creditSha renumberedBuild.registry)).definitionalKey := by
    intro h
    have hversion : some "1" = some "2" := congrArg (fun key => key.2.1) h
    exact absurd hversion (by decide)
  exact ⟨creditBuilds_valid, rfl, _, _, hb, hb', hdigest, hkey, BundleStore.putAll_conflict hdigest hkey⟩

end ClearFeature
