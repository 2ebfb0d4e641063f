import ClearFeature.ReleaseSafety
import ClearFeature.ReleaseStarts
import Mathlib.Tactic.FinCases

/-!
# What a process serves was released

A process that must be bound starts only with definitions and code that were
published together, under a digest that was promoted where it runs.
-/

namespace ClearFeature

open Shared StableSort

section
variable {ι : Type} (env : ReleaseEnv) (commands : ι → ReleaseCommand)

/-- The definitions that are hashed: those that are published with a wheel, and those that a process loads. -/
def HashedDefinitions : Set (List JsonTok) :=
  { t | ∃ i r, t = definitionText (registryContent r) ∧
    ((∃ c, commands i = .publishWheel c ∧ r = c.registry) ∨ ∃ c, commands i = .start c ∧ r = c.registry) }

/-- The wheels that are hashed, and the files of the hosts. -/
def HashedFiles : Set Bytes :=
  { data | ∃ i, (∃ c, commands i = .publishWheel c ∧ data = c.release.wheel.data) ∨
    ∃ c path, commands i = .start c ∧ c.host.readFile path = some data }

/-- Each file that the distribution lists and the RECORD of the wheel hashes has that hash, and the file of the provider,
if it has one, is one of these. -/
structure Installed (host : Host) (hash : Bytes → Bytes) (name : String) (wheel : Bytes) (module : ImportedModule) :
    Prop where
  files : ∃ metaName version record dist, readWheelMetadataAndRecord host wheel = .ok (metaName, version, record) ∧
    host.distribution (canonicalizeName host.lower name) = some dist ∧
    (∀ rel ∈ dist.files.getD [], ∀ h, Dict.get? record rel = some h → isRecordFile rel = false →
      ∃ data, host.readFile (located host dist rel) = some data ∧ recordHash hash data = h) ∧
    ∀ file, module.providerFile = some file → ∃ rel ∈ dist.files.getD [], ∃ h, Dict.get? record rel = some h ∧
      host.resolve file = located host dist rel

/-- A process runs what a publisher has released. -/
structure Serves (d : ReleaseDisk) (c : StartCommand) (p : PublishWheelCommand) : Prop where
  store : c.settings.bundleStore = some p.bundleStore
  registry : Equivalent c.registry p.registry
  ties : SameTies c.registry p.registry
  provider : ∀ provider ∈ c.settings.udfProvider, provider = p.udfProvider
  code : ∃ path module, c.host.readFile path = some p.release.wheel.data ∧
    c.host.importModule (String.ofList (p.udfProvider.toList.takeWhile (· ≠ ':'))) = .ok module ∧
    Installed c.host env.hash p.release.name p.release.wheel.data module
  pointed : ∃ pointerStore environment digest filename storageKey, c.settings.pointerStore = some pointerStore ∧
    c.settings.bundleEnv = some environment ∧
    Named commands d pointerStore environment c.settings.bundleStage digest ∧
    digestFilename digest = digestFilename (computeFinalBundleDigest env.sha256
      (definitionDigest env.sha256 p.registry) (p.artifact env filename storageKey)) ∧
    ∃ data, d.wheels p.wheelStore storageKey = some (.file data) ∧
      env.publish.shaOf (.file data) = p.release.sha env.publish

end

section
variable {ι : Type} {env : ReleaseEnv} {commands : ι → ReleaseCommand} {d : ReleaseDisk}

theorem field_sorted {m : FeatureArtifact} (hn : (Dict.keys m).Nodup) (name : String) :
    FeatureArtifact.field (sortedBy Prod.fst m) name = m.field name := by
  have hperm := sortedBy_perm Prod.fst m
  have hsorted : (Dict.keys (sortedBy Prod.fst m)).Nodup := (hperm.map Prod.fst).nodup_iff.mpr hn
  simp [FeatureArtifact.field, Dict.get?_perm hsorted hperm]

/-- The definitions of a registry as they are hashed. -/
def definitionArgs (r : Registry) : BundleArgs where
  registry := r
  createdAt := 0
  artifact_nodup := no_artifact

theorem definitionArgs_hashes {r : Registry} (hr : validateRegistry r = .ok ()) {sha256 : Sha256} {t : List JsonTok}
    (h : (definitionArgs r).Hashes sha256 t) : t = definitionText (registryContent r) := by
  obtain ⟨content, hcontent, h⟩ := h
  have hregistry : canonicalRegistryContent r = .ok content := hcontent
  rw [canonicalRegistryContent_eq hr] at hregistry
  cases hregistry
  rcases h with rfl | ⟨m, hm, -⟩
  · rfl
  · cases hm

/-- What the gate has checked of a bundle that it has verified. -/
theorem verifyBound_ok {c : StartCommand} {b : RegistryBundle} {artifact : FeatureArtifact}
    {descriptor : List (String × Value)} (h : c.verifyBound env b artifact = .ok descriptor) :
    (∃ digest, computeBundleDigest env.sha256 c.registry = .ok digest ∧ b.registryDefinitionDigest = some digest) ∧
      (∀ provider ∈ c.settings.udfProvider, some provider = Dict.get? artifact "provider") ∧
      ∃ evidence verified, verifyFeatureArtifact c.host env.hash artifact evidence c.coreVersion = .ok verified := by
  unfold StartCommand.verifyBound at h
  obtain ⟨digest, hdigest, h⟩ := bind_eq_ok.mp h
  have hcheck := ok_of_mapError h
  simp only [bind_eq_ok, failUnless_eq_ok] at hcheck
  obtain ⟨_, hdefinitions, _, hprovider, evidence, -, verified, hverified, -⟩ := hcheck
  exact ⟨⟨digest, ok_of_mapError hdigest, hdefinitions.symm⟩, hprovider, evidence, verified, hverified⟩

theorem sha_eq (p : PublishWheelCommand) : p.release.sha env.publish = sha256Bytes env.hash p.release.wheel.data := by
  simp [PutCall.sha, PublishEnv.shaOf, WheelFile.object, env.hash_file, sha256Bytes]

variable (env) in
theorem artifact_fields (p : PublishWheelCommand) (filename storageKey : String) :
    (p.artifact env filename storageKey).field "name" = p.release.name ∧
      (p.artifact env filename storageKey).field "provider" = p.udfProvider ∧
      (p.artifact env filename storageKey).field "sha256" = p.release.sha env.publish := by
  simp [PublishWheelCommand.artifact, FeatureArtifact.field, Dict.get?]

/-- A verified host has the wheel that was published, and what it has installed comes from it. -/
theorem verified_code {host : Host} {p : PublishWheelCommand} {filename storageKey core : String}
    {evidence : RuntimeArtifactEvidence} {verified : List (String × Value)}
    (h : verifyFeatureArtifact host env.hash (sortedBy Prod.fst (p.artifact env filename storageKey)) evidence core =
      .ok verified)
    (hhash : ∀ path data, host.readFile path = some data → env.hash data = env.hash p.release.wheel.data →
      data = p.release.wheel.data) :
    ∃ path module, host.readFile path = some p.release.wheel.data ∧
      host.importModule (String.ofList (p.udfProvider.toList.takeWhile (· ≠ ':'))) = .ok module ∧
      Installed host env.hash p.release.name p.release.wheel.data module := by
  obtain ⟨wheel, name, version, record, dist, module, hread, hsha, hmeta, hdist, hmodule, hinstalled⟩ :=
    verifyFeatureArtifact_ok h
  obtain ⟨hname, hprovider, hshaField⟩ := artifact_fields env p filename storageKey
  have hn := p.artifact_nodup env filename storageKey
  rw [field_sorted hn, hshaField, sha_eq] at hsha
  rw [field_sorted hn, hname] at hdist
  rw [providerModule, field_sorted hn, hprovider] at hmodule
  have hwheel := hhash _ _ hread (sha256Bytes_inj hsha)
  subst hwheel
  obtain ⟨hfiles, hfrom⟩ := verifyInstalledMatchesWheel_ok hinstalled
  exact ⟨_, module, hread, hmodule, name, version, record, dist, hmeta, hdist, hfiles, hfrom⟩

theorem bound_serves (hinv : ReleaseInv env commands d) {i : ι} {c : StartCommand} (hi : commands i = .start c)
    (hsha : Set.InjOn env.sha256 (HashedDefinitions commands)) (hhash : Set.InjOn env.hash (HashedFiles commands))
    {pointerStore environment digest : String} {b : RegistryBundle} {artifact : FeatureArtifact}
    {descriptor : List (String × Value)}
    (h : Bound env commands d c pointerStore environment digest b artifact descriptor) :
    ∃ k p, commands k = .publishWheel p ∧ Serves env commands d c p := by
  obtain ⟨root, hroot, hpublished⟩ := h.published
  cases hpublished with
  | definitions c' hk hroot' => cases h.pinned
  | @wheel k p hk hroot' filename storageKey hstored =>
    cases h.pinned
    obtain ⟨⟨served, hserved, hpublished⟩, hprovider, evidence, verified, hverified⟩ := verifyBound_ok h.verified
    refine ⟨k, p, hk, ?_⟩
    have hn := p.artifact_nodup env filename storageKey
    have hdefinitions : definitionDigest env.sha256 (definitionArgs c.registry).registry =
        definitionDigest env.sha256 (definitionArgs p.registry).registry := by
      rw [computeBundleDigest, canonicalRegistryContent_eq c.valid] at hserved
      exact (Except.ok.inj hserved).trans (Option.some.inj hpublished).symm
    have hsame := (@definitionDigest_eq_iff env.sha256 (definitionArgs c.registry) (definitionArgs p.registry) c.valid
      p.valid (by
        intro t t' ht ht' heq
        rw [definitionArgs_hashes c.valid ht] at heq ⊢
        rw [definitionArgs_hashes p.valid ht'] at heq ⊢
        exact hsha ⟨i, c.registry, rfl, .inr ⟨c, hi, rfl⟩⟩ ⟨k, p.registry, rfl, .inl ⟨p, hk, rfl⟩⟩ heq)).mp hdefinitions
    have hcode := verified_code hverified fun path data hread heq =>
      hhash ⟨i, .inr ⟨c, path, hi, hread⟩⟩ ⟨k, .inl ⟨p, hk, rfl⟩⟩ heq
    refine ⟨by rw [hroot, hroot'], hsame.1, hsame.2, ?_, hcode, ?_⟩
    · intro provider hp
      have hget := hprovider provider hp
      have hperm := sortedBy_perm Prod.fst (p.artifact env filename storageKey)
      rw [Dict.get?_perm ((hperm.map Prod.fst).nodup_iff.mpr hn) hperm] at hget
      simpa [PublishWheelCommand.artifact, Dict.get?] using hget
    · obtain ⟨j, hkey, hsha', hsome⟩ := hstored
      obtain ⟨o, ho⟩ := Option.isSome_iff_exists.mp hsome
      obtain ⟨data, rfl, hdata⟩ := (hinv.wheels p.wheelStore).wheels j o (by rw [← hkey] at ho; exact ho)
      refine ⟨pointerStore, environment, digest, filename, storageKey, h.store, h.served, h.named, h.file, data, ho, ?_⟩
      exact hdata.trans hsha'

variable [DecidableEq ι]

end

/-! ## The release of `cf` -/

def cfAll (i : Fin 4) : ReleaseCommand :=
  match i with
  | 0 => .publishWheel cfPublish
  | 1 => .promote (cfPromote false)
  | 2 => .promote (cfPromote true)
  | 3 => .start cfStart

theorem cfAll_publishes {i : Fin 4} {c : PublishWheelCommand} (h : cfAll i = .publishWheel c) : c = cfPublish := by
  fin_cases i <;> cases h
  rfl

theorem cfAll_starts {i : Fin 4} {c : StartCommand} (h : cfAll i = .start c) : c = cfStart := by
  fin_cases i <;> cases h
  rfl

theorem cfAll_definitions {t : List JsonTok} (h : t ∈ HashedDefinitions cfAll) :
    t = definitionText (registryContent cfPublish.registry) := by
  obtain ⟨i, r, rfl, ⟨c, hc, rfl⟩ | ⟨c, hc, rfl⟩⟩ := h
  · rw [cfAll_publishes hc]
  · rw [cfAll_starts hc]
    rfl

/-- The manifest and the files that were there before. -/
theorem cfAll_files {data : Bytes} (h : data ∈ HashedFiles cfAll) :
    data ∈ cfManifest.indented 0 :: (cfFiles false).map Prod.snd := by
  obtain ⟨i, ⟨c, hc, rfl⟩ | ⟨c, path, hc, hread⟩⟩ := h
  · rw [cfAll_publishes hc]
    simp [cfPublish, cfWheel, cfWheelFile, cfFiles]
  · rw [cfAll_starts hc] at hread
    have hread' : (if path = manifestPath then some (cfManifest.indented 0) else Dict.get? (cfFiles false) path) = some data :=
      hread
    by_cases hpath : path = manifestPath
    · rw [if_pos hpath] at hread'
      cases hread'
      simp
    · rw [if_neg hpath] at hread'
      exact List.mem_cons_of_mem _ (List.mem_map_of_mem (Dict.mem_of_get? hread'))

end ClearFeature
