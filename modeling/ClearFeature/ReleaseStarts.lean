import ClearFeature.ArtifactSound
import ClearFeature.ReleaseRuns

/-!
# What stays in force

The records of a pointer store are its history. What was promoted last decides
what may start, with the bundle that was there when it was promoted.
-/

namespace ClearFeature

open Prog Shared StableSort Wire
open Raising (alone_bind alone_bind_ok alone_need alone_lift)

section
variable {env : ReleaseEnv} {d : ReleaseDisk}

/-! ## A first release -/

theorem exec_putCall {publish : PublishEnv} {c : PutCall} {objects : Objects} (h : objects c.releaseKey = none) :
    exec objectStore objects (c.program publish) =
      (Function.update (Function.update objects (c.storageKey publish) (some c.wheel.object)) c.releaseKey
        (some (.json (c.record publish))), .ok (c.record publish)) := by
  have hne : c.releaseKey ≠ c.storageKey publish := (c.storageKey_ne_releaseKey publish c.name c.version).symm
  have hnone : Function.update objects (c.storageKey publish) (some c.wheel.object) c.releaseKey = none := by
    rw [Function.update_of_ne hne]
    exact h
  have hact : objectStore.act (Function.update objects (c.storageKey publish) (some c.wheel.object))
      (.writeIfAbsent c.releaseKey (.json (c.record publish))) =
      Function.update (Function.update objects (c.storageKey publish) (some c.wheel.object)) c.releaseKey
        (some (.json (c.record publish))) := by
    simp [objectStore, hnone]
  have hanswer : objectStore.answer (Function.update objects (c.storageKey publish) (some c.wheel.object))
      (.writeIfAbsent c.releaseKey (.json (c.record publish))) = true := by
    simp [objectStore, hnone]
  unfold PutCall.program putWheel
  rw [exec_ask_bind, exec_ask_bind]
  change exec objectStore (objectStore.act (Function.update objects (c.storageKey publish) (some c.wheel.object))
      (.writeIfAbsent c.releaseKey (.json (c.record publish)))) (if objectStore.answer
      (Function.update objects (c.storageKey publish) (some c.wheel.object))
      (.writeIfAbsent c.releaseKey (.json (c.record publish))) then _ else _) = _
  rw [hact, hanswer]
  rfl

theorem exec_readBack {publish : PublishEnv} {c : PutCall} {objects : Objects}
    (hrelease : objects c.releaseKey = some (.json (c.record publish)))
    (hwheel : objects (c.storageKey publish) = some c.wheel.object) :
    exec objectStore objects (readBackVerify publish c.name c.version (c.sha publish)) =
      (objects, .ok (c.record publish)) := by
  have hname : (Dict.get? (c.record publish) "filename").getD "" = c.wheel.filename := by
    rw [c.record_filename]
    rfl
  have hread : objectStore.answer objects (.read (releaseKey c.name c.version)) = some (.json (c.record publish)) := hrelease
  have hstored : objectStore.answer objects (.read (artifactStorageKey c.name c.version (c.sha publish) c.wheel.filename)) =
      some c.wheel.object := hwheel
  have hkey := c.record_storageKey publish
  unfold PutCall.storageKey at hkey
  have hact : ∀ key, objectStore.act objects (.read key) = objects := fun _ => rfl
  unfold readBackVerify
  rw [exec_ask_bind, hread, hact]
  dsimp only [PublishEnv.loads]
  rw [if_neg (not_not.mpr (c.record_sha publish)), hname, if_neg (not_not.mpr hkey), exec_ask_bind, hstored, hact]
  simp [PutCall.sha]

theorem exec_embed {α : Type} (uri : String) : ∀ (p : WheelProg α) (d : ReleaseDisk),
    (exec releaseDisk d (embed (ReleaseCall.wheels uri) (fun _ a => a) p)).2 = (exec objectStore (d.wheels uri) p).2 ∧
      (exec releaseDisk d (embed (ReleaseCall.wheels uri) (fun _ a => a) p)).1.wheels uri =
        (exec objectStore (d.wheels uri) p).1
  | .ret _, _ => ⟨rfl, rfl⟩
  | .call c k, d => by
    have hwheels : (releaseDisk.act d (.wheels uri c)).wheels uri = objectStore.act (d.wheels uri) c := by
      simp [releaseDisk]
    have hrest := exec_embed uri (k (objectStore.answer (d.wheels uri) c)) (releaseDisk.act d (.wheels uri c))
    rw [hwheels] at hrest
    exact hrest

/-- A call of the wheel store changes the objects of the store. -/
theorem exec_wheelCall {α : Type} (uri : String) (p : WheelProg (Except PyErr α)) (d : ReleaseDisk) :
    ∃ d' : ReleaseDisk, d'.docs = d.docs ∧ d'.wheels uri = (exec objectStore (d.wheels uri) p).1 ∧
      exec releaseDisk d (wheelCall uri p).run = (d', ((exec objectStore (d.wheels uri) p).2).mapError .other) := by
  obtain ⟨hanswer, hwheels⟩ := exec_embed uri p d
  refine ⟨(exec releaseDisk d (embed (ReleaseCall.wheels uri) (fun _ a => a) p)).1, ?_, hwheels, ?_⟩
  · funext place
    exact exec_keeps (f := fun d : ReleaseDisk => d.docs place) (fun _ _ _ => sparing_act) (spares_embed uri p)
  · unfold wheelCall
    rw [alone_bind, alone_lift, hanswer]
    rfl

/-- The bundle of a first release. -/
def PublishWheelCommand.bundle (env : ReleaseEnv) (c : PublishWheelCommand) : RegistryBundle :=
  bundleOf env.sha256 (c.args env c.release.wheel.filename (c.release.storageKey env.publish))
    (definitionDigest env.sha256 c.registry)

theorem exec_publishWheel {c : PublishWheelCommand} (hrelease : d.wheels c.wheelStore c.release.releaseKey = none)
    (hbundle : d.docs (bundlePlace c.bundleStore (c.bundle env).bundleDigest) = none) :
    ((ReleaseCommand.publishWheel c).after env d).docs = (d.withBundle env c.bundleStore (c.bundle env)).docs ∧
      (ReleaseCommand.publishWheel c).answer env d = .ok (.published (c.bundle env)) := by
  obtain ⟨d₁, hdocs₁, hwheels₁, hput⟩ := exec_wheelCall c.wheelStore (c.release.program env.publish) d
  rw [exec_putCall hrelease] at hwheels₁ hput
  obtain ⟨d₂, hdocs₂, -, hread⟩ := exec_wheelCall c.wheelStore
    (readBackVerify env.publish c.release.name c.release.version (c.release.sha env.publish)) d₁
  have hne : c.release.storageKey env.publish ≠ c.release.releaseKey :=
    c.release.storageKey_ne_releaseKey env.publish c.release.name c.release.version
  rw [hwheels₁, exec_readBack (Function.update_self _ _ _) (by rw [Function.update_of_ne hne, Function.update_self])] at hread
  have hkey : releaseItem (c.release.record env.publish) "storage_key" = .ok (c.release.storageKey env.publish) := by
    rw [releaseItem, c.release.record_storageKey]
  have hname : releaseItem (c.release.record env.publish) "filename" = .ok c.release.wheel.filename := by
    rw [releaseItem, c.release.record_filename]
  have hbuilt : buildRegistryBundle env.sha256 (c.args env c.release.wheel.filename (c.release.storageKey env.publish)) =
      .ok (c.bundle env) := buildRegistryBundle_eq c.valid
  have hthere : d₂.bundle env c.bundleStore (c.bundle env).bundleDigest = .ok none := by
    rw [ReleaseDisk.bundle, hdocs₂, hdocs₁, hbundle]
  have hexec : exec releaseDisk d (c.program env).run = (d₂.withBundle env c.bundleStore (c.bundle env), .ok (c.bundle env)) := by
    unfold PublishWheelCommand.program
    rw [alone_bind_ok _ _ hput, alone_bind_ok _ _ hread]
    simp only [needPy, alone_bind, alone_need, hkey, hname, hbuilt, Except.mapError, exec_put, hthere]
    rfl
  unfold ReleaseCommand.after ReleaseCommand.answer ReleaseCommand.program
  rw [exec_map, hexec]
  exact ⟨by simp [ReleaseDisk.withBundle, hdocs₂, hdocs₁], rfl⟩

/-! ## The gate -/

variable (env) in
/-- The gate lets a process start with this bundle, and what it describes it by. -/
def StartCommand.Admits (c : StartCommand) (b : RegistryBundle) (descriptor : Option (List (String × Value))) : Prop :=
  (c.settings.environment = environmentDevelopment ∨ c.settings.artifactBinding = bindingRequired) ∧
  match b.featureArtifact with
  | some artifact => ∃ verified, c.verifyBound env b artifact = .ok verified ∧ descriptor = some verified
  | none => c.settings.artifactBinding ≠ bindingRequired ∧ descriptor = none

end

/-! ### The release of a wheel -/

/-- Each on a line of its own. -/
def bracketed (first last : UInt8) (indent : Nat) (raws : List Bytes) : Bytes :=
  let line := fun n => 10 :: List.replicate n 32
  [first] ++ List.intercalate [44] (raws.map fun raw => line (indent + 2) ++ raw) ++ line indent ++ [last]

def quoted (s : String) : Bytes := 34 :: (asciiBytes s ++ [34])

mutual
/-- `json.dumps(value, sort_keys=True, indent=2)` of a value without floats whose strings need no escapes. -/
def Value.indented (indent : Nat) : Value → Bytes
  | .null => asciiBytes "null"
  | .bool b => asciiBytes (if b then "true" else "false")
  | .int n => asciiBytes (toString n)
  | .float _ => []
  | .str s => quoted s
  | .arr [] => [91, 93]
  | .arr (x :: xs) => bracketed 91 93 indent (Value.indentedAll (indent + 2) (x :: xs))
  | .obj [] => [123, 125]
  | .obj (kv :: kvs) =>
    let fields := (Value.indentedFields (indent + 2) (kv :: kvs)).insertionSort fun a b => a.1 ≤ b.1
    bracketed 123 125 indent (fields.map Prod.snd)
def Value.indentedAll (indent : Nat) : List Value → List Bytes
  | [] => []
  | x :: xs => Value.indented indent x :: Value.indentedAll indent xs
def Value.indentedFields (indent : Nat) : List (String × Value) → List (String × Bytes)
  | [] => []
  | (k, v) :: kvs => (k, quoted k ++ [58, 32] ++ Value.indented indent v) :: Value.indentedFields indent kvs
end

def releaseDays : List (Int × String) :=
  [(newYear, "2024-01-01T00:00:00+00:00"), (newYear + usPerDay, "2024-01-02T00:00:00+00:00")]

/-- `isoformat` on the days of the release. -/
def releaseIso (t : Int) : String := (Dict.get? releaseDays t).getD (toString t)

theorem releaseIso_injective : Function.Injective releaseIso := by
  have hne : ∀ e ∈ releaseDays, ∀ t : Int, e.2 ≠ toString t := by
    intro e he t heq
    have hread := intOfText_toString t
    rw [← heq] at hread
    have hnone : ∀ e ∈ releaseDays, (intOfText e.2.toList).isSome = false := by decide
    have hsome := hnone e he
    rw [hread] at hsome
    cases hsome
  intro t t' h
  unfold releaseIso at h
  cases ht : Dict.get? releaseDays t with
  | some day =>
    rw [ht] at h
    cases ht' : Dict.get? releaseDays t' with
    | some day' =>
      rw [ht'] at h
      have hdays : (releaseDays.map Prod.snd).Nodup := by decide
      exact congrArg Prod.fst (List.inj_on_of_nodup_map hdays (Dict.mem_of_get? ht) (Dict.mem_of_get? ht') h)
    | none =>
      rw [ht'] at h
      exact absurd h (hne _ (Dict.mem_of_get? ht) t')
  | none =>
    rw [ht] at h
    cases ht' : Dict.get? releaseDays t' with
    | some day' =>
      rw [ht'] at h
      exact absurd h.symm (hne _ (Dict.mem_of_get? ht') t)
    | none =>
      rw [ht'] at h
      have htext : toString t = toString t' := h
      have hread := intOfText_toString t
      rw [htext, intOfText_toString] at hread
      exact (Option.some.inj hread).symm

def indentedSamples (values : List Value) : List (List JsonTok × Bytes) :=
  values.map fun v => (canonicalValueJson v, v.indented 0)

/-- The texts of the files of a release, on these days. -/
noncomputable def releaseText (values : List Value) (hobject : ∀ v ∈ values, (v.indented 0).head? = some 123)
    (hnodup : (values.map (Value.indented 0)).Nodup) : WireText :=
  .ofInjective (sampleWrite (indentedSamples values))
    (sampleWrite_injective
      (by
        intro s hs
        obtain ⟨v, hv, rfl⟩ := List.mem_map.mp hs
        exact ⟨123, List.mem_of_mem_head? (hobject v hv), by decide⟩)
      (by
        intro s hs s' hs' h
        obtain ⟨v, hv, rfl⟩ := List.mem_map.mp hs
        obtain ⟨v', hv', rfl⟩ := List.mem_map.mp hs'
        rw [List.inj_on_of_nodup_map hnodup hv hv' h]))
    releaseIso releaseIso_injective

def cfWheel : WheelFile := cfWheelFile wheelBytes

def cfPublish : PublishWheelCommand where
  bundleStore := "/bundles"
  wheelStore := "/wheels"
  registry := userRegistry (creditView true)
  valid := creditBuilds_valid creditBuild (by simp)
  createdAt := newYear
  udfProvider := "cf.features:build_udfs"
  release := ⟨cfWheel, "cf", "1.0"⟩

def cfDigest : String := "sha256:063473d2f04c6688de0c6e58825434b7a61c190ebad2d70648cdb516852008e2"

def cfSha256 : Sha256 :=
  digestTable [(definitionText (registryContent (userRegistry (creditView true))),
      "587c0946eba495aab2a022f2d554a2d4c41fdb3a841180ce5c444fa2e778ec8d"),
    (finalText "sha256:587c0946eba495aab2a022f2d554a2d4c41fdb3a841180ce5c444fa2e778ec8d" cfArtifact,
      "063473d2f04c6688de0c6e58825434b7a61c190ebad2d70648cdb516852008e2")]

/-- The release goes to shadow, and live the next day. -/
def cfPromote (live : Bool) : PromoteCommand where
  bundleStore := "/bundles"
  pointerStore := "/pointers"
  call :=
    { promotionId := if live then "p2" else "p1"
      bundleExists := false
      bundleDigest := cfDigest
      env := "production"
      stage := if live then stageLive else stageShadow
      actor := "release-bot"
      reason := "first release"
      now := if live then newYear + usPerDay else newYear
      profile := if live then some "energy" else none
      approvedBy := if live then ["ana"] else [] }
  env_part := show OnePart "production" by decide
  digest_part := show OnePart cfDigest by decide

def cfPromoted (live : Bool) : PromotionRecord :=
  if live then liveRecord (cfPromote true).call profileEnergy ["ana"] (some newYear) none
  else shadowRecord (cfPromote false).call none

def cfManifestFields : List (String × Value) :=
  [("format_version", .int 1), ("name", .str "cf"), ("version", .str "1.0"),
    ("provider", .str "cf.features:build_udfs"), ("filename", .str "cf-1.0-py3-none-any.whl"), ("sha256", .str cfSha),
    ("wheel_path", .str "/w/cf-1.0-py3-none-any.whl")]

/-- What the image says about its wheel. -/
def cfManifest : Value := .obj cfManifestFields

def cfHash (data : Bytes) : Bytes :=
  if data = cfManifest.indented 0 then
    [64, 132, 86, 54, 255, 255, 155, 170, 64, 43, 167, 110, 33, 146, 220, 177, 142, 175, 128, 219, 119,
    220, 140, 123, 118, 74, 35, 148, 159, 76, 72, 40]
  else artifactSha data

def cfObjectSha : StoredObject → Bytes
  | .file data => cfHash data
  | .json _ => []

/-- `strftime` on the days of the release. -/
def cfStamp (t : Int) : String :=
  if t = newYear then "20240101T000000000000" else if t = newYear + usPerDay then "20240102T000000000000" else ""

noncomputable def cfEnvWith (text : WireText) : ReleaseEnv where
  text := text
  floatText _ := ""
  sha256 := cfSha256
  hash := cfHash
  publish := ⟨cfObjectSha, fun _ => .error (.valueError "not JSON")⟩
  stamp := cfStamp
  hash_file _ := rfl

def cfDefinitionDigest : String := "sha256:587c0946eba495aab2a022f2d554a2d4c41fdb3a841180ce5c444fa2e778ec8d"

def cfBundle : RegistryBundle where
  bundleId := cfDigest
  bundleDigest := cfDigest
  createdAt := newYear
  views := sortedBy id (cfPublish.registry.featureViews.map viewLabel)
  features := sortedBy id (cfPublish.registry.featureViews.flatMap fun v => v.features.map (featureLabel v))
  registryVersion := some cfPublish.registry.registryVersion
  featureArtifact := some cfArtifact
  registryDefinitionDigest := some cfDefinitionDigest

/-- The files that are read. -/
noncomputable def cfDocs : List Value :=
  let text := releaseText [] (by simp) (by simp)
  [cfManifest, cfBundle.toDict text, (cfPromoted false).pointer.toDict text, (cfPromoted false).toDict text,
    (cfPromoted true).pointer.toDict text, (cfPromoted true).toDict text]

noncomputable def cfEnv : ReleaseEnv := cfEnvWith (releaseText cfDocs (by decide +kernel) (by decide +kernel))

/-- What is hashed, and what is promoted of it. -/
theorem cf_computed' : definitionDigest cfSha256 cfPublish.registry = cfDefinitionDigest ∧
    computeFinalBundleDigest cfSha256 cfDefinitionDigest cfArtifact = cfDigest ∧
    cfPublish.artifact cfEnv cfWheel.filename (cfPublish.release.storageKey cfEnv.publish) = cfArtifact := by
  refine ⟨by decide +kernel, by decide +kernel, by decide +kernel⟩

theorem cfPublish_bundle : cfPublish.bundle cfEnv = cfBundle := by
  obtain ⟨hdefinition, hfinal, hartifact⟩ := cf_computed'
  have hargs : (cfPublish.args cfEnv cfWheel.filename (cfPublish.release.storageKey cfEnv.publish)).featureArtifact =
      some cfArtifact := congrArg some hartifact
  have hsha : cfEnv.sha256 = cfSha256 := rfl
  have hwheel : cfPublish.release.wheel = cfWheel := rfl
  unfold PublishWheelCommand.bundle bundleOf
  rw [hwheel, hargs, hsha, hdefinition]
  dsimp only
  rw [hfinal]
  rfl

theorem ReleaseDisk.bundle_withBundle {env : ReleaseEnv} {d d' : ReleaseDisk} {root : String} {b : RegistryBundle}
    (hdocs : d'.docs = (d.withBundle env root b).docs) (hb : b.Written) :
    d'.bundle env root b.bundleDigest = .ok (some b.normal) := by
  have hread : Wire.fromJson env.text (RegistryBundle.fromDict env.text.toWireCodec) (env.text.dumps (b.toDict env.text)) =
      .ok b.normal := (RegistryBundle.reads env.text hb).fromJson (env.text.printable _)
  have hdoc : d'.docs (bundlePlace root b.bundleDigest) = some (env.text.dumps (b.toDict env.text)) := by
    rw [hdocs]
    exact Function.update_self _ _ _
  rw [ReleaseDisk.bundle, hdoc]
  dsimp only
  rw [hread]
  rfl

/-- A bundle store does not notice that a pointer store has been written to. -/
theorem ReleaseDisk.bundle_repointed {env : ReleaseEnv} (d : ReleaseDisk) (pointers : String) (record : PromotionRecord)
    (root digest : String) : (d.repointed env pointers record).bundle env root digest = d.bundle env root digest := by
  have hpointer : bundlePlace root digest ≠ pointerPlace pointers record.env record.stage := by
    intro h
    cases h
  have hrecord : bundlePlace root digest ≠ recordPlace env pointers record := by
    intro h
    cases h
  rw [ReleaseDisk.bundle, ReleaseDisk.repointed_docs, Function.update_of_ne hrecord, Function.update_of_ne hpointer]
  rfl

theorem cfBundle_written : cfBundle.Written where
  metadata := List.nodup_nil
  artifact m hm := by
    cases hm
    decide
  definition h := by cases h

noncomputable def cfDisk : ReleaseDisk := (ReleaseCommand.publishWheel cfPublish).after cfEnv {}

theorem cf_published : (ReleaseCommand.publishWheel cfPublish).answer cfEnv {} = .ok (.published cfBundle) ∧
    cfDisk.bundle cfEnv "/bundles" cfDigest = .ok (some cfBundle.normal) ∧
    PointerFiles cfEnv cfDisk "/pointers" (promotionRun []) := by
  obtain ⟨hdocs, hanswer⟩ := @exec_publishWheel cfEnv {} cfPublish rfl rfl
  rw [cfPublish_bundle] at hdocs hanswer
  have hstored := ReleaseDisk.bundle_withBundle hdocs cfBundle_written
  rw [show cfPublish.bundleStore = "/bundles" from rfl, show cfBundle.bundleDigest = cfDigest from rfl] at hstored
  refine ⟨hanswer, hstored, ?_⟩
  have hkept : ∀ place : Place, place.trail = some "/pointers" → cfDisk.docs place = ({} : ReleaseDisk).docs place := by
    intro place hplace
    have hspares : Spares place ((ReleaseCommand.publishWheel cfPublish).program cfEnv) :=
      spares_command hplace fun _ _ h => by cases h
    exact hspares.exec {}
  exact (PointerFiles.empty "/pointers").congr hkept

/-- The disk of the release in shadow, and that of the release that is live. -/
noncomputable def cfDiskAt (live : Bool) : ReleaseDisk :=
  let shadow := cfDisk.repointed cfEnv "/pointers" (cfPromoted false)
  if live then shadow.repointed cfEnv "/pointers" (cfPromoted true) else shadow

theorem cf_records :
    promoteRecord (promotionRun []) { (cfPromote false).call with bundleExists := true } = .ok (cfPromoted false) ∧
    promoteRecord ((promotionRun []).repoint (cfPromoted false)) { (cfPromote true).call with bundleExists := true } =
      .ok (cfPromoted true) := by
  constructor
  · exact ok_of_toOption (by decide +kernel)
  · exact ok_of_toOption (by decide +kernel)

theorem PointerFiles.promote {env : ReleaseEnv} {d : ReleaseDisk} {s : PointerStore} {c : PromoteCommand}
    (h : PointerFiles env d c.pointerStore s) {b : RegistryBundle}
    (hb : d.bundle env c.bundleStore c.call.bundleDigest = .ok (some b)) {record : PromotionRecord}
    (hrecord : promoteRecord s { c.call with bundleExists := true } = .ok record) :
    (ReleaseCommand.promote c).answer env d = .ok (.repointed record) ∧
      (ReleaseCommand.promote c).after env d = d.repointed env c.pointerStore record ∧
      (ReleaseCommand.promote c).accepted env c.pointerStore d = some record := by
  have hexec : exec releaseDisk d (c.program env).run = (d.repointed env c.pointerStore record, .ok record) := by
    rw [h.promoteCommand_eq rfl, hb]
    dsimp only [Option.isSome_some]
    rw [hrecord]
  unfold ReleaseCommand.accepted ReleaseCommand.answer ReleaseCommand.after ReleaseCommand.program
  rw [exec_map, hexec]
  exact ⟨rfl, rfl, if_pos rfl⟩

theorem cf_stored : (cfDiskAt false).bundle cfEnv "/bundles" cfDigest = .ok (some cfBundle.normal) :=
  (ReleaseDisk.bundle_repointed cfDisk "/pointers" (cfPromoted false) "/bundles" cfDigest).trans cf_published.2.1

theorem cf_promoted :
    ((ReleaseCommand.promote (cfPromote false)).after cfEnv cfDisk = cfDiskAt false ∧
      (ReleaseCommand.promote (cfPromote false)).accepted cfEnv "/pointers" cfDisk = some (cfPromoted false)) ∧
    (ReleaseCommand.promote (cfPromote true)).answer cfEnv (cfDiskAt false) = .ok (.repointed (cfPromoted true)) ∧
      (ReleaseCommand.promote (cfPromote true)).after cfEnv (cfDiskAt false) = cfDiskAt true ∧
      (ReleaseCommand.promote (cfPromote true)).accepted cfEnv "/pointers" (cfDiskAt false) = some (cfPromoted true) := by
  obtain ⟨-, hbundle, hfiles⟩ := cf_published
  obtain ⟨hshadow, hlive⟩ := cf_records
  obtain ⟨-, hafter, haccepted⟩ := hfiles.promote (c := cfPromote false) hbundle hshadow
  have hdisk : PointerFiles cfEnv (cfDiskAt false) "/pointers" ((promotionRun []).repoint (cfPromoted false)) :=
    hfiles.repointed (by decide)
  exact ⟨⟨hafter, haccepted⟩, hdisk.promote (c := cfPromote true) cf_stored hlive⟩

def cfCommands : List ReleaseCommand := [.publishWheel cfPublish, .promote (cfPromote false), .promote (cfPromote true)]

theorem cf_released : releasesAfter cfEnv {} cfCommands = cfDiskAt true ∧
    acceptedRecords cfEnv "/pointers" {} cfCommands = [cfPromoted false, cfPromoted true] := by
  obtain ⟨⟨hshadowDisk, hshadow⟩, -, hliveDisk, hlive⟩ := cf_promoted
  have hpublish : (ReleaseCommand.publishWheel cfPublish).after cfEnv {} = cfDisk := rfl
  have hnone : (ReleaseCommand.publishWheel cfPublish).accepted cfEnv "/pointers" {} = none :=
    ReleaseCommand.accepted_elsewhere fun _ _ h => by cases h
  constructor
  · simp only [releasesAfter, cfCommands, Runs.run_cons, Runs.run_nil, hpublish, hshadowDisk, hliveDisk]
  · simp only [cfCommands, acceptedRecords, hpublish, hnone, hshadowDisk, hshadow, hlive, Option.toList_none,
      Option.toList_some, List.nil_append, List.singleton_append]

/-! ### A process that serves it -/

/-- The verifier looks up the fields of the artifact, and nothing else. -/
theorem verifyFeatureArtifact_congr {fa fa' : FeatureArtifact} (h : ∀ name, Dict.get? fa name = Dict.get? fa' name)
    (host : Host) (sha256 : Bytes → Bytes) (evidence : RuntimeArtifactEvidence) (core : String) :
    verifyFeatureArtifact host sha256 fa evidence core = verifyFeatureArtifact host sha256 fa' evidence core := by
  have hfield : FeatureArtifact.field fa = FeatureArtifact.field fa' := by
    funext name
    rw [FeatureArtifact.field, FeatureArtifact.field, h]
  have hsafe : FeatureArtifact.safe host fa = FeatureArtifact.safe host fa' := by
    rw [FeatureArtifact.safe, FeatureArtifact.safe, hfield]
  have hensure : @FeatureArtifact.ensure host fa = @FeatureArtifact.ensure host fa' := by
    funext c hc category message
    rw [FeatureArtifact.ensure, FeatureArtifact.ensure, hsafe]
  have hrequire : ∀ fields, requireFields fa fields = requireFields fa' fields := by
    intro fields
    induction fields with
    | nil => rfl
    | cons field fields ih => rw [requireFields, requireFields, hfield, ih]
  have hevidence : ∀ v : Verify Unit, withEvidence host fa v = withEvidence host fa' v := by
    intro v
    unfold withEvidence
    rw [hsafe]
  unfold verifyFeatureArtifact checkManifest checkWheelFile checkWheelMetadata checkDistribution checkProvider checkCore
    providerModule providerAttr
  rw [hfield, hsafe, hensure, hrequire, h]
  simp only [hevidence]

def manifestPath : String := "/etc/clearfeature/feature-artifact.json"

def cfServer : Host :=
  { cfHost false with
    readFile := fun path => if path = manifestPath then some (cfManifest.indented 0) else (cfHost false).readFile path }

def cfStart : StartCommand where
  settings :=
    { environment := "production"
      artifactBinding := bindingRequired
      bundleStore := some "/bundles"
      pointerStore := some "/pointers"
      bundleEnv := some "production"
      udfProvider := some "cf.features:build_udfs"
      binding_ok := by simp
      stage_ok := by decide
      given := by simp
      env_part := by
        intro environment h
        cases h
        decide }
  registry := cfPublish.registry
  valid := cfPublish.valid
  host := cfServer
  coreVersion := "0.1.0"

theorem cfServer_verified : ∃ descriptor,
    verifyFeatureArtifact cfServer cfHash (sortedBy Prod.fst cfArtifact) cfEvidence "0.1.0" = .ok descriptor := by
  have hn : (Dict.keys (sortedBy Prod.fst cfArtifact)).Nodup :=
    ((sortedBy_perm Prod.fst cfArtifact).map Prod.fst).nodup_iff.mpr (by decide)
  rw [verifyFeatureArtifact_congr (Dict.get?_perm hn (sortedBy_perm Prod.fst cfArtifact))]
  obtain ⟨-, -, -, -, hfields, hmanifest, -, -, hcore, -⟩ := cf_computed
  have hwheel : (checkWheelFile cfServer cfHash cfArtifact cfEvidence.wheelPath).toOption = some wheelBytes := by
    decide +kernel
  have hinstalled : (verifyInstalledMatchesWheel cfServer cfHash (cfDistribution false) cfRecord
      (some "/site/cf/features.py")).toOption = some () := by
    decide +kernel
  have hnamed : checkManifest cfServer cfArtifact cfEvidence = .ok () := ok_of_toOption hmanifest
  have hmeta : checkWheelMetadata cfServer cfArtifact wheelBytes = .ok cfRecord := cf_metadata
  have hdist : checkDistribution cfServer cfArtifact = .ok (cfDistribution false) := cf_distribution
  have hprovider : checkProvider cfServer cfArtifact = .ok ⟨[("build_udfs", true)], some "/site/cf/features.py"⟩ :=
    cf_provider
  have hcompatible : checkCore cfServer cfArtifact "0.1.0" = .ok () := ok_of_toOption hcore
  have hwith : withEvidence cfServer cfArtifact (verifyInstalledMatchesWheel cfServer cfHash (cfDistribution false)
      cfRecord (ImportedModule.mk [("build_udfs", true)] (some "/site/cf/features.py")).providerFile) = .ok () := by
    rw [show (ImportedModule.mk [("build_udfs", true)] (some "/site/cf/features.py")).providerFile =
      some "/site/cf/features.py" from rfl, ok_of_toOption hinstalled]
    rfl
  unfold verifyFeatureArtifact
  rw [ok_of_toOption hfields, ok_bind, hnamed, ok_bind, ok_of_toOption hwheel, ok_bind, hmeta, ok_bind,
    hdist, ok_bind, hprovider, ok_bind, hwith, ok_bind, hcompatible, ok_bind]
  exact ⟨_, rfl⟩

theorem cfManifest_loads : cfEnv.text.loads (cfManifest.indented 0) = .ok (.obj (sortedBy Prod.fst cfManifestFields)) := by
  have hdumps : cfEnv.text.dumps cfManifest = cfManifest.indented 0 := by
    show sampleWrite (indentedSamples cfDocs) (canonicalValueJson cfManifest) = _
    unfold sampleWrite
    rw [show indentedSamples cfDocs = (canonicalValueJson cfManifest, cfManifest.indented 0) ::
      indentedSamples cfDocs.tail from rfl, Dict.get?_cons, if_pos rfl]
  have hproper : cfManifest.Proper :=
    ⟨by decide, trivial, trivial, trivial, trivial, trivial, trivial, trivial, trivial⟩
  have hnormal : cfManifest.normal false = .obj (sortedBy Prod.fst cfManifestFields) := rfl
  rw [← hdumps, ← hnormal]
  exact cfEnv.text.loads_dumps hproper

theorem cfManifest_evidence : loadRuntimeEvidence cfEnv cfServer manifestPath = .ok cfEvidence := by
  have hperm := sortedBy_perm Prod.fst cfManifestFields
  have hn : (Dict.keys (sortedBy Prod.fst cfManifestFields)).Nodup := (hperm.map Prod.fst).nodup_iff.mpr (by decide)
  have hmem : ∀ name, name ∈ Dict.keys (sortedBy Prod.fst cfManifestFields) ↔ name ∈ Dict.keys cfManifestFields :=
    fun name => (hperm.map Prod.fst).mem_iff
  have hnone : manifestFields.filter (fun f => f ∉ Dict.keys (sortedBy Prod.fst cfManifestFields)) = [] := by
    simp only [hmem]
    decide
  unfold loadRuntimeEvidence
  rw [show cfServer.readFile manifestPath = some (cfManifest.indented 0) from rfl]
  dsimp only
  rw [cfManifest_loads]
  dsimp only
  rw [hnone, if_neg (not_not.mpr rfl)]
  simp only [Dict.get?_perm hn hperm]
  rfl

theorem computeBundleDigest_eq {sha256 : Sha256} {r : Registry} (hr : validateRegistry r = .ok ()) :
    computeBundleDigest sha256 r = .ok (definitionDigest sha256 r) := by
  rw [computeBundleDigest, canonicalRegistryContent_eq hr]
  rfl

theorem verifyBound_of {env : ReleaseEnv} {c : StartCommand} {b : RegistryBundle} {artifact : FeatureArtifact}
    {evidence : RuntimeArtifactEvidence} {verified : List (String × Value)}
    (hdefinitions : some (definitionDigest env.sha256 c.registry) = b.registryDefinitionDigest)
    (hprovider : ∀ provider ∈ c.settings.udfProvider, some provider = Dict.get? artifact "provider")
    (hevidence : loadRuntimeEvidence env c.host c.settings.featureArtifactManifest = .ok evidence)
    (hverified : verifyFeatureArtifact c.host env.hash artifact evidence c.coreVersion = .ok verified) :
    c.verifyBound env b artifact = .ok (Dict.set verified "final_bundle_digest" (.str b.bundleDigest)) := by
  unfold StartCommand.verifyBound
  rw [computeBundleDigest_eq c.valid]
  simp only [Except.mapError, ok_bind, failUnless, if_pos hdefinitions, if_pos hprovider, hevidence, hverified]

theorem cfStart_admitted : ∃ descriptor, cfStart.Admits cfEnv cfBundle.normal (some descriptor) := by
  obtain ⟨verified, hverified⟩ := cfServer_verified
  have hdefinitions : some (definitionDigest cfEnv.sha256 cfStart.registry) = cfBundle.normal.registryDefinitionDigest :=
    congrArg some cf_computed'.1
  have hprovider : ∀ provider ∈ cfStart.settings.udfProvider,
      some provider = Dict.get? (sortedBy Prod.fst cfArtifact) "provider" := by
    intro provider hp
    cases hp
    rw [Dict.get?_perm (((sortedBy_perm Prod.fst cfArtifact).map Prod.fst).nodup_iff.mpr (by decide))
      (sortedBy_perm Prod.fst cfArtifact)]
    rfl
  exact ⟨_, .inr rfl, _, verifyBound_of hdefinitions hprovider cfManifest_evidence hverified, rfl⟩

section
variable {env : ReleaseEnv} {d : ReleaseDisk}

/-! ## The history -/

variable (env) in
/-- Whatever is published, started and done to other pointer stores in between: the records that are read back are all
that the commands have answered with, in this order. Those of each environment and stage form a chain, and the pointer
is what the last of them says. -/
theorem audit_trail (root : String) (cmds : List ReleaseCommand) (htimes : (timesOf root cmds).Pairwise env.Before)
    {names : List String} (hn : Listing (releasesAfter env {} cmds) root names) :
    ∃ records, records = acceptedRecords env root {} cmds ∧
      exec releaseDisk (releasesAfter env {} cmds) (FilePointerStore.records env root names).run =
        (releasesAfter env {} cmds, .ok records) ∧
      ∀ environment, ∀ stage ∈ stages, ∃ trail,
        trail = records.filter (fun record => record.env = environment ∧ record.stage = stage) ∧
        PointerStore.Chained none trail ∧
        exec releaseDisk (releasesAfter env {} cmds) (FilePointerStore.getPointer env root environment stage).run =
          (releasesAfter env {} cmds, .ok (trail.getLast?.map PromotionRecord.pointer)) := by
  obtain ⟨ops, hpointers, hrecords, hfiles⟩ := PointerFiles.run cmds (PointerFiles.empty root)
  refine ⟨(promotionRun ops).records, hrecords, (hfiles (RecordFiles.empty root) htimes).exec_records hn, ?_⟩
  intro environment stage hstage
  refine ⟨(promotionRun ops).trail environment stage, rfl, (chain_run ops).chained environment stage, ?_⟩
  rw [hpointers.exec_getPointer hstage, pointer_run]

theorem audit_trail_cf :
    exec releaseDisk (cfDiskAt true) (FilePointerStore.records cfEnv "/pointers"
      ["20240101T000000000000_p1.json", "20240102T000000000000_p2.json"]).run =
        (cfDiskAt true, .ok [cfPromoted false, cfPromoted true]) ∧
      exec releaseDisk (cfDiskAt true) (FilePointerStore.getPointer cfEnv "/pointers" "production" stageLive).run =
        (cfDiskAt true, .ok (some (cfPromoted true).pointer)) := by
  obtain ⟨hdisk, haccepted⟩ := cf_released
  have htimes : (timesOf "/pointers" cfCommands).Pairwise cfEnv.Before := by
    rw [show timesOf "/pointers" cfCommands = [newYear, newYear + usPerDay] from rfl]
    apply List.pairwise_pair.mpr
    unfold ReleaseEnv.Before
    decide +kernel
  have hnames : Listing (releasesAfter cfEnv {} cfCommands) "/pointers"
      ["20240101T000000000000_p1.json", "20240102T000000000000_p2.json"] := by
    obtain ⟨ops, -, hrecords, hfiles⟩ := PointerFiles.run cfCommands (@PointerFiles.empty cfEnv "/pointers")
    have hlisting := (hfiles (RecordFiles.empty "/pointers") htimes).listing
    rw [hrecords, haccepted] at hlisting
    exact hlisting
  obtain ⟨records, hrecords, hread, htrail⟩ := audit_trail cfEnv "/pointers" cfCommands htimes hnames
  rw [haccepted] at hrecords
  subst hrecords
  rw [hdisk] at hread htrail
  obtain ⟨trail, rfl, -, hpointer⟩ := htrail "production" stageLive (by decide)
  refine ⟨hread, ?_⟩
  rw [hpointer]
  rfl

/-! ## The gate -/

theorem StartCommand.exec_resolve {c : StartCommand} {bundleStore pointerStore bundleEnv : String}
    (hbundles : c.settings.bundleStore = some bundleStore) (hpointers : c.settings.pointerStore = some pointerStore)
    (henv : c.settings.bundleEnv = some bundleEnv) {pointer : EnvironmentPointer}
    (hpointer : exec releaseDisk d (FilePointerStore.getPointer env pointerStore bundleEnv c.settings.bundleStage).run =
      (d, .ok (some pointer))) :
    exec releaseDisk d (c.resolvePromotedBundle env).run = (d, d.bundle env bundleStore pointer.bundleDigest) := by
  unfold StartCommand.resolvePromotedBundle
  rw [hbundles, hpointers, henv]
  dsimp only
  rw [alone_bind_ok _ _ hpointer]
  exact exec_getBundle d _ _

theorem StartCommand.exec_enforce {c : StartCommand} {b : RegistryBundle}
    (hresolved : exec releaseDisk d (c.resolvePromotedBundle env).run = (d, .ok (some b)))
    (descriptor : Option (List (String × Value))) :
    (exec releaseDisk d (c.enforce env).run).2 = .ok descriptor ↔ c.Admits env b descriptor := by
  unfold StartCommand.enforce StartCommand.Admits
  rw [alone_bind, alone_need]
  by_cases hpolicy : c.settings.environment = environmentDevelopment ∨ c.settings.artifactBinding = bindingRequired
  · simp only [failUnless, hpolicy, if_true, Except.mapError, true_and]
    rw [alone_bind_ok _ _ hresolved]
    cases hartifact : b.featureArtifact with
    | none =>
      simp only [Option.bind_some, hartifact, Option.map_none]
      by_cases hrequired : c.settings.artifactBinding = bindingRequired
      · simp [hrequired]
      · simp [hrequired, eq_comm]
    | some artifact =>
      simp only [Option.bind_some, hartifact, Option.map_some, alone_bind, alone_need]
      cases c.verifyBound env b artifact with
      | error e => simp
      | ok verified => simp [eq_comm]
  · simp [failUnless, hpolicy, Except.mapError]

theorem StartCommand.answer_iff {c : StartCommand} {bundleStore pointerStore bundleEnv : String}
    (hbundles : c.settings.bundleStore = some bundleStore) (hpointers : c.settings.pointerStore = some pointerStore)
    (henv : c.settings.bundleEnv = some bundleEnv) {pointer : EnvironmentPointer}
    (hpointer : exec releaseDisk d (FilePointerStore.getPointer env pointerStore bundleEnv c.settings.bundleStage).run =
      (d, .ok (some pointer))) {b : RegistryBundle} (hb : d.bundle env bundleStore pointer.bundleDigest = .ok (some b))
    (descriptor : Option (List (String × Value))) :
    (ReleaseCommand.start c).answer env d = .ok (.started descriptor) ↔ c.Admits env b descriptor := by
  have hresolved := StartCommand.exec_resolve hbundles hpointers henv hpointer
  rw [hb] at hresolved
  rw [← StartCommand.exec_enforce hresolved]
  unfold ReleaseCommand.answer ReleaseCommand.program
  rw [exec_map]
  cases (exec releaseDisk d (c.enforce env).run).2 with
  | error e => simp [Except.map]
  | ok descriptor' => simp [Except.map]

theorem promoteRecord_promotes {s : PointerStore} {call : PromoteCall} {record : PromotionRecord}
    (h : promoteRecord s call = .ok record) :
    call.bundleExists = true ∧ record.env = call.env ∧ record.stage = call.stage ∧ record.bundleDigest = call.bundleDigest := by
  have hrecord : (PromotionOp.promote call).record s = .ok record := h
  have hof := recordOf hrecord
  refine ⟨?_, hof.env, hof.stage, ?_⟩
  · rw [promoteRecord_eq] at h
    obtain ⟨_, hallowed, -⟩ := bind_eq_ok.mp h
    exact (stage_of_allowed hallowed).1
  · rcases promoteRecord_ok h with ⟨-, rfl⟩ | ⟨-, hlive⟩
    · rfl
    · obtain ⟨_, _, -, -, -, -, -, -, hdigest, -⟩ := promoteLive_ok hlive
      exact hdigest

/-- A promotion that has answered with a record has found its bundle, and has left the record's pointer. -/
theorem PointerFiles.promoted {root : String} {ops : List PromotionOp} (h : PointerFiles env d root (promotionRun ops))
    {c : PromoteCommand} (hroot : c.pointerStore = root) {record : PromotionRecord}
    (hc : (ReleaseCommand.promote c).answer env d = .ok (.repointed record)) :
    ∃ b op, d.bundle env c.bundleStore c.call.bundleDigest = .ok (some b) ∧ record.env = c.call.env ∧
      record.stage = c.call.stage ∧ record.bundleDigest = c.call.bundleDigest ∧
      promotionRun (ops ++ [op]) = (promotionRun ops).repoint record ∧
      PointerFiles env ((ReleaseCommand.promote c).after env d) root (promotionRun (ops ++ [op])) := by
  unfold ReleaseCommand.answer ReleaseCommand.after ReleaseCommand.program at *
  rw [exec_map, h.promoteCommand_eq hroot] at hc ⊢
  cases hbundle : d.bundle env c.bundleStore c.call.bundleDigest with
  | error e =>
    rw [hbundle] at hc
    cases hc
  | ok bundle =>
    rw [hbundle] at hc
    dsimp only at hc ⊢
    cases hrecord : promoteRecord (promotionRun ops) { c.call with bundleExists := bundle.isSome } with
    | error e =>
      rw [hrecord] at hc
      cases hc
    | ok record' =>
      rw [hrecord] at hc
      cases hc
      obtain ⟨hsome, henv, hstage, hdigest⟩ := promoteRecord_promotes hrecord
      obtain ⟨b, rfl⟩ := Option.isSome_iff_exists.mp hsome
      have hrun : promotionRun (ops ++ [.promote { c.call with bundleExists := true }]) =
          (promotionRun ops).repoint record := promotionRun_accepted hrecord
      refine ⟨b, _, rfl, henv, hstage, hdigest, hrun, ?_⟩
      rw [hrun]
      have hop : (PromotionOp.promote { c.call with bundleExists := true }).record (promotionRun ops) = .ok record := hrecord
      exact h.repointed (record_stage hop)

/-- Until its environment and stage are repointed, and whatever else is published, promoted, rolled back and started: a
promotion decides what starts there, by the bundle that it has found. -/
theorem promoted_decides (env : ReleaseEnv) (before rest : List ReleaseCommand) {c : PromoteCommand} {record : PromotionRecord}
    (hc : (ReleaseCommand.promote c).answer env (releasesAfter env {} before) = .ok (.repointed record))
    (hrest : ∀ r ∈ acceptedRecords env c.pointerStore
      ((ReleaseCommand.promote c).after env (releasesAfter env {} before)) rest,
      ¬ (r.env = c.call.env ∧ r.stage = c.call.stage))
    (s : StartCommand) (hbundles : s.settings.bundleStore = some c.bundleStore)
    (hpointers : s.settings.pointerStore = some c.pointerStore) (henv : s.settings.bundleEnv = some c.call.env)
    (hstage : s.settings.bundleStage = c.call.stage) :
    ∃ b, (releasesAfter env {} before).bundle env c.bundleStore c.call.bundleDigest = .ok (some b) ∧
      ∀ descriptor, (ReleaseCommand.start s).answer env (releasesAfter env {} (before ++ .promote c :: rest)) =
        .ok (.started descriptor) ↔ s.Admits env b descriptor := by
  obtain ⟨ops, hfiles, -⟩ := PointerFiles.run before (PointerFiles.empty c.pointerStore)
  obtain ⟨b, op, hb, hrenv, hrstage, hrdigest, hrun, hafter⟩ := hfiles.promoted rfl hc
  obtain ⟨more, hfinal, hrecords, -⟩ := PointerFiles.run rest hafter
  refine ⟨b, hb, ?_⟩
  have hsplit : releasesAfter env {} (before ++ .promote c :: rest) =
      releasesAfter env ((ReleaseCommand.promote c).after env (releasesAfter env {} before)) rest := by
    unfold releasesAfter
    rw [Runs.run_append]
    rfl
  rw [hsplit]
  -- the last record of the environment and stage is the promotion's
  have htrail : (promotionRun more).trail c.call.env c.call.stage =
      (promotionRun ops).trail c.call.env c.call.stage ++ [record] := by
    have hnone : (acceptedRecords env c.pointerStore
        ((ReleaseCommand.promote c).after env (releasesAfter env {} before)) rest).filter
          (fun r => r.env = c.call.env ∧ r.stage = c.call.stage) = [] :=
      List.filter_eq_nil_iff.mpr fun r hr => by simpa using hrest r hr
    unfold PointerStore.trail
    rw [hrecords, hrun, PointerStore.records_repoint, List.filter_append, List.filter_append, hnone]
    simp [hrenv, hrstage]
  have hpointer := @PointerFiles.exec_getPointer env _ _ _ hfinal c.call.env c.call.stage (hstage ▸ s.settings.stage_ok)
  rw [pointer_run, htrail, List.getLast?_concat] at hpointer
  have hkept : (releasesAfter env ((ReleaseCommand.promote c).after env (releasesAfter env {} before)) rest).bundle env
      c.bundleStore record.pointer.bundleDigest = .ok (some b) := by
    rw [show record.pointer.bundleDigest = record.bundleDigest from rfl, hrdigest]
    exact bundle_kept (.promote c :: rest) hb
  exact StartCommand.answer_iff hbundles hpointers henv (by rw [hstage]; exact hpointer) hkept

end

theorem cf_started : ∃ descriptor, (ReleaseCommand.start cfStart).answer cfEnv (releasesAfter cfEnv {} cfCommands) =
    .ok (.started (some descriptor)) := by
  obtain ⟨-, hbundle, hfiles⟩ := cf_published
  have hshadow : PointerFiles cfEnv (cfDiskAt false) "/pointers" ((promotionRun []).repoint (cfPromoted false)) :=
    hfiles.repointed (by decide)
  have hlive : PointerFiles cfEnv (cfDiskAt true) "/pointers"
      (((promotionRun []).repoint (cfPromoted false)).repoint (cfPromoted true)) := hshadow.repointed (by decide)
  have hpointer := @PointerFiles.exec_getPointer cfEnv _ _ _ hlive "production" stageLive (by decide)
  have hstored : (cfDiskAt true).bundle cfEnv "/bundles" cfDigest = .ok (some cfBundle.normal) :=
    (ReleaseDisk.bundle_repointed (cfDiskAt false) "/pointers" (cfPromoted true) "/bundles" cfDigest).trans cf_stored
  obtain ⟨descriptor, hadmitted⟩ := cfStart_admitted
  rw [cf_released.1]
  have hread : exec releaseDisk (cfDiskAt true)
      (FilePointerStore.getPointer cfEnv "/pointers" "production" cfStart.settings.bundleStage).run =
        (cfDiskAt true, .ok (some (cfPromoted true).pointer)) := hpointer
  exact ⟨descriptor, (StartCommand.answer_iff rfl rfl rfl hread hstored _).mpr hadmitted⟩

/-- The second of two processes that start after the release. -/
theorem promoted_decides_cf : ∃ descriptor, (ReleaseCommand.start cfStart).answer cfEnv
    (releasesAfter cfEnv {} ([.publishWheel cfPublish, .promote (cfPromote false)] ++
      .promote (cfPromote true) :: [.start cfStart])) = .ok (.started (some descriptor)) := by
  obtain ⟨⟨hshadowDisk, -⟩, hlive, -⟩ := cf_promoted
  have hdisk : releasesAfter cfEnv {} [.publishWheel cfPublish, .promote (cfPromote false)] = cfDiskAt false := hshadowDisk
  have hnone : ∀ d, acceptedRecords cfEnv "/pointers" d [.start cfStart] = [] := by
    intro d
    have hstart : (ReleaseCommand.start cfStart).accepted cfEnv "/pointers" d = none :=
      ReleaseCommand.accepted_elsewhere fun _ _ h => by cases h
    rw [acceptedRecords, hstart]
    rfl
  obtain ⟨b, hb, hdecides⟩ := promoted_decides cfEnv [.publishWheel cfPublish, .promote (cfPromote false)]
    [.start cfStart] (c := cfPromote true) (by rw [hdisk]; exact hlive)
    (by
      intro r hr
      rw [show (cfPromote true).pointerStore = "/pointers" from rfl, hnone] at hr
      cases hr)
    cfStart rfl rfl rfl rfl
  rw [hdisk] at hb
  have hsame : some b = some cfBundle.normal := Except.ok.inj (hb.symm.trans cf_stored)
  cases hsame
  obtain ⟨descriptor, hadmitted⟩ := cfStart_admitted
  exact ⟨descriptor, (hdecides _).mpr hadmitted⟩

end ClearFeature
