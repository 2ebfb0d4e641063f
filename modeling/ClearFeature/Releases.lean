import ClearFeature.Lib.Raising
import ClearFeature.CoreVersions
import ClearFeature.ModelScores
import ClearFeature.ReleaseRecords
import ClearFeature.WheelStore

/-!
# Releasing feature code (`cli/fsctl.py`, `api/artifact_binding.py`)

A release is published, promoted in an environment and served by the processes
that start there. All of it goes through files and a wheel store that the
commands share: each is a program of single calls, so that any of them may run
beside any other and may be killed at any point. A write of a file is one step.
Environments and digests are parts of file names, and the roots are resolved.
-/

namespace ClearFeature

open Prog Shared StableSort Wire
open Raising (need)

/-! ## Files -/

/-- A file of a store, by the root of the store and the name of the file in it. -/
inductive Place where
  | bundle (root name : String)
  | pointer (root name : String)
  | record (root name : String)
  deriving DecidableEq

/-- The parts of a path; `pathlib` keeps no empty one and no dot. -/
def pathParts (path : String) : List (List Char) :=
  (splitOn '/' path.toList).filter fun part => decide (part ≠ [] ∧ part ≠ ['.'])

/-- The directory of a place, and the place in it. -/
def Place.join : Place → List (List Char) × String
  | .bundle root name => (pathParts root, name)
  | .pointer root name => (pathParts root ++ ["pointers".toList], name)
  | .record root name => (pathParts root ++ ["records".toList], name)

def Place.path (place : Place) : List (List Char) := place.join.1 ++ pathParts place.join.2

/-- A text that makes a file name of one part: joined to a directory, the name stays in it. -/
abbrev OnePart (text : String) : Prop := '/' ∉ text.toList

/-- The roots of the stores are resolved: each directory has one text, and no bundle store lies in a directory of a
pointer store. -/
structure ResolvedRoots (bundleRoots pointerRoots : Set String) : Prop where
  texts : Set.InjOn pathParts (bundleRoots ∪ pointerRoots)
  apart : ∀ b ∈ bundleRoots, ∀ p ∈ pointerRoots, ∀ dir, pathParts b ≠ pathParts p ++ [dir]

/-- A file whose name is one part, in one of the stores. -/
inductive Place.Plain (bundleRoots pointerRoots : Set String) : Place → Prop
  | bundle {root name : String} (hroot : root ∈ bundleRoots) (hname : pathParts name = [name.toList]) :
    Plain bundleRoots pointerRoots (.bundle root name)
  | pointer {root name : String} (hroot : root ∈ pointerRoots) (hname : pathParts name = [name.toList]) :
    Plain bundleRoots pointerRoots (.pointer root name)
  | record {root name : String} (hroot : root ∈ pointerRoots) (hname : pathParts name = [name.toList]) :
    Plain bundleRoots pointerRoots (.record root name)

section
variable {bundleRoots pointerRoots : Set String}

theorem pathParts_json {name : String} (h : OnePart name) : pathParts (name ++ ".json") = [(name ++ ".json").toList] := by
  have hslash : '/' ∉ (name ++ ".json").toList := by
    rw [String.toList_append, List.mem_append]
    exact not_or.mpr ⟨h, by decide⟩
  have hlength : 5 ≤ (name ++ ".json").toList.length := by
    rw [String.toList_append, List.length_append]
    exact Nat.le_add_left 5 _
  have hsplit : splitOn '/' (name ++ ".json").toList = [(name ++ ".json").toList] := by
    rw [splitOn_eq]
    exact List.splitOn_eq_singleton hslash
  have hkept : (name ++ ".json").toList ≠ [] ∧ (name ++ ".json").toList ≠ ['.'] := by
    constructor
    · intro hnil
      simp [hnil] at hlength
    · intro hdot
      simp [hdot] at hlength
  rw [pathParts, hsplit]
  exact List.filter_eq_self.mpr (by simpa using hkept)

/-- Two files of the stores are one exactly if they are one place. -/
theorem Place.path_inj (hroots : ResolvedRoots bundleRoots pointerRoots) {p q : Place}
    (hp : p.Plain bundleRoots pointerRoots) (hq : q.Plain bundleRoots pointerRoots) (h : p.path = q.path) : p = q := by
  have happart : ∀ {b root : String} {dir : List Char}, b ∈ bundleRoots → root ∈ pointerRoots →
      pathParts b ≠ pathParts root ++ [dir] := fun hb hr => hroots.apart _ hb _ hr _
  have hlast : ∀ {dir dir' : List (List Char)} {name name' : String}, dir ++ [name.toList] = dir' ++ [name'.toList] →
      dir = dir' ∧ name = name' := by
    intro dir dir' name name' heq
    obtain ⟨hdir, hname⟩ := List.append_inj' heq rfl
    exact ⟨hdir, String.toList_injective (List.cons.inj hname).1⟩
  cases hp with
  | bundle hroot hname =>
    cases hq with
    | bundle hroot' hname' =>
      simp only [path, join, hname, hname'] at h
      obtain ⟨hdir, rfl⟩ := hlast h
      rw [hroots.texts (.inl hroot) (.inl hroot') hdir]
    | pointer hroot' hname' =>
      simp only [path, join, hname, hname'] at h
      exact absurd (hlast h).1 (happart hroot hroot')
    | record hroot' hname' =>
      simp only [path, join, hname, hname'] at h
      exact absurd (hlast h).1 (happart hroot hroot')
  | pointer hroot hname =>
    cases hq with
    | bundle hroot' hname' =>
      simp only [path, join, hname, hname'] at h
      exact absurd (hlast h).1.symm (happart hroot' hroot)
    | pointer hroot' hname' =>
      simp only [path, join, hname, hname'] at h
      obtain ⟨hdir, rfl⟩ := hlast h
      rw [hroots.texts (.inr hroot) (.inr hroot') (List.append_cancel_right hdir)]
    | record hroot' hname' =>
      simp only [path, join, hname, hname'] at h
      have := (List.append_inj' (hlast h).1 rfl).2
      simp at this
  | record hroot hname =>
    cases hq with
    | bundle hroot' hname' =>
      simp only [path, join, hname, hname'] at h
      exact absurd (hlast h).1.symm (happart hroot' hroot)
    | pointer hroot' hname' =>
      simp only [path, join, hname, hname'] at h
      have := (List.append_inj' (hlast h).1 rfl).2
      simp at this
    | record hroot' hname' =>
      simp only [path, join, hname, hname'] at h
      obtain ⟨hdir, rfl⟩ := hlast h
      rw [hroots.texts (.inr hroot) (.inr hroot') (List.append_cancel_right hdir)]

end

inductive ReleaseCall where
  | pathExists (place : Place)
  | readText (place : Place)
  | writeText (place : Place) (doc : Bytes)
  | wheels (uri : String) (c : StoreCall)

abbrev ReleaseCall.Ans : ReleaseCall → Type
  | .pathExists _ => Bool
  | .readText _ => Option Bytes
  | .writeText _ _ => Unit
  | .wheels _ c => c.Ans

structure ReleaseDisk where
  docs : Place → Option Bytes := fun _ => none
  wheels : String → Objects := fun _ _ => none

def releaseDisk : Service ReleaseCall ReleaseCall.Ans ReleaseDisk where
  act d
    | .pathExists _ | .readText _ => d
    | .writeText place doc => { d with docs := Function.update d.docs place (some doc) }
    | .wheels uri c => { d with wheels := Function.update d.wheels uri (objectStore.act (d.wheels uri) c) }
  answer d
    | .pathExists place => (d.docs place).isSome
    | .readText place => d.docs place
    | .writeText _ _ => ()
    | .wheels uri c => objectStore.answer (d.wheels uri) c

inductive ReleaseError where
  | promotion (e : PromotionError)
  | verification (e : VerifyError)
  | other (e : PyErr)

abbrev ReleaseProg := Raising ReleaseError ReleaseCall ReleaseCall.Ans

abbrev pathExists (place : Place) : ReleaseProg Bool := Raising.call (ReleaseCall.pathExists place)

abbrev readText (place : Place) : ReleaseProg (Option Bytes) := Raising.call (ReleaseCall.readText place)

abbrev writeText (place : Place) (doc : Bytes) : ReleaseProg Unit := Raising.call (ReleaseCall.writeText place doc)

/-- What the commands compute with beside the disk: texts and digests. -/
structure ReleaseEnv where
  text : WireText
  floatText : PyFloat → String
  sha256 : Sha256
  hash : Bytes → Bytes
  publish : PublishEnv
  /-- `strftime("%Y%m%dT%H%M%S%f")` -/
  stamp : Int → String
  hash_file : ∀ data, publish.sha256 (.file data) = hash data

section
variable (env : ReleaseEnv)

def needPy {α : Type} (x : Except PyErr α) : ReleaseProg α := need (x.mapError .other)

/-- A text that is there, parsed. -/
def readDoc {T : Type} (read : Value → Except PyErr T) (place : Place) : ReleaseProg (Option T) := do
  if ← pathExists place then
    match ← readText place with
    | none => throw (.other (.other "FileNotFoundError" "No such file or directory"))
    | some doc =>
      let a ← needPy (Wire.fromJson env.text read doc)
      return some a
  else return none

/-! ## The bundle store -/

/-- `_digest_filename`. -/
def digestFilename (bundleDigest : String) : String :=
  String.ofList (bundleDigest.toList.map fun c => if c = ':' then '_' else c) ++ ".json"

def bundlePlace (root bundleDigest : String) : Place := .bundle root (digestFilename bundleDigest)

theorem bundlePlace_plain {bundleRoots pointerRoots : Set String} {root digest : String} (hroot : root ∈ bundleRoots)
    (h : OnePart digest) : (bundlePlace root digest).Plain bundleRoots pointerRoots := by
  refine .bundle hroot (pathParts_json ?_)
  intro hmem
  rw [String.toList_ofList] at hmem
  obtain ⟨c, hc, hslash⟩ := List.mem_map.mp hmem
  split at hslash
  · cases hslash
  · exact h (hslash ▸ hc)

namespace FileBundleStore

def get (root bundleDigest : String) : ReleaseProg (Option RegistryBundle) :=
  readDoc env (RegistryBundle.fromDict env.text.toWireCodec) (bundlePlace root bundleDigest)

def put (root : String) (bundle : RegistryBundle) : ReleaseProg Unit := do
  match ← get env root bundle.bundleDigest with
  | some existing =>
    if existing.definitionalKey ≠ bundle.definitionalKey then
      throw (.other (.valueError
        s!"bundle digest {bundle.bundleDigest} already published with different content; registry bundles are immutable"))
    else return ()
  | none => writeText (bundlePlace root bundle.bundleDigest) (env.text.dumps (bundle.toDict env.text))

end FileBundleStore

/-! ## The pointer store -/

def pointerPlace (root environment stage : String) : Place := .pointer root (environment ++ "__" ++ stage ++ ".json")

theorem pointerPlace_plain {bundleRoots pointerRoots : Set String} {root environment stage : String}
    (hroot : root ∈ pointerRoots) (h : OnePart environment) (hstage : stage ∈ stages) :
    (pointerPlace root environment stage).Plain bundleRoots pointerRoots := by
  refine .pointer hroot (pathParts_json ?_)
  have hstages : ∀ stage ∈ stages, OnePart stage := by decide
  show '/' ∉ (environment ++ "__" ++ stage).toList
  rw [String.toList_append, String.toList_append, List.mem_append, List.mem_append, not_or, not_or]
  exact ⟨⟨h, by decide⟩, hstages stage hstage⟩

def recordName (record : PromotionRecord) : String :=
  env.stamp record.createdAt ++ "_" ++ record.promotionId ++ ".json"

def recordPlace (root : String) (record : PromotionRecord) : Place := .record root (recordName env record)

theorem recordPlace_plain {bundleRoots pointerRoots : Set String} {root : String} (hroot : root ∈ pointerRoots)
    {record : PromotionRecord} (hstamp : OnePart (env.stamp record.createdAt)) (hid : OnePart record.promotionId) :
    (recordPlace env root record).Plain bundleRoots pointerRoots := by
  refine .record hroot (pathParts_json ?_)
  show '/' ∉ (env.stamp record.createdAt ++ "_" ++ record.promotionId).toList
  rw [String.toList_append, String.toList_append, List.mem_append, List.mem_append, not_or, not_or]
  exact ⟨⟨hstamp, by decide⟩, hid⟩

/-- What the commands name by environments, digests and identifiers of one part. -/
inductive CommandPlace (bundleRoots pointerRoots : Set String) : Place → Prop
  | bundle {root digest : String} (hroot : root ∈ bundleRoots) (hdigest : OnePart digest) :
    CommandPlace bundleRoots pointerRoots (bundlePlace root digest)
  | pointer {root environment stage : String} (hroot : root ∈ pointerRoots) (henv : OnePart environment)
    (hstage : stage ∈ stages) : CommandPlace bundleRoots pointerRoots (pointerPlace root environment stage)
  | record {root : String} {record : PromotionRecord} (hroot : root ∈ pointerRoots)
    (hstamp : OnePart (env.stamp record.createdAt)) (hid : OnePart record.promotionId) :
    CommandPlace bundleRoots pointerRoots (recordPlace env root record)

/-- Different places that commands name are different files. -/
theorem commandPlace_path_injOn {bundleRoots pointerRoots : Set String} (hroots : ResolvedRoots bundleRoots pointerRoots) :
    Set.InjOn Place.path { place | CommandPlace env bundleRoots pointerRoots place } := by
  have hplain : ∀ place, CommandPlace env bundleRoots pointerRoots place → place.Plain bundleRoots pointerRoots := by
    intro place h
    cases h with
    | bundle hroot hdigest => exact bundlePlace_plain hroot hdigest
    | pointer hroot henv hstage => exact pointerPlace_plain hroot henv hstage
    | record hroot hstamp hid => exact recordPlace_plain env hroot hstamp hid
  intro p hp q hq h
  exact Place.path_inj hroots (hplain p hp) (hplain q hq) h

namespace FilePointerStore

def getPointer (root environment stage : String) : ReleaseProg (Option EnvironmentPointer) :=
  readDoc env (EnvironmentPointer.fromDict env.text.toWireCodec) (pointerPlace root environment stage)

def setPointer (root : String) (pointer : EnvironmentPointer) : ReleaseProg Unit :=
  writeText (pointerPlace root pointer.env pointer.stage) (env.text.dumps (pointer.toDict env.text))

def appendRecord (root : String) (record : PromotionRecord) : ReleaseProg Unit :=
  writeText (recordPlace env root record) (env.text.dumps (record.toDict env.text))

/-- `records`, of the names that the directory lists. -/
def records (root : String) : List String → ReleaseProg (List PromotionRecord)
  | [] => return []
  | name :: names => do
    match ← readText (.record root name) with
    | none => throw (.other (.other "FileNotFoundError" "No such file or directory"))
    | some doc =>
      let record ← needPy (Wire.fromJson env.text (PromotionRecord.fromDict env.text.toWireCodec) doc)
      let records ← records root names
      return record :: records

end FilePointerStore

open FilePointerStore

/-! ## Promotion -/

def needRule {α : Type} (x : Except PromotionError α) : ReleaseProg α := need (x.mapError .promotion)

/-- `PROFILES[profile]` -/
def profileOf (profile : Option String) : Except PromotionError ApprovalProfile :=
  match profile with
  | none => .error .noProfile
  | some profile =>
    match Dict.get? profiles profile with
    | none => .error (.unknownProfile profile)
    | some prof => .ok prof

def enoughApprovers (prof : ApprovalProfile) (approvers : List String) : Except PromotionError Unit :=
  if approvers.length < prof.requiredApprovers then .error (.tooFewApprovers prof approvers.length) else .ok ()

def liveRecord (call : PromoteCall) (prof : ApprovalProfile) (approvers : List String) (started : Option Int)
    (previous : Option EnvironmentPointer) : PromotionRecord where
  promotionId := call.promotionId
  action := .promote
  env := call.env
  stage := stageLive
  bundleDigest := call.bundleDigest
  previousDigest := previous.map EnvironmentPointer.bundleDigest
  actor := call.actor
  reason := call.reason
  createdAt := call.now
  approvedBy := approvers
  profile := some prof.name
  shadowStartedAt := started
  shadowAgeOverride := call.shadowAgeOverride
  overrideReason := if call.shadowAgeOverride then call.overrideReason else none

/-- `_promote_live`. -/
def fsctlPromoteLive (root : String) (call : PromoteCall) : ReleaseProg PromotionRecord := do
  let prof ← needRule (profileOf call.profile)
  let approvers ← needRule (uniqueApprovers call.approvedBy)
  needRule (enoughApprovers prof approvers)
  let shadow ← getPointer env root call.env stageShadow
  let started := shadow.bind fun p => if p.bundleDigest = call.bundleDigest then p.shadowStartedAt else none
  needRule (checkSoak call prof started)
  let previous ← getPointer env root call.env stageLive
  return liveRecord call prof approvers started previous

def shadowRecord (call : PromoteCall) (previous : Option EnvironmentPointer) : PromotionRecord where
  promotionId := call.promotionId
  action := .promote
  env := call.env
  stage := stageShadow
  bundleDigest := call.bundleDigest
  previousDigest := previous.map EnvironmentPointer.bundleDigest
  actor := call.actor
  reason := call.reason
  createdAt := call.now
  shadowStartedAt := some call.now

def fsctlPromoteShadow (root : String) (call : PromoteCall) : ReleaseProg PromotionRecord := do
  let previous ← getPointer env root call.env stageShadow
  return shadowRecord call previous

/-- The pointer that a record puts into force. -/
def PromotionRecord.pointer (record : PromotionRecord) : EnvironmentPointer where
  env := record.env
  stage := record.stage
  bundleDigest := record.bundleDigest
  updatedAt := record.createdAt
  shadowStartedAt := record.shadowStartedAt
  previousDigest := record.previousDigest

/-- The pointer first, then the record. -/
def fsctlRepoint (root : String) (record : PromotionRecord) : ReleaseProg Unit := do
  setPointer env root record.pointer
  appendRecord env root record

def promoteAllowed (call : PromoteCall) : Except PromotionError Unit :=
  if call.bundleExists = false then .error (.unknownBundle call.bundleDigest)
  else if call.stage ∉ stages then .error (.unknownStage call.stage)
  else if isBlank call.reason then .error .noReason
  else .ok ()

def promotionRecord (root : String) (call : PromoteCall) : ReleaseProg PromotionRecord :=
  if call.stage = stageShadow then fsctlPromoteShadow env root call else fsctlPromoteLive env root call

/-- `promote`. -/
def fsctlPromote (root : String) (call : PromoteCall) : ReleaseProg PromotionRecord := do
  needRule (promoteAllowed call)
  let record ← promotionRecord env root call
  fsctlRepoint env root record
  return record

def rollbackAllowed (call : RollbackCall) : Except PromotionError Unit :=
  if isBlank call.reason then .error .noReason
  else if call.stage ∉ stages then .error (.unknownStage call.stage)
  else .ok ()

def currentPointer (call : RollbackCall) : Option EnvironmentPointer → Except PromotionError EnvironmentPointer
  | none => .error (.noPointer call.env call.stage)
  | some current => .ok current

def rolledBack (call : RollbackCall) (current : EnvironmentPointer) (target : String) : PromotionRecord where
  promotionId := call.promotionId
  action := .rollback
  env := call.env
  stage := call.stage
  bundleDigest := target
  previousDigest := some current.bundleDigest
  actor := call.actor
  reason := call.reason
  createdAt := call.now
  shadowStartedAt := if call.stage = stageShadow then current.shadowStartedAt else none

/-- `rollback`. -/
def fsctlRollback (root : String) (call : RollbackCall) : ReleaseProg PromotionRecord := do
  needRule (rollbackAllowed call)
  let pointer ← getPointer env root call.env call.stage
  let current ← needRule (currentPointer call pointer)
  let target ← needRule (rollbackTarget call current)
  fsctlRepoint env root (rolledBack call current target)
  return rolledBack call current target

/-! ## Commands -/

/-- `fsctl publish`; the registry has been loaded. -/
structure PublishCommand where
  bundleStore : String
  registry : Registry
  valid : validateRegistry registry = .ok ()
  createdAt : Int
  sourceRef : Option String := none

theorem no_artifact : ∀ m ∈ (none : Option (List (String × String))), (Dict.keys m).Nodup := by
  intro m hm
  cases hm

def PublishCommand.args (c : PublishCommand) : BundleArgs where
  registry := c.registry
  createdAt := c.createdAt
  sourceRef := c.sourceRef
  artifact_nodup := no_artifact

def PublishCommand.program (c : PublishCommand) : ReleaseProg RegistryBundle := do
  let bundle ← needPy (buildRegistryBundle env.sha256 c.args)
  FileBundleStore.put env c.bundleStore bundle
  return bundle

/-- `fsctl publish --project`; the wheel has been installed, tested and found to have this name and version. -/
structure PublishWheelCommand where
  bundleStore : String
  wheelStore : String
  registry : Registry
  valid : validateRegistry registry = .ok ()
  createdAt : Int
  sourceRef : Option String := none
  udfProvider : String
  requiresCore : Option String := none
  release : PutCall

def wheelCall {α : Type} (uri : String) (p : WheelProg (Except PyErr α)) : ReleaseProg α := do
  let r ← ExceptT.lift (embed (ReleaseCall.wheels uri) (fun _ a => a) p)
  needPy r

def releaseItem (record : JsonRecord) (name : String) : Except PyErr String :=
  match Dict.get? record name with
  | some v => .ok v
  | none => .error (.keyError name)

namespace PublishWheelCommand
variable (c : PublishWheelCommand)

def artifact (filename storageKey : String) : FeatureArtifact :=
  [("name", c.release.name), ("version", c.release.version), ("provider", c.udfProvider),
   ("sha256", c.release.sha env.publish), ("filename", filename), ("storage_key", storageKey)] ++
  match c.requiresCore.filter fun r => r ≠ "" with
  | none => []
  | some requiresCore => [("requires_core", requiresCore)]

theorem artifact_nodup (filename storageKey : String) : (Dict.keys (c.artifact env filename storageKey)).Nodup := by
  unfold artifact
  split <;> simp [Dict.keys]

def args (filename storageKey : String) : BundleArgs where
  registry := c.registry
  createdAt := c.createdAt
  sourceRef := c.sourceRef
  featureArtifact := some (c.artifact env filename storageKey)
  artifact_nodup m hm := by
    cases hm
    exact c.artifact_nodup env filename storageKey

def program : ReleaseProg RegistryBundle := do
  let sha := c.release.sha env.publish
  let release ← wheelCall c.wheelStore (c.release.program env.publish)
  let _ ← wheelCall c.wheelStore (readBackVerify env.publish c.release.name c.release.version sha)
  let storageKey ← needPy (releaseItem release "storage_key")
  let filename ← needPy (releaseItem release "filename")
  let bundle ← needPy (buildRegistryBundle env.sha256 (c.args env filename storageKey))
  FileBundleStore.put env c.bundleStore bundle
  return bundle

end PublishWheelCommand

structure PromoteCommand where
  bundleStore : String
  pointerStore : String
  call : PromoteCall
  env_part : OnePart call.env
  digest_part : OnePart call.bundleDigest

def PromoteCommand.program (c : PromoteCommand) : ReleaseProg PromotionRecord := do
  let bundle ← FileBundleStore.get env c.bundleStore c.call.bundleDigest
  fsctlPromote env c.pointerStore { c.call with bundleExists := bundle.isSome }

structure RollbackCommand where
  bundleStore : Option String := none
  pointerStore : String
  call : RollbackCall
  env_part : OnePart call.env
  digest_part : ∀ digest ∈ call.bundleDigest, OnePart digest

/-- The digest to check, with the store to check it in. -/
def RollbackCommand.checked (c : RollbackCommand) : Option (String × String) :=
  match c.call.bundleDigest.filter (· ≠ ""), c.bundleStore.filter (· ≠ "") with
  | some digest, some root => some (root, digest)
  | _, _ => none

def RollbackCommand.program (c : RollbackCommand) : ReleaseProg PromotionRecord := do
  let bundleExists ← match c.checked with
    | none => pure none
    | some (root, digest) => do
      let bundle ← FileBundleStore.get env root digest
      pure (some bundle.isSome)
  fsctlRollback env c.pointerStore { c.call with bundleExists }

/-! ## The gate -/

def catRequired : String := "feature_artifact_required"

def catManifestMissing : String := "feature_artifact_manifest_missing"

def catRegistryMismatch : String := "feature_artifact_registry_mismatch"

def bindingLegacyCompatible : String := "legacy-compatible"

def bindingRequired : String := "required"

def environmentDevelopment : String := "development"

/-- The settings that the gate reads; `load_settings` has checked the policy and the stage. The environment is a part of
a file name. -/
structure BindingSettings where
  environment : String := environmentDevelopment
  artifactBinding : String := bindingLegacyCompatible
  featureArtifactManifest : String := "/etc/clearfeature/feature-artifact.json"
  bundleStore : Option String := none
  pointerStore : Option String := none
  bundleEnv : Option String := none
  bundleStage : String := stageLive
  udfProvider : Option String := none
  binding_ok : artifactBinding ∈ [bindingLegacyCompatible, bindingRequired]
  stage_ok : bundleStage ∈ stages
  given : ∀ s, some s ∈ [bundleStore, pointerStore, bundleEnv, udfProvider] → s ≠ ""
  env_part : ∀ environment ∈ bundleEnv, OnePart environment

def manifestFields : List String :=
  ["format_version", "name", "version", "provider", "filename", "sha256", "wheel_path"]

def loadRuntimeEvidence (host : Host) (path : String) : Verify RuntimeArtifactEvidence :=
  match host.readFile path with
  | none => .error (.artifact catManifestMissing s!"runtime artifact manifest not found at {path}" [])
  | some raw =>
    match env.text.loads raw with
    | .error msg => .error (.artifact catMetadataInvalid s!"runtime artifact manifest is not valid JSON: {msg}" [])
    | .ok (.obj data) =>
      let missing := manifestFields.filter fun f => f ∉ Dict.keys data
      if missing ≠ [] then
        .error (.artifact catMetadataInvalid
          s!"runtime manifest missing fields: {reprValue env.floatText (strs (sortedBy id missing))}" [])
      else
        let field := fun name => strValue env.floatText ((Dict.get? data name).getD .null)
        .ok {
          name := field "name"
          version := field "version"
          provider := field "provider"
          filename := field "filename"
          sha256 := field "sha256"
          wheelPath := field "wheel_path" }
    | .ok _ => .error (.artifact catMetadataInvalid "runtime manifest must be an object" [])

/-- A process that starts: what it is configured with, and what it finds on its host. -/
structure StartCommand where
  settings : BindingSettings
  registry : Registry
  valid : validateRegistry registry = .ok ()
  host : Host
  coreVersion : String

namespace StartCommand
variable (c : StartCommand)

def resolvePromotedBundle : ReleaseProg (Option RegistryBundle) :=
  match c.settings.bundleStore, c.settings.pointerStore, c.settings.bundleEnv with
  | some bundleStore, some pointerStore, some bundleEnv => do
    match ← getPointer env pointerStore bundleEnv c.settings.bundleStage with
    | none => return none
    | some pointer => FileBundleStore.get env bundleStore pointer.bundleDigest
  | _, _, _ => return none

/-- What the gate does with a bundle that names an artifact. -/
def verifyBound (bundle : RegistryBundle) (artifact : FeatureArtifact) :
    Except ReleaseError (List (String × Value)) := do
  let digest ← (computeBundleDigest env.sha256 c.registry).mapError .other
  let evidenceOf := fun category => [("category", category), ("final_bundle_digest", bundle.bundleDigest)]
  let check : Verify (List (String × Value)) := do
    failUnless (some digest = bundle.registryDefinitionDigest) catRegistryMismatch
      "served registry does not match the promoted bundle registry_definition_digest" (evidenceOf catRegistryMismatch)
    failUnless (∀ provider ∈ c.settings.udfProvider, some provider = Dict.get? artifact "provider") catProviderMismatch
      "configured FSP_UDF_PROVIDER does not match the promoted feature_artifact provider" (evidenceOf catProviderMismatch)
    let evidence ← loadRuntimeEvidence env c.host c.settings.featureArtifactManifest
    let descriptor ← verifyFeatureArtifact c.host env.hash artifact evidence c.coreVersion
    .ok (Dict.set descriptor "final_bundle_digest" (.str bundle.bundleDigest))
  check.mapError .verification

def required : VerifyError :=
  .artifact catRequired ("artifact binding is required but no artifact-bound promoted bundle is " ++
    "configured (set FSP_BUNDLE_STORE/FSP_POINTER_STORE/FSP_BUNDLE_ENV)") [("category", catRequired)]

/-- `_enforce`: the descriptor of a verified bundle, or nothing where none is needed. -/
def enforce : ReleaseProg (Option (List (String × Value))) := do
  need ((failUnless (c.settings.environment = environmentDevelopment ∨ c.settings.artifactBinding = bindingRequired)
    catRequired
    (s!"environment {reprStr c.settings.environment} must set FSP_ARTIFACT_BINDING={bindingRequired} " ++
      "(artifact binding cannot be weakened in a production-like environment)")
    [("category", catRequired), ("environment", c.settings.environment)]).mapError .verification)
  let bundle ← c.resolvePromotedBundle env
  match bundle.bind fun b => b.featureArtifact.map fun artifact => (b, artifact) with
  | some (b, artifact) =>
    let descriptor ← need (c.verifyBound env b artifact)
    return some descriptor
  | none =>
    if c.settings.artifactBinding = bindingRequired then throw (.verification required)
    else return none

end StartCommand

/-! ## Everything that runs -/

inductive ReleaseCommand where
  | publish (c : PublishCommand)
  | publishWheel (c : PublishWheelCommand)
  | promote (c : PromoteCommand)
  | rollback (c : RollbackCommand)
  | start (c : StartCommand)

inductive ReleaseAnswer where
  | published (bundle : RegistryBundle)
  | repointed (record : PromotionRecord)
  | started (descriptor : Option (List (String × Value)))

def ReleaseCommand.program : ReleaseCommand → ReleaseProg ReleaseAnswer
  | .publish c => do return .published (← c.program env)
  | .publishWheel c => do return .published (← c.program env)
  | .promote c => do return .repointed (← c.program env)
  | .rollback c => do return .repointed (← c.program env)
  | .start c => do return .started (← c.enforce env)

abbrev ReleaseWorld (ι : Type) :=
  World ι ReleaseCall ReleaseCall.Ans (Except ReleaseError ReleaseAnswer) ReleaseDisk

/-- The commands after the calls that the schedule lets them make; one that is not scheduled again was killed. -/
def releases {ι : Type} [DecidableEq ι] (commands : ι → ReleaseCommand) (schedule : List ι) : ReleaseWorld ι :=
  Shared.run releaseDisk ⟨{}, fun i => ((commands i).program env).run⟩ schedule

end

end ClearFeature
