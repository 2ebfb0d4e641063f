import ClearFeature.Value
import ClearFeature.Lib.Dict

/-!
# Runtime artifact verification (`fs_core/runtime/artifact_verifier.py`)

The promoted wheel against the installed distribution and the imported
provider. The host is what the verifier reads: files, wheels, distributions and
modules. SHA-256 is a parameter, a function of bytes.
-/

namespace ClearFeature

/-! ## Text -/

/-- `s.split(sep)`. -/
def splitOn (sep : Char) : List Char → List (List Char)
  | [] => [[]]
  | c :: cs =>
    match splitOn sep cs with
    | [] => [[c]]
    | part :: parts => if c = sep then [] :: part :: parts else (c :: part) :: parts

/-- `s.strip()`. -/
def strip (cs : List Char) : List Char := ((cs.dropWhile isSpace).reverse.dropWhile isSpace).reverse

/-- The characters `str.splitlines` breaks at. -/
def isLineBreak (c : Char) : Bool :=
  let n := c.toNat
  (10 ≤ n && n ≤ 13) || (28 ≤ n && n ≤ 30) || n == 133 || n == 8232 || n == 8233

/-- `s.splitlines()`, `line` being the current line, last character first; `afterCr` tells that a carriage return was
just read, which a line feed completes. -/
def splitlines (afterCr : Bool) (line : List Char) : List Char → List (List Char)
  | [] => if line = [] then [] else [line.reverse]
  | c :: cs =>
    if afterCr && c.toNat == 10 then splitlines false line cs
    else if isLineBreak c then line.reverse :: splitlines (c.toNat == 13) [] cs
    else splitlines false (c :: line) cs

/-- `re.sub(r"[-_.]+", "-", s)`; `run` tells that the character before was replaced. -/
def collapseSeparators (run : Bool) : List Char → List Char
  | [] => []
  | c :: cs =>
    if c = '-' ∨ c = '_' ∨ c = '.' then
      if run then collapseSeparators true cs else '-' :: collapseSeparators true cs
    else c :: collapseSeparators false cs

/-- `canonicalize_name`, with `str.lower`. -/
def canonicalizeName (lower : List Char → List Char) (name : String) : String :=
  String.ofList (lower (strip (collapseSeparators false name.toList)))

/-- `s.split(":", 1)[-1]`. -/
def afterColon (s : String) : String :=
  match s.toList.dropWhile (· ≠ ':') with
  | [] => s
  | _ :: cs => String.ofList cs

/-- `artifact_storage_key`. -/
def artifactStorageKey (name version sha256 filename : String) : String :=
  s!"{name}/{version}/{afterColon sha256}/{filename}"

/-- `Path(p).name`. -/
def pathName (p : String) : String :=
  match ((splitOn '/' p.toList).filter fun part => part ≠ [] ∧ part ≠ ['.']).getLast? with
  | some part => String.ofList part
  | none => ""

/-! ## Digests -/

def hexDigit (n : Nat) : Char := ("0123456789abcdef".toList).getD n '0'

def hexDigits : Bytes → List Char
  | [] => []
  | b :: bs => hexDigit (b.toNat / 16) :: hexDigit (b.toNat % 16) :: hexDigits bs

def base64Alphabet : List Char := "ABCDEFGHIJKLMNOPQRSTUVWXYZabcdefghijklmnopqrstuvwxyz0123456789-_".toList

def base64Char (n : Nat) : Char := base64Alphabet.getD n 'A'

/-- `base64.urlsafe_b64encode(data).rstrip("=")`. -/
def urlsafeBase64 : Bytes → List Char
  | [] => []
  | [a] => [base64Char (a.toNat / 4), base64Char (a.toNat % 4 * 16)]
  | [a, b] =>
    [base64Char (a.toNat / 4), base64Char (a.toNat % 4 * 16 + b.toNat / 16), base64Char (b.toNat % 16 * 4)]
  | a :: b :: c :: rest =>
    base64Char (a.toNat / 4) :: base64Char (a.toNat % 4 * 16 + b.toNat / 16) ::
      base64Char (b.toNat % 16 * 4 + c.toNat / 64) :: base64Char (c.toNat % 64) :: urlsafeBase64 rest

/-- `sha256_file` of a file with these bytes. -/
def sha256Bytes (sha256 : Bytes → Bytes) (data : Bytes) : String := "sha256:" ++ String.ofList (hexDigits (sha256 data))

/-- `_record_hash`. -/
def recordHash (sha256 : Bytes → Bytes) (data : Bytes) : String :=
  "sha256=" ++ String.ofList (urlsafeBase64 (sha256 data))

/-! ## `requires_core` -/

/-- `\d+(?:\.\d+)*`, of the whole text. -/
def isRelease (cs : List Char) : Bool := (splitOn '.' cs).all fun part => part ≠ [] ∧ part.all isDecimal

/-- How many digits `int` converts at most. -/
def maxStrDigits : Nat := 4300

def releaseNumber (cs : List Char) : Nat := cs.foldl (fun n c => n * 10 + (decimalValue c).getD 0) 0

/-- `int(component)`. -/
def componentNumber (cs : List Char) : Except PyErr Nat := do
  let hint := "use sys.set_int_max_str_digits() to increase the limit"
  raiseIf (maxStrDigits < cs.length)
    s!"Exceeds the limit ({maxStrDigits} digits) for integer string conversion: value has {cs.length} digits; {hint}"
  .ok (releaseNumber cs)

def componentNumbers : List (List Char) → Except PyErr (List Nat)
  | [] => .ok []
  | part :: parts => do
    let n ← componentNumber part
    let ns ← componentNumbers parts
    .ok (n :: ns)

/-- `_version_key`. -/
def versionKey (cs : List Char) : Except PyErr (List Nat) := componentNumbers (splitOn '.' cs)

/-- `_compare_versions`. -/
def compareVersions (left right : List Nat) : Int :=
  let width := max left.length right.length
  let left := left ++ List.replicate (width - left.length) 0
  let right := right ++ List.replicate (width - right.length) 0
  (if right < left then 1 else 0) - (if left < right then 1 else 0)

/-- The operators, as `_CLAUSE_RE` tries them. -/
def compareOps : List (List Char × (Int → Bool)) :=
  [(['=', '='], fun c => c == 0), (['>', '='], fun c => 0 ≤ c), (['<', '='], fun c => c ≤ 0), (['>'], fun c => 0 < c),
    (['<'], fun c => c < 0)]

/-- `_CLAUSE_RE.fullmatch`: the operator and the release. -/
def parseClause (raw : List Char) : Option ((Int → Bool) × List Char) :=
  compareOps.findSome? fun op =>
    let body := strip raw
    let release := (body.drop op.1.length).dropWhile isSpace
    if op.1.isPrefixOf body && isRelease release then some (op.2, release) else none

def clausesSatisfied (installedKey : List Nat) : List (List Char) → Except PyErr Bool
  | [] => .ok true
  | raw :: clauses =>
    if strip raw = [] then .error (.valueError "empty constraint clause (a stray comma is not allowed)")
    else
      match parseClause raw with
      | none => .error (.valueError s!"unsupported or malformed constraint {reprStr (String.ofList (strip raw))}")
      | some (op, release) => do
        let key ← versionKey release
        if op (compareVersions installedKey key) then clausesSatisfied installedKey clauses else .ok false

/-- `core_version_satisfies`. -/
def coreVersionSatisfies (installed requiresCore : String) : Except PyErr Bool := do
  raiseIf (isRelease (strip installed.toList) = false) s!"non-normalized installed version {reprStr installed}"
  let installedKey ← versionKey (strip installed.toList)
  let clauses := splitOn ',' requiresCore.toList
  raiseIf (clauses.all fun clause => strip clause = []) "empty version specifier"
  clausesSatisfied installedKey clauses

/-! ## Errors and inputs -/

def catWheelMissing : String := "feature_artifact_wheel_missing"

def catShaMismatch : String := "feature_artifact_sha_mismatch"

def catDistributionMismatch : String := "feature_artifact_distribution_mismatch"

def catInstallationMismatch : String := "feature_artifact_installation_mismatch"

def catProviderMismatch : String := "feature_artifact_provider_mismatch"

def catCoreIncompatible : String := "feature_artifact_core_incompatible"

def catMetadataInvalid : String := "feature_artifact_metadata_invalid"

/-- `ArtifactVerificationError`, or another exception, which an import may raise. -/
inductive VerifyError where
  | artifact (category message : String) (evidence : List (String × String))
  | other (e : PyErr)

/-- `RuntimeArtifactEvidence`. -/
structure RuntimeArtifactEvidence where
  formatVersion : Int := 1
  name : String
  version : String
  provider : String
  filename : String
  sha256 : String
  wheelPath : String

/-- An open wheel: its members in order. -/
structure WheelArchive where
  members : List (String × Bytes)

/-- `zf.read(name)`: of two members with one name, the last. -/
def WheelArchive.read (w : WheelArchive) (name : String) : Option Bytes := Dict.get? w.members.reverse name

/-- An `importlib.metadata` distribution. -/
structure Distribution where
  metadataName : String
  version : String
  files : Option (List String)
  locateFile : String → String

/-- An imported module: which attributes it has and whether they are callable, and `__file__`. -/
structure ImportedModule where
  attrs : List (String × Bool)
  file : Option String

/-- What the verifier reads of the process it runs in. -/
structure Host where
  lower : List Char → List Char
  readFile : String → Option Bytes
  resolve : String → String
  openWheel : Bytes → Option WheelArchive
  decode : Bytes → String
  distribution : String → Option Distribution
  importModule : String → Except PyErr ImportedModule

abbrev Verify (α : Type) := Except VerifyError α

def failUnless (c : Prop) [Decidable c] (category message : String) (evidence : List (String × String)) : Verify Unit :=
  if c then .ok () else .error (.artifact category message evidence)

@[simp] theorem failUnless_eq_ok {c : Prop} [Decidable c] {category message : String} {evidence : List (String × String)}
    {u : Unit} : failUnless c category message evidence = .ok u ↔ c := by
  by_cases h : c <;> simp [failUnless, h]

/-! ## The wheel -/

/-- The `Name` and the `Version` line of METADATA; reading stops once both are there. -/
def metadataNameVersion : Option String × Option String → List (List Char) → Option String × Option String
  | found, [] => found
  | (name, version), line :: lines =>
    let found :=
      if "Name: ".toList.isPrefixOf line then (some (String.ofList (strip (line.drop 6))), version)
      else if "Version: ".toList.isPrefixOf line then (name, some (String.ofList (strip (line.drop 9))))
      else (name, version)
    if found.1.getD "" ≠ "" ∧ found.2.getD "" ≠ "" then found else metadataNameVersion found lines

/-- The lines of RECORD that have a hash. -/
def readRecord (record : List (String × String)) : List (List Char) → List (String × String)
  | [] => record
  | line :: lines =>
    match splitOn ',' line with
    | path :: hash :: _ =>
      if hash = [] then readRecord record lines
      else readRecord (Dict.set record (String.ofList path) (String.ofList hash)) lines
    | _ => readRecord record lines

def memberLines (host : Host) (archive : WheelArchive) (name : String) : List (List Char) :=
  splitlines false [] (host.decode ((archive.read name).getD [])).toList

def namesEnding (suffix : String) (archive : WheelArchive) : List String :=
  (Dict.keys archive.members).filter fun name => suffix.toList.isSuffixOf name.toList

/-- `_read_wheel_metadata_and_record`. -/
def readWheelMetadataAndRecord (host : Host) (wheel : Bytes) : Verify (String × String × List (String × String)) :=
  match host.openWheel wheel with
  | none => .error (.artifact catMetadataInvalid "wheel is not a valid zip" [])
  | some archive =>
    match namesEnding ".dist-info/METADATA" archive, namesEnding ".dist-info/RECORD" archive with
    | metaName :: _, recordName :: _ => do
      let (name, version) := metadataNameVersion (none, none) (memberLines host archive metaName)
      failUnless (name.getD "" ≠ "" ∧ version.getD "" ≠ "") catMetadataInvalid "wheel METADATA missing Name/Version" []
      .ok (name.getD "", version.getD "", readRecord [] (memberLines host archive recordName))
    | _, _ => .error (.artifact catMetadataInvalid "wheel lacks METADATA/RECORD" [])

/-! ## The installation -/

/-- The loop passes over RECORD itself. -/
def isRecordFile (rel : String) : Bool := ".dist-info/RECORD".toList.isSuffixOf rel.toList

def located (host : Host) (dist : Distribution) (rel : String) : String := host.resolve (dist.locateFile rel)

/-- The loop over `dist.files`: how many files were checked and whether the provider is among them. -/
def checkInstalled (host : Host) (sha256 : Bytes → Bytes) (dist : Distribution) (record : List (String × String))
    (providerResolved : Option String) : List String → Nat → Bool → Verify (Nat × Bool)
  | [], checked, providerInDist => .ok (checked, providerInDist)
  | rel :: rels, checked, providerInDist =>
    match Dict.get? record rel with
    | none => checkInstalled host sha256 dist record providerResolved rels checked providerInDist
    | some hash =>
      if isRecordFile rel then
        checkInstalled host sha256 dist record providerResolved rels checked providerInDist
      else
        match host.readFile (located host dist rel) with
        | none => .error (.artifact catInstallationMismatch s!"installed file missing: {rel}" [])
        | some data => do
          failUnless (recordHash sha256 data = hash) catInstallationMismatch
            s!"installed file differs from the wheel: {rel}" []
          checkInstalled host sha256 dist record providerResolved rels (checked + 1)
            (providerInDist || providerResolved = some (located host dist rel))

/-- An empty `__file__` is no file. -/
def ImportedModule.providerFile (m : ImportedModule) : Option String := m.file.filter fun f => f ≠ ""

/-- `_verify_installed_matches_wheel`. -/
def verifyInstalledMatchesWheel (host : Host) (sha256 : Bytes → Bytes) (dist : Distribution)
    (record : List (String × String)) (providerFile : Option String) : Verify Unit := do
  let providerResolved := providerFile.map host.resolve
  let (checked, providerInDist) ← checkInstalled host sha256 dist record providerResolved (dist.files.getD []) 0 false
  failUnless (checked ≠ 0) catInstallationMismatch "no installed files corresponded to the wheel RECORD" []
  failUnless (providerResolved = none ∨ providerInDist = true) catProviderMismatch
    ("provider module does not belong to the verified distribution — a local module is likely shadowing the installed " ++
      "package (e.g. the process was started inside the Feature Project source directory); run it from a directory " ++
      "where the verified installed package is the one imported") []

/-! ## The whole chain -/

/-- A promoted bundle's `feature_artifact`. -/
abbrev FeatureArtifact := List (String × String)

def FeatureArtifact.field (fa : FeatureArtifact) (name : String) : String := (Dict.get? fa name).getD ""

def requireFields (fa : FeatureArtifact) : List String → Verify Unit
  | [] => .ok ()
  | field :: fields => do
    failUnless (fa.field field ≠ "") catMetadataInvalid s!"promoted feature_artifact missing {reprStr field}" []
    requireFields fa fields

/-- The evidence that errors carry: expected values only. -/
def FeatureArtifact.safe (host : Host) (fa : FeatureArtifact) : List (String × String) :=
  [("expected_name", canonicalizeName host.lower (fa.field "name")), ("expected_version", fa.field "version"),
    ("expected_sha256", fa.field "sha256"), ("expected_provider", fa.field "provider")]

def FeatureArtifact.ensure (host : Host) (fa : FeatureArtifact) (c : Prop) [Decidable c] (category message : String) :
    Verify Unit :=
  failUnless c category message (fa.safe host ++ [("category", category)])

/-- Steps 1 and 2: the runtime manifest and the storage key against the bundle. -/
def checkManifest (host : Host) (fa : FeatureArtifact) (evidence : RuntimeArtifactEvidence) : Verify Unit := do
  let expName := canonicalizeName host.lower (fa.field "name")
  fa.ensure host (canonicalizeName host.lower evidence.name = expName ∧ evidence.version = fa.field "version")
    catDistributionMismatch "runtime manifest name/version != promoted bundle"
  fa.ensure host (evidence.filename = fa.field "filename") catDistributionMismatch
    "runtime manifest filename != promoted bundle"
  fa.ensure host (evidence.sha256 = fa.field "sha256") catShaMismatch "runtime manifest sha256 != promoted bundle"
  fa.ensure host (evidence.provider = fa.field "provider") catProviderMismatch
    "runtime manifest provider != promoted bundle"
  let expectedKey := artifactStorageKey expName (fa.field "version") (fa.field "sha256") (fa.field "filename")
  fa.ensure host (Dict.get? fa "storage_key" = some expectedKey) catMetadataInvalid
    "feature_artifact.storage_key is not deterministic"

/-- Step 3: the wheel file. -/
def checkWheelFile (host : Host) (sha256 : Bytes → Bytes) (fa : FeatureArtifact) (wheelPath : String) : Verify Bytes :=
  match host.readFile wheelPath with
  | none => .error (.artifact catWheelMissing "runtime wheel file is missing"
      (fa.safe host ++ [("category", catWheelMissing)]))
  | some wheel => do
    fa.ensure host (sha256Bytes sha256 wheel = fa.field "sha256") catShaMismatch
      "actual wheel bytes do not match the promoted SHA-256"
    fa.ensure host (pathName wheelPath = fa.field "filename") catMetadataInvalid "wheel filename != promoted filename"
    .ok wheel

/-- Step 4: the wheel's own name and version; the RECORD is kept. -/
def checkWheelMetadata (host : Host) (fa : FeatureArtifact) (wheel : Bytes) : Verify (List (String × String)) := do
  let (metaName, metaVersion, record) ← readWheelMetadataAndRecord host wheel
  fa.ensure host (canonicalizeName host.lower metaName = canonicalizeName host.lower (fa.field "name"))
    catDistributionMismatch "wheel METADATA Name != promoted name"
  fa.ensure host (metaVersion = fa.field "version") catDistributionMismatch "wheel METADATA Version != promoted version"
  .ok record

/-- Step 5: the installed distribution. -/
def checkDistribution (host : Host) (fa : FeatureArtifact) : Verify Distribution :=
  let expName := canonicalizeName host.lower (fa.field "name")
  match host.distribution expName with
  | none => .error (.artifact catInstallationMismatch "feature distribution is not installed"
      (fa.safe host ++ [("category", catInstallationMismatch)]))
  | some dist => do
    fa.ensure host (canonicalizeName host.lower dist.metadataName = expName ∧ dist.version = fa.field "version")
      catDistributionMismatch "installed distribution name/version mismatch"
    .ok dist

/-- `provider.partition(":")`, without the separator: the module and the attribute. -/
def providerModule (fa : FeatureArtifact) : String :=
  String.ofList ((fa.field "provider").toList.takeWhile (· ≠ ':'))

def providerAttr (fa : FeatureArtifact) : String :=
  String.ofList (((fa.field "provider").toList.dropWhile (· ≠ ':')).drop 1)

/-- The exceptions of an import that step 6 handles. -/
def PyErr.isImportError : PyErr → Bool
  | .attributeError _ => true
  | .other cls _ => cls == "ImportError" || cls == "ModuleNotFoundError"
  | _ => false

/-- Step 6: the provider. -/
def checkProvider (host : Host) (fa : FeatureArtifact) : Verify ImportedModule := do
  fa.ensure host (providerAttr fa ≠ "") catMetadataInvalid "provider must be 'module:callable'"
  match host.importModule (providerModule fa) with
  | .error e =>
    if e.isImportError then
      .error (.artifact catProviderMismatch "provider is not importable"
        (fa.safe host ++ [("category", catProviderMismatch)]))
    else .error (.other e)
  | .ok module =>
    match Dict.get? module.attrs (providerAttr fa) with
    | none =>
      .error (.artifact catProviderMismatch "provider is not importable"
        (fa.safe host ++ [("category", catProviderMismatch)]))
    | some callable => do
      fa.ensure host (callable = true) catProviderMismatch "provider target is not callable"
      .ok module

/-- The evidence is put on errors of step 7. -/
def withEvidence (host : Host) (fa : FeatureArtifact) {α : Type} : Verify α → Verify α
  | .error (.artifact category message _) =>
    .error (.artifact category message (fa.safe host ++ [("category", category)]))
  | v => v

/-- Step 8: the core version. -/
def checkCore (host : Host) (fa : FeatureArtifact) (installedCoreVersion : String) : Verify Unit :=
  let requiresCore := fa.field "requires_core"
  if requiresCore = "" then .ok ()
  else
    match coreVersionSatisfies installedCoreVersion requiresCore with
    | .error e => .error (.artifact catMetadataInvalid s!"invalid requires_core: {e.msg}"
        (fa.safe host ++ [("category", catMetadataInvalid)]))
    | .ok satisfied =>
      fa.ensure host (satisfied = true) catCoreIncompatible
        s!"installed core {installedCoreVersion} does not satisfy {requiresCore}"

def verifyFeatureArtifact (host : Host) (sha256 : Bytes → Bytes) (fa : FeatureArtifact)
    (evidence : RuntimeArtifactEvidence) (installedCoreVersion : String) : Verify (List (String × Value)) := do
  requireFields fa ["name", "version", "provider", "sha256", "filename"]
  checkManifest host fa evidence
  let wheel ← checkWheelFile host sha256 fa evidence.wheelPath
  let record ← checkWheelMetadata host fa wheel
  let dist ← checkDistribution host fa
  let module ← checkProvider host fa
  withEvidence host fa (verifyInstalledMatchesWheel host sha256 dist record module.providerFile)
  checkCore host fa installedCoreVersion
  .ok ((fa.safe host).map (fun e => (e.1, .str e.2)) ++ [("verified", .bool true)])

end ClearFeature
