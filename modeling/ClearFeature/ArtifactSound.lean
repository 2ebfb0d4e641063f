import ClearFeature.ArtifactVerifier
import Mathlib.Data.Set.Function
import Mathlib.Data.List.GetD

/-!
# What a verified artifact guarantees

The loop checks the files that the installed distribution lists. A file of the
promoted RECORD that it does not list is not missed, and a provider without a
file is not asked where it comes from.
-/

namespace ClearFeature

/-! ## Digests are read back in one way -/

theorem getD_inj {l : List Char} (hl : l.Nodup) {n m : Nat} (hn : n < l.length) (hm : m < l.length) {d : Char}
    (h : l.getD n d = l.getD m d) : n = m := by
  rw [List.getD_eq_getElem _ _ hn, List.getD_eq_getElem _ _ hm] at h
  exact (hl.getElem_inj_iff).mp h

theorem hexDigit_inj {n m : Nat} (hn : n < 16) (hm : m < 16) (h : hexDigit n = hexDigit m) : n = m :=
  getD_inj (by decide +kernel : "0123456789abcdef".toList.Nodup) hn hm h

theorem base64Char_inj {n m : Nat} (hn : n < 64) (hm : m < 64) (h : base64Char n = base64Char m) : n = m :=
  getD_inj (by decide +kernel : base64Alphabet.Nodup) hn hm h

theorem hexDigits_inj : ∀ {a b : Bytes}, hexDigits a = hexDigits b → a = b
  | [], [], _ => rfl
  | [], _ :: _, h => by simp [hexDigits] at h
  | _ :: _, [], h => by simp [hexDigits] at h
  | x :: a, y :: b, h => by
    simp only [hexDigits, List.cons.injEq] at h
    obtain ⟨h₁, h₂, h⟩ := h
    have hx := x.toNat_lt
    have hy := y.toNat_lt
    have e₁ := hexDigit_inj (by omega) (by omega) h₁
    have e₂ := hexDigit_inj (by omega) (by omega) h₂
    have e : x = y := UInt8.toNat_inj.mp (by omega)
    rw [e, hexDigits_inj h]

theorem urlsafeBase64_inj : ∀ {a b : Bytes}, urlsafeBase64 a = urlsafeBase64 b → a = b
  | [], [], _ => rfl
  | [], [_], h => by simp [urlsafeBase64] at h
  | [], [_, _], h => by simp [urlsafeBase64] at h
  | [], _ :: _ :: _ :: _, h => by simp [urlsafeBase64] at h
  | [_], [], h => by simp [urlsafeBase64] at h
  | [_], [_, _], h => by simp [urlsafeBase64] at h
  | [_], _ :: _ :: _ :: _, h => by simp [urlsafeBase64] at h
  | [_, _], [], h => by simp [urlsafeBase64] at h
  | [_, _], [_], h => by simp [urlsafeBase64] at h
  | [_, _], _ :: _ :: _ :: _, h => by simp [urlsafeBase64] at h
  | _ :: _ :: _ :: _, [], h => by simp [urlsafeBase64] at h
  | _ :: _ :: _ :: _, [_], h => by simp [urlsafeBase64] at h
  | _ :: _ :: _ :: _, [_, _], h => by simp [urlsafeBase64] at h
  | [x], [y], h => by
    simp only [urlsafeBase64, List.cons.injEq, and_true] at h
    have hx := x.toNat_lt
    have hy := y.toNat_lt
    have e₁ := base64Char_inj (by omega) (by omega) h.1
    have e₂ := base64Char_inj (by omega) (by omega) h.2
    have e : x = y := UInt8.toNat_inj.mp (by omega)
    rw [e]
  | [x, x'], [y, y'], h => by
    simp only [urlsafeBase64, List.cons.injEq, and_true] at h
    obtain ⟨h₁, h₂, h₃⟩ := h
    have hx := x.toNat_lt
    have hy := y.toNat_lt
    have hx' := x'.toNat_lt
    have hy' := y'.toNat_lt
    have e₁ := base64Char_inj (by omega) (by omega) h₁
    have e₂ := base64Char_inj (by omega) (by omega) h₂
    have e₃ := base64Char_inj (by omega) (by omega) h₃
    have e : x = y := UInt8.toNat_inj.mp (by omega)
    have e' : x' = y' := UInt8.toNat_inj.mp (by omega)
    rw [e, e']
  | x :: x' :: x'' :: a, y :: y' :: y'' :: b, h => by
    simp only [urlsafeBase64, List.cons.injEq] at h
    obtain ⟨h₁, h₂, h₃, h₄, h⟩ := h
    have hx := x.toNat_lt
    have hy := y.toNat_lt
    have hx' := x'.toNat_lt
    have hy' := y'.toNat_lt
    have hx'' := x''.toNat_lt
    have hy'' := y''.toNat_lt
    have e₁ := base64Char_inj (by omega) (by omega) h₁
    have e₂ := base64Char_inj (by omega) (by omega) h₂
    have e₃ := base64Char_inj (by omega) (by omega) h₃
    have e₄ := base64Char_inj (by omega) (by omega) h₄
    have e : x = y := UInt8.toNat_inj.mp (by omega)
    have e' : x' = y' := UInt8.toNat_inj.mp (by omega)
    have e'' : x'' = y'' := UInt8.toNat_inj.mp (by omega)
    rw [e, e', e'', urlsafeBase64_inj h]

section
variable {sha256 : Bytes → Bytes}

theorem sha256Bytes_inj {a b : Bytes} (h : sha256Bytes sha256 a = sha256Bytes sha256 b) : sha256 a = sha256 b :=
  hexDigits_inj (String.ofList_injective ((String.append_right_inj _).mp h))

theorem recordHash_inj {a b : Bytes} (h : recordHash sha256 a = recordHash sha256 b) : sha256 a = sha256 b :=
  urlsafeBase64_inj (String.ofList_injective ((String.append_right_inj _).mp h))

/-! ## The loop -/

variable {host : Host} {dist : Distribution} {record : List (String × String)} {providerResolved : Option String}

theorem checkInstalled_ok : ∀ {rels : List String} {checked checked' : Nat} {inDist inDist' : Bool},
    checkInstalled host sha256 dist record providerResolved rels checked inDist = .ok (checked', inDist') →
      (∀ rel ∈ rels, ∀ hash, Dict.get? record rel = some hash → isRecordFile rel = false →
        ∃ data, host.readFile (located host dist rel) = some data ∧ recordHash sha256 data = hash) ∧
      (inDist' = true → inDist = true ∨
        ∃ rel ∈ rels, ∃ hash, Dict.get? record rel = some hash ∧ providerResolved = some (located host dist rel))
  | [], checked, checked', inDist, inDist', h => by
    cases h
    exact ⟨fun _ hm => (nomatch hm), fun h => .inl h⟩
  | rel :: rels, checked, checked', inDist, inDist', h => by
    rw [checkInstalled] at h
    cases hget : Dict.get? record rel with
    | none =>
      rw [hget] at h
      obtain ⟨hfiles, hprovider⟩ := checkInstalled_ok h
      refine ⟨List.forall_mem_cons.mpr ⟨fun hash hh => ?_, hfiles⟩, fun hin => ?_⟩
      · rw [hget] at hh
        cases hh
      · exact (hprovider hin).imp_right fun ⟨r, hm, hr⟩ => ⟨r, List.mem_cons_of_mem _ hm, hr⟩
    | some hash =>
      rw [hget] at h
      dsimp only at h
      by_cases hrec : isRecordFile rel = true
      · rw [if_pos hrec] at h
        obtain ⟨hfiles, hprovider⟩ := checkInstalled_ok h
        refine ⟨List.forall_mem_cons.mpr ⟨fun hash _ hf => ?_, hfiles⟩, fun hin => ?_⟩
        · rw [hrec] at hf
          cases hf
        · exact (hprovider hin).imp_right fun ⟨r, hm, hr⟩ => ⟨r, List.mem_cons_of_mem _ hm, hr⟩
      · rw [if_neg hrec] at h
        cases hread : host.readFile (located host dist rel) with
        | none =>
          rw [hread] at h
          cases h
        | some data =>
          rw [hread] at h
          simp only [bind_eq_ok, failUnless_eq_ok] at h
          obtain ⟨_, hhash, h⟩ := h
          obtain ⟨hfiles, hprovider⟩ := checkInstalled_ok h
          refine ⟨List.forall_mem_cons.mpr ⟨fun hash' hh _ => ?_, hfiles⟩, fun hin => ?_⟩
          · rw [hget] at hh
            cases hh
            exact ⟨data, hread, hhash⟩
          · rcases hprovider hin with hin | ⟨r, hm, hr⟩
            · rw [Bool.or_eq_true, decide_eq_true_eq] at hin
              rcases hin with hin | hin
              · exact .inl hin
              · exact .inr ⟨rel, List.mem_cons_self, hash, hget, hin⟩
            · exact .inr ⟨r, List.mem_cons_of_mem _ hm, hr⟩

theorem verifyInstalledMatchesWheel_ok {providerFile : Option String}
    (h : verifyInstalledMatchesWheel host sha256 dist record providerFile = .ok ()) :
    (∀ rel ∈ dist.files.getD [], ∀ hash, Dict.get? record rel = some hash → isRecordFile rel = false →
      ∃ data, host.readFile (located host dist rel) = some data ∧ recordHash sha256 data = hash) ∧
    ∀ file ∈ providerFile, ∃ rel ∈ dist.files.getD [], ∃ hash, Dict.get? record rel = some hash ∧
      host.resolve file = located host dist rel := by
  simp only [verifyInstalledMatchesWheel, bind_eq_ok, failUnless_eq_ok, Prod.exists] at h
  obtain ⟨checked, inDist, hloop, _, -, hprovider⟩ := h
  obtain ⟨hfiles, hin⟩ := checkInstalled_ok hloop
  refine ⟨hfiles, fun file hfile => ?_⟩
  rw [Option.mem_def] at hfile
  subst hfile
  rcases hprovider with hnone | htrue
  · cases hnone
  · rcases hin htrue with hfalse | ⟨rel, hm, hash, hget, heq⟩
    · cases hfalse
    · exact ⟨rel, hm, hash, hget, Option.some.inj heq⟩

end

/-! ## What success says -/

section
variable {sha256 : Bytes → Bytes} {host : Host} {fa : FeatureArtifact}

theorem checkWheelFile_ok {path : String} {wheel : Bytes} (h : checkWheelFile host sha256 fa path = .ok wheel) :
    host.readFile path = some wheel ∧ sha256Bytes sha256 wheel = fa.field "sha256" := by
  rw [checkWheelFile] at h
  cases hread : host.readFile path with
  | none =>
    rw [hread] at h
    cases h
  | some data =>
    rw [hread] at h
    simp only [FeatureArtifact.ensure, bind_eq_ok, failUnless_eq_ok] at h
    obtain ⟨_, hsha, _, -, h⟩ := h
    cases h
    exact ⟨rfl, hsha⟩

theorem checkWheelMetadata_ok {wheel : Bytes} {record : List (String × String)}
    (h : checkWheelMetadata host fa wheel = .ok record) :
    ∃ name version, readWheelMetadataAndRecord host wheel = .ok (name, version, record) := by
  simp only [checkWheelMetadata, FeatureArtifact.ensure, bind_eq_ok, failUnless_eq_ok] at h
  obtain ⟨⟨name, version, record'⟩, hread, _, -, _, -, h⟩ := h
  cases h
  exact ⟨name, version, hread⟩

theorem readWheel_open {wheel : Bytes} {found : String × String × List (String × String)}
    (h : readWheelMetadataAndRecord host wheel = .ok found) : ∃ archive, host.openWheel wheel = some archive := by
  rw [readWheelMetadataAndRecord] at h
  cases hopen : host.openWheel wheel with
  | none =>
    rw [hopen] at h
    cases h
  | some archive => exact ⟨archive, rfl⟩

theorem checkDistribution_ok {dist : Distribution} (h : checkDistribution host fa = .ok dist) :
    host.distribution (canonicalizeName host.lower (fa.field "name")) = some dist := by
  unfold checkDistribution at h
  dsimp only at h
  cases hdist : host.distribution (canonicalizeName host.lower (fa.field "name")) with
  | none =>
    rw [hdist] at h
    cases h
  | some dist' =>
    rw [hdist] at h
    simp only [FeatureArtifact.ensure, bind_eq_ok, failUnless_eq_ok] at h
    obtain ⟨_, -, h⟩ := h
    cases h
    rfl

theorem checkProvider_ok {module : ImportedModule} (h : checkProvider host fa = .ok module) :
    host.importModule (providerModule fa) = .ok module := by
  simp only [checkProvider, FeatureArtifact.ensure, bind_eq_ok, failUnless_eq_ok] at h
  obtain ⟨_, -, h⟩ := h
  cases himport : host.importModule (providerModule fa) with
  | error e =>
    rw [himport] at h
    dsimp only at h
    by_cases he : e.isImportError = true
    · rw [if_pos he] at h
      cases h
    · rw [if_neg he] at h
      cases h
  | ok imported =>
    rw [himport] at h
    dsimp only at h
    cases hattr : Dict.get? imported.attrs (providerAttr fa) with
    | none =>
      rw [hattr] at h
      cases h
    | some callable =>
      rw [hattr] at h
      simp only [bind_eq_ok, failUnless_eq_ok] at h
      obtain ⟨_, -, h⟩ := h
      cases h
      rfl

theorem withEvidence_ok {α : Type} {v : Verify α} {a : α} (h : withEvidence host fa v = .ok a) : v = .ok a := by
  cases v with
  | ok b => exact h
  | error e =>
    cases e with
    | artifact category message evidence => cases h
    | other e => cases h

variable {evidence : RuntimeArtifactEvidence} {core : String} {descriptor : List (String × Value)}

/-- What a successful verification has looked at. -/
theorem verifyFeatureArtifact_ok (h : verifyFeatureArtifact host sha256 fa evidence core = .ok descriptor) :
    ∃ wheel name version record dist module, host.readFile evidence.wheelPath = some wheel ∧
      sha256Bytes sha256 wheel = fa.field "sha256" ∧
      readWheelMetadataAndRecord host wheel = .ok (name, version, record) ∧
      host.distribution (canonicalizeName host.lower (fa.field "name")) = some dist ∧
      host.importModule (providerModule fa) = .ok module ∧
      verifyInstalledMatchesWheel host sha256 dist record module.providerFile = .ok () := by
  simp only [verifyFeatureArtifact, bind_eq_ok] at h
  obtain ⟨_, -, _, -, wheel, hwheel, record, hrecord, dist, hdist, module, hmodule, _, hinstalled, -⟩ := h
  obtain ⟨hread, hsha⟩ := checkWheelFile_ok hwheel
  obtain ⟨name, version, hmeta⟩ := checkWheelMetadata_ok hrecord
  exact ⟨wheel, name, version, record, dist, module, hread, hsha, hmeta, checkDistribution_ok hdist,
    checkProvider_ok hmodule, withEvidence_ok hinstalled⟩

end

/-! ## Soundness -/

/-- The bytes whose digests matter: the promoted wheel, its members and the files of the host. -/
def HashedBytes (host : Host) (promoted : Bytes) : Set Bytes :=
  { data | data = promoted ∨ (∃ path, host.readFile path = some data) ∨
    ∃ archive name, host.openWheel promoted = some archive ∧ archive.read name = some data }

/-- `data` is what the distribution has installed as `rel`. -/
def InstalledAs (host : Host) (dist : Distribution) (rel : String) (data : Bytes) : Prop :=
  rel ∈ dist.files.getD [] ∧ host.readFile (located host dist rel) = some data

/-- Every hashed file of RECORD is installed, with the bytes that the wheel has under this hash. -/
def RecordInstalled (host : Host) (sha256 : Bytes → Bytes) (dist : Distribution) (archive : WheelArchive)
    (record : List (String × String)) : Prop :=
  ∀ rel hash, Dict.get? record rel = some hash → ∃ data, InstalledAs host dist rel data ∧
    recordHash sha256 data = hash ∧
    ∀ original, archive.read rel = some original → recordHash sha256 original = hash → data = original

/-- The provider was loaded from a hashed file of RECORD. -/
def ProviderFromRecord (host : Host) (dist : Distribution) (record : List (String × String)) (module : ImportedModule) :
    Prop :=
  ∃ file rel hash, module.providerFile = some file ∧ Dict.get? record rel = some hash ∧
    rel ∈ dist.files.getD [] ∧ host.resolve file = located host dist rel

/-- The distribution lists every hashed file; one that is named like RECORD itself is as it should be. -/
def RecordListed (host : Host) (sha256 : Bytes → Bytes) (dist : Distribution) (record : List (String × String)) : Prop :=
  ∀ rel hash, Dict.get? record rel = some hash → rel ∈ dist.files.getD [] ∧
    (isRecordFile rel = true → ∃ data, host.readFile (located host dist rel) = some data ∧ recordHash sha256 data = hash)

/-! ## A distribution that lacks a file -/

def featuresBytes : Bytes := asciiBytes "build_udfs = dict\n"

def ratesBytes : Bytes := asciiBytes "RATE = 2\n"

def metadataBytes : Bytes := asciiBytes "Name: cf\nVersion: 1.0\n"

/-- Written in short pieces, which are quick to evaluate. -/
def recordBytes : Bytes :=
  ["cf/features.py,", "sha256=PIpAnPWCHIhuCQBhNdK6", "O_GoXaDilYbeYpsl-KVohpA,18\n", "cf/rates.py,",
    "sha256=ldOTuz2VqscqDrtPN06", "jjGyZUfhPUw76HgIMdsG6eu4,9\n", "cf-1.0.dist-info/METADATA,",
    "sha256=D1nbqT0VMtXKbVyzdFTI", "AZbeCuUArt4pEoEY2s9D_uk,22\n", "cf-1.0.dist-info/RECORD,,\n"].flatMap asciiBytes

def asciiChars (data : Bytes) : List Char := data.map fun b => Char.ofNat b.toNat

def wheelBytes : Bytes := asciiBytes "cf-1.0 wheel"

def artifactSha : Bytes → Bytes := fun data => (Dict.get? [
  (featuresBytes, [60, 138, 64, 156, 245, 130, 28, 136, 110, 9, 0, 97, 53, 210, 186, 59, 241, 168, 93, 160, 226, 149,
    134, 222, 98, 155, 37, 248, 165, 104, 134, 144]),
  (ratesBytes, [149, 211, 147, 187, 61, 149, 170, 199, 42, 14, 187, 79, 55, 78, 163, 140, 108, 153, 81, 248, 79, 83, 14,
    250, 30, 2, 12, 118, 193, 186, 122, 238]),
  (metadataBytes, [15, 89, 219, 169, 61, 21, 50, 213, 202, 109, 92, 179, 116, 84, 200, 1, 150, 222, 10, 229, 0, 174, 222,
    41, 18, 129, 24, 218, 207, 67, 254, 233]),
  (wheelBytes, [53, 77, 75, 156, 131, 132, 214, 173, 29, 47, 121, 207, 65, 216, 163, 121, 185, 26, 254, 250, 15, 237,
    242, 10, 172, 101, 91, 95, 208, 82, 171, 94]),
  (recordBytes, [54, 105, 131, 132, 90, 66, 212, 27, 2, 232, 113, 190, 151, 96, 156, 122, 32, 190, 93, 170, 179, 166, 7,
    238, 9, 192, 86, 233, 24, 227, 172, 253])] data).getD []

def cfArchive : WheelArchive where
  members := [("cf/features.py", featuresBytes), ("cf/rates.py", ratesBytes), ("cf-1.0.dist-info/METADATA", metadataBytes),
    ("cf-1.0.dist-info/RECORD", recordBytes)]

/-- The distribution, with `cf/rates.py` or without it. -/
def cfDistribution (rates : Bool) : Distribution where
  metadataName := "cf"
  version := "1.0"
  files := some (["cf/features.py", "cf-1.0.dist-info/METADATA"] ++ if rates then ["cf/rates.py"] else [])
  locateFile := fun rel => "/site/" ++ rel

def cfFiles (rates : Bool) : List (String × Bytes) :=
  [("/w/cf-1.0-py3-none-any.whl", wheelBytes), ("/site/cf/features.py", featuresBytes),
    ("/site/cf-1.0.dist-info/METADATA", metadataBytes)] ++ if rates then [("/site/cf/rates.py", ratesBytes)] else []

def cfHost (rates : Bool) : Host where
  lower := fun cs => cs.map Char.toLower
  readFile := fun path => Dict.get? (cfFiles rates) path
  resolve := fun path => path
  openWheel := fun data => if data = wheelBytes then some cfArchive else none
  decode := fun data => String.ofList (asciiChars data)
  distribution := fun name => if name = "cf" then some (cfDistribution rates) else none
  importModule := fun name =>
    if name = "cf.features" then .ok ⟨[("build_udfs", true)], some "/site/cf/features.py"⟩
    else .error (.other "ModuleNotFoundError" name)

def cfSha : String := "sha256:354d4b9c8384d6ad1d2f79cf41d8a379b91afefa0fedf20aac655b5fd052ab5e"

def cfArtifact : FeatureArtifact :=
  [("name", "cf"), ("version", "1.0"), ("provider", "cf.features:build_udfs"), ("sha256", cfSha),
    ("filename", "cf-1.0-py3-none-any.whl"),
    ("storage_key", "cf/1.0/354d4b9c8384d6ad1d2f79cf41d8a379b91afefa0fedf20aac655b5fd052ab5e/cf-1.0-py3-none-any.whl")]

def cfEvidence : RuntimeArtifactEvidence where
  name := "cf"
  version := "1.0"
  provider := "cf.features:build_udfs"
  filename := "cf-1.0-py3-none-any.whl"
  sha256 := cfSha
  wheelPath := "/w/cf-1.0-py3-none-any.whl"

def cfRecord : List (String × String) := readRecord [] (splitlines false [] (asciiChars recordBytes))

theorem cf_lines (name : String) : memberLines (cfHost false) cfArchive name =
    splitlines false [] (asciiChars ((cfArchive.read name).getD [])) := by
  change splitlines false [] (String.ofList (asciiChars ((cfArchive.read name).getD []))).toList = _
  rw [String.toList_ofList]

/-- The bytes that the host and the wheel hold. -/
def cfBytes : List Bytes := [featuresBytes, ratesBytes, metadataBytes, wheelBytes, recordBytes]

/-- What the verifier computes from the texts of the wheel and the artifact. -/
theorem cf_computed :
    (namesEnding ".dist-info/METADATA" cfArchive = ["cf-1.0.dist-info/METADATA"] ∧
      namesEnding ".dist-info/RECORD" cfArchive = ["cf-1.0.dist-info/RECORD"] ∧
      metadataNameVersion (none, none) (splitlines false []
        (asciiChars ((cfArchive.read "cf-1.0.dist-info/METADATA").getD []))) = (some "cf", some "1.0")) ∧
    (canonicalizeName (cfHost false).lower "cf" = "cf" ∧
      canonicalizeName (cfHost false).lower (cfArtifact.field "name") = "cf" ∧
      cfArtifact.field "version" = "1.0") ∧
    (providerModule cfArtifact = "cf.features" ∧ providerAttr cfArtifact = "build_udfs") ∧
    sha256Bytes artifactSha wheelBytes = cfArtifact.field "sha256" ∧
    (requireFields cfArtifact ["name", "version", "provider", "sha256", "filename"]).toOption = some () ∧
    (checkManifest (cfHost false) cfArtifact cfEvidence).toOption = some () ∧
    (checkWheelFile (cfHost false) artifactSha cfArtifact cfEvidence.wheelPath).toOption = some wheelBytes ∧
    (verifyInstalledMatchesWheel (cfHost false) artifactSha (cfDistribution false) cfRecord
      (some "/site/cf/features.py")).toOption = some () ∧
    (checkCore (cfHost false) cfArtifact "0.1.0").toOption = some () ∧ (cfBytes.map artifactSha).Nodup ∧
    (Dict.get? cfRecord "cf/rates.py").isSome := by
  decide +kernel

theorem cf_wheel : readWheelMetadataAndRecord (cfHost false) wheelBytes = .ok ("cf", "1.0", cfRecord) := by
  have hopen : (cfHost false).openWheel wheelBytes = some cfArchive := by simp [cfHost]
  obtain ⟨⟨hmeta, hrecord, hversion⟩, -⟩ := cf_computed
  have hread : (cfArchive.read "cf-1.0.dist-info/RECORD").getD [] = recordBytes := by
    simp [WheelArchive.read, cfArchive, Dict.get?]
  rw [readWheelMetadataAndRecord, hopen]
  dsimp only
  rw [hmeta, hrecord]
  dsimp only
  rw [cf_lines, hversion, cf_lines, hread]
  simp [failUnless, cfRecord]

theorem cf_provider : checkProvider (cfHost false) cfArtifact =
    .ok ⟨[("build_udfs", true)], some "/site/cf/features.py"⟩ := by
  obtain ⟨-, -, ⟨hmodule, hattr⟩, -⟩ := cf_computed
  rw [checkProvider, hmodule, hattr]
  simp [cfHost, FeatureArtifact.ensure, failUnless, Dict.get?]

theorem cf_distribution : checkDistribution (cfHost false) cfArtifact = .ok (cfDistribution false) := by
  obtain ⟨-, ⟨hcf, hname, hversion⟩, -⟩ := cf_computed
  have hfound : (cfHost false).distribution "cf" = some (cfDistribution false) := by simp [cfHost]
  have hmetadata : (cfDistribution false).metadataName = "cf" := rfl
  unfold checkDistribution
  dsimp only
  rw [hname, hfound]
  simp [FeatureArtifact.ensure, failUnless, hmetadata, hcf, hversion, show (cfDistribution false).version = "1.0" from rfl]

theorem cf_metadata : checkWheelMetadata (cfHost false) cfArtifact wheelBytes = .ok cfRecord := by
  obtain ⟨-, ⟨hcf, hname, hversion⟩, -⟩ := cf_computed
  rw [checkWheelMetadata, cf_wheel, hname, hversion]
  simp [FeatureArtifact.ensure, failUnless, hcf]

theorem cf_verified : ∃ descriptor,
    verifyFeatureArtifact (cfHost false) artifactSha cfArtifact cfEvidence "0.1.0" = .ok descriptor := by
  obtain ⟨-, -, -, -, hfields, hmanifest, hwheel, hinstalled, hcore, -⟩ := cf_computed
  have hwith : withEvidence (cfHost false) cfArtifact (verifyInstalledMatchesWheel (cfHost false) artifactSha
      (cfDistribution false) cfRecord (some "/site/cf/features.py")) = .ok () := by
    rw [ok_of_toOption hinstalled]
    rfl
  unfold verifyFeatureArtifact
  exact ⟨_, bind_eq_ok.mpr ⟨(), ok_of_toOption hfields, bind_eq_ok.mpr ⟨(), ok_of_toOption hmanifest,
    bind_eq_ok.mpr ⟨_, ok_of_toOption hwheel, bind_eq_ok.mpr ⟨_, cf_metadata, bind_eq_ok.mpr ⟨_, cf_distribution,
      bind_eq_ok.mpr ⟨_, cf_provider, bind_eq_ok.mpr ⟨(), hwith,
        bind_eq_ok.mpr ⟨(), ok_of_toOption hcore, rfl⟩⟩⟩⟩⟩⟩⟩⟩⟩

theorem cf_hashed {data : Bytes} (h : data ∈ HashedBytes (cfHost false) wheelBytes) : data ∈ cfBytes := by
  have hfiles : ∀ e ∈ cfFiles false, e.2 ∈ cfBytes := by simp [cfFiles, cfBytes]
  have hmembers : ∀ e ∈ cfArchive.members, e.2 ∈ cfBytes := by simp [cfArchive, cfBytes]
  rcases h with rfl | ⟨path, h⟩ | ⟨archive, name, hopen, h⟩
  · simp [cfBytes]
  · exact hfiles _ (Dict.mem_of_get? h)
  · have harchive : archive = cfArchive := by simpa [cfHost] using hopen.symm
    subst harchive
    exact hmembers _ (List.mem_reverse.mp (Dict.mem_of_get? h))

theorem cf_collisionFree : Set.InjOn artifactSha (HashedBytes (cfHost false) wheelBytes) := by
  obtain ⟨-, -, -, -, -, -, -, -, -, hdigests, -⟩ := cf_computed
  exact fun a ha b hb => List.inj_on_of_nodup_map hdigests (cf_hashed ha) (cf_hashed hb)

/-- A verified artifact is sound exactly when the distribution lists the files of RECORD and the provider has a file. -/
theorem verified_artifact_sound_iff {host : Host} {sha256 : Bytes → Bytes} {fa : FeatureArtifact}
    {evidence : RuntimeArtifactEvidence} {core : String} {descriptor : List (String × Value)} {promoted : Bytes}
    (hsha : Set.InjOn sha256 (HashedBytes host promoted)) (hpromoted : sha256Bytes sha256 promoted = fa.field "sha256")
    (h : verifyFeatureArtifact host sha256 fa evidence core = .ok descriptor) :
    ∃ archive name version record dist module, host.openWheel promoted = some archive ∧
      readWheelMetadataAndRecord host promoted = .ok (name, version, record) ∧
      host.distribution (canonicalizeName host.lower (fa.field "name")) = some dist ∧
      host.importModule (providerModule fa) = .ok module ∧
      (RecordInstalled host sha256 dist archive record ∧ ProviderFromRecord host dist record module ↔
        RecordListed host sha256 dist record ∧ module.providerFile ≠ none) := by
  obtain ⟨wheel, name, version, record, dist, module, hread, hwheel, hmeta, hdist, hmodule, hinstalled⟩ :=
    verifyFeatureArtifact_ok h
  -- the wheel of the host is the promoted one
  have hsame : wheel = promoted := by
    have hdigest : sha256 wheel = sha256 promoted := sha256Bytes_inj (hwheel.trans hpromoted.symm)
    exact hsha (.inr (.inl ⟨_, hread⟩)) (.inl rfl) hdigest
  subst hsame
  obtain ⟨archive, hopen⟩ := readWheel_open hmeta
  refine ⟨archive, name, version, record, dist, module, hopen, hmeta, hdist, hmodule, ?_⟩
  obtain ⟨hfiles, hprovider⟩ := verifyInstalledMatchesWheel_ok hinstalled
  constructor
  · rintro ⟨hall, file, rel, hash, hfile, -⟩
    refine ⟨fun rel hash hget => ?_, fun hnone => ?_⟩
    · obtain ⟨data, ⟨hm, hdata⟩, hhash, -⟩ := hall rel hash hget
      exact ⟨hm, fun _ => ⟨data, hdata, hhash⟩⟩
    · rw [hnone] at hfile
      cases hfile
  · rintro ⟨hlisted, hsome⟩
    constructor
    · intro rel hash hget
      obtain ⟨hm, hrecord⟩ := hlisted rel hash hget
      have hdata : ∃ data, host.readFile (located host dist rel) = some data ∧ recordHash sha256 data = hash := by
        by_cases hr : isRecordFile rel = true
        · exact hrecord hr
        · exact hfiles rel hm hash hget (Bool.eq_false_iff.mpr hr)
      obtain ⟨data, hdata, hhash⟩ := hdata
      refine ⟨data, ⟨hm, hdata⟩, hhash, fun original horiginal heq => ?_⟩
      have hdigest : sha256 data = sha256 original := recordHash_inj (hhash.trans heq.symm)
      exact hsha (.inr (.inl ⟨_, hdata⟩)) (.inr (.inr ⟨archive, rel, hopen, horiginal⟩)) hdigest
    · obtain ⟨file, hfile⟩ := Option.ne_none_iff_exists'.mp hsome
      obtain ⟨rel, hm, hash, hget, heq⟩ := hprovider file hfile
      exact ⟨file, rel, hash, hfile, hget, hm, heq⟩

theorem verified_artifact_sound_iff_cf :
    ∃ archive name version record dist module, (cfHost false).openWheel wheelBytes = some archive ∧
      readWheelMetadataAndRecord (cfHost false) wheelBytes = .ok (name, version, record) ∧
      (cfHost false).distribution (canonicalizeName (cfHost false).lower (cfArtifact.field "name")) = some dist ∧
      (cfHost false).importModule (providerModule cfArtifact) = .ok module ∧
      (RecordInstalled (cfHost false) artifactSha dist archive record ∧
          ProviderFromRecord (cfHost false) dist record module ↔
        RecordListed (cfHost false) artifactSha dist record ∧ module.providerFile ≠ none) :=
  verified_artifact_sound_iff cf_collisionFree cf_computed.2.2.2.1 cf_verified.choose_spec

theorem missing_file_verified :
    Set.InjOn artifactSha (HashedBytes (cfHost false) wheelBytes) ∧
      sha256Bytes artifactSha wheelBytes = cfArtifact.field "sha256" ∧
      (∃ descriptor, verifyFeatureArtifact (cfHost false) artifactSha cfArtifact cfEvidence "0.1.0" = .ok descriptor) ∧
      ∃ archive name version record dist, (cfHost false).openWheel wheelBytes = some archive ∧
        readWheelMetadataAndRecord (cfHost false) wheelBytes = .ok (name, version, record) ∧
        (cfHost false).distribution (canonicalizeName (cfHost false).lower (cfArtifact.field "name")) = some dist ∧
        ¬ RecordInstalled (cfHost false) artifactSha dist archive record := by
  have hopen : (cfHost false).openWheel wheelBytes = some cfArchive := by simp [cfHost]
  obtain ⟨-, ⟨-, hname, -⟩, -, hsha, -, -, -, -, -, -, hrates⟩ := cf_computed
  refine ⟨cf_collisionFree, hsha, cf_verified, cfArchive, "cf", "1.0", cfRecord, cfDistribution false, hopen,
    cf_wheel, by rw [hname]; simp [cfHost], fun h => ?_⟩
  obtain ⟨hash, hget⟩ := Option.isSome_iff_exists.mp hrates
  obtain ⟨data, ⟨hm, -⟩, -⟩ := h "cf/rates.py" hash hget
  exact absurd hm (by decide)

end ClearFeature
