import ClearFeature.Lib.Shared
import ClearFeature.ArtifactVerifier
import Mathlib.Data.List.GetD

/-!
# The wheel store (`cli/artifact.py`)

A wheel is written under its digest, then the release record of its name and
version is created unless it is there. Publishers interleave store call by
store call, and any of them may stop.
-/

namespace ClearFeature

open Prog Shared

/-! ## Objects -/

/-- A JSON object of texts, such as a release record. -/
abbrev JsonRecord := List (String × String)

/-- A stored object: the bytes of a file, or a JSON text, known by what it parses to. -/
inductive StoredObject where
  | file (data : Bytes)
  | json (record : JsonRecord)
  deriving DecidableEq

abbrev Objects := String → Option StoredObject

/-- What the publisher computes with: SHA-256 of an object's bytes, and what `json.loads` makes of a file. -/
structure PublishEnv where
  sha256 : StoredObject → Bytes
  loadsFile : Bytes → Except PyErr JsonRecord

namespace PublishEnv
variable (env : PublishEnv)

/-- `sha256_file`, `sha256_bytes`. -/
def shaOf (o : StoredObject) : String := "sha256:" ++ String.ofList (hexDigits (env.sha256 o))

def loads : StoredObject → Except PyErr JsonRecord
  | .file data => env.loadsFile data
  | .json record => .ok record

end PublishEnv

/-- The store operations of both backends, each one atomic step. -/
inductive StoreCall where
  | read (key : String)
  | write (key : String) (data : StoredObject)
  | writeIfAbsent (key : String) (data : StoredObject)

abbrev StoreCall.Ans : StoreCall → Type
  | .read _ => Option StoredObject
  | .write _ _ => Unit
  | .writeIfAbsent _ _ => Bool

def objectStore : Service StoreCall StoreCall.Ans Objects where
  act objects
    | .read _ => objects
    | .write key data => Function.update objects key (some data)
    | .writeIfAbsent key data => if (objects key).isSome then objects else Function.update objects key (some data)
  answer objects
    | .read key => objects key
    | .write _ _ => ()
    | .writeIfAbsent key _ => (objects key).isNone

abbrev WheelProg := Prog StoreCall StoreCall.Ans

abbrev readKey (key : String) : WheelProg (Option StoredObject) := ask (StoreCall.read key)

abbrev writeKey (key : String) (data : StoredObject) : WheelProg Unit := ask (StoreCall.write key data)

/-- Creates the object; whether this call created it. -/
abbrev writeIfAbsent (key : String) (data : StoredObject) : WheelProg Bool := ask (StoreCall.writeIfAbsent key data)

section
variable {P : Protocol objectStore} {α : Type} {post : Objects → α → Prop} {objects : Objects} {key : String}
  {data : StoredObject}

theorem safe_readKey {f : Option StoredObject → WheelProg α} : Safe P post objects (readKey key >>= f) ↔
    ∀ s, P.le objects s → P.inv s → Safe P post s (f (s key)) :=
  ⟨fun h s hle hinv => (h s hle hinv).2.2, fun h s hle hinv => ⟨P.refl s, hinv, h s hle hinv⟩⟩

theorem safe_writeKey {f : Unit → WheelProg α} : Safe P post objects (writeKey key data >>= f) ↔
    ∀ s, P.le objects s → P.inv s → P.le s (Function.update s key (some data)) ∧
      P.inv (Function.update s key (some data)) ∧ Safe P post (Function.update s key (some data)) (f ()) := Iff.rfl

theorem safe_writeIfAbsent {f : Bool → WheelProg α}
    (habsent : ∀ s, P.le objects s → P.inv s → s key = none → P.le s (Function.update s key (some data)) ∧
      P.inv (Function.update s key (some data)) ∧ Safe P post (Function.update s key (some data)) (f true))
    (hpresent : ∀ s o, P.le objects s → P.inv s → s key = some o → Safe P post s (f false)) :
    Safe P post objects (writeIfAbsent key data >>= f) := by
  rw [safe_ask_bind]
  intro s hle hinv
  rcases Option.eq_none_or_eq_some (s key) with hkey | ⟨o, hkey⟩
  · have hact : objectStore.act s (.writeIfAbsent key data) = Function.update s key (some data) := by
      simp [objectStore, hkey]
    have hanswer : objectStore.answer s (.writeIfAbsent key data) = true := by simp [objectStore, hkey]
    rw [hact, hanswer]
    exact habsent s hle hinv hkey
  · have hact : objectStore.act s (.writeIfAbsent key data) = s := by simp [objectStore, hkey]
    have hanswer : objectStore.answer s (.writeIfAbsent key data) = false := by simp [objectStore, hkey]
    rw [hact, hanswer]
    exact ⟨P.refl s, hinv, hpresent s o hle hinv hkey⟩

end

/-! ## Publishing -/

/-- A wheel file. Its name is a last path component, and publishing has parsed it before, so it ends in `.whl`. -/
structure WheelFile where
  filename : String
  data : Bytes
  component : '/' ∉ filename.toList
  whl : ".whl".toList <:+ filename.toList

def WheelFile.object (w : WheelFile) : StoredObject := .file w.data

/-- `_release_key`. -/
def releaseKey (name version : String) : String := s!"{name}/{version}/release.json"

def storeError (msg : String) : PyErr := .other "ArtifactStoreError" msg

/-- `self._read(key).decode("utf-8")` without a look at what was read. -/
def decodeNone : PyErr := .attributeError "'NoneType' object has no attribute 'decode'"

section
variable (env : PublishEnv)

def releaseRecord (w : WheelFile) (name version sha256 : String) : JsonRecord :=
  [("name", name), ("version", version), ("sha256", sha256), ("filename", w.filename),
    ("storage_key", artifactStorageKey name version sha256 w.filename)]

/-- `WheelStore.put`. -/
def putWheel (w : WheelFile) (name version sha256 : String) : WheelProg (Except PyErr JsonRecord) := do
  let release := releaseRecord w name version sha256
  writeKey (artifactStorageKey name version sha256 w.filename) w.object
  let created ← writeIfAbsent (releaseKey name version) (.json release)
  if created then pure (.ok release)
  else do
    let read ← readKey (releaseKey name version)
    pure (match read with
      | none => .error decodeNone
      | some data => do
        let existing ← env.loads data
        if Dict.get? existing "sha256" ≠ some sha256 then
          .error (storeError s!"immutable store: {name} {version} already released with a different SHA")
        else .ok existing)

/-- `WheelStore.read_back_verify`. -/
def readBackVerify (name version sha256 : String) : WheelProg (Except PyErr JsonRecord) := do
  let release ← readKey (releaseKey name version)
  match release with
  | none => pure (.error (storeError s!"release record missing for {name} {version}"))
  | some data =>
    match env.loads data with
    | .error e => pure (.error e)
    | .ok record =>
      if Dict.get? record "sha256" ≠ some sha256 then
        pure (.error (storeError s!"release record SHA mismatch for {name} {version}"))
      else
        let filename := (Dict.get? record "filename").getD ""
        let storageKey := artifactStorageKey name version sha256 filename
        if Dict.get? record "storage_key" ≠ some storageKey then
          pure (.error (storeError s!"release record storage_key mismatch for {name} {version}"))
        else do
          let stored ← readKey storageKey
          pure (match stored with
            | none => .error (storeError s!"stored wheel missing at {storageKey}")
            | some data =>
              if env.shaOf data ≠ sha256 then .error (storeError s!"stored wheel SHA mismatch at {storageKey}")
              else .ok record)

end

/-! ## Keys -/

/-- The part behind the last slash. -/
theorem lastComponent_inj {a a' f f' : List Char} (hf : '/' ∉ f) (hf' : '/' ∉ f')
    (h : a ++ '/' :: f = a' ++ '/' :: f') : a = a' ∧ f = f' := by
  rcases List.append_eq_append_iff.mp h with ⟨c, rfl, hc⟩ | ⟨c, rfl, hc⟩
  · cases c with
    | nil => simpa using hc
    | cons d c =>
      rw [List.cons_append, List.cons.injEq] at hc
      exact absurd (hc.2 ▸ List.mem_append_right c List.mem_cons_self) hf
  · cases c with
    | nil =>
      rw [List.nil_append, List.cons.injEq] at hc
      simpa using hc.2.symm
    | cons d c =>
      rw [List.cons_append, List.cons.injEq] at hc
      exact absurd (hc.2 ▸ List.mem_append_right c List.mem_cons_self) hf'

theorem hexDigit_ne_slash (n : Nat) : hexDigit n ≠ '/' := by
  have hmem : hexDigit n ∈ "0123456789abcdef".toList := by
    unfold hexDigit
    by_cases h : n < "0123456789abcdef".toList.length
    · rw [List.getD_eq_getElem _ _ h]
      exact List.getElem_mem h
    · rw [List.getD_eq_default _ _ (not_lt.mp h)]
      decide
  intro h
  rw [h] at hmem
  exact absurd hmem (by decide)

theorem hexDigits_no_slash : ∀ data : Bytes, '/' ∉ hexDigits data
  | [] => by simp [hexDigits]
  | b :: bs => by
    rw [hexDigits, List.mem_cons, List.mem_cons]
    rintro (h | h | h)
    · exact hexDigit_ne_slash _ h.symm
    · exact hexDigit_ne_slash _ h.symm
    · exact hexDigits_no_slash bs h

section
variable (env : PublishEnv)

theorem afterColon_shaOf (o : StoredObject) : afterColon (env.shaOf o) = String.ofList (hexDigits (env.sha256 o)) := by
  have h : (env.shaOf o).toList.dropWhile (· ≠ ':') = ':' :: hexDigits (env.sha256 o) := by
    have htext : (env.shaOf o).toList = "sha256:".toList ++ hexDigits (env.sha256 o) := by
      simp only [PublishEnv.shaOf, String.toList_append, String.toList_ofList]
    rw [htext]
    rfl
  rw [afterColon, h]

theorem storageKey_toList (name version filename : String) (o : StoredObject) :
    (artifactStorageKey name version (env.shaOf o) filename).toList =
      (name.toList ++ '/' :: version.toList ++ '/' :: hexDigits (env.sha256 o)) ++ '/' :: filename.toList := by
  rw [artifactStorageKey, afterColon_shaOf]
  simp [String.toList_append, ToString.toString]

theorem releaseKey_toList (name version : String) :
    (releaseKey name version).toList = (name.toList ++ '/' :: version.toList) ++ '/' :: "release.json".toList := by
  rw [releaseKey]
  simp [String.toList_append, ToString.toString]

end

/-! ## Calls of `put` -/

/-- The arguments of a `put`; the digest that is passed is that of the wheel. -/
structure PutCall where
  wheel : WheelFile
  name : String
  version : String

namespace PutCall
variable (env : PublishEnv)

def sha (c : PutCall) : String := env.shaOf c.wheel.object

def storageKey (c : PutCall) : String := artifactStorageKey c.name c.version (c.sha env) c.wheel.filename

def releaseKey (c : PutCall) : String := ClearFeature.releaseKey c.name c.version

def record (c : PutCall) : JsonRecord := releaseRecord c.wheel c.name c.version (c.sha env)

def program (c : PutCall) : WheelProg (Except PyErr JsonRecord) := putWheel env c.wheel c.name c.version (c.sha env)

theorem record_sha (c : PutCall) : Dict.get? (c.record env) "sha256" = some (c.sha env) := by
  simp [record, releaseRecord, Dict.get?]

theorem record_filename (c : PutCall) : Dict.get? (c.record env) "filename" = some c.wheel.filename := by
  simp [record, releaseRecord, Dict.get?]

theorem record_storageKey (c : PutCall) : Dict.get? (c.record env) "storage_key" = some (c.storageKey env) := by
  simp [record, releaseRecord, Dict.get?, storageKey]

/-- A wheel is never written over a release record. -/
theorem storageKey_ne_releaseKey (c : PutCall) (name version : String) :
    c.storageKey env ≠ ClearFeature.releaseKey name version := by
  intro h
  have hlist := congrArg String.toList h
  rw [storageKey, sha, storageKey_toList, releaseKey_toList] at hlist
  obtain ⟨-, hname⟩ := lastComponent_inj c.wheel.component (by decide) hlist
  have hwhl := c.wheel.whl
  rw [hname] at hwhl
  exact absurd hwhl (by decide)

/-- Wheels under one key have one digest. -/
theorem sha_of_storageKey {c c' : PutCall} (h : c.storageKey env = c'.storageKey env) : c.sha env = c'.sha env := by
  have hlist := congrArg String.toList h
  rw [storageKey, storageKey, sha, sha, storageKey_toList, storageKey_toList] at hlist
  obtain ⟨hfront, -⟩ := lastComponent_inj c.wheel.component c'.wheel.component hlist
  obtain ⟨-, hhex⟩ := lastComponent_inj (hexDigits_no_slash _) (hexDigits_no_slash _) hfront
  rw [sha, sha, PublishEnv.shaOf, PublishEnv.shaOf, hhex]

/-- The storage key of a record is the one that its release key stands for. -/
theorem storageKey_of_releaseKey {c c' : PutCall} (h : c'.releaseKey = c.releaseKey) (hsha : c'.sha env = c.sha env) :
    c'.storageKey env = artifactStorageKey c.name c.version (c.sha env) c'.wheel.filename := by
  have hlist := congrArg String.toList h
  rw [releaseKey, releaseKey, releaseKey_toList, releaseKey_toList] at hlist
  obtain ⟨hfront, -⟩ := lastComponent_inj (by decide) (by decide) hlist
  apply String.toList_injective
  rw [storageKey, hsha, sha, storageKey_toList, storageKey_toList, hfront]

end PutCall

end ClearFeature
