import ClearFeature.WheelStore

/-!
# Released wheel versions are immutable

What every step of the publishers keeps: a wheel key holds a wheel of the
digest in the key, a release key holds the record of one of the calls, and the
wheel of that record is there. Release records stay as they are.
-/

namespace ClearFeature

open Prog Shared

section
variable {ι : Type} (env : PublishEnv) (calls : ι → PutCall)

structure StoreInv (objects : Objects) : Prop where
  wheels : ∀ j o, objects ((calls j).storageKey env) = some o →
    ∃ data, o = .file data ∧ env.shaOf o = (calls j).sha env
  records : ∀ name version o, objects (releaseKey name version) = some o →
    ∃ j, (calls j).releaseKey = releaseKey name version ∧ o = .json ((calls j).record env) ∧
      (objects ((calls j).storageKey env)).isSome

structure StoreLe (objects later : Objects) : Prop where
  released : ∀ name version o, objects (releaseKey name version) = some o → later (releaseKey name version) = some o
  stored : ∀ j, (objects ((calls j).storageKey env)).isSome → (later ((calls j).storageKey env)).isSome

def storeProtocol : Protocol objectStore where
  inv := StoreInv env calls
  le := StoreLe env calls
  refl _ := ⟨fun _ _ _ h => h, fun _ h => h⟩
  trans h h' :=
    ⟨fun name version o ho => h'.released name version o (h.released name version o ho),
      fun j hj => h'.stored j (h.stored j hj)⟩

/-- The record belongs to a call of the same release and digest, and it is the one that is stored. -/
structure Released (i : ι) (objects : Objects) (record : JsonRecord) : Prop where
  sha : Dict.get? record "sha256" = some ((calls i).sha env)
  stored : objects (calls i).releaseKey = some (.json record)

def putPost (i : ι) (objects : Objects) : Except PyErr JsonRecord → Prop
  | .error _ => True
  | .ok record => Released env calls i objects record

variable {env calls}

theorem putPost_stable (i : ι) (objects later : Objects) :
    ∀ r, StoreLe env calls objects later → putPost env calls i objects r → putPost env calls i later r
  | .error _, _, _ => trivial
  | .ok _, hle, h => ⟨h.sha, hle.released _ _ _ h.stored⟩

/-! ## One call of the store -/

theorem storeInv_empty : StoreInv env calls fun _ => none :=
  ⟨fun _ _ h => (nomatch h), fun _ _ _ h => (nomatch h)⟩

/-- Writing a wheel, also over the wheel that is there. -/
theorem write_wheel {objects : Objects} (hinv : StoreInv env calls objects) (i : ι) :
    StoreLe env calls objects (Function.update objects ((calls i).storageKey env) (some (calls i).wheel.object)) ∧
      StoreInv env calls (Function.update objects ((calls i).storageKey env) (some (calls i).wheel.object)) := by
  have hrelease : ∀ name version, releaseKey name version ≠ (calls i).storageKey env := fun name version =>
    ((calls i).storageKey_ne_releaseKey env name version).symm
  have hstored : ∀ j, (objects ((calls j).storageKey env)).isSome →
      (Function.update objects ((calls i).storageKey env) (some (calls i).wheel.object)
        ((calls j).storageKey env)).isSome := by
    intro j hj
    by_cases h : (calls j).storageKey env = (calls i).storageKey env
    · rw [h, Function.update_self]
      rfl
    · rw [Function.update_of_ne h]
      exact hj
  refine ⟨⟨?_, hstored⟩, ⟨?_, ?_⟩⟩
  · intro name version o ho
    exact (Function.update_of_ne (hrelease name version) _ _).trans ho
  · intro j o ho
    by_cases h : (calls j).storageKey env = (calls i).storageKey env
    · rw [h, Function.update_self, Option.some.injEq] at ho
      subst ho
      exact ⟨_, rfl, PutCall.sha_of_storageKey env h.symm⟩
    · rw [Function.update_of_ne h] at ho
      exact hinv.wheels j o ho
  · intro name version o ho
    rw [Function.update_of_ne (hrelease name version)] at ho
    obtain ⟨j, hkey, hrecord, hwheel⟩ := hinv.records name version o ho
    exact ⟨j, hkey, hrecord, hstored j hwheel⟩

/-- Creating a release record once the wheel is there. -/
theorem create_record {objects : Objects} (hinv : StoreInv env calls objects) {i : ι}
    (hnone : objects (calls i).releaseKey = none) (hwheel : (objects ((calls i).storageKey env)).isSome) :
    StoreLe env calls objects (Function.update objects (calls i).releaseKey (some (.json ((calls i).record env)))) ∧
      StoreInv env calls
        (Function.update objects (calls i).releaseKey (some (.json ((calls i).record env)))) := by
  have hkept : ∀ j, Function.update objects (calls i).releaseKey (some (.json ((calls i).record env)))
      ((calls j).storageKey env) = objects ((calls j).storageKey env) := fun j =>
    Function.update_of_ne ((calls j).storageKey_ne_releaseKey env _ _) _ _
  refine ⟨⟨?_, ?_⟩, ⟨?_, ?_⟩⟩
  · intro name version o ho
    have hne : releaseKey name version ≠ (calls i).releaseKey := by
      intro h
      rw [h, hnone] at ho
      cases ho
    rw [Function.update_of_ne hne]
    exact ho
  · intro j hj
    rw [hkept]
    exact hj
  · intro j o ho
    rw [hkept] at ho
    exact hinv.wheels j o ho
  · intro name version o ho
    by_cases h : releaseKey name version = (calls i).releaseKey
    · rw [h, Function.update_self, Option.some.injEq] at ho
      refine ⟨i, h.symm, ho.symm, ?_⟩
      rw [hkept]
      exact hwheel
    · rw [Function.update_of_ne h] at ho
      obtain ⟨j, hkey, hrecord, hwheel'⟩ := hinv.records name version o ho
      refine ⟨j, hkey, hrecord, ?_⟩
      rw [hkept]
      exact hwheel'

/-! ## One `put` -/

/-- What `put` makes of the release record that it reads. -/
theorem existing_post {objects : Objects} {i j : ι}
    (ho : objects (calls i).releaseKey = some (.json ((calls j).record env))) :
    putPost env calls i objects (do
      let existing ← env.loads (.json ((calls j).record env))
      if Dict.get? existing "sha256" ≠ some ((calls i).sha env) then
        .error (storeError s!"immutable store: {(calls i).name} {(calls i).version} already released with a different SHA")
      else .ok existing) := by
  rw [PublishEnv.loads, ok_bind]
  by_cases h : Dict.get? ((calls j).record env) "sha256" = some ((calls i).sha env)
  · rw [if_neg (not_not_intro h)]
    exact ⟨h, ho⟩
  · rw [if_pos h]
    trivial

/-- A `put` keeps to the protocol, whatever the other publishers do between its calls. -/
theorem put_safe (i : ι) (objects : Objects) :
    Safe (storeProtocol env calls) (putPost env calls i) objects ((calls i).program env) := by
  rw [PutCall.program, putWheel, safe_writeKey]
  intro s _ hinv
  obtain ⟨hle, hinv'⟩ := write_wheel hinv i
  refine ⟨hle, hinv', ?_⟩
  have hthere : (Function.update s ((calls i).storageKey env) (some (calls i).wheel.object)
      ((calls i).storageKey env)).isSome := by
    rw [Function.update_self]
    rfl
  apply safe_writeIfAbsent
  · intro s₁ hle₁ hinv₁ habsent
    obtain ⟨hle', hinv'⟩ := create_record hinv₁ habsent (hle₁.stored i hthere)
    exact ⟨hle', hinv', (calls i).record_sha env, Function.update_self _ _ _⟩
  · intro s₁ o hle₁ hinv₁ hpresent
    obtain ⟨j, -, rfl, -⟩ := hinv₁.records _ _ o hpresent
    rw [if_neg Bool.false_ne_true, safe_readKey]
    intro s₂ hle₂ hinv₂
    have hkept := hle₂.released _ _ _ hpresent
    rw [safe_pure, hkept]
    exact existing_post hkept

/-! ## Reading back -/

theorem answered_readKey {α : Type} {objects : Objects} {states : List Objects} {key : String}
    {f : Option StoredObject → WheelProg α} :
    answered objectStore (objects :: states) (readKey key >>= f) = answered objectStore states (f (objects key)) := rfl

/-- The two reads of `read_back_verify` may be answered by two states of the store. -/
theorem readBackVerify_ok {c c' : PutCall} (hkey : c'.releaseKey = c.releaseKey) (hsha : c'.sha env = c.sha env)
    {objects later : Objects} {data : StoredObject} (hrecord : objects c.releaseKey = some (.json (c'.record env)))
    (hwheel : later (c'.storageKey env) = some data) (hdata : env.shaOf data = c'.sha env) :
    answered objectStore [objects, later] (readBackVerify env c.name c.version (c.sha env)) =
      some (.ok (c'.record env)) := by
  have hstorage := PutCall.storageKey_of_releaseKey env hkey hsha
  have hname : (Dict.get? (c'.record env) "filename").getD "" = c'.wheel.filename := by
    rw [c'.record_filename]
    rfl
  have hrelease : objects (releaseKey c.name c.version) = some (.json (c'.record env)) := hrecord
  rw [readBackVerify, answered_readKey, hrelease]
  dsimp only [PublishEnv.loads]
  rw [c'.record_sha, hsha, if_neg (not_not_intro rfl), c'.record_storageKey, hname, ← hstorage,
    if_neg (not_not_intro rfl), answered_readKey, hwheel]
  change some (if env.shaOf data ≠ c.sha env then _ else _) = _
  rw [hdata, hsha, if_neg (not_not_intro rfl)]

/-! ## Every interleaving -/

variable [DecidableEq ι] (env calls)

/-- The publishers after the calls of the store that the schedule lets them make; one that is not scheduled stops. -/
def published (schedule : List ι) :
    World ι StoreCall StoreCall.Ans (Except PyErr JsonRecord) Objects :=
  run objectStore ⟨fun _ => none, fun i => (calls i).program env⟩ schedule

theorem published_safe (schedule : List ι) : StoreInv env calls (published env calls schedule).state ∧
    ∀ i, Safe (storeProtocol env calls) (putPost env calls i) (published env calls schedule).state
      ((published env calls schedule).running i) :=
  (run_safe (P := storeProtocol env calls) (w := ⟨fun _ => none, fun i => (calls i).program env⟩) putPost_stable schedule
    storeInv_empty fun i => put_safe i _).2

theorem published_le (schedule more : List ι) :
    StoreLe env calls (published env calls schedule).state (published env calls (schedule ++ more)).state := by
  obtain ⟨hinv, hsafe⟩ := published_safe env calls schedule
  have happend : published env calls (schedule ++ more) = run objectStore (published env calls schedule) more :=
    run_append objectStore _ schedule more
  rw [happend]
  exact (run_safe (P := storeProtocol env calls) putPost_stable more hinv hsafe).1

theorem published_released (schedule : List ι) {i : ι} {record : JsonRecord}
    (h : result? ((published env calls schedule).running i) = some (.ok record)) :
    Released env calls i (published env calls schedule).state record := by
  have hsafe := (published_safe env calls schedule).2 i
  cases hp : (published env calls schedule).running i with
  | ret r =>
    rw [hp] at h hsafe
    cases h
    exact hsafe
  | call c k =>
    rw [hp] at h
    cases h

end

theorem released_wheel_immutable {ι : Type} [DecidableEq ι] (env : PublishEnv) (calls : ι → PutCall)
    (schedule more more' : List ι) :
    let store := (published env calls schedule).state
    let later := (published env calls (schedule ++ more)).state
    let last := (published env calls (schedule ++ more ++ more')).state
    (∀ name version o, store (releaseKey name version) = some o → later (releaseKey name version) = some o) ∧
    (∀ name version o, store (releaseKey name version) = some o → ∃ record sha key data, o = .json record ∧
      Dict.get? record "sha256" = some sha ∧ Dict.get? record "storage_key" = some key ∧
      store key = some (.file data) ∧ env.shaOf (.file data) = sha) ∧
    ∀ i record, result? ((published env calls schedule).running i) = some (.ok record) →
      Dict.get? record "sha256" = some ((calls i).sha env) ∧ store (calls i).releaseKey = some (.json record) ∧
      answered objectStore [later, last] (readBackVerify env (calls i).name (calls i).version ((calls i).sha env)) =
        some (.ok record) := by
  intro store later last
  have hle := published_le env calls schedule more
  have hle' := published_le env calls (schedule ++ more) more'
  refine ⟨hle.released, ?_, ?_⟩
  · intro name version o ho
    obtain ⟨j, -, rfl, hwheel⟩ := (published_safe env calls schedule).1.records name version o ho
    obtain ⟨o, hstored⟩ := Option.isSome_iff_exists.mp hwheel
    obtain ⟨data, rfl, hsha⟩ := (published_safe env calls schedule).1.wheels j o hstored
    exact ⟨_, _, _, data, rfl, (calls j).record_sha env, (calls j).record_storageKey env, hstored, hsha⟩
  · intro i record hresult
    have hreleased := published_released env calls schedule hresult
    refine ⟨hreleased.sha, hreleased.stored, ?_⟩
    have hlater := hle.released _ _ _ hreleased.stored
    obtain ⟨j, hkey, hrecord, hwheel⟩ := (published_safe env calls (schedule ++ more)).1.records _ _ _ hlater
    cases hrecord
    have hsha : (calls j).sha env = (calls i).sha env := by
      rw [← Option.some.injEq, ← (calls j).record_sha env]
      exact hreleased.sha
    obtain ⟨o, hlast⟩ := Option.isSome_iff_exists.mp (hle'.stored j hwheel)
    obtain ⟨data, rfl, hdata⟩ := (published_safe env calls (schedule ++ more ++ more')).1.wheels j o hlast
    exact readBackVerify_ok hkey hsha hlater hlast hdata

/-! ## Two publishers of one version -/

def cfWheelFile (data : Bytes) : WheelFile where
  filename := "cf-1.0-py3-none-any.whl"
  data := data
  component := by decide
  whl := by decide

/-- The last call publishes the wheel of the second once more. -/
def racingPuts (i : Fin 3) : PutCall where
  wheel := cfWheelFile (if i = 0 then [1] else [2])
  name := "cf"
  version := "1.0"

/-- SHA-256 of the bytes 1 and 2. -/
def wheelDigests : List (Bytes × Bytes) :=
  [([1], [0x4b, 0xf5, 0x12, 0x2f, 0x34, 0x45, 0x54, 0xc5, 0x3b, 0xde, 0x2e, 0xbb, 0x8c, 0xd2, 0xb7, 0xe3,
     0xd1, 0x60, 0x0a, 0xd6, 0x31, 0xc3, 0x85, 0xa5, 0xd7, 0xcc, 0xe2, 0x3c, 0x77, 0x85, 0x45, 0x9a]),
   ([2], [0xdb, 0xc1, 0xb4, 0xc9, 0x00, 0xff, 0xe4, 0x8d, 0x57, 0x5b, 0x5d, 0xa5, 0xc6, 0x38, 0x04, 0x01,
     0x25, 0xf6, 0x5d, 0xb0, 0xfe, 0x3e, 0x24, 0x49, 0x4b, 0x76, 0xea, 0x98, 0x64, 0x57, 0xd9, 0x86])]

def racingEnv : PublishEnv where
  sha256
    | .file data => (Dict.get? wheelDigests data).getD []
    | .json _ => []
  loadsFile _ := .error (.valueError "Expecting value")

/-- Both write their wheels before one of them creates the record. -/
def race : List (Fin 3) := [0, 1, 1, 0, 0]

theorem released_wheel_immutable_raced :
    let store := published racingEnv racingPuts race
    let later := published racingEnv racingPuts (race ++ [2, 2, 2])
    result? (store.running 0) =
        some (.error (storeError "immutable store: cf 1.0 already released with a different SHA")) ∧
      result? (later.running 2) = result? (store.running 1) ∧
      ∃ record, result? (store.running 1) = some (.ok record) ∧
        later.state (releaseKey "cf" "1.0") = some (.json record) ∧
        answered objectStore [later.state, later.state]
          (readBackVerify racingEnv "cf" "1.0" ((racingPuts 1).sha racingEnv)) = some (.ok record) := by
  intro store later
  have hsecond : result? (store.running 1) = some (.ok ((racingPuts 1).record racingEnv)) := by
    decide +kernel
  obtain ⟨hkept, -, hdone⟩ := released_wheel_immutable racingEnv racingPuts race [2, 2, 2] []
  obtain ⟨-, hstored, hverified⟩ := hdone 1 _ hsecond
  rw [List.append_nil] at hverified
  exact ⟨by decide +kernel, by decide +kernel, _, hsecond, hkept "cf" "1.0" _ hstored, hverified⟩

end ClearFeature
