import ClearFeature.EventsSurvive
import ClearFeature.Releases
import ClearFeature.WheelReleases

/-!
# What the files of a release say

Whatever runs beside whatever: a file of a bundle store is a bundle that a
publisher built, with its wheel in the wheel store, and a pointer names what a
promotion or a rollback was asked for.
-/

namespace ClearFeature

open Prog Shared StableSort Wire
open Raising (need Returned safe_bind safe_need safe_call)

section
variable {ι : Type} (env : ReleaseEnv) (commands : ι → ReleaseCommand)

/-! ## Who has written what -/

/-- The wheel store has, under the key that the artifact names, a file with the wheel's digest. -/
def ReleaseDisk.HasWheel (d : ReleaseDisk) (c : PublishWheelCommand) (storageKey : String) : Prop :=
  ∃ j : PutCall, j.storageKey env.publish = storageKey ∧ j.sha env.publish = c.release.sha env.publish ∧
    ((d.wheels c.wheelStore) storageKey).isSome

/-- A publisher that was given this store has built the bundle. -/
inductive Published (d : ReleaseDisk) (root : String) : RegistryBundle → Prop where
  | definitions {k : ι} (c : PublishCommand) (hk : commands k = .publish c) (hroot : c.bundleStore = root) :
      Published d root (bundleOf env.sha256 c.args (definitionDigest env.sha256 c.registry))
  | wheel {k : ι} (c : PublishWheelCommand) (hk : commands k = .publishWheel c) (hroot : c.bundleStore = root)
      (filename storageKey : String) (hstored : d.HasWheel env c storageKey) :
      Published d root (bundleOf env.sha256 (c.args env filename storageKey) (definitionDigest env.sha256 c.registry))

/-- A promotion to live has the approvers that its profile asks for. -/
def PromoteCall.Approved (call : PromoteCall) : Prop :=
  call.stage = stageLive → ∃ prof approvers, profileOf call.profile = .ok prof ∧
    uniqueApprovers call.approvedBy = .ok approvers ∧ prof.requiredApprovers ≤ approvers.length

/-- The digest that a pointer may hold: one that was promoted there, or that a rollback was asked to go to. -/
inductive Named (d : ReleaseDisk) (root environment stage : String) : String → Prop where
  | promote {k : ι} (c : PromoteCommand) (hk : commands k = .promote c) (hroot : c.pointerStore = root)
      (henv : c.call.env = environment) (hstage : c.call.stage = stage) (happroved : c.call.Approved)
      (hstored : (d.docs (bundlePlace c.bundleStore c.call.bundleDigest)).isSome) :
      Named d root environment stage c.call.bundleDigest
  | rollback {k : ι} (c : RollbackCommand) (hk : commands k = .rollback c) (hroot : c.pointerStore = root)
      (henv : c.call.env = environment) (hstage : c.call.stage = stage) {digest : String}
      (hdigest : c.call.bundleDigest = some digest)
      (hstored : ∀ checked ∈ c.checked, (d.docs (bundlePlace checked.1 checked.2)).isSome) :
      Named d root environment stage digest

/-- What may come into force: a digest, with the one that was in force before. -/
structure InForce (d : ReleaseDisk) (root environment stage digest : String) (previousDigest : Option String) : Prop where
  known : stage ∈ stages
  named : Named commands d root environment stage digest
  previous : ∀ previous ∈ previousDigest, Named commands d root environment stage previous

def PointerOk (d : ReleaseDisk) (root : String) (p : EnvironmentPointer) : Prop :=
  InForce commands d root p.env p.stage p.bundleDigest p.previousDigest

structure ReleaseInv (d : ReleaseDisk) : Prop where
  wheels : ∀ uri, StoreInv env.publish id (d.wheels uri)
  bundles : ∀ root name doc, d.docs (.bundle root name) = some doc → ∃ b, Published env commands d root b ∧
    name = digestFilename b.bundleDigest ∧ doc = env.text.dumps (b.toDict env.text)
  pointers : ∀ root name doc, d.docs (.pointer root name) = some doc → ∃ p, PointerOk commands d root p ∧
    Place.pointer root name = pointerPlace root p.env p.stage ∧ doc = env.text.dumps (p.toDict env.text)

/-- Nothing that is there goes away. -/
structure ReleaseLe (d later : ReleaseDisk) : Prop where
  wheels : ∀ uri, StoreLe env.publish id (d.wheels uri) (later.wheels uri)
  docs : ∀ place, (d.docs place).isSome → (later.docs place).isSome

def releaseProtocol : Protocol releaseDisk where
  inv := ReleaseInv env commands
  le := ReleaseLe env
  refl _ := ⟨fun _ => (storeProtocol env.publish id).refl _, fun _ h => h⟩
  trans h h' := ⟨fun uri => (storeProtocol env.publish id).trans (h.wheels uri) (h'.wheels uri),
    fun place hp => h'.docs place (h.docs place hp)⟩

variable {env commands} {d later : ReleaseDisk}

theorem ReleaseDisk.HasWheel.mono (hle : ReleaseLe env d later) {c : PublishWheelCommand} {storageKey : String}
    (h : d.HasWheel env c storageKey) : later.HasWheel env c storageKey := by
  obtain ⟨j, rfl, hsha, hstored⟩ := h
  exact ⟨j, rfl, hsha, (hle.wheels _).stored j hstored⟩

theorem Published.mono (hle : ReleaseLe env d later) {root : String} {b : RegistryBundle}
    (h : Published env commands d root b) : Published env commands later root b := by
  cases h with
  | definitions c hk hroot => exact .definitions c hk hroot
  | wheel c hk hroot filename storageKey hstored => exact .wheel c hk hroot filename storageKey (hstored.mono hle)

theorem Named.mono (hle : ReleaseLe env d later) {root environment stage digest : String}
    (h : Named commands d root environment stage digest) : Named commands later root environment stage digest := by
  cases h with
  | promote c hk hroot henv hstage happroved hstored =>
    exact .promote c hk hroot henv hstage happroved (hle.docs _ hstored)
  | rollback c hk hroot henv hstage hdigest hstored =>
    exact .rollback c hk hroot henv hstage hdigest fun checked hc => hle.docs _ (hstored checked hc)

theorem InForce.mono (hle : ReleaseLe env d later) {root environment stage digest : String}
    {previousDigest : Option String} (h : InForce commands d root environment stage digest previousDigest) :
    InForce commands later root environment stage digest previousDigest :=
  ⟨h.known, h.named.mono hle, fun previous hp => (h.previous previous hp).mono hle⟩

theorem Published.written {root : String} {b : RegistryBundle} (h : Published env commands d root b) : b.Written := by
  cases h with
  | definitions c hk hroot => exact ⟨List.nodup_nil, by simp [bundleOf, PublishCommand.args], fun _ => rfl⟩
  | wheel c hk hroot filename storageKey hstored =>
    refine ⟨List.nodup_nil, ?_, by simp [bundleOf, PublishWheelCommand.args]⟩
    intro m hm
    cases hm
    exact c.artifact_nodup env filename storageKey

theorem ReleaseInv.empty : ReleaseInv env commands {} :=
  ⟨fun _ => storeInv_empty, fun _ _ _ h => (nomatch h), fun _ _ _ h => (nomatch h)⟩

/-! ## One call -/

/-- Writing a file that may stand at its place. -/
theorem ReleaseInv.write (h : ReleaseInv env commands d) (place : Place) (doc : Bytes)
    (hbundle : ∀ root name, place = .bundle root name → ∃ b, Published env commands d root b ∧
      name = digestFilename b.bundleDigest ∧ doc = env.text.dumps (b.toDict env.text))
    (hpointer : ∀ root name, place = .pointer root name → ∃ p, PointerOk commands d root p ∧
      Place.pointer root name = pointerPlace root p.env p.stage ∧ doc = env.text.dumps (p.toDict env.text)) :
    ReleaseLe env d { d with docs := Function.update d.docs place (some doc) } ∧
      ReleaseInv env commands { d with docs := Function.update d.docs place (some doc) } := by
  have hle : ReleaseLe env d { d with docs := Function.update d.docs place (some doc) } := by
    refine ⟨fun uri => (storeProtocol env.publish id).refl _, ?_⟩
    intro place' hp
    by_cases heq : place' = place
    · simp [heq]
    · simpa [Function.update_of_ne heq] using hp
  refine ⟨hle, h.wheels, ?_, ?_⟩
  · intro root name doc' hdoc
    by_cases heq : Place.bundle root name = place
    · simp only [heq, Function.update_self, Option.some.injEq] at hdoc
      obtain ⟨b, hb, hname, hd⟩ := hbundle root name heq.symm
      exact ⟨b, hb.mono hle, hname, hdoc ▸ hd⟩
    · simp only [Function.update_of_ne heq] at hdoc
      obtain ⟨b, hb, hname, hd⟩ := h.bundles root name doc' hdoc
      exact ⟨b, hb.mono hle, hname, hd⟩
  · intro root name doc' hdoc
    by_cases heq : Place.pointer root name = place
    · simp only [heq, Function.update_self, Option.some.injEq] at hdoc
      obtain ⟨p, hp, hname, hd⟩ := hpointer root name heq.symm
      exact ⟨p, InForce.mono hle hp, hname, hdoc ▸ hd⟩
    · simp only [Function.update_of_ne heq] at hdoc
      obtain ⟨p, hp, hname, hd⟩ := h.pointers root name doc' hdoc
      exact ⟨p, InForce.mono hle hp, hname, hd⟩

/-- The wheel store is a part of the disk. -/
theorem wheelsPart (uri : String) : Part (storeProtocol env.publish id) (releaseProtocol env commands)
    (ReleaseCall.wheels uri) (fun _ a => a) (fun d => d.wheels uri) where
  le h := h.wheels uri
  inv h := h.wheels uri
  act d c := by simp [releaseDisk]
  answer d c := rfl
  keeps := by
    intro d c h hle hinv
    have hle' : ReleaseLe env d (releaseDisk.act d (.wheels uri c)) := by
      refine ⟨?_, fun _ hp => hp⟩
      intro uri'
      by_cases heq : uri' = uri
      · subst heq
        have hstep : StoreLe env.publish id (d.wheels uri') (objectStore.act (d.wheels uri') c) := hle
        simpa [releaseDisk] using hstep
      · have hsame : StoreLe env.publish id (d.wheels uri') (d.wheels uri') := (storeProtocol env.publish id).refl _
        simpa [releaseDisk, Function.update_of_ne heq] using hsame
    refine ⟨hle', ?_, ?_, ?_⟩
    · intro uri'
      by_cases heq : uri' = uri
      · subst heq
        have hstep : StoreInv env.publish id (objectStore.act (d.wheels uri') c) := hinv
        simpa [releaseDisk] using hstep
      · simpa [releaseDisk, Function.update_of_ne heq] using h.wheels uri'
    · intro root name doc hdoc
      obtain ⟨b, hb, hname, hd⟩ := h.bundles root name doc hdoc
      exact ⟨b, hb.mono hle', hname, hd⟩
    · intro root name doc hdoc
      obtain ⟨p, hp, hname, hd⟩ := h.pointers root name doc hdoc
      exact ⟨p, InForce.mono hle' hp, hname, hd⟩

/-! ## Reading -/

section
variable {α T : Type} {Q : ReleaseDisk → α → Prop}

theorem safe_pathExists {place : Place} {f : Bool → ReleaseProg α}
    (h : ∀ s, ReleaseLe env d s → ReleaseInv env commands s →
      Safe (releaseProtocol env commands) (Returned Q) s (f (s.docs place).isSome).run) :
    Safe (releaseProtocol env commands) (Returned Q) d (pathExists place >>= f).run :=
  safe_call fun s hle hinv => ⟨(releaseProtocol env commands).refl s, hinv, h s hle hinv⟩

theorem safe_readText {place : Place} {f : Option Bytes → ReleaseProg α}
    (h : ∀ s, ReleaseLe env d s → ReleaseInv env commands s →
      Safe (releaseProtocol env commands) (Returned Q) s (f (s.docs place)).run) :
    Safe (releaseProtocol env commands) (Returned Q) d (readText place >>= f).run :=
  safe_call fun s hle hinv => ⟨(releaseProtocol env commands).refl s, hinv, h s hle hinv⟩

theorem safe_readDoc {read : Value → Except PyErr T} {place : Place} {Q : ReleaseDisk → Option T → Prop}
    (hnone : ∀ s, ReleaseLe env d s → ReleaseInv env commands s → Q s none)
    (hsome : ∀ s doc a, ReleaseLe env d s → ReleaseInv env commands s → s.docs place = some doc →
      Wire.fromJson env.text read doc = .ok a → Q s (some a)) :
    Safe (releaseProtocol env commands) (Returned Q) d (readDoc env read place).run := by
  apply safe_pathExists
  intro s hle hinv
  by_cases hthere : (s.docs place).isSome = true
  · rw [if_pos hthere]
    apply safe_readText
    intro s' hle' hinv'
    cases hdoc : s'.docs place with
    | none => trivial
    | some doc =>
      apply safe_need
      intro a ha
      cases hread : Wire.fromJson env.text read doc with
      | error e =>
        rw [hread] at ha
        cases ha
      | ok b =>
        rw [hread] at ha
        cases ha
        exact hsome s' doc a ((releaseProtocol env commands).trans hle hle') hinv' hdoc hread
  · rw [if_neg hthere]
    exact hnone s hle hinv

theorem safe_get {root digest : String} {Q : ReleaseDisk → Option RegistryBundle → Prop}
    (hnone : ∀ s, ReleaseLe env d s → ReleaseInv env commands s → Q s none)
    (hsome : ∀ s b, ReleaseLe env d s → ReleaseInv env commands s → (s.docs (bundlePlace root digest)).isSome →
      Published env commands s root b → digestFilename digest = digestFilename b.bundleDigest → Q s (some b.normal)) :
    Safe (releaseProtocol env commands) (Returned Q) d (FileBundleStore.get env root digest).run := by
  apply safe_readDoc hnone
  intro s doc a hle hinv hdoc hread
  obtain ⟨b, hb, hname, rfl⟩ := hinv.bundles root _ doc hdoc
  have hreads : Wire.fromJson env.text (RegistryBundle.fromDict env.text.toWireCodec)
      (env.text.dumps (b.toDict env.text)) = .ok b.normal :=
        (RegistryBundle.reads env.text hb.written).fromJson (env.text.printable _)
  rw [hreads] at hread
  cases hread
  exact hsome s b hle hinv (by simp [hdoc]) hb hname

theorem safe_getBundle {root digest : String} {f : Option RegistryBundle → ReleaseProg α}
    (hnone : ∀ s, ReleaseLe env d s → ReleaseInv env commands s →
      Safe (releaseProtocol env commands) (Returned Q) s (f none).run)
    (hsome : ∀ s b, ReleaseLe env d s → ReleaseInv env commands s → (s.docs (bundlePlace root digest)).isSome →
      Published env commands s root b → digestFilename digest = digestFilename b.bundleDigest →
      Safe (releaseProtocol env commands) (Returned Q) s (f (some b.normal)).run) :
    Safe (releaseProtocol env commands) (Returned Q) d (FileBundleStore.get env root digest >>= f).run := by
  apply safe_bind
  apply safe_get
  · intro s hle hinv _
    exact hnone s hle hinv
  · intro s b hle hinv hstored hb hname _
    exact hsome s b hle hinv hstored hb hname

theorem pointerPlace_inj {root root' environment environment' stage stage' : String} (hs : stage ∈ stages)
    (hs' : stage' ∈ stages) (h : pointerPlace root environment stage = pointerPlace root' environment' stage') :
    root = root' ∧ environment = environment' ∧ stage = stage' := by
  simp only [pointerPlace, Place.pointer.injEq] at h
  obtain ⟨hroot, h⟩ := h
  refine ⟨hroot, ?_⟩
  have hlist := congrArg String.toList h
  simp only [String.toList_append, List.append_assoc] at hlist
  simp only [stages, List.mem_cons, List.not_mem_nil, or_false] at hs hs'
  -- the letter before the suffix tells the stages apart
  have hdiffer : ∀ xs ys : List Char, xs ++ ("__".toList ++ (stageShadow.toList ++ ".json".toList)) ≠
      ys ++ ("__".toList ++ (stageLive.toList ++ ".json".toList)) := by
    intro xs ys heq
    have hlast := congrArg (fun l => (l.reverse.drop 5).head?) heq
    simp [stageShadow, stageLive] at hlast
  rcases hs with rfl | rfl
  · rcases hs' with rfl | rfl
    · exact ⟨String.toList_injective (List.append_cancel_right hlist), rfl⟩
    · exact absurd hlist (hdiffer _ _)
  · rcases hs' with rfl | rfl
    · exact absurd hlist.symm (hdiffer _ _)
    · exact ⟨String.toList_injective (List.append_cancel_right hlist), rfl⟩

theorem safe_getPointer {root environment stage : String} (hstage : stage ∈ stages)
    {f : Option EnvironmentPointer → ReleaseProg α}
    (h : ∀ s pointer, ReleaseLe env d s → ReleaseInv env commands s →
      (∀ p ∈ pointer, InForce commands s root environment stage p.bundleDigest p.previousDigest) →
      Safe (releaseProtocol env commands) (Returned Q) s (f pointer).run) :
    Safe (releaseProtocol env commands) (Returned Q) d
      (FilePointerStore.getPointer env root environment stage >>= f).run := by
  apply safe_bind
  apply safe_readDoc
  · intro s hle hinv _
    exact h s none hle hinv (by simp)
  · intro s doc a hle hinv hdoc hread _
    obtain ⟨p, hp, hplace, rfl⟩ := hinv.pointers root _ doc hdoc
    have hreads : Wire.fromJson env.text (EnvironmentPointer.fromDict env.text.toWireCodec)
        (env.text.dumps (p.toDict env.text)) = .ok p :=
          (EnvironmentPointer.reads env.text p).fromJson (env.text.printable _)
    rw [hreads] at hread
    obtain ⟨-, rfl, rfl⟩ := pointerPlace_inj hstage (InForce.known hp) hplace
    apply h s (some a) hle hinv
    intro p' hp'
    cases hp'
    cases hread
    exact hp

end

/-! ## Publishing -/

/-- A bundle counts as published wherever the invariant holds from now on. -/
theorem safe_put {root : String} {b : RegistryBundle}
    (hb : ∀ s, ReleaseLe env d s → ReleaseInv env commands s → Published env commands s root b) :
    Safe (releaseProtocol env commands) (Returned fun s _ => Published env commands s root b) d
      (FileBundleStore.put env root b).run := by
  apply safe_getBundle
  · intro s hle hinv
    apply Raising.safe_last
    intro s' hle' hinv'
    have hb' := hb s' ((releaseProtocol env commands).trans hle hle') hinv'
    obtain ⟨hwritten, hinv''⟩ := hinv'.write (bundlePlace root b.bundleDigest) (env.text.dumps (b.toDict env.text))
      (by
        intro root' name hplace
        cases hplace
        exact ⟨b, hb', rfl, rfl⟩)
      (by
        intro root' name hplace
        cases hplace)
    exact ⟨hwritten, hinv'', hb'.mono hwritten⟩
  · intro s existing hle hinv _ _ _
    dsimp only
    split
    · trivial
    · exact hb s hle hinv

theorem ok_of_mapError {ε ε' α : Type} {x : Except ε α} {g : ε → ε'} {a : α} (h : x.mapError g = .ok a) : x = .ok a := by
  cases x with
  | error e => cases h
  | ok b =>
    cases h
    rfl

theorem safe_publish {k : ι} {c : PublishCommand} (hk : commands k = .publish c) :
    Safe (releaseProtocol env commands) (Returned fun s b => Published env commands s c.bundleStore b) d
      (c.program env).run := by
  apply safe_need
  intro b hb
  have hbuilt := ok_of_mapError hb
  rw [buildRegistryBundle_eq (show validateRegistry c.args.registry = .ok () from c.valid)] at hbuilt
  cases hbuilt
  apply safe_bind
  apply (safe_put fun _ _ _ => .definitions c hk rfl).mono
  intro s r hr
  cases r with
  | error e => trivial
  | ok u => exact fun _ => hr

/-! ### The wheel store -/

theorem safe_wheelCall {α β : Type} {uri : String} {p : WheelProg (Except PyErr α)} {post : Objects → Except PyErr α → Prop}
    {Q : ReleaseDisk → β → Prop} {f : α → ReleaseProg β}
    (hp : Safe (storeProtocol env.publish id) post (d.wheels uri) p)
    (h : ∀ s a, ReleaseLe env d s → post (s.wheels uri) (.ok a) →
      Safe (releaseProtocol env commands) (Returned Q) s (f a).run) :
    Safe (releaseProtocol env commands) (Returned Q) d (wheelCall uri p >>= f).run := by
  apply safe_bind
  have hlift : Safe (releaseProtocol env commands) (Returned fun s r => post (s.wheels uri) r) d
      (ExceptT.lift (embed (ReleaseCall.wheels uri) (fun _ a => a) p) : ReleaseProg (Except PyErr α)).run := by
    apply Safe.bind
    exact (wheelsPart uri).safe hp
  apply safe_bind
  apply hlift.mono
  intro s r hr
  cases r with
  | error e => trivial
  | ok r =>
    cases r with
    | error e => exact fun _ => trivial
    | ok a => exact fun hle _ => h s a hle hr

/-- Reading back asks for nothing but to be answered. -/
theorem safe_readBackVerify {objects : Objects} (name version sha : String) :
    Safe (storeProtocol env.publish id) (fun _ _ => True) objects (readBackVerify env.publish name version sha) := by
  unfold readBackVerify
  apply safe_readKey.mpr
  intro s hle hinv
  cases s (releaseKey name version) with
  | none => trivial
  | some data =>
    dsimp only
    cases env.publish.loads data with
    | error e => trivial
    | ok record =>
      dsimp only
      split
      · trivial
      · split
        · trivial
        · apply safe_readKey.mpr
          intro s' hle' hinv'
          trivial

/-- The record of a release names the wheel that is stored for it. -/
theorem released_hasWheel (hinv : ReleaseInv env commands d) {c : PublishWheelCommand} {record : JsonRecord}
    (h : Released env.publish id c.release (d.wheels c.wheelStore) record) :
    ∃ storageKey, Dict.get? record "storage_key" = some storageKey ∧ d.HasWheel env c storageKey := by
  obtain ⟨j, -, hrecord, hstored⟩ := (hinv.wheels c.wheelStore).records _ _ _ h.stored
  cases hrecord
  have hsha : j.sha env.publish = c.release.sha env.publish := by
    have hrecord : Dict.get? (j.record env.publish) "sha256" = some (c.release.sha env.publish) := h.sha
    rw [j.record_sha] at hrecord
    exact Option.some.inj hrecord
  exact ⟨_, j.record_storageKey env.publish, j, rfl, hsha, hstored⟩

theorem releaseItem_ok {record : JsonRecord} {name value : String} (h : releaseItem record name = .ok value) :
    Dict.get? record name = some value := by
  unfold releaseItem at h
  cases hv : Dict.get? record name with
  | none =>
    rw [hv] at h
    cases h
  | some v =>
    rw [hv] at h
    cases h
    rfl

theorem safe_publishWheel {k : ι} {c : PublishWheelCommand} (hk : commands k = .publishWheel c) :
    Safe (releaseProtocol env commands) (Returned fun s b => Published env commands s c.bundleStore b) d
      (c.program env).run := by
  apply safe_wheelCall (put_safe c.release _)
  intro s record _ hreleased
  apply safe_wheelCall (safe_readBackVerify _ _ _)
  intro s₁ _ hle₁ _
  have hreleased₁ : Released env.publish id c.release (s₁.wheels c.wheelStore) record :=
    putPost_stable c.release _ _ (.ok record) (hle₁.wheels _) hreleased
  apply safe_need
  intro storageKey hkey
  apply safe_need
  intro filename hname
  apply safe_need
  intro b hb
  have hbuilt := ok_of_mapError hb
  rw [buildRegistryBundle_eq (show validateRegistry (c.args env filename storageKey).registry = .ok () from c.valid)]
    at hbuilt
  cases hbuilt
  have hitem : Dict.get? record "storage_key" = some storageKey := releaseItem_ok (ok_of_mapError hkey)
  apply safe_bind
  apply (safe_put ?_).mono
  · intro s r hr
    cases r with
    | error e => trivial
    | ok u => exact fun _ => hr
  · intro s₂ hle₂ hinv₂
    have hreleased₂ : Released env.publish id c.release (s₂.wheels c.wheelStore) record :=
      putPost_stable c.release _ _ (.ok record) (hle₂.wheels _) hreleased₁
    obtain ⟨storageKey', hkey', hstored⟩ := released_hasWheel hinv₂ hreleased₂
    rw [hitem] at hkey'
    cases hkey'
    exact .wheel c hk rfl filename storageKey hstored

/-! ## Repointing -/

theorem safe_repoint {root : String} {record : PromotionRecord}
    (h : InForce commands d root record.env record.stage record.bundleDigest record.previousDigest) :
    Safe (releaseProtocol env commands) (Returned fun _ _ => True) d (fsctlRepoint env root record).run := by
  unfold fsctlRepoint FilePointerStore.setPointer FilePointerStore.appendRecord
  apply safe_call
  intro s hle hinv
  have hpointer : PointerOk commands s root record.pointer := h.mono hle
  obtain ⟨hwritten, hinv'⟩ := hinv.write (pointerPlace root record.pointer.env record.pointer.stage)
    (env.text.dumps (record.pointer.toDict env.text))
    (by
      intro root' name hplace
      cases hplace)
    (by
      intro root' name hplace
      cases hplace
      exact ⟨_, hpointer, rfl, rfl⟩)
  refine ⟨hwritten, hinv', ?_⟩
  apply Raising.safe_last
  intro s' hle' hinv''
  obtain ⟨hwritten', hinv'''⟩ := hinv''.write (recordPlace env root record) (env.text.dumps (record.toDict env.text))
    (by
      intro root' name hplace
      cases hplace)
    (by
      intro root' name hplace
      cases hplace)
  exact ⟨hwritten', hinv''', trivial⟩

variable (commands) in
/-- What a promotion records before it writes anything. -/
structure PromoteRecorded (d : ReleaseDisk) (root : String) (call : PromoteCall) (record : PromotionRecord) : Prop where
  env : record.env = call.env
  stage : record.stage = call.stage
  digest : record.bundleDigest = call.bundleDigest
  approved : call.Approved
  previous : ∀ digest ∈ record.previousDigest, Named commands d root call.env call.stage digest

theorem previous_named {root environment stage : String} {pointer : Option EnvironmentPointer}
    (h : ∀ p ∈ pointer, InForce commands d root environment stage p.bundleDigest p.previousDigest) :
    ∀ digest ∈ pointer.map EnvironmentPointer.bundleDigest, Named commands d root environment stage digest := by
  intro digest hd
  obtain ⟨p, hp, rfl⟩ := Option.map_eq_some_iff.mp hd
  exact (h p hp).named

theorem safe_promoteShadow {root : String} {call : PromoteCall} (hstage : call.stage = stageShadow) :
    Safe (releaseProtocol env commands) (Returned fun s record => PromoteRecorded commands s root call record) d
      (fsctlPromoteShadow env root call).run := by
  apply safe_getPointer (by decide)
  intro s pointer hle hinv hpointer
  refine ⟨rfl, hstage.symm, rfl, ?_, ?_⟩
  · intro h
    rw [hstage] at h
    exact absurd h (by decide)
  · rw [hstage]
    exact previous_named hpointer

theorem safe_promoteLive {root : String} {call : PromoteCall} (hstage : call.stage = stageLive) :
    Safe (releaseProtocol env commands) (Returned fun s record => PromoteRecorded commands s root call record) d
      (fsctlPromoteLive env root call).run := by
  apply safe_need
  intro prof hprof
  apply safe_need
  intro approvers happrovers
  apply safe_need
  intro _ henough
  apply safe_getPointer (by decide)
  intro s shadow _ _ _
  apply safe_need
  intro _ _
  apply safe_getPointer (by decide)
  intro s' pointer hle hinv hpointer
  refine ⟨rfl, hstage.symm, rfl, ?_, ?_⟩
  · intro _
    refine ⟨prof, approvers, ok_of_mapError hprof, ok_of_mapError happrovers, ?_⟩
    have hrule := ok_of_mapError henough
    unfold enoughApprovers at hrule
    split at hrule
    · cases hrule
    · omega
  · rw [hstage]
    exact previous_named hpointer

theorem stage_of_allowed {call : PromoteCall} (h : promoteAllowed call = .ok ()) :
    call.bundleExists = true ∧ call.stage ∈ stages := by
  unfold promoteAllowed at h
  split at h
  · cases h
  · split at h
    · cases h
    · rename_i hexists hstage
      exact ⟨by simpa using hexists, by simpa using hstage⟩

theorem safe_promotionRecord {root : String} {call : PromoteCall} (hstage : call.stage ∈ stages) :
    Safe (releaseProtocol env commands) (Returned fun s record => PromoteRecorded commands s root call record) d
      (promotionRecord env root call).run := by
  unfold promotionRecord
  by_cases hshadow : call.stage = stageShadow
  · rw [if_pos hshadow]
    exact safe_promoteShadow hshadow
  · rw [if_neg hshadow]
    simp only [stages, List.mem_cons, List.not_mem_nil, or_false] at hstage
    exact safe_promoteLive (hstage.resolve_left hshadow)

theorem safe_promote {k : ι} {c : PromoteCommand} (hk : commands k = .promote c) :
    Safe (releaseProtocol env commands) (Returned fun _ _ => True) d (c.program env).run := by
  apply safe_getBundle
  · intro s _ _
    apply safe_need
    intro _ hallowed
    cases (stage_of_allowed (ok_of_mapError hallowed)).1
  · intro s b hle hinv hstored _ _
    apply safe_need
    intro _ hallowed
    have hstage := (stage_of_allowed (ok_of_mapError hallowed)).2
    apply safe_bind
    apply (safe_promotionRecord hstage).mono
    intro s' r hr
    cases r with
    | error e => trivial
    | ok record =>
      intro hle'
      have hnamed : Named commands s' c.pointerStore c.call.env c.call.stage c.call.bundleDigest :=
        .promote c hk rfl rfl rfl hr.approved (ReleaseLe.docs hle' _ hstored)
      apply safe_bind
      apply (safe_repoint ?_).mono
      · intro s'' r _
        cases r with
        | error e => trivial
        | ok u => exact fun _ => trivial
      · rw [hr.env, hr.stage, hr.digest]
        exact ⟨hstage, hnamed, hr.previous⟩

theorem rollbackAllowed_ok {call : RollbackCall} (h : rollbackAllowed call = .ok ()) : call.stage ∈ stages := by
  unfold rollbackAllowed at h
  split at h
  · cases h
  · split at h
    · cases h
    · rename_i hstage
      simpa using hstage

/-- A rollback goes to what was in force before, or to the digest that was given and checked. -/
theorem rollbackTarget_named {k : ι} {c : RollbackCommand} (hk : commands k = .rollback c) {bundleExists : Option Bool}
    (hchecked : bundleExists ≠ some false → ∀ checked ∈ c.checked, (d.docs (bundlePlace checked.1 checked.2)).isSome)
    {current : EnvironmentPointer}
    (hcurrent : InForce commands d c.pointerStore c.call.env c.call.stage current.bundleDigest current.previousDigest)
    {target : String} (h : rollbackTarget { c.call with bundleExists } current = .ok target) :
    Named commands d c.pointerStore c.call.env c.call.stage target := by
  unfold rollbackTarget at h
  split at h
  · cases hprevious : current.previousDigest with
    | none =>
      rw [hprevious] at h
      cases h
    | some previous =>
      rw [hprevious] at h
      cases h
      exact hcurrent.previous _ hprevious
  · dsimp only at h
    cases hdigest : c.call.bundleDigest with
    | none =>
      rw [hdigest] at h
      cases h
    | some digest =>
      rw [hdigest] at h
      dsimp only at h
      split at h
      · cases h
      · split at h
        · cases h
        · rename_i hexists
          cases h
          exact .rollback c hk rfl rfl rfl hdigest (hchecked hexists)

theorem safe_rollback {k : ι} {c : RollbackCommand} (hk : commands k = .rollback c) :
    Safe (releaseProtocol env commands) (Returned fun _ _ => True) d (c.program env).run := by
  have hrest : ∀ s bundleExists, (bundleExists ≠ some false → ∀ checked ∈ c.checked,
      (s.docs (bundlePlace checked.1 checked.2)).isSome) → Safe (releaseProtocol env commands) (Returned fun _ _ => True) s
      (fsctlRollback env c.pointerStore { c.call with bundleExists }).run := by
    intro s bundleExists hchecked
    apply safe_need
    intro _ hallowed
    have hstage : c.call.stage ∈ stages := rollbackAllowed_ok (ok_of_mapError hallowed)
    apply safe_getPointer hstage
    intro s₁ pointer hle₁ hinv₁ hpointer
    apply safe_need
    intro current hcurrent
    have hsome : pointer = some current := by
      cases pointer with
      | none => cases hcurrent
      | some p =>
        cases hcurrent
        rfl
    apply safe_need
    intro target htarget
    have hforce := hpointer current hsome
    have hnamed := rollbackTarget_named hk
      (fun h checked hc => ReleaseLe.docs hle₁ _ (hchecked h checked hc)) hforce (ok_of_mapError htarget)
    apply safe_bind
    apply (safe_repoint ?_).mono
    · intro s₂ r _
      cases r with
      | error e => trivial
      | ok u => exact fun _ => trivial
    · refine ⟨hstage, hnamed, ?_⟩
      intro previous hprevious
      cases hprevious
      exact hforce.named
  unfold RollbackCommand.program
  cases hchecked : c.checked with
  | none =>
    apply hrest d none
    intro _ checked hc
    rw [hchecked] at hc
    cases hc
  | some checked =>
    apply safe_getBundle
    · intro s _ _
      apply hrest s (some false)
      intro h
      exact absurd rfl h
    · intro s b hle hinv hstored _ _
      apply hrest s (some true)
      intro _ checked' hc
      rw [hchecked] at hc
      cases hc
      exact hstored

/-! ## Starting -/

variable (env commands) in
/-- The bundle that a process was started with: it is published, and what its pointer names. -/
structure Bound (d : ReleaseDisk) (c : StartCommand) (pointerStore environment digest : String) (b : RegistryBundle)
    (artifact : FeatureArtifact) (descriptor : List (String × Value)) : Prop where
  store : c.settings.pointerStore = some pointerStore
  served : c.settings.bundleEnv = some environment
  named : Named commands d pointerStore environment c.settings.bundleStage digest
  published : ∃ root, c.settings.bundleStore = some root ∧ Published env commands d root b
  file : digestFilename digest = digestFilename b.bundleDigest
  pinned : b.featureArtifact = some artifact
  verified : c.verifyBound env b.normal (sortedBy Prod.fst artifact) = .ok descriptor

variable (env commands) in
/-- What the gate has let pass. -/
structure Started (d : ReleaseDisk) (c : StartCommand) (descriptor : Option (List (String × Value))) : Prop where
  policy : c.settings.environment = environmentDevelopment ∨ c.settings.artifactBinding = bindingRequired
  unbound : descriptor = none → c.settings.artifactBinding ≠ bindingRequired
  bound : ∀ verified ∈ descriptor, ∃ pointerStore environment digest b artifact,
    Bound env commands d c pointerStore environment digest b artifact verified

theorem Bound.mono (hle : ReleaseLe env d later) {c : StartCommand} {pointerStore environment digest : String}
    {b : RegistryBundle} {artifact : FeatureArtifact} {descriptor : List (String × Value)}
    (h : Bound env commands d c pointerStore environment digest b artifact descriptor) :
    Bound env commands later c pointerStore environment digest b artifact descriptor := by
  obtain ⟨root, hroot, hpublished⟩ := h.published
  exact { h with named := h.named.mono hle, published := ⟨root, hroot, hpublished.mono hle⟩ }

theorem Started.mono (hle : ReleaseLe env d later) {c : StartCommand} {descriptor : Option (List (String × Value))}
    (h : Started env commands d c descriptor) : Started env commands later c descriptor := by
  refine { h with bound := ?_ }
  intro verified hv
  obtain ⟨pointerStore, environment, digest, b, artifact, hbound⟩ := h.bound verified hv
  exact ⟨pointerStore, environment, digest, b, artifact, hbound.mono hle⟩

/-- What the pointer of a process names, as it is read. -/
theorem safe_resolvePromotedBundle (c : StartCommand) {α : Type} {Q : ReleaseDisk → α → Prop}
    {f : Option RegistryBundle → ReleaseProg α}
    (hnone : ∀ s, Safe (releaseProtocol env commands) (Returned Q) s (f none).run)
    (hsome : ∀ s pointerStore environment digest root b, c.settings.pointerStore = some pointerStore →
      c.settings.bundleEnv = some environment → c.settings.bundleStore = some root →
      Named commands s pointerStore environment c.settings.bundleStage digest → Published env commands s root b →
      digestFilename digest = digestFilename b.bundleDigest →
      Safe (releaseProtocol env commands) (Returned Q) s (f (some b.normal)).run) :
    Safe (releaseProtocol env commands) (Returned Q) d (c.resolvePromotedBundle env >>= f).run := by
  apply safe_bind
  unfold StartCommand.resolvePromotedBundle
  split
  · rename_i root pointerStore environment hroot hpointerStore henvironment
    apply safe_getPointer c.settings.stage_ok
    intro s pointer hle hinv hpointer
    cases pointer with
    | none => exact fun _ => hnone s
    | some p =>
      have hnamed := (hpointer p rfl).named
      dsimp only
      apply safe_get
      · intro s' _ _ _
        exact hnone s'
      · intro s' b hle' _ _ hpublished hfile _
        exact hsome s' pointerStore environment p.bundleDigest root b hpointerStore henvironment hroot
          (hnamed.mono hle') hpublished hfile
  · exact fun _ => hnone d

theorem safe_enforce (c : StartCommand) :
    Safe (releaseProtocol env commands) (Returned fun s descriptor => Started env commands s c descriptor) d
      (c.enforce env).run := by
  apply safe_need
  intro _ hpolicy
  have hpolicy := failUnless_eq_ok.mp (ok_of_mapError hpolicy)
  have hunbound : ∀ s, Safe (releaseProtocol env commands)
      (Returned fun s descriptor => Started env commands s c descriptor) s
      (if c.settings.artifactBinding = bindingRequired then throw (.verification StartCommand.required)
        else return none : ReleaseProg (Option (List (String × Value)))).run := by
    intro s
    split
    · trivial
    · rename_i hbinding
      exact ⟨hpolicy, fun _ => hbinding, by simp⟩
  apply safe_resolvePromotedBundle
  · intro s
    exact hunbound s
  · intro s pointerStore environment digest root b hpointerStore henvironment hroot hnamed hpublished hfile
    dsimp only [Option.bind_some]
    cases hartifact : b.featureArtifact with
    | none =>
      simp only [RegistryBundle.normal, hartifact, Option.map_none]
      exact hunbound s
    | some artifact =>
      simp only [RegistryBundle.normal, hartifact, Option.map_some]
      apply safe_need
      intro verified hverified
      refine ⟨hpolicy, by simp, ?_⟩
      intro descriptor hd
      cases hd
      refine ⟨pointerStore, environment, digest, b, artifact, hpointerStore, henvironment, hnamed, ⟨root, hroot, hpublished⟩,
        hfile, hartifact, ?_⟩
      simpa only [RegistryBundle.normal, hartifact, Option.map_some] using hverified

/-! ## Every run -/

variable (env commands) in
/-- What holds of a process once it has started. -/
def releasePost (i : ι) : ReleaseDisk → Except ReleaseError ReleaseAnswer → Prop :=
  Returned fun d answer => ∀ c descriptor, commands i = .start c → answer = .started descriptor →
    Started env commands d c descriptor

theorem releasePost_stable (i : ι) (r : Except ReleaseError ReleaseAnswer) (hle : ReleaseLe env d later)
    (h : releasePost env commands i d r) : releasePost env commands i later r := by
  cases r with
  | error e => trivial
  | ok answer => exact fun c descriptor hc ha => (h c descriptor hc ha).mono hle

/-- A command that starts no process has nothing to answer for. -/
theorem releasePost_other {i : ι} (hi : ∀ c, commands i ≠ .start c) (r : Except ReleaseError ReleaseAnswer) :
    releasePost env commands i d r := by
  cases r with
  | error e => trivial
  | ok answer => exact fun c _ hc _ => absurd hc (hi c)

theorem safe_map {α : Type} {Q : ReleaseDisk → α → Prop} {p : ReleaseProg α} {answer : α → ReleaseAnswer} {i : ι}
    (hp : Safe (releaseProtocol env commands) (Returned Q) d p.run)
    (h : ∀ s a, Q s a → releasePost env commands i s (.ok (answer a))) :
    Safe (releaseProtocol env commands) (releasePost env commands i) d
      (do return answer (← p) : ReleaseProg ReleaseAnswer).run := by
  apply safe_bind
  apply hp.mono
  intro s r hr
  cases r with
  | error e => trivial
  | ok a => exact fun _ => h s a hr

theorem command_safe (i : ι) : Safe (releaseProtocol env commands) (releasePost env commands i) d
    ((commands i).program env).run := by
  cases hi : commands i with
  | publish c => exact safe_map (safe_publish hi) fun s b _ => releasePost_other (by simp [hi]) _
  | publishWheel c => exact safe_map (safe_publishWheel hi) fun s b _ => releasePost_other (by simp [hi]) _
  | promote c => exact safe_map (safe_promote hi) fun s record _ => releasePost_other (by simp [hi]) _
  | rollback c => exact safe_map (safe_rollback hi) fun s record _ => releasePost_other (by simp [hi]) _
  | start c =>
    apply safe_map (safe_enforce c)
    intro s descriptor hstarted c' descriptor' hc ha
    rw [hi] at hc
    cases hc
    cases ha
    exact hstarted

variable [DecidableEq ι]

variable (env commands) in
theorem releases_safe (schedule : List ι) : ReleaseInv env commands (releases env commands schedule).state ∧
    ∀ i, Safe (releaseProtocol env commands) (releasePost env commands i) (releases env commands schedule).state
      ((releases env commands schedule).running i) :=
  have hstable : ∀ i s s' r, (releaseProtocol env commands).le s s' → releasePost env commands i s r →
      releasePost env commands i s' r := fun i _ _ r hle => releasePost_stable i r hle
  (run_safe (w := ⟨{}, fun i => ((commands i).program env).run⟩) hstable schedule ReleaseInv.empty
    fun i => command_safe i).2

end

end ClearFeature
