import ClearFeature.PromotionTrail
import ClearFeature.ReleaseSafety

/-!
# Releases one after another

Commands that nothing runs beside do to the files what promotion does to the
pointers and records in memory. Read back, the audit trail is complete and in
order, and each pointer is where the trail ends.
-/

namespace ClearFeature

open Prog Shared StableSort Wire
open Raising (need alone_bind alone_bind_ok alone_need allowed_bind allowed_lift)

section
variable (env : ReleaseEnv)

/-! ## One command alone -/

/-- The pointers of a store in memory are in its files. -/
def PointerFiles (d : ReleaseDisk) (root : String) (s : PointerStore) : Prop :=
  ∀ environment, ∀ stage ∈ stages, d.docs (pointerPlace root environment stage) =
    (s.getPointer environment stage).map fun p => env.text.dumps (p.toDict env.text)

/-- So are its records, under names that are in order. -/
structure RecordFiles (d : ReleaseDisk) (root : String) (s : PointerStore) : Prop where
  records : ∀ name doc, d.docs (.record root name) = some doc ↔
    ∃ r ∈ s.records, name = recordName env r ∧ doc = env.text.dumps (r.toDict env.text)
  ordered : (s.records.map (recordName env)).Pairwise (· < ·)

/-- The disk after a pointer and its record have been written. -/
def ReleaseDisk.repointed (d : ReleaseDisk) (root : String) (record : PromotionRecord) : ReleaseDisk :=
  { d with
    docs := Function.update (Function.update d.docs (pointerPlace root record.env record.stage)
        (some (env.text.dumps (record.pointer.toDict env.text))))
      (recordPlace env root record) (some (env.text.dumps (record.toDict env.text))) }

theorem ReleaseDisk.repointed_docs (d : ReleaseDisk) (root : String) (record : PromotionRecord) :
    (d.repointed env root record).docs =
      Function.update (Function.update d.docs (pointerPlace root record.env record.stage)
        (some (env.text.dumps (record.pointer.toDict env.text))))
      (recordPlace env root record) (some (env.text.dumps (record.toDict env.text))) := rfl

/-- The bundle that a store answers with. -/
def ReleaseDisk.bundle (d : ReleaseDisk) (root digest : String) : Except ReleaseError (Option RegistryBundle) :=
  match d.docs (bundlePlace root digest) with
  | none => .ok none
  | some doc =>
    ((Wire.fromJson env.text (RegistryBundle.fromDict env.text.toWireCodec) doc).mapError ReleaseError.other).map some

variable {env} {d : ReleaseDisk} {root : String} {s : PointerStore}

theorem exec_pathExists {α : Type} (d : ReleaseDisk) (place : Place) (f : Bool → ReleaseProg α) :
    exec releaseDisk d (pathExists place >>= f).run = exec releaseDisk d (f (d.docs place).isSome).run := rfl

theorem exec_readText {α : Type} (d : ReleaseDisk) (place : Place) (f : Option Bytes → ReleaseProg α) :
    exec releaseDisk d (readText place >>= f).run = exec releaseDisk d (f (d.docs place)).run := rfl

theorem exec_readDoc {T : Type} (d : ReleaseDisk) (read : Value → Except PyErr T) (place : Place) :
    exec releaseDisk d (readDoc env read place).run = (d, match d.docs place with
      | none => .ok none
      | some doc => ((Wire.fromJson env.text read doc).mapError ReleaseError.other).map some) := by
  rw [readDoc, exec_pathExists]
  cases hdoc : d.docs place with
  | none => rfl
  | some doc =>
    rw [Option.isSome_some, if_pos rfl, exec_readText, hdoc]
    dsimp only
    rw [alone_bind, needPy, alone_need]
    cases Wire.fromJson env.text read doc with
    | error e => rfl
    | ok a => rfl

theorem exec_getBundle (d : ReleaseDisk) (root digest : String) :
    exec releaseDisk d (FileBundleStore.get env root digest).run = (d, d.bundle env root digest) := by
  rw [FileBundleStore.get, exec_readDoc]
  rfl

theorem PointerFiles.exec_getPointer (h : PointerFiles env d root s) {environment stage : String} (hstage : stage ∈ stages) :
    exec releaseDisk d (FilePointerStore.getPointer env root environment stage).run =
      (d, .ok (s.getPointer environment stage)) := by
  rw [FilePointerStore.getPointer, exec_readDoc, h environment stage hstage]
  cases s.getPointer environment stage with
  | none => rfl
  | some p =>
    have hreads : Wire.fromJson env.text (EnvironmentPointer.fromDict env.text.toWireCodec)
        (env.text.dumps (p.toDict env.text)) = .ok p :=
          (EnvironmentPointer.reads env.text p).fromJson (env.text.printable _)
    simp [hreads, Except.mapError, Except.map]

theorem promoteRecord_eq (s : PointerStore) (call : PromoteCall) : promoteRecord s call = (do
    promoteAllowed call
    if call.stage = stageShadow then .ok (shadowRecord call (s.getPointer call.env stageShadow))
    else promoteLive s call) := by
  unfold promoteRecord promoteAllowed
  by_cases hexists : call.bundleExists = false
  · simp [hexists]
  · by_cases hstage : call.stage ∉ stages
    · simp [hexists, hstage]
    · by_cases hreason : isBlank call.reason = true
      · simp [hexists, hstage, hreason]
      · simp only [hexists, hstage, hreason, if_false]
        rfl

theorem promoteLive_eq (s : PointerStore) (call : PromoteCall) : promoteLive s call = (do
    let prof ← profileOf call.profile
    let approvers ← uniqueApprovers call.approvedBy
    enoughApprovers prof approvers
    let started := (s.getPointer call.env stageShadow).bind fun p =>
      if p.bundleDigest = call.bundleDigest then p.shadowStartedAt else none
    checkSoak call prof started
    .ok (liveRecord call prof approvers started (s.getPointer call.env stageLive))) := by
  have hstart : shadowStart s call.env call.bundleDigest = (s.getPointer call.env stageShadow).bind fun p =>
      if p.bundleDigest = call.bundleDigest then p.shadowStartedAt else none := by
    unfold shadowStart
    cases s.getPointer call.env stageShadow <;> rfl
  unfold promoteLive profileOf
  cases call.profile with
  | none => rfl
  | some profile =>
    dsimp only
    cases Dict.get? profiles profile with
    | none => rfl
    | some prof =>
      dsimp only
      rw [ok_bind, hstart]
      cases uniqueApprovers call.approvedBy with
      | error e => rfl
      | ok approvers =>
        rw [ok_bind, ok_bind]
        unfold enoughApprovers
        split <;> rfl

theorem PointerFiles.exec_promoteLive (h : PointerFiles env d root s) (call : PromoteCall) :
    exec releaseDisk d (fsctlPromoteLive env root call).run = (d, (promoteLive s call).mapError .promotion) := by
  rw [fsctlPromoteLive, promoteLive_eq]
  simp only [alone_bind, alone_need, needRule]
  cases profileOf call.profile with
  | error e => rfl
  | ok prof =>
    rw [ok_bind]
    cases uniqueApprovers call.approvedBy with
    | error e => rfl
    | ok approvers =>
      rw [ok_bind]
      dsimp only [Except.mapError]
      cases enoughApprovers prof approvers with
      | error e => rfl
      | ok u =>
        rw [ok_bind]
        dsimp only
        rw [h.exec_getPointer (by decide)]
        dsimp only
        cases checkSoak call prof ((s.getPointer call.env stageShadow).bind fun p =>
            if p.bundleDigest = call.bundleDigest then p.shadowStartedAt else none) with
        | error e => rfl
        | ok u =>
          rw [ok_bind]
          dsimp only
          rw [h.exec_getPointer (by decide)]
          rfl

/-- A promotion that nothing runs beside is a promotion in memory. -/
theorem PointerFiles.exec_promote (h : PointerFiles env d root s) (call : PromoteCall) :
    exec releaseDisk d (fsctlPromote env root call).run = match promoteRecord s call with
      | .ok record => (d.repointed env root record, .ok record)
      | .error e => (d, .error (.promotion e)) := by
  rw [promoteRecord_eq, fsctlPromote, alone_bind, needRule, alone_need]
  cases promoteAllowed call with
  | error e => rfl
  | ok u =>
    rw [ok_bind]
    dsimp only [Except.mapError]
    rw [alone_bind, promotionRecord]
    by_cases hshadow : call.stage = stageShadow
    · rw [if_pos hshadow, if_pos hshadow, fsctlPromoteShadow, alone_bind_ok _ _ (h.exec_getPointer (by decide))]
      rfl
    · rw [if_neg hshadow, if_neg hshadow, h.exec_promoteLive call]
      cases promoteLive s call with
      | error e => rfl
      | ok record => rfl

theorem rollbackRecord_eq (s : PointerStore) (call : RollbackCall) : rollbackRecord s call = (do
    rollbackAllowed call
    let current ← currentPointer call (s.getPointer call.env call.stage)
    let target ← rollbackTarget call current
    .ok (rolledBack call current target)) := by
  unfold rollbackRecord rollbackAllowed
  by_cases hreason : isBlank call.reason = true
  · simp [hreason]
  · by_cases hstage : call.stage ∉ stages
    · simp [hreason, hstage]
    · simp only [hreason, hstage, if_false]
      cases s.getPointer call.env call.stage <;> rfl

/-- So is a rollback. -/
theorem PointerFiles.exec_rollback (h : PointerFiles env d root s) (call : RollbackCall) :
    exec releaseDisk d (fsctlRollback env root call).run = match rollbackRecord s call with
      | .ok record => (d.repointed env root record, .ok record)
      | .error e => (d, .error (.promotion e)) := by
  rw [rollbackRecord_eq, fsctlRollback, alone_bind, needRule, alone_need]
  cases hallowed : rollbackAllowed call with
  | error e => rfl
  | ok u =>
    rw [ok_bind]
    dsimp only [Except.mapError]
    rw [alone_bind_ok _ _ (h.exec_getPointer (rollbackAllowed_ok hallowed))]
    simp only [alone_bind, alone_need, needRule]
    cases currentPointer call (s.getPointer call.env call.stage) with
    | error e => rfl
    | ok current =>
      rw [ok_bind]
      dsimp only [Except.mapError]
      cases rollbackTarget call current with
      | error e => rfl
      | ok target => rfl

/-- An accepted operation leaves the files of the store it leaves. -/
theorem PointerFiles.repointed (h : PointerFiles env d root s) {record : PromotionRecord} (hstage : record.stage ∈ stages) :
    PointerFiles env (d.repointed env root record) root (s.repoint record) := by
  intro environment stage hs
  rw [PointerStore.getPointer_repoint]
  have hrecord : pointerPlace root environment stage ≠ recordPlace env root record := by
    intro hplace
    cases hplace
  rw [ReleaseDisk.repointed_docs, Function.update_of_ne hrecord]
  by_cases heq : (record.env, record.stage) = (environment, stage)
  · rw [if_pos heq]
    simp only [Prod.mk.injEq] at heq
    rw [← heq.1, ← heq.2, Function.update_self]
    rfl
  · rw [if_neg heq]
    have hplace : pointerPlace root environment stage ≠ pointerPlace root record.env record.stage := by
      intro hplace
      obtain ⟨-, henv, hst⟩ := pointerPlace_inj hs hstage hplace
      exact heq (by rw [henv, hst])
    rw [Function.update_of_ne hplace]
    exact h environment stage hs

theorem RecordFiles.repointed (h : RecordFiles env d root s) {record : PromotionRecord}
    (hnew : ∀ r ∈ s.records, recordName env r < recordName env record) :
    RecordFiles env (d.repointed env root record) root (s.repoint record) := by
  have hne : ∀ name, Place.record root name ≠ pointerPlace root record.env record.stage := by
    intro name hplace
    cases hplace
  constructor
  · intro name doc
    rw [ReleaseDisk.repointed_docs, PointerStore.records_repoint]
    by_cases hname : name = recordName env record
    · subst hname
      rw [show Place.record root (recordName env record) = recordPlace env root record from rfl, Function.update_self]
      constructor
      · intro hdoc
        cases hdoc
        exact ⟨record, by simp, rfl, rfl⟩
      · intro hr
        obtain ⟨r, hr, hname, rfl⟩ := hr
        rcases List.mem_append.mp hr with hr | hr
        · exact absurd hname (hnew r hr).ne'
        · rw [List.mem_singleton.mp hr]
    · have hplace : Place.record root name ≠ recordPlace env root record := by
        intro hplace
        cases hplace
        exact hname rfl
      rw [Function.update_of_ne hplace, Function.update_of_ne (hne name), h.records name doc]
      constructor
      · intro hr
        obtain ⟨r, hr, hrest⟩ := hr
        exact ⟨r, List.mem_append_left _ hr, hrest⟩
      · intro hr
        obtain ⟨r, hr, hname', hdoc⟩ := hr
        rcases List.mem_append.mp hr with hr | hr
        · exact ⟨r, hr, hname', hdoc⟩
        · rw [List.mem_singleton.mp hr] at hname'
          exact absurd hname' hname
  · rw [PointerStore.records_repoint, List.map_append]
    apply List.pairwise_append.mpr
    refine ⟨h.ordered, by simp, ?_⟩
    simpa using hnew

/-- The pointer store that a file belongs to. -/
def Place.trail : Place → Option String
  | .bundle _ _ => none
  | .pointer root _ => some root
  | .record root _ => some root

theorem PointerFiles.congr {d' : ReleaseDisk} (h : PointerFiles env d root s)
    (hkept : ∀ place, place.trail = some root → d'.docs place = d.docs place) : PointerFiles env d' root s := by
  intro environment stage hs
  rw [hkept _ rfl]
  exact h environment stage hs

theorem RecordFiles.congr {d' : ReleaseDisk} (h : RecordFiles env d root s)
    (hkept : ∀ place, place.trail = some root → d'.docs place = d.docs place) : RecordFiles env d' root s := by
  refine ⟨?_, h.ordered⟩
  intro name doc
  rw [hkept _ rfl]
  exact h.records name doc

end

/-! ## What a command leaves alone -/

section
variable {env : ReleaseEnv} {place : Place} {α β : Type}

/-- Every call but the writing of one file. -/
def sparing (place : Place) : Monitor ReleaseCall ReleaseCall.Ans Unit where
  allowed _ c := ∀ doc, c ≠ .writeText place doc
  record _ _ _ := ()

def Spares (place : Place) (p : ReleaseProg α) : Prop := wp (sparing place) () p.run fun _ _ => True

theorem sparing_act {d : ReleaseDisk} {t : Unit} {c : ReleaseCall} (h : (sparing place).allowed t c) :
    (releaseDisk.act d c).docs place = d.docs place := by
  cases c with
  | pathExists place' => rfl
  | readText place' => rfl
  | writeText place' doc =>
    have hne : place ≠ place' := by
      intro heq
      exact h doc (by rw [heq])
    simp [releaseDisk, Function.update_of_ne hne]
  | wheels uri c => rfl

theorem Spares.exec {p : ReleaseProg α} (h : Spares place p) (d : ReleaseDisk) :
    (exec releaseDisk d p.run).1.docs place = d.docs place :=
  exec_keeps (f := fun d : ReleaseDisk => d.docs place) (fun _ _ _ => sparing_act) h

theorem Spares.bind {p : ReleaseProg α} {f : α → ReleaseProg β} (hp : Spares place p)
    (hf : ∀ a, Spares place (f a)) : Spares place (p >>= f) := by
  apply allowed_bind
  exact wp_mono (fun _ _ _ => hf) hp

theorem spares_need (x : Except ReleaseError α) : Spares place (need x) := trivial

theorem spares_readDoc {T : Type} (read : Value → Except PyErr T) (place' : Place) :
    Spares place (readDoc env read place') := by
  apply Spares.bind (p := pathExists place')
  · exact ⟨fun _ h => (nomatch h), fun _ => trivial⟩
  · intro found
    cases found with
    | false => exact trivial
    | true =>
      apply Spares.bind (p := readText place')
      · exact ⟨fun _ h => (nomatch h), fun _ => trivial⟩
      · intro doc
        cases doc with
        | none => exact trivial
        | some doc => exact (spares_need _).bind fun a => trivial

theorem spares_writeText {place' : Place} (hne : place ≠ place') (doc : Bytes) : Spares place (writeText place' doc) := by
  refine ⟨?_, fun _ => trivial⟩
  intro doc' heq
  cases heq
  exact hne rfl

theorem spares_embed (uri : String) : ∀ p : WheelProg α,
    wp (sparing place) () (embed (ReleaseCall.wheels uri) (fun _ a => a) p) fun _ _ => True
  | .ret _ => trivial
  | .call _ k => ⟨fun _ h => (nomatch h), fun a => spares_embed uri (k a)⟩

theorem spares_wheelCall (uri : String) (p : WheelProg (Except PyErr α)) : Spares place (wheelCall uri p) := by
  have hlift : Spares place
      (ExceptT.lift (embed (ReleaseCall.wheels uri) (fun _ a => a) p) : ReleaseProg (Except PyErr α)) :=
    allowed_lift (spares_embed uri p)
  exact hlift.bind fun r => spares_need _

theorem spares_put {root : String} (h : place.trail ≠ none) (b : RegistryBundle) :
    Spares place (FileBundleStore.put env root b) := by
  apply (spares_readDoc _ _).bind
  intro existing
  cases existing with
  | some b' =>
    dsimp only
    split
    · exact trivial
    · exact trivial
  | none =>
    apply spares_writeText
    intro heq
    rw [heq] at h
    exact h rfl

/-! ## Commands one after another -/

/-- The pointer store that a command writes to, and the time that its record has. -/
def ReleaseCommand.repoints : ReleaseCommand → Option (String × Int)
  | .promote c => some (c.pointerStore, c.call.now)
  | .rollback c => some (c.pointerStore, c.call.now)
  | _ => none

variable (env)

def ReleaseCommand.answer (d : ReleaseDisk) (c : ReleaseCommand) : Except ReleaseError ReleaseAnswer :=
  (exec releaseDisk d (c.program env).run).2

def ReleaseCommand.after (d : ReleaseDisk) (c : ReleaseCommand) : ReleaseDisk :=
  (exec releaseDisk d (c.program env).run).1

def releasesAfter (d : ReleaseDisk) (cmds : List ReleaseCommand) : ReleaseDisk :=
  Runs.run (ReleaseCommand.after env) d cmds

/-- The record that a command has answered with, if it is one of this pointer store. -/
def ReleaseCommand.accepted (root : String) (d : ReleaseDisk) (c : ReleaseCommand) : Option PromotionRecord :=
  match c.repoints, c.answer env d with
  | some (root', _), .ok (.repointed record) => if root' = root then some record else none
  | _, _ => none

def acceptedRecords (root : String) : ReleaseDisk → List ReleaseCommand → List PromotionRecord
  | _, [] => []
  | d, c :: cmds => (c.accepted env root d).toList ++ acceptedRecords root (c.after env d) cmds

variable {env} {d : ReleaseDisk} {root : String} {s : PointerStore}

/-! ### Commands that write elsewhere -/

theorem spares_repoint (h : place.trail ≠ some root) (record : PromotionRecord) :
    Spares place (fsctlRepoint env root record) := by
  apply Spares.bind
  · apply spares_writeText
    intro heq
    rw [heq] at h
    exact h rfl
  · intro _
    apply spares_writeText
    intro heq
    rw [heq] at h
    exact h rfl

theorem spares_promote (h : place.trail ≠ some root) (call : PromoteCall) :
    Spares place (fsctlPromote env root call) := by
  apply (spares_need _).bind
  intro _
  apply Spares.bind
  · unfold promotionRecord
    split
    · exact (spares_readDoc _ _).bind fun _ => trivial
    · apply (spares_need _).bind
      intro _
      apply (spares_need _).bind
      intro _
      apply (spares_need _).bind
      intro _
      apply (spares_readDoc _ _).bind
      intro _
      apply (spares_need _).bind
      intro _
      exact (spares_readDoc _ _).bind fun _ => trivial
  · intro record
    exact (spares_repoint h record).bind fun _ => trivial

theorem spares_rollback (h : place.trail ≠ some root) (call : RollbackCall) :
    Spares place (fsctlRollback env root call) := by
  apply (spares_need _).bind
  intro _
  apply (spares_readDoc _ _).bind
  intro _
  apply (spares_need _).bind
  intro _
  apply (spares_need _).bind
  intro _
  exact (spares_repoint h _).bind fun _ => trivial

theorem spares_publish (h : place.trail ≠ none) (c : PublishCommand) : Spares place (c.program env) := by
  apply (spares_need _).bind
  intro _
  exact (spares_put h _).bind fun _ => trivial

theorem spares_publishWheel (h : place.trail ≠ none) (c : PublishWheelCommand) : Spares place (c.program env) := by
  apply (spares_wheelCall _ _).bind
  intro _
  apply (spares_wheelCall _ _).bind
  intro _
  apply (spares_need _).bind
  intro _
  apply (spares_need _).bind
  intro _
  apply (spares_need _).bind
  intro _
  exact (spares_put h _).bind fun _ => trivial

theorem spares_start (place : Place) (c : StartCommand) : Spares place (c.enforce env) := by
  apply (spares_need _).bind
  intro _
  apply Spares.bind
  · unfold StartCommand.resolvePromotedBundle
    split
    · apply (spares_readDoc _ _).bind
      intro pointer
      cases pointer with
      | none => exact trivial
      | some pointer => exact spares_readDoc _ _
    · exact trivial
  · intro bundle
    split
    · exact (spares_need _).bind fun _ => trivial
    · split
      · exact trivial
      · exact trivial

theorem spares_promoteCommand {c : PromoteCommand} (h : place.trail ≠ some c.pointerStore) :
    Spares place (c.program env) := by
  apply (spares_readDoc _ _).bind
  intro bundle
  exact spares_promote h _

theorem spares_rollbackCommand {c : RollbackCommand} (h : place.trail ≠ some c.pointerStore) :
    Spares place (c.program env) := by
  unfold RollbackCommand.program
  cases c.checked with
  | none => exact spares_rollback h _
  | some found =>
    apply Spares.bind (spares_readDoc _ _)
    intro bundle
    exact spares_rollback h _

/-- A command that is not given the pointer store leaves its files alone. -/
theorem spares_command (h : place.trail = some root) {c : ReleaseCommand}
    (hc : ∀ root' t, c.repoints = some (root', t) → root' ≠ root) : Spares place (c.program env) := by
  have hne : place.trail ≠ none := by simp [h]
  have hother : ∀ root', root' ≠ root → place.trail ≠ some root' := by
    intro root' hroot heq
    exact hroot (Option.some.inj (heq.symm.trans h))
  cases c with
  | publish c => exact (spares_publish hne c).bind fun _ => trivial
  | publishWheel c => exact (spares_publishWheel hne c).bind fun _ => trivial
  | promote c => exact (spares_promoteCommand (hother _ (hc _ _ rfl))).bind fun _ => trivial
  | rollback c => exact (spares_rollbackCommand (hother _ (hc _ _ rfl))).bind fun _ => trivial
  | start c => exact (spares_start place c).bind fun _ => trivial

/-! ### Commands of one pointer store -/

theorem exec_map {answer : α → ReleaseAnswer} (p : ReleaseProg α) :
    exec releaseDisk d (do return answer (← p) : ReleaseProg ReleaseAnswer).run =
      ((exec releaseDisk d p.run).1, (exec releaseDisk d p.run).2.map answer) := by
  rw [alone_bind]
  cases h : exec releaseDisk d p.run with
  | mk d' r => cases r <;> rfl

variable (env) in
/-- A command has failed and left the disk, or has been one operation of the store. -/
def OneOperation (d : ReleaseDisk) (root : String) (s : PointerStore) (now : Int)
    (r : ReleaseDisk × Except ReleaseError PromotionRecord) : Prop :=
  (∃ e, r = (d, .error e)) ∨ ∃ record, ∃ op : PromotionOp, op.now = now ∧ op.record s = .ok record ∧
    r = (d.repointed env root record, .ok record)

/-- A promotion looks for its bundle, and is one operation of the store unless that fails. -/
theorem PointerFiles.promoteCommand_eq (h : PointerFiles env d root s) {c : PromoteCommand} (hroot : c.pointerStore = root) :
    exec releaseDisk d (c.program env).run = match d.bundle env c.bundleStore c.call.bundleDigest with
      | .error e => (d, .error e)
      | .ok bundle => match promoteRecord s { c.call with bundleExists := bundle.isSome } with
        | .ok record => (d.repointed env root record, .ok record)
        | .error e => (d, .error (.promotion e)) := by
  rw [PromoteCommand.program, alone_bind, exec_getBundle, hroot]
  cases d.bundle env c.bundleStore c.call.bundleDigest with
  | error e => rfl
  | ok bundle => exact h.exec_promote _

theorem PointerFiles.exec_promoteCommand (h : PointerFiles env d root s) {c : PromoteCommand}
    (hroot : c.pointerStore = root) :
    OneOperation env d root s c.call.now (exec releaseDisk d (c.program env).run) := by
  rw [h.promoteCommand_eq hroot]
  cases d.bundle env c.bundleStore c.call.bundleDigest with
  | error e => exact .inl ⟨e, rfl⟩
  | ok bundle =>
    dsimp only
    cases hrecord : promoteRecord s { c.call with bundleExists := bundle.isSome } with
    | error e => exact .inl ⟨_, rfl⟩
    | ok record => exact .inr ⟨record, .promote { c.call with bundleExists := bundle.isSome }, rfl, hrecord, rfl⟩

theorem PointerFiles.exec_rollbackCall (h : PointerFiles env d root s) (call : RollbackCall) :
    OneOperation env d root s call.now (exec releaseDisk d (fsctlRollback env root call).run) := by
  rw [h.exec_rollback]
  cases hrecord : rollbackRecord s call with
  | error e => exact .inl ⟨_, rfl⟩
  | ok record => exact .inr ⟨record, .rollback call, rfl, hrecord, rfl⟩

theorem PointerFiles.exec_rollbackCommand (h : PointerFiles env d root s) {c : RollbackCommand}
    (hroot : c.pointerStore = root) :
    OneOperation env d root s c.call.now (exec releaseDisk d (c.program env).run) := by
  unfold RollbackCommand.program
  cases c.checked with
  | none =>
    rw [hroot]
    exact h.exec_rollbackCall _
  | some found =>
    rw [alone_bind, exec_getBundle, hroot]
    cases d.bundle env found.1 found.2 with
    | error e => exact .inl ⟨e, rfl⟩
    | ok bundle => exact h.exec_rollbackCall _

theorem ReleaseCommand.accepted_elsewhere {c : ReleaseCommand} (hc : ∀ root' t, c.repoints = some (root', t) → root' ≠ root) :
    c.accepted env root d = none := by
  unfold ReleaseCommand.accepted
  cases htarget : c.repoints with
  | none => rfl
  | some target =>
    have hne := hc target.1 target.2 htarget
    split
    · rename_i heq _
      cases heq
      exact if_neg hne
    · rfl

/-- One command leaves the files of the store or adds one accepted operation. -/
theorem PointerFiles.command (h : PointerFiles env d root s) (c : ReleaseCommand) :
    (c.accepted env root d = none ∧ ∀ place, place.trail = some root → (c.after env d).docs place = d.docs place) ∨
    ∃ record, ∃ op : PromotionOp, c.repoints = some (root, op.now) ∧ op.record s = .ok record ∧
      c.accepted env root d = some record ∧ c.after env d = d.repointed env root record := by
  by_cases helse : ∀ root' t, c.repoints = some (root', t) → root' ≠ root
  · refine .inl ⟨ReleaseCommand.accepted_elsewhere helse, ?_⟩
    exact fun place hplace => (spares_command hplace helse).exec d
  · simp only [not_forall, not_not] at helse
    obtain ⟨root', t, hc, rfl⟩ := helse
    cases c with
    | publish c => cases hc
    | publishWheel c => cases hc
    | start c => cases hc
    | promote c =>
      cases hc
      unfold ReleaseCommand.accepted ReleaseCommand.answer ReleaseCommand.after ReleaseCommand.program
      rw [exec_map]
      rcases h.exec_promoteCommand rfl with ⟨e, hexec⟩ | ⟨record, op, hnow, hrecord, hexec⟩
      · rw [hexec]
        exact .inl ⟨rfl, fun _ _ => rfl⟩
      · rw [hexec]
        exact .inr ⟨record, op, by rw [hnow]; rfl, hrecord, if_pos rfl, rfl⟩
    | rollback c =>
      cases hc
      unfold ReleaseCommand.accepted ReleaseCommand.answer ReleaseCommand.after ReleaseCommand.program
      rw [exec_map]
      rcases h.exec_rollbackCommand rfl with ⟨e, hexec⟩ | ⟨record, op, hnow, hrecord, hexec⟩
      · rw [hexec]
        exact .inl ⟨rfl, fun _ _ => rfl⟩
      · rw [hexec]
        exact .inr ⟨record, op, by rw [hnow]; rfl, hrecord, if_pos rfl, rfl⟩

/-! ## The trail -/

/-- The time of one record is stamped before that of another. -/
def ReleaseEnv.Before (env : ReleaseEnv) (t t' : Int) : Prop :=
  env.stamp t < env.stamp t' ∧ (env.stamp t).length = (env.stamp t').length

theorem lt_append_of_lt : ∀ {a b : List Char}, a < b → a.length = b.length → ∀ x y : List Char, a ++ x < b ++ y
  | [], [], h, _, _, _ => absurd h (lt_irrefl _)
  | [], _ :: _, _, hlen, _, _ => by cases hlen
  | _ :: _, [], _, hlen, _, _ => by cases hlen
  | c :: a, c' :: b, h, hlen, x, y => by
    rcases List.cons_lt_cons_iff.mp h with hc | ⟨rfl, hab⟩
    · exact List.cons_lt_cons_iff.mpr (.inl hc)
    · exact List.cons_lt_cons_iff.mpr (.inr ⟨rfl, lt_append_of_lt hab (by simpa using hlen) x y⟩)

theorem recordName_lt {r r' : PromotionRecord} (h : env.Before r.createdAt r'.createdAt) :
    recordName env r < recordName env r' := by
  obtain ⟨hlt, hlen⟩ := h
  rw [String.lt_iff_toList_lt] at hlt ⊢
  unfold recordName
  simp only [String.toList_append, List.append_assoc]
  exact lt_append_of_lt hlt hlen _ _

theorem record_stage {op : PromotionOp} {record : PromotionRecord} (h : op.record s = .ok record) :
    record.stage ∈ stages := by
  rw [(recordOf h).stage]
  cases op with
  | promote call =>
    show call.stage ∈ stages
    rcases promoteRecord_ok h with ⟨hshadow, -⟩ | ⟨hlive, -⟩
    · rw [hshadow]
      decide
    · rw [hlive]
      decide
  | rollback call =>
    have hrecord : rollbackRecord s call = .ok record := h
    rw [rollbackRecord_eq] at hrecord
    obtain ⟨_, hallowed, -⟩ := bind_eq_ok.mp hrecord
    exact rollbackAllowed_ok hallowed

/-- The times of the commands that write to a pointer store. -/
def timesOf (root : String) (cmds : List ReleaseCommand) : List Int :=
  cmds.filterMap fun c => (c.repoints.filter fun target => target.1 = root).map Prod.snd

theorem timesOf_cons (root : String) (c : ReleaseCommand) (cmds : List ReleaseCommand) : timesOf root (c :: cmds) =
    ((c.repoints.filter fun target => target.1 = root).map Prod.snd).toList ++ timesOf root cmds := by
  unfold timesOf
  rw [List.filterMap_cons]
  cases (c.repoints.filter fun target => target.1 = root).map Prod.snd <;> rfl

theorem promotionRun_accepted {ops : List PromotionOp} {op : PromotionOp} {record : PromotionRecord}
    (h : op.record (promotionRun ops) = .ok record) : promotionRun (ops ++ [op]) = (promotionRun ops).repoint record := by
  have hstep : promotionStep (promotionRun ops) op = (promotionRun ops).repoint record := by
    unfold promotionStep PromotionOp.run
    rw [h]
  rw [promotionRun_append]
  exact hstep

/-- Commands leave the pointers of the operations that were accepted, and their records if the times are in order. -/
theorem PointerFiles.run : ∀ (cmds : List ReleaseCommand) {d : ReleaseDisk} {ops : List PromotionOp},
    PointerFiles env d root (promotionRun ops) →
    ∃ more, PointerFiles env (releasesAfter env d cmds) root (promotionRun more) ∧
      (promotionRun more).records = (promotionRun ops).records ++ acceptedRecords env root d cmds ∧
      (RecordFiles env d root (promotionRun ops) →
        ((promotionRun ops).records.map PromotionRecord.createdAt ++ timesOf root cmds).Pairwise env.Before →
        RecordFiles env (releasesAfter env d cmds) root (promotionRun more))
  | [], d, ops, h => ⟨ops, h, (List.append_nil _).symm, fun hr _ => hr⟩
  | c :: cmds, d, ops, h => by
    rcases h.command c with ⟨hnone, hkept⟩ | ⟨record, op, hc, hrecord, hsome, hafter⟩
    · obtain ⟨more, hpointers, hrecords, hfiles⟩ := PointerFiles.run cmds (h.congr hkept)
      refine ⟨more, hpointers, ?_, ?_⟩
      · rw [hrecords, acceptedRecords, hnone]
        rfl
      · intro hr htimes
        rw [timesOf_cons] at htimes
        apply hfiles (hr.congr hkept)
        exact htimes.sublist (List.Sublist.append_left (List.sublist_append_right _ _) _)
    · have hrun := promotionRun_accepted hrecord
      have hof := recordOf hrecord
      have hpointers : PointerFiles env (c.after env d) root (promotionRun (ops ++ [op])) := by
        rw [hafter, hrun]
        exact h.repointed (record_stage hrecord)
      obtain ⟨more, hpointers, hrecords, hfiles⟩ := PointerFiles.run cmds hpointers
      refine ⟨more, hpointers, ?_, ?_⟩
      · rw [hrecords, hrun, acceptedRecords, hsome, PointerStore.records_repoint, List.append_assoc]
        rfl
      · intro hr htimes
        rw [timesOf_cons] at htimes
        simp only [hc, Option.filter_some, decide_true, if_true, Option.map_some, Option.toList_some] at htimes
        have hnew : ∀ r ∈ (promotionRun ops).records, recordName env r < recordName env record := by
          intro r hr
          apply recordName_lt
          rw [hof.createdAt]
          exact (List.pairwise_append.mp htimes).2.2 _ (List.mem_map_of_mem hr) _ (by simp)
        apply hfiles
        · rw [hafter, hrun]
          exact hr.repointed hnew
        · rw [hrun, PointerStore.records_repoint, List.map_append, List.append_assoc]
          simpa [hof.createdAt] using htimes

/-- A pointer is what the last record of its environment and stage says. -/
theorem pointer_run (ops : List PromotionOp) (environment stage : String) :
    (promotionRun ops).getPointer environment stage =
      ((promotionRun ops).trail environment stage).getLast?.map PromotionRecord.pointer := by
  induction ops using List.reverseRecOn with
  | nil => rfl
  | append_singleton ops op ih =>
    have hrun : promotionRun (ops ++ [op]) = promotionStep (promotionRun ops) op := promotionRun_append ops [op]
    rw [hrun]
    rcases promotionStep_cases (promotionRun ops) op with ⟨-, h⟩ | ⟨record, -, -, h⟩
    · rw [h]
      exact ih
    · rw [h, PointerStore.getPointer_repoint, PointerStore.trail_repoint]
      simp only [Prod.mk.injEq]
      by_cases hes : record.env = environment ∧ record.stage = stage
      · rw [if_pos hes, if_pos hes, List.getLast?_concat]
        rfl
      · rw [if_neg hes, if_neg hes]
        exact ih

/-- `sorted(records_dir.glob("*.json"))` -/
structure Listing (d : ReleaseDisk) (root : String) (names : List String) : Prop where
  sorted : names.Pairwise (· < ·)
  mem : ∀ name, name ∈ names ↔ (d.docs (.record root name)).isSome

theorem RecordFiles.listing (h : RecordFiles env d root s) : Listing d root (s.records.map (recordName env)) where
  sorted := h.ordered
  mem name := by
    rw [Option.isSome_iff_exists, List.mem_map]
    constructor
    · intro hr
      obtain ⟨r, hr, rfl⟩ := hr
      exact ⟨_, (h.records _ _).mpr ⟨r, hr, rfl, rfl⟩⟩
    · intro hdoc
      obtain ⟨doc, hdoc⟩ := hdoc
      obtain ⟨r, hr, rfl, -⟩ := (h.records _ _).mp hdoc
      exact ⟨r, hr, rfl⟩

theorem Listing.unique {names names' : List String} (h : Listing d root names) (h' : Listing d root names') :
    names = names' := by
  have hperm : names.Perm names' := (List.perm_ext_iff_of_nodup h.sorted.nodup h'.sorted.nodup).mpr fun name =>
    (h.mem name).trans (h'.mem name).symm
  exact hperm.eq_of_pairwise (fun a b _ _ hab hba => absurd (hab.trans hba) (lt_irrefl a)) h.sorted h'.sorted

theorem exec_records : ∀ records : List PromotionRecord,
    (∀ r ∈ records, d.docs (recordPlace env root r) = some (env.text.dumps (r.toDict env.text))) →
    exec releaseDisk d (FilePointerStore.records env root (records.map (recordName env))).run = (d, .ok records)
  | [], _ => rfl
  | r :: records, h => by
    have hdoc : d.docs (.record root (recordName env r)) = some (env.text.dumps (r.toDict env.text)) := h r (by simp)
    have hreads : Wire.fromJson env.text (PromotionRecord.fromDict env.text.toWireCodec)
        (env.text.dumps (r.toDict env.text)) = .ok r :=
          (PromotionRecord.reads env.text r).fromJson (env.text.printable _)
    have hrest := exec_records records fun r' hr => h r' (List.mem_cons_of_mem _ hr)
    rw [List.map_cons, FilePointerStore.records, exec_readText, hdoc]
    dsimp only
    rw [hreads, alone_bind]
    simp only [needPy, Except.mapError, Raising.alone_need]
    rw [alone_bind_ok _ _ hrest]
    rfl

theorem RecordFiles.exec_records (h : RecordFiles env d root s) {names : List String} (hn : Listing d root names) :
    exec releaseDisk d (FilePointerStore.records env root names).run = (d, .ok s.records) := by
  rw [hn.unique h.listing]
  apply ClearFeature.exec_records
  intro r hr
  exact (h.records _ _).mpr ⟨r, hr, rfl, rfl⟩

theorem PointerFiles.empty (root : String) : PointerFiles env {} root (promotionRun []) := fun _ _ _ => rfl

theorem RecordFiles.empty (root : String) : RecordFiles env {} root (promotionRun []) where
  records name doc := by simp [promotionRun]
  ordered := List.Pairwise.nil

/-! ## Bundles stay -/

/-- A program that never changes a file once it is there. -/
def KeepsFile (place : Place) (p : ReleaseProg α) : Prop :=
  ∀ d : ReleaseDisk, (d.docs place).isSome → (exec releaseDisk d p.run).1.docs place = d.docs place

theorem Spares.keeps {p : ReleaseProg α} (h : Spares place p) : KeepsFile place p := fun d _ => h.exec d

theorem keepsFile_pure (a : α) : KeepsFile place (pure a) := fun _ _ => rfl

theorem KeepsFile.bind {p : ReleaseProg α} {f : α → ReleaseProg β} (hp : KeepsFile place p) (hf : ∀ a, KeepsFile place (f a)) :
    KeepsFile place (p >>= f) := by
  intro d hd
  have hfirst := hp d hd
  rw [alone_bind]
  cases hexec : exec releaseDisk d p.run with
  | mk d' r =>
    rw [hexec] at hfirst
    have hfirst' : d'.docs place = d.docs place := hfirst
    cases r with
    | error e => exact hfirst'
    | ok a =>
      have hsecond := hf a d' (by rw [hfirst']; exact hd)
      exact hsecond.trans hfirst'

variable (env) in
def ReleaseDisk.withBundle (d : ReleaseDisk) (root : String) (b : RegistryBundle) : ReleaseDisk :=
  { d with
    docs := Function.update d.docs (bundlePlace root b.bundleDigest) (some (env.text.dumps (b.toDict env.text))) }

theorem exec_put (d : ReleaseDisk) (root : String) (b : RegistryBundle) :
    exec releaseDisk d (FileBundleStore.put env root b).run = match d.bundle env root b.bundleDigest with
      | .error e => (d, .error e)
      | .ok none => (d.withBundle env root b, .ok ())
      | .ok (some existing) => (d, if existing.definitionalKey ≠ b.definitionalKey then .error (.other (.valueError
          s!"bundle digest {b.bundleDigest} already published with different content; registry bundles are immutable"))
          else .ok ()) := by
  rw [FileBundleStore.put, alone_bind, exec_getBundle]
  cases d.bundle env root b.bundleDigest with
  | error e => rfl
  | ok found =>
    cases found with
    | none => rfl
    | some existing =>
      dsimp only
      split
      · rfl
      · rfl

theorem keepsFile_put (root : String) (b : RegistryBundle) : KeepsFile place (FileBundleStore.put env root b) := by
  intro d hd
  rw [exec_put]
  cases hbundle : d.bundle env root b.bundleDigest with
  | error e => rfl
  | ok found =>
    cases found with
    | some existing => rfl
    | none =>
      -- what is written was not there
      have hne : place ≠ bundlePlace root b.bundleDigest := by
        intro heq
        obtain ⟨doc, hdoc⟩ := Option.isSome_iff_exists.mp hd
        rw [heq] at hdoc
        rw [ReleaseDisk.bundle, hdoc] at hbundle
        dsimp only at hbundle
        cases hread : (Wire.fromJson env.text (RegistryBundle.fromDict env.text.toWireCodec) doc).mapError
            ReleaseError.other with
        | error e =>
          rw [hread] at hbundle
          cases hbundle
        | ok b' =>
          rw [hread] at hbundle
          cases hbundle
      exact Function.update_of_ne hne _ _

/-- A bundle that is there is there for good. -/
theorem keepsFile_command (root name : String) (c : ReleaseCommand) : KeepsFile (.bundle root name) (c.program env) := by
  have htrail : ∀ root', (Place.bundle root name).trail ≠ some root' := by
    intro root' h
    cases h
  cases c with
  | publish c =>
    apply KeepsFile.bind (p := c.program env)
    · apply (spares_need _).keeps.bind
      intro b
      exact (keepsFile_put _ _).bind fun _ => keepsFile_pure _
    · exact fun _ => keepsFile_pure _
  | publishWheel c =>
    apply KeepsFile.bind (p := c.program env)
    · apply (spares_wheelCall _ _).keeps.bind
      intro release
      apply (spares_wheelCall _ _).keeps.bind
      intro _
      apply (spares_need _).keeps.bind
      intro storageKey
      apply (spares_need _).keeps.bind
      intro filename
      apply (spares_need _).keeps.bind
      intro b
      exact (keepsFile_put _ _).bind fun _ => keepsFile_pure _
    · exact fun _ => keepsFile_pure _
  | promote c => exact (spares_promoteCommand (htrail _)).keeps.bind fun _ => keepsFile_pure _
  | rollback c => exact (spares_rollbackCommand (htrail _)).keeps.bind fun _ => keepsFile_pure _
  | start c => exact (spares_start _ c).keeps.bind fun _ => keepsFile_pure _

theorem bundle_kept : ∀ (cmds : List ReleaseCommand) {d : ReleaseDisk} {root digest : String} {b : RegistryBundle},
    d.bundle env root digest = .ok (some b) → (releasesAfter env d cmds).bundle env root digest = .ok (some b)
  | [], _, _, _, _, h => h
  | c :: cmds, d, root, digest, b, h => by
    apply bundle_kept cmds
    have hthere : (d.docs (bundlePlace root digest)).isSome := by
      cases hdoc : d.docs (bundlePlace root digest) with
      | some doc => rfl
      | none =>
        rw [ReleaseDisk.bundle, hdoc] at h
        cases h
    have hkept : (c.after env d).docs (bundlePlace root digest) = d.docs (bundlePlace root digest) :=
      keepsFile_command root _ c d hthere
    rw [ReleaseDisk.bundle, hkept]
    exact h

/-! ## Taking turns -/

/-- A schedule that lets each command finish before the next begins. -/
theorem releases_in_turn {ι : Type} [DecidableEq ι] (env : ReleaseEnv) (commands : ι → ReleaseCommand) (turns : List ι)
    (hn : turns.Nodup) : ∃ schedule,
      (releases env commands schedule).state = releasesAfter env {} (turns.map commands) ∧
      (∀ i ∉ turns, (releases env commands schedule).running i = ((commands i).program env).run) ∧
      ∀ before i rest, turns = before ++ i :: rest → result? ((releases env commands schedule).running i) =
        some ((commands i).answer env (releasesAfter env {} (before.map commands))) := by
  induction turns using List.reverseRecOn with
  | nil =>
    refine ⟨[], rfl, fun i _ => rfl, ?_⟩
    intro before i rest h
    cases before <;> cases h
  | append_singleton turns i ih =>
    obtain ⟨hturns, -, hnew⟩ := List.nodup_append.mp hn
    have hi : i ∉ turns := fun hmem => hnew i hmem i (by simp) rfl
    obtain ⟨schedule, hstate, hwaiting, hdone⟩ := ih hturns
    obtain ⟨n, hrun⟩ := run_alone releaseDisk i _ (releases env commands schedule) (hwaiting i hi)
    have hw : releases env commands (schedule ++ List.replicate n i) =
        { state := (exec releaseDisk (releases env commands schedule).state ((commands i).program env).run).1
          running := Function.update (releases env commands schedule).running i
            (.ret (exec releaseDisk (releases env commands schedule).state ((commands i).program env).run).2) } := by
      unfold releases at hrun ⊢
      rw [run_append]
      exact hrun
    refine ⟨schedule ++ List.replicate n i, ?_, ?_, ?_⟩
    · rw [hw, hstate, List.map_append, releasesAfter, releasesAfter, Runs.run_append]
      rfl
    · intro j hj
      rw [List.mem_append, not_or] at hj
      rw [hw]
      dsimp only
      rw [Function.update_of_ne (by simpa using hj.2)]
      exact hwaiting j hj.1
    · intro before j rest hsplit
      rw [hw]
      dsimp only
      rcases List.eq_nil_or_concat rest with rfl | ⟨rest', k, rfl⟩
      · obtain ⟨rfl, rfl⟩ : turns = before ∧ i = j := by simpa using hsplit
        rw [Function.update_self, hstate]
        rfl
      · rw [List.concat_eq_append, ← List.cons_append, ← List.append_assoc] at hsplit
        obtain ⟨hbefore, -⟩ := List.append_inj' hsplit rfl
        have hne : j ≠ i := by
          intro heq
          apply hi
          rw [hbefore, ← heq]
          simp
        rw [Function.update_of_ne hne]
        exact hdone before j rest' hbefore

end

end ClearFeature
