import ClearFeature.Lib.Dict
import ClearFeature.Lib.Runs
import ClearFeature.Value

/-!
# Promotion governance (`fs_core/registry/promotion.py`)

An environment serves the bundle its pointer names. Promotions and rollbacks
repoint under approval rules, and each one leaves an audit record. A day is
86 400 000 000 microseconds.
-/

namespace ClearFeature

def stageShadow : String := "shadow"

def stageLive : String := "live"

def stages : List String := [stageShadow, stageLive]

structure ApprovalProfile where
  name : String
  requiredApprovers : Nat
  shadowMinDays : Nat
  deriving DecidableEq

def profileBank : ApprovalProfile := ⟨"bank", 2, 7⟩

def profileEnergy : ApprovalProfile := ⟨"energy", 1, 0⟩

def profiles : List (String × ApprovalProfile) := [(profileBank.name, profileBank), (profileEnergy.name, profileEnergy)]

def usPerDay : Int := 86400000000

inductive PromotionError where
  | unknownBundle (digest : String)
  | unknownStage (stage : String)
  | noReason
  | noProfile
  | unknownProfile (profile : String)
  | duplicateApprover
  | tooFewApprovers (profile : ApprovalProfile) (got : Nat)
  | noOverrideReason
  | notInShadow
  | shadowTooYoung (age : Int) (profile : ApprovalProfile)
  | noPointer (env stage : String)
  | noPreviousDigest
  | noTarget
  deriving DecidableEq

structure EnvironmentPointer where
  env : String
  stage : String
  bundleDigest : String
  updatedAt : Int
  shadowStartedAt : Option Int := none
  previousDigest : Option String := none
  deriving DecidableEq

inductive PromotionAction where
  | promote
  | rollback
  deriving DecidableEq

structure PromotionRecord where
  promotionId : String
  action : PromotionAction
  env : String
  stage : String
  bundleDigest : String
  previousDigest : Option String
  actor : String
  reason : String
  createdAt : Int
  approvedBy : List String := []
  profile : Option String := none
  shadowStartedAt : Option Int := none
  shadowAgeOverride : Bool := false
  overrideReason : Option String := none
  deriving DecidableEq

/-! ## The pointer store -/

structure PointerStore where
  pointers : List ((String × String) × EnvironmentPointer) := []
  records : List PromotionRecord := []

namespace PointerStore

def getPointer (s : PointerStore) (env stage : String) : Option EnvironmentPointer := Dict.get? s.pointers (env, stage)

def setPointer (s : PointerStore) (pointer : EnvironmentPointer) : PointerStore :=
  { s with pointers := Dict.set s.pointers (pointer.env, pointer.stage) pointer }

def appendRecord (s : PointerStore) (record : PromotionRecord) : PointerStore :=
  { s with records := s.records ++ [record] }

def digest (s : PointerStore) (env stage : String) : Option String :=
  (s.getPointer env stage).map EnvironmentPointer.bundleDigest

/-- What both operations do with an accepted record: the pointer first, then the record. -/
def repoint (s : PointerStore) (record : PromotionRecord) : PointerStore :=
  (s.setPointer {
    env := record.env
    stage := record.stage
    bundleDigest := record.bundleDigest
    updatedAt := record.createdAt
    shadowStartedAt := record.shadowStartedAt
    previousDigest := record.previousDigest }).appendRecord record

theorem getPointer_repoint (s : PointerStore) (record : PromotionRecord) (env stage : String) :
    (s.repoint record).getPointer env stage =
      if (record.env, record.stage) = (env, stage) then
        some ⟨record.env, record.stage, record.bundleDigest, record.createdAt, record.shadowStartedAt, record.previousDigest⟩
      else s.getPointer env stage :=
  Dict.get?_set _ _ _ _

@[simp] theorem records_repoint (s : PointerStore) (record : PromotionRecord) :
    (s.repoint record).records = s.records ++ [record] := rfl

end PointerStore

/-! ## Promotion -/

def uniqueApprovers (approvedBy : List String) : Except PromotionError (List String) :=
  let cleaned := approvedBy.filter fun a => !isBlank a
  if cleaned.Nodup then .ok cleaned else .error .duplicateApprover

structure PromoteCall where
  promotionId : String
  bundleExists : Bool
  bundleDigest : String
  env : String
  stage : String
  actor : String
  reason : String
  now : Int
  profile : Option String := none
  approvedBy : List String := []
  shadowAgeOverride : Bool := false
  overrideReason : Option String := none

/-- When the bundle went into shadow, if it is what the shadow pointer names. -/
def shadowStart (s : PointerStore) (env digest : String) : Option Int :=
  match s.getPointer env stageShadow with
  | some shadow => if shadow.bundleDigest = digest then shadow.shadowStartedAt else none
  | none => none

/-- The soak of a live promotion, or the reason to go without. -/
def checkSoak (call : PromoteCall) (prof : ApprovalProfile) (started : Option Int) : Except PromotionError Unit :=
  if call.shadowAgeOverride then
    match call.overrideReason with
    | none => .error .noOverrideReason
    | some reason => if isBlank reason then .error .noOverrideReason else .ok ()
  else
    match started with
    | none => .error .notInShadow
    | some t =>
      if call.now - t < prof.shadowMinDays * usPerDay then .error (.shadowTooYoung (call.now - t) prof) else .ok ()

def promoteLive (s : PointerStore) (call : PromoteCall) : Except PromotionError PromotionRecord :=
  match call.profile with
  | none => .error .noProfile
  | some profile =>
    match Dict.get? profiles profile with
    | none => .error (.unknownProfile profile)
    | some prof => do
      let approvers ← uniqueApprovers call.approvedBy
      if approvers.length < prof.requiredApprovers then .error (.tooFewApprovers prof approvers.length)
      else do
        let started := shadowStart s call.env call.bundleDigest
        checkSoak call prof started
        .ok {
          promotionId := call.promotionId
          action := .promote
          env := call.env
          stage := stageLive
          bundleDigest := call.bundleDigest
          previousDigest := s.digest call.env stageLive
          actor := call.actor
          reason := call.reason
          createdAt := call.now
          approvedBy := approvers
          profile := some prof.name
          shadowStartedAt := started
          shadowAgeOverride := call.shadowAgeOverride
          overrideReason := if call.shadowAgeOverride then call.overrideReason else none }

def promoteShadow (s : PointerStore) (call : PromoteCall) : PromotionRecord where
  promotionId := call.promotionId
  action := .promote
  env := call.env
  stage := stageShadow
  bundleDigest := call.bundleDigest
  previousDigest := s.digest call.env stageShadow
  actor := call.actor
  reason := call.reason
  createdAt := call.now
  shadowStartedAt := some call.now

def promoteRecord (s : PointerStore) (call : PromoteCall) : Except PromotionError PromotionRecord :=
  if call.bundleExists = false then .error (.unknownBundle call.bundleDigest)
  else if call.stage ∉ stages then .error (.unknownStage call.stage)
  else if isBlank call.reason then .error .noReason
  else if call.stage = stageShadow then .ok (promoteShadow s call)
  else promoteLive s call

/-! ## Rollback -/

structure RollbackCall where
  promotionId : String
  env : String
  actor : String
  reason : String
  now : Int
  stage : String := stageLive
  toPrevious : Bool := false
  bundleDigest : Option String := none
  bundleExists : Option Bool := none

/-- The digest a rollback asks for, from the pointer it finds. -/
def rollbackTarget (call : RollbackCall) (current : EnvironmentPointer) : Except PromotionError String :=
  if call.toPrevious then
    match current.previousDigest with
    | none => .error .noPreviousDigest
    | some digest => .ok digest
  else
    match call.bundleDigest with
    | none => .error .noTarget
    | some digest =>
      if digest = "" then .error .noTarget
      else if call.bundleExists = some false then .error (.unknownBundle digest)
      else .ok digest

def rollbackRecord (s : PointerStore) (call : RollbackCall) : Except PromotionError PromotionRecord :=
  if isBlank call.reason then .error .noReason
  else if call.stage ∉ stages then .error (.unknownStage call.stage)
  else
    match s.getPointer call.env call.stage with
    | none => .error (.noPointer call.env call.stage)
    | some current => do
      let target ← rollbackTarget call current
      .ok {
        promotionId := call.promotionId
        action := .rollback
        env := call.env
        stage := call.stage
        bundleDigest := target
        previousDigest := some current.bundleDigest
        actor := call.actor
        reason := call.reason
        createdAt := call.now
        shadowStartedAt := if call.stage = stageShadow then current.shadowStartedAt else none }

/-! ## Sequences of operations -/

inductive PromotionOp where
  | promote (call : PromoteCall)
  | rollback (call : RollbackCall)

namespace PromotionOp

def env : PromotionOp → String
  | .promote call => call.env
  | .rollback call => call.env

def stage : PromotionOp → String
  | .promote call => call.stage
  | .rollback call => call.stage

def now : PromotionOp → Int
  | .promote call => call.now
  | .rollback call => call.now

def record (s : PointerStore) : PromotionOp → Except PromotionError PromotionRecord
  | .promote call => promoteRecord s call
  | .rollback call => rollbackRecord s call

/-- What the call returns or raises, and the store it leaves. -/
def run (s : PointerStore) (op : PromotionOp) : Except PromotionError PromotionRecord × PointerStore :=
  match op.record s with
  | .error e => (.error e, s)
  | .ok record => (.ok record, s.repoint record)

def Accepted (s : PointerStore) (op : PromotionOp) : Prop := ∃ record, op.record s = .ok record

end PromotionOp

def promotionStep (s : PointerStore) (op : PromotionOp) : PointerStore := (op.run s).2

/-- The store after a sequence of operations on an empty one. -/
def promotionRun (ops : List PromotionOp) : PointerStore := Runs.run promotionStep {} ops

/-! ## What an accepted record says -/

/-- An accepted operation records its own environment, stage and time, and the digest that was in force. -/
structure RecordOf (s : PointerStore) (op : PromotionOp) (record : PromotionRecord) : Prop where
  env : record.env = op.env
  stage : record.stage = op.stage
  createdAt : record.createdAt = op.now
  previous : record.previousDigest = s.digest op.env op.stage

theorem promoteLive_ok {s : PointerStore} {call : PromoteCall} {record : PromotionRecord}
    (h : promoteLive s call = .ok record) :
    ∃ profile prof, call.profile = some profile ∧ Dict.get? profiles profile = some prof ∧
      checkSoak call prof (shadowStart s call.env call.bundleDigest) = .ok () ∧ record.env = call.env ∧
      record.stage = stageLive ∧ record.createdAt = call.now ∧ record.bundleDigest = call.bundleDigest ∧
      record.previousDigest = s.digest call.env stageLive := by
  unfold promoteLive at h
  cases hp : call.profile with
  | none =>
    rw [hp] at h
    cases h
  | some profile =>
    rw [hp] at h
    dsimp only at h
    cases hprof : Dict.get? profiles profile with
    | none =>
      rw [hprof] at h
      cases h
    | some prof =>
      rw [hprof] at h
      dsimp only at h
      obtain ⟨approvers, -, h⟩ := bind_eq_ok.mp h
      split at h
      · cases h
      · obtain ⟨_, hsoak, h⟩ := bind_eq_ok.mp h
        cases h
        exact ⟨profile, prof, rfl, hprof, hsoak, rfl, rfl, rfl, rfl, rfl⟩

theorem promoteRecord_ok {s : PointerStore} {call : PromoteCall} {record : PromotionRecord}
    (h : promoteRecord s call = .ok record) :
    call.stage = stageShadow ∧ record = promoteShadow s call ∨
    call.stage = stageLive ∧ promoteLive s call = .ok record := by
  unfold promoteRecord at h
  split at h
  · cases h
  · split at h
    · cases h
    · rename_i hstage
      split at h
      · cases h
      · split at h
        · rename_i hshadow
          cases h
          exact .inl ⟨hshadow, rfl⟩
        · rename_i hshadow
          have hmem : call.stage ∈ stages := not_not.mp hstage
          simp only [stages, List.mem_cons, List.not_mem_nil, or_false] at hmem
          exact .inr ⟨hmem.resolve_left hshadow, h⟩

theorem rollbackRecord_ok {s : PointerStore} {call : RollbackCall} {record : PromotionRecord}
    (h : rollbackRecord s call = .ok record) :
    ∃ current, s.getPointer call.env call.stage = some current ∧ rollbackTarget call current = .ok record.bundleDigest ∧
      record.env = call.env ∧ record.stage = call.stage ∧ record.createdAt = call.now ∧
      record.previousDigest = some current.bundleDigest ∧
      record.shadowStartedAt = if call.stage = stageShadow then current.shadowStartedAt else none := by
  unfold rollbackRecord at h
  split at h
  · cases h
  · split at h
    · cases h
    · cases hc : s.getPointer call.env call.stage with
      | none =>
        rw [hc] at h
        cases h
      | some current =>
        rw [hc] at h
        dsimp only at h
        obtain ⟨target, ht, h⟩ := bind_eq_ok.mp h
        cases h
        exact ⟨current, rfl, ht, rfl, rfl, rfl, rfl, rfl⟩

theorem recordOf {s : PointerStore} {op : PromotionOp} {record : PromotionRecord} (h : op.record s = .ok record) :
    RecordOf s op record := by
  cases op with
  | promote call =>
    rcases promoteRecord_ok h with ⟨hs, rfl⟩ | ⟨hs, hl⟩
    · refine ⟨rfl, hs.symm, rfl, ?_⟩
      show s.digest call.env stageShadow = s.digest call.env call.stage
      rw [hs]
    · obtain ⟨_, _, -, -, -, henv, hstage, hnow, -, hprev⟩ := promoteLive_ok hl
      refine ⟨henv, hstage.trans hs.symm, hnow, ?_⟩
      show record.previousDigest = s.digest call.env call.stage
      rw [hprev, hs]
  | rollback call =>
    obtain ⟨current, hc, -, henv, hstage, hnow, hprev, -⟩ := rollbackRecord_ok h
    refine ⟨henv, hstage, hnow, ?_⟩
    show record.previousDigest = s.digest call.env call.stage
    unfold PointerStore.digest
    rw [hc, hprev]
    rfl

/-- Everything one operation can do to the store. -/
theorem promotionStep_cases (s : PointerStore) (op : PromotionOp) :
    (¬ op.Accepted s ∧ promotionStep s op = s) ∨
    ∃ record, op.record s = .ok record ∧ RecordOf s op record ∧ promotionStep s op = s.repoint record := by
  unfold promotionStep PromotionOp.run
  cases h : op.record s with
  | error e =>
    refine .inl ⟨?_, rfl⟩
    rintro ⟨record, hr⟩
    rw [h] at hr
    cases hr
  | ok record => exact .inr ⟨record, rfl, recordOf h, rfl⟩

end ClearFeature
