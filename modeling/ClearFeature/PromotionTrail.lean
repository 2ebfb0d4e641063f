import ClearFeature.Promotion
import Mathlib.Data.List.Induction

/-!
# The promotion audit trail

The records of one environment and stage form a chain that ends at the digest in
force.
-/

namespace ClearFeature

namespace PointerStore

def trail (s : PointerStore) (env stage : String) : List PromotionRecord :=
  s.records.filter fun record => record.env = env ∧ record.stage = stage

/-- Each record's previous digest is the one before; `prev` is the digest before the first. -/
def Chained : Option String → List PromotionRecord → Prop
  | _, [] => True
  | prev, record :: records => record.previousDigest = prev ∧ Chained (some record.bundleDigest) records

def lastDigest : Option String → List PromotionRecord → Option String
  | prev, [] => prev
  | _, record :: records => lastDigest (some record.bundleDigest) records

theorem chained_append {record : PromotionRecord} : ∀ {records : List PromotionRecord} {prev : Option String},
    Chained prev records → record.previousDigest = lastDigest prev records → Chained prev (records ++ [record])
  | [], _, _, hp => ⟨hp, trivial⟩
  | _ :: _, _, h, hp => ⟨h.1, chained_append h.2 hp⟩

theorem lastDigest_append {record : PromotionRecord} : ∀ (records : List PromotionRecord) {prev : Option String},
    lastDigest prev (records ++ [record]) = some record.bundleDigest
  | [], _ => rfl
  | _ :: records, _ => lastDigest_append records

theorem lastDigest_eq : ∀ (records : List PromotionRecord) (prev : Option String),
    lastDigest prev records = (records.getLast?.map PromotionRecord.bundleDigest).or prev
  | [], prev => by simp [lastDigest]
  | [record], prev => by simp [lastDigest]
  | _ :: record :: records, prev => by
    rw [lastDigest, lastDigest_eq (record :: records), List.getLast?_cons_cons]
    cases h : (record :: records).getLast? with
    | none => simp at h
    | some last => rfl

/-- The pointers stand at the ends of the chains. -/
structure ChainInv (s : PointerStore) : Prop where
  chained : ∀ env stage, Chained none (s.trail env stage)
  digest : ∀ env stage, s.digest env stage = lastDigest none (s.trail env stage)

theorem ChainInv.initial : ChainInv {} := ⟨fun _ _ => trivial, fun _ _ => rfl⟩

theorem digest_repoint (s : PointerStore) (record : PromotionRecord) (env stage : String) :
    (s.repoint record).digest env stage =
      if record.env = env ∧ record.stage = stage then some record.bundleDigest else s.digest env stage := by
  unfold digest
  rw [getPointer_repoint]
  simp only [Prod.mk.injEq]
  split <;> rfl

theorem trail_repoint (s : PointerStore) (record : PromotionRecord) (env stage : String) :
    (s.repoint record).trail env stage =
      if record.env = env ∧ record.stage = stage then s.trail env stage ++ [record] else s.trail env stage := by
  unfold trail
  rw [records_repoint, List.filter_append]
  by_cases h : record.env = env ∧ record.stage = stage
  · simp [h]
  · simp [h]

theorem ChainInv.step {s : PointerStore} (hi : ChainInv s) (op : PromotionOp) : ChainInv (promotionStep s op) := by
  rcases promotionStep_cases s op with ⟨-, h⟩ | ⟨record, -, hof, h⟩
  · rw [h]
    exact hi
  · rw [h]
    constructor
    · intro env stage
      rw [trail_repoint]
      by_cases hes : record.env = env ∧ record.stage = stage
      · rw [if_pos hes]
        refine chained_append (hi.chained env stage) ?_
        rw [hof.previous, ← hof.env, ← hof.stage, hes.1, hes.2]
        exact hi.digest env stage
      · rw [if_neg hes]
        exact hi.chained env stage
    · intro env stage
      rw [trail_repoint, digest_repoint]
      by_cases hes : record.env = env ∧ record.stage = stage
      · rw [if_pos hes, if_pos hes, lastDigest_append]
      · rw [if_neg hes, if_neg hes]
        exact hi.digest env stage

end PointerStore

/-! ## Runs -/

theorem promotionRun_append (ops ops' : List PromotionOp) :
    promotionRun (ops ++ ops') = Runs.run promotionStep (promotionRun ops) ops' := Runs.run_append _ _ _ _

theorem chain_run (ops : List PromotionOp) : (promotionRun ops).ChainInv := by
  induction ops using List.reverseRecOn with
  | nil => exact PointerStore.ChainInv.initial
  | append_singleton ops op ih =>
    rw [promotionRun_append]
    exact ih.step op

def PromotionOp.Repoints (op : PromotionOp) (s : PointerStore) (env stage : String) : Prop :=
  op.Accepted s ∧ op.env = env ∧ op.stage = stage

theorem pointer_kept (env stage : String) : ∀ (ops : List PromotionOp) (s : PointerStore),
    (∀ before op after, ops = before ++ op :: after → ¬ op.Repoints (Runs.run promotionStep s before) env stage) →
    (Runs.run promotionStep s ops).getPointer env stage = s.getPointer env stage
  | [], s, _ => rfl
  | op :: ops, s, h => by
    rw [Runs.run_cons, pointer_kept env stage ops (promotionStep s op) ?_]
    · rcases promotionStep_cases s op with ⟨-, hs⟩ | ⟨record, hr, hof, hs⟩
      · rw [hs]
      · rw [hs, PointerStore.getPointer_repoint, if_neg]
        intro he
        simp only [Prod.mk.injEq] at he
        refine h [] op ops rfl ⟨⟨record, hr⟩, ?_, ?_⟩
        · rw [← hof.env, he.1]
        · rw [← hof.stage, he.2]
    · intro before op' after hsplit
      have := h (op :: before) op' after (by rw [hsplit]; rfl)
      exact this

/-- Operation `op` is the last one of `ops` to repoint the environment and stage, `before` are those before it. -/
structure LastRepoint (ops before : List PromotionOp) (op : PromotionOp) (env stage : String) : Prop where
  repoints : op.Repoints (promotionRun before) env stage
  last : ∃ after, ops = before ++ op :: after ∧ ∀ mid op' rest, after = mid ++ op' :: rest →
    ¬ op'.Repoints (promotionRun (before ++ op :: mid)) env stage

/-- The pointer remembers the digest that was in force before the last repointing. -/
theorem previous_digest {ops before : List PromotionOp} {op : PromotionOp} {env stage : String}
    (h : LastRepoint ops before op env stage) :
    ((promotionRun ops).getPointer env stage).bind EnvironmentPointer.previousDigest =
      (promotionRun before).digest env stage := by
  obtain ⟨⟨⟨record, hr⟩, henv, hstage⟩, after, rfl, hlast⟩ := h
  have hrun : promotionRun (before ++ op :: after) =
      Runs.run promotionStep (promotionStep (promotionRun before) op) after := by
    rw [promotionRun_append, Runs.run_cons]
  have hkept := pointer_kept env stage after (promotionStep (promotionRun before) op) ?_
  · rw [hrun, hkept]
    rcases promotionStep_cases (promotionRun before) op with ⟨hn, -⟩ | ⟨record', -, hof, hs⟩
    · exact absurd ⟨record, hr⟩ hn
    · have he : (record'.env, record'.stage) = (env, stage) := by rw [hof.env, hof.stage, henv, hstage]
      rw [hs, PointerStore.getPointer_repoint, if_pos he, Option.bind_some, hof.previous, henv, hstage]
  · intro mid op' rest hsplit
    have h := hlast mid op' rest hsplit
    rw [promotionRun_append] at h
    exact h

/-- The audit trail is a chain up to the digest in force, a rollback to the previous digest restores what was in force
before the last accepted operation, and a rejected call changes nothing. -/
theorem promotion_chain (ops : List PromotionOp) (env stage : String) :
    PointerStore.Chained none ((promotionRun ops).trail env stage) ∧
    (promotionRun ops).digest env stage =
      ((promotionRun ops).trail env stage).getLast?.map PromotionRecord.bundleDigest ∧
    (∀ (call : RollbackCall) (before : List PromotionOp) (op : PromotionOp), call.toPrevious = true → call.env = env →
      call.stage = stage → (PromotionOp.rollback call).Accepted (promotionRun ops) → LastRepoint ops before op env stage →
      (promotionRun (ops ++ [.rollback call])).digest env stage = (promotionRun before).digest env stage) ∧
    ∀ (op : PromotionOp) (error : PromotionError), (op.run (promotionRun ops)).1 = .error error →
      (op.run (promotionRun ops)).2 = promotionRun ops := by
  have hi := chain_run ops
  refine ⟨hi.chained env stage, ?_, ?_, ?_⟩
  · rw [hi.digest env stage, PointerStore.lastDigest_eq]
    simp
  · intro call before op hprev henv hstage hacc hlast
    obtain ⟨record, hr⟩ := hacc
    obtain ⟨current, hc, ht, -⟩ := rollbackRecord_ok hr
    have hp := previous_digest hlast
    subst henv
    subst hstage
    rw [hc, Option.bind_some] at hp
    rw [promotionRun_append]
    show (promotionStep (promotionRun ops) (.rollback call)).digest call.env call.stage = _
    rcases promotionStep_cases (promotionRun ops) (.rollback call) with ⟨hn, -⟩ | ⟨record', hr', hof, hs⟩
    · exact absurd ⟨record, hr⟩ hn
    · cases hr.symm.trans hr'
      have he : record.env = call.env ∧ record.stage = call.stage := ⟨hof.env, hof.stage⟩
      rw [hs, PointerStore.digest_repoint, if_pos he, ← hp]
      unfold rollbackTarget at ht
      rw [if_pos hprev] at ht
      cases hd : current.previousDigest with
      | none =>
        rw [hd] at ht
        cases ht
      | some digest =>
        rw [hd] at ht
        cases ht
        rfl
  · intro op error h
    unfold PromotionOp.run at h ⊢
    cases hr : op.record (promotionRun ops) with
    | error e => rfl
    | ok record =>
      rw [hr] at h
      cases h

/-! ## A promotion taken back -/

def shadowPromotion (id digest : String) (now : Int) : PromotionOp := .promote {
  promotionId := id, bundleExists := true, bundleDigest := digest, env := "prod", stage := stageShadow
  actor := "ops", reason := "weekly", now }

def takeBack : RollbackCall where
  promotionId := "prm_3"
  env := "prod"
  actor := "ops"
  reason := "drift"
  now := 3
  stage := stageShadow
  toPrevious := true

theorem promotion_chain_back :
    let ops := [shadowPromotion "prm_1" "sha256:a" 1, shadowPromotion "prm_2" "sha256:b" 2]
    PointerStore.Chained none ((promotionRun (ops ++ [.rollback takeBack])).trail "prod" stageShadow) ∧
      ((promotionRun (ops ++ [.rollback takeBack])).trail "prod" stageShadow).map PromotionRecord.bundleDigest =
        ["sha256:a", "sha256:b", "sha256:a"] ∧
      (promotionRun (ops ++ [.rollback takeBack])).digest "prod" stageShadow = some "sha256:a" := by
  intro ops
  have hfirst : (promotionRun [shadowPromotion "prm_1" "sha256:a" 1]).digest "prod" stageShadow = some "sha256:a" := by
    decide +kernel
  have haccepted : (PromotionOp.rollback takeBack).Accepted (promotionRun ops) :=
    ⟨okGet ((PromotionOp.rollback takeBack).record (promotionRun ops)) (by decide +kernel), eq_ok_okGet _ _⟩
  have hlast : LastRepoint ops [shadowPromotion "prm_1" "sha256:a" 1] (shadowPromotion "prm_2" "sha256:b" 2) "prod"
      stageShadow := by
    refine ⟨⟨⟨okGet ((shadowPromotion "prm_2" "sha256:b" 2).record
      (promotionRun [shadowPromotion "prm_1" "sha256:a" 1])) (by decide +kernel), eq_ok_okGet _ _⟩, rfl, rfl⟩, [], rfl, ?_⟩
    intro mid op rest h
    cases mid <;> cases h
  refine ⟨(promotion_chain (ops ++ [.rollback takeBack]) "prod" stageShadow).1, by decide +kernel, ?_⟩
  exact ((promotion_chain ops "prod" stageShadow).2.2.1 takeBack _ _ rfl rfl rfl haccepted hlast).trans hfirst

end ClearFeature
