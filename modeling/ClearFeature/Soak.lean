import ClearFeature.PromotionTrail

/-!
# The shadow soak

A live promotion is judged by the time the shadow pointer carries. A promotion
to shadow starts that time; a rollback of the shadow stage carries it along,
also to another bundle.
-/

namespace ClearFeature

/-- The digest the shadow pointer names when the next operation is made, for operations later than `since`. -/
def ShadowedSince (ops : List PromotionOp) (env digest : String) (since : Int) : Prop :=
  ∀ before op after, ops = before ++ op :: after → since < op.now → (promotionRun before).digest env stageShadow = some digest

/-- A rollback of the shadow stage goes to the bundle that the pointer names already. -/
def KeepsShadow (s : PointerStore) : PromotionOp → Prop
  | .promote _ => True
  | .rollback call => call.stage = stageShadow → ∀ current, s.getPointer call.env stageShadow = some current →
    ∀ target, rollbackTarget call current = .ok target → target = current.bundleDigest

/-- The soak of a live promotion: the shadow pointer names the bundle and did so through the days required. -/
def Soaked (ops : List PromotionOp) (call : PromoteCall) (prof : ApprovalProfile) : Prop :=
  (promotionRun ops).digest call.env stageShadow = some call.bundleDigest ∧
  ShadowedSince ops call.env call.bundleDigest (call.now - prof.shadowMinDays * usPerDay)

/-- What the time carried by a shadow pointer means. -/
def SoakInv (ops : List PromotionOp) : Prop :=
  ∀ env p, (promotionRun ops).getPointer env stageShadow = some p →
    ∃ t, p.shadowStartedAt = some t ∧ ShadowedSince ops env p.bundleDigest t

theorem ShadowedSince.later {ops : List PromotionOp} {env digest : String} {t t' : Int} (h : ShadowedSince ops env digest t)
    (hle : t ≤ t') : ShadowedSince ops env digest t' :=
  fun before op after hsplit hlt => h before op after hsplit (lt_of_le_of_lt hle hlt)

theorem ShadowedSince.append {ops : List PromotionOp} {op : PromotionOp} {env digest : String} {t : Int}
    (h : ShadowedSince ops env digest t) (hd : t < op.now → (promotionRun ops).digest env stageShadow = some digest) :
    ShadowedSince (ops ++ [op]) env digest t := by
  intro before op' after hsplit hlt
  rcases List.append_eq_append_iff.mp hsplit with ⟨mid, rfl, hmid⟩ | ⟨mid, rfl, hmid⟩
  · cases mid with
    | nil =>
      cases hmid
      rw [List.append_nil]
      exact hd hlt
    | cons m ms => cases ms <;> cases hmid
  · cases mid with
    | nil =>
      cases hmid
      rw [List.append_nil] at hd
      exact hd hlt
    | cons m ms =>
      cases hmid
      exact h before op' ms rfl hlt

theorem SoakInv.step {ops : List PromotionOp} {op : PromotionOp} (hi : SoakInv ops) (hnow : ∀ o ∈ ops, o.now ≤ op.now)
    (hk : KeepsShadow (promotionRun ops) op) : SoakInv (ops ++ [op]) := by
  intro env p hp
  rw [promotionRun_append] at hp
  have hold : (promotionRun ops).getPointer env stageShadow = some p →
      ∃ t, p.shadowStartedAt = some t ∧ ShadowedSince (ops ++ [op]) env p.bundleDigest t := by
    intro hp
    obtain ⟨t, ht, hs⟩ := hi env p hp
    refine ⟨t, ht, hs.append fun _ => ?_⟩
    unfold PointerStore.digest
    rw [hp]
    rfl
  rcases promotionStep_cases (promotionRun ops) op with ⟨-, h⟩ | ⟨record, hr, hof, h⟩
  · rw [Runs.run_cons, Runs.run_nil, h] at hp
    exact hold hp
  · rw [Runs.run_cons, Runs.run_nil, h, PointerStore.getPointer_repoint] at hp
    split at hp
    · rename_i he
      simp only [Prod.mk.injEq] at he
      cases hp
      cases op with
      | promote call =>
        -- the time starts with this operation, and none is later
        rcases promoteRecord_ok hr with ⟨-, rfl⟩ | ⟨-, hl⟩
        · refine ⟨call.now, rfl, fun before op' after hsplit hlt => ?_⟩
          have hmem : op' ∈ ops ++ [.promote call] := by
            rw [hsplit]
            simp
          rcases List.mem_append.mp hmem with hm | hm
          · exact absurd hlt (not_lt_of_ge (hnow op' hm))
          · rw [List.mem_singleton.mp hm] at hlt
            exact absurd hlt (lt_irrefl _)
        · obtain ⟨_, _, -, -, -, -, hstage, -⟩ := promoteLive_ok hl
          exact absurd (hstage.symm.trans he.2) (by decide)
      | rollback call =>
        obtain ⟨current, hc, ht, henv, hstage, -, -, hstart⟩ := rollbackRecord_ok hr
        have hshadow : call.stage = stageShadow := hstage.symm.trans he.2
        have hcenv : call.env = env := henv.symm.trans he.1
        rw [hshadow] at hc
        have hsame : record.bundleDigest = current.bundleDigest := hk hshadow current hc _ ht
        rw [hcenv] at hc
        obtain ⟨t, hts, hs⟩ := hi env current hc
        refine ⟨t, ?_, ?_⟩
        · show record.shadowStartedAt = some t
          rw [hstart, if_pos hshadow, hts]
        · show ShadowedSince _ env record.bundleDigest t
          rw [hsame]
          refine hs.append fun _ => ?_
          unfold PointerStore.digest
          rw [hc]
          rfl
    · exact hold hp

theorem soak_run {ops : List PromotionOp} (hnow : ops.Pairwise fun o o' => o.now ≤ o'.now)
    (hk : Runs.Steady promotionStep KeepsShadow {} ops) : SoakInv ops := by
  induction ops using List.reverseRecOn with
  | nil =>
    intro env p hp
    cases hp
  | append_singleton ops op ih =>
    obtain ⟨hops, -, hlast⟩ := List.pairwise_append.mp hnow
    obtain ⟨hk₁, hk₂⟩ := Runs.Steady.append.mp hk
    exact (ih hops hk₁).step (fun o ho => hlast o ho op (List.mem_singleton.mpr rfl)) hk₂.1

theorem checkSoak_ok {call : PromoteCall} {prof : ApprovalProfile} {s : PointerStore}
    (hno : call.shadowAgeOverride = false) (h : checkSoak call prof (shadowStart s call.env call.bundleDigest) = .ok ()) :
    ∃ p t, s.getPointer call.env stageShadow = some p ∧ p.bundleDigest = call.bundleDigest ∧
      p.shadowStartedAt = some t ∧ t ≤ call.now - prof.shadowMinDays * usPerDay := by
  unfold checkSoak at h
  rw [hno] at h
  simp only [Bool.false_eq_true, if_false] at h
  unfold shadowStart at h
  cases hp : s.getPointer call.env stageShadow with
  | none =>
    rw [hp] at h
    cases h
  | some p =>
    rw [hp] at h
    dsimp only at h
    by_cases hd : p.bundleDigest = call.bundleDigest
    · rw [if_pos hd] at h
      cases ht : p.shadowStartedAt with
      | none =>
        rw [ht] at h
        cases h
      | some t =>
        rw [ht] at h
        dsimp only at h
        split at h
        · cases h
        · rename_i hage
          exact ⟨p, t, rfl, hd, ht, by omega⟩
    · rw [if_neg hd] at h
      cases h

/-- Where shadow rollbacks keep their bundle, a live promotion without an override has soaked. -/
theorem live_promotion_soaked (ops : List PromotionOp) (hnow : ops.Pairwise fun o o' => o.now ≤ o'.now)
    (hk : Runs.Steady promotionStep KeepsShadow {} ops) (before after : List PromotionOp) (call : PromoteCall)
    (hsplit : ops = before ++ .promote call :: after) (hlive : call.stage = stageLive)
    (hno : call.shadowAgeOverride = false) (hacc : (PromotionOp.promote call).Accepted (promotionRun before)) :
    ∃ profile prof, call.profile = some profile ∧ Dict.get? profiles profile = some prof ∧ Soaked before call prof := by
  subst hsplit
  obtain ⟨record, hr⟩ := hacc
  rcases promoteRecord_ok hr with ⟨hs, -⟩ | ⟨-, hl⟩
  · exact absurd (hlive.symm.trans hs) (by decide)
  · obtain ⟨profile, prof, hprofile, hprof, hsoak, -⟩ := promoteLive_ok hl
    obtain ⟨p, t, hp, hd, ht, hle⟩ := checkSoak_ok hno hsoak
    have hi := soak_run (List.pairwise_append.mp hnow).1 (Runs.Steady.append.mp hk).1
    obtain ⟨t', ht', hsince⟩ := hi call.env p hp
    cases ht.symm.trans ht'
    rw [hd] at hsince
    refine ⟨profile, prof, hprofile, hprof, ?_, hsince.later hle⟩
    unfold PointerStore.digest
    rw [hp]
    exact congrArg some hd

/-! ## A rollback that carries the time along -/

def shadowA : PromotionOp := .promote {
  promotionId := "prm_1", bundleExists := true, bundleDigest := "sha256:bundleA", env := "prod", stage := stageShadow
  actor := "g", reason := "s1", now := 0 }

def rollbackToB : PromotionOp := .rollback {
  promotionId := "rbk_1", env := "prod", actor := "g", reason := "r", now := 8 * usPerDay, stage := stageShadow
  bundleDigest := some "sha256:bundleB", bundleExists := some true }

def livePromotion (digest : String) : PromoteCall where
  promotionId := "prm_2"
  bundleExists := true
  bundleDigest := digest
  env := "prod"
  stage := stageLive
  actor := "g"
  reason := "go"
  now := 8 * usPerDay
  profile := some "bank"
  approvedBy := ["alice", "bob"]

/-- The bundle goes live at the moment it gets into shadow. -/
theorem rollback_skips_soak :
    ((PromotionOp.promote (livePromotion "sha256:bundleB")).run (promotionRun [shadowA, rollbackToB])).1.toBool = true ∧
    (promotionRun [shadowA]).digest "prod" stageShadow = some "sha256:bundleA" ∧
    ¬ Soaked [shadowA, rollbackToB] (livePromotion "sha256:bundleB") profileBank := by
  refine ⟨by decide +kernel, by decide +kernel, fun h => ?_⟩
  have h' := h.2 [shadowA] rollbackToB [] rfl (by decide)
  revert h'
  decide +kernel

/-- A rollback to the bundle that is in shadow already. -/
def rollbackToA : RollbackCall where
  promotionId := "rbk_2"
  env := "prod"
  actor := "g"
  reason := "r"
  now := 3 * usPerDay
  stage := stageShadow
  bundleDigest := some "sha256:bundleA"
  bundleExists := some true

theorem rollbackToA_keeps : KeepsShadow (promotionRun [shadowA]) (.rollback rollbackToA) := by
  intro _ current hcurrent target htarget
  have hdigest : (promotionRun [shadowA]).digest "prod" stageShadow = some "sha256:bundleA" := by
    decide +kernel
  have henv : rollbackToA.env = "prod" := rfl
  rw [henv] at hcurrent
  unfold PointerStore.digest at hdigest
  rw [hcurrent] at hdigest
  cases htarget
  exact (Option.some.inj hdigest).symm

theorem live_promotion_soaked_week : ∃ profile prof, (livePromotion "sha256:bundleA").profile = some profile ∧
    Dict.get? profiles profile = some prof ∧
      Soaked [shadowA, .rollback rollbackToA] (livePromotion "sha256:bundleA") prof := by
  refine live_promotion_soaked [shadowA, .rollback rollbackToA, .promote (livePromotion "sha256:bundleA")] ?_ ?_
    [shadowA, .rollback rollbackToA] [] _ rfl rfl rfl ?_
  · decide
  · exact ⟨trivial, rollbackToA_keeps, trivial, trivial⟩
  · exact ⟨okGet ((PromotionOp.promote (livePromotion "sha256:bundleA")).record
      (promotionRun [shadowA, .rollback rollbackToA])) (by decide +kernel), eq_ok_okGet _ _⟩

end ClearFeature
