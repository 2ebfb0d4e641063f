import ClearFeature.BatchControls
import ClearFeature.Lib.Bucket
import ClearFeature.Lib.Runs

/-!
# What the rate limiters grant

A token bucket grants what its level allows. So the grants of a window stay
within the burst and the inflow, and a single token is granted again after a
pause exactly if the bucket can hold one.
-/

namespace ClearFeature

open Bucket

theorem pyInt_eq_floor {x : ℚ} (h : 0 ≤ x) : pyInt x = ⌊x⌋ := by
  rw [pyInt, Rat.floor_def', Int.tdiv_eq_ediv_of_nonneg (Rat.num_nonneg.mpr h)]

namespace TokenBucketRateLimiter

structure Call where
  now : ℚ
  n : Int
  deriving DecidableEq

def step (b : TokenBucketRateLimiter) (c : Call) : TokenBucketRateLimiter := (b.tryAcquire c.now c.n).2

def granted : TokenBucketRateLimiter → List Call → List Int
  | _, [] => []
  | b, c :: calls => (b.tryAcquire c.now c.n).1 :: granted (b.step c) calls

/-- The clock is read at `start` and then at each call, and it never goes back. -/
def InOrder (start : ℚ) (calls : List Call) : Prop := (start :: calls.map Call.now).IsChain (· ≤ ·)

/-! ## One call -/

def levelAt (b : TokenBucketRateLimiter) (now : ℚ) : ℚ := level b.rate b.burst b.tokens b.last now

/-- The tokens fit into the bucket, and the clock has not gone back since it was read. -/
structure Sound (b : TokenBucketRateLimiter) (now : ℚ) : Prop where
  rate : 0 ≤ b.rate
  tokens : 0 ≤ b.tokens
  fits : b.tokens ≤ b.burst
  last : b.last ≤ now

theorem new_ok {ratePerSec burst now : ℚ} {b : TokenBucketRateLimiter} (h : new ratePerSec burst now = .ok b) :
    0 ≤ ratePerSec ∧ 0 ≤ burst ∧ b = { rate := ratePerSec, burst, tokens := burst, last := now } := by
  unfold new at h
  obtain ⟨u, hcheck, h⟩ := bind_eq_ok.mp h
  cases h
  rw [raiseIf_eq_ok, not_or, not_lt, not_lt] at hcheck
  exact ⟨hcheck.1, hcheck.2, rfl⟩

theorem Sound.new {ratePerSec burst now : ℚ} {b : TokenBucketRateLimiter} (h : new ratePerSec burst now = .ok b) :
    b.Sound now := by
  obtain ⟨hr, hb, rfl⟩ := new_ok h
  exact ⟨hr, hb, le_refl _, le_refl _⟩

section
variable {b : TokenBucketRateLimiter} {now : ℚ} {n : Int}

theorem Sound.later {later : ℚ} (h : b.Sound now) (hl : now ≤ later) : b.Sound later :=
  { h with last := h.last.trans hl }

theorem Sound.levelAt_nonneg (h : b.Sound now) : 0 ≤ b.levelAt now :=
  level_nonneg h.rate (h.tokens.trans h.fits) h.tokens h.last

theorem levelAt_le : b.levelAt now ≤ b.burst := level_le

theorem tryAcquire_nonpos (hn : n ≤ 0) : b.tryAcquire now n = (0, b) := by
  rw [tryAcquire, if_pos hn]

/-- A call for tokens takes whole tokens from the level that it finds. -/
theorem Sound.tryAcquire_pos (h : b.Sound now) (hn : 0 < n) : b.tryAcquire now n =
    (min n ⌊b.levelAt now⌋, { b with last := now, tokens := b.levelAt now - (min n ⌊b.levelAt now⌋ : Int) }) := by
  have hlevel : (b.refill now).tokens = b.levelAt now := by
    rw [refill, levelAt, level, max_eq_right (sub_nonneg.mpr h.last)]
  have hgrant : pyInt (b.refill now).tokens = ⌊b.levelAt now⌋ := by
    rw [hlevel, pyInt_eq_floor h.levelAt_nonneg]
  rw [tryAcquire, if_neg (not_le.mpr hn)]
  dsimp only
  rw [hgrant, hlevel]
  rfl

/-- What a call is granted and what it leaves make up the level, unless nothing was asked for. -/
structure Took (b : TokenBucketRateLimiter) (now : ℚ) (out : Int × TokenBucketRateLimiter) : Prop where
  sound : out.2.Sound now
  burst : out.2.burst = b.burst
  rate : out.2.rate = b.rate
  level : out.1 + out.2.levelAt now = b.levelAt now

theorem Sound.tryAcquire (h : b.Sound now) : Took b now (b.tryAcquire now n) := by
  rcases le_or_gt n 0 with hn | hn
  · rw [tryAcquire_nonpos hn]
    exact ⟨h, rfl, rfl, by simp⟩
  · rw [h.tryAcquire_pos hn]
    have hle : ((min n ⌊b.levelAt now⌋ : Int) : ℚ) ≤ b.levelAt now :=
      (Int.cast_le.mpr (min_le_right _ _)).trans (Int.floor_le _)
    have hpos : (0 : ℚ) ≤ (min n ⌊b.levelAt now⌋ : Int) :=
      Int.cast_nonneg (le_min hn.le (Int.floor_nonneg.mpr h.levelAt_nonneg))
    have hfits : b.levelAt now - (min n ⌊b.levelAt now⌋ : Int) ≤ b.burst :=
      (sub_le_self _ hpos).trans level_le
    refine ⟨⟨h.rate, sub_nonneg.mpr hle, hfits, le_refl _⟩, rfl, rfl, ?_⟩
    show _ + Bucket.level b.rate b.burst (b.levelAt now - _) now now = _
    rw [level_self hfits, add_sub_cancel]

end

/-! ## Sequences of calls -/

theorem inOrder_cons {start : ℚ} {c : Call} {calls : List Call} :
    InOrder start (c :: calls) ↔ start ≤ c.now ∧ InOrder c.now calls :=
  List.isChain_cons_cons

def clock (start : ℚ) (calls : List Call) : ℚ := (start :: calls.map Call.now).getLast (List.cons_ne_nil _ _)

theorem clock_cons (start : ℚ) (c : Call) (calls : List Call) : clock start (c :: calls) = clock c.now calls :=
  List.getLast_cons_cons

theorem clock_getLast (start : ℚ) {calls : List Call} (hne : calls ≠ []) : clock start calls = (calls.getLast hne).now := by
  cases calls with
  | nil => exact absurd rfl hne
  | cons c calls =>
    have hmap : (c :: calls).map Call.now ≠ [] := List.cons_ne_nil _ _
    rw [clock_cons]
    exact List.getLast_map hmap

theorem Sound.run : ∀ {calls : List Call} {b : TokenBucketRateLimiter} {start : ℚ}, b.Sound start → InOrder start calls →
    (Runs.run step b calls).Sound (clock start calls) ∧ (Runs.run step b calls).burst = b.burst ∧
      (Runs.run step b calls).rate = b.rate
  | [], b, start, h, _ => ⟨h, rfl, rfl⟩
  | c :: calls, b, start, h, ho => by
    obtain ⟨hle, ho⟩ := inOrder_cons.mp ho
    have hstep := (h.later hle).tryAcquire (n := c.n)
    obtain ⟨hrun, hburst, hrate⟩ := Sound.run hstep.sound ho
    rw [Runs.run_cons, clock_cons]
    exact ⟨hrun, hburst.trans hstep.burst, hrate.trans hstep.rate⟩

/-- The grants are paid by the level at the start and what flows in until the last call. -/
theorem Sound.granted_le : ∀ {calls : List Call} {b : TokenBucketRateLimiter} {start : ℚ}, b.Sound start →
    InOrder start calls → ((granted b calls).sum : ℚ) ≤ b.levelAt start + (clock start calls - start) * b.rate
  | [], b, start, h, _ => by
    have hnone : clock start [] - start = 0 := sub_self start
    rw [granted, List.sum_nil, Int.cast_zero, hnone, zero_mul, add_zero]
    exact h.levelAt_nonneg
  | c :: calls, b, start, h, ho => by
    obtain ⟨hle, ho⟩ := inOrder_cons.mp ho
    have hstep := (h.later hle).tryAcquire (n := c.n)
    have hrest : ((granted (b.step c) calls).sum : ℚ) ≤
        (b.step c).levelAt c.now + (clock c.now calls - c.now) * (b.step c).rate := Sound.granted_le hstep.sound ho
    have hrate : (b.step c).rate = b.rate := hstep.rate
    have hlevel : ((b.tryAcquire c.now c.n).1 : ℚ) + (b.step c).levelAt c.now = b.levelAt c.now := hstep.level
    have hflow : b.levelAt c.now ≤ b.levelAt start + (c.now - start) * b.rate := level_later h.rate hle
    rw [hrate] at hrest
    rw [granted, List.sum_cons, Int.cast_add, clock_cons]
    linarith

theorem InOrder.append : ∀ {as bs : List Call} {start : ℚ}, InOrder start (as ++ bs) ↔
    InOrder start as ∧ InOrder (clock start as) bs
  | [], bs, start => by
    simp [InOrder, clock]
  | a :: as, bs, start => by
    rw [List.cons_append, inOrder_cons, inOrder_cons, clock_cons, InOrder.append, and_assoc]

/-- For any rate and burst and any calls whose clock never goes back: the tokens stay within the burst, and the calls of a
window are granted no more than the burst and what flows in from its first to its last call. -/
theorem grants_within_budget {ratePerSec burst start : ℚ} {b : TokenBucketRateLimiter} {calls : List Call}
    (hb : new ratePerSec burst start = .ok b) (ho : InOrder start calls) :
    (∀ visited, visited <+: calls → 0 ≤ (Runs.run step b visited).tokens ∧ (Runs.run step b visited).tokens ≤ burst) ∧
      ∀ before window after (hne : window ≠ []), calls = before ++ (window ++ after) →
        ((granted (Runs.run step b before) window).sum : ℚ) ≤
          burst + ratePerSec * ((window.getLast hne).now - (window.head hne).now) := by
  have hsound := Sound.new hb
  obtain ⟨-, -, hnew⟩ := new_ok hb
  have hburst : b.burst = burst := by rw [hnew]
  have hrate : b.rate = ratePerSec := by rw [hnew]
  constructor
  · rintro visited ⟨rest, rfl⟩
    obtain ⟨hrun, hkeep, -⟩ := hsound.run (InOrder.append.mp ho).1
    exact ⟨hrun.tokens, hrun.fits.trans (le_of_eq (hkeep.trans hburst))⟩
  · rintro before window after hne rfl
    obtain ⟨hbefore, ho⟩ := InOrder.append.mp ho
    obtain ⟨hwindow, -⟩ := InOrder.append.mp ho
    obtain ⟨hrun, hkeepBurst, hkeepRate⟩ := hsound.run hbefore
    cases window with
    | nil => exact absurd rfl hne
    | cons c window =>
      obtain ⟨hle, hrest⟩ := inOrder_cons.mp hwindow
      have hgrants := (hrun.later hle).granted_le (inOrder_cons.mpr ⟨le_refl _, hrest⟩)
      have hfull : (Runs.run step b before).levelAt c.now ≤ (Runs.run step b before).burst := levelAt_le
      rw [hkeepRate, hrate, clock_getLast c.now hne] at hgrants
      rw [hkeepBurst, hburst] at hfull
      rw [List.head_cons]
      linarith

theorem grants_within_budget_third : (∃ b, new (1 / 3) 2 0 = .ok b ∧
    ((granted (Runs.run step b [⟨1, 5⟩]) [⟨1, 1⟩, ⟨4, 3⟩, ⟨5, 1⟩]).sum : ℚ) ≤ 2 + 1 / 3 * (5 - 1)) ∧
    InOrder 0 [⟨1, 5⟩, ⟨1, 1⟩, ⟨4, 3⟩, ⟨5, 1⟩] := by
  have ho : InOrder 0 [⟨1, 5⟩, ⟨1, 1⟩, ⟨4, 3⟩, ⟨5, 1⟩] := by simp [InOrder]; norm_num
  have hb := eq_ok_okGet (new (1 / 3) 2 0) (by decide +kernel)
  exact ⟨⟨_, hb, (grants_within_budget hb ho).2 [⟨1, 5⟩] [⟨1, 1⟩, ⟨4, 3⟩, ⟨5, 1⟩] [] (by simp) (by simp)⟩, ho⟩

/-! ## Waiting for a token -/

theorem Sound.waits {b : TokenBucketRateLimiter} {now later : ℚ} (h : b.Sound now) (hr : 0 < b.rate) (hb : 1 ≤ b.burst)
    (hl : now + 1 / b.rate ≤ later) : (b.tryAcquire later 1).1 = 1 := by
  have hwait : (0 : ℚ) ≤ 1 / b.rate := (one_div_pos.mpr hr).le
  have hlater : b.last + 1 / b.rate ≤ later := (add_le_add_left h.last _).trans hl
  have hflow : 1 ≤ b.tokens + 1 / b.rate * b.rate := by
    rw [one_div_mul_cancel (ne_of_gt hr)]
    exact le_add_of_nonneg_left h.tokens
  have hlevel : 1 ≤ b.levelAt later := le_level h.rate hb hlater hflow
  rw [(h.later ((le_add_of_nonneg_right hwait).trans hl)).tryAcquire_pos one_pos]
  exact min_eq_left (Int.le_floor.mpr (by exact_mod_cast hlevel))

theorem Sound.throttled {b : TokenBucketRateLimiter} {now : ℚ} (h : b.Sound now) (hb : b.burst < 1) :
    (b.tryAcquire now 1).1 < 1 := by
  have hlevel : b.levelAt now < 1 := levelAt_le.trans_lt hb
  have hfloor : ⌊b.levelAt now⌋ < 1 := Int.floor_lt.mpr (by exact_mod_cast hlevel)
  rw [h.tryAcquire_pos one_pos]
  exact (min_le_right _ _).trans_lt hfloor

end TokenBucketRateLimiter

end ClearFeature
