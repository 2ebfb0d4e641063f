import ClearFeature.BatchRunner
import ClearFeature.Lib.Environment
import ClearFeature.RateLimits

/-!
# Throttled chunks

The gate of the batch worker asks the chunk limiter for one token. A limiter
that can hold a token grants it after a pause; one that cannot throttles every
attempt at every chunk.
-/

namespace ClearFeature

open Prog TokenBucketRateLimiter

/-! ## Attempts -/

/-- The worker is not paused, the limiter answers at the gate, and anything may be answered otherwise. -/
def gateEnv (now : ℚ) : Env (RunnerCall BatchRecord Unit BatchOwn) (RunnerCall.Ans BatchOwn.Ans) RateLimiter where
  may
    | limiter, .own .tryAcquire, answer => answer = .ok (decide (¬ (limiter.tryAcquire now 1).1 < 1))
    | _, .own .shouldPause, answer => answer = .ok false
    | _, _, _ => True
  after
    | limiter, .own .tryAcquire, _ => (limiter.tryAcquire now 1).2
    | limiter, _, _ => limiter

def RateLimiter.step (limiter : RateLimiter) (c : TokenBucketRateLimiter.Call) : RateLimiter := (limiter.tryAcquire c.now c.n).2

/-- After any calls there is a pause after which a token is granted. -/
def RateLimiter.NeverStarves (limiter : RateLimiter) (start : ℚ) : Prop :=
  ∀ calls, InOrder start calls → ∃ idle, 0 ≤ idle ∧ ∀ now, clock start calls + idle ≤ now →
    ((Runs.run RateLimiter.step limiter calls).tryAcquire now 1).1 = 1

/-- After any calls there is a pause after which no attempt of the worker is rate limited. -/
def RateLimiter.LetsChunksThrough (limiter : RateLimiter) (start : ℚ) : Prop :=
  ∀ calls, InOrder start calls → ∃ idle, 0 ≤ idle ∧ ∀ now, clock start calls + idle ≤ now → ∀ fromJson limiter' out,
    Returns (gateEnv now) (Runs.run RateLimiter.step limiter calls) (Batch.processNext fromJson) limiter' (.ok out) →
      out.status ≠ .rateLimited

/-! ## The gate -/

section
variable {now : ℚ} {limiter limiter' : RateLimiter} {fromJson : Bytes → Except PyErr BatchChunkRequested}

/-- A result that the gate did not give. -/
def PassedGate : Except PyErr ProcessResult → Prop
  | .ok out => out.status ≠ .rateLimited
  | .error _ => True

theorem always_true {S α : Type} {C : Type} {Ans : C → Type} {env : Env C Ans S} : ∀ (p : Prog C Ans α) (s : S),
    Always env (fun _ => True) s p fun _ _ => True
  | .ret _, _ => ⟨trivial, trivial⟩
  | .call _ k, _ => ⟨trivial, fun x _ => always_true (k x) _⟩

theorem commitThen_passes {message : ConsumedMessage} {result : ProcessResult} (h : result.status ≠ .rateLimited) :
    Always (gateEnv now) (fun _ => True) limiter
      (Runner.commitThen message (return .ok result) : Batch.Program (Except PyErr ProcessResult))
      fun _ out => PassedGate out := by
  unfold Runner.commitThen
  rw [always_ask_bind]
  refine ⟨trivial, fun answer _ => ?_⟩
  cases answer with
  | error e => exact ⟨trivial, trivial⟩
  | ok u => exact ⟨trivial, h⟩

theorem deadLetter_passes {message : ConsumedMessage} {failureStatus error : String} :
    Always (gateEnv now) (fun _ => True) limiter (Batch.deadLetter message failureStatus error)
      fun _ out => PassedGate out := by
  unfold Batch.deadLetter Runner.deadLetter
  dsimp only
  rw [always_ask_bind]
  refine ⟨trivial, fun answer _ => ?_⟩
  cases answer with
  | error e => exact ⟨trivial, nofun⟩
  | ok u => exact commitThen_passes nofun

theorem processEvent_passes {message : ConsumedMessage} {event : BatchChunkRequested} :
    Always (gateEnv now) (fun _ => True) limiter (Batch.processEvent message event) fun _ out => PassedGate out := by
  unfold Batch.processEvent
  refine always_bind ((always_true _ _).mono fun limiter out _ => ?_)
  rcases out with e | (_ | e | e)
  · exact ⟨trivial, nofun⟩
  · exact commitThen_passes nofun
  · exact deadLetter_passes
  · exact ⟨trivial, nofun⟩

theorem processNext_passes (hgrant : (limiter.tryAcquire now 1).1 = 1) :
    Always (gateEnv now) (fun _ => True) limiter (Batch.processNext fromJson) fun _ out => PassedGate out := by
  unfold Batch.processNext
  rw [always_ask_bind]
  refine ⟨trivial, fun polled _ => ?_⟩
  cases polled with
  | none => exact ⟨trivial, nofun⟩
  | some message =>
    dsimp only
    cases message.error with
    | some e => exact ⟨trivial, nofun⟩
    | none =>
      dsimp only
      rw [always_ask_bind]
      refine ⟨trivial, fun paused hpaused => ?_⟩
      cases show paused = .ok false from hpaused
      dsimp only
      rw [always_ask_bind]
      refine ⟨trivial, fun granted hgranted => ?_⟩
      have htrue : granted = .ok true := by
        rw [show granted = _ from hgranted, gateEnv, hgrant]
        rfl
      subst htrue
      dsimp only
      cases fromJson message.value with
      | error e => exact deadLetter_passes
      | ok event => exact processEvent_passes

theorem processNext_throttled (hgrant : (limiter.tryAcquire now 1).1 < 1) :
    Always (gateEnv now) (fun _ => True) limiter (Batch.processNext fromJson)
      fun _ out => ∃ result, out = .ok result ∧ result.committed = false ∧
        (result.status = .idle ∨ result.status = .consumeError ∨ result.status = .rateLimited) := by
  unfold Batch.processNext
  rw [always_ask_bind]
  refine ⟨trivial, fun polled _ => ?_⟩
  cases polled with
  | none => exact ⟨trivial, _, rfl, rfl, .inl rfl⟩
  | some message =>
    dsimp only
    cases message.error with
    | some e => exact ⟨trivial, _, rfl, rfl, .inr (.inl rfl)⟩
    | none =>
      dsimp only
      rw [always_ask_bind]
      refine ⟨trivial, fun paused hpaused => ?_⟩
      cases show paused = .ok false from hpaused
      dsimp only
      rw [always_ask_bind]
      refine ⟨trivial, fun granted hgranted => ?_⟩
      have hfalse : granted = .ok false := by
        rw [show granted = .ok (decide (¬ (limiter.tryAcquire now 1).1 < 1)) from hgranted,
          decide_eq_false (not_not.mpr hgrant)]
      subst hfalse
      exact ⟨trivial, _, rfl, rfl, .inr (.inr rfl)⟩

end

/-! ## The limiters of the controls -/

theorem run_tokenBucket (calls : List TokenBucketRateLimiter.Call) : ∀ b : TokenBucketRateLimiter,
    Runs.run RateLimiter.step (.tokenBucket b) calls = .tokenBucket (Runs.run TokenBucketRateLimiter.step b calls) := by
  induction calls with
  | nil => exact fun b => rfl
  | cons c calls ih => exact fun b => ih (b.step c)

section
variable {ratePerSec burst start : ℚ} {b : TokenBucketRateLimiter}
  (hb : TokenBucketRateLimiter.new ratePerSec burst start = .ok b)
include hb

/-- A bucket of a positive rate never starves exactly if it can hold a token. -/
theorem neverStarves_iff (hr : 0 < ratePerSec) : (RateLimiter.tokenBucket b).NeverStarves start ↔ 1 ≤ burst := by
  have hsound := Sound.new hb
  obtain ⟨-, -, hnew⟩ := new_ok hb
  have hburst : b.burst = burst := by rw [hnew]
  have hrate : b.rate = ratePerSec := by rw [hnew]
  constructor
  · intro h
    obtain ⟨idle, hidle, hgrant⟩ := h [] (List.IsChain.singleton start)
    have hlater : start ≤ start + idle := le_add_of_nonneg_right hidle
    by_contra hlt
    have hnone := (hsound.later hlater).throttled (hburst ▸ not_le.mp hlt)
    exact hnone.ne (hgrant _ (le_refl _))
  · intro hone calls ho
    obtain ⟨hrun, hkeepBurst, hkeepRate⟩ := hsound.run ho
    rw [run_tokenBucket]
    refine ⟨1 / ratePerSec, (one_div_pos.mpr hr).le, fun now hnow => ?_⟩
    rw [hrate] at hkeepRate
    rw [hburst] at hkeepBurst
    exact hrun.waits (hkeepRate ▸ hr) (hkeepBurst ▸ hone) (hkeepRate ▸ hnow)

omit hb in
theorem RateLimiter.NeverStarves.letsChunksThrough {limiter : RateLimiter} (h : limiter.NeverStarves start) :
    limiter.LetsChunksThrough start := by
  intro calls ho
  obtain ⟨idle, hidle, hgrant⟩ := h calls ho
  exact ⟨idle, hidle, fun now hnow fromJson limiter' out hreturns => hreturns.always (processNext_passes (hgrant now hnow))⟩

end

theorem rateLimiterOf_ok {ratePerSec burst start : ℚ} {limiter : RateLimiter} (hr : 0 < ratePerSec)
    (h : rateLimiterOf ratePerSec burst start = .ok limiter) :
    ∃ b, TokenBucketRateLimiter.new ratePerSec (burstOr burst ratePerSec) start = .ok b ∧ limiter = .tokenBucket b := by
  rw [rateLimiterOf, if_pos hr] at h
  obtain ⟨b, hb, h⟩ := bind_eq_ok.mp h
  cases h
  exact ⟨b, hb, rfl⟩

theorem buildBatchRuntimeControls_ok {settings : BatchControlSettings} {onlineNow chunksNow : ℚ}
    {controls : BatchRuntimeControls} (h : buildBatchRuntimeControls settings onlineNow chunksNow = .ok controls) :
    (settings.batchOnlineRefreshEnabled = true → rateLimiterOf settings.batchOnlineRefreshTokensPerSec
      settings.batchOnlineRefreshBurst onlineNow = .ok controls.onlineRefreshLimiter) ∧
    rateLimiterOf settings.batchRateLimitChunksPerSec settings.batchRateLimitChunksPerSec chunksNow =
      .ok controls.rateLimiter := by
  unfold buildBatchRuntimeControls at h
  obtain ⟨online, honline, h⟩ := bind_eq_ok.mp h
  obtain ⟨chunks, hchunks, h⟩ := bind_eq_ok.mp h
  cases h
  refine ⟨fun henabled => ?_, hchunks⟩
  rw [onlineLimiterOf, if_pos henabled] at honline
  exact honline

/-- For all settings with a positive rate: a limiter grants a token again after every sequence of calls, and the chunk
limiter lets every chunk through, exactly if the burst that the settings give it is at least one token. -/
theorem never_starves_iff {settings : BatchControlSettings} {onlineNow chunksNow : ℚ} {controls : BatchRuntimeControls}
    (h : buildBatchRuntimeControls settings onlineNow chunksNow = .ok controls) :
    (0 < settings.batchRateLimitChunksPerSec →
      (controls.rateLimiter.NeverStarves chunksNow ∧ controls.rateLimiter.LetsChunksThrough chunksNow ↔
        1 ≤ settings.batchRateLimitChunksPerSec)) ∧
    (settings.batchOnlineRefreshEnabled = true → 0 < settings.batchOnlineRefreshTokensPerSec →
      (controls.onlineRefreshLimiter.NeverStarves onlineNow ↔
        1 ≤ burstOr settings.batchOnlineRefreshBurst settings.batchOnlineRefreshTokensPerSec)) := by
  obtain ⟨honline, hchunks⟩ := buildBatchRuntimeControls_ok h
  constructor
  · intro hr
    obtain ⟨b, hb, hlimiter⟩ := rateLimiterOf_ok hr hchunks
    have hburst : burstOr settings.batchRateLimitChunksPerSec settings.batchRateLimitChunksPerSec =
        settings.batchRateLimitChunksPerSec := ite_self _
    rw [hlimiter, ← neverStarves_iff (hburst ▸ hb) hr]
    exact ⟨And.left, fun hstarve => ⟨hstarve, hstarve.letsChunksThrough⟩⟩
  · intro henabled hr
    obtain ⟨b, hb, hlimiter⟩ := rateLimiterOf_ok hr (honline henabled)
    rw [hlimiter]
    exact neverStarves_iff hb hr

def chunksPerSec (rate : ℚ) : BatchControlSettings := { batchRateLimitChunksPerSec := rate }

theorem never_starves_iff_two : ∃ controls, buildBatchRuntimeControls (chunksPerSec 2) 0 0 = .ok controls ∧
    controls.rateLimiter.NeverStarves 0 ∧ controls.rateLimiter.LetsChunksThrough 0 := by
  have h := eq_ok_okGet (buildBatchRuntimeControls (chunksPerSec 2) 0 0) (by decide +kernel)
  exact ⟨_, h, ((never_starves_iff h).1 (by decide +kernel)).mpr (by decide +kernel)⟩

/-- With one chunk in two seconds no attempt that gets to the gate passes it, however late. -/
theorem half_chunk_starves : ∃ controls, buildBatchRuntimeControls (chunksPerSec (1 / 2)) 0 0 = .ok controls ∧
    ¬ controls.rateLimiter.NeverStarves 0 ∧ ∀ now, 0 ≤ now → ∀ fromJson limiter out,
      Returns (gateEnv now) controls.rateLimiter (Batch.processNext fromJson) limiter out → ∃ result, out = .ok result ∧
        result.committed = false ∧
        (result.status = .idle ∨ result.status = .consumeError ∨ result.status = .rateLimited) := by
  have h := eq_ok_okGet (buildBatchRuntimeControls (chunksPerSec (1 / 2)) 0 0) (by decide +kernel)
  refine ⟨_, h, ?_⟩
  obtain ⟨b, hb, hlimiter⟩ := rateLimiterOf_ok (by decide +kernel) (buildBatchRuntimeControls_ok h).2
  have hburst : b.burst < 1 := by
    obtain ⟨-, -, hnew⟩ := new_ok hb
    rw [hnew]
    decide +kernel
  rw [hlimiter]
  refine ⟨fun hstarve => ?_, fun now hnow fromJson limiter out hreturns => ?_⟩
  · rw [neverStarves_iff hb (by decide +kernel)] at hstarve
    exact absurd hstarve (by decide +kernel)
  · exact hreturns.always (processNext_throttled (((Sound.new hb).later hnow).throttled hburst))

end ClearFeature
