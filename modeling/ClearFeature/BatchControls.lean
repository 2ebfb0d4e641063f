import ClearFeature.Value
import Mathlib.Data.Rat.Floor

/-!
# Batch runtime controls (`api/batch_controls.py`)

Batch work is paused while online consumers lag and is rate limited by token
buckets. Amounts, rates and clock readings are rational numbers; the clock is
read by the caller.
-/

namespace ClearFeature

/-- `int(x)`, which truncates. -/
def pyInt (x : ℚ) : Int := x.num.tdiv x.den

/-! ## Rate limiters -/

structure TokenBucketRateLimiter where
  rate : ℚ
  burst : ℚ
  tokens : ℚ
  last : ℚ
  deriving DecidableEq

namespace TokenBucketRateLimiter

def new (ratePerSec burst now : ℚ) : Except PyErr TokenBucketRateLimiter := do
  raiseIf (ratePerSec < 0 ∨ burst < 0) "rate_per_sec and burst must be non-negative"
  return { rate := ratePerSec, burst, tokens := burst, last := now }

def refill (b : TokenBucketRateLimiter) (now : ℚ) : TokenBucketRateLimiter :=
  let elapsed := max 0 (now - b.last)
  { b with last := now, tokens := min b.burst (b.tokens + elapsed * b.rate) }

def tryAcquire (b : TokenBucketRateLimiter) (now : ℚ) (n : Int) : Int × TokenBucketRateLimiter :=
  if n ≤ 0 then (0, b)
  else
    let b := b.refill now
    let granted := min n (pyInt b.tokens)
    (granted, { b with tokens := b.tokens - granted })

end TokenBucketRateLimiter

inductive RateLimiter where
  | unlimited
  | disabled
  | tokenBucket (bucket : TokenBucketRateLimiter)
  deriving DecidableEq

def RateLimiter.tryAcquire (limiter : RateLimiter) (now : ℚ) (n : Int) : Int × RateLimiter :=
  match limiter with
  | .unlimited => (n, .unlimited)
  | .disabled => (0, .disabled)
  | .tokenBucket bucket =>
    let (granted, bucket) := bucket.tryAcquire now n
    (granted, .tokenBucket bucket)

/-! ## Controls -/

structure PauseDecision where
  paused : Bool
  reason : Option String := none
  deriving DecidableEq

structure BatchRuntimeControls where
  rateLimiter : RateLimiter
  onlineRefreshLimiter : RateLimiter
  onlineRefreshMaxFeatures : Int := 0
  pauseEnabled : Bool := false
  maxConsumerLag : Int := 0

/-- `lag` is what a call of `lag_fn` returns; `none` where there is no `lag_fn`. -/
def BatchRuntimeControls.shouldPause (controls : BatchRuntimeControls) (lag : Option (Option Int)) : PauseDecision :=
  if controls.pauseEnabled = false then { paused := false }
  else
    match lag with
    | some (some lag) =>
      if lag > controls.maxConsumerLag then
        { paused := true, reason := some s!"online consumer lag {lag} > max {controls.maxConsumerLag}" }
      else { paused := false }
    | _ => { paused := false }

structure BatchControlSettings where
  batchRateLimitChunksPerSec : ℚ := 0
  batchPauseEnabled : Bool := false
  batchMaxConsumerLag : Int := 0
  batchOnlineRefreshEnabled : Bool := false
  batchOnlineRefreshTokensPerSec : ℚ := 0
  batchOnlineRefreshBurst : ℚ := 0
  batchOnlineRefreshMaxFeaturesPerChunk : Int := 0

/-- `burst or rate_per_sec` -/
def burstOr (burst ratePerSec : ℚ) : ℚ := if burst = 0 then ratePerSec else burst

/-- `_limiter` -/
def rateLimiterOf (ratePerSec burst now : ℚ) : Except PyErr RateLimiter :=
  if 0 < ratePerSec then do
    let bucket ← TokenBucketRateLimiter.new ratePerSec (burstOr burst ratePerSec) now
    return .tokenBucket bucket
  else return .unlimited

/-- Online refresh is off until an operator enables it. -/
def onlineLimiterOf (settings : BatchControlSettings) (now : ℚ) : Except PyErr RateLimiter :=
  if settings.batchOnlineRefreshEnabled then
    rateLimiterOf settings.batchOnlineRefreshTokensPerSec settings.batchOnlineRefreshBurst now
  else return .disabled

/-- The two limiters read the clock once each, the online one first. -/
def buildBatchRuntimeControls (settings : BatchControlSettings) (onlineNow chunksNow : ℚ) :
    Except PyErr BatchRuntimeControls := do
  let onlineRefreshLimiter ← onlineLimiterOf settings onlineNow
  let rateLimiter ← rateLimiterOf settings.batchRateLimitChunksPerSec settings.batchRateLimitChunksPerSec chunksNow
  return {
    rateLimiter
    onlineRefreshLimiter
    onlineRefreshMaxFeatures := settings.batchOnlineRefreshMaxFeaturesPerChunk
    pauseEnabled := settings.batchPauseEnabled
    maxConsumerLag := settings.batchMaxConsumerLag }

end ClearFeature
