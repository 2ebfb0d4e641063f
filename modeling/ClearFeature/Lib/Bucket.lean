import Mathlib.Algebra.Order.Ring.Defs
import Mathlib.Tactic.Ring

/-!
# Token buckets

A bucket fills at a rate up to its capacity. The level that a later time finds
is bounded by the level now and what flows in between, so whatever is taken out
in a window is bounded by the capacity and the inflow of the window.
-/

namespace Bucket

section
variable {K : Type} [CommRing K] [LinearOrder K] [IsStrictOrderedRing K]

/-- The level at `now` of a bucket that held `tokens` at `last`. -/
def level (rate capacity tokens last now : K) : K := min capacity (tokens + (now - last) * rate)

variable {rate capacity tokens last now : K}

omit [IsStrictOrderedRing K] in
theorem level_le : level rate capacity tokens last now ≤ capacity := min_le_left _ _

theorem level_nonneg (hr : 0 ≤ rate) (hc : 0 ≤ capacity) (ht : 0 ≤ tokens) (hn : last ≤ now) :
    0 ≤ level rate capacity tokens last now :=
  le_min hc (add_nonneg ht (mul_nonneg (sub_nonneg.mpr hn) hr))

omit [IsStrictOrderedRing K] in
theorem level_self (h : tokens ≤ capacity) : level rate capacity tokens last last = tokens := by
  rw [level, sub_self, zero_mul, add_zero, min_eq_right h]

/-- Between two readings no more flows in than the rate allows. -/
theorem level_later (hr : 0 ≤ rate) {later : K} (hl : now ≤ later) :
    level rate capacity tokens last later ≤ level rate capacity tokens last now + (later - now) * rate := by
  have hflow : 0 ≤ (later - now) * rate := mul_nonneg (sub_nonneg.mpr hl) hr
  unfold level
  rw [← min_add_add_right]
  refine le_min ((min_le_left _ _).trans (le_add_of_nonneg_right hflow)) ((min_le_right _ _).trans (le_of_eq ?_))
  ring

/-- A bucket left alone for long enough holds whatever its capacity allows. -/
theorem le_level (hr : 0 ≤ rate) {amount enough : K} (ha : amount ≤ capacity) (hn : last + enough ≤ now)
    (he : amount ≤ tokens + enough * rate) : amount ≤ level rate capacity tokens last now := by
  have hflow : enough * rate ≤ (now - last) * rate := mul_le_mul_of_nonneg_right (le_sub_iff_add_le'.mpr hn) hr
  exact le_min ha (he.trans (add_le_add_right hflow tokens))

end

end Bucket
