import Mathlib.Data.Nat.Log
import Mathlib.Algebra.Group.Nat.Defs

/-!
# Integers as doubles

The double nearest to an integer, ties to even, as the integer it is. Doubles
of that size have 53 significant bits.
-/

namespace Double

/-- `n` kept to 53 significant bits. -/
def roundNat (n : Nat) : Nat :=
  let unit := 2 ^ (n.log2 + 1 - 53)
  let q := n / unit
  let r := n % unit
  (if unit < 2 * r ∨ 2 * r = unit ∧ q % 2 = 1 then q + 1 else q) * unit

def ofInt (n : Int) : Int := if n < 0 then -(roundNat n.natAbs : Int) else roundNat n.natAbs

theorem roundNat_exact {n : Nat} (h : n < 2 ^ 53) : roundNat n = n := by
  have hu : n.log2 + 1 - 53 = 0 := by
    by_cases h0 : n = 0
    · subst h0
      decide
    · have := (Nat.log2_lt h0).mpr h
      omega
  simp [roundNat, hu, Nat.mod_one]

theorem ofInt_exact {n : Int} (h : n.natAbs < 2 ^ 53) : ofInt n = n := by
  unfold ofInt
  rw [roundNat_exact h]
  split <;> omega

end Double
