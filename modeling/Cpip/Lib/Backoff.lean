import Mathlib.Algebra.Order.Ring.Unbundled.Basic
import Mathlib.Algebra.Order.Monoid.Unbundled.Pow
import Mathlib.Algebra.GroupWithZero.Basic
import Mathlib.Algebra.Order.Ring.Defs

/-!
# Delays that grow up to a limit

A delay is multiplied after each use and cut at a limit.  From a first delay that is cut as well,
the `k`-th delay is the geometric term cut at the limit; a first delay that is not cut makes a
difference for that delay only.
-/

namespace Backoff

variable {R : Type*} [Semiring R] [LinearOrder R] {factor limit base : R}

/-- The delay after `delay`. -/
def next (factor limit delay : R) : R := min (delay * factor) limit

/-- The `k`-th delay, from 0. -/
def delay (factor limit base : R) (k : ℕ) : R := (next factor limit)^[k] base

@[simp]
theorem delay_zero : delay factor limit base 0 = base := rfl

theorem delay_succ (k : ℕ) :
    delay factor limit base (k + 1) = next factor limit (delay factor limit base k) :=
  Function.iterate_succ_apply' _ _ _

variable [IsOrderedRing R]

/-- A limit that the factor does not push down may be applied before the factor. -/
theorem next_min (grows : 1 ≤ factor) (limit_nonneg : 0 ≤ limit) (x : R) :
    next factor limit (min x limit) = min (x * factor) limit := by
  have stays : limit ≤ limit * factor := le_mul_of_one_le_right limit_nonneg grows
  unfold next
  rw [min_mul_of_nonneg _ _ (zero_le_one.trans grows), min_assoc, min_eq_right stays]

theorem delay_min (grows : 1 ≤ factor) (limit_nonneg : 0 ≤ limit) (base : R) (k : ℕ) :
    delay factor limit (min base limit) k = min (base * factor ^ k) limit := by
  induction k with
  | zero => rw [pow_zero, mul_one, delay_zero]
  | succ k ih => rw [delay_succ, ih, next_min grows limit_nonneg, pow_succ, mul_assoc]

/-- A first delay within the limit needs no cut. -/
theorem delay_of_le (grows : 1 ≤ factor) (limit_nonneg : 0 ≤ limit) (within : base ≤ limit)
    (k : ℕ) : delay factor limit base k = min (base * factor ^ k) limit := by
  have cut := delay_min grows limit_nonneg base k
  rwa [min_eq_left within] at cut

end Backoff
