import Mathlib.LinearAlgebra.Matrix.Stochastic
import Mathlib.Algebra.Order.Field.Basic
import Mathlib.Tactic.Ring
import Mathlib.Tactic.Linarith

namespace SidelinkORe

open Matrix

section Mean

variable {K n : Type} [Fintype n] [DecidableEq n] [Field K] [LinearOrder K] [IsStrictOrderedRing K]
  {T : Matrix n n K} {v : n → K} {level ratio : K}

/-- If one step of a chain lowers the distance of a value to a level by a ratio, then `k` steps
lower it by the power of the ratio. -/
theorem pow_mean_eq (hT : T ∈ rowStochastic K n)
    (hstep : ∀ s, level - (T *ᵥ v) s = ratio * (level - v s)) (k : Nat) (s : n) :
    (T ^ k *ᵥ v) s = level - ratio ^ k * (level - v s) := by
  induction k generalizing s with
  | zero => simp
  | succ k ih =>
    have hv : T *ᵥ v = fun i => level - ratio * (level - v i) := by
      funext i
      linarith [hstep i]
    have hrow : ∑ i, (T ^ k) s i = 1 :=
      sum_row_of_mem_rowStochastic (Submonoid.pow_mem _ hT k) s
    have hmean : ∑ i, (T ^ k) s i * v i = level - ratio ^ k * (level - v s) := ih s
    calc (T ^ (k + 1) *ᵥ v) s = ∑ i, (T ^ k) s i * (level - ratio * (level - v i)) := by
          rw [pow_succ, ← mulVec_mulVec, hv]
          rfl
      _ = ∑ i, ((level - ratio * level) * (T ^ k) s i + ratio * ((T ^ k) s i * v i)) :=
          Finset.sum_congr rfl fun i _ => by ring
      _ = level - ratio ^ (k + 1) * (level - v s) := by
          rw [Finset.sum_add_distrib, ← Finset.mul_sum, ← Finset.mul_sum, hrow, hmean]
          ring

end Mean

end SidelinkORe
