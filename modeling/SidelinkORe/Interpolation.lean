import Mathlib.Algebra.Order.Floor.Semiring
import Mathlib.Topology.MetricSpace.Lipschitz
import Mathlib.Topology.Instances.Real.Lemmas
import Mathlib.Tactic.Ring
import Mathlib.Tactic.Linarith

namespace SidelinkORe

section Interpolation

variable {K : Type} [Field K] [LinearOrder K] [FloorRing K]

/-- The line through the values of `f` at the integers around `x`. -/
def interpolate (f : Nat → K) (x : K) : K :=
  f ⌊x⌋₊ + (f (⌊x⌋₊ + 1) - f ⌊x⌋₊) * (x - ⌊x⌋₊)

/-- The same with the weights `ceil(x)-x` and `x-floor(x)`, which are both 0 at an integer. -/
def blend (f : Nat → K) (x : K) : K := f ⌊x⌋₊ * (⌈x⌉₊ - x) + f ⌈x⌉₊ * (x - ⌊x⌋₊)

variable {f : Nat → K} {c x y : K}

theorem ceil_eq_floor_add_one (hx : 0 ≤ x) (hno : ∀ k : Nat, x ≠ k) : ⌈x⌉₊ = ⌊x⌋₊ + 1 := by
  have hlt : (⌊x⌋₊ : K) < x := lt_of_le_of_ne (Nat.floor_le hx) (hno _).symm
  exact le_antisymm (Nat.ceil_le_floor_add_one x) (Nat.add_one_le_ceil_iff.mpr hlt)

theorem blend_eq_interpolate (hx : 0 ≤ x) (hno : ∀ k : Nat, x ≠ k) : blend f x = interpolate f x := by
  unfold blend interpolate
  rw [ceil_eq_floor_add_one hx hno]
  push_cast
  ring

variable [IsStrictOrderedRing K]

theorem interpolate_natCast (k : Nat) : interpolate f k = f k := by simp [interpolate]

theorem blend_natCast (k : Nat) : blend f k = 0 := by simp [blend]

theorem interpolate_le_next (hf : Monotone f) (x : K) : interpolate f x ≤ f (⌊x⌋₊ + 1) := by
  have hrise : 0 ≤ f (⌊x⌋₊ + 1) - f ⌊x⌋₊ := sub_nonneg.mpr (hf (Nat.le_succ _))
  have hweight : x - ⌊x⌋₊ ≤ 1 := by linarith [Nat.lt_floor_add_one x]
  have hpart := mul_le_mul_of_nonneg_left hweight hrise
  unfold interpolate
  linarith

theorem le_interpolate (hf : Monotone f) (hx : 0 ≤ x) : f ⌊x⌋₊ ≤ interpolate f x := by
  have hrise : 0 ≤ f (⌊x⌋₊ + 1) - f ⌊x⌋₊ := sub_nonneg.mpr (hf (Nat.le_succ _))
  have hweight : 0 ≤ x - ⌊x⌋₊ := sub_nonneg.mpr (Nat.floor_le hx)
  have hpart := mul_nonneg hrise hweight
  unfold interpolate
  linarith

theorem interpolate_mono (hf : Monotone f) : Monotone (interpolate f) := by
  intro x y hxy
  rcases lt_or_eq_of_le (Nat.floor_mono hxy) with hlt | heq
  · have hy : 0 ≤ y := (Nat.pos_of_floor_pos (by omega)).le
    calc interpolate f x ≤ f (⌊x⌋₊ + 1) := interpolate_le_next hf x
      _ ≤ f ⌊y⌋₊ := hf hlt
      _ ≤ interpolate f y := le_interpolate hf hy
  · have hrise : 0 ≤ f (⌊y⌋₊ + 1) - f ⌊y⌋₊ := sub_nonneg.mpr (hf (Nat.le_succ _))
    have hpart := mul_le_mul_of_nonneg_left hxy hrise
    unfold interpolate
    rw [heq]
    linarith

/-- The slope of the interpolation is bounded by the steps of `f`. -/
theorem interpolate_sub_le (hstep : ∀ k, f (k + 1) - f k ≤ c) (hxy : x ≤ y) :
    interpolate f y - interpolate f x ≤ c * (y - x) := by
  have hmono : Monotone fun k : Nat => (0 + c * k) + (-1) * f k := by
    refine monotone_nat_of_le_succ fun k => ?_
    have hk := hstep k
    push_cast
    linarith
  have hle := interpolate_mono hmono hxy
  have hline : ∀ x, interpolate (fun k : Nat => (0 + c * k) + (-1) * f k) x = c * x - interpolate f x := by
    intro x
    unfold interpolate
    push_cast
    ring
  rw [hline, hline] at hle
  linarith

end Interpolation

theorem interpolate_continuous {f : Nat → ℝ} (hf : Monotone f) {c : ℝ}
    (hstep : ∀ k, f (k + 1) - f k ≤ c) : Continuous (interpolate f) := by
  have hlipschitz : ∀ x y, x ≤ y → dist (interpolate f x) (interpolate f y) ≤ c * dist x y := by
    intro x y hxy
    have hle := interpolate_mono hf hxy
    rw [dist_comm, Real.dist_eq, abs_of_nonneg (sub_nonneg.mpr hle), dist_comm x y, Real.dist_eq,
      abs_of_nonneg (sub_nonneg.mpr hxy)]
    exact interpolate_sub_le hstep hxy
  have hc : 0 ≤ c := (sub_nonneg.mpr (hf (Nat.le_succ 0))).trans (hstep 0)
  refine (LipschitzWith.of_dist_le_mul (K := ⟨c, hc⟩) fun x y => ?_).continuous
  rcases le_total x y with hxy | hyx
  · exact hlipschitz x y hxy
  · rw [dist_comm, dist_comm x y]
    exact hlipschitz y x hyx

end SidelinkORe
