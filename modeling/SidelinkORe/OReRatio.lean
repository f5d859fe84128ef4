import Mathlib.Data.Nat.Choose.Sum
import Mathlib.Algebra.Order.Field.Basic
import Mathlib.Algebra.Order.Field.Rat
import Mathlib.Order.Interval.Finset.Nat
import Mathlib.Tactic.FieldSimp
import Mathlib.Tactic.Linarith
import Mathlib.Tactic.Ring

namespace SidelinkORe

section Model

variable {K : Type} [Field K]

/-- The modes whose ratios `calcTheorORePRR` reads: one for the first `floor(NSeO/2)`
transmissions and one for the other `ceil(NSeO/2)`. -/
def oreModes : Nat → Option (Nat × Nat)
  | 2 => some (1, 2)
  | 3 => some (2, 3)
  | 4 => some (2, 4)
  | 5 => some (3, 5)
  | 6 => some (3, 6)
  | 7 => some (4, 7)
  | 8 => some (4, 8)
  | _ => none

/-- `prr m` is the reception ratio of mode `m`. -/
def calcTheorORePRR (tau NRc : K) (NSeO : Nat) (prr : Nat → K) : K :=
  let low := NSeO / 2
  let high := (NSeO + 1) / 2
  match oreModes NSeO with
  | none => 0
  | some (first, second) =>
    let p := prr first
    let q := prr second
    let result1 := ∑ i ∈ Finset.Icc 1 high, (high.choose i : K) * q ^ i * (1 - q) ^ (high - i)
    -- both sums start at 1: the transmissions of both modes succeed
    let result2 := ∑ i ∈ Finset.Icc 1 low, ∑ j ∈ Finset.Icc 1 high,
      (low.choose (low - i) : K) * (high.choose (high - j) : K) * p ^ i * (1 - p) ^ (low - i) *
        q ^ j * (1 - q) ^ (high - j)
    NRc / (tau + 1) * result1 + (tau + 1 - NRc) / (tau + 1) * result2

def prrORE2 (tau NRc prr1 prr2 : K) : K :=
  NRc / (tau + 1) * (1 - (1 - prr2) ^ 1) +
    (tau + 1 - NRc) / (tau + 1) * (1 - (1 - prr1) ^ 1 * (1 - prr2) ^ 1)

def prrORE3 (tau NRc prr2 prr3 : K) : K :=
  NRc / (tau + 1) * (1 - (1 - prr3) ^ 2) +
    (tau + 1 - NRc) / (tau + 1) * (1 - (1 - prr2) ^ 1 * (1 - prr3) ^ 2)

def prrORE4 (tau NRc prr2 prr4 : K) : K :=
  NRc / (tau + 1) * (1 - (1 - prr4) ^ 2) +
    (tau + 1 - NRc) / (tau + 1) * (1 - (1 - prr2) ^ 2 * (1 - prr4) ^ 2)

/-- The closed form of `computeOReCurves` for one of its numbers of transmissions. -/
def oreCurve (tau NRc : K) (NSeO : Nat) (prr : Nat → K) : Option K :=
  match NSeO with
  | 2 => some (prrORE2 tau NRc (prr 1) (prr 2))
  | 3 => some (prrORE3 tau NRc (prr 2) (prr 3))
  | 4 => some (prrORE4 tau NRc (prr 2) (prr 4))
  | _ => none

theorem sum_successes (n : Nat) (p : K) :
    ∑ i ∈ Finset.Icc 1 n, (n.choose i : K) * p ^ i * (1 - p) ^ (n - i) = 1 - (1 - p) ^ n := by
  have hall : ∑ i ∈ Finset.range (n + 1), (n.choose i : K) * p ^ i * (1 - p) ^ (n - i) = 1 := by
    calc ∑ i ∈ Finset.range (n + 1), (n.choose i : K) * p ^ i * (1 - p) ^ (n - i)
        = ∑ i ∈ Finset.range (n + 1), p ^ i * (1 - p) ^ (n - i) * (n.choose i : K) :=
          Finset.sum_congr rfl fun i _ => by ring
      _ = (p + (1 - p)) ^ n := (add_pow p (1 - p) n).symm
      _ = 1 := by rw [add_sub_cancel, one_pow]
  have hnone : (n.choose 0 : K) * p ^ 0 * (1 - p) ^ (n - 0) = (1 - p) ^ n := by simp
  rw [Finset.range_eq_Ico, Finset.sum_eq_sum_Ico_succ_bot (by omega), hnone] at hall
  exact eq_sub_of_add_eq' hall

/-- The double sum counts that at least one transmission of each mode succeeds. -/
theorem sum_both (low high : Nat) (p q : K) :
    ∑ i ∈ Finset.Icc 1 low, ∑ j ∈ Finset.Icc 1 high,
      (low.choose (low - i) : K) * (high.choose (high - j) : K) * p ^ i * (1 - p) ^ (low - i) *
        q ^ j * (1 - q) ^ (high - j) = (1 - (1 - p) ^ low) * (1 - (1 - q) ^ high) := by
  rw [← sum_successes, ← sum_successes, Finset.sum_mul_sum]
  refine Finset.sum_congr rfl fun i hi => Finset.sum_congr rfl fun j hj => ?_
  rw [Nat.choose_symm (Finset.mem_Icc.mp hi).2, Nat.choose_symm (Finset.mem_Icc.mp hj).2]
  ring

theorem calcTheorORePRR_eq {tau NRc : K} {NSeO first second : Nat} {prr : Nat → K}
    (h : oreModes NSeO = some (first, second)) :
    calcTheorORePRR tau NRc NSeO prr =
      NRc / (tau + 1) * (1 - (1 - prr second) ^ ((NSeO + 1) / 2)) +
        (tau + 1 - NRc) / (tau + 1) *
          ((1 - (1 - prr first) ^ (NSeO / 2)) * (1 - (1 - prr second) ^ ((NSeO + 1) / 2))) := by
  simp only [calcTheorORePRR, h, sum_successes, sum_both]

theorem oreCurve_eq (tau NRc : K) {NSeO : Nat} (h : 2 ≤ NSeO ∧ NSeO ≤ 4) (prr : Nat → K) :
    ∃ first second, oreModes NSeO = some (first, second) ∧
      oreCurve tau NRc NSeO prr =
        some (NRc / (tau + 1) * (1 - (1 - prr second) ^ ((NSeO + 1) / 2)) +
          (tau + 1 - NRc) / (tau + 1) *
            (1 - (1 - prr first) ^ (NSeO / 2) * (1 - prr second) ^ ((NSeO + 1) / 2))) := by
  rcases (show NSeO = 2 ∨ NSeO = 3 ∨ NSeO = 4 by omega) with rfl | rfl | rfl
  · exact ⟨1, 2, rfl, rfl⟩
  · exact ⟨2, 3, rfl, rfl⟩
  · exact ⟨2, 4, rfl, rfl⟩

end Model

section Ratio

variable {K : Type} [Field K] [LinearOrder K] [IsStrictOrderedRing K]

/-- The two events agree when each mode always fails or each always succeeds. -/
theorem both_eq_any_iff {a b : K} (ha : 0 ≤ a) (ha' : a ≤ 1) (hb : 0 ≤ b) (hb' : b ≤ 1) :
    (1 - a) * (1 - b) = 1 - a * b ↔ a = 1 ∧ b = 1 ∨ a = 0 ∧ b = 0 := by
  constructor
  · intro h
    have hsum : a * (1 - b) + b * (1 - a) = 0 := by linarith
    have hleft : 0 ≤ a * (1 - b) := mul_nonneg ha (sub_nonneg.mpr hb')
    have hright : 0 ≤ b * (1 - a) := mul_nonneg hb (sub_nonneg.mpr ha')
    have hzero : a * (1 - b) = 0 := by linarith
    have hzero' : b * (1 - a) = 0 := by linarith
    rcases mul_eq_zero.mp hzero with hza | hzb
    · rcases mul_eq_zero.mp hzero' with hzb | hone
      · exact Or.inr ⟨hza, hzb⟩
      · linarith
    · rcases mul_eq_zero.mp hzero' with hzero | hone
      · linarith
      · exact Or.inl ⟨by linarith, by linarith⟩
  · rintro (⟨rfl, rfl⟩ | ⟨rfl, rfl⟩) <;> ring

/-- The two ways to draw the curve agree exactly when no transmission is of the first mode, or
both modes never or always succeed: the double sum leaves out that only one of them does. -/
theorem calcTheorORePRR_eq_oreCurve_iff {tau NRc : K} {NSeO : Nat} {prr : Nat → K}
    (htau : 0 < tau) (hNSeO : 2 ≤ NSeO ∧ NSeO ≤ 4) (hprr : ∀ m, 0 ≤ prr m ∧ prr m ≤ 1) :
    some (calcTheorORePRR tau NRc NSeO prr) = oreCurve tau NRc NSeO prr ↔
      NRc = tau + 1 ∨ ∀ first second, oreModes NSeO = some (first, second) →
        prr first = 0 ∧ prr second = 0 ∨ prr first = 1 ∧ prr second = 1 := by
  obtain ⟨first, second, hmodes, hcurve⟩ := oreCurve_eq tau NRc hNSeO prr
  have hlow : NSeO / 2 ≠ 0 := by omega
  have hhigh : (NSeO + 1) / 2 ≠ 0 := by omega
  have hfail : ∀ m, 0 ≤ 1 - prr m ∧ 1 - prr m ≤ 1 := fun m =>
    ⟨sub_nonneg.mpr (hprr m).2, sub_le_self 1 (hprr m).1⟩
  have hevents := both_eq_any_iff (pow_nonneg (hfail first).1 (NSeO / 2))
    (pow_le_one₀ (hfail first).1 (hfail first).2) (pow_nonneg (hfail second).1 ((NSeO + 1) / 2))
    (pow_le_one₀ (hfail second).1 (hfail second).2)
  rw [pow_eq_one_iff_of_nonneg (hfail first).1 hlow, pow_eq_one_iff_of_nonneg (hfail second).1 hhigh,
    pow_eq_zero_iff hlow, pow_eq_zero_iff hhigh, sub_eq_self, sub_eq_self, sub_eq_zero,
    sub_eq_zero] at hevents
  have hweight : (tau + 1 - NRc) / (tau + 1) = 0 ↔ NRc = tau + 1 := by
    rw [div_eq_zero_iff, or_iff_left (by linarith : tau + 1 ≠ 0), sub_eq_zero]
    exact eq_comm
  rw [calcTheorORePRR_eq hmodes, hcurve, Option.some.injEq, add_right_inj, mul_eq_mul_left_iff,
    hevents, hweight, or_comm]
  refine or_congr_right ⟨fun h first' second' hmodes' => ?_, fun h => ?_⟩
  · rw [hmodes] at hmodes'
    cases hmodes'
    rwa [eq_comm (a := (1 : K)), eq_comm (a := (1 : K))] at h
  · rw [eq_comm (a := (1 : K)), eq_comm (a := (1 : K))]
    exact h first second hmodes

theorem calcTheorORePRR_eq_oreCurve_iff_half :
    some (calcTheorORePRR (10 : ℚ) 0 3 fun _ => 1 / 2) = oreCurve 10 0 3 (fun _ => 1 / 2) ↔
      (0 : ℚ) = 10 + 1 ∨ ∀ first second, oreModes 3 = some (first, second) →
        (1 / 2 : ℚ) = 0 ∧ (1 / 2 : ℚ) = 0 ∨ (1 / 2 : ℚ) = 1 ∧ (1 / 2 : ℚ) = 1 :=
  calcTheorORePRR_eq_oreCurve_iff (by norm_num) (by decide) fun _ => by norm_num

/-- With two transmissions that succeed with 1/2 the sums give 1/4 and the curve 3/4. -/
theorem calcTheorORePRR_fails_half :
    ¬∀ (tau NRc : ℚ) (NSeO : Nat) (prr : Nat → ℚ), 0 < tau → 0 ≤ NRc → NRc ≤ tau + 1 →
      2 ≤ NSeO ∧ NSeO ≤ 4 → (∀ m, 0 ≤ prr m ∧ prr m ≤ 1) →
      some (calcTheorORePRR tau NRc NSeO prr) = oreCurve tau NRc NSeO prr := by
  intro claimed
  have heq := claimed 10 0 2 (fun _ => 1 / 2) (by norm_num) (by norm_num) (by norm_num) (by decide)
    fun _ => by norm_num
  rw [calcTheorORePRR_eq rfl, oreCurve, prrORE2, Option.some.injEq] at heq
  norm_num at heq

end Ratio

end SidelinkORe
