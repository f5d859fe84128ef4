import SidelinkORe.DecayingMean
import SidelinkORe.MatlabArray
import Mathlib.Algebra.Order.Field.Rat
import Mathlib.Tactic.FieldSimp

namespace SidelinkORe

open Matrix

section FormT

variable {K : Type} [Field K]

def formTStep (Nr : Nat) (temp : Nat → Nat → K) (i : Nat) : Nat → Nat → K :=
  let temp := setEntry temp i i (temp (i - 1) (i - 1) + 1 / Nr)
  if i ≤ Nr then setEntry temp i (i + 1) (temp (i - 1) i - 1 / Nr) else temp

/-- The transition matrix: state `s` is row `s + 1` of the source. -/
def formT (K : Type) [Field K] (Nr : Nat) : Matrix (Fin (Nr + 1)) (Fin (Nr + 1)) K :=
  let temp := (List.range' 2 Nr).foldl (formTStep Nr) (setEntry (fun _ _ => 0) 1 2 1)
  of fun s j => temp (s + 1) (j + 1)

/-- The probability of going from `s` excluded resources to `j` with one more reception. -/
def exclusionProb (K : Type) [Field K] (Nr s j : Nat) : K :=
  if j = s then s / Nr else if j = s + 1 then 1 - s / Nr else 0

variable {Nr : Nat}

/-- The rows up to `m` are filled, all others are zero. -/
def Filled (Nr m : Nat) (temp : Nat → Nat → K) : Prop :=
  ∀ s j, s ≤ Nr → j ≤ Nr → temp (s + 1) (j + 1) = if s < m then exclusionProb K Nr s j else 0

theorem filled_start : Filled Nr 1 (setEntry (fun _ _ => (0 : K)) 1 2 1) := by
  intro s j _ _
  unfold setEntry exclusionProb
  by_cases hs : s = 0
  · subst hs
    by_cases hj : j = 0
    · simp [hj]
    · by_cases hone : j = 1
      · simp [hone]
      · simp [hj, hone]
  · have hnot : ¬s < 1 := by omega
    simp [hs]

/-- Every row comes from the one above it. -/
theorem filled_step {m : Nat} {temp : Nat → Nat → K} (h : Filled Nr m temp) (hm : 1 ≤ m)
    (hle : m ≤ Nr) : Filled Nr (m + 1) (formTStep Nr temp (m + 1)) := by
  obtain ⟨k, rfl⟩ := Nat.exists_eq_add_of_le' hm
  have hstay : temp (k + 1) (k + 1) = k / Nr := by
    rw [h k k (by omega) (by omega), if_pos (by omega), exclusionProb, if_pos rfl]
  have hmove : temp (k + 1) (k + 2) = 1 - k / Nr := by
    rw [h k (k + 1) (by omega) (by omega), if_pos (by omega), exclusionProb, if_neg (by omega),
      if_pos rfl]
  intro s j hs hj
  by_cases hrow : s = k + 1
  · subst hrow
    have hzero := h (k + 1) j hs hj
    rw [if_neg (by omega)] at hzero
    rw [if_pos (by omega)]
    unfold formTStep setEntry exclusionProb
    simp only [Nat.add_sub_cancel, hstay, hmove]
    by_cases hdiag : j = k + 1
    · subst hdiag
      split <;> simp [add_div]
    · by_cases hnext : j = k + 2
      · subst hnext
        rw [if_pos (by omega)]
        simp [add_div, sub_sub]
      · split <;> simp [hdiag, hnext, hzero]
  · have hother : formTStep Nr temp (k + 1 + 1) (s + 1) (j + 1) = temp (s + 1) (j + 1) := by
      unfold formTStep setEntry
      split <;> simp [hrow]
    rw [hother, h s j hs hj]
    simp only [show s < k + 1 + 1 ↔ s < k + 1 by omega]

theorem filled_range {n m : Nat} {temp : Nat → Nat → K} (h : Filled Nr m temp) (hm : 1 ≤ m)
    (hle : m + n ≤ Nr + 1) : Filled Nr (m + n) ((List.range' (m + 1) n).foldl (formTStep Nr) temp) := by
  induction n generalizing m temp with
  | zero => exact h
  | succ n ih =>
    rw [List.range'_succ, List.foldl_cons, Nat.add_comm n 1, ← Nat.add_assoc]
    exact ih (filled_step h hm (by omega)) (by omega) (by omega)

/-- The recurrence along the diagonal gives the probabilities of the chain. -/
theorem formT_apply (s j : Fin (Nr + 1)) : formT K Nr s j = exclusionProb K Nr s j := by
  have hfilled : Filled Nr (1 + Nr) (_ : Nat → Nat → K) :=
    filled_range filled_start le_rfl (by omega)
  have hentry := hfilled s j (by omega) (by omega)
  rw [if_pos (by omega)] at hentry
  exact hentry

end FormT

section Chain

variable {K : Type} [Field K] [LinearOrder K] [IsStrictOrderedRing K] {Nr : Nat}

theorem state_div_le (hNr : 1 ≤ Nr) (s : Fin (Nr + 1)) : (s : K) / Nr ≤ 1 := by
  have hpos : (0 : K) < Nr := Nat.cast_pos.mpr hNr
  rw [div_le_one hpos]
  exact_mod_cast Nat.lt_succ_iff.mp s.isLt

theorem formT_sum (hNr : 1 ≤ Nr) (v : Nat → K) (s : Fin (Nr + 1)) :
    ∑ j, formT K Nr s j * v j = s / Nr * v s + (1 - s / Nr) * v (s + 1) := by
  have hpos : (Nr : K) ≠ 0 := Nat.cast_ne_zero.mpr (by omega)
  have hsplit : ∀ j : Nat, exclusionProb K Nr s j * v j =
      (if j = s then s / Nr * v s else 0) + if j = s + 1 then (1 - s / Nr) * v (s + 1) else 0 := by
    intro j
    unfold exclusionProb
    by_cases hs : j = s
    · simp [hs]
    · by_cases hnext : j = s + 1
      · simp [hnext]
      · simp [hs, hnext]
  have hlast : (s : Nat) + 1 ∉ Finset.range (Nr + 1) → (1 - (s : K) / Nr) * v (s + 1) = 0 := by
    intro hout
    have heq : (s : Nat) = Nr := by
      rw [Finset.mem_range] at hout
      omega
    rw [heq, div_self hpos, sub_self, zero_mul]
  simp only [formT_apply]
  rw [Fin.sum_univ_eq_sum_range fun j => exclusionProb K Nr s j * v j]
  simp only [hsplit, Finset.sum_add_distrib, Finset.sum_ite_eq', Finset.mem_range, s.isLt, if_true]
  split
  next => rfl
  next hout => rw [hlast (by simpa using hout)]

theorem formT_rowStochastic (hNr : 1 ≤ Nr) : formT K Nr ∈ rowStochastic K (Fin (Nr + 1)) := by
  refine mem_rowStochastic_iff_sum.mpr ⟨fun s j => ?_, fun s => ?_⟩
  · have hle := state_div_le (K := K) hNr s
    rw [formT_apply]
    unfold exclusionProb
    split
    next => positivity
    next => split <;> linarith
  · have hsum := formT_sum hNr (fun _ => (1 : K)) s
    simp only [mul_one] at hsum
    rw [hsum]
    ring

/-- `sum([0:Nr].*P(s+1,:))` -/
def stateMean (P : Matrix (Fin (Nr + 1)) (Fin (Nr + 1)) K) (s : Fin (Nr + 1)) : K :=
  ∑ j : Fin (Nr + 1), (j : K) * P s j

/-- The mean number of excluded resources after `k` receptions, from `s` on. -/
theorem stateMean_pow (hNr : 1 ≤ Nr) (k : Nat) (s : Fin (Nr + 1)) :
    stateMean (formT K Nr ^ k) s = Nr - (Nr - s) * (1 - 1 / Nr) ^ k := by
  have hpos : (Nr : K) ≠ 0 := Nat.cast_ne_zero.mpr (by omega)
  have hstep : ∀ s : Fin (Nr + 1), (Nr : K) - (formT K Nr *ᵥ fun j => (j : K)) s =
      (1 - 1 / Nr) * (Nr - s) := by
    intro s
    have hsum : (formT K Nr *ᵥ fun j => (j : K)) s = s / Nr * s + (1 - s / Nr) * ((s : Nat) + 1 : Nat) :=
      formT_sum hNr (fun j => (j : K)) s
    rw [hsum]
    push_cast
    field_simp
    ring
  calc stateMean (formT K Nr ^ k) s = (formT K Nr ^ k *ᵥ fun j => (j : K)) s :=
        Finset.sum_congr rfl fun j _ => mul_comm _ _
    _ = Nr - (1 - 1 / Nr) ^ k * (Nr - s) := pow_mean_eq (formT_rowStochastic hNr) hstep k s
    _ = Nr - (Nr - s) * (1 - 1 / Nr) ^ k := by ring

theorem ratio_pos (hNr : 2 ≤ Nr) : (0 : K) < 1 - 1 / Nr := by
  have hpos : (0 : K) < Nr := Nat.cast_pos.mpr (by omega)
  have htwo : (2 : K) ≤ Nr := by exact_mod_cast hNr
  rw [sub_pos, div_lt_one hpos]
  linarith

theorem ratio_nonneg (hNr : 1 ≤ Nr) : (0 : K) ≤ 1 - 1 / Nr := by
  have hone : (1 : K) ≤ Nr := by exact_mod_cast hNr
  rw [sub_nonneg, div_le_one (by linarith)]
  exact hone

theorem ratio_lt_one (hNr : 1 ≤ Nr) : (1 - 1 / Nr : K) < 1 := by
  have hpos : (0 : K) < Nr := Nat.cast_pos.mpr hNr
  have hinv : (0 : K) < 1 / Nr := by positivity
  linarith

/-- The matrix is the one of the chain that excludes one more resource with the probability that
the next reception is in a resource that is still there. -/
theorem formT_chain (hNr : 1 ≤ Nr) :
    (∀ s j : Fin (Nr + 1), 0 ≤ formT K Nr s j ∧ formT K Nr s j ≤ 1) ∧
    (∀ s : Fin (Nr + 1), ∑ j, formT K Nr s j = 1) ∧
    (∀ s j : Fin (Nr + 1), formT K Nr s j ≠ 0 → (j : Nat) = s ∨ (j : Nat) = s + 1) ∧
    ∀ (s : Fin (Nr + 1)) (k : Nat),
      stateMean (formT K Nr ^ k) s = Nr - (Nr - s) * (1 - 1 / Nr) ^ k ∧
      (s : K) ≤ stateMean (formT K Nr ^ k) s ∧ stateMean (formT K Nr ^ k) s ≤ Nr ∧
      ((s : Nat) < Nr → 2 ≤ Nr → stateMean (formT K Nr ^ k) s < Nr) := by
  have hT := formT_rowStochastic (K := K) hNr
  refine ⟨fun s j => ⟨nonneg_of_mem_rowStochastic hT, le_one_of_mem_rowStochastic hT⟩,
    sum_row_of_mem_rowStochastic hT, fun s j hne => ?_, fun s k => ?_⟩
  · rw [formT_apply] at hne
    unfold exclusionProb at hne
    by_contra hnot
    obtain ⟨hstay, hmove⟩ := not_or.mp hnot
    rw [if_neg hstay, if_neg hmove] at hne
    exact hne rfl
  · have hroom : (0 : K) ≤ Nr - s := by
      rw [sub_nonneg]
      exact_mod_cast Nat.lt_succ_iff.mp s.isLt
    have hpow : (0 : K) ≤ (1 - 1 / Nr) ^ k := pow_nonneg (ratio_nonneg hNr) k
    have hpowLe : (1 - 1 / Nr : K) ^ k ≤ 1 := pow_le_one₀ (ratio_nonneg hNr) (ratio_lt_one hNr).le
    rw [stateMean_pow hNr]
    refine ⟨rfl, ?_, ?_, fun hs htwo => ?_⟩
    · have hless := mul_le_mul_of_nonneg_left hpowLe hroom
      linarith
    · linarith [mul_nonneg hroom hpow]
    · have hrest : (0 : K) < Nr - s := by
        rw [sub_pos]
        exact_mod_cast hs
      linarith [mul_pos hrest (pow_pos (ratio_pos (K := K) htwo) k)]

theorem formT_chain_two :
    (∀ s j : Fin 3, 0 ≤ formT ℚ 2 s j ∧ formT ℚ 2 s j ≤ 1) ∧
    (∀ s : Fin 3, ∑ j, formT ℚ 2 s j = 1) ∧
    (∀ s j : Fin 3, formT ℚ 2 s j ≠ 0 → (j : Nat) = s ∨ (j : Nat) = s + 1) ∧
    ∀ (s : Fin 3) (k : Nat),
      stateMean (formT ℚ 2 ^ k) s = (2 : Nat) - ((2 : Nat) - s) * (1 - 1 / (2 : Nat)) ^ k ∧
      (s : ℚ) ≤ stateMean (formT ℚ 2 ^ k) s ∧ stateMean (formT ℚ 2 ^ k) s ≤ (2 : Nat) ∧
      ((s : Nat) < 2 → 2 ≤ 2 → stateMean (formT ℚ 2 ^ k) s < (2 : Nat)) :=
  formT_chain (by decide)

end Chain

end SidelinkORe
