import SidelinkORe.ExclusionChain
import SidelinkORe.Interpolation
import Mathlib.Algebra.Order.Round

namespace SidelinkORe

section Model

variable (K : Type) [Field K]

def subchannelsPerChannel : Nat := 4

/-- The mean number of slots that two selection windows share. -/
def nshPue (T1 T2 : Int) : K := ((T2 - T1 + 1 : Int) : K) ^ 2 / (2 * (T2 - T1) + 1 : Int)

def sharedResources (T1 T2 : Int) : K := subchannelsPerChannel * nshPue K T1 T2

variable [LinearOrder K] [FloorRing K]

/-- `round(subchannelsPerChannel*NshPUE)` -/
def chainSize (T1 T2 : Int) : Nat := (round (sharedResources K T1 T2)).toNat

variable {K} {n : Nat}

/-- The row of a state; there is none beyond the last state. -/
def rowMean (P : Matrix (Fin (n + 1)) (Fin (n + 1)) K) (s : Int) : Option K :=
  if h : 0 ≤ s ∧ s.toNat < n + 1 then some (stateMean P ⟨s.toNat, h.2⟩) else none

/-- The resources excluded by both UEs, `CEx(i)`. -/
def cEx (n : Nat) (NrxB : K) : K :=
  let PExCEx1 := formT K n ^ ⌊NrxB⌋₊
  let PExCEx2 := formT K n ^ ⌈NrxB⌉₊
  let CEx1 := stateMean PExCEx1 0
  let CEx2 := stateMean PExCEx2 0
  CEx1 * (⌈NrxB⌉₊ - NrxB) + CEx2 * (NrxB - ⌊NrxB⌋₊)

/-- The resources excluded by one of the UEs, `NExt(i)`. -/
def nExt (n : Nat) (CEx Nrxt : K) : Option K := do
  let PExNExt1 := formT K n ^ ⌊Nrxt⌋₊
  let PExNExt2 := formT K n ^ ⌈Nrxt⌉₊
  let NExt1 ← (rowMean PExNExt1 ⌊CEx⌋).map (· - CEx)
  let NExt2 ← (rowMean PExNExt1 ⌈CEx⌉).map (· - CEx)
  let NExt3 ← (rowMean PExNExt2 ⌊CEx⌋).map (· - CEx)
  let NExt4 ← (rowMean PExNExt2 ⌈CEx⌉).map (· - CEx)
  if Int.fract CEx = 0 then
    pure ((⌈Nrxt⌉₊ - Nrxt) * NExt1 + (Nrxt - ⌊Nrxt⌋₊) * NExt3)
  else
    pure ((⌈Nrxt⌉₊ - Nrxt) * (NExt1 * (⌈CEx⌉ - CEx) + NExt2 * (CEx - ⌊CEx⌋)) +
      (Nrxt - ⌊Nrxt⌋₊) * (NExt3 * (⌈CEx⌉ - CEx) + NExt4 * (CEx - ⌊CEx⌋)))

end Model

section Rows

variable {K : Type} [Field K]

/-- Each of the `n - c` resources left is excluded by one of `k` receptions. -/
def newlyExcluded (n : Nat) (c : K) (k : Nat) : K := (n - c) * (1 - (1 - 1 / n) ^ k)

theorem newlyExcluded_zero (n : Nat) (c : K) : newlyExcluded n c 0 = 0 := by
  simp [newlyExcluded]

variable [LinearOrder K] [IsStrictOrderedRing K] {n : Nat} {c : K}

theorem newlyExcluded_eq_stateMean (hn : 1 ≤ n) (k : Nat) (s : Fin (n + 1)) :
    stateMean (formT K n ^ k) s - s = newlyExcluded n (s : K) k := by
  rw [stateMean_pow hn, newlyExcluded]
  ring

theorem rowMean_pow (hn : 1 ≤ n) {s : Int} (h : 0 ≤ s) (hle : s ≤ n) (k : Nat) :
    rowMean (formT K n ^ k) s = some (n - (n - (s : K)) * (1 - 1 / n) ^ k) := by
  have hs : 0 ≤ s ∧ s.toNat < n + 1 := ⟨h, by omega⟩
  have hcast : ((s.toNat : Nat) : K) = s := by
    rw [← Int.cast_natCast, Int.toNat_of_nonneg h]
  rw [rowMean, dif_pos hs, stateMean_pow hn, hcast]

theorem newlyExcluded_mono (hn : 1 ≤ n) (hle : c ≤ n) : Monotone (newlyExcluded n c) := by
  intro k k' hk
  have hpow : (1 - 1 / n : K) ^ k' ≤ (1 - 1 / n) ^ k :=
    pow_le_pow_of_le_one (ratio_nonneg hn) (ratio_lt_one hn).le hk
  exact mul_le_mul_of_nonneg_left (by linarith) (sub_nonneg.mpr hle)

theorem newlyExcluded_pos (hn : 1 ≤ n) (hlt : c < n) {k : Nat} (hk : 0 < k) :
    0 < newlyExcluded n c k := by
  have hpow : (1 - 1 / n : K) ^ k < 1 := pow_lt_one₀ (ratio_nonneg hn) (ratio_lt_one hn) hk.ne'
  exact mul_pos (sub_pos.mpr hlt) (sub_pos.mpr hpow)

theorem newlyExcluded_lt (hn : 2 ≤ n) (hlt : c < n) (k : Nat) : newlyExcluded n c k < n - c := by
  have hpow : (0 : K) < (1 - 1 / n) ^ k := pow_pos (ratio_pos hn) k
  have hrest := mul_pos (sub_pos.mpr hlt) hpow
  unfold newlyExcluded
  linarith

theorem newlyExcluded_step (hn : 1 ≤ n) (hle : c ≤ n) (k : Nat) :
    newlyExcluded n c (k + 1) - newlyExcluded n c k ≤ n - c := by
  have hnext : (0 : K) ≤ (1 - 1 / n) ^ (k + 1) := pow_nonneg (ratio_nonneg hn) _
  have hpow : (1 - 1 / n : K) ^ k ≤ 1 := pow_le_one₀ (ratio_nonneg hn) (ratio_lt_one hn).le
  have hpart : ((n : K) - c) * ((1 - 1 / n) ^ k - (1 - 1 / n) ^ (k + 1)) ≤ (n - c) * 1 :=
    mul_le_mul_of_nonneg_left (by linarith) (sub_nonneg.mpr hle)
  unfold newlyExcluded
  linarith

end Rows

section Counts

variable {K : Type} [Field K] [LinearOrder K] [FloorRing K] [IsStrictOrderedRing K] {n k : Nat}
  {c x y : K}

theorem cEx_eq (hn : 1 ≤ n) (x : K) : cEx n x = blend (newlyExcluded n 0) x := by
  have hmean : ∀ k, stateMean (formT K n ^ k) 0 = newlyExcluded n 0 k := by
    intro k
    have heq := newlyExcluded_eq_stateMean (K := K) hn k 0
    simpa using heq
  simp only [cEx, blend, hmean]

/-- Between two states the mean of the two rows is the one of their mean. -/
theorem inner_blend (hno : Int.fract c ≠ 0) (k : Nat) :
    (n - (n - (⌊c⌋ : K)) * (1 - 1 / n) ^ k - c) * (⌈c⌉ - c) +
      (n - (n - (⌈c⌉ : K)) * (1 - 1 / n) ^ k - c) * (c - ⌊c⌋) = newlyExcluded n c k := by
  have hceil : (⌈c⌉ : K) = ⌊c⌋ + 1 := by
    rw [Int.ceil_eq_add_one_sub_fract hno, ← Int.self_sub_fract]
    ring
  rw [hceil, newlyExcluded]
  ring

/-- Both rows of the chain exist, and their mean is linear in the state. -/
theorem nExt_eq (hn : 1 ≤ n) (h : 0 ≤ c) (hle : c ≤ n) (y : K) :
    nExt n c y = some (blend (newlyExcluded n c) y) := by
  have hfloor : 0 ≤ ⌊c⌋ := Int.floor_nonneg.mpr h
  have hceil : ⌈c⌉ ≤ (n : Int) := Int.ceil_le.mpr (by exact_mod_cast hle)
  have hbetween : ⌊c⌋ ≤ ⌈c⌉ := Int.floor_le_ceil c
  have hlow := rowMean_pow (K := K) hn hfloor (hbetween.trans hceil)
  have hhigh := rowMean_pow (K := K) hn (hfloor.trans hbetween) hceil
  simp only [nExt, hlow, hhigh, Option.map_some, Option.bind_eq_bind, Option.bind_some]
  by_cases hwhole : Int.fract c = 0
  · have hc : (⌊c⌋ : K) = c := by
      rw [← Int.self_sub_fract, hwhole, sub_zero]
    rw [if_pos hwhole, hc]
    simp only [blend, newlyExcluded]
    congr 1
    ring
  · rw [if_neg hwhole, inner_blend hwhole, inner_blend hwhole]
    simp only [blend]
    congr 1
    ring

/-- At an integer the weights give 0, elsewhere the interpolation. -/
theorem blend_newlyExcluded_nonneg (hn : 1 ≤ n) (hle : c ≤ n) (hy : 0 ≤ y) :
    0 ≤ blend (newlyExcluded n c) y := by
  by_cases hno : ∀ k : Nat, y ≠ k
  · have hmono := newlyExcluded_mono hn hle
    rw [blend_eq_interpolate hy hno]
    calc (0 : K) = newlyExcluded n c 0 := (newlyExcluded_zero n c).symm
      _ ≤ newlyExcluded n c ⌊y⌋₊ := hmono (Nat.zero_le _)
      _ ≤ interpolate (newlyExcluded n c) y := le_interpolate hmono hy
  · obtain ⟨k, hk⟩ := not_forall.mp hno
    rw [not_not.mp hk, blend_natCast]

theorem blend_newlyExcluded_lt (hn : 2 ≤ n) (hlt : c < n) (hy : 0 ≤ y) :
    blend (newlyExcluded n c) y < n - c := by
  by_cases hno : ∀ k : Nat, y ≠ k
  · rw [blend_eq_interpolate hy hno]
    exact (interpolate_le_next (newlyExcluded_mono (by omega) hlt.le) y).trans_lt
      (newlyExcluded_lt hn hlt _)
  · obtain ⟨k, hk⟩ := not_forall.mp hno
    rw [not_not.mp hk, blend_natCast]
    exact sub_pos.mpr hlt

theorem cEx_nonneg (hn : 1 ≤ n) (hx : 0 ≤ x) : 0 ≤ cEx n x := by
  rw [cEx_eq hn]
  exact blend_newlyExcluded_nonneg hn (Nat.cast_nonneg n) hx

theorem cEx_lt (hn : 2 ≤ n) (hx : 0 ≤ x) : cEx n x < n := by
  have hpos : (0 : K) < n := Nat.cast_pos.mpr (by omega)
  rw [cEx_eq (by omega)]
  simpa using blend_newlyExcluded_lt hn hpos hx

end Counts

section Window

variable {K : Type} [Field K] [LinearOrder K] [IsStrictOrderedRing K] {T1 T2 : Int}

/-- The number of shared resources is just above an odd number. -/
theorem sharedResources_eq (h : T1 ≤ T2) :
    sharedResources K T1 T2 = (2 * (T2 - T1) + 3 : Int) + 1 / (2 * (T2 - T1) + 1 : Int) := by
  have hpos : (0 : K) < (2 * (T2 - T1) + 1 : Int) := Int.cast_pos.mpr (by omega)
  unfold sharedResources nshPue subchannelsPerChannel
  rw [eq_comm, ← sub_eq_zero]
  push_cast at hpos ⊢
  field_simp
  ring

variable [FloorRing K]

theorem chainSize_eq (h : T1 ≤ T2) :
    (chainSize K T1 T2 : Int) = if T1 = T2 then 4 else 2 * (T2 - T1) + 3 := by
  unfold chainSize
  rw [sharedResources_eq h]
  split
  next heq =>
    subst heq
    have hfour : ((2 * (T1 - T1) + 3 : Int) : K) + 1 / (2 * (T1 - T1) + 1 : Int) = (4 : Int) := by
      norm_num
    rw [hfour, round_intCast]
    rfl
  next hne =>
    have hthree : (3 : K) ≤ (2 * (T2 - T1) + 1 : Int) := by exact_mod_cast (by omega)
    have hpos : (0 : K) < (2 * (T2 - T1) + 1 : Int) := by linarith
    have hround : round (1 / ((2 * (T2 - T1) + 1 : Int) : K)) = 0 := by
      refine round_eq_zero_iff.mpr ⟨?_, ?_⟩
      · have hinv : (0 : K) < 1 / (2 * (T2 - T1) + 1 : Int) := by positivity
        linarith
      · rw [div_lt_div_iff₀ hpos two_pos]
        linarith
    rw [round_intCast_add, hround]
    omega

theorem four_le_chainSize (h : T1 ≤ T2) : 4 ≤ chainSize K T1 T2 := by
  have hsize := chainSize_eq (K := K) h
  split at hsize <;> omega

theorem chainSize_le_sharedResources (h : T1 ≤ T2) :
    (chainSize K T1 T2 : K) ≤ sharedResources K T1 T2 := by
  have hcast : ((chainSize K T1 T2 : Int) : K) ≤ (2 * (T2 - T1) + 3 : Int) + 1 / (2 * (T2 - T1) + 1 : Int) := by
    rw [chainSize_eq h]
    split
    next heq =>
      subst heq
      norm_num
    next hne =>
      have hpos : (0 : K) < (2 * (T2 - T1) + 1 : Int) := Int.cast_pos.mpr (by omega)
      have hinv : (0 : K) < 1 / (2 * (T2 - T1) + 1 : Int) := by positivity
      linarith
  rw [sharedResources_eq h]
  simpa using hcast

end Window

end SidelinkORe
