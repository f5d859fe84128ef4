import SidelinkORe.ExclusionCounts

namespace SidelinkORe

section CollisionTerm

variable {K : Type} [Field K]

/-- `OEx(i)` for `S` shared resources. -/
def oEx (S CEx NExt : K) : K := NExt ^ 2 / (S - CEx)

/-- `X` and `N` of the collision probability. -/
def collisionX (S CEx NExt : K) : K :=
  S - (2 : Nat) * (NExt - oEx S CEx NExt) - (CEx + oEx S CEx NExt)

def collisionN (S CEx NExt : K) : K := S - CEx - NExt

variable {S CEx NExt : K}

theorem collisionX_eq (NExt : K) (h : S - CEx ≠ 0) :
    collisionX S CEx NExt = collisionN S CEx NExt ^ 2 / (S - CEx) := by
  unfold collisionX collisionN oEx
  rw [Nat.cast_ofNat]
  field_simp
  ring

variable [LinearOrder K]

/-- No divisor of the collision term is 0, and the term is one of the resources that the other
UE did not exclude. -/
structure DividesSafely (S CEx NExt : K) : Prop where
  nExtNonneg : 0 ≤ NExt
  sharedPos : 0 < S - CEx
  nPos : 0 < collisionN S CEx NExt
  xEq : collisionX S CEx NExt = collisionN S CEx NExt ^ 2 / (S - CEx)
  xPos : 0 < collisionX S CEx NExt
  xLe : collisionX S CEx NExt ≤ collisionN S CEx NExt
  quotient : collisionX S CEx NExt / collisionN S CEx NExt * (1 / collisionN S CEx NExt) =
    1 / (S - CEx)

variable [IsStrictOrderedRing K]

theorem dividesSafely_of (hNExt : 0 ≤ NExt) (hlt : NExt < S - CEx) : DividesSafely S CEx NExt := by
  have hshared : 0 < S - CEx := hNExt.trans_lt hlt
  have hN : 0 < collisionN S CEx NExt := sub_pos.mpr hlt
  have hNle : collisionN S CEx NExt ≤ S - CEx := sub_le_self _ hNExt
  have hX := collisionX_eq NExt hshared.ne'
  refine ⟨hNExt, hshared, hN, hX, ?_, ?_, ?_⟩
  · rw [hX]
    positivity
  · rw [hX, div_le_iff₀ hshared, sq]
    exact mul_le_mul_of_nonneg_left hNle hN.le
  · rw [hX]
    field_simp

variable [FloorRing K]

/-- `CEx` lies between two of the `n + 1` states of the chain, and both have their row. -/
structure RowsExist (n : Nat) (CEx : K) : Prop where
  nonneg : 0 ≤ CEx
  lt : CEx < n
  floorRow : 1 ≤ ⌊CEx⌋ + 1 ∧ ⌊CEx⌋ + 1 ≤ (n : Int) + 1
  ceilRow : 1 ≤ ⌈CEx⌉ + 1 ∧ ⌈CEx⌉ + 1 ≤ (n : Int) + 1

theorem rowsExist_of {n : Nat} {CEx : K} (hnonneg : 0 ≤ CEx) (hlt : CEx < n) : RowsExist n CEx := by
  have hfloor : 0 ≤ ⌊CEx⌋ := Int.floor_nonneg.mpr hnonneg
  have hceil : ⌈CEx⌉ ≤ (n : Int) := Int.ceil_le.mpr (by exact_mod_cast hlt.le)
  have hbetween : ⌊CEx⌋ ≤ ⌈CEx⌉ := Int.floor_le_ceil CEx
  exact ⟨hnonneg, hlt, ⟨by omega, by omega⟩, ⟨by omega, by omega⟩⟩

/-- For every window and all numbers of receptions the rows of the chain exist and the collision
term divides by positive numbers only. -/
theorem collisionTerm_safe {T1 T2 : Int} {NrxB Nrxt : K} (h : T1 ≤ T2) (hB : 0 ≤ NrxB)
    (ht : 0 ≤ Nrxt) :
    (chainSize K T1 T2 : K) ≤ sharedResources K T1 T2 ∧
      RowsExist (chainSize K T1 T2) (cEx (chainSize K T1 T2) NrxB) ∧
      ∃ NExt, nExt (chainSize K T1 T2) (cEx (chainSize K T1 T2) NrxB) Nrxt = some NExt ∧
        DividesSafely (sharedResources K T1 T2) (cEx (chainSize K T1 T2) NrxB) NExt := by
  have hfour : 4 ≤ chainSize K T1 T2 := four_le_chainSize h
  have hle : (chainSize K T1 T2 : K) ≤ sharedResources K T1 T2 := chainSize_le_sharedResources h
  have hnonneg : 0 ≤ cEx (chainSize K T1 T2) NrxB := cEx_nonneg (by omega) hB
  have hlt : cEx (chainSize K T1 T2) NrxB < chainSize K T1 T2 := cEx_lt (by omega) hB
  refine ⟨hle, rowsExist_of hnonneg hlt, _, nExt_eq (by omega) hnonneg hlt.le Nrxt, ?_⟩
  apply dividesSafely_of
  · exact blend_newlyExcluded_nonneg (by omega) hlt.le ht
  · have hrest := blend_newlyExcluded_lt (show 2 ≤ chainSize K T1 T2 by omega) hlt ht
    linarith

end CollisionTerm

/-- A window of 32 slots with 7/2 and 5/2 receptions. -/
theorem collisionTerm_safe_window :
    (chainSize ℚ 2 33 : ℚ) ≤ sharedResources ℚ 2 33 ∧
      RowsExist (chainSize ℚ 2 33) (cEx (chainSize ℚ 2 33) (7 / 2 : ℚ)) ∧
      ∃ NExt, nExt (chainSize ℚ 2 33) (cEx (chainSize ℚ 2 33) (7 / 2 : ℚ)) (5 / 2) = some NExt ∧
        DividesSafely (sharedResources ℚ 2 33) (cEx (chainSize ℚ 2 33) (7 / 2 : ℚ)) NExt :=
  collisionTerm_safe (by decide) (by norm_num) (by norm_num)

end SidelinkORe
