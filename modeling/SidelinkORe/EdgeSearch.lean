import SidelinkORe.WhileLoop
import Mathlib.Algebra.Order.Archimedean.Basic

namespace SidelinkORe

/-- The variables of the search for `dEdge`. -/
structure EdgeState where
  tempEdge : Nat
  temp : ℚ

section EdgeSearch

variable (dZ gamma : ℚ) (distFromRx : List ℚ)

/-- The distances from `edge` on, marked with 1. -/
def edgeUe (edge : ℚ) : List Nat := distFromRx.map fun x => if edge ≤ x then 1 else 0

def edgeStep (s : EdgeState) : EdgeState :=
  let marks := edgeUe distFromRx (s.tempEdge * dZ)
  let temp := (marks.sum : ℚ) / marks.length
  -- a fraction of exactly `gamma` ends the loop, so the step that is subtracted later is added first
  ⟨if gamma ≤ temp then s.tempEdge + 1 else s.tempEdge, temp⟩

def edgeSearch (fuel : Nat) : Option EdgeState :=
  whileLoop (fun s : EdgeState => gamma < s.temp) (edgeStep dZ gamma distFromRx) fuel ⟨1, 1⟩

def EdgeState.dEdge (s : EdgeState) : ℚ := ((s.tempEdge : ℚ) - 1) * dZ

/-- The fraction of the distances that are at least `edge`. -/
def fractionFrom (edge : ℚ) : ℚ := (distFromRx.countP fun x => edge ≤ x) / distFromRx.length

/-- A distance in steps of the zone size at which the fraction passes `gamma`. -/
structure BracketsEdge (dEdge : ℚ) : Prop where
  nonneg : 0 ≤ dEdge
  inside : gamma ≤ fractionFrom distFromRx dEdge
  outside : fractionFrom distFromRx (dEdge + dZ) ≤ gamma

variable {dZ gamma distFromRx} {s : EdgeState}

theorem edgeUe_sum (edge : ℚ) : (edgeUe distFromRx edge).sum = distFromRx.countP fun x => edge ≤ x := by
  unfold edgeUe
  induction distFromRx with
  | nil => rfl
  | cons x l ih =>
    by_cases hx : edge ≤ x
    · simp [hx, ih, Nat.add_comm]
    · simp [hx, ih]

theorem edgeStep_eq (s : EdgeState) : edgeStep dZ gamma distFromRx s =
    ⟨if gamma ≤ fractionFrom distFromRx (s.tempEdge * dZ) then s.tempEdge + 1 else s.tempEdge,
      fractionFrom distFromRx (s.tempEdge * dZ)⟩ := by
  have hlength : (edgeUe distFromRx (s.tempEdge * dZ)).length = distFromRx.length :=
    List.length_map _
  have htemp : ((edgeUe distFromRx (s.tempEdge * dZ)).sum : ℚ) /
      (edgeUe distFromRx (s.tempEdge * dZ)).length = fractionFrom distFromRx (s.tempEdge * dZ) := by
    rw [fractionFrom, edgeUe_sum, hlength]
  unfold edgeStep
  dsimp only
  rw [htemp]

theorem fractionFrom_anti {edge edge' : ℚ} (h : edge ≤ edge') :
    fractionFrom distFromRx edge' ≤ fractionFrom distFromRx edge := by
  have hcount : (distFromRx.countP fun x => edge' ≤ x) ≤ distFromRx.countP fun x => edge ≤ x := by
    refine List.countP_mono_left fun x _ hx => ?_
    simpa using h.trans (of_decide_eq_true hx)
  unfold fractionFrom
  have hlength : (0 : ℚ) ≤ distFromRx.length := Nat.cast_nonneg _
  exact div_le_div_of_nonneg_right (by exact_mod_cast hcount) hlength

theorem fractionFrom_zero (hne : distFromRx ≠ []) (hpos : ∀ x ∈ distFromRx, 0 ≤ x) :
    fractionFrom distFromRx 0 = 1 := by
  have hall : (distFromRx.countP fun x => (0 : ℚ) ≤ x) = distFromRx.length :=
    List.countP_eq_length.mpr fun x hx => decide_eq_true (hpos x hx)
  have hlength : (distFromRx.length : ℚ) ≠ 0 :=
    Nat.cast_ne_zero.mpr (List.length_pos_of_ne_nil hne).ne'
  rw [fractionFrom, hall, div_self hlength]

theorem fractionFrom_beyond {edge : ℚ} (h : ∀ x ∈ distFromRx, x < edge) :
    fractionFrom distFromRx edge = 0 := by
  have hnone : (distFromRx.countP fun x => edge ≤ x) = 0 := by
    rw [List.countP_eq_zero]
    intro x hx
    simpa using h x hx
  rw [fractionFrom, hnone, Nat.cast_zero, zero_div]

theorem exists_beyond (hz : 0 < dZ) : ∃ N : Nat, ∀ x ∈ distFromRx, x < N * dZ := by
  induction distFromRx with
  | nil => exact ⟨0, by simp⟩
  | cons y l ih =>
    obtain ⟨N, hN⟩ := ih
    obtain ⟨M, hM⟩ := exists_nat_gt (y / dZ)
    refine ⟨max N M, fun x hx => ?_⟩
    rcases List.mem_cons.mp hx with rfl | hx
    · have hmax : (M : ℚ) ≤ (max N M : Nat) := by exact_mod_cast le_max_right N M
      exact (div_lt_iff₀ hz).mp (hM.trans_le hmax)
    · have hmax : (N : ℚ) ≤ (max N M : Nat) := by exact_mod_cast le_max_left N M
      exact (hN x hx).trans_le (mul_le_mul_of_nonneg_right hmax hz.le)

variable (dZ gamma distFromRx) in
/-- The last edge tried is inside, and the next one outside as soon as the loop ends. -/
structure EdgeInv (s : EdgeState) : Prop where
  started : 1 ≤ s.tempEdge
  inside : gamma ≤ fractionFrom distFromRx (s.dEdge dZ)
  outside : s.temp ≤ gamma → fractionFrom distFromRx (s.tempEdge * dZ) ≤ gamma

theorem edgeInv_step (hz : 0 < dZ) (h : EdgeInv dZ gamma distFromRx s) :
    EdgeInv dZ gamma distFromRx (edgeStep dZ gamma distFromRx s) := by
  rw [edgeStep_eq]
  split
  next hinside =>
    have hnext : (s.tempEdge : ℚ) * dZ ≤ ((s.tempEdge + 1 : Nat) : ℚ) * dZ :=
      mul_le_mul_of_nonneg_right (by exact_mod_cast Nat.le_succ _) hz.le
    refine ⟨by simp, ?_, fun hend => (fractionFrom_anti hnext).trans hend⟩
    simpa [EdgeState.dEdge] using hinside
  next hout => exact ⟨h.started, h.inside, fun hend => hend⟩

variable (gamma) in
/-- The edges left up to `N`, and the round that is still to come. -/
def edgeVariant (N : Nat) (s : EdgeState) : Nat := N - s.tempEdge + if gamma < s.temp then 1 else 0

/-- Every round either moves the edge, which ends beyond the largest distance, or is the last. -/
theorem edgeStep_variant {N : Nat} (hg : 0 < gamma) (hz : 0 < dZ)
    (hN : ∀ x ∈ distFromRx, x < N * dZ) (hloop : gamma < s.temp) :
    edgeVariant gamma N (edgeStep dZ gamma distFromRx s) < edgeVariant gamma N s := by
  unfold edgeVariant
  rw [edgeStep_eq, if_pos hloop]
  split
  next hinside =>
    have hbelow : s.tempEdge < N := by
      by_contra hge
      have hcast : (N : ℚ) ≤ s.tempEdge := by exact_mod_cast not_lt.mp hge
      have hzero := fractionFrom_beyond fun x hx =>
        (hN x hx).trans_le (mul_le_mul_of_nonneg_right hcast hz.le)
      rw [hzero] at hinside
      exact absurd hg (not_lt.mpr hinside)
    dsimp only
    split <;> omega
  next hout =>
    have hend : ¬gamma < fractionFrom distFromRx (s.tempEdge * dZ) := fun h => hout h.le
    dsimp only
    rw [if_neg hend]
    omega

/-- The search ends with a bracket of the distance at which the fraction passes `gamma`. -/
theorem edgeSearch_brackets (hne : distFromRx ≠ []) (hpos : ∀ x ∈ distFromRx, 0 ≤ x) (hz : 0 < dZ)
    (hg : 0 < gamma) (hone : gamma < 1) :
    ∃ s : EdgeState, (∃ n, ∀ fuel, n ≤ fuel → edgeSearch dZ gamma distFromRx fuel = some s) ∧
      BracketsEdge dZ gamma distFromRx (s.dEdge dZ) := by
  obtain ⟨N, hN⟩ : ∃ N : Nat, ∀ x ∈ distFromRx, x < N * dZ := exists_beyond hz
  have hstart : EdgeInv dZ gamma distFromRx ⟨1, 1⟩ := by
    refine ⟨le_rfl, ?_, fun hend => absurd hone (not_lt.mpr hend)⟩
    rw [EdgeState.dEdge, Nat.cast_one, sub_self, zero_mul, fractionFrom_zero hne hpos]
    exact hone.le
  obtain ⟨s, hreturns, hinv, hend⟩ := returns_of_variant (EdgeInv dZ gamma distFromRx)
    (edgeVariant gamma N) (fun s hs hloop => ⟨edgeInv_step hz hs, edgeStep_variant hg hz hN hloop⟩) hstart
  refine ⟨s, hreturns, ⟨?_, hinv.inside, ?_⟩⟩
  · have hcast : (1 : ℚ) ≤ s.tempEdge := by exact_mod_cast hinv.started
    exact mul_nonneg (sub_nonneg.mpr hcast) hz.le
  · have hnext : s.dEdge dZ + dZ = s.tempEdge * dZ := by
      unfold EdgeState.dEdge
      ring
    rw [hnext]
    exact hinv.outside (not_lt.mp hend)

theorem edgeSearch_brackets_ties :
    ∃ s : EdgeState, (∃ n, ∀ fuel, n ≤ fuel → edgeSearch 5 (1 / 2) [0, 10, 10, 7] fuel = some s) ∧
      BracketsEdge 5 (1 / 2) [0, 10, 10, 7] (s.dEdge 5) :=
  edgeSearch_brackets (List.cons_ne_nil _ _) (by simp) (by norm_num) (by norm_num)
    (by norm_num)

end EdgeSearch

end SidelinkORe
