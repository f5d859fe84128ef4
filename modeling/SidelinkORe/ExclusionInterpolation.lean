import SidelinkORe.ExclusionCounts
import Mathlib.Topology.ContinuousOn

namespace SidelinkORe

section Claim

/-- For all numbers of receptions in `D` and `E` the counts interpolate the chain: `CEx` is
continuous and rises from integer to integer, and so does `NExt` for every `CEx`. -/
structure InterpolatesExclusions (n : Nat) (D E : Set ℝ) : Prop where
  continuous : ContinuousOn (cEx n) D
  mono : MonotoneOn (cEx n) D
  closedForm : ∀ k : Nat, (k : ℝ) ∈ D → cEx n (k : ℝ) = n * (1 - (1 - 1 / n) ^ k)
  nextMono : ∀ c : ℝ, 0 ≤ c → c < n → ∀ y ∈ E, ∀ y' ∈ E, y ≤ y' →
    ∃ v v', nExt n c y = some v ∧ nExt n c y' = some v' ∧ v ≤ v'
  nextNonneg : ∀ c : ℝ, 0 ≤ c → c < n → ∀ y ∈ E, ∃ v, nExt n c y = some v ∧ 0 ≤ v
  nextExpected : ∀ c : ℝ, 0 ≤ c → c < n → ∀ k : Nat, (k : ℝ) ∈ E →
    nExt n c k = some (newlyExcluded n c k)

variable {n : Nat} {c x : ℝ} {D E : Set ℝ}

theorem blend_eqOn (hD : ∀ x ∈ D, 0 ≤ x) (hno : ∀ k : Nat, 0 < k → (k : ℝ) ∉ D) :
    Set.EqOn (blend (newlyExcluded n c)) (interpolate (newlyExcluded n c)) D := by
  intro x hx
  by_cases hwhole : ∀ k : Nat, x ≠ k
  · exact blend_eq_interpolate (hD x hx) hwhole
  · obtain ⟨k, hk⟩ := not_forall.mp hwhole
    obtain rfl := not_not.mp hk
    have hzero : k = 0 := by
      by_contra hpos
      exact hno k (Nat.pos_of_ne_zero hpos) hx
    subst hzero
    rw [blend_natCast, interpolate_natCast, newlyExcluded_zero]

theorem interpolatesExclusions_of (hn : 1 ≤ n) (hD : ∀ x ∈ D, 0 ≤ x) (hE : ∀ y ∈ E, 0 ≤ y)
    (hnoD : ∀ k : Nat, 0 < k → (k : ℝ) ∉ D) (hnoE : ∀ k : Nat, 0 < k → (k : ℝ) ∉ E) :
    InterpolatesExclusions n D E := by
  have hcEx : Set.EqOn (cEx n) (interpolate (newlyExcluded n (0 : ℝ))) D := by
    intro x hx
    rw [cEx_eq hn]
    exact blend_eqOn hD hnoD hx
  have hrise := newlyExcluded_mono (K := ℝ) (c := 0) hn (Nat.cast_nonneg n)
  have hnExt : ∀ c : ℝ, 0 ≤ c → c < n → ∀ y ∈ E,
      nExt n c y = some (interpolate (newlyExcluded n c) y) := by
    intro c hc hlt y hy
    rw [nExt_eq hn hc hlt.le, blend_eqOn hE hnoE hy]
  constructor
  · refine ContinuousOn.congr (Continuous.continuousOn ?_) hcEx
    exact interpolate_continuous hrise fun k => newlyExcluded_step hn (Nat.cast_nonneg n) k
  · intro x hx y hy hxy
    rw [hcEx hx, hcEx hy]
    exact interpolate_mono hrise hxy
  · intro k hk
    rw [hcEx hk, interpolate_natCast, newlyExcluded, sub_zero]
  · intro c hc hlt y hy y' hy' hle
    exact ⟨_, _, hnExt c hc hlt y hy, hnExt c hc hlt y' hy',
      interpolate_mono (newlyExcluded_mono hn hlt.le) hle⟩
  · intro c hc hlt y hy
    exact ⟨_, nExt_eq hn hc hlt.le y, blend_newlyExcluded_nonneg hn hlt.le (hE y hy)⟩
  · intro c hc hlt k hk
    rw [hnExt c hc hlt k hk, interpolate_natCast]

/-- The counts interpolate the chain exactly away from the positive integers, where both weights
are 0 and nothing is excluded. -/
theorem interpolatesExclusions_iff {T1 T2 : Int} (h : T1 ≤ T2) (hD : D ⊆ Set.Ici 0)
    (hE : E ⊆ Set.Ici 0) :
    InterpolatesExclusions (chainSize ℝ T1 T2) D E ↔
      ∀ k : Nat, 0 < k → (k : ℝ) ∉ D ∧ (k : ℝ) ∉ E := by
  have hn : 1 ≤ chainSize ℝ T1 T2 := by
    have hfour := four_le_chainSize (K := ℝ) h
    omega
  have hpos : (0 : ℝ) < chainSize ℝ T1 T2 := Nat.cast_pos.mpr hn
  constructor
  · intro hall k hk
    have hsome := newlyExcluded_pos hn hpos hk
    constructor
    · intro hmem
      have heq := hall.closedForm k hmem
      rw [cEx_eq hn, blend_natCast] at heq
      rw [newlyExcluded, sub_zero, ← heq] at hsome
      exact lt_irrefl _ hsome
    · intro hmem
      have heq := hall.nextExpected 0 le_rfl hpos k hmem
      rw [nExt_eq hn le_rfl hpos.le, blend_natCast] at heq
      rw [← Option.some.inj heq] at hsome
      exact lt_irrefl _ hsome
  · intro hno
    exact interpolatesExclusions_of hn (fun x hx => hD hx) (fun y hy => hE hy)
      (fun k hk => (hno k hk).1) fun k hk => (hno k hk).2

/-- Below one reception the counts interpolate the chain. -/
theorem interpolatesExclusions_iff_window :
    InterpolatesExclusions (chainSize ℝ 2 33) (Set.Ico 0 1) (Set.Ico 0 1) := by
  refine (interpolatesExclusions_iff (by decide) Set.Ico_subset_Ici_self
    Set.Ico_subset_Ici_self).mpr fun k hk => ?_
  have hone : (1 : ℝ) ≤ k := Nat.one_le_cast.mpr hk
  have hout : (k : ℝ) ∉ Set.Ico (0 : ℝ) 1 := fun hin => not_lt.mpr hone hin.2
  exact ⟨hout, hout⟩

/-- With one reception `CEx` is 0 and not 1. -/
theorem interpolatesExclusions_fails_oneReception :
    ¬∀ T1 T2 : Int, T1 ≤ T2 → InterpolatesExclusions (chainSize ℝ T1 T2) (Set.Ici 0) (Set.Ici 0) := by
  intro claimed
  have hfour := four_le_chainSize (K := ℝ) (show (2 : Int) ≤ 33 by decide)
  have hne : (chainSize ℝ 2 33 : ℝ) ≠ 0 := Nat.cast_ne_zero.mpr (by omega)
  have hone := (claimed 2 33 (by decide)).closedForm 1 (Set.mem_Ici.mpr (Nat.cast_nonneg 1))
  rw [cEx_eq (by omega), blend_natCast] at hone
  field_simp at hone
  simp at hone

end Claim

end SidelinkORe
