import Mathlib.Analysis.SpecialFunctions.Log.Base

namespace SidelinkORe

/-- Summing received powers given in dBm and comparing the sum with a threshold in dBm. -/
structure RsrpScale where
  Power : Type
  zero : Power
  addDbm : Power → ℚ → Power
  above : Power → Int → Bool
  above_zero : ∀ t, above zero t = false
  above_addDbm : ∀ p r t, above p t = true → above (addDbm p r) t = true
  above_anti : ∀ p t t', t ≤ t' → above p t' = true → above p t = true

namespace RsrpScale

/-- A scale that loses nothing on the way to linear powers and back. Rounded powers do not promise
this: the sum of one power just above a threshold may come back as the threshold. -/
structure Exact (S : RsrpScale) : Prop where
  above_of_lt : ∀ p (r : ℚ) (t : Int), (t : ℚ) < r → S.above (S.addDbm p r) t = true
  lt_of_above_single : ∀ (r : ℚ) (t : Int), S.above (S.addDbm S.zero r) t = true → (t : ℚ) < r

variable (S : RsrpScale)

/-- The sum of a list of powers in the order in which they are added. -/
def sum (powers : List ℚ) : S.Power := powers.foldl S.addDbm S.zero

@[simp] theorem sum_nil : S.sum [] = S.zero := rfl

@[simp] theorem sum_append (powers : List ℚ) (r : ℚ) :
    S.sum (powers ++ [r]) = S.addDbm (S.sum powers) r := by
  simp [sum]

theorem above_foldl {p : S.Power} {t : Int} (powers : List ℚ) (h : S.above p t = true) :
    S.above (powers.foldl S.addDbm p) t = true := by
  induction powers generalizing p with
  | nil => exact h
  | cons r powers ih => exact ih (S.above_addDbm p r t h)

theorem above_sum_more {l l' : List ℚ} {t : Int} (h : S.above (S.sum l) t = true) :
    S.above (S.sum (l ++ l')) t = true := by
  rw [sum, List.foldl_append]
  exact S.above_foldl l' h

variable {S}

theorem Exact.above_sum_of_mem (exact : S.Exact) {l : List ℚ} {r : ℚ} {t : Int} (hr : r ∈ l)
    (h : (t : ℚ) < r) : S.above (S.sum l) t = true := by
  obtain ⟨before, after, rfl⟩ := List.append_of_mem hr
  rw [sum, List.foldl_append, List.foldl_cons]
  exact S.above_foldl after (exact.above_of_lt _ r t h)

end RsrpScale

/-- Linear powers in milliwatt, with exact arithmetic. -/
noncomputable def realScale : RsrpScale where
  Power := { p : ℝ // 0 ≤ p }
  zero := ⟨0, le_rfl⟩
  addDbm := fun p r => ⟨p + (10 : ℝ) ^ ((r : ℝ) / 10), by have := p.2; positivity⟩
  above := fun p t => decide ((10 : ℝ) ^ ((t : ℝ) / 10) < p)
  above_zero := by
    intro t
    have hpos : (0 : ℝ) < (10 : ℝ) ^ ((t : ℝ) / 10) := by positivity
    simpa using hpos.le
  above_addDbm := by
    intro p r t h
    have hpos : (0 : ℝ) < (10 : ℝ) ^ ((r : ℝ) / 10) := by positivity
    simp only [decide_eq_true_eq] at h ⊢
    linarith
  above_anti := by
    intro p t t' htt h
    have hle : (10 : ℝ) ^ ((t : ℝ) / 10) ≤ (10 : ℝ) ^ ((t' : ℝ) / 10) := by
      apply Real.rpow_le_rpow_of_exponent_le (by norm_num)
      have hcast : (t : ℝ) ≤ t' := by exact_mod_cast htt
      linarith
    simp only [decide_eq_true_eq] at h ⊢
    linarith

theorem realScale_exact : realScale.Exact where
  above_of_lt := by
    intro p r t h
    have hcast : (t : ℝ) / 10 < (r : ℝ) / 10 := by
      have : ((t : ℚ) : ℝ) < (r : ℝ) := by exact_mod_cast h
      push_cast at this
      linarith
    have hlt : (10 : ℝ) ^ ((t : ℝ) / 10) < (10 : ℝ) ^ ((r : ℝ) / 10) :=
      Real.rpow_lt_rpow_of_exponent_lt (by norm_num) hcast
    have hp := p.2
    change decide ((10 : ℝ) ^ ((t : ℝ) / 10) < p.1 + (10 : ℝ) ^ ((r : ℝ) / 10)) = true
    rw [decide_eq_true_iff]
    linarith
  lt_of_above_single := by
    intro r t h
    change decide ((10 : ℝ) ^ ((t : ℝ) / 10) < 0 + (10 : ℝ) ^ ((r : ℝ) / 10)) = true at h
    rw [decide_eq_true_iff, zero_add] at h
    rw [Real.rpow_lt_rpow_left_iff (by norm_num), div_lt_div_iff_of_pos_right (by norm_num)] at h
    exact_mod_cast h

/-- On a positive power the comparison is the one of the source, `10 * log10 (p) > t`. -/
theorem realScale_above_iff {p : realScale.Power} {t : Int} (hp : (0 : ℝ) < p.1) :
    realScale.above p t = true ↔ (t : ℝ) < 10 * Real.logb 10 p.1 := by
  change decide ((10 : ℝ) ^ ((t : ℝ) / 10) < p.1) = true ↔ _
  rw [decide_eq_true_iff, ← Real.lt_logb_iff_rpow_lt (by norm_num) hp]
  constructor
  · intro h
    linarith
  · intro h
    linarith

end SidelinkORe
