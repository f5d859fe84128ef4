import SidelinkORe.MatlabArray
import Mathlib.Algebra.Order.Field.Rat
import Mathlib.Tactic.NormNum

namespace SidelinkORe

/-- The 24 histograms: `freq k i j` is the share of threshold `i` with `j` eliminations, and there
is none (NaN) where threshold `i` was never observed. -/
structure Histograms (K : Type) [Field K] [LinearOrder K] where
  freq : Nat → Nat → Nat → Option K
  mem_unit : ∀ k i j x, freq k i j = some x → 0 ≤ x ∧ x ≤ 1

section Likelyhood

variable {K : Type} [Field K] [LinearOrder K]

/-- One comparison of the loop over the densities: the highest share so far and its histogram. -/
def likelyhoodStep (freq : Nat → Option K) (s : K × Nat) (k : Nat) : K × Nat :=
  match freq k with
  | some x => if s.1 < x then (x, k) else s
  | none => s

/-- `maxLikelyhood{n}(i,j)`: the loops `k = n+4:4:24`. -/
def maxLikelyhood (hist : Histograms K) (n i j : Nat) : Nat :=
  let freq := fun k => hist.freq k i j
  let temp := (freq n).getD 0
  let start := (temp, if 0 < temp then n else 0)
  ((List.range' (n + 4) 5 4).foldl (likelyhoodStep freq) start).2

/-- The histograms of one `NSe`, from the highest density to the lowest. -/
def densityIndexes (n : Nat) : List Nat := List.range' n 6 4

/-- Some density has a positive share. -/
def Observed (hist : Histograms K) (n i j : Nat) : Prop :=
  ∃ k ∈ densityIndexes n, ∃ x, hist.freq k i j = some x ∧ 0 < x

/-- A share of `k` that no density of the same `NSe` exceeds. -/
def MostLikely (hist : Histograms K) (n i j k : Nat) : Prop :=
  k ∈ densityIndexes n ∧ ∃ x, hist.freq k i j = some x ∧
    ∀ k' ∈ densityIndexes n, ∀ x', hist.freq k' i j = some x' → x' ≤ x

/-- The highest share among the histograms `ks`, or 0 and no histogram. -/
structure HighestOf (freq : Nat → Option K) (ks : List Nat) (s : K × Nat) : Prop where
  nonneg : 0 ≤ s.1
  bound : ∀ k ∈ ks, ∀ x, freq k = some x → x ≤ s.1
  value : s = (0, 0) ∨ s.2 ∈ ks ∧ freq s.2 = some s.1 ∧ 0 < s.1

variable {freq : Nat → Option K} {ks : List Nat} {s : K × Nat} {k : Nat}

theorem highestOf_step (h : HighestOf freq ks s) :
    HighestOf freq (ks ++ [k]) (likelyhoodStep freq s k) := by
  unfold likelyhoodStep
  split
  next x hx =>
    split
    next hlt =>
      refine ⟨h.nonneg.trans hlt.le, fun k' hk' x' hx' => ?_, Or.inr ⟨by simp, hx, h.nonneg.trans_lt hlt⟩⟩
      rcases List.mem_append.mp hk' with hk' | hk'
      · exact (h.bound k' hk' x' hx').trans hlt.le
      · obtain rfl := List.mem_singleton.mp hk'
        rw [hx] at hx'
        exact (Option.some.inj hx').ge
    next hge =>
      refine ⟨h.nonneg, fun k' hk' x' hx' => ?_, h.value.imp_right fun hv => ⟨by simp [hv.1], hv.2⟩⟩
      rcases List.mem_append.mp hk' with hk' | hk'
      · exact h.bound k' hk' x' hx'
      · obtain rfl := List.mem_singleton.mp hk'
        rw [hx] at hx'
        exact Option.some.inj hx' ▸ not_lt.mp hge
  next hnone =>
    refine ⟨h.nonneg, fun k' hk' x' hx' => ?_, h.value.imp_right fun hv => ⟨by simp [hv.1], hv.2⟩⟩
    rcases List.mem_append.mp hk' with hk' | hk'
    · exact h.bound k' hk' x' hx'
    · obtain rfl := List.mem_singleton.mp hk'
      rw [hnone] at hx'
      cases hx'

theorem highestOf_foldl (later : List Nat) (h : HighestOf freq ks s) :
    HighestOf freq (ks ++ later) (later.foldl (likelyhoodStep freq) s) := by
  induction later generalizing ks s with
  | nil => simpa using h
  | cons k later ih =>
    have hnext := ih (highestOf_step (k := k) h)
    rwa [List.append_assoc] at hnext

variable {hist : Histograms K} {n i j : Nat}

theorem highestOf_start (hist : Histograms K) (n i j : Nat) :
    HighestOf (fun k => hist.freq k i j) [n]
      ((hist.freq n i j).getD 0, if 0 < (hist.freq n i j).getD 0 then n else 0) := by
  cases hx : hist.freq n i j with
  | none =>
    refine ⟨le_rfl, fun k hk x hk' => ?_, Or.inl (by simp)⟩
    obtain rfl := List.mem_singleton.mp hk
    rw [hx] at hk'
    cases hk'
  | some x =>
    have hnonneg := (hist.mem_unit n i j x hx).1
    refine ⟨hnonneg, fun k hk x' hk' => ?_, ?_⟩
    · obtain rfl := List.mem_singleton.mp hk
      rw [hx] at hk'
      exact (Option.some.inj hk').ge
    · rcases lt_or_eq_of_le hnonneg with hpos | hzero
      · refine Or.inr ?_
        simp [hpos, hx]
      · refine Or.inl ?_
        simp [← hzero]

/-- A cell is blank when no density was observed there, and holds a most likely one otherwise. -/
theorem maxLikelyhood_spec (hn : 1 ≤ n) :
    (maxLikelyhood hist n i j ≠ 0 ↔ Observed hist n i j) ∧
      (maxLikelyhood hist n i j ≠ 0 → MostLikely hist n i j (maxLikelyhood hist n i j)) := by
  have hhigh := highestOf_foldl (List.range' (n + 4) 5 4) (highestOf_start hist n i j)
  have hindexes : [n] ++ List.range' (n + 4) 5 4 = densityIndexes n := rfl
  rw [hindexes] at hhigh
  have hvalue : maxLikelyhood hist n i j = ((List.range' (n + 4) 5 4).foldl
      (likelyhoodStep fun k => hist.freq k i j)
      ((hist.freq n i j).getD 0, if 0 < (hist.freq n i j).getD 0 then n else 0)).2 := rfl
  rw [hvalue]
  generalize (List.range' (n + 4) 5 4).foldl _ _ = s at hhigh
  have hpos : ∀ k ∈ densityIndexes n, k ≠ 0 := by
    intro k hk
    obtain ⟨m, _, rfl⟩ := List.mem_range'.mp hk
    omega
  rcases hhigh.value with rfl | ⟨hmem, hfreq, hsome⟩
  · refine ⟨⟨fun h => absurd rfl h, ?_⟩, fun h => absurd rfl h⟩
    rintro ⟨k, hk, x, hx, hxpos⟩
    exact absurd (hhigh.bound k hk x hx) (not_le.mpr hxpos)
  · exact ⟨⟨fun _ => ⟨s.2, hmem, s.1, hfreq, hsome⟩, fun _ => hpos s.2 hmem⟩,
      fun _ => ⟨hmem, s.1, hfreq, hhigh.bound⟩⟩

end Likelyhood

/-- The six densities, in the order of the histograms. -/
def density : Nat → ℚ
  | 0 => 2 / 4
  | 1 => 2 / 5
  | 2 => 3 / 10
  | 3 => 2 / 10
  | 4 => 2 / 20
  | _ => 2 / 40

/-- The density for a histogram; a blank would become the highest one. -/
def interpretation (v : Nat) : ℚ :=
  if v ≤ 4 then 2 / 4
  else if v ≤ 8 then 2 / 5
  else if v ≤ 12 then 3 / 10
  else if v ≤ 16 then 2 / 10
  else if v ≤ 20 then 2 / 20
  else if v ≤ 24 then 2 / 40
  else v

theorem interpretation_eq {n d : Nat} (hn : 1 ≤ n) (hn' : n ≤ 4) (hd : d < 6) :
    interpretation (n + 4 * d) = density d := by
  unfold interpretation
  rcases (show d = 0 ∨ d = 1 ∨ d = 2 ∨ d = 3 ∨ d = 4 ∨ d = 5 by omega) with
    rfl | rfl | rfl | rfl | rfl | rfl
  · rw [if_pos (by omega), density]
  · rw [if_neg (by omega), if_pos (by omega), density]
  · rw [if_neg (by omega), if_neg (by omega), if_pos (by omega), density]
  · rw [if_neg (by omega), if_neg (by omega), if_neg (by omega), if_pos (by omega), density]
  · rw [if_neg (by omega), if_neg (by omega), if_neg (by omega), if_neg (by omega), if_pos (by omega),
      density]
  · rw [if_neg (by omega), if_neg (by omega), if_neg (by omega), if_neg (by omega), if_neg (by omega),
      if_pos (by omega), density] <;> decide

end SidelinkORe
