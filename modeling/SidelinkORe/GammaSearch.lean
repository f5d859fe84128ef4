import SidelinkORe.WhileLoop
import Mathlib.Data.Rat.Floor
import Mathlib.Algebra.Order.Field.Basic
import Mathlib.Tactic.FieldSimp
import Mathlib.Tactic.Linarith
import Mathlib.Tactic.Ring

namespace SidelinkORe

/-- The variables of the search for `gammaX`; `broke` says that a `break` has left the loop. -/
structure GammaState (K : Type) where
  metric : K
  gammaX : K
  dGammaX : K
  indreaseDecreaseFlag : Bool
  broke : Bool

section Search

variable {K : Type} [Field K] [LinearOrder K]

variable (K) in
def metricTh : K := 0.75

variable (K) in
def epsilon : K := 0.001

variable (K) in
def gammaStart : GammaState K := ⟨0, 0, 0.3, true, false⟩

def GammaState.Searching (s : GammaState K) : Prop :=
  s.broke = false ∧ epsilon K < |s.metric - metricTh K|

instance : DecidablePred (GammaState.Searching (K := K)) :=
  fun s => inferInstanceAs (Decidable (s.broke = false ∧ epsilon K < |s.metric - metricTh K|))

/-- One round of the loop of both PRR models. The flag is read and never written. -/
def gammaRound (metricOf : K → K) (s : GammaState K) : GammaState K :=
  let s := { s with metric := metricOf s.gammaX }
  if |s.metric - metricTh K| < epsilon K then { s with broke := true }
  else if s.metric < metricTh K ∧ s.gammaX = 0 then { s with broke := true }
  else if metricTh K < s.metric ∧ 0 ≤ s.gammaX then
    { s with
      gammaX := s.gammaX + s.dGammaX
      dGammaX := if s.indreaseDecreaseFlag = false then s.dGammaX / (2 : Nat) else s.dGammaX }
  else if s.metric < metricTh K ∧ 0 < s.gammaX then
    { s with
      gammaX := s.gammaX - s.dGammaX
      dGammaX := if s.indreaseDecreaseFlag = true then s.dGammaX / (2 : Nat) else s.dGammaX }
  else s

def gammaSearch (metricOf : K → K) (fuel : Nat) : Option (GammaState K) :=
  whileLoop GammaState.Searching (gammaRound metricOf) fuel (gammaStart K)

variable [IsStrictOrderedRing K] {metricOf : K → K} {s : GammaState K}

variable (metricOf) in
/-- A point that was tried and is too high. -/
def TooHigh (x : K) : Prop := 0 ≤ x ∧ metricTh K + epsilon K ≤ metricOf x

variable (metricOf) in
/-- The search is at the start, at the last point that was too high, or one step beyond it. -/
structure GammaInv (s : GammaState K) : Prop where
  flag : s.indreaseDecreaseFlag = true
  stepPos : 0 < s.dGammaX
  position : s.gammaX = 0 ∨ TooHigh metricOf s.gammaX ∨ TooHigh metricOf (s.gammaX - s.dGammaX)

theorem GammaInv.nonneg (h : GammaInv metricOf s) : 0 ≤ s.gammaX := by
  rcases h.position with hzero | hhere | hbehind
  · exact hzero.ge
  · exact hhere.1
  · linarith [hbehind.1, h.stepPos]

variable (metricOf) in
/-- What a round does: it ends the search, goes on from a point that is too high, or goes back to
the last one with half the step. -/
inductive GammaStep (s : GammaState K) : GammaState K → Prop where
  | close (h : |metricOf s.gammaX - metricTh K| < epsilon K) :
      GammaStep s { s with metric := metricOf s.gammaX, broke := true }
  | bottom (h : metricOf s.gammaX < metricTh K) (hzero : s.gammaX = 0) :
      GammaStep s { s with metric := metricOf s.gammaX, broke := true }
  | up (h : TooHigh metricOf s.gammaX) :
      GammaStep s { s with metric := metricOf s.gammaX, gammaX := s.gammaX + s.dGammaX }
  | back (h : metricOf s.gammaX ≤ metricTh K - epsilon K)
      (hlast : TooHigh metricOf (s.gammaX - s.dGammaX)) :
      GammaStep s { s with
        metric := metricOf s.gammaX, gammaX := s.gammaX - s.dGammaX, dGammaX := s.dGammaX / 2 }

theorem epsilon_pos : 0 < epsilon K := by
  unfold epsilon
  norm_num

theorem gammaRound_step (h : GammaInv metricOf s) :
    GammaStep metricOf s (gammaRound metricOf s) := by
  unfold gammaRound
  dsimp only
  by_cases hclose : |metricOf s.gammaX - metricTh K| < epsilon K
  · rw [if_pos hclose]
    exact GammaStep.close hclose
  · rw [if_neg hclose]
    rcases lt_trichotomy (metricOf s.gammaX) (metricTh K) with hlow | heq | hhigh
    · have hfar : metricOf s.gammaX ≤ metricTh K - epsilon K := by
        rw [abs_of_neg (sub_neg.mpr hlow)] at hclose
        linarith
      by_cases hzero : s.gammaX = 0
      · rw [if_pos ⟨hlow, hzero⟩]
        exact GammaStep.bottom hlow hzero
      · have hpos : 0 < s.gammaX := lt_of_le_of_ne h.nonneg (Ne.symm hzero)
        have hnot : ¬TooHigh metricOf s.gammaX := fun hhere => by
          linarith [hhere.2, epsilon_pos (K := K)]
        have hlast := (h.position.resolve_left hzero).resolve_left hnot
        rw [if_neg fun hand => hzero hand.2, if_neg fun hand => lt_asymm hlow hand.1,
          if_pos ⟨hlow, hpos⟩, if_pos h.flag, Nat.cast_ofNat]
        exact GammaStep.back hfar hlast
    · rw [heq, sub_self, abs_zero] at hclose
      exact absurd epsilon_pos hclose
    · have hfar : metricTh K + epsilon K ≤ metricOf s.gammaX := by
        rw [abs_of_pos (sub_pos.mpr hhigh)] at hclose
        linarith
      rw [if_neg fun hand => lt_asymm hhigh hand.1, if_pos ⟨hhigh, h.nonneg⟩, if_neg (by simp [h.flag])]
      exact GammaStep.up ⟨h.nonneg, hfar⟩

theorem gammaInv_start : GammaInv metricOf (gammaStart K) := by
  refine ⟨rfl, ?_, Or.inl rfl⟩
  unfold gammaStart
  norm_num

theorem gammaInv_round (h : GammaInv metricOf s) : GammaInv metricOf (gammaRound metricOf s) := by
  have hstep := gammaRound_step h
  generalize gammaRound metricOf s = t at hstep ⊢
  cases hstep with
  | close => exact ⟨h.flag, h.stepPos, h.position⟩
  | bottom => exact ⟨h.flag, h.stepPos, h.position⟩
  | up hhere => exact ⟨h.flag, h.stepPos, Or.inr (Or.inr (by simpa using hhere))⟩
  | back _ hlast => exact ⟨h.flag, half_pos h.stepPos, Or.inr (Or.inl hlast)⟩

/-- A search that does not go on is at its target or at the bottom. -/
theorem gammaRound_end (h : GammaInv metricOf s) (hs : s.broke = false)
    (hend : ¬(gammaRound metricOf s).Searching) :
    |metricOf s.gammaX - metricTh K| ≤ epsilon K ∨
      (gammaRound metricOf s).gammaX = 0 ∧ s.gammaX = 0 ∧ metricOf 0 < metricTh K := by
  have hstep := gammaRound_step h
  generalize gammaRound metricOf s = t at hstep hend ⊢
  cases hstep with
  | close hclose => exact Or.inl hclose.le
  | bottom hlow hzero => exact Or.inr ⟨hzero, hzero, hzero ▸ hlow⟩
  | up => exact Or.inl (not_lt.mp fun hfar => hend ⟨hs, hfar⟩)
  | back => exact Or.inl (not_lt.mp fun hfar => hend ⟨hs, hfar⟩)

variable [FloorRing K]

/-- The rounds to come: whether the search goes on, how often the step can still be halved, and
the steps up to a bound of the search. -/
def gammaVariant (L bound : K) (s : GammaState K) : Nat × Nat × Nat :=
  (if s.broke = true then 0 else 1, ⌊s.dGammaX * L / (epsilon K + epsilon K)⌋₊,
    ⌈(bound - s.gammaX) / s.dGammaX⌉₊)

theorem floor_half_lt {x : K} (h : 1 ≤ x) : ⌊x / 2⌋₊ < ⌊x⌋₊ := by
  have hone : 1 ≤ ⌊x⌋₊ := Nat.le_floor (by simpa using h)
  rw [Nat.floor_lt (by linarith)]
  rcases lt_or_ge x 2 with hlt | hge
  · have hcast : (1 : K) ≤ ⌊x⌋₊ := by exact_mod_cast hone
    linarith
  · linarith [Nat.sub_one_lt_floor x]

/-- Going back means that the metric has fallen by `2 * epsilon` within one step. -/
theorem gammaVariant_round {L bound : K}
    (hL : ∀ x y, 0 ≤ x → 0 ≤ y → |metricOf x - metricOf y| ≤ L * |x - y|)
    (hbelow : ∀ x, bound ≤ x → metricOf x < metricTh K - epsilon K) (h : GammaInv metricOf s)
    (hs : s.broke = false) :
    Prod.Lex (· < ·) (Prod.Lex (· < ·) (· < ·)) (gammaVariant L bound (gammaRound metricOf s))
      (gammaVariant L bound s) := by
  have hd := h.stepPos
  have hstep := gammaRound_step h
  generalize gammaRound metricOf s = t at hstep ⊢
  cases hstep with
  | close => exact Prod.Lex.left _ _ (by simp [hs])
  | bottom => exact Prod.Lex.left _ _ (by simp [hs])
  | up hhere =>
    have hroom : 0 < bound - s.gammaX := by
      by_contra hnot
      have hlow := hbelow s.gammaX (by linarith)
      linarith [hhere.2, epsilon_pos (K := K)]
    have hsteps : (bound - (s.gammaX + s.dGammaX)) / s.dGammaX = (bound - s.gammaX) / s.dGammaX - 1 := by
      field_simp
      ring
    have hceil : 0 < ⌈(bound - s.gammaX) / s.dGammaX⌉₊ := Nat.ceil_pos.mpr (div_pos hroom hd)
    refine Prod.Lex.right _ (Prod.Lex.right _ ?_)
    show ⌈(bound - (s.gammaX + s.dGammaX)) / s.dGammaX⌉₊ < _
    rw [hsteps, Nat.ceil_sub_one]
    omega
  | back hfar hlast =>
    have hfall : epsilon K + epsilon K ≤ s.dGammaX * L := by
      have hle := (le_abs_self _).trans (hL (s.gammaX - s.dGammaX) s.gammaX hlast.1 h.nonneg)
      have hdist : |s.gammaX - s.dGammaX - s.gammaX| = s.dGammaX := by
        rw [sub_sub_cancel_left, abs_neg, abs_of_pos hd]
      rw [hdist] at hle
      linarith [hlast.2]
    have heps : 0 < epsilon K + epsilon K := add_pos epsilon_pos epsilon_pos
    have hhalf : s.dGammaX / 2 * L / (epsilon K + epsilon K) =
        s.dGammaX * L / (epsilon K + epsilon K) / 2 := by ring
    refine Prod.Lex.right _ (Prod.Lex.left _ _ ?_)
    show ⌊s.dGammaX / 2 * L / (epsilon K + epsilon K)⌋₊ < _
    rw [hhalf]
    exact floor_half_lt ((one_le_div heps).mpr hfall)

/-- The search for `gammaX` never leaves the numbers from 0 on and ends, with the metric within
`epsilon` of its target or at 0 with the metric below it. -/
theorem gammaSearch_ends {L bound : K}
    (hL : ∀ x y, 0 ≤ x → 0 ≤ y → |metricOf x - metricOf y| ≤ L * |x - y|)
    (hbelow : ∀ x, bound ≤ x → metricOf x < metricTh K - epsilon K) :
    (∀ s, Reaches GammaState.Searching (gammaRound metricOf) (gammaStart K) s → 0 ≤ s.gammaX) ∧
    ∃ t, (∃ n, ∀ fuel, n ≤ fuel → gammaSearch metricOf fuel = some t) ∧
      ∃ u, Reaches GammaState.Searching (gammaRound metricOf) (gammaStart K) u ∧
        t = gammaRound metricOf u ∧
        (|metricOf u.gammaX - metricTh K| ≤ epsilon K ∨
          t.gammaX = 0 ∧ u.gammaX = 0 ∧ metricOf 0 < metricTh K) := by
  have hinv : ∀ s, Reaches GammaState.Searching (gammaRound metricOf) (gammaStart K) s →
      GammaInv metricOf s := fun s hreach =>
    inv_of_reaches (GammaInv metricOf) (fun s hs _ => gammaInv_round hs) gammaInv_start hreach
  have hstart : (gammaStart K).Searching := by
    refine ⟨rfl, ?_⟩
    unfold gammaStart epsilon metricTh
    norm_num
  refine ⟨fun s hreach => (hinv s hreach).nonneg, ?_⟩
  obtain ⟨t, hreturns, hreach, hend⟩ := returns_of_wellFounded
    (Nat.lt_wfRel.wf.prod_lex (Nat.lt_wfRel.wf.prod_lex Nat.lt_wfRel.wf))
    (Reaches GammaState.Searching (gammaRound metricOf) (gammaStart K)) (gammaVariant L bound)
    (fun s hs hsearch => ⟨hs.round hsearch, gammaVariant_round hL hbelow (hinv s hs) hsearch.1⟩)
    Relation.ReflTransGen.refl
  obtain ⟨u, hu, hsearch, rfl⟩ := hreach.lastRound hstart hend
  exact ⟨_, hreturns, u, hu, rfl, gammaRound_end (hinv u hu) hsearch.1 hend⟩

end Search

/-- A metric that falls from 1 with slope 1. -/
theorem gammaSearch_ends_line :
    let metricOf : ℚ → ℚ := fun x => 1 - x
    (∀ s, Reaches GammaState.Searching (gammaRound metricOf) (gammaStart ℚ) s → 0 ≤ s.gammaX) ∧
    ∃ t, (∃ n, ∀ fuel, n ≤ fuel → gammaSearch metricOf fuel = some t) ∧
      ∃ u, Reaches GammaState.Searching (gammaRound metricOf) (gammaStart ℚ) u ∧
        t = gammaRound metricOf u ∧
        (|metricOf u.gammaX - metricTh ℚ| ≤ epsilon ℚ ∨
          t.gammaX = 0 ∧ u.gammaX = 0 ∧ metricOf 0 < metricTh ℚ) := by
  refine gammaSearch_ends (L := 1) (fun x y _ _ => ?_) fun x (hx : 1 ≤ x) => ?_
  · rw [sub_sub_sub_cancel_left, one_mul, abs_sub_comm]
  · unfold metricTh epsilon
    linarith

end SidelinkORe
