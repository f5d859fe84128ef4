import SidelinkORe.Exclusion

namespace SidelinkORe

/-- What the exclusion loop reads besides the threshold; the candidates are those of the window. -/
structure ExclusionInput where
  pPrimeRsvpTx : Nat
  allSensingData : List (List SlotSensingData)
  candidates : List NrSlSlotInfo
  candidates_ne_nil : candidates ≠ []
  free : ∀ c ∈ candidates, c.occupiedSbCh = ∅
  totalSubCh : Nat
  resPercentage : Nat

namespace ExclusionInput

variable (input : ExclusionInput)

def mTotal : Nat := input.totalSubCh * input.candidates.length

/-- The condition under which `do … while` goes round again, computed in double. -/
def OverBudget (eliminatedResources : Int) : Prop :=
  (1 - Float.ofNat input.resPercentage / 100.0) * Float.ofNat input.mTotal <
    Float.ofInt eliminatedResources

instance (eliminatedResources : Int) : Decidable (input.OverBudget eliminatedResources) :=
  inferInstanceAs (Decidable (_ < _))

end ExclusionInput

/-- One tested threshold with the candidates and the count of its pass. -/
structure ThresholdPass where
  rsrpThreshold : Int
  nrCandSsResoA : List NrSlSlotInfo
  eliminatedResources : Int

/-- The loop's variables after it, and the passes it made. -/
structure LoopResult where
  nrCandSsResoA : List NrSlSlotInfo
  eliminatedResources : Int
  rsrpThreshold : Int
  reported : List Packet
  passes : List ThresholdPass

section Loop

variable (S : RsrpScale) (input : ExclusionInput)

def exclusionLoop (eliminatedResources : Int) (reported : List Packet) (firstRun : Bool)
    (rsrpThreshold : Int) : LoopResult :=
  let start := if 0 < eliminatedResources then 0 else eliminatedResources
  let pass := exclusionPass S rsrpThreshold firstRun input.pPrimeRsvpTx input.allSensingData
    input.candidates start reported
  let tested : ThresholdPass := ⟨rsrpThreshold, pass.1, pass.2.1⟩
  if 0 < rsrpThreshold + 3 then ⟨[], pass.2.1, rsrpThreshold + 3, pass.2.2, [tested]⟩
  else if input.OverBudget pass.2.1 then
    let rest := exclusionLoop pass.2.1 pass.2.2 false (rsrpThreshold + 3)
    { rest with passes := tested :: rest.passes }
  else ⟨pass.1, pass.2.1, rsrpThreshold + 3, pass.2.2, [tested]⟩
termination_by (1 - rsrpThreshold).toNat

def excludeResources (slThresPsschRsrp : Int) : LoopResult :=
  exclusionLoop S input input.mTotal [] true slThresPsschRsrp

def candidatesAt (t : Int) : List NrSlSlotInfo :=
  occupiedCandidates S t input.pPrimeRsvpTx input.allSensingData input.candidates

def countAt (t : Int) : Nat :=
  occupiedCount S t input.pPrimeRsvpTx input.allSensingData input.candidates

def passAt (t : Int) : ThresholdPass := ⟨t, candidatesAt S input t, countAt S input t⟩

/-- Pass `n` is the last one: the earlier ones were over budget below the limit of 0 dBm. -/
structure StopsAt (t : Int) (n : Nat) : Prop where
  earlier : ∀ k : Nat, k < n →
    input.OverBudget (countAt S input (t + 3 * k)) ∧ t + 3 * k + 3 ≤ 0
  last : ¬input.OverBudget (countAt S input (t + 3 * n)) ∨ 0 < t + 3 * n + 3

variable {S input}

theorem stopsAt_unique {t : Int} {n m : Nat} (h : StopsAt S input t n) (h' : StopsAt S input t m) :
    n = m := by
  have key : ∀ {n m : Nat}, StopsAt S input t n → StopsAt S input t m → ¬n < m := by
    intro n m h h' hlt
    obtain ⟨hover, hle⟩ := h'.earlier n hlt
    rcases h.last with hin | hpos
    · exact hin hover
    · omega
  have hnm := key h h'
  have hmn := key h' h
  omega

theorem stopsAt_succ {t : Int} {n : Nat} (hover : input.OverBudget (countAt S input t))
    (hle : t + 3 ≤ 0) (h : StopsAt S input (t + 3) n) : StopsAt S input t (n + 1) where
  earlier := by
    intro k hk
    cases k with
    | zero => simpa using ⟨hover, hle⟩
    | succ k =>
      have hstep := h.earlier k (by omega)
      have heq : t + 3 * ((k + 1 : Nat) : Int) = t + 3 + 3 * k := by push_cast; ring
      rw [heq]
      exact hstep
  last := by
    have heq : t + 3 * ((n + 1 : Nat) : Int) = t + 3 + 3 * n := by push_cast; ring
    rw [heq]
    exact h.last

/-- The variables of the loop when pass `n` was the last one. -/
structure EndsWith (S : RsrpScale) (input : ExclusionInput) (t : Int) (n : Nat) (r : LoopResult) :
    Prop where
  cands : r.nrCandSsResoA = if 0 < t + 3 * n + 3 then [] else candidatesAt S input (t + 3 * n)
  eliminated : r.eliminatedResources = countAt S input (t + 3 * n)
  threshold : r.rsrpThreshold = t + 3 * n + 3
  passes : r.passes = (List.range (n + 1)).map fun k : Nat => passAt S input (t + 3 * k)

theorem endsWith_zero {t : Int} {cands : List NrSlSlotInfo} {reported : List Packet}
    (hcands : cands = if 0 < t + 3 then [] else candidatesAt S input t) :
    EndsWith S input t 0 ⟨cands, countAt S input t, t + 3, reported, [passAt S input t]⟩ where
  cands := by simpa using hcands
  eliminated := by simp
  threshold := by simp
  passes := by simp

theorem endsWith_succ {t : Int} {n : Nat} {r : LoopResult} (h : EndsWith S input (t + 3) n r) :
    EndsWith S input t (n + 1) { r with passes := passAt S input t :: r.passes } := by
  have heq : t + 3 * ((n + 1 : Nat) : Int) = t + 3 + 3 * n := by push_cast; ring
  refine ⟨?_, ?_, ?_, ?_⟩
  · rw [heq]
    exact h.cands
  · rw [heq]
    exact h.eliminated
  · rw [heq]
    exact h.threshold
  · have hshift : (fun k : Nat => passAt S input (t + 3 * k)) ∘ Nat.succ =
        fun k : Nat => passAt S input (t + 3 + 3 * k) := by
      funext k
      have hk : t + 3 * ((k + 1 : Nat) : Int) = t + 3 + 3 * k := by push_cast; ring
      exact congrArg (passAt S input) hk
    rw [List.range_succ_eq_map, List.map_cons, List.map_map, hshift, ← h.passes]
    simp

/-- The loop ends, at the first threshold within budget or at the limit. -/
theorem exclusionLoop_stops {eliminated : Int} (hpos : 0 ≤ eliminated) (reported : List Packet)
    (first : Bool) (t : Int) :
    ∃ n, StopsAt S input t n ∧
      EndsWith S input t n (exclusionLoop S input eliminated reported first t) := by
  have hstart : (if 0 < eliminated then 0 else eliminated) = 0 := by
    split <;> omega
  obtain ⟨hcands, hcount⟩ := exclusionPass_eq (S := S) (t := t) first input.pPrimeRsvpTx
    input.allSensingData input.free 0 reported
  rw [zero_add] at hcount
  change _ = (countAt S input t : Int) at hcount
  change _ = candidatesAt S input t at hcands
  rw [exclusionLoop]
  simp only [hstart, hcands, hcount]
  split
  next hlimit =>
    refine ⟨0, ⟨fun k hk => absurd hk (Nat.not_lt_zero k), Or.inr (by simpa using hlimit)⟩, ?_⟩
    exact endsWith_zero (by rw [if_pos hlimit])
  next hlimit =>
    split
    next hover =>
      obtain ⟨n, hstop, hend⟩ := exclusionLoop_stops (Int.natCast_nonneg (countAt S input t))
        (exclusionPass S t first input.pPrimeRsvpTx input.allSensingData input.candidates 0
          reported).2.2 false (t + 3)
      exact ⟨n + 1, stopsAt_succ hover (by omega) hstop, endsWith_succ hend⟩
    next hin =>
      refine ⟨0, ⟨fun k hk => absurd hk (Nat.not_lt_zero k), Or.inl (by simpa using hin)⟩, ?_⟩
      exact endsWith_zero (by rw [if_neg hlimit])
termination_by (1 - t).toNat
decreasing_by omega

theorem excludeResources_stops (S : RsrpScale) (input : ExclusionInput) (t : Int) :
    ∃ n, StopsAt S input t n ∧ EndsWith S input t n (excludeResources S input t) :=
  exclusionLoop_stops (Int.natCast_nonneg _) [] true t

end Loop

end SidelinkORe
