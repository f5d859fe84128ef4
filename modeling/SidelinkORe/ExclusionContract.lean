import SidelinkORe.ThresholdLoop

namespace SidelinkORe

/-- Projected reservations use subchannels of the pool. -/
def WithinPool (input : ExclusionInput) : Prop :=
  ∀ txs ∈ input.allSensingData, ∀ tx ∈ txs, tx.sbChStart < input.totalSubCh

/-- A pass leaves at least the required percentage of the resources unoccupied. -/
def LeavesPercentage (input : ExclusionInput) (pass : ThresholdPass) : Prop :=
  input.resPercentage * (input.mTotal : Int) ≤ 100 * (input.mTotal - pass.eliminatedResources)

/-- What the caller of the exclusion loop relies on. -/
structure ExclusionContract (S : RsrpScale) (input : ExclusionInput) (r : LoopResult) : Prop where
  counted : ∀ pass ∈ r.passes, pass.eliminatedResources =
    (pass.nrCandSsResoA.map fun c => (c.occupiedSbCh.card : Int)).sum
  bounded : ∀ pass ∈ r.passes, pass.eliminatedResources ≤ input.mTotal
  nonincreasing : r.passes.Pairwise fun a b => b.eliminatedResources ≤ a.eliminatedResources
  firstWithin : ∀ pass ∈ r.passes, pass.rsrpThreshold ≤ 0 → LeavesPercentage input pass →
    (∀ earlier ∈ r.passes, earlier.rsrpThreshold < pass.rsrpThreshold →
      ¬LeavesPercentage input earlier) →
    r.nrCandSsResoA = candidatesAt S input pass.rsrpThreshold
  emptyOnly : r.nrCandSsResoA = [] →
    ∀ pass ∈ r.passes, pass.rsrpThreshold ≤ 0 → ¬LeavesPercentage input pass

/-- A tested threshold that leaves the required percentage is not the last one below the limit, and
the test in double agrees that it leaves enough. -/
def PercentageAccepted (S : RsrpScale) (input : ExclusionInput) (t : Int) : Prop :=
  ∀ n : Nat, t + 3 * n ≤ 0 →
    (∀ k : Nat, k < n → input.OverBudget (countAt S input (t + 3 * k))) →
    LeavesPercentage input (passAt S input (t + 3 * n)) →
    t + 3 * n ≤ -3 ∧ ¬input.OverBudget (countAt S input (t + 3 * n))

section Contract

variable {S : RsrpScale} {input : ExclusionInput} {t : Int}

theorem candidatesAt_ne_nil (u : Int) : candidatesAt S input u ≠ [] := by
  unfold candidatesAt occupiedCandidates
  simpa using input.candidates_ne_nil

theorem countAt_eq (u : Int) : (countAt S input u : Int) =
    ((candidatesAt S input u).map fun c => (c.occupiedSbCh.card : Int)).sum := by
  unfold countAt candidatesAt occupiedCount occupiedCandidates
  rw [List.map_map, Nat.cast_list_sum, List.map_map]
  rfl

theorem occupancy_subset_range (within : WithinPool input) (u : Int) (sfn : Nat) :
    occupancy S u input.pPrimeRsvpTx input.allSensingData sfn ⊆ Finset.range input.totalSubCh := by
  intro c hc
  obtain ⟨txs, htxs, f, _, hover⟩ := mem_occupancy.mp hc
  obtain ⟨tx, htx, _, hstart⟩ := exists_of_overThreshold hover
  rw [Finset.mem_range, ← hstart]
  exact within txs htxs tx htx

theorem countAt_le_mTotal (within : WithinPool input) (u : Int) :
    countAt S input u ≤ input.mTotal := by
  have hcard : ∀ c ∈ input.candidates,
      (occupancy S u input.pPrimeRsvpTx input.allSensingData c.sfn).card ≤ input.totalSubCh := by
    intro c _
    simpa using Finset.card_le_card (occupancy_subset_range within u c.sfn)
  have hsum := List.sum_le_card_nsmul (input.candidates.map fun c =>
    (occupancy S u input.pPrimeRsvpTx input.allSensingData c.sfn).card) input.totalSubCh (by
      intro x hx
      obtain ⟨c, hc, rfl⟩ := List.mem_map.mp hx
      exact hcard c hc)
  rw [List.length_map, smul_eq_mul, Nat.mul_comm] at hsum
  exact hsum

theorem mem_passes {r : LoopResult} {n : Nat} (h : EndsWith S input t n r) {pass : ThresholdPass} :
    pass ∈ r.passes ↔ ∃ k ≤ n, pass = passAt S input (t + 3 * (k : Nat)) := by
  rw [h.passes, List.mem_map]
  constructor
  · rintro ⟨k, hk, rfl⟩
    exact ⟨k, by simpa [Nat.lt_succ_iff] using hk, rfl⟩
  · rintro ⟨k, hk, rfl⟩
    exact ⟨k, by simpa [Nat.lt_succ_iff] using hk, rfl⟩

theorem passes_nonincreasing {r : LoopResult} {n : Nat} (h : EndsWith S input t n r) :
    r.passes.Pairwise fun a b => b.eliminatedResources ≤ a.eliminatedResources := by
  rw [h.passes, List.pairwise_map]
  refine List.pairwise_lt_range.imp ?_
  intro k m hkm
  have hanti := occupiedCount_anti (S := S) (show t + 3 * (k : Int) ≤ t + 3 * m by omega)
    input.pPrimeRsvpTx input.allSensingData input.candidates
  exact Int.ofNat_le.mpr hanti

theorem countAt_congr {u v : Int} (h : candidatesAt S input u = candidatesAt S input v) :
    countAt S input u = countAt S input v := by
  have hcount : (countAt S input u : Int) = _ := countAt_eq u
  rw [h, ← countAt_eq] at hcount
  exact Int.ofNat_inj.mp hcount

/-- The thresholds up to the first one within budget are those that are tested. -/
theorem StopsAt.tested {n m : Nat} (hstop : StopsAt S input t n) (hle : t + 3 * m ≤ 0)
    (hover : ∀ k : Nat, k < m → input.OverBudget (countAt S input (t + 3 * k))) : m ≤ n := by
  by_contra hlate
  rcases hstop.last with hin | hlimit
  · exact hin (hover n (by omega))
  · omega

theorem firstWithin_of_accepted {r : LoopResult} {n : Nat} (hstop : StopsAt S input t n)
    (hend : EndsWith S input t n r) (accepted : PercentageAccepted S input t) :
    ∀ pass ∈ r.passes, pass.rsrpThreshold ≤ 0 → LeavesPercentage input pass →
      r.nrCandSsResoA = candidatesAt S input pass.rsrpThreshold := by
  intro pass hpass hle hleaves
  obtain ⟨k, hk, rfl⟩ := (mem_passes hend).mp hpass
  obtain ⟨hlow, hin⟩ := accepted k hle (fun j hj => (hstop.earlier j (by omega)).1) hleaves
  have hkn : k = n := by
    by_contra hne
    exact hin (hstop.earlier k (by omega)).1
  subst hkn
  rw [hend.cands, if_neg (by omega)]
  rfl

/-- What the loop returns for a tested threshold that leaves enough shows that it ended there. -/
theorem accepted_of_returned {r : LoopResult} {n m : Nat} (hstop : StopsAt S input t n)
    (hend : EndsWith S input t n r) (hmn : m ≤ n)
    (hcands : r.nrCandSsResoA = candidatesAt S input (t + 3 * m)) :
    m = n ∧ t + 3 * n ≤ -3 ∧ ¬input.OverBudget (countAt S input (t + 3 * n)) := by
  have hlow : ¬0 < t + 3 * n + 3 := by
    intro hlimit
    rw [hend.cands, if_pos hlimit] at hcands
    exact candidatesAt_ne_nil _ hcands.symm
  have hin := hstop.last.resolve_right hlow
  rw [hend.cands, if_neg hlow] at hcands
  refine ⟨?_, by omega, hin⟩
  by_contra hne
  have hover := (hstop.earlier m (by omega)).1
  rw [← countAt_congr hcands] at hover
  exact hin hover

/-- The loop keeps its contract unless a tested threshold leaves enough resources and is passed
over, because it is the last one before the limit or because the test in double rounds. -/
theorem exclusionContract_iff_accepted (within : WithinPool input) :
    ExclusionContract S input (excludeResources S input t) ↔ PercentageAccepted S input t := by
  obtain ⟨n, hstop, hend⟩ := excludeResources_stops S input t
  constructor
  · classical
    intro contract m hle hover hleaves
    have hmn := hstop.tested hle hover
    -- the list returned is the one of the first good threshold, which may lie before `m`
    have hgood : ∃ k : Nat, LeavesPercentage input (passAt S input (t + 3 * k)) := ⟨m, hleaves⟩
    have hfirst : Nat.find hgood ≤ m := Nat.find_min' hgood hleaves
    have hcands := contract.firstWithin _
      ((mem_passes hend).mpr ⟨Nat.find hgood, hfirst.trans hmn, rfl⟩)
      (show t + 3 * (Nat.find hgood : Int) ≤ 0 by omega) (Nat.find_spec hgood) (by
        intro earlier hearlier hlt
        obtain ⟨k, _, rfl⟩ := (mem_passes hend).mp hearlier
        change t + 3 * (k : Int) < t + 3 * (Nat.find hgood : Int) at hlt
        exact Nat.find_min hgood (by omega))
    obtain ⟨hends, hlow, hin⟩ := accepted_of_returned hstop hend (hfirst.trans hmn) hcands
    obtain rfl : m = n := by omega
    exact ⟨hlow, hin⟩
  · intro accepted
    have hfirst := firstWithin_of_accepted hstop hend accepted
    refine ⟨?_, ?_, passes_nonincreasing hend, ?_, ?_⟩
    · intro pass hpass
      obtain ⟨k, _, rfl⟩ := (mem_passes hend).mp hpass
      exact countAt_eq _
    · intro pass hpass
      obtain ⟨k, _, rfl⟩ := (mem_passes hend).mp hpass
      exact Int.ofNat_le.mpr (countAt_le_mTotal within _)
    · intro pass hpass hle hleaves _
      exact hfirst pass hpass hle hleaves
    · intro hnil pass hpass hle hleaves
      have hcands := hfirst pass hpass hle hleaves
      rw [hnil] at hcands
      exact candidatesAt_ne_nil _ hcands.symm

end Contract

def quietTx : SlotSensingData where
  sfn := 5
  rsvp := 100
  sbChLength := 1
  sbChStart := 0
  prio := 0
  slRsrp := -80
  corrupt := false
  rc := 0
  srcRnti := 1

/-- One slot with one subchannel, on which a reservation at −80 dBm was sensed. -/
def quietSlot : ExclusionInput where
  pPrimeRsvpTx := 100
  allSensingData := [[quietTx]]
  candidates := [{ shape := {}, sfn := 5, occupiedSbCh := ∅ }]
  candidates_ne_nil := by simp
  free := by simp
  totalSubCh := 1
  resPercentage := 20

theorem quietSlot_withinPool : WithinPool quietSlot := by
  intro txs htxs tx htx
  obtain rfl := List.mem_singleton.mp htxs
  obtain rfl := List.mem_singleton.mp htx
  decide

theorem quietSlot_occupancy {S : RsrpScale} (exact : S.Exact) {t : Int} (ht : -80 ≤ t) (sfn : Nat) :
    occupancy S t 100 [[quietTx]] sfn = ∅ := by
  refine Finset.eq_empty_of_forall_notMem fun c hc => ?_
  obtain ⟨txs, htxs, f, _, hover⟩ := mem_occupancy.mp hc
  obtain rfl := List.mem_singleton.mp htxs
  by_cases hit : f = quietTx.sfn ∧ quietTx.sbChStart = c
  · obtain ⟨rfl, rfl⟩ := hit
    rw [overThreshold, powersAt_singleton_hit rfl] at hover
    have hlt : (t : ℚ) < -80 := exact.lt_of_above_single _ _ hover
    have hcast : ((-80 : Int) : ℚ) ≤ t := Int.cast_le.mpr ht
    push_cast at hcast
    linarith
  · rw [overThreshold, powersAt_singleton_miss hit, S.sum_nil, S.above_zero] at hover
    cases hover

theorem quietSlot_countAt {t : Int} (ht : -80 ≤ t) : countAt realScale quietSlot t = 0 := by
  unfold countAt occupiedCount
  simp [quietSlot, quietSlot_occupancy realScale_exact ht]

theorem exclusionContract_iff_accepted_quietSlot :
    ExclusionContract realScale quietSlot (excludeResources realScale quietSlot (-5)) := by
  refine (exclusionContract_iff_accepted quietSlot_withinPool).mpr ?_
  intro n hle hover _
  have hin : ¬quietSlot.OverBudget 0 := by decide +kernel
  have hzero : n = 0 := by
    by_contra hne
    have hfirst := hover 0 (Nat.pos_of_ne_zero hne)
    rw [quietSlot_countAt (by decide)] at hfirst
    exact hin hfirst
  subst hzero
  rw [quietSlot_countAt (by decide)]
  exact ⟨by decide, hin⟩

/-- Started at −2 dBm the loop returns no slot although none of its resources is occupied. -/
theorem exclusionContract_fails_at_limit :
    ¬∀ (input : ExclusionInput) (t : Int), WithinPool input →
      ExclusionContract realScale input (excludeResources realScale input t) := by
  intro claimed
  have contract := claimed quietSlot (-2) quietSlot_withinPool
  obtain ⟨n, hstop, hend⟩ := excludeResources_stops realScale quietSlot (-2)
  have hzero : n = 0 := by
    refine stopsAt_unique hstop ⟨fun k hk => absurd hk (Nat.not_lt_zero k), Or.inr (by simp)⟩
  subst hzero
  have hnil : (excludeResources realScale quietSlot (-2)).nrCandSsResoA = [] := by
    rw [hend.cands]
    simp
  have hpass := (mem_passes hend).mpr ⟨0, le_rfl, rfl⟩
  have hspoilt := contract.emptyOnly hnil _ hpass (by decide)
  apply hspoilt
  have hcount : countAt realScale quietSlot (-2 + 3 * ((0 : Nat) : Int)) = 0 :=
    quietSlot_countAt (by decide)
  unfold LeavesPercentage passAt
  rw [hcount]
  decide

/-- One of ten resources eliminated leaves 90 percent, which the test in double refuses. -/
example : let input := { quietSlot with totalSubCh := 10, resPercentage := 90 }
    LeavesPercentage input ⟨-5, [], 1⟩ ∧ input.OverBudget 1 :=
  ⟨by unfold LeavesPercentage; decide, by decide +kernel⟩

end SidelinkORe
