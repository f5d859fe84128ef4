import SidelinkORe.TxOpportunities

namespace SidelinkORe

/-- A subchannel of a returned slot is free only if no reservation above `t` uses it there, so a
transmission on free subchannels overlaps no such reservation. -/
structure CoversReservations (input : ExclusionInput) (t : Int) (cands : List NrSlSlotInfo) :
    Prop where
  covered : ∀ c ∈ cands, ∀ txs ∈ input.allSensingData, ∀ tx ∈ txs, tx.sfn = c.sfn →
    (t : ℚ) < tx.slRsrp →
    ∀ k, tx.sbChStart ≤ k → k < tx.sbChStart + tx.sbChLength → k ∈ c.occupiedSbCh
  noOverlap : ∀ c ∈ cands, ∀ txs ∈ input.allSensingData, ∀ tx ∈ txs, tx.sfn = c.sfn →
    (t : ℚ) < tx.slRsrp → 0 < tx.sbChLength →
    ∀ start length, 0 < length → (∀ k, start ≤ k → k < start + length → k ∉ c.occupiedSbCh) →
    start + length ≤ tx.sbChStart ∨ tx.sbChStart + tx.sbChLength ≤ start

/-- At the threshold the loop stops with, every reservation above it is found above it on its own
first subchannel too, and every other subchannel it covers is itself the start of an entry above
it. Only rounding can spoil the first part. -/
structure ReservationsMarked (S : RsrpScale) (input : ExclusionInput) (slThres : Int) : Prop where
  starts : ∀ n : Nat, StopsAt S input slThres n → slThres + 3 * n + 3 ≤ 0 →
    ∀ c ∈ input.candidates, ∀ txs ∈ input.allSensingData, ∀ tx ∈ txs, tx.sfn = c.sfn →
      ((slThres + 3 * n : Int) : ℚ) < tx.slRsrp → 0 < tx.sbChLength →
        Occupied S (slThres + 3 * n) input.pPrimeRsvpTx input.allSensingData c.sfn tx.sbChStart
  tails : ∀ n : Nat, StopsAt S input slThres n → slThres + 3 * n + 3 ≤ 0 →
    ∀ c ∈ input.candidates, ∀ txs ∈ input.allSensingData, ∀ tx ∈ txs, tx.sfn = c.sfn →
      ((slThres + 3 * n : Int) : ℚ) < tx.slRsrp →
      ∀ k, tx.sbChStart < k → k < tx.sbChStart + tx.sbChLength →
        Occupied S (slThres + 3 * n) input.pPrimeRsvpTx input.allSensingData c.sfn k

section Coverage

variable {S : RsrpScale} {input : ExclusionInput} {slThres : Int}

theorem noOverlap_of_covered {t : Int} {cands : List NrSlSlotInfo}
    (covered : ∀ c ∈ cands, ∀ txs ∈ input.allSensingData, ∀ tx ∈ txs, tx.sfn = c.sfn →
      (t : ℚ) < tx.slRsrp →
      ∀ k, tx.sbChStart ≤ k → k < tx.sbChStart + tx.sbChLength → k ∈ c.occupiedSbCh) :
    CoversReservations input t cands where
  covered := covered
  noOverlap := by
    intro c hc txs htxs tx htx hsfn habove hpos start length hlen hfree
    by_contra hoverlap
    have hstart : max start tx.sbChStart < start + length := by omega
    have htail : max start tx.sbChStart < tx.sbChStart + tx.sbChLength := by omega
    exact hfree _ (le_max_left _ _) hstart
      (covered c hc txs htxs tx htx hsfn habove _ (le_max_right _ _) htail)

theorem occupied_start (exact : S.Exact) {t : Int} {sfn : Nat} {txs : List SlotSensingData} {tx : SlotSensingData}
    (htxs : txs ∈ input.allSensingData) (htx : tx ∈ txs) (hsfn : tx.sfn = sfn)
    (habove : (t : ℚ) < tx.slRsrp) :
    Occupied S t input.pPrimeRsvpTx input.allSensingData sfn tx.sbChStart := by
  refine ⟨txs, htxs, sfn, ?_, ?_⟩
  · exact List.mem_map.mpr ⟨0, by simp, by simp⟩
  · rw [← hsfn]
    exact overThreshold_of_mem exact htx habove

theorem mem_candidatesAt {t : Int} {c : NrSlSlotInfo} :
    c ∈ candidatesAt S input t ↔ ∃ c' ∈ input.candidates,
      c = { c' with
        occupiedSbCh := occupancy S t input.pPrimeRsvpTx input.allSensingData c'.sfn } := by
  unfold candidatesAt occupiedCandidates
  rw [List.mem_map]
  constructor
  · rintro ⟨c', hc', rfl⟩
    exact ⟨c', hc', rfl⟩
  · rintro ⟨c', hc', rfl⟩
    exact ⟨c', hc', rfl⟩

theorem coversReservations_iff_of_loop :
    CoversReservations input ((excludeResources S input slThres).rsrpThreshold - 3)
        (excludeResources S input slThres).nrCandSsResoA ↔
      ReservationsMarked S input slThres := by
  obtain ⟨n, hstop, hend⟩ := excludeResources_stops S input slThres
  have hfinal : (excludeResources S input slThres).rsrpThreshold - 3 = slThres + 3 * n := by
    have := hend.threshold
    omega
  rw [hfinal, hend.cands]
  constructor
  · intro covers
    have hmarked : ∀ m : Nat, StopsAt S input slThres m → slThres + 3 * m + 3 ≤ 0 →
        ∀ c ∈ input.candidates, ∀ txs ∈ input.allSensingData, ∀ tx ∈ txs, tx.sfn = c.sfn →
          ((slThres + 3 * m : Int) : ℚ) < tx.slRsrp →
          ∀ k, tx.sbChStart ≤ k → k < tx.sbChStart + tx.sbChLength →
            Occupied S (slThres + 3 * m) input.pPrimeRsvpTx input.allSensingData c.sfn k := by
      intro m hstop' hlimit c hc txs htxs tx htx hsfn habove k hlow hhigh
      obtain rfl := stopsAt_unique hstop hstop'
      rw [if_neg (by omega)] at covers
      have hmem := covers.covered _ (mem_candidatesAt.mpr ⟨c, hc, rfl⟩) txs htxs tx htx hsfn habove
        k hlow hhigh
      exact mem_occupancy.mp hmem
    refine ⟨?_, ?_⟩
    · intro m hstop' hlimit c hc txs htxs tx htx hsfn habove hpos
      exact hmarked m hstop' hlimit c hc txs htxs tx htx hsfn habove _ le_rfl (by omega)
    · intro m hstop' hlimit c hc txs htxs tx htx hsfn habove k hlow hhigh
      exact hmarked m hstop' hlimit c hc txs htxs tx htx hsfn habove k hlow.le hhigh
  · intro marked
    apply noOverlap_of_covered
    intro c hc txs htxs tx htx hsfn habove k hlow hhigh
    split at hc
    next => simp at hc
    next hlimit =>
      obtain ⟨c', hc', rfl⟩ := mem_candidatesAt.mp hc
      apply mem_occupancy.mpr
      rcases Nat.eq_or_lt_of_le hlow with rfl | hlt
      · exact marked.starts n hstop (by omega) c' hc' txs htxs tx htx hsfn habove (by omega)
      · exact marked.tails n hstop (by omega) c' hc' txs htxs tx htx hsfn habove k hlt hhigh

end Coverage

/-- Only the start subchannel is ever marked, so whole reservations of a sensing buffer are covered
exactly when their other subchannels are marked for another reason and no start is lost to
rounding. -/
theorem coversReservations_iff_marked (S : RsrpScale) (cfg : SelectionConfig) (sfn : Nat)
    (opps : List SlotInfo) (hopps : opps ≠ []) (sensedData : List SensingData) :
    let input := sensingInput cfg sfn opps hopps sensedData
    let r := excludeResources S input cfg.slThresPsschRsrp
    CoversReservations input (r.rsrpThreshold - 3) r.nrCandSsResoA ↔
      ReservationsMarked S input cfg.slThresPsschRsrp :=
  coversReservations_iff_of_loop

def narrowReservation : SensingData where
  sfn := 20
  rsvp := 100
  sbChLength := 1
  sbChStart := 0
  slRsrp := -80
  rc := 5
  srcRnti := 7

theorem coversReservations_iff_marked_narrow :
    let input := sensingInput (experimentConfig 1) 100 [experimentPool.slotInfo 100 120] (by simp)
      [narrowReservation]
    let r := excludeResources realScale input (-110)
    CoversReservations input (r.rsrpThreshold - 3) r.nrCandSsResoA := by
  have hlength : ∀ tx ∈ getFutSlotsBasedOnSens (experimentConfig 1) narrowReservation,
      tx.sbChLength = 1 := by decide
  refine (coversReservations_iff_marked realScale (experimentConfig 1) 100
    [experimentPool.slotInfo 100 120] (by simp) [narrowReservation]).mpr ⟨?_, ?_⟩
  · intro n _ _ c _ txs htxs tx htx hsfn habove _
    exact occupied_start realScale_exact htxs htx hsfn habove
  · intro n _ _ c _ txs htxs tx htx _ _ k hlow hhigh
    obtain rfl := List.mem_singleton.mp htxs
    have hone := hlength tx htx
    omega

def wideReservation : SensingData where
  sfn := 20
  rsvp := 100
  sbChLength := 2
  sbChStart := 0
  slRsrp := -80
  rc := 5
  srcRnti := 7

/-- Two subchannels reserved at −80 dBm in the only candidate slot. -/
def wideInput : ExclusionInput :=
  sensingInput (experimentConfig 1) 100 [experimentPool.slotInfo 100 120] (by simp)
    [wideReservation]

theorem wideInput_occupancy (t : Int) (sfn : Nat) :
    occupancy realScale t wideInput.pPrimeRsvpTx wideInput.allSensingData sfn ⊆ {0} := by
  intro c hc
  have hstart : ∀ tx ∈ getFutSlotsBasedOnSens (experimentConfig 1) wideReservation,
      tx.sbChStart = 0 := by decide
  obtain ⟨txs, htxs, f, _, hover⟩ := mem_occupancy.mp hc
  obtain rfl := List.mem_singleton.mp htxs
  obtain ⟨tx, htx, _, rfl⟩ := exists_of_overThreshold hover
  exact Finset.mem_singleton.mpr (hstart tx htx)

theorem wideInput_stopsAt : StopsAt realScale wideInput (-110) 0 where
  earlier := fun k hk => absurd hk (Nat.not_lt_zero k)
  last := by
    left
    have hcard := Finset.card_le_card (wideInput_occupancy (-110 + 3 * ((0 : Nat) : Int)) 120)
    have hcount : countAt realScale wideInput (-110 + 3 * ((0 : Nat) : Int)) ≤ 1 := hcard
    have hwithin : ∀ count : Fin 2, ¬wideInput.OverBudget count.val := by decide +kernel
    exact hwithin ⟨_, Nat.lt_succ_of_le hcount⟩

/-- The second subchannel of the sensed reservation is offered as free. -/
theorem coversReservations_fails_wide :
    ¬∀ (S : RsrpScale) (cfg : SelectionConfig) (sfn : Nat) (opps : List SlotInfo)
      (hopps : opps ≠ []) (sensedData : List SensingData),
      CoversReservations (sensingInput cfg sfn opps hopps sensedData)
        ((excludeResources S (sensingInput cfg sfn opps hopps sensedData)
          cfg.slThresPsschRsrp).rsrpThreshold - 3)
        (excludeResources S (sensingInput cfg sfn opps hopps sensedData)
          cfg.slThresPsschRsrp).nrCandSsResoA := by
  intro claimed
  have covers := claimed realScale (experimentConfig 1) 100 [experimentPool.slotInfo 100 120]
    (by simp) [wideReservation]
  change CoversReservations wideInput
    ((excludeResources realScale wideInput (-110)).rsrpThreshold - 3)
    (excludeResources realScale wideInput (-110)).nrCandSsResoA at covers
  obtain ⟨n, hstop, hend⟩ := excludeResources_stops realScale wideInput (-110)
  obtain rfl := stopsAt_unique wideInput_stopsAt hstop
  rw [hend.cands, hend.threshold, if_neg (by decide)] at covers
  have hcandidate : ⟨experimentPool.shape, 120, ∅⟩ ∈ wideInput.candidates :=
    List.mem_singleton.mpr rfl
  have hprojected : (announcedSlots wideReservation 120).head (by decide) ∈
      getFutSlotsBasedOnSens (experimentConfig 1) wideReservation := by decide
  have hmem := covers.covered _ (mem_candidatesAt.mpr ⟨_, hcandidate, rfl⟩) _
    (List.mem_singleton.mpr rfl) _ hprojected rfl (by norm_num [announcedSlots, wideReservation]) 1
    (by decide) (by decide)
  have hzero := Finset.mem_singleton.mp (wideInput_occupancy _ _ hmem)
  omega

end SidelinkORe
