import SidelinkORe.PacketReports

namespace SidelinkORe

section Reported

variable {S : RsrpScale} {t : Int} {futureCands : List Nat}

variable (S t futureCands) in
/-- The packets of a run of turns, each with the marks that the earlier ones left. -/
def turnsFrom : Finset Nat → List (List SlotSensingData) → List Packet
  | _, [] => []
  | occupied, txs :: entries =>
    turnReport S t futureCands occupied txs ++
      turnsFrom (hearEntry S t true futureCands ⟨occupied, 0, []⟩ txs).occupiedSbCh entries

theorem hearEntry_occupied (m : Marking) (txs : List SlotSensingData) :
    (hearEntry S t true futureCands m txs).occupiedSbCh =
      (hearEntry S t true futureCands ⟨m.occupiedSbCh, 0, []⟩ txs).occupiedSbCh := by
  conv_lhs => rw [marking_eq_after m, hearEntry_after]
  rfl

theorem foldl_reported (m : Marking) (entries : List (List SlotSensingData)) :
    (entries.foldl (hearEntry S t true futureCands) m).reported =
      m.reported ++ turnsFrom S t futureCands m.occupiedSbCh entries := by
  induction entries generalizing m with
  | nil => simp [turnsFrom]
  | cons txs entries ih =>
    rw [List.foldl_cons, ih, hearEntry_reported, hearEntry_occupied, turnsFrom, List.append_assoc]

theorem exclusionPass_reported (p : Nat) (all : List (List SlotSensingData))
    (cands : List NrSlSlotInfo) (e : Int) (r : List Packet) :
    (exclusionPass S t true p all cands e r).2.2 =
      r ++ cands.flatMap fun c => turnsFrom S t (listFutureCands p c.sfn) c.occupiedSbCh all := by
  induction cands generalizing e r with
  | nil => simp [exclusionPass]
  | cons c cands ih =>
    rw [exclusionPass, List.flatMap_cons, ← List.append_assoc]
    simp only [ih]
    rw [markCandidate, foldl_reported]

theorem hearTx_later (f : Nat) (acc : Marking × (Nat → S.Power)) (tx : SlotSensingData) :
    (hearTx S t false f acc tx).1.reported = acc.1.reported := by
  unfold hearTx
  split
  · simp only [Bool.false_eq_true, and_false, if_false]
    split <;> rfl
  · rfl

theorem foldl_reported_same {α β : Type} {f : β → α → β} {g : β → List Packet}
    (step : ∀ b a, g (f b a) = g b) (l : List α) (b : β) : g (l.foldl f b) = g b := by
  induction l generalizing b with
  | nil => rfl
  | cons a l ih => exact (ih (f b a)).trans (step b a)

theorem exclusionPass_later (p : Nat) (all : List (List SlotSensingData))
    (cands : List NrSlSlotInfo) (e : Int) (r : List Packet) :
    (exclusionPass S t false p all cands e r).2.2 = r := by
  have hfuture : ∀ txs (m : Marking) f, (hearFutureCand S t false txs m f).reported = m.reported :=
    fun txs m f => foldl_reported_same (g := fun acc : Marking × (Nat → S.Power) => acc.1.reported)
      (hearTx_later f) txs (m, fun _ => S.zero)
  have hentry : ∀ fs (m : Marking) txs, (hearEntry S t false fs m txs).reported = m.reported :=
    fun fs m txs => foldl_reported_same (hfuture txs) fs m
  induction cands generalizing e r with
  | nil => rfl
  | cons c cands ih =>
    rw [exclusionPass]
    simp only [ih]
    exact foldl_reported_same (hentry _) all _

theorem exclusionLoop_later (input : ExclusionInput) (e : Int) (r : List Packet) (t : Int) :
    (exclusionLoop S input e r false t).reported = r := by
  rw [exclusionLoop]
  generalize (if 0 < e then 0 else e) = start
  simp only [exclusionPass_later]
  split
  · rfl
  · split
    · exact exclusionLoop_later input _ r (t + 3)
    · rfl
termination_by (1 - t).toNat
decreasing_by omega

theorem excludeResources_reported (input : ExclusionInput) :
    (excludeResources S input t).reported = input.candidates.flatMap fun c =>
      turnsFrom S t (listFutureCands input.pPrimeRsvpTx c.sfn) ∅ input.allSensingData := by
  have hfree : (input.candidates.flatMap fun c => turnsFrom S t
      (listFutureCands input.pPrimeRsvpTx c.sfn) c.occupiedSbCh input.allSensingData) =
      input.candidates.flatMap fun c =>
        turnsFrom S t (listFutureCands input.pPrimeRsvpTx c.sfn) ∅ input.allSensingData :=
    List.flatMap_congr fun c hc => by rw [input.free c hc]
  rw [excludeResources, exclusionLoop]
  generalize (if 0 < (input.mTotal : Int) then 0 else (input.mTotal : Int)) = start
  simp only [exclusionPass_reported, List.nil_append, hfree]
  split
  · rfl
  · split
    · exact exclusionLoop_later input _ _ _
    · rfl

end Reported

/-- Every entry reports in its own turn each subchannel on which a non-corrupt projection of it
meets a candidate slot, or the repetition of the candidate. -/
def ReportsComplete (S : RsrpScale) (t : Int) (input : ExclusionInput) : Prop :=
  ∀ cand ∈ input.candidates, ∀ before txs after, input.allSensingData = before ++ txs :: after →
    ∀ tx ∈ txs, tx.corrupt = false → tx.sfn ∈ listFutureCands input.pPrimeRsvpTx cand.sfn →
      ∃ f ∈ listFutureCands input.pPrimeRsvpTx cand.sfn, f ≤ tx.sfn ∧
        packetOf tx f ∈ turnReport S t (listFutureCands input.pPrimeRsvpTx cand.sfn)
          (occupiedAfter S t (listFutureCands input.pPrimeRsvpTx cand.sfn) before) txs

section Contract

variable (S : RsrpScale) (cfg : SelectionConfig) (sfn : Nat) (opps : List SlotInfo)
  (hopps : opps ≠ [])

def reportedPackets (sensedData : List SensingData) : List Packet :=
  (excludeResources S (sensingInput cfg sfn opps hopps sensedData) cfg.slThresPsschRsrp).reported

/-- The reported packets are complete and do not depend on the order of the sensing buffer. -/
structure ReportContract (sensedData : List SensingData) : Prop where
  orderFree : ∀ buffer, buffer.Perm sensedData →
    (reportedPackets S cfg sfn opps hopps buffer).Perm
      (reportedPackets S cfg sfn opps hopps sensedData)
  complete : ∀ buffer, buffer.Perm sensedData →
    ReportsComplete S cfg.slThresPsschRsrp (sensingInput cfg sfn opps hopps buffer)

def candidateFutures (c : NrSlSlotInfo) : List Nat :=
  listFutureCands (cfg.pool.resvPeriodInSlots cfg.pRsvpTx) c.sfn

/-- On a candidate slot, `a` alone exceeds the start threshold on a subchannel that a non-corrupt
projection of `b` starts on. -/
def Masks (a b : SensingData) : Prop :=
  ∃ cand ∈ getNrSupportedList sfn opps, ∃ f ∈ candidateFutures cfg cand,
    ∃ tx ∈ getFutSlotsBasedOnSens cfg b, tx.corrupt = false ∧
      tx.sfn ∈ candidateFutures cfg cand ∧
      overThreshold S cfg.slThresPsschRsrp (getFutSlotsBasedOnSens cfg a) f tx.sbChStart = true

variable {S cfg sfn opps hopps}

theorem occupiedAfter_iff {futureCands : List Nat} {t : Int}
    {entries : List (List SlotSensingData)} {c : Nat} :
    c ∈ occupiedAfter S t futureCands entries ↔
      ∃ txs ∈ entries, ∃ f ∈ futureCands, overThreshold S t txs f c = true := by
  have hheard := heard_foldl (hearEntry_heard (S := S) (t := t) true futureCands) entries ⟨∅, 0, []⟩
  exact (hheard.occupied c).trans (or_iff_right (Finset.notMem_empty c))

theorem listFutureCands_rising (p sfn : Nat) : (listFutureCands p sfn).Pairwise (· ≤ ·) := by
  simp [listFutureCands, List.range_succ]

theorem getFut_corrupt {d : SensingData} {tx : SlotSensingData}
    (htx : tx ∈ getFutSlotsBasedOnSens cfg d) : tx.corrupt = d.corrupt :=
  (getFutSlotsBasedOnSens_sender htx).1

theorem packetOf_eq {d : SensingData} {tx tx' : SlotSensingData}
    (htx : tx ∈ getFutSlotsBasedOnSens cfg d) (htx' : tx' ∈ getFutSlotsBasedOnSens cfg d)
    (hstart : tx.sbChStart = tx'.sbChStart) (f : Nat) : packetOf tx f = packetOf tx' f := by
  obtain ⟨_, hrc, hrnti, _⟩ := getFutSlotsBasedOnSens_sender htx
  obtain ⟨_, hrc', hrnti', _⟩ := getFutSlotsBasedOnSens_sender htx'
  unfold packetOf
  rw [hrc, hrc', hrnti, hrnti', hstart]

/-- An entry whose subchannels are free reports each of them. -/
theorem turnReport_complete {d : SensingData} {tx : SlotSensingData} {occupied : Finset Nat}
    {t : Int} {p s : Nat} (htx : tx ∈ getFutSlotsBasedOnSens cfg d) (clean : tx.corrupt = false)
    (hf : tx.sfn ∈ listFutureCands p s) (free : tx.sbChStart ∉ occupied) :
    ∃ f ∈ listFutureCands p s, f ≤ tx.sfn ∧
      packetOf tx f ∈ turnReport S t (listFutureCands p s) occupied
        (getFutSlotsBasedOnSens cfg d) := by
  have hclean : d.corrupt = false := (getFut_corrupt htx).symm.trans clean
  exact hearEntry_reports (m := ⟨occupied, 0, []⟩) (listFutureCands_rising p s) free
    (fun x hx => ⟨(getFut_corrupt hx).trans hclean, fun f hstart => packetOf_eq hx htx hstart f⟩)
    hf ⟨tx, htx, rfl, rfl⟩

theorem occupiedAfter_snoc {futureCands : List Nat} {t : Int}
    (entries : List (List SlotSensingData)) (txs : List SlotSensingData) :
    occupiedAfter S t futureCands (entries ++ [txs]) =
      (hearEntry S t true futureCands ⟨occupiedAfter S t futureCands entries, 0, []⟩ txs).occupiedSbCh := by
  unfold occupiedAfter
  rw [List.foldl_append, List.foldl_cons, List.foldl_nil, hearEntry_occupied]

theorem turnReport_corrupt {futureCands : List Nat} {t : Int} {occupied : Finset Nat}
    {txs : List SlotSensingData} (corrupt : ∀ tx ∈ txs, tx.corrupt = true) :
    turnReport S t futureCands occupied txs = [] := by
  have htx : ∀ f (acc : Marking × (Nat → S.Power)) tx, tx.corrupt = true →
      (hearTx S t true f acc tx).1.reported = acc.1.reported := by
    intro f acc tx hcorrupt
    unfold hearTx
    rw [hcorrupt]
    split
    · simp only [Bool.true_eq_false, false_and, if_false]
      split <;> rfl
    · rfl
  have hfuture : ∀ (m : Marking) f, (hearFutureCand S t true txs m f).reported = m.reported := by
    intro m f
    have hall : ∀ acc : Marking × (Nat → S.Power),
        (txs.foldl (hearTx S t true f) acc).1.reported = acc.1.reported := by
      induction txs with
      | nil => exact fun _ => rfl
      | cons tx txs ih =>
        intro acc
        rw [List.foldl_cons, ih (fun x hx => corrupt x (List.mem_cons_of_mem tx hx)),
          htx f acc tx (corrupt tx List.mem_cons_self)]
    exact hall _
  exact foldl_reported_same hfuture futureCands ⟨occupied, 0, []⟩

/-- With its own subchannels free, what an entry reports does not depend on the other marks. -/
theorem turnReport_unmarked {futureCands : List Nat} {t : Int} {occupied : Finset Nat}
    {d : SensingData} (free : ∀ tx ∈ getFutSlotsBasedOnSens cfg d, tx.corrupt = false →
      tx.sfn ∈ futureCands → tx.sbChStart ∉ occupied) :
    turnReport S t futureCands occupied (getFutSlotsBasedOnSens cfg d) =
      turnReport S t futureCands ∅ (getFutSlotsBasedOnSens cfg d) := by
  by_cases hclean : d.corrupt = false
  · have hagree : ∀ c, c ∉ occupied → (c ∈ occupied ↔ c ∈ (∅ : Finset Nat)) := by
      intro c hc
      simp [hc]
    exact hearEntry_agree (m := ⟨occupied, 0, []⟩) hagree rfl
      fun tx htx hf => free tx htx ((getFut_corrupt htx).trans hclean) hf
  · have hcorrupt : ∀ tx ∈ getFutSlotsBasedOnSens cfg d, tx.corrupt = true := by
      intro tx htx
      rw [getFut_corrupt htx]
      simpa using hclean
    rw [turnReport_corrupt hcorrupt, turnReport_corrupt hcorrupt]

section Unmasked

variable {sensedData : List SensingData}
  (unmasked : sensedData.Pairwise fun a b =>
    ¬Masks S cfg sfn opps a b ∧ ¬Masks S cfg sfn opps b a)

include unmasked in
theorem unmasked_free {before after : List SensingData} {d : SensingData}
    (hsplit : sensedData = before ++ d :: after) {cand : NrSlSlotInfo}
    (hcand : cand ∈ getNrSupportedList sfn opps) {tx : SlotSensingData}
    (htx : tx ∈ getFutSlotsBasedOnSens cfg d) (clean : tx.corrupt = false)
    (hf : tx.sfn ∈ candidateFutures cfg cand) :
    tx.sbChStart ∉ occupiedAfter S cfg.slThresPsschRsrp (candidateFutures cfg cand)
      (before.map (getFutSlotsBasedOnSens cfg)) := by
  intro hocc
  obtain ⟨txs, htxs, f, hfmem, hover⟩ := occupiedAfter_iff.mp hocc
  obtain ⟨a, ha, rfl⟩ := List.mem_map.mp htxs
  rw [hsplit] at unmasked
  have hpair := (List.pairwise_append.mp unmasked).2.2 a ha d List.mem_cons_self
  exact hpair.1 ⟨cand, hcand, f, hfmem, tx, htx, clean, hf, hover⟩

include unmasked in
theorem unmasked_complete :
    ReportsComplete S cfg.slThresPsschRsrp (sensingInput cfg sfn opps hopps sensedData) := by
  intro cand hcand before txs after hsplit tx htx clean hf
  obtain ⟨before, rest, hdata, rfl, hrest⟩ := List.map_eq_append_iff.mp hsplit
  obtain ⟨d, after, rfl, rfl, rfl⟩ := List.map_eq_cons_iff.mp hrest
  exact turnReport_complete htx clean hf (unmasked_free unmasked hdata hcand htx clean hf)

include unmasked in
theorem unmasked_turns {cand : NrSlSlotInfo} (hcand : cand ∈ getNrSupportedList sfn opps) :
    ∀ before rest, sensedData = before ++ rest →
      turnsFrom S cfg.slThresPsschRsrp (candidateFutures cfg cand)
        (occupiedAfter S cfg.slThresPsschRsrp (candidateFutures cfg cand)
          (before.map (getFutSlotsBasedOnSens cfg)))
        (rest.map (getFutSlotsBasedOnSens cfg)) =
      rest.flatMap fun d => turnReport S cfg.slThresPsschRsrp (candidateFutures cfg cand) ∅
        (getFutSlotsBasedOnSens cfg d) := by
  intro before rest
  induction rest generalizing before with
  | nil => exact fun _ => rfl
  | cons d rest ih =>
    intro hsplit
    have hnext := ih (before ++ [d]) (by rw [hsplit, List.append_assoc]; rfl)
    rw [List.map_append, List.map_cons, List.map_nil, occupiedAfter_snoc] at hnext
    rw [List.map_cons, turnsFrom, List.flatMap_cons, hnext, turnReport_unmarked]
    exact fun tx htx clean hf => unmasked_free unmasked hsplit hcand htx clean hf

include unmasked in
theorem unmasked_reported :
    reportedPackets S cfg sfn opps hopps sensedData =
      (getNrSupportedList sfn opps).flatMap fun cand => sensedData.flatMap fun d =>
        turnReport S cfg.slThresPsschRsrp (candidateFutures cfg cand) ∅
          (getFutSlotsBasedOnSens cfg d) := by
  rw [reportedPackets, excludeResources_reported]
  exact List.flatMap_congr fun cand hcand => unmasked_turns unmasked hcand [] sensedData rfl

end Unmasked

/-- A relation holds between all pairs of a list if it holds for the first two entries of each
rearrangement. -/
theorem pairwise_of_perm_heads {α : Type} {R : α → α → Prop} {l : List α}
    (h : ∀ a b rest, (a :: b :: rest).Perm l → R a b) : l.Pairwise R := by
  induction l with
  | nil => exact .nil
  | cons x l ih =>
    refine List.pairwise_cons.mpr ⟨fun b hb => ?_, ih fun a b rest hperm => ?_⟩
    · obtain ⟨before, after, rfl⟩ := List.append_of_mem hb
      exact h x b (before ++ after) (List.Perm.cons x List.perm_middle.symm)
    · have hmiddle : ([a, b] ++ x :: rest).Perm (x :: ([a, b] ++ rest)) := List.perm_middle
      exact h a b (x :: rest) (hmiddle.trans (List.Perm.cons x hperm))

theorem not_masks_of_complete {a b : SensingData} {rest : List SensingData}
    (complete : ReportsComplete S cfg.slThresPsschRsrp
      (sensingInput cfg sfn opps hopps (a :: b :: rest))) : ¬Masks S cfg sfn opps a b := by
  rintro ⟨cand, hcand, f, hf, tx, htx, clean, hsfn, hover⟩
  obtain ⟨f', _, _, hreported⟩ := complete cand hcand [getFutSlotsBasedOnSens cfg a]
    (getFutSlotsBasedOnSens cfg b) (rest.map (getFutSlotsBasedOnSens cfg)) rfl tx htx clean hsfn
  apply turnReport_free hreported
  exact occupiedAfter_iff.mpr ⟨_, List.mem_singleton.mpr rfl, f, hf, hover⟩

/-- The reports are complete in every order exactly when no entry of the buffer masks another. -/
theorem reportContract_iff_unmasked (S : RsrpScale) (cfg : SelectionConfig) (sfn : Nat)
    (opps : List SlotInfo) (hopps : opps ≠ []) (sensedData : List SensingData) :
    ReportContract S cfg sfn opps hopps sensedData ↔
      sensedData.Pairwise fun a b => ¬Masks S cfg sfn opps a b ∧ ¬Masks S cfg sfn opps b a := by
  constructor
  · intro contract
    apply pairwise_of_perm_heads
    intro a b rest hperm
    have hswap : (b :: a :: rest).Perm sensedData := (List.Perm.swap a b rest).trans hperm
    exact ⟨not_masks_of_complete (contract.complete _ hperm),
      not_masks_of_complete (contract.complete _ hswap)⟩
  · intro unmasked
    have hall : ∀ buffer : List SensingData, buffer.Perm sensedData → buffer.Pairwise fun a b =>
        ¬Masks S cfg sfn opps a b ∧ ¬Masks S cfg sfn opps b a := fun buffer hperm =>
      (hperm.pairwise_iff fun h => h.symm).mpr unmasked
    refine ⟨fun buffer hperm => ?_, fun buffer hperm => unmasked_complete (hall buffer hperm)⟩
    rw [unmasked_reported (hall buffer hperm), unmasked_reported unmasked]
    exact List.Perm.flatMap_left _ fun cand _ => hperm.flatMap_right _

end Contract

def strongReservation : SensingData where
  sfn := 20
  rsvp := 100
  sbChLength := 1
  sbChStart := 0
  slRsrp := -80
  rc := 5
  srcRnti := 7

def weakReservation : SensingData where
  sfn := 20
  rsvp := 100
  sbChLength := 1
  sbChStart := 0
  slRsrp := -120
  rc := 9
  srcRnti := 8

theorem reportContract_iff_unmasked_single : ReportContract realScale (experimentConfig 1) 100
    [experimentPool.slotInfo 100 120] (by simp) [strongReservation] :=
  (reportContract_iff_unmasked realScale (experimentConfig 1) 100
    [experimentPool.slotInfo 100 120] (by simp) [strongReservation]).mpr
    (List.pairwise_singleton _ _)

/-- Of two reservations on one resource only the stronger one is reported when it comes first. -/
theorem reportContract_fails_masked :
    ¬∀ (S : RsrpScale) (cfg : SelectionConfig) (sfn : Nat) (opps : List SlotInfo)
      (hopps : opps ≠ []) (sensedData : List SensingData),
      ReportContract S cfg sfn opps hopps sensedData := by
  intro claimed
  have contract := claimed realScale (experimentConfig 1) 100 [experimentPool.slotInfo 100 120]
    (by simp) [strongReservation, weakReservation]
  apply not_masks_of_complete (contract.complete _ (List.Perm.refl _))
  have hweak : (announcedSlots weakReservation 120).head (by decide) ∈
      getFutSlotsBasedOnSens (experimentConfig 1) weakReservation := by decide
  have hstrong : (announcedSlots strongReservation 120).head (by decide) ∈
      getFutSlotsBasedOnSens (experimentConfig 1) strongReservation := by decide
  refine ⟨_, List.mem_singleton.mpr rfl, 120, by decide, _, hweak, rfl, by decide, ?_⟩
  exact overThreshold_of_mem realScale_exact hstrong
    (by norm_num [announcedSlots, strongReservation, experimentConfig])

end SidelinkORe
