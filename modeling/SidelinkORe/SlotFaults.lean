import SidelinkORe.SlotIndication

namespace SidelinkORe

/-- The faults of a slot use other than the two that the state of the grants and of the HARQ
decides. -/
def slotUseFaults : List Fault :=
  [.harqIdOutOfRange, .harqForeignDestination, .lcPacketMismatch, .feedbackForAvailableId,
    .logicalChannelMissing, .harqIdUnassigned, .gapIteratorPastEnd, .sciMaxNumPerReserve,
    .sciGapNotAllowed, .sciEqualGaps, .sciMandatoryUnset, .gapsNotIncreasing,
    .feedbackRetxUnsupported]

section SlotUse

variable {P : Fault → Prop} {cfg : UeMacConfig} {rlc : Nat → Nat → Bool} {h : NrSlUeMacHarq}

theorem assign_fails (hbusy : P .harqAllBusy) (hP : ∀ e ∈ slotUseFaults, P e) (d : Nat) :
    Fails P (h.assignNrSlHarqProcessId d) := by
  refine fails_bind (fails_require hbusy) fun _ _ => ?_
  split
  · exact fails_error hbusy
  · exact fails_bind (fails_orFault (hP _ (by decide))) fun _ _ => fails_ok _

theorem assign_fails_of_left (hP : ∀ e ∈ slotUseFaults, P e) (d : Nat)
    (hleft : h.nrSlHarqIdBuffer ≠ []) (hsize : h.nrSlHarqIdBuffer.length < 256) :
    Fails P (h.assignNrSlHarqProcessId d) := by
  have hpos : 0 < h.nrSlHarqIdBuffer.length := List.length_pos_iff.mpr hleft
  have hmod := Nat.mod_eq_of_lt hsize
  refine fails_bind ?_ fun _ _ => ?_
  · intro e he
    obtain ⟨hnone, _⟩ := require_error_iff.mp he
    refine absurd (?_ : h.getNumAvailableHarqIds ≠ 0) hnone
    unfold NrSlUeMacHarq.getNumAvailableHarqIds
    omega
  · split
    next hnil => exact absurd hnil hleft
    next => exact fails_bind (fails_orFault (hP _ (by decide))) fun _ _ => fails_ok _

theorem notifyTxOpportunity_fails (hP : ∀ e ∈ slotUseFaults, P e) {d : Nat}
    {st : NrSlUeMacHarq × Nat × Bool} (hassign : Fails P (st.1.assignNrSlHarqProcessId d))
    (lc : SlRlcPduInfo) : Fails P (notifyTxOpportunity cfg rlc d st lc) := by
  refine fails_bind (fails_require (hP _ (by decide))) fun _ _ => fails_bind hassign fun p _ =>
    fails_bind (fails_require (hP _ (by decide))) fun _ _ => fails_ite (fun _ => ?_) fun _ => ?_
  · refine fails_bind (fails_bind (fails_orFault (hP _ (by decide))) fun _ _ => ?_)
      fun _ _ => fails_ok _
    exact fails_bind (fails_require (hP _ (by decide))) fun _ _ =>
      fails_bind (fails_require (hP _ (by decide))) fun _ _ => fails_ok _
  · exact fails_ok _

theorem transmitNewData_fails (hP : ∀ e ∈ slotUseFaults, P e) (hbusy : P .harqAllBusy)
    (g : NrSlGrantInfo) (a : NrSlSlotAlloc) : Fails P (transmitNewData cfg rlc g h a) :=
  fails_bind (fails_foldlM (fun _ lc _ => notifyTxOpportunity_fails hP
    (assign_fails hbusy hP _) lc) _) fun _ _ => fails_ok _

theorem retransmit_fails (hP : ∀ e ∈ slotUseFaults, P e) (g : NrSlGrantInfo) (a : NrSlSlotAlloc) :
    Fails P (retransmit cfg g h a) := by
  refine fails_bind ?_ fun _ _ => fails_bind (fails_require (hP _ (by decide))) fun _ _ => fails_ok _
  exact fails_bind (fails_orFault (hP _ (by decide))) fun _ _ =>
    fails_bind (fails_require (hP _ (by decide))) fun _ _ => fails_ok _

theorem closePeriod_fails (hP : ∀ e ∈ slotUseFaults, P e) (g : NrSlGrantInfo) (a : NrSlSlotAlloc) :
    Fails P (closePeriod cfg g h a) := by
  refine fails_ite (fun _ => fails_bind ?_ fun _ _ => fails_ok _) fun _ => fails_ok _
  exact fails_bind (fails_orFault (hP _ (by decide))) fun _ _ =>
    fails_bind (fails_require (hP _ (by decide))) fun _ _ =>
      fails_bind (fails_require (hP _ (by decide))) fun _ _ => fails_ok _

theorem setRetransmissions_fails (hP : ∀ e ∈ slotUseFaults, P e) (asserts : Bool)
    (header : NrSlSciF1aHeader) (gaps sbChIndex : List Nat) :
    Fails P (setRetransmissions asserts header gaps sbChIndex) := by
  refine fails_bind (fails_orFault (hP _ (by decide))) fun _ _ =>
    fails_bind (fails_orFault (hP _ (by decide))) fun _ _ =>
      fails_bind (fails_require (hP _ (by decide))) fun _ _ => fails_ite (fun _ => ?_) fun _ => ?_
  · exact fails_bind (fails_orFault (hP _ (by decide))) fun _ _ =>
      fails_bind (fails_orFault (hP _ (by decide))) fun _ _ =>
        fails_bind (fails_require (hP _ (by decide))) fun _ _ =>
          fails_bind (fails_require (hP _ (by decide))) fun _ _ =>
            fails_bind (fails_require (hP _ (by decide))) fun _ _ => fails_ok _
  · exact fails_ok _

theorem sciF1aOf_fails (hP : ∀ e ∈ slotUseFaults, P e) (g : NrSlGrantInfo) (a : NrSlSlotAlloc) :
    Fails P (sciF1aOf cfg g a) := by
  have hnext : ∀ pos : Nat, Fails P (orFault Fault.gapIteratorPastEnd g.slotAllocations.elems[pos]?) :=
    fun pos => fails_orFault (hP _ (by decide))
  have hgaps : Fails P (computeGaps a.sfn g.slotAllocations.elems a.slotNumInd) :=
    fails_mapM fun pos => fails_bind (hnext pos) fun _ _ => fails_ok _
  have hsbCh : Fails P (getStartSbChOfReTx g.slotAllocations.elems a.slotNumInd) :=
    fails_mapM fun pos => fails_bind (hnext pos) fun _ _ => fails_ok _
  refine fails_ite (fun _ => fails_bind ?_ fun _ _ => fails_ok _) fun _ => fails_ok _
  refine fails_bind (fails_require (hP _ (by decide))) fun _ _ => fails_bind ?_ fun _ _ =>
    fails_bind (fails_require (hP _ (by decide))) fun _ _ => fails_ok _
  exact fails_ite (fun _ => fails_bind hgaps fun _ _ => fails_bind hsbCh fun _ _ =>
    setRetransmissions_fails hP _ _ _ _) fun _ => fails_ok _

/-- Apart from the assignment of a HARQ id, a slot use stops only with the listed faults. -/
theorem consumeSlot_fails (hP : ∀ e ∈ slotUseFaults, P e) {d : Nat} {g : NrSlGrantInfo}
    {a : NrSlSlotAlloc} (hnew : a.ndi ≠ 0 → Fails P (transmitNewData cfg rlc g h a)) :
    Fails P (consumeSlot cfg rlc d g a h) := by
  refine fails_bind ?_ fun _ _ => fails_ite (fun _ => ?_) fun _ => fails_ok _
  · exact fails_ite hnew fun _ => retransmit_fails hP g a
  · exact fails_bind (sciF1aOf_fails hP _ _) fun _ _ =>
      fails_bind (closePeriod_fails hP _ _) fun _ _ => fails_ok _

/-- A round of the transmission loop reads an empty set only for a live grant without slots. -/
theorem useGrant_fails (hP : ∀ e ∈ slotUseFaults, P e) {d sfn : Nat} {g : NrSlGrantInfo}
    (hempty : 0 ≤ g.slResoReselCounter → g.slotAllocations.elems = [] → P .emptySlotAllocations)
    (hnew : ∀ a rest, 0 ≤ g.slResoReselCounter → g.slotAllocations.elems = a :: rest →
      a.sfn = sfn → a.ndi ≠ 0 →
      Fails P (transmitNewData cfg rlc { g with slotAllocations := g.slotAllocations.eraseBegin } h a)) :
    Fails P (useGrant cfg rlc sfn d g h) := by
  refine fails_ite (fun hlive => ?_) fun _ => fails_ok _
  split
  next hnil => exact fails_error (hempty hlive hnil)
  next a rest helems =>
    exact fails_ite (fun hnow => consumeSlot_fails hP (hnew a rest hlive helems hnow))
      fun _ => fails_ok _

end SlotUse

theorem transmissionPhase_fails {W : Type} {P : Fault → Prop} {cfg : UeMacConfig} {env : SlotEnv W}
    {sfn : Nat} {s : UeMac}
    (h : ∀ before d g after, (env.order s.grantInfo).1 = before ++ (d, g) :: after → ∀ l st,
      sweep (visit (useEntry cfg sfn env.rlc)) before (s.harq, []) = .ok (l, st) →
      Fails P (useGrant cfg env.rlc sfn d g st.1)) :
    Fails P (transmissionPhase cfg env sfn s) := by
  refine fails_bind (fails_sweepTable (fails_sweep ?_)) fun _ _ => fails_ok _
  intro before e after hsplit l st hbefore
  refine fails_bind (fails_bind ?_ fun _ _ => fails_ok _) fun _ _ => fails_ok _
  exact h before e.1 e.2 after hsplit l st hbefore

end SidelinkORe
