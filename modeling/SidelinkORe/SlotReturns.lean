import SidelinkORe.SciProjection
import SidelinkORe.SlotFaults

namespace SidelinkORe

open NrSlUeMacHarq

section Harq

variable {h : NrSlUeMacHarq} {d id : Nat}

theorem assign_returns (sound : h.Sound) (hsize : h.nrSlHarqPktBuffer.length < 256)
    (hleft : h.nrSlHarqIdBuffer ≠ []) (d : Nat) :
    ∃ id h', h.assignNrSlHarqProcessId d = .ok (id, h') ∧ id < 255 ∧
      h'.nrSlHarqIdBuffer.length + 1 = h.nrSlHarqIdBuffer.length := by
  have hlt := available_lt sound hsize
  have hpos := List.length_pos_iff.mpr hleft
  have hsome : h.getNumAvailableHarqIds ≠ 0 := by
    unfold getNumAvailableHarqIds
    omega
  cases hbuffer : h.nrSlHarqIdBuffer with
  | nil => exact absurd hbuffer hleft
  | cons id rest =>
    have hfree := (sound.available id).mp (hbuffer ▸ List.mem_cons_self)
    have hid := (List.getElem?_eq_some_iff.mp hfree).1
    refine ⟨id, { h.setProcess id { dstL2Id := some d } with nrSlHarqIdBuffer := rest }, ?_, ?_, rfl⟩
    · refine bind_ok_iff.mpr ⟨(), require_ok_iff.mpr hsome, ?_⟩
      rw [hbuffer]
      exact bind_ok_iff.mpr ⟨{}, orFault_ok_iff.mpr hfree, rfl⟩
    · omega

theorem addPacket_returns (hown : h.Owned d id { dstL2Id := some d }) (lcId : Nat) :
    ∃ h', h.addPacket d lcId id = .ok h' :=
  ⟨_, bind_ok_iff.mpr ⟨_, orFault_ok_iff.mpr hown.1, bind_ok_iff.mpr ⟨(), require_ok_iff.mpr rfl,
    bind_ok_iff.mpr ⟨(), require_ok_iff.mpr rfl, rfl⟩⟩⟩⟩

theorem recvFeedback_returns (sound : h.Sound) {p : HarqProcess} (hown : h.Owned d id p)
    (asserts : Bool) : ∃ h', h.recvNrSlHarqFeedback asserts d id = .ok h' := by
  have htaken : id ∉ h.nrSlHarqIdBuffer := fun hin => available_not_owned sound hin ⟨p, hown⟩
  exact ⟨_, bind_ok_iff.mpr ⟨_, orFault_ok_iff.mpr hown.1, bind_ok_iff.mpr ⟨(),
    require_ok_iff.mpr hown.2, bind_ok_iff.mpr ⟨(), require_ok_iff.mpr fun _ => htaken, rfl⟩⟩⟩⟩

end Harq

section Transmit

variable {cfg : UeMacConfig} {rlc : Nat → Nat → Bool} {d : Nat} {g : NrSlGrantInfo}
  {h : NrSlUeMacHarq} {a : NrSlSlotAlloc}

/-- A known logical channel is served when a HARQ id is left; it takes one. -/
theorem notifyTxOpportunity_returns {st : NrSlUeMacHarq × Nat × Bool} {lc : SlRlcPduInfo}
    (hlc : (lc.lcid, d) ∈ cfg.nrSlLcInfoMap) (sound : st.1.Sound)
    (hsize : st.1.nrSlHarqPktBuffer.length < 256) (hleft : st.1.nrSlHarqIdBuffer ≠ []) :
    ∃ st', notifyTxOpportunity cfg rlc d st lc = .ok st' ∧
      st'.1.nrSlHarqIdBuffer.length + 1 = st.1.nrSlHarqIdBuffer.length := by
  obtain ⟨id, h₁, hassign, hid, hcount⟩ := assign_returns sound hsize hleft d
  have hown := (assign_sound sound hassign).2.1
  obtain ⟨h₂, hadd⟩ := addPacket_returns hown lc.lcid
  obtain ⟨_, _, hbuffer, _⟩ := addPacket_ok hadd
  have hunset : id ≠ 255 := by omega
  by_cases hrlc : rlc d lc.lcid = true
  · refine ⟨(h₂, id, true), ?_, by rw [hbuffer]; exact hcount⟩
    refine bind_ok_iff.mpr ⟨(), require_ok_iff.mpr hlc, bind_ok_iff.mpr ⟨_, hassign,
      bind_ok_iff.mpr ⟨(), require_ok_iff.mpr fun _ => hunset, ?_⟩⟩⟩
    rw [if_pos hrlc]
    exact bind_ok_iff.mpr ⟨h₂, hadd, rfl⟩
  · refine ⟨(h₁, id, st.2.2), ?_, hcount⟩
    refine bind_ok_iff.mpr ⟨(), require_ok_iff.mpr hlc, bind_ok_iff.mpr ⟨_, hassign,
      bind_ok_iff.mpr ⟨(), require_ok_iff.mpr fun _ => hunset, ?_⟩⟩⟩
    rw [if_neg hrlc]
    rfl

theorem notifyAll_returns {l : List SlRlcPduInfo} {st : NrSlUeMacHarq × Nat × Bool}
    (hlc : ∀ lc ∈ l, (lc.lcid, d) ∈ cfg.nrSlLcInfoMap) (sound : st.1.Sound)
    (hsize : st.1.nrSlHarqPktBuffer.length < 256) (hleft : l.length ≤ st.1.nrSlHarqIdBuffer.length) :
    ∃ st', l.foldlM (notifyTxOpportunity cfg rlc d) st = .ok st' := by
  induction l generalizing st with
  | nil => exact ⟨st, rfl⟩
  | cons lc l ih =>
    rw [List.length_cons] at hleft
    have hne : st.1.nrSlHarqIdBuffer ≠ [] := List.length_pos_iff.mp (by omega)
    obtain ⟨st₁, hst₁, hcount⟩ := @notifyTxOpportunity_returns cfg rlc d st lc
      (hlc lc List.mem_cons_self) sound hsize hne
    have hconf := (notifyTxOpportunity_ok hst₁).1
    obtain ⟨st', hst'⟩ := ih (fun lc' hin => hlc lc' (List.mem_cons_of_mem lc hin))
      (hconf.sound sound) (by rw [hconf.size]; exact hsize) (by omega)
    exact ⟨st', foldlM_cons_ok_iff.mpr ⟨st₁, hst₁, hst'⟩⟩

theorem transmitNewData_returns (hlc : ∀ lc ∈ a.slRlcPduInfo, (lc.lcid, a.dstL2Id) ∈ cfg.nrSlLcInfoMap)
    (sound : h.Sound) (hsize : h.nrSlHarqPktBuffer.length < 256)
    (hleft : a.slRlcPduInfo.length ≤ h.nrSlHarqIdBuffer.length) :
    ∃ r, transmitNewData cfg rlc g h a = .ok r := by
  obtain ⟨st', hst'⟩ := @notifyAll_returns cfg rlc a.dstL2Id a.slRlcPduInfo
    (h, g.nrSlHarqId, false) hlc sound hsize hleft
  exact ⟨_, bind_ok_iff.mpr ⟨st', hst', rfl⟩⟩

theorem retransmit_returns {p : HarqProcess} (hown : h.Owned a.dstL2Id g.nrSlHarqId p)
    (hblind : cfg.enableBlindReTx = true) : ∃ r, retransmit cfg g h a = .ok r := by
  have hburst : h.getPacketBurst a.dstL2Id g.nrSlHarqId = .ok p.pktBurst :=
    bind_ok_iff.mpr ⟨p, orFault_ok_iff.mpr hown.1,
      bind_ok_iff.mpr ⟨(), require_ok_iff.mpr hown.2, rfl⟩⟩
  exact ⟨_, bind_ok_iff.mpr ⟨_, hburst, bind_ok_iff.mpr ⟨(), require_ok_iff.mpr hblind, rfl⟩⟩⟩

theorem closePeriod_returns (sound : h.Sound) {p : HarqProcess}
    (hown : h.Owned a.dstL2Id g.nrSlHarqId p) : ∃ r, closePeriod cfg g h a = .ok r := by
  unfold closePeriod
  split
  next =>
    obtain ⟨h', hrecv⟩ := recvFeedback_returns sound hown cfg.assertsEnabled
    exact ⟨_, bind_ok_iff.mpr ⟨h', hrecv, rfl⟩⟩
  next => exact ⟨_, rfl⟩

end Transmit

section Announcement

variable {cfg : UeMacConfig} {a : NrSlSlotAlloc} {rest next : List NrSlSlotAlloc}

/-- What the SCI 1-A of an allocation needs: set fields, and the allocations that it announces among
those that come next, less than 256 slots away. -/
structure Announces (cfg : UeMacConfig) (a : NrSlSlotAlloc) (next : List NrSlSlotAlloc) : Prop where
  fields : MandatorySet cfg a
  indicated : a.slotNumInd ≤ a.maxNumPerReserve
  followed : a.slotNumInd ≤ next.length + 1
  near : ∀ (k : Nat) (b : NrSlSlotAlloc), k + 1 < a.slotNumInd → next[k]? = some b → b.sfn < a.sfn + 256

/-- An allocation that announces no other one needs no other one. -/
theorem announces_alone (fields : MandatorySet cfg a) (h : a.slotNumInd ≤ 1) :
    Announces cfg a next where
  fields := fields
  indicated := by
    have hreserve := fields.reserve
    omega
  followed := h.trans (Nat.le_add_left 1 _)
  near := fun k b hk => by omega

/-- An announcement within a period is made in the later periods too. -/
theorem Announces.later {s : Nat} (h : Announces cfg a rest)
    (hnext : ∀ (k : Nat) b, rest[k]? = some b → next[k]? = some (shiftAlloc s b)) :
    Announces cfg (shiftAlloc s a) next where
  fields := ⟨h.fields.priority, h.fields.mcs, h.fields.period, h.fields.totalSubCh, h.fields.start,
    h.fields.length, h.fields.reserve⟩
  indicated := h.indicated
  followed := by
    have hlength : rest.length ≤ next.length := by
      by_contra hshort
      have hlast := List.getElem?_eq_getElem (show next.length < rest.length by omega)
      have hmore := hnext _ _ hlast
      rw [List.getElem?_eq_none le_rfl] at hmore
      cases hmore
    exact h.followed.trans (by omega)
  near := by
    intro k b hk hb
    change k + 1 < a.slotNumInd at hk
    have hfollowed := h.followed
    have hget := List.getElem?_eq_getElem (show k < rest.length by omega)
    obtain rfl := Option.some.inj (hb.symm.trans (hnext k _ hget))
    have hnear := h.near k _ hk hget
    change _ + s < a.sfn + s + 256
    omega

theorem buildSciF1a_returns (h : Announces cfg a next)
    (hsorted : (a :: next).Pairwise fun x y => x.sfn < y.sfn) (counter : Int) :
    ∃ sci, buildSciF1a cfg a next counter = .ok sci := by
  have hreserve := h.fields.reserve
  have hindicated := h.indicated
  have hfollowed := h.followed
  obtain ⟨hlater, hrest⟩ := List.pairwise_cons.mp hsorted
  have hannounced : ∃ announced, announceRetransmissions cfg.assertsEnabled a next
      (sciF1aOfAlloc cfg a) = .ok announced := by
    by_cases hnone : a.slotNumInd ≤ 1
    · exact ⟨_, (announce_none hnone).mpr rfl⟩
    · have hy := List.getElem?_eq_getElem (show 0 < next.length by omega)
      by_cases hone : a.slotNumInd = 2
      · exact ⟨_, (announce_one h.fields hone (by omega)).mpr ⟨_, hy, rfl⟩⟩
      · have hthree : a.slotNumInd = 3 := by omega
        have hz := List.getElem?_eq_getElem (show 1 < next.length by omega)
        refine ⟨_, (announce_two hthree (by omega)).mpr ⟨_, _, hy, hz, fun _ => ?_, rfl⟩⟩
        -- both gaps fit into a byte, so the cast keeps their order
        have hnear := h.near 1 _ (by omega) hz
        have hfirst := hlater _ (List.mem_of_getElem? hy)
        have hrise := List.pairwise_iff_getElem.mp hrest 0 1 (by omega) (by omega) (by omega)
        unfold gapByte subU64
        omega
  obtain ⟨announced, hann⟩ := hannounced
  exact ⟨_, (buildSciF1a_ok_iff h.fields).mpr ⟨announced, hann, rfl⟩⟩

/-- An allocation is used up without a fault once its data, its SCI 1-A and the end of its period
are. -/
theorem consumeSlot_returns {rlc : Nat → Nat → Bool} {d : Nat} {g g₁ : NrSlGrantInfo}
    {h h₁ : NrSlUeMacHarq} {txed : Bool} (htransmit : transmit cfg rlc g h a = .ok (g₁, h₁, txed))
    (hannounces : a.txSci1A = true → Announces cfg a g₁.slotAllocations.elems)
    (hsorted : (a :: g₁.slotAllocations.elems).Pairwise fun x y => x.sfn < y.sfn)
    (hclose : ∃ r, closePeriod cfg g₁ h₁ a = .ok r) : ∃ r, consumeSlot cfg rlc d g a h = .ok r := by
  have hsci : ∃ sci, sciF1aOf cfg g₁ a = .ok sci := by
    unfold sciF1aOf
    split
    next hyes =>
      obtain ⟨sci, hbuild⟩ := buildSciF1a_returns (hannounces hyes) hsorted g₁.slResoReselCounter
      exact ⟨_, bind_ok_iff.mpr ⟨sci, hbuild, rfl⟩⟩
    next => exact ⟨none, rfl⟩
  obtain ⟨sci, hsci⟩ := hsci
  obtain ⟨⟨g₂, h₂⟩, hclose⟩ := hclose
  cases txed with
  | false => exact ⟨(g₁, h₁, none), bind_ok_iff.mpr ⟨_, htransmit, rfl⟩⟩
  | true =>
    exact ⟨(g₂, h₂, some ⟨d, a, g₁.slResoReselCounter, sci⟩), bind_ok_iff.mpr ⟨_, htransmit,
      bind_ok_iff.mpr ⟨sci, hsci, bind_ok_iff.mpr ⟨_, hclose, rfl⟩⟩⟩⟩

end Announcement

end SidelinkORe
