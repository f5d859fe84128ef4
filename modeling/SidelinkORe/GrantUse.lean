import SidelinkORe.Grant
import SidelinkORe.Harq
import SidelinkORe.SciF1a
import Mathlib

namespace SidelinkORe

section SciContent

/-- The positions at which an iterator stops that moves on by `i` in round `i`. -/
def advancing : Nat → Nat → Nat → List Nat
  | 0, _, _ => []
  | rounds + 1, i, pos => (pos + i) :: advancing rounds (i + 1) (pos + i)

/-- The gaps to the next allocations of the grant, cast to eight bits. -/
def computeGaps (sfn : Nat) (next : List NrSlSlotAlloc) (slotNumInd : Nat) :
    Except Fault (List Nat) :=
  (advancing (slotNumInd - 1) 0 0).mapM fun pos => do
    let it ← orFault Fault.gapIteratorPastEnd next[pos]?
    pure (subU64 it.sfn sfn % 256)

def getStartSbChOfReTx (next : List NrSlSlotAlloc) (slotNumInd : Nat) : Except Fault (List Nat) :=
  (advancing (slotNumInd - 1) 0 0).mapM fun pos => do
    let it ← orFault Fault.gapIteratorPastEnd next[pos]?
    pure (it.slPsschSubChStart % 256)

def setRetransmissions (assertsEnabled : Bool) (sciF1a : NrSlSciF1aHeader) (gaps sbChIndex : List Nat) :
    Except Fault NrSlSciF1aHeader := do
  let gap1 ← orFault Fault.gapIteratorPastEnd gaps[0]?
  let sbCh1 ← orFault Fault.gapIteratorPastEnd sbChIndex[0]?
  require (assertsEnabled = true →
    sciF1a.slMaxNumPerReserve = 2 ∨ sciF1a.slMaxNumPerReserve = 3) Fault.sciGapNotAllowed
  let sciF1a := { sciF1a with gapReTx1 := .ofNat gap1, indexStartSbChReTx1 := .ofNat sbCh1 }
  if 1 < gaps.length then do
    let gap2 ← orFault Fault.gapIteratorPastEnd gaps[1]?
    let sbCh2 ← orFault Fault.gapIteratorPastEnd sbChIndex[1]?
    require (assertsEnabled = true → sciF1a.slMaxNumPerReserve = 3) Fault.sciGapNotAllowed
    require (assertsEnabled = true → gap2 ≠ gap1) Fault.sciEqualGaps
    require (assertsEnabled = true → gap1 < gap2) Fault.gapsNotIncreasing
    pure { sciF1a with gapReTx2 := .ofNat gap2, indexStartSbChReTx2 := .ofNat sbCh2 }
  else pure sciF1a

/-- The fields of the SCI 1-A that come from the allocation alone. -/
def sciF1aOfAlloc (cfg : UeMacConfig) (currentGrant : NrSlSlotAlloc) : NrSlSciF1aHeader where
  priority := .ofNat currentGrant.priority
  mcs := .ofNat currentGrant.mcs
  slSciStage2Format := 0
  slResourceReservePeriod := .ofNat cfg.pRsvpTx
  totalSubChannels := .ofNat cfg.totalSubCh
  indexStartSubChannel := .ofNat currentGrant.slPsschSubChStart
  lengthSubChannel := .ofNat currentGrant.slPsschSubChLength
  slMaxNumPerReserve := .ofNat currentGrant.maxNumPerReserve

def announceRetransmissions (assertsEnabled : Bool) (currentGrant : NrSlSlotAlloc)
    (next : List NrSlSlotAlloc) (sciF1a : NrSlSciF1aHeader) : Except Fault NrSlSciF1aHeader :=
  if 1 < currentGrant.slotNumInd then do
    let gaps ← computeGaps currentGrant.sfn next currentGrant.slotNumInd
    let sbChIndex ← getStartSbChOfReTx next currentGrant.slotNumInd
    setRetransmissions assertsEnabled sciF1a gaps sbChIndex
  else pure sciF1a

/-- The SCI 1-A of the current allocation; `next` are the allocations left after it. -/
def buildSciF1a (cfg : UeMacConfig) (currentGrant : NrSlSlotAlloc) (next : List NrSlSlotAlloc)
    (slResoReselCounter : Int) : Except Fault NrSlSciF1aHeader := do
  let first := sciF1aOfAlloc cfg currentGrant
  require (cfg.assertsEnabled = true → first.slMaxNumPerReserve = 1 ∨
    first.slMaxNumPerReserve = 2 ∨ first.slMaxNumPerReserve = 3) Fault.sciMaxNumPerReserve
  let announced ← announceRetransmissions cfg.assertsEnabled currentGrant next first
  let sciF1a := { announced with rc := .ofInt slResoReselCounter }
  require (cfg.assertsEnabled = true → sciF1a.ensureMandConfig = true) Fault.sciMandatoryUnset
  pure sciF1a

theorem announceRetransmissions_ok {asserts : Bool} {cur : NrSlSlotAlloc} {next : List NrSlSlotAlloc}
    {h h' : NrSlSciF1aHeader} (hann : announceRetransmissions asserts cur next h = .ok h') :
    ∃ gap1 start1 gap2 start2, h' = { h with
      gapReTx1 := gap1, indexStartSbChReTx1 := start1
      gapReTx2 := gap2, indexStartSbChReTx2 := start2 } := by
  unfold announceRetransmissions at hann
  split at hann
  next =>
    obtain ⟨gaps, _, hann⟩ := bind_ok_iff.mp hann
    obtain ⟨starts, _, hann⟩ := bind_ok_iff.mp hann
    obtain ⟨_, _, hann⟩ := bind_ok_iff.mp hann
    obtain ⟨_, _, hann⟩ := bind_ok_iff.mp hann
    obtain ⟨_, _, hann⟩ := bind_ok_iff.mp hann
    dsimp only at hann
    split at hann
    next =>
      obtain ⟨_, _, hann⟩ := bind_ok_iff.mp hann
      obtain ⟨_, _, hann⟩ := bind_ok_iff.mp hann
      obtain ⟨_, _, hann⟩ := bind_ok_iff.mp hann
      obtain ⟨_, _, hann⟩ := bind_ok_iff.mp hann
      obtain ⟨_, _, hann⟩ := bind_ok_iff.mp hann
      exact ⟨_, _, _, _, (pure_ok_iff.mp hann).symm⟩
    next => exact ⟨_, _, _, _, (pure_ok_iff.mp hann).symm⟩
  next => exact ⟨_, _, _, _, (pure_ok_iff.mp hann).symm⟩

theorem buildSciF1a_rc {cfg : UeMacConfig} {cur : NrSlSlotAlloc} {next : List NrSlSlotAlloc}
    {counter : Int} {sci : NrSlSciF1aHeader} (h : buildSciF1a cfg cur next counter = .ok sci) :
    sci.rc = .ofInt counter := by
  obtain ⟨_, _, h⟩ := bind_ok_iff.mp h
  obtain ⟨_, _, h⟩ := bind_ok_iff.mp h
  obtain ⟨_, _, h⟩ := bind_ok_iff.mp h
  rw [← pure_ok_iff.mp h]

end SciContent

/-- One transmission as the traces and the SCI show it. -/
structure Transmission where
  dstL2Id : Nat
  alloc : NrSlSlotAlloc
  resoReselCounter : Int
  sciF1a : Option NrSlSciF1aHeader
  deriving DecidableEq

section UseGrant

variable (cfg : UeMacConfig) (rlc : Nat → Nat → Bool)

/-- One logical channel at a new-data slot: a HARQ id is taken before the RLC is asked; `rlc` says
whether it answers with a PDU. -/
def notifyTxOpportunity (dstL2Id : Nat) (st : NrSlUeMacHarq × Nat × Bool) (lc : SlRlcPduInfo) :
    Except Fault (NrSlUeMacHarq × Nat × Bool) := do
  require ((lc.lcid, dstL2Id) ∈ cfg.nrSlLcInfoMap) Fault.logicalChannelMissing
  let (nrSlHarqId, harq) ← st.1.assignNrSlHarqProcessId dstL2Id
  require (cfg.assertsEnabled = true → nrSlHarqId ≠ 255) Fault.harqIdUnassigned
  if rlc dstL2Id lc.lcid = true then do
    let harq ← harq.addPacket dstL2Id lc.lcid nrSlHarqId
    pure (harq, nrSlHarqId, true)
  else pure (harq, nrSlHarqId, st.2.2)

def transmitNewData (g : NrSlGrantInfo) (harq : NrSlUeMacHarq) (currentGrant : NrSlSlotAlloc) :
    Except Fault (NrSlGrantInfo × NrSlUeMacHarq × Bool) := do
  let (harq, nrSlHarqId, nrSlMacPduTxed) ← currentGrant.slRlcPduInfo.foldlM
    (notifyTxOpportunity cfg rlc currentGrant.dstL2Id) (harq, g.nrSlHarqId, false)
  pure ({ g with tbTxCounter := 1, nrSlHarqId := nrSlHarqId }, harq, nrSlMacPduTxed)

def retransmit (g : NrSlGrantInfo) (harq : NrSlUeMacHarq) (currentGrant : NrSlSlotAlloc) :
    Except Fault (NrSlGrantInfo × NrSlUeMacHarq × Bool) := do
  let pb ← harq.getPacketBurst currentGrant.dstL2Id g.nrSlHarqId
  require (cfg.enableBlindReTx = true) Fault.feedbackRetxUnsupported
  pure ({ g with tbTxCounter := (g.tbTxCounter + 1) % 256 }, harq, decide (0 < pb))

/-- After the last transmission of a period the counters go down and the HARQ id is given back. -/
def closePeriod (g : NrSlGrantInfo) (harq : NrSlUeMacHarq) (currentGrant : NrSlSlotAlloc) :
    Except Fault (NrSlGrantInfo × NrSlUeMacHarq) :=
  if g.tbTxCounter = g.nSelected then do
    let harq ← harq.recvNrSlHarqFeedback cfg.assertsEnabled currentGrant.dstL2Id g.nrSlHarqId
    pure ({ g with
      slResoReselCounter := g.slResoReselCounter - 1
      cReselCounter := (g.cReselCounter + 65535) % 65536
      tbTxCounter := if currentGrant.ndi = 0 then 0 else g.tbTxCounter }, harq)
  else pure (g, harq)

/-- New data for a new-data indication, else the packets kept by the HARQ process. -/
def transmit (g : NrSlGrantInfo) (harq : NrSlUeMacHarq) (currentGrant : NrSlSlotAlloc) :
    Except Fault (NrSlGrantInfo × NrSlUeMacHarq × Bool) :=
  if currentGrant.ndi ≠ 0 then transmitNewData cfg rlc g harq currentGrant
  else retransmit cfg g harq currentGrant

def sciF1aOf (g : NrSlGrantInfo) (currentGrant : NrSlSlotAlloc) :
    Except Fault (Option NrSlSciF1aHeader) :=
  if currentGrant.txSci1A = true then do
    let sciF1a ← buildSciF1a cfg currentGrant g.slotAllocations.elems g.slResoReselCounter
    pure (some sciF1a)
  else pure none

/-- The use of the current slot once it has been taken out of the grant. -/
def consumeSlot (dstL2Id : Nat) (g : NrSlGrantInfo) (currentGrant : NrSlSlotAlloc)
    (harq : NrSlUeMacHarq) : Except Fault (NrSlGrantInfo × NrSlUeMacHarq × Option Transmission) := do
  let (g, harq, nrSlMacPduTxed) ← transmit cfg rlc g harq currentGrant
  if nrSlMacPduTxed = true then do
    let sciF1a ← sciF1aOf cfg g currentGrant
    let sent : Transmission := ⟨dstL2Id, currentGrant, g.slResoReselCounter, sciF1a⟩
    let (g, harq) ← closePeriod cfg g harq currentGrant
    pure (g, harq, some sent)
  else pure (g, harq, none)

/-- The body of the transmission loop for one entry of `m_grantInfo`. -/
def useGrant (sfn : Nat) (dstL2Id : Nat) (g : NrSlGrantInfo) (harq : NrSlUeMacHarq) :
    Except Fault (NrSlGrantInfo × NrSlUeMacHarq × Option Transmission) :=
  if 0 ≤ g.slResoReselCounter then
    match g.slotAllocations.elems with
    | [] => .error Fault.emptySlotAllocations
    | currentGrant :: _ =>
      if currentGrant.sfn = sfn then
        consumeSlot cfg rlc dstL2Id { g with slotAllocations := g.slotAllocations.eraseBegin }
          currentGrant harq
      else pure (g, harq, none)
  else pure (g, harq, none)

section Outcome

open NrSlUeMacHarq

variable {cfg rlc} {g g' : NrSlGrantInfo} {h h' : NrSlUeMacHarq} {a : NrSlSlotAlloc} {txed : Bool}
  {d : Nat} {sent : Option Transmission}

theorem notifyTxOpportunity_ok {s s' : NrSlUeMacHarq × Nat × Bool} {lc : SlRlcPduInfo}
    (h1 : notifyTxOpportunity cfg rlc d s lc = .ok s') :
    Confined d s.1 s'.1 ∧ (∀ i, s'.1.Owns d i ↔ i = s'.2.1 ∨ s.1.Owns d i) ∧
      (s.2.2 = true → s'.2.2 = true) ∧
      (rlc d lc.lcid = true → s'.2.2 = true ∧
        (s.1.Sound → ∃ p, s'.1.Owned d s'.2.1 p ∧ 0 < p.pktBurst)) := by
  obtain ⟨_, _, h1⟩ := bind_ok_iff.mp h1
  obtain ⟨⟨nrSlHarqId, harq⟩, hassign, h1⟩ := bind_ok_iff.mp h1
  obtain ⟨_, _, h1⟩ := bind_ok_iff.mp h1
  have hconfined := assign_confined hassign
  have howns := assign_owns hassign
  split at h1
  next =>
    obtain ⟨harq', hadd, h1⟩ := bind_ok_iff.mp h1
    obtain rfl := pure_ok_iff.mp h1
    refine ⟨confined_trans hconfined (addPacket_confined hadd), fun i => ?_, fun _ => rfl,
      fun _ => ⟨rfl, fun hsound => ?_⟩⟩
    · rw [addPacket_owns hadd i]
      exact howns i
    · exact (addPacket_sound (hconfined.sound hsound) hadd).2.1
  next hrlc =>
    obtain rfl := pure_ok_iff.mp h1
    exact ⟨hconfined, howns, id, fun hyes => absurd hyes hrlc⟩

theorem notifyAll_ok {l : List SlRlcPduInfo} {s s' : NrSlUeMacHarq × Nat × Bool}
    (h1 : l.foldlM (notifyTxOpportunity cfg rlc d) s = .ok s') :
    Confined d s.1 s'.1 ∧ (s.2.2 = true → s'.2.2 = true) ∧
      ((∃ lc ∈ l, rlc d lc.lcid = true) → s'.2.2 = true) ∧
      (l ≠ [] → (∀ lc ∈ l, rlc d lc.lcid = true) → s.1.Sound →
        ∃ p, s'.1.Owned d s'.2.1 p ∧ 0 < p.pktBurst) := by
  induction l generalizing s with
  | nil =>
    obtain rfl := pure_ok_iff.mp h1
    exact ⟨confined_refl d _, id, by simp, fun hne => absurd rfl hne⟩
  | cons lc l ih =>
    obtain ⟨s₁, hs₁, hl⟩ := foldlM_cons_ok_iff.mp h1
    obtain ⟨hconf₁, _, hmono₁, hyes₁⟩ := notifyTxOpportunity_ok hs₁
    obtain ⟨hconf, hmono, hsome, hlast⟩ := ih hl
    refine ⟨confined_trans hconf₁ hconf, fun ht => hmono (hmono₁ ht), ?_, fun _ hall hsound => ?_⟩
    · rintro ⟨lc', hmem, hyes⟩
      rcases List.mem_cons.mp hmem with rfl | hin
      · exact hmono (hyes₁ hyes).1
      · exact hsome ⟨lc', hin, hyes⟩
    · by_cases hnil : l = []
      · subst hnil
        obtain rfl := pure_ok_iff.mp hl
        exact (hyes₁ (hall lc List.mem_cons_self)).2 hsound
      · exact hlast hnil (fun lc' hin => hall lc' (List.mem_cons_of_mem lc hin))
          (hconf₁.sound hsound)

theorem transmitNewData_ok (h1 : transmitNewData cfg rlc g h a = .ok (g', h', txed)) :
    g' = { g with tbTxCounter := 1, nrSlHarqId := g'.nrSlHarqId } ∧ Confined a.dstL2Id h h' ∧
      ((∃ lc ∈ a.slRlcPduInfo, rlc a.dstL2Id lc.lcid = true) → txed = true) ∧
      (a.slRlcPduInfo ≠ [] → (∀ lc ∈ a.slRlcPduInfo, rlc a.dstL2Id lc.lcid = true) → h.Sound →
        ∃ p, h'.Owned a.dstL2Id g'.nrSlHarqId p ∧ 0 < p.pktBurst) ∧
      (∀ lc, a.slRlcPduInfo = [lc] →
        ∀ i, h'.Owns a.dstL2Id i ↔ i = g'.nrSlHarqId ∨ h.Owns a.dstL2Id i) := by
  obtain ⟨⟨harq, nrSlHarqId, pduTxed⟩, hall, h1⟩ := bind_ok_iff.mp h1
  obtain ⟨rfl, hrest⟩ := Prod.mk.inj (pure_ok_iff.mp h1)
  obtain ⟨rfl, rfl⟩ := Prod.mk.inj hrest
  obtain ⟨hconf, _, hsome, hlast⟩ := notifyAll_ok hall
  refine ⟨rfl, hconf, hsome, hlast, fun lc hlc i => ?_⟩
  rw [hlc] at hall
  obtain ⟨s₁, hs₁, hnil⟩ := foldlM_cons_ok_iff.mp hall
  obtain rfl := pure_ok_iff.mp hnil
  exact (notifyTxOpportunity_ok hs₁).2.1 i

theorem retransmit_ok (h1 : retransmit cfg g h a = .ok (g', h', txed)) :
    g' = { g with tbTxCounter := (g.tbTxCounter + 1) % 256 } ∧ h' = h ∧
      ∃ p, h.Owned a.dstL2Id g.nrSlHarqId p ∧ (txed = true ↔ 0 < p.pktBurst) := by
  obtain ⟨pb, hpb, h1⟩ := bind_ok_iff.mp h1
  obtain ⟨_, _, h1⟩ := bind_ok_iff.mp h1
  obtain ⟨rfl, hrest⟩ := Prod.mk.inj (pure_ok_iff.mp h1)
  obtain ⟨rfl, rfl⟩ := Prod.mk.inj hrest
  obtain ⟨p, hown, rfl⟩ := getPacketBurst_ok hpb
  exact ⟨rfl, rfl, p, hown, by simp⟩

/-- Only the last transmission of a period counts down, and it gives the HARQ id back. -/
theorem closePeriod_ok (h1 : closePeriod cfg g h a = .ok (g', h')) :
    (g.tbTxCounter ≠ g.nSelected ∧ g' = g ∧ h' = h) ∨
    (g.tbTxCounter = g.nSelected ∧
      g' = { g with
        slResoReselCounter := g.slResoReselCounter - 1
        cReselCounter := (g.cReselCounter + 65535) % 65536
        tbTxCounter := if a.ndi = 0 then 0 else g.tbTxCounter } ∧
      Confined a.dstL2Id h h' ∧
      ∀ i, h'.Owns a.dstL2Id i ↔ i ≠ g.nrSlHarqId ∧ h.Owns a.dstL2Id i) := by
  unfold closePeriod at h1
  split at h1
  next hlast =>
    obtain ⟨harq, hrecv, h1⟩ := bind_ok_iff.mp h1
    obtain ⟨rfl, rfl⟩ := Prod.mk.inj (pure_ok_iff.mp h1)
    exact Or.inr ⟨hlast, rfl, recvFeedback_confined hrecv, recvFeedback_owns hrecv⟩
  next hnot =>
    obtain ⟨rfl, rfl⟩ := Prod.mk.inj (pure_ok_iff.mp h1)
    exact Or.inl ⟨hnot, rfl, rfl⟩

theorem transmit_ok (h1 : transmit cfg rlc g h a = .ok (g', h', txed)) :
    Confined a.dstL2Id h h' ∧
      g' = { g with tbTxCounter := g'.tbTxCounter, nrSlHarqId := g'.nrSlHarqId } := by
  unfold transmit at h1
  split at h1
  next =>
    obtain ⟨hg, hconf, _⟩ := transmitNewData_ok h1
    rw [hg]
    exact ⟨hconf, rfl⟩
  next =>
    obtain ⟨hg, rfl, _⟩ := retransmit_ok h1
    rw [hg]
    exact ⟨confined_refl _ _, rfl⟩

theorem sciF1aOf_ok {sci : Option NrSlSciF1aHeader} (h1 : sciF1aOf cfg g a = .ok sci) :
    (a.txSci1A = false ∧ sci = none) ∨ (a.txSci1A = true ∧ ∃ header, sci = some header ∧
      buildSciF1a cfg a g.slotAllocations.elems g.slResoReselCounter = .ok header) := by
  unfold sciF1aOf at h1
  split at h1
  next hcarries =>
    obtain ⟨header, hbuild, h1⟩ := bind_ok_iff.mp h1
    exact Or.inr ⟨hcarries, header, (pure_ok_iff.mp h1).symm, hbuild⟩
  next hcarries => exact Or.inl ⟨by simpa using hcarries, (pure_ok_iff.mp h1).symm⟩

/-- A slot is wasted when no PDU was sent; otherwise the transmission is made with the counter of
the grant, and the period may be closed. -/
theorem consumeSlot_ok (h1 : consumeSlot cfg rlc d g a h = .ok (g', h', sent)) :
    ∃ g₁ h₁ txed, transmit cfg rlc g h a = .ok (g₁, h₁, txed) ∧
      ((txed = false ∧ g' = g₁ ∧ h' = h₁ ∧ sent = none) ∨
       (txed = true ∧ closePeriod cfg g₁ h₁ a = .ok (g', h') ∧ ∃ sci,
          sciF1aOf cfg g₁ a = .ok sci ∧ sent = some ⟨d, a, g₁.slResoReselCounter, sci⟩)) := by
  obtain ⟨⟨g₁, h₁, txed⟩, hattempt, h1⟩ := bind_ok_iff.mp h1
  refine ⟨g₁, h₁, txed, hattempt, ?_⟩
  dsimp only at h1
  split at h1
  next htx =>
    obtain ⟨sci, hsci, h1⟩ := bind_ok_iff.mp h1
    obtain ⟨⟨g₂, h₂⟩, hclose, h1⟩ := bind_ok_iff.mp h1
    cases pure_ok_iff.mp h1
    exact Or.inr ⟨htx, hclose, sci, hsci, rfl⟩
  next htx =>
    cases pure_ok_iff.mp h1
    exact Or.inl ⟨by simpa using htx, rfl, rfl, rfl⟩

/-- An entry of the grant table is passed over or its first allocation is used up. -/
theorem useGrant_ok {sfn : Nat} (h1 : useGrant cfg rlc sfn d g h = .ok (g', h', sent)) :
    (g' = g ∧ h' = h ∧ sent = none ∧ (g.slResoReselCounter < 0 ∨
      ∃ a rest, g.slotAllocations.elems = a :: rest ∧ a.sfn ≠ sfn)) ∨
    (0 ≤ g.slResoReselCounter ∧ ∃ a rest, g.slotAllocations.elems = a :: rest ∧ a.sfn = sfn ∧
      consumeSlot cfg rlc d { g with slotAllocations := g.slotAllocations.eraseBegin } a h =
        .ok (g', h', sent)) := by
  unfold useGrant at h1
  split at h1
  next hlive =>
    split at h1
    next => cases h1
    next a rest helems =>
      split at h1
      next hnow => exact Or.inr ⟨hlive, a, rest, helems, hnow, h1⟩
      next hlater =>
        cases pure_ok_iff.mp h1
        exact Or.inl ⟨rfl, rfl, rfl, Or.inr ⟨a, rest, helems, hlater⟩⟩
  next hdead =>
    cases pure_ok_iff.mp h1
    exact Or.inl ⟨rfl, rfl, rfl, Or.inl (by omega)⟩

theorem consumeSlot_grant (h1 : consumeSlot cfg rlc d g a h = .ok (g', h', sent)) :
    g'.slotAllocations = g.slotAllocations ∧ g'.nSelected = g.nSelected ∧
      g'.prevSlResoReselCounter = g.prevSlResoReselCounter := by
  obtain ⟨g₁, h₁, txed, htransmit, hcases⟩ := consumeSlot_ok h1
  have hg₁ := (transmit_ok htransmit).2
  have hkeep : g₁.slotAllocations = g.slotAllocations ∧ g₁.nSelected = g.nSelected ∧
      g₁.prevSlResoReselCounter = g.prevSlResoReselCounter := by
    rw [hg₁]
    exact ⟨rfl, rfl, rfl⟩
  rcases hcases with ⟨_, rfl, _⟩ | ⟨_, hclose, _⟩
  · exact hkeep
  · rcases closePeriod_ok hclose with ⟨_, rfl, _⟩ | ⟨_, hg', _⟩
    · exact hkeep
    · rw [hg']
      exact hkeep

theorem consumeSlot_confined (h1 : consumeSlot cfg rlc d g a h = .ok (g', h', sent)) :
    Confined a.dstL2Id h h' := by
  obtain ⟨g₁, h₁, txed, htransmit, hcases⟩ := consumeSlot_ok h1
  have hconf := (transmit_ok htransmit).1
  rcases hcases with ⟨_, _, rfl, _⟩ | ⟨_, hclose, _⟩
  · exact hconf
  · rcases closePeriod_ok hclose with ⟨_, _, rfl⟩ | ⟨_, _, hconf', _⟩
    · exact hconf
    · exact confined_trans hconf hconf'

theorem useGrant_slots {sfn : Nat} (h1 : useGrant cfg rlc sfn d g h = .ok (g', h', sent)) :
    g'.slotAllocations.elems <:+ g.slotAllocations.elems := by
  rcases useGrant_ok h1 with ⟨rfl, _⟩ | ⟨_, a, rest, _, _, hconsume⟩
  · exact List.suffix_rfl
  · rw [(consumeSlot_grant hconsume).1]
    exact List.tail_suffix _

/-- Using a grant whose allocations are the destination's own touches no other destination. -/
theorem useGrant_confined {sfn : Nat} (hdst : ∀ x ∈ g.slotAllocations.elems, x.dstL2Id = d)
    (h1 : useGrant cfg rlc sfn d g h = .ok (g', h', sent)) :
    Confined d h h' ∧ ∀ t ∈ sent, t.dstL2Id = d := by
  rcases useGrant_ok h1 with ⟨rfl, rfl, rfl, _⟩ | ⟨_, a, rest, helems, _, hconsume⟩
  · exact ⟨confined_refl d _, by simp⟩
  · have ha : a.dstL2Id = d := hdst a (helems ▸ List.mem_cons_self)
    refine ⟨ha ▸ consumeSlot_confined hconsume, fun t ht => ?_⟩
    obtain ⟨_, _, _, _, ⟨_, _, _, hsent⟩ | ⟨_, _, _, _, hsent⟩⟩ := consumeSlot_ok hconsume
    · rw [hsent] at ht
      cases ht
    · rw [hsent] at ht
      cases ht
      rfl

end Outcome

end UseGrant

end SidelinkORe
