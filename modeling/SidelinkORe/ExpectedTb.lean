import SidelinkORe.FrontQueue
import SidelinkORe.SciProjection
import SidelinkORe.Table

namespace SidelinkORe

/-- Where the PHY of a receiving UE stops: a second block of one RNTI in one slot is an abort. -/
inductive PhyFault where
  | twoTbsOfOneRnti
  deriving DecidableEq

structure NrSlMacPduTag where
  rnti : Nat
  dstL2Id : Nat
  tbSize : Nat
  symStart : Nat
  numSym : Nat
  sfn : Nat
  deriving DecidableEq

structure SlRxGrantInfo where
  rnti : Nat
  dstId : Nat
  tbSize : Nat
  mcs : Nat
  rbBitmap : List Nat
  symStart : Nat
  numSym : Nat
  sfn : Nat
  deriving DecidableEq

structure SlExpectedTb where
  dstId : Nat
  tbSize : Nat
  mcs : Nat
  rbBitmap : List Nat
  symStart : Nat
  numSym : Nat
  sfn : Nat
  deriving DecidableEq

/-- A PSCCH message with its RSRP. -/
structure PscchPdu where
  sciF1a : NrSlSciF1aHeader
  tag : NrSlMacPduTag
  rsrpDbm : ℚ
  corrupt : Bool

structure SlRxConfig where
  sbChSize : Nat
  slRxDestinations : List Nat

/-- The PHY state, the part of the spectrum PHY that holds the expected blocks included. -/
structure NrUePhy where
  currentSlot : Nat
  slRxGrants : List SlRxGrantInfo
  slTransportBlocks : Table Nat SlExpectedTb

inductive PhyEvent where
  | pscchReceived (pdu : PscchPdu)
  | startSlot

section Receiving

variable (cfg : SlRxConfig)

def rbBitMap (indexStart lengthSubChannel : UInt8) : List Nat :=
  let rbStart := indexStart.toNat * cfg.sbChSize % 65536
  let lastRbInPlusOne := (lengthSubChannel.toNat * cfg.sbChSize + rbStart) % 65536
  List.range' rbStart (lastRbInPlusOne - rbStart)

/-- The reception `gap` slots after the message, in the subchannels from `indexStart` on. -/
def receptionAt (sciF1a : NrSlSciF1aHeader) (tag : NrSlMacPduTag) (indexStart : UInt8) (gap : Nat) :
    SlRxGrantInfo where
  rnti := tag.rnti
  dstId := tag.dstL2Id
  tbSize := tag.tbSize
  mcs := sciF1a.mcs.toNat
  rbBitmap := rbBitMap cfg indexStart sciF1a.lengthSubChannel
  symStart := tag.symStart
  numSym := tag.numSym
  sfn := tag.sfn + gap

/-- What `SaveFutureSlRxGrants` adds to its list; a gap of 255 is unset. -/
def futureSlRxGrants (sciF1a : NrSlSciF1aHeader) (tag : NrSlMacPduTag) : List SlRxGrantInfo :=
  (if sciF1a.gapReTx1 ≠ 0xFF then
    [receptionAt cfg sciF1a tag sciF1a.indexStartSbChReTx1 sciF1a.gapReTx1.toNat] else []) ++
  (if sciF1a.gapReTx2 ≠ 0xFF then
    [receptionAt cfg sciF1a tag sciF1a.indexStartSbChReTx2 sciF1a.gapReTx2.toNat] else [])

def addSlExpectedTb (slTransportBlocks : Table Nat SlExpectedTb) (info : SlRxGrantInfo) :
    Except PhyFault (Table Nat SlExpectedTb) := do
  require (∀ old ∈ slTransportBlocks.find? info.rnti, old.sfn ≠ info.sfn) PhyFault.twoTbsOfOneRnti
  pure (slTransportBlocks.put info.rnti ⟨info.dstId, info.tbSize, info.mcs, info.rbBitmap,
    info.symStart, info.numSym, info.sfn⟩)

/-- `PhyPscchPduReceived`, with the sensing data that it sends to the MAC. -/
def phyPscchPduReceived (phy : NrUePhy) (pdu : PscchPdu) : Except PhyFault (NrUePhy × SensingData) :=
  let sensingData :=
    sensingDataOf phy.currentSlot pdu.sciF1a pdu.rsrpDbm pdu.corrupt pdu.tag.rnti
  if pdu.corrupt = true then pure (phy, sensingData)
  else if pdu.tag.dstL2Id ∈ cfg.slRxDestinations then do
    let slTransportBlocks ← addSlExpectedTb phy.slTransportBlocks
      (receptionAt cfg pdu.sciF1a pdu.tag pdu.sciF1a.indexStartSubChannel 0)
    pure ({ phy with
      slRxGrants := phy.slRxGrants ++ futureSlRxGrants cfg pdu.sciF1a pdu.tag
      slTransportBlocks := slTransportBlocks }, sensingData)
  else pure (phy, sensingData)

/-- `SendSlExpectedTbInfo` looks at the front of the list only. -/
def sendSlExpectedTbInfo (phy : NrUePhy) (s : Nat) : Except PhyFault (NrUePhy × Option SlRxGrantInfo) :=
  match phy.slRxGrants with
  | [] => pure (phy, none)
  | expectedTbInfo :: rest =>
    if expectedTbInfo.sfn = s then do
      let slTransportBlocks ← addSlExpectedTb phy.slTransportBlocks expectedTbInfo
      pure ({ phy with slRxGrants := rest, slTransportBlocks := slTransportBlocks },
        some expectedTbInfo)
    else pure (phy, none)

/-- `StartSlot` of the slot after the current one, up to the expected blocks. -/
def startSlot (phy : NrUePhy) : Except PhyFault (NrUePhy × Option SlRxGrantInfo) :=
  let s := phy.currentSlot + 1
  sendSlExpectedTbInfo { phy with currentSlot := s, slTransportBlocks := Table.empty } s

/-- The PHY with what it has sent to the MAC and handed to the spectrum PHY. -/
structure PhyTrace where
  phy : NrUePhy
  sensed : List SensingData
  handed : List (Nat × SlRxGrantInfo)

def phyStep (x : PhyTrace) : PhyEvent → Except PhyFault PhyTrace
  | .pscchReceived pdu => do
    let (phy, sensingData) ← phyPscchPduReceived cfg x.phy pdu
    pure { x with phy := phy, sensed := x.sensed ++ [sensingData] }
  | .startSlot => do
    let (phy, expectedTbInfo) ← startSlot x.phy
    pure { x with
      phy := phy
      handed := x.handed ++ expectedTbInfo.toList.map fun info => (phy.currentSlot, info) }

/-- A PHY that starts in slot `n` with nothing to expect. -/
def runPhy (n : Nat) (events : List PhyEvent) : Except PhyFault PhyTrace :=
  events.foldlM (phyStep cfg) ⟨⟨n, [], Table.empty⟩, [], []⟩

/-- The receptions that one message announces. -/
def announced (pdu : PscchPdu) : List SlRxGrantInfo :=
  if pdu.corrupt = false ∧ pdu.tag.dstL2Id ∈ cfg.slRxDestinations then
    futureSlRxGrants cfg pdu.sciF1a pdu.tag else []

/-- The receptions that the messages announce, each with the slot in which its message came. -/
def receptions : Nat → List PhyEvent → List (Nat × SlRxGrantInfo)
  | _, [] => []
  | n, .pscchReceived pdu :: events =>
    (announced cfg pdu).map (fun info => (n, info)) ++ receptions n events
  | n, .startSlot :: events => receptions (n + 1) events

def slotStarts : List PhyEvent → Nat
  | [] => 0
  | .pscchReceived _ :: events => slotStarts events
  | .startSlot :: events => slotStarts events + 1

/-- In every slot exactly the receptions for it that were announced before its start are handed to
the spectrum PHY. -/
def HandedOnTime (n : Nat) (events : List PhyEvent) (x : PhyTrace) : Prop :=
  ∀ s, s ≤ n + slotStarts events →
    ((x.handed.filter fun e => e.1 = s).map Prod.snd).Perm
      (((receptions cfg n events).filter fun e => e.2.sfn = s ∧ e.1 < s).map Prod.snd)

/-- A reception whose slot has started was announced after receptions for earlier slots only, none
of them for a slot that had already started. -/
def AnnouncedInOrder (n : Nat) (events : List PhyEvent) : Prop :=
  ∀ (i j : Nat) e f, (receptions cfg n events)[i]? = some e → e.1 < e.2.sfn →
    e.2.sfn ≤ n + slotStarts events → j < i → (receptions cfg n events)[j]? = some f →
    f.1 < f.2.sfn ∧ f.2.sfn < e.2.sfn

def queueStep (q : FrontQueue SlRxGrantInfo) : PhyEvent → FrontQueue SlRxGrantInfo
  | .pscchReceived pdu => q.storeAll (announced cfg pdu)
  | .startSlot => q.tick SlRxGrantInfo.sfn

end Receiving

section Refinement

variable {cfg : SlRxConfig} {x x' : PhyTrace} {q : FrontQueue SlRxGrantInfo}

/-- The list of receptions is a queue under the slot clock. -/
structure Follows (x : PhyTrace) (q : FrontQueue SlRxGrantInfo) : Prop where
  now : q.now = x.phy.currentSlot
  waiting : q.waiting = x.phy.slRxGrants
  served : q.served = x.handed

theorem pscchReceived_follows {pdu : PscchPdu} (h : Follows x q)
    (hstep : phyStep cfg x (.pscchReceived pdu) = .ok x') :
    Follows x' (queueStep cfg q (.pscchReceived pdu)) := by
  obtain ⟨⟨phy, sensingData⟩, hpdu, hstep⟩ := bind_ok_iff.mp hstep
  obtain rfl := pure_ok_iff.mp hstep
  have hphy : phy.currentSlot = x.phy.currentSlot ∧
      phy.slRxGrants = x.phy.slRxGrants ++ announced cfg pdu := by
    unfold phyPscchPduReceived at hpdu
    dsimp only at hpdu
    unfold announced
    split at hpdu
    next hcorrupt =>
      cases pure_ok_iff.mp hpdu
      simp [hcorrupt]
    next hclean =>
      split at hpdu
      next hdst =>
        obtain ⟨T, _, hpdu⟩ := bind_ok_iff.mp hpdu
        cases pure_ok_iff.mp hpdu
        simp [hclean, hdst]
      next hother =>
        cases pure_ok_iff.mp hpdu
        simp [hother]
  unfold queueStep
  refine ⟨?_, ?_, ?_⟩
  · rw [FrontQueue.storeAll_now, h.now]
    exact hphy.1.symm
  · rw [FrontQueue.storeAll_waiting, h.waiting]
    exact hphy.2.symm
  · rw [FrontQueue.storeAll_served]
    exact h.served

theorem startSlot_follows (h : Follows x q) (hstep : phyStep cfg x .startSlot = .ok x') :
    Follows x' (queueStep cfg q .startSlot) := by
  obtain ⟨⟨phy, expectedTbInfo⟩, hslot, hstep⟩ := bind_ok_iff.mp hstep
  obtain rfl := pure_ok_iff.mp hstep
  unfold startSlot sendSlExpectedTbInfo at hslot
  dsimp only at hslot
  unfold queueStep FrontQueue.tick
  rw [h.waiting, h.now]
  cases hgrants : x.phy.slRxGrants with
  | nil =>
    rw [hgrants] at hslot
    cases pure_ok_iff.mp hslot
    refine ⟨rfl, rfl, ?_⟩
    simpa using h.served
  | cons info rest =>
    rw [hgrants] at hslot
    dsimp only at hslot ⊢
    by_cases hdue : info.sfn = x.phy.currentSlot + 1
    · rw [if_pos hdue] at hslot ⊢
      obtain ⟨T, _, hslot⟩ := bind_ok_iff.mp hslot
      cases pure_ok_iff.mp hslot
      refine ⟨rfl, rfl, ?_⟩
      simp [h.served]
    · rw [if_neg hdue] at hslot ⊢
      cases pure_ok_iff.mp hslot
      refine ⟨rfl, rfl, ?_⟩
      simpa using h.served

theorem phyStep_follows {e : PhyEvent} (h : Follows x q) (hstep : phyStep cfg x e = .ok x') :
    Follows x' (queueStep cfg q e) := by
  cases e with
  | pscchReceived pdu => exact pscchReceived_follows h hstep
  | startSlot => exact startSlot_follows h hstep

theorem runPhy_follows {events : List PhyEvent} (h : Follows x q)
    (hrun : events.foldlM (phyStep cfg) x = .ok x') :
    Follows x' (events.foldl (queueStep cfg) q) := by
  induction events generalizing x q with
  | nil =>
    obtain rfl := pure_ok_iff.mp hrun
    exact h
  | cons e events ih =>
    obtain ⟨x₁, hstep, hrest⟩ := foldlM_cons_ok_iff.mp hrun
    exact ih (phyStep_follows h hstep) hrest

theorem queue_history (events : List PhyEvent) (q : FrontQueue SlRxGrantInfo) :
    (events.foldl (queueStep cfg) q).now = q.now + slotStarts events ∧
      (events.foldl (queueStep cfg) q).stored = q.stored ++ receptions cfg q.now events := by
  induction events generalizing q with
  | nil => simp [slotStarts, receptions]
  | cons e events ih =>
    obtain ⟨hnow, hstored⟩ := ih (queueStep cfg q e)
    rw [List.foldl_cons, hnow, hstored]
    cases e with
    | pscchReceived pdu =>
      simp [queueStep, slotStarts, receptions]
    | startSlot =>
      simp only [queueStep, slotStarts, receptions, FrontQueue.tick_now, FrontQueue.tick_stored,
        and_true]
      omega

theorem queue_servedTo {events : List PhyEvent} {k : Nat} (h : q.ServedTo SlRxGrantInfo.sfn k) :
    ∃ k', (events.foldl (queueStep cfg) q).ServedTo SlRxGrantInfo.sfn k' := by
  induction events generalizing q k with
  | nil => exact ⟨k, h⟩
  | cons e events ih =>
    cases e with
    | pscchReceived pdu => exact ih (h.storeAll (announced cfg pdu))
    | startSlot =>
      obtain ⟨k', hnext⟩ := h.tick
      exact ih hnext

end Refinement

/-- Each announced reception is handed over in its slot exactly when the receptions are announced in
the order of their slots. -/
theorem handedOnTime_iff_announcedInOrder {cfg : SlRxConfig} {n : Nat} {events : List PhyEvent}
    {x : PhyTrace} (hrun : runPhy cfg n events = .ok x) :
    HandedOnTime cfg n events x ↔ AnnouncedInOrder cfg n events := by
  have hfollows : Follows x (events.foldl (queueStep cfg) (FrontQueue.start n)) :=
    runPhy_follows ⟨rfl, rfl, rfl⟩ hrun
  obtain ⟨k, hserved⟩ := queue_servedTo
    (FrontQueue.servedTo_start SlRxGrantInfo.sfn n)
  obtain ⟨hnow, hstored⟩ := queue_history events (FrontQueue.start n)
  have hiff := hserved.onTime_iff
  unfold FrontQueue.OnTime at hiff
  rw [hfollows.served, hnow, hstored] at hiff
  exact hiff

/-- A message of slot 0 that announces one more transmission, `gap` slots later. -/
def announcing (rnti : Nat) (gap : UInt8) : PhyEvent :=
  .pscchReceived {
    sciF1a := { gapReTx1 := gap, indexStartSbChReTx1 := 0, lengthSubChannel := 1, mcs := 14 }
    tag := { rnti := rnti, dstL2Id := 255, tbSize := 300, symStart := 2, numSym := 11, sfn := 0 }
    rsrpDbm := -80
    corrupt := false }

def hearingAll : SlRxConfig := ⟨10, [255]⟩

/-- Two receptions for slots 3 and 5. -/
def inOrder : List PhyEvent :=
  [announcing 1 3, announcing 2 5, .startSlot, .startSlot, .startSlot, .startSlot, .startSlot]

def outOfOrder : List PhyEvent :=
  [announcing 1 5, announcing 2 3, .startSlot, .startSlot, .startSlot, .startSlot, .startSlot]

theorem handedOnTime_iff_announcedInOrder_inOrder : ∃ x, runPhy hearingAll 0 inOrder = .ok x ∧
    HandedOnTime hearingAll 0 inOrder x := by
  have hreceptions : (receptions hearingAll 0 inOrder).map (fun e => (e.1, e.2.sfn)) =
      [(0, 3), (0, 5)] := by decide
  obtain ⟨x, hx⟩ : ∃ x, runPhy hearingAll 0 inOrder = .ok x := ⟨_, rfl⟩
  refine ⟨x, hx, (handedOnTime_iff_announcedInOrder hx).mpr ?_⟩
  intro i j e f he _ _ hji hf
  have hpair : ∀ (i : Nat) e, (receptions hearingAll 0 inOrder)[i]? = some e →
      [(0, 3), (0, 5)][i]? = some (e.1, e.2.sfn) := by
    intro i e he
    rw [← hreceptions, List.getElem?_map, he]
    rfl
  have hi := hpair i e he
  have hj := hpair j f hf
  match i, j with
  | 0, _ => omega
  | 1, 0 => simp at hi hj; omega
  | 1, _ + 1 => omega
  | _ + 2, _ => simp at hi

/-- The reception for slot 3 waits behind the one for slot 5 and is never handed over. -/
theorem handedOnTime_fails_outOfOrder : ∃ x, runPhy hearingAll 0 outOfOrder = .ok x ∧
    ¬HandedOnTime hearingAll 0 outOfOrder x := by
  obtain ⟨x, hx⟩ : ∃ x, runPhy hearingAll 0 outOfOrder = .ok x := ⟨_, rfl⟩
  refine ⟨x, hx, fun hontime => ?_⟩
  have hperm := (hontime 3 (by decide)).length_eq
  have hhanded : (runPhy hearingAll 0 outOfOrder).toOption.map (fun x =>
      ((x.handed.filter fun e => e.1 = 3).map Prod.snd).length) = some 0 := by decide
  have hannounced : (((receptions hearingAll 0 outOfOrder).filter fun e =>
      e.2.sfn = 3 ∧ e.1 < 3).map Prod.snd).length = 1 := by decide
  rw [hx] at hhanded
  have hnone : ((x.handed.filter fun e => e.1 = 3).map Prod.snd).length = 0 :=
    Option.some.inj hhanded
  rw [hnone, hannounced] at hperm
  cases hperm

end SidelinkORe
