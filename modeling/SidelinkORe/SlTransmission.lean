import SidelinkORe.GrantUse

namespace SidelinkORe

/-- A packet that the MAC hands to the PHY; only data carries a radio bearer tag. -/
inductive SlPacket where
  | macPdu (size : Nat)
  | sciF2a
  | sciF1a (sci : NrSlSciF1aHeader)
  deriving DecidableEq

def SlPacket.getSize : SlPacket → Nat
  | .macPdu size => size
  | .sciF2a => 5
  | .sciF1a sci => sci.getSerializedSize

def SlPacket.hasBearerTag : SlPacket → Bool
  | .macPdu _ => true
  | _ => false

/-- `PacketBurst::GetSize`, in bytes. -/
def burstSize (burst : List SlPacket) : Nat := (burst.map SlPacket.getSize).sum

inductive SlVarTtiType where
  | ctrl
  | data
  | invalid
  deriving DecidableEq

structure NrSlVarTtiAllocInfo where
  slVarTtiType : SlVarTtiType := .invalid
  symStart : Nat := 65535
  symLength : Nat := 65535
  rbStart : Nat := 65535
  rbLength : Nat := 65535
  deriving DecidableEq

structure NrSlPhySlotAlloc where
  sfn : Nat
  slvarTtiInfoList : KeyedSet NrSlVarTtiAllocInfo.symStart

/-- The sidelink queues of `NrUePhy` towards the channel. -/
structure NrSlTxPhy where
  pscchPacketBurstQueue : List (List SlPacket)
  psschPacketBurstQueue : List (List SlPacket)
  allocInfoQueue : List NrSlPhySlotAlloc

/-- What `DoReset` leaves: an empty burst in each queue. -/
def NrSlTxPhy.reset : NrSlTxPhy := ⟨[[]], [[]], []⟩

/-- The asserts and fatal errors on the way of a packet to the channel. -/
inductive TxFault where
  | burstQueueSize
  | pscchBusy
  | varTtiTaken
  | otherSlot
  | noAllocation
  | noVarTti
  | invalidVarTti
  | pscchWithoutData
  | noCtrlPacket
  | noDataPacket
  | noBearerTag
  | eventInPast
  deriving DecidableEq

inductive SlPhyCall where
  | sendPscchMacPdu (p : SlPacket)
  | sendPsschMacPdu (p : SlPacket)
  | setNrSlVarTtiAllocInfo (sfn : Nat) (varTtiInfo : NrSlVarTtiAllocInfo)

/-- What goes to the channel in one variable TTI. -/
structure SlTxFrame where
  varTti : NrSlVarTtiAllocInfo
  burst : List SlPacket
  deriving DecidableEq

namespace NrSlTxPhy

def setPscchMacPdu (phy : NrSlTxPhy) (p : SlPacket) : Except TxFault NrSlTxPhy := do
  require (phy.pscchPacketBurstQueue = [[]]) TxFault.pscchBusy
  pure { phy with pscchPacketBurstQueue := [[p]] }

def setPsschMacPdu (phy : NrSlTxPhy) (p : SlPacket) : Except TxFault NrSlTxPhy :=
  match phy.psschPacketBurstQueue with
  | [burst] => .ok { phy with psschPacketBurstQueue := [burst ++ [p]] }
  | _ => .error TxFault.burstQueueSize

/-- The first variable TTI of a slot makes its allocation, the others join it. -/
def setNrSlVarTtiAllocInfo (phy : NrSlTxPhy) (sfn : Nat) (varTtiInfo : NrSlVarTtiAllocInfo) :
    Except TxFault NrSlTxPhy :=
  match phy.allocInfoQueue with
  | [] => .ok { phy with allocInfoQueue := [⟨sfn, KeyedSet.empty.emplace varTtiInfo⟩] }
  | it :: rest => do
    require (it.sfn = sfn) TxFault.otherSlot
    require (it.slvarTtiInfoList.isNew varTtiInfo = true) TxFault.varTtiTaken
    pure { phy with
      allocInfoQueue :=
        { it with slvarTtiInfoList := it.slvarTtiInfoList.emplace varTtiInfo } :: rest }

def call (phy : NrSlTxPhy) : SlPhyCall → Except TxFault NrSlTxPhy
  | .sendPscchMacPdu p => phy.setPscchMacPdu p
  | .sendPsschMacPdu p => phy.setPsschMacPdu p
  | .setNrSlVarTtiAllocInfo sfn varTtiInfo => phy.setNrSlVarTtiAllocInfo sfn varTtiInfo

/-- `PopPscchPacketBurst`: the queue starts again with an empty burst in any case. -/
def popPscchPacketBurst (phy : NrSlTxPhy) :
    Except TxFault (Option (List SlPacket) × NrSlTxPhy) := do
  let burst ← orFault TxFault.burstQueueSize phy.pscchPacketBurstQueue[0]?
  let popped := { phy with pscchPacketBurstQueue := phy.pscchPacketBurstQueue.tail ++ [[]] }
  if 0 < burstSize burst then do
    let pssch ← orFault TxFault.burstQueueSize phy.psschPacketBurstQueue[0]?
    require (0 < burstSize pssch) TxFault.pscchWithoutData
    pure (some burst, popped)
  else pure (none, popped)

def popPsschPacketBurst (phy : NrSlTxPhy) :
    Except TxFault (Option (List SlPacket) × NrSlTxPhy) := do
  let burst ← orFault TxFault.burstQueueSize phy.psschPacketBurstQueue[0]?
  let popped := { phy with psschPacketBurstQueue := phy.psschPacketBurstQueue.tail ++ [[]] }
  pure (if 0 < burstSize burst then some burst else none, popped)

def slCtrl (phy : NrSlTxPhy) (varTtiInfo : NrSlVarTtiAllocInfo) :
    Except TxFault (SlTxFrame × NrSlTxPhy) := do
  let (burst, phy) ← phy.popPscchPacketBurst
  let burst ← orFault TxFault.noCtrlPacket burst
  require (burst ≠ []) TxFault.noCtrlPacket
  pure (⟨varTtiInfo, burst⟩, phy)

def slData (phy : NrSlTxPhy) (varTtiInfo : NrSlVarTtiAllocInfo) :
    Except TxFault (SlTxFrame × NrSlTxPhy) := do
  let (burst, phy) ← phy.popPsschPacketBurst
  let burst ← orFault TxFault.noDataPacket burst
  let front ← orFault TxFault.noDataPacket burst[0]?
  require (front.hasBearerTag = true) TxFault.noBearerTag
  pure (⟨varTtiInfo, burst⟩, phy)

def startNrSlVarTti (phy : NrSlTxPhy) (varTtiInfo : NrSlVarTtiAllocInfo) :
    Except TxFault (SlTxFrame × NrSlTxPhy) :=
  match varTtiInfo.slVarTtiType with
  | .ctrl => phy.slCtrl varTtiInfo
  | .data => phy.slData varTtiInfo
  | .invalid => .error TxFault.invalidVarTti

/-- The variable TTIs left in the slot, from symbol `now` on: each one ends before the next one is
scheduled, and the last one before the next slot is. -/
def runNrSlVarTtis (symbolsPerSlot : Nat) :
    List NrSlVarTtiAllocInfo → Nat → NrSlTxPhy → Except TxFault (List SlTxFrame × NrSlTxPhy)
  | [], now, phy => do
    require (now ≤ symbolsPerSlot) TxFault.eventInPast
    pure ([], phy)
  | varTtiInfo :: rest, now, phy => do
    require (now ≤ varTtiInfo.symStart) TxFault.eventInPast
    let (frame, phy) ← phy.startNrSlVarTti varTtiInfo
    let (frames, phy) ← runNrSlVarTtis symbolsPerSlot rest
      (varTtiInfo.symStart + varTtiInfo.symLength) phy
    pure (frame :: frames, phy)

def nrSlSlotAllocInfoExists (phy : NrSlTxPhy) : Except TxFault Bool := do
  let burst ← orFault TxFault.burstQueueSize phy.psschPacketBurstQueue[0]?
  pure (!burst.isEmpty && !phy.allocInfoQueue.isEmpty)

def startNrSlSlot (symbolsPerSlot sfn : Nat) (phy : NrSlTxPhy) :
    Except TxFault (List SlTxFrame × NrSlTxPhy) :=
  match phy.allocInfoQueue with
  | [] => .error TxFault.noAllocation
  | currentAlloc :: rest => do
    require (currentAlloc.sfn = sfn) TxFault.otherSlot
    require (currentAlloc.slvarTtiInfoList.elems ≠ []) TxFault.noVarTti
    runNrSlVarTtis symbolsPerSlot currentAlloc.slvarTtiInfoList.elems 0
      { phy with allocInfoQueue := rest }

/-- One slot of the PHY: the MAC makes its calls, then what it allocated is played out. -/
def startSlot (symbolsPerSlot sfn : Nat) (calls : List SlPhyCall) (phy : NrSlTxPhy) :
    Except TxFault (List SlTxFrame × NrSlTxPhy) := do
  let phy ← calls.foldlM call phy
  let slAllocExists ← phy.nrSlSlotAllocInfoExists
  if slAllocExists = true then phy.startNrSlSlot symbolsPerSlot sfn else pure ([], phy)

end NrSlTxPhy

/-- Control before data, both within the slot. -/
structure SymbolLayout (symbolsPerSlot : Nat) (shape : SlotShape) : Prop where
  ctrlLasts : 0 < shape.slPscchSymLength
  ctrlEnds : shape.slPscchSymStart + shape.slPscchSymLength ≤ shape.slPsschSymStart
  dataEnds : shape.slPsschSymStart + shape.slPsschSymLength ≤ symbolsPerSlot

section HandOver

variable (subChSize sfn : Nat) (t : Transmission) (pdus : List Nat)

def dataVarTti : NrSlVarTtiAllocInfo where
  slVarTtiType := .data
  symStart := t.alloc.shape.slPsschSymStart
  symLength := t.alloc.shape.slPsschSymLength
  rbStart := t.alloc.slPsschSubChStart * subChSize
  rbLength := t.alloc.slPsschSubChLength * subChSize

def ctrlVarTti : NrSlVarTtiAllocInfo where
  slVarTtiType := .ctrl
  symStart := t.alloc.shape.slPscchSymStart
  symLength := t.alloc.shape.slPscchSymLength
  rbStart := t.alloc.slPsschSubChStart * subChSize
  rbLength := t.alloc.shape.numSlPscchRbs

/-- The packets of the PSSCH: the data, then the SCI 2-A. -/
def psschPackets : List SlPacket := pdus.map .macPdu ++ [.sciF2a]

/-- The calls of the MAC for one transmission; control follows where the slot carries an SCI 1-A. -/
def handOver : List SlPhyCall :=
  (psschPackets pdus).map .sendPsschMacPdu ++
    (.setNrSlVarTtiAllocInfo sfn (dataVarTti subChSize t) ::
      match t.sciF1a with
      | some sci =>
        [.sendPscchMacPdu (.sciF1a sci), .setNrSlVarTtiAllocInfo sfn (ctrlVarTti subChSize t)]
      | none => [])

/-- What is to leave the antenna for one transmission: the SCI 1-A first, if there is one. -/
def framesOf : List SlTxFrame :=
  match t.sciF1a with
  | some sci =>
    [⟨ctrlVarTti subChSize t, [.sciF1a sci]⟩, ⟨dataVarTti subChSize t, psschPackets pdus⟩]
  | none => [⟨dataVarTti subChSize t, psschPackets pdus⟩]

end HandOver

section PlayOut

open NrSlTxPhy

variable {subChSize sfn symbolsPerSlot : Nat} {t : Transmission} {pdus : List Nat}

theorem sciF1a_size_pos (sci : NrSlSciF1aHeader) : 0 < sci.getSerializedSize := by
  unfold NrSlSciF1aHeader.getSerializedSize
  dsimp only
  split <;> split <;> omega

theorem psschPackets_size_pos (pdus : List Nat) : 0 < burstSize (psschPackets pdus) := by
  simp [burstSize, psschPackets, SlPacket.getSize]

theorem sendPssch_foldlM {phy : NrSlTxPhy} {burst : List SlPacket} (l : List SlPacket)
    (h : phy.psschPacketBurstQueue = [burst]) :
    (l.map SlPhyCall.sendPsschMacPdu).foldlM call phy =
      .ok { phy with psschPacketBurstQueue := [burst ++ l] } := by
  induction l generalizing phy burst with
  | nil =>
    rw [List.append_nil, ← h]
    rfl
  | cons p l ih =>
    have hset : call phy (.sendPsschMacPdu p) =
        .ok { phy with psschPacketBurstQueue := [burst ++ [p]] } := by
      show phy.setPsschMacPdu p = _
      unfold setPsschMacPdu
      rw [h]
    rw [List.map_cons, List.foldlM_cons, bind_of_ok hset, ih rfl, List.append_assoc]
    rfl

/-- The queues when the MAC has made the calls of one transmission. -/
def handedOver (subChSize sfn : Nat) (t : Transmission) (pdus : List Nat) : NrSlTxPhy :=
  match t.sciF1a with
  | some sci => ⟨[[.sciF1a sci]], [psschPackets pdus], [⟨sfn,
      (KeyedSet.empty.emplace (dataVarTti subChSize t)).emplace (ctrlVarTti subChSize t)⟩]⟩
  | none => ⟨[[]], [psschPackets pdus], [⟨sfn, KeyedSet.empty.emplace (dataVarTti subChSize t)⟩]⟩

theorem handOver_calls (apart : t.alloc.shape.slPscchSymStart < t.alloc.shape.slPsschSymStart) :
    (handOver subChSize sfn t pdus).foldlM call reset = .ok (handedOver subChSize sfn t pdus) := by
  have hnew : ((KeyedSet.empty : KeyedSet NrSlVarTtiAllocInfo.symStart).emplace
      (dataVarTti subChSize t)).isNew (ctrlVarTti subChSize t) = true := by
    apply KeyedSet.isNew_iff.mpr
    intro b hb
    obtain rfl := List.mem_singleton.mp hb
    exact apart.ne'
  unfold handOver handedOver
  rw [List.foldlM_append, bind_of_ok (sendPssch_foldlM (psschPackets pdus) rfl), List.foldlM_cons]
  cases t.sciF1a with
  | none => rfl
  | some sci =>
    show setNrSlVarTtiAllocInfo ⟨[[.sciF1a sci]], [psschPackets pdus], [⟨sfn,
      KeyedSet.empty.emplace (dataVarTti subChSize t)⟩]⟩ sfn (ctrlVarTti subChSize t) >>= _ = _
    unfold setNrSlVarTtiAllocInfo
    dsimp only
    rw [bind_of_ok (a := ()) (require_ok_iff.mpr rfl),
      bind_of_ok (a := ()) (require_ok_iff.mpr hnew)]
    rfl

theorem slCtrl_sends {phy : NrSlTxPhy} {varTti : NrSlVarTtiAllocInfo} {sci : NrSlSciF1aHeader}
    (hctrl : phy.pscchPacketBurstQueue = [[.sciF1a sci]])
    (hdata : phy.psschPacketBurstQueue = [psschPackets pdus]) :
    phy.slCtrl varTti =
      .ok (⟨varTti, [.sciF1a sci]⟩, { phy with pscchPacketBurstQueue := [[]] }) := by
  have hsize : 0 < burstSize [SlPacket.sciF1a sci] := by
    simpa [burstSize, SlPacket.getSize] using sciF1a_size_pos sci
  have hpop : phy.popPscchPacketBurst =
      .ok (some [.sciF1a sci], { phy with pscchPacketBurstQueue := [[]] }) := by
    unfold popPscchPacketBurst
    rw [hctrl, hdata]
    show (if 0 < burstSize [SlPacket.sciF1a sci] then _ else _) = _
    rw [if_pos hsize]
    show (require (0 < burstSize (psschPackets pdus)) TxFault.pscchWithoutData >>= _) = _
    rw [bind_of_ok (a := ()) (require_ok_iff.mpr (psschPackets_size_pos pdus))]
    rfl
  unfold slCtrl
  rw [bind_of_ok hpop]
  rfl

theorem slData_sends {phy : NrSlTxPhy} {varTti : NrSlVarTtiAllocInfo} (hpdus : pdus ≠ [])
    (hdata : phy.psschPacketBurstQueue = [psschPackets pdus]) :
    phy.slData varTti =
      .ok (⟨varTti, psschPackets pdus⟩, { phy with psschPacketBurstQueue := [[]] }) := by
  have hpop : phy.popPsschPacketBurst =
      .ok (some (psschPackets pdus), { phy with psschPacketBurstQueue := [[]] }) := by
    unfold popPsschPacketBurst
    rw [hdata]
    show Except.ok (if 0 < burstSize (psschPackets pdus) then _ else _, _) = _
    rw [if_pos (psschPackets_size_pos pdus)]
    rfl
  unfold slData
  rw [bind_of_ok hpop]
  cases pdus with
  | nil => exact absurd rfl hpdus
  | cons size pdus => rfl

theorem startNrSlSlot_runs {phy : NrSlTxPhy} {rest : List NrSlPhySlotAlloc}
    {slvarTtiInfoList : KeyedSet NrSlVarTtiAllocInfo.symStart}
    (hqueue : phy.allocInfoQueue = ⟨sfn, slvarTtiInfoList⟩ :: rest)
    (hne : slvarTtiInfoList.elems ≠ []) :
    phy.startNrSlSlot symbolsPerSlot sfn = runNrSlVarTtis symbolsPerSlot slvarTtiInfoList.elems 0
      { phy with allocInfoQueue := rest } := by
  unfold startNrSlSlot
  rw [hqueue]
  dsimp only
  rw [bind_of_ok (a := ()) (require_ok_iff.mpr rfl), bind_of_ok (a := ()) (require_ok_iff.mpr hne)]

theorem runNrSlVarTtis_cons {phy phy' phy'' : NrSlTxPhy} {varTti : NrSlVarTtiAllocInfo}
    {rest : List NrSlVarTtiAllocInfo} {now : Nat} {frame : SlTxFrame} {frames : List SlTxFrame}
    (hnow : now ≤ varTti.symStart) (hframe : phy.startNrSlVarTti varTti = .ok (frame, phy'))
    (hrest : runNrSlVarTtis symbolsPerSlot rest (varTti.symStart + varTti.symLength) phy' =
      .ok (frames, phy'')) :
    runNrSlVarTtis symbolsPerSlot (varTti :: rest) now phy = .ok (frame :: frames, phy'') := by
  unfold runNrSlVarTtis
  rw [bind_of_ok (a := ()) (require_ok_iff.mpr hnow), bind_of_ok hframe]
  dsimp only
  rw [bind_of_ok hrest]
  rfl

theorem runNrSlVarTtis_nil {phy : NrSlTxPhy} {now : Nat} (hnow : now ≤ symbolsPerSlot) :
    runNrSlVarTtis symbolsPerSlot [] now phy = .ok ([], phy) := by
  unfold runNrSlVarTtis
  rw [bind_of_ok (a := ()) (require_ok_iff.mpr hnow)]
  rfl

/-- The data of a transmission is the last that leaves in its slot. -/
theorem runNrSlVarTtis_data {now : Nat} (hpdus : pdus ≠ [])
    (hnow : now ≤ t.alloc.shape.slPsschSymStart)
    (hend : t.alloc.shape.slPsschSymStart + t.alloc.shape.slPsschSymLength ≤ symbolsPerSlot) :
    runNrSlVarTtis symbolsPerSlot [dataVarTti subChSize t] now ⟨[[]], [psschPackets pdus], []⟩ =
      .ok ([⟨dataVarTti subChSize t, psschPackets pdus⟩], reset) := by
  apply runNrSlVarTtis_cons hnow
  · exact slData_sends hpdus rfl
  · exact runNrSlVarTtis_nil hend

/-- One transmission with a proper layout leaves as it was handed over, and nothing stays behind. -/
theorem startSlot_transmission (hpdus : pdus ≠ [])
    (layout : SymbolLayout symbolsPerSlot t.alloc.shape) :
    NrSlTxPhy.startSlot symbolsPerSlot sfn (handOver subChSize sfn t pdus) reset =
      .ok (framesOf subChSize t pdus, reset) := by
  have hlasts := layout.ctrlLasts
  have hctrl := layout.ctrlEnds
  have apart : t.alloc.shape.slPscchSymStart < t.alloc.shape.slPsschSymStart := by omega
  have hexists : (handedOver subChSize sfn t pdus).nrSlSlotAllocInfoExists = .ok true := by
    unfold handedOver
    cases t.sciF1a <;> cases pdus <;> rfl
  unfold NrSlTxPhy.startSlot
  rw [bind_of_ok (handOver_calls apart), bind_of_ok hexists, if_pos rfl]
  unfold handedOver framesOf
  cases t.sciF1a with
  | none =>
    dsimp only
    rw [startNrSlSlot_runs rfl (List.cons_ne_nil _ _)]
    exact runNrSlVarTtis_data hpdus (Nat.zero_le _) layout.dataEnds
  | some sci =>
    dsimp only
    have helems : ((KeyedSet.empty : KeyedSet NrSlVarTtiAllocInfo.symStart).emplace
        (dataVarTti subChSize t) |>.emplace (ctrlVarTti subChSize t)).elems =
          [ctrlVarTti subChSize t, dataVarTti subChSize t] := by
      show (if t.alloc.shape.slPscchSymStart < t.alloc.shape.slPsschSymStart then _ else _) = _
      rw [if_pos apart]
    rw [startNrSlSlot_runs rfl (by rw [helems]; exact List.cons_ne_nil _ _), helems]
    apply runNrSlVarTtis_cons (Nat.zero_le _)
    · exact slCtrl_sends rfl rfl
    · exact runNrSlVarTtis_data hpdus hctrl layout.dataEnds

/-- A slot for which the MAC hands nothing over leaves the PHY as it is. -/
theorem startSlot_nothing : NrSlTxPhy.startSlot symbolsPerSlot sfn [] reset = .ok ([], reset) := rfl

end PlayOut

section PoolShape

/-- The symbols of a slot of a pool that is configured with its first sidelink symbol, the number of
them and the symbols of the PSCCH; the last symbol stays empty. -/
def slotShapeOf (numSlPscchRbs slSymbolStart totalSlSymbols slTResoPscch slSubchannelSize
    slMaxNumPerReserve : Nat) : SlotShape where
  numSlPscchRbs := numSlPscchRbs
  slPscchSymStart := slSymbolStart
  slPscchSymLength := slTResoPscch
  slPsschSymStart := slSymbolStart + slTResoPscch
  slPsschSymLength := totalSlSymbols - slTResoPscch - 1
  slSubchannelSize := slSubchannelSize
  slMaxNumPerReserve := slMaxNumPerReserve

/-- The configured symbols are a layout exactly when all of them but the last are in the slot. -/
theorem slotShapeOf_layout_iff {numSlPscchRbs slSymbolStart totalSlSymbols slTResoPscch
    slSubchannelSize slMaxNumPerReserve symbolsPerSlot : Nat} (hctrl : 0 < slTResoPscch)
    (hdata : slTResoPscch < totalSlSymbols) :
    SymbolLayout symbolsPerSlot (slotShapeOf numSlPscchRbs slSymbolStart totalSlSymbols slTResoPscch
      slSubchannelSize slMaxNumPerReserve) ↔
      slSymbolStart + totalSlSymbols ≤ symbolsPerSlot + 1 := by
  constructor
  · intro h
    have hend := h.dataEnds
    change slSymbolStart + slTResoPscch + (totalSlSymbols - slTResoPscch - 1) ≤ _ at hend
    omega
  · intro h
    refine ⟨hctrl, Nat.le_refl _, ?_⟩
    show slSymbolStart + slTResoPscch + (totalSlSymbols - slTResoPscch - 1) ≤ symbolsPerSlot
    omega

end PoolShape

end SidelinkORe
