import SidelinkORe.SchedulerBuffers
import SidelinkORe.SciF2a

namespace SidelinkORe

structure SidelinkLcIdentifier where
  lcId : Nat
  srcL2Id : Nat
  dstL2Id : Nat
  deriving DecidableEq

structure NrSlDataRadioBearerInfo where
  sourceL2Id : Nat
  destinationL2Id : Nat
  logicalChannelIdentity : Nat
  deriving DecidableEq

/-- A packet of a burst: a PDU of the RLC with the channel in its bearer tag, or one without a tag. -/
inductive MacPacket (P : Type) where
  | tagged (lcid : Nat) (pdu : P)
  | untagged (bytes : List UInt8)

/-- Where the set-up of a bearer and the traffic over it stop. -/
inductive BearerFault where
  | secondSlDrb
  | secondSlRxDrb
  | lcIdsAllocated
  | lcidUnset
  | notADataBearer
  | lcInBwpManager
  | lcInMac
  | lcNotInBwpManager
  | lcNotInMac
  | noSci2
  | invalidSci2
  | noDataPackets
  | unknownDestination
  | bearerNotSetUp
  | scheduler (fault : BufferFault)
  deriving DecidableEq

/-- The bearers of an out-of-coverage UE with one sidelink BWP. The RLC entity that the BWP manager
knows for a channel is the list of the PDUs it was given. -/
structure SlBearers (P : Type) where
  srcL2Id : Nat
  slDrbMap : Table Nat (Table Nat NrSlDataRadioBearerInfo)
  slRxDrbMap : Table Nat (Table Nat NrSlDataRadioBearerInfo)
  nrSlDrbLcInfoMap : Table SidelinkLcIdentifier (List P)
  nrSlLcInfoMap : Table SidelinkLcIdentifier SidelinkLogicalChannelInfo
  sidelinkTxDestinations : List (Nat × Nat)
  sidelinkRxDestinations : List Nat
  scheduler : NrSlUeMacSchedulerNs3

/-- `CompareSecond` of `std::sort`; destinations of one priority stay in their order. -/
def sortBySecond (destinations : List (Nat × Nat)) : List (Nat × Nat) :=
  destinations.insertionSort fun a b => a.2 ≤ b.2

/-- The priority of a destination that is there is lowered in place. -/
def lowerPriority (dstL2Id lcPriority : Nat) : List (Nat × Nat) → List (Nat × Nat)
  | [] => [(dstL2Id, lcPriority)]
  | (d, p) :: destinations =>
    if d = dstL2Id then (d, if lcPriority < p then lcPriority else p) :: destinations
    else (d, p) :: lowerPriority dstL2Id lcPriority destinations

namespace SlBearers

variable {P : Type}

/-- A UE before its first bearer. -/
def unconfigured (srcL2Id initialNrSlMcs : Nat) : SlBearers P where
  srcL2Id := srcL2Id
  slDrbMap := Table.empty
  slRxDrbMap := Table.empty
  nrSlDrbLcInfoMap := Table.empty
  nrSlLcInfoMap := Table.empty
  sidelinkTxDestinations := []
  sidelinkRxDestinations := []
  scheduler := ⟨Table.empty, initialNrSlMcs⟩

section Rrc

variable (ue : SlBearers P)

def doAddNrSlDataRadioBearer (slDrb : NrSlDataRadioBearerInfo) : Except BearerFault (SlBearers P) := do
  require (ue.slDrbMap.find? slDrb.destinationL2Id = none) .secondSlDrb
  pure { ue with
    slDrbMap := ue.slDrbMap.insert slDrb.destinationL2Id
      (Table.empty.insert slDrb.logicalChannelIdentity slDrb) }

/-- The map of the receiving bearers is checked, but the bearer goes into the other map. -/
def doAddNrSlRxDataRadioBearer (slRxDrb : NrSlDataRadioBearerInfo) :
    Except BearerFault (SlBearers P) := do
  require (ue.slRxDrbMap.find? slRxDrb.sourceL2Id = none) .secondSlRxDrb
  pure { ue with
    slDrbMap := ue.slDrbMap.insert slRxDrb.sourceL2Id
      (Table.empty.insert slRxDrb.logicalChannelIdentity slRxDrb) }

def doGetNextLcid (dstL2Id : Nat) : Except BearerFault Nat :=
  match ue.slDrbMap.find? dstL2Id with
  | none => pure 4
  | some perLcId => do
    require (perLcId.entries.length ≠ 16) .lcIdsAllocated
    orFault .lcidUnset ((List.range' 4 16).find? fun lcid => (perLcId.find? lcid).isNone)

end Rrc

section LogicalChannels

variable (ue : SlBearers P)

def doAddNrSlDrbLc (lcInfo : SidelinkLogicalChannelInfo) : Except BearerFault (SlBearers P) := do
  require (3 < lcInfo.lcId) .notADataBearer
  require (ue.nrSlDrbLcInfoMap.find? ⟨lcInfo.lcId, lcInfo.srcL2Id, lcInfo.dstL2Id⟩ = none) .lcInBwpManager
  pure { ue with
    nrSlDrbLcInfoMap := ue.nrSlDrbLcInfoMap.insert ⟨lcInfo.lcId, lcInfo.srcL2Id, lcInfo.dstL2Id⟩ [] }

def addNrSlDstL2Id (dstL2Id lcPriority : Nat) : SlBearers P :=
  { ue with sidelinkTxDestinations := sortBySecond (lowerPriority dstL2Id lcPriority ue.sidelinkTxDestinations) }

/-- The scheduler learns of the channels that the UE is the source of. -/
def doAddNrSlLc (slLcInfo : SidelinkLogicalChannelInfo) : Except BearerFault (SlBearers P) := do
  require (ue.nrSlLcInfoMap.find? ⟨slLcInfo.lcId, slLcInfo.srcL2Id, slLcInfo.dstL2Id⟩ = none) .lcInMac
  let ue := { ue with
    nrSlLcInfoMap := ue.nrSlLcInfoMap.insert ⟨slLcInfo.lcId, slLcInfo.srcL2Id, slLcInfo.dstL2Id⟩ slLcInfo }
  if slLcInfo.srcL2Id = ue.srcL2Id then
    match ue.scheduler.doCschedUeNrSlLcConfigReq slLcInfo with
    | .error fault => .error (.scheduler fault)
    | .ok scheduler =>
      pure ({ ue with scheduler := scheduler }.addNrSlDstL2Id slLcInfo.dstL2Id slLcInfo.priority)
  else pure ue

/-- The channel of a bearer; its parameters are the same for all. -/
def lcInfoOf (srcL2Id dstL2Id lcid : Nat) : SidelinkLogicalChannelInfo where
  lcId := lcid
  srcL2Id := srcL2Id
  dstL2Id := dstL2Id
  lcGroup := 3
  pqi := 65
  priority := 7
  isGbr := true
  mbr := 65535
  gbr := 65535

/-- A bearer is one for transmission when its source is the UE's own id. -/
def addNrSlDrb (srcL2Id dstL2Id lcid : Nat) : Except BearerFault (SlBearers P) := do
  let ue ← (if ue.srcL2Id = srcL2Id then ue.doAddNrSlDataRadioBearer ⟨srcL2Id, dstL2Id, lcid⟩
    else ue.doAddNrSlRxDataRadioBearer ⟨srcL2Id, dstL2Id, lcid⟩)
  let ue ← ue.doAddNrSlDrbLc (lcInfoOf srcL2Id dstL2Id lcid)
  ue.doAddNrSlLc (lcInfoOf srcL2Id dstL2Id lcid)

def doAddNrSlRxDstL2Id (dstL2Id : Nat) : SlBearers P :=
  { ue with sidelinkRxDestinations := ue.sidelinkRxDestinations.insert dstL2Id }

/-- The transmitting bearer of a destination, with the next free channel id. -/
def addTxSlrb (dstL2Id : Nat) : Except BearerFault (SlBearers P) := do
  let lcid ← ue.doGetNextLcid dstL2Id
  ue.addNrSlDrb ue.srcL2Id dstL2Id lcid

def activateNrSlDrb (dstL2Id : Nat) (isTransmit isReceive : Bool) : Except BearerFault (SlBearers P) := do
  let ue ← (if isTransmit = true then ue.addTxSlrb dstL2Id else pure ue)
  pure (if isReceive = true then ue.doAddNrSlRxDstL2Id dstL2Id else ue)

end LogicalChannels

section Traffic

/-- The SCI format 2-A that goes with a PDU. -/
def sciF2aOf (harqId ndi rv : UInt8) (srcL2Id dstL2Id : Nat) : NrSlSciF2aHeader where
  harqId := harqId
  ndi := ndi
  rv := rv
  srcId := UInt32.ofNat srcL2Id
  dstId := UInt32.ofNat dstL2Id

variable (ue : SlBearers P)

/-- The PDU that the RLC of the granted channel gives for a destination, tagged, and after it the SCI
format 2-A. The channel is the one that the scheduler names in its allocations. -/
def transmitPssch (harqId ndi rv : UInt8) (dstL2Id : Nat) (pdu : P) :
    Except BearerFault (List (MacPacket P)) := do
  let dst ← orFault (.scheduler .unknownDestination) (ue.scheduler.dstMap.find? dstL2Id)
  let lc ← orFault (.scheduler .unknownLc) (dst.info.lcgs.head?.bind fun lcg => lcg.lcs.head?)
  let _ ← orFault .lcNotInMac (ue.nrSlLcInfoMap.find? ⟨lc.lcid, ue.srcL2Id, dstL2Id⟩)
  let _ ← orFault .lcNotInBwpManager (ue.nrSlDrbLcInfoMap.find? ⟨lc.lcid, ue.srcL2Id, dstL2Id⟩)
  let bytes ← orFault .invalidSci2 (sciF2aOf harqId ndi rv ue.srcL2Id dstL2Id).serialize
  pure [.tagged lc.lcid pdu, .untagged bytes]

/-- The SCI of a burst and its data packets, in their order; the last of several SCIs counts. -/
def separate : List (MacPacket P) → Option NrSlSciF2aHeader × List (Nat × P) →
    Except BearerFault (Option NrSlSciF2aHeader × List (Nat × P))
  | [], found => pure found
  | .tagged lcid pdu :: packets, (sciF2a, dataPkts) => separate packets (sciF2a, dataPkts ++ [(lcid, pdu)])
  | .untagged bytes :: packets, (sciF2a, dataPkts) => do
    let read ← orFault .invalidSci2 ((sciF2a.getD {}).deserialize bytes)
    separate packets (some read.1.1, dataPkts)

def doNotifySidelinkReception (lcId srcL2Id dstL2Id : Nat) : Except BearerFault (SlBearers P) :=
  ue.addNrSlDrb srcL2Id dstL2Id lcId

def doReceiveNrSlRlcPdu (identifier : SidelinkLcIdentifier) (pdu : P) : Except BearerFault (SlBearers P) := do
  let received ← orFault .lcNotInBwpManager (ue.nrSlDrbLcInfoMap.find? identifier)
  pure { ue with nrSlDrbLcInfoMap := ue.nrSlDrbLcInfoMap.put identifier (received ++ [pdu]) }

/-- A channel that is not known yet is set up on the way. -/
def receivePacket (identifier : SidelinkLcIdentifier) (pdu : P) : Except BearerFault (SlBearers P) := do
  let ue ← (if ue.nrSlLcInfoMap.find? identifier = none then
      ue.doNotifySidelinkReception identifier.lcId identifier.srcL2Id identifier.dstL2Id
    else pure ue)
  require (ue.nrSlLcInfoMap.find? identifier ≠ none) .bearerNotSetUp
  ue.doReceiveNrSlRlcPdu identifier pdu

def doReceivePsschPhyPdu (packets : List (MacPacket P)) : Except BearerFault (SlBearers P) := do
  let found ← separate packets (none, [])
  let sciF2a ← orFault .noSci2 found.1
  require (found.2 ≠ []) .noDataPackets
  require (sciF2a.dstId.toNat ∈ ue.sidelinkRxDestinations) .unknownDestination
  found.2.foldlM
    (fun ue packet => ue.receivePacket ⟨packet.1, sciF2a.srcId.toNat, sciF2a.dstId.toNat⟩ packet.2) ue

end Traffic

end SlBearers

end SidelinkORe
