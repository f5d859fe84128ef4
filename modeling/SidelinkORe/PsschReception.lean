import SidelinkORe.ExpectedTb
import SidelinkORe.Interference
import SidelinkORe.RestartLog
import SidelinkORe.SciF2a

namespace SidelinkORe

/-- The error model of the data, with its own type of output. -/
structure NrErrorModel (numRbs : Nat) (ω : Type) where
  getTbDecodificationStats : SpectrumValue numRbs → List Nat → Nat → Nat → List ω → ω
  tbler : ω → ℚ

/-- The soft information of every process of every transmitter, and the processes decoded since
their last new data. -/
structure NrHarqPhy (ω : Type) where
  slDataHistory : Table Nat (Table Nat (List ω))
  slDecodedTb : Finset Nat

namespace NrHarqPhy

variable {ω : Type}

/-- `GetHistoryMapOf` and `GetProcIdHistoryMapOf` insert what they do not find. -/
def modifyHarqProcess (map : Table Nat (Table Nat (List ω))) (rnti harqProcId : Nat)
    (f : List ω → List ω) : Table Nat (Table Nat (List ω)) :=
  let procIdMap := (map.find? rnti).getD Table.empty
  map.put rnti (procIdMap.put harqProcId (f ((procIdMap.find? harqProcId).getD [])))

/-- The history that is read for a process. -/
def history (harq : NrHarqPhy ω) (rnti harqProcId : Nat) : List ω :=
  (((harq.slDataHistory.find? rnti).getD Table.empty).find? harqProcId).getD []

def getHarqProcessInfoSlData (harq : NrHarqPhy ω) (rnti harqProcId : Nat) : List ω × NrHarqPhy ω :=
  (harq.history rnti harqProcId,
    { harq with slDataHistory := modifyHarqProcess harq.slDataHistory rnti harqProcId id })

def updateSlDataHarqProcessStatus (harq : NrHarqPhy ω) (rnti harqProcId : Nat) (output : ω) : NrHarqPhy ω :=
  { harq with slDataHistory := modifyHarqProcess harq.slDataHistory rnti harqProcId (· ++ [output]) }

def resetSlDataHarqProcessStatus (harq : NrHarqPhy ω) (rnti harqProcId : Nat) : NrHarqPhy ω :=
  { harq with slDataHistory := modifyHarqProcess harq.slDataHistory rnti harqProcId fun _ => [] }

def decodedId (rnti harqId : Nat) : Nat := (rnti <<< 8) + harqId

def indicatePrevDecoded (harq : NrHarqPhy ω) (rnti harqId : Nat) : NrHarqPhy ω :=
  { harq with slDecodedTb := insert (decodedId rnti harqId) harq.slDecodedTb }

def isPrevDecoded (harq : NrHarqPhy ω) (rnti harqId : Nat) : Bool :=
  decide (decodedId rnti harqId ∈ harq.slDecodedTb)

def removePrevDecoded (harq : NrHarqPhy ω) (rnti harqId : Nat) : NrHarqPhy ω :=
  { harq with slDecodedTb := harq.slDecodedTb.erase (decodedId rnti harqId) }

/-- The history that a block is decoded with: new data erases what an undecoded block has left. -/
def harqInfoList (harq : NrHarqPhy ω) (rnti : Nat) (sciF2a : NrSlSciF2aHeader) : List ω × NrHarqPhy ω :=
  let harqId := sciF2a.harqId.toNat
  let (harqInfoList, harq) := harq.getHarqProcessInfoSlData rnti harqId
  if sciF2a.ndi ≠ 0 ∧ 0 < harqInfoList.length then
    (harq.resetSlDataHarqProcessStatus rnti harqId).getHarqProcessInfoSlData rnti harqId
  else (harqInfoList, harq)

end NrHarqPhy

/-- A packet of a received burst: its bearer tag, or the bytes of a packet that has none. -/
inductive SlRxPacket where
  | tagged (rnti : Nat)
  | untagged (bytes : List UInt8)
  deriving DecidableEq

/-- A received frame, of the PSSCH or of the PSCCH. -/
structure SlRxFrame where
  isData : Bool
  packetBurst : List SlRxPacket
  deriving DecidableEq

/-- Where the reception of the PSSCH stops. -/
inductive PsschFault where
  | twoTbsOfOneRnti
  | emptyBurst
  | outOfRange
  | invalidPacket
  | sinrNotUpdated
  | noSci2
  deriving DecidableEq

structure SlTransportBlockInfo (numRbs : Nat) (ω : Type) where
  expectedTb : SlExpectedTb
  isDataCorrupted : Bool := false
  isSci2Corrupted : Bool := false
  outputEmForData : Option ω := none
  outputEmForSci2 : Option ω := none
  sinrPerceived : SpectrumValue numRbs := 0
  sinrUpdated : Bool := false
  sinrAvg : ℚ := 0
  sinrMin : ℚ := 0
  pktIndex : Nat := 4294967295

/-- What one pass of the decoding loop leaves for the trace and for the dispatch, with the number of
values drawn before it. -/
structure PsschAttempt (numRbs : Nat) (ω : Type) where
  rnti : Nat
  tb : SlTransportBlockInfo numRbs ω
  sciF2a : NrSlSciF2aHeader
  rbCollided : Bool
  packetBurst : List SlRxPacket
  drawn : Nat

structure PsschConfig where
  slDataErrorModelEnabled : Bool
  dropTbOnRbCollisionEnabled : Bool

/-- The part of the spectrum PHY that decodes the PSSCH; `drawn` values were taken from the random
stream. -/
structure PsschRx (numRbs : Nat) (ω : Type) where
  slTransportBlocks : Table Nat (SlTransportBlockInfo numRbs ω)
  harqPhyModule : NrHarqPhy ω
  drawn : Nat

namespace PsschRx

section Decoding

variable {numRbs : Nat} {ω : Type} (cfg : PsschConfig) (em : NrErrorModel numRbs ω) (random : Nat → ℚ)

def addSlExpectedTb (rx : PsschRx numRbs ω) (rnti : Nat) (expectedTb : SlExpectedTb) :
    Except PsschFault (PsschRx numRbs ω) := do
  require (∀ old ∈ rx.slTransportBlocks.find? rnti, old.expectedTb.sfn ≠ expectedTb.sfn) .twoTbsOfOneRnti
  pure { rx with slTransportBlocks := rx.slTransportBlocks.put rnti { expectedTb := expectedTb } }

def clearExpectedSlTb (rx : PsschRx numRbs ω) : PsschRx numRbs ω :=
  { rx with slTransportBlocks := Table.empty }

/-- `PeekHeader` of a SCI format 2-A, five bytes. -/
def peekSciF2a (bytes : List UInt8) : Except PsschFault NrSlSciF2aHeader := do
  let ((sciF2a, size), _) ← orFault .invalidPacket ((NrSlSciF2aHeader.deserialize {}).run bytes)
  require (size = 5) .invalidPacket
  pure sciF2a

/-- The RNTI in the tag of the first packet; the tag of a SCI stays as it was built, with RNTI 0. -/
def tagRnti : List SlRxPacket → Except PsschFault Nat
  | [] => .error .emptyBurst
  | .tagged rnti :: _ => pure rnti
  | .untagged bytes :: _ => do
    let _ ← peekSciF2a bytes
    pure 0

/-- `RetrieveSci2FromPktBurst` and the header of the packet: the first one without a tag. -/
def retrieveSci2FromPktBurst (packetBurst : List SlRxPacket) : Except PsschFault NrSlSciF2aHeader :=
  match packetBurst with
  | [] => .error .noSci2
  | .tagged _ :: packets => retrieveSci2FromPktBurst packets
  | .untagged bytes :: _ => peekSciF2a bytes

def valuesAt (sinr : SpectrumValue numRbs) (rb : Nat) : Except PsschFault ℚ :=
  if h : rb < numRbs then pure (sinr ⟨rb, h⟩) else .error .outOfRange

/-- `GetSinrStats`: the average and the least SINR in the RBs. -/
def getSinrStats (sinr : SpectrumValue numRbs) (rbBitmap : List Nat) : Except PsschFault (ℚ × ℚ) := do
  let values ← rbBitmap.mapM (valuesAt sinr)
  pure (values.sum / (rbBitmap.length : ℚ),
    values.foldl (fun sinrMin value => if value < sinrMin then value else sinrMin) 99999999999)

/-- One frame is mapped to the expected transport block of the RNTI in its tag. -/
def mapPacket (slRxSigParamInfo : List SlRxFrame) (slSinrPerceived : List (SpectrumValue numRbs))
    (paramIndexes : List Nat) (tbs : Table Nat (SlTransportBlockInfo numRbs ω)) (i : Nat) :
    Except PsschFault (Table Nat (SlTransportBlockInfo numRbs ω)) := do
  let pktIndex ← orFault .outOfRange paramIndexes[i]?
  let frame ← orFault .outOfRange slRxSigParamInfo[pktIndex]?
  let rnti ← tagRnti frame.packetBurst
  match tbs.find? rnti with
  | none => pure tbs
  | some tb =>
    let sinrPerceived ← orFault .outOfRange slSinrPerceived[pktIndex]?
    let (sinrAvg, sinrMin) ← getSinrStats sinrPerceived tb.expectedTb.rbBitmap
    pure (tbs.put rnti { tb with
      sinrPerceived := sinrPerceived
      pktIndex := pktIndex
      sinrUpdated := true
      sinrAvg := sinrAvg
      sinrMin := sinrMin })

/-- The RBs seen so far and those seen twice; unlike for the PSCCH no RB is passed over. -/
def collideRb (acc : Finset Nat × Finset Nat) (rb : Nat) : Finset Nat × Finset Nat :=
  if rb ∈ acc.1 then (acc.1, insert rb acc.2) else (insert rb acc.1, acc.2)

def psschCollidedRbs (tbs : List (Nat × SlTransportBlockInfo numRbs ω)) : Finset Nat :=
  if cfg.dropTbOnRbCollisionEnabled = true then
    ((tbs.flatMap fun e => e.2.expectedTb.rbBitmap).foldl collideRb (∅, ∅)).2
  else ∅

/-- The collision marks the whole block as corrupted. -/
def markCollision (collidedRbBitmap : Finset Nat) (tb : SlTransportBlockInfo numRbs ω) :
    Bool × SlTransportBlockInfo numRbs ω :=
  if cfg.dropTbOnRbCollisionEnabled = true ∧ ∃ rb ∈ tb.expectedTb.rbBitmap, rb ∈ collidedRbBitmap then
    (true, { tb with isSci2Corrupted := true, isDataCorrupted := true })
  else (false, tb)

/-- The part of the loop under the error model: SCI 2-A and data are evaluated in any case, and drawn
for when there was no collision. -/
def decodeTb (harq : NrHarqPhy ω) (drawn rnti : Nat) (sciF2a : NrSlSciF2aHeader) (rbCollided : Bool)
    (tb : SlTransportBlockInfo numRbs ω) : SlTransportBlockInfo numRbs ω × NrHarqPhy ω × Nat :=
  let harqId := sciF2a.harqId.toNat
  let outputEmForSci2 := em.getTbDecodificationStats tb.sinrPerceived tb.expectedTb.rbBitmap
    NrSlSciF2aHeader.getSerializedSize 0 []
  let (harqInfoList, harq) := harq.harqInfoList rnti sciF2a
  let outputEmForData := em.getTbDecodificationStats tb.sinrPerceived tb.expectedTb.rbBitmap
    tb.expectedTb.tbSize tb.expectedTb.mcs harqInfoList
  let tb := { tb with outputEmForSci2 := some outputEmForSci2, outputEmForData := some outputEmForData }
  if rbCollided = true then (tb, harq, drawn)
  else
    let isSci2Corrupted := !decide (em.tbler outputEmForSci2 < random drawn)
    let isDataCorrupted := !decide (em.tbler outputEmForData < random (drawn + 1)) || isSci2Corrupted
    let tb := { tb with isSci2Corrupted := isSci2Corrupted, isDataCorrupted := isDataCorrupted }
    if isDataCorrupted = true then
      (tb, harq.updateSlDataHarqProcessStatus rnti harqId outputEmForData, drawn + 2)
    else
      (tb, (harq.indicatePrevDecoded rnti harqId).resetSlDataHarqProcessStatus rnti harqId, drawn + 2)

/-- One pass of the decoding loop. -/
def receiveTb (slRxSigParamInfo : List SlRxFrame) (collidedRbBitmap : Finset Nat)
    (x : List (PsschAttempt numRbs ω) × NrHarqPhy ω × Nat) (e : Nat × SlTransportBlockInfo numRbs ω) :
    Except PsschFault (List (PsschAttempt numRbs ω) × NrHarqPhy ω × Nat) := do
  let (rnti, tb) := e
  let (attempts, harq, drawn) := x
  require (tb.sinrUpdated = true) .sinrNotUpdated
  let frame ← orFault .outOfRange slRxSigParamInfo[tb.pktIndex]?
  let sciF2a ← retrieveSci2FromPktBurst frame.packetBurst
  let harq := if sciF2a.ndi ≠ 0 then harq.removePrevDecoded rnti sciF2a.harqId.toNat else harq
  let (rbCollided, tb) := markCollision cfg collidedRbBitmap tb
  let (tb, harq, later) := if cfg.slDataErrorModelEnabled = true then
    decodeTb em random harq drawn rnti sciF2a rbCollided tb else (tb, harq, drawn)
  require (tb.expectedTb.rbBitmap ≠ []) .outOfRange
  pure (attempts ++ [⟨rnti, tb, sciF2a, rbCollided, frame.packetBurst, drawn⟩], harq, later)

/-- `RxSlPssch`; the blocks are visited in the order in which their map is traversed. -/
def rxSlPssch (slRxSigParamInfo : List SlRxFrame) (slSinrPerceived : List (SpectrumValue numRbs))
    (paramIndexes : List Nat) (rx : PsschRx numRbs ω) :
    Except PsschFault (List (PsschAttempt numRbs ω) × PsschRx numRbs ω) := do
  let tbs ← (List.range slRxSigParamInfo.length).foldlM
    (mapPacket slRxSigParamInfo slSinrPerceived paramIndexes) rx.slTransportBlocks
  let collidedRbBitmap := psschCollidedRbs cfg tbs.entries
  let (attempts, harq, drawn) ← tbs.entries.foldlM
    (receiveTb cfg em random slRxSigParamInfo collidedRbBitmap) ([], rx.harqPhyModule, rx.drawn)
  pure (attempts, ⟨Table.empty, harq, drawn⟩)

def psschIndexes (slRxSigParamInfo : List SlRxFrame) : List Nat :=
  slRxSigParamInfo.zipIdx.filterMap fun p => if p.1.isData = true then some p.2 else none

/-- The PSSCH part of `EndRxSlFrame`. -/
def endRxSlFrame (slRxSigParamInfo : List SlRxFrame) (slSinrPerceived : List (SpectrumValue numRbs))
    (rx : PsschRx numRbs ω) : Except PsschFault (List (PsschAttempt numRbs ω) × PsschRx numRbs ω) :=
  if 0 < (psschIndexes slRxSigParamInfo).length then
    rx.rxSlPssch cfg em random slRxSigParamInfo slSinrPerceived (psschIndexes slRxSigParamInfo)
  else pure ([], rx)

end Decoding

end PsschRx

end SidelinkORe
