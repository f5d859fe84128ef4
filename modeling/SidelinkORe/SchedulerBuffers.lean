import SidelinkORe.Scheduler
import SidelinkORe.Table

namespace SidelinkORe

/-- A logical channel as RRC configures it. -/
structure SidelinkLogicalChannelInfo where
  lcId : Nat
  srcL2Id : Nat
  dstL2Id : Nat
  lcGroup : Nat
  pqi : Nat
  priority : Nat
  isGbr : Bool
  mbr : Nat
  gbr : Nat
  deriving DecidableEq

/-- A buffer report; the delays of the queues are not used by the scheduler. -/
structure BufferStatusReport where
  lcid : Nat
  txQueueSize : Nat
  retxQueueSize : Nat
  statusPduSize : Nat
  srcL2Id : Nat
  dstL2Id : Nat

/-- A destination with the ids of its groups of logical channels, in the order of the groups. -/
structure NrSlUeMacSchedulerDstInfo where
  info : SchedulerDstInfo
  lcgIds : List Nat

structure NrSlUeMacSchedulerNs3 where
  dstMap : Table Nat NrSlUeMacSchedulerDstInfo
  initialNrSlMcs : Nat

inductive BufferFault where
  | duplicateLc
  | unknownDestination
  | unknownLc
  | totalSizeBelowChange
  | allocation (fault : Fault)
  deriving DecidableEq

/-- `UpdateLC`, with the change of the three sizes as a 32-bit word. -/
def SchedulerLc.updateLC (lc : SchedulerLc) (params : BufferStatusReport) : SchedulerLc × Nat :=
  ({ lc with
      txQueueSize := params.txQueueSize
      retxQueueSize := params.retxQueueSize
      statusPduSize := params.statusPduSize },
    (subU32 params.txQueueSize lc.txQueueSize + subU32 params.retxQueueSize lc.retxQueueSize +
      subU32 params.statusPduSize lc.statusPduSize) % 2 ^ 32)

def SchedulerLcg.contains (lcg : SchedulerLcg) (lcId : Nat) : Bool := lcg.lcs.any fun lc => lc.lcid = lcId

def SchedulerLcg.insert (lcg : SchedulerLcg) (lc : SchedulerLc) : Except BufferFault SchedulerLcg := do
  require (lcg.contains lc.lcid = false) .duplicateLc
  pure { lcg with lcs := lcg.lcs ++ [lc] }

/-- The channels with the report in its place, and the change of its sizes. -/
def updateLcs (params : BufferStatusReport) : List SchedulerLc → Except BufferFault (List SchedulerLc × Nat)
  | [] => .error .unknownLc
  | lc :: lcs =>
    if lc.lcid = params.lcid then
      let (lc, ret) := lc.updateLC params
      pure (lc :: lcs, ret)
    else do
      let (lcs, ret) ← updateLcs params lcs
      pure (lc :: lcs, ret)

/-- A change of `2 ^ 31` or more is a negative one. -/
def SchedulerLcg.updateInfo (lcg : SchedulerLcg) (params : BufferStatusReport) :
    Except BufferFault SchedulerLcg := do
  let (lcs, ret) ← updateLcs params lcg.lcs
  require (2 ^ 31 ≤ ret → 2 ^ 32 - ret ≤ lcg.totalSize) .totalSizeBelowChange
  pure ⟨lcs, (lcg.totalSize + ret) % 2 ^ 32⟩

/-- Only the first group that contains the channel is updated. -/
def updateLcgs (params : BufferStatusReport) : List SchedulerLcg → Except BufferFault (List SchedulerLcg)
  | [] => .error .unknownLc
  | lcg :: lcgs =>
    if lcg.contains params.lcid = true then do
      let lcg ← lcg.updateInfo params
      pure (lcg :: lcgs)
    else do
      let lcgs ← updateLcgs params lcgs
      pure (lcg :: lcgs)

/-- The channel goes into the group with its id. -/
def insertInGroup (lc : SchedulerLc) (lcGroup : Nat) :
    List Nat → List SchedulerLcg → Except BufferFault (List SchedulerLcg)
  | id :: ids, lcg :: lcgs =>
    if id = lcGroup then do
      let lcg ← lcg.insert lc
      pure (lcg :: lcgs)
    else do
      let lcgs ← insertInGroup lc lcGroup ids lcgs
      pure (lcg :: lcgs)
  | _, lcgs => pure lcgs

namespace NrSlUeMacSchedulerDstInfo

/-- A group that is missing is created empty. -/
def withGroup (dst : NrSlUeMacSchedulerDstInfo) (lcGroup : Nat) : NrSlUeMacSchedulerDstInfo :=
  if lcGroup ∈ dst.lcgIds then dst
  else ⟨{ dst.info with lcgs := dst.info.lcgs ++ [⟨[], 0⟩] }, dst.lcgIds ++ [lcGroup]⟩

end NrSlUeMacSchedulerDstInfo

namespace NrSlUeMacSchedulerNs3

def createDstInfo (scheduler : NrSlUeMacSchedulerNs3) (dstL2Id : Nat) : NrSlUeMacSchedulerDstInfo :=
  (scheduler.dstMap.find? dstL2Id).getD ⟨⟨dstL2Id, scheduler.initialNrSlMcs, []⟩, []⟩

def doCschedUeNrSlLcConfigReq (scheduler : NrSlUeMacSchedulerNs3) (params : SidelinkLogicalChannelInfo) :
    Except BufferFault NrSlUeMacSchedulerNs3 := do
  let dst := (scheduler.createDstInfo params.dstL2Id).withGroup params.lcGroup
  let lcgs ← insertInGroup ⟨params.lcId, params.priority, 0, 0, 0⟩ params.lcGroup dst.lcgIds dst.info.lcgs
  pure { scheduler with
    dstMap := scheduler.dstMap.put params.dstL2Id { dst with info := { dst.info with lcgs := lcgs } } }

def doSchedUeNrSlRlcBufferReq (scheduler : NrSlUeMacSchedulerNs3) (params : BufferStatusReport) :
    Except BufferFault NrSlUeMacSchedulerNs3 := do
  let dst ← orFault .unknownDestination (scheduler.dstMap.find? params.dstL2Id)
  let lcgs ← updateLcgs params dst.info.lcgs
  pure { scheduler with
    dstMap := scheduler.dstMap.put params.dstL2Id { dst with info := { dst.info with lcgs := lcgs } } }

section Trigger

variable {W : Type} (cfg : SchedulerConfig) (getResourceSelections : W → Except Fault (Text × W))

/-- The allocations that go to the MAC, and the scheduler with the sizes that they leave. -/
def doSchedUeNrSlTriggerReq (scheduler : NrSlUeMacSchedulerNs3) (dstL2Id : Nat)
    (txOpps : List NrSlSlotInfo) (draws : Draws) (w : W) :
    Except BufferFault (Scheduled W × NrSlUeMacSchedulerNs3) := do
  let dst ← orFault .unknownDestination (scheduler.dstMap.find? dstL2Id)
  match doNrSlAllocation cfg getResourceSelections txOpps dst.info draws w with
  | .error fault => .error (.allocation fault)
  | .ok scheduled =>
    pure (scheduled, { scheduler with
      dstMap := scheduler.dstMap.put dstL2Id { dst with info := scheduled.dstInfo } })

end Trigger

end NrSlUeMacSchedulerNs3

theorem soleLogicalChannel_of_lcgs {cfg : SchedulerConfig} {dst : SchedulerDstInfo} {lc : SchedulerLc}
    {totalSize : Nat} (h : dst.lcgs = [⟨[lc], totalSize⟩]) : soleLogicalChannel cfg dst = .ok lc := by
  unfold soleLogicalChannel
  rw [h]
  refine (bind_of_ok (a := ()) (require_ok_iff.mpr fun _ => rfl)).trans ?_
  exact bind_of_ok (a := ()) (require_ok_iff.mpr fun _ => rfl)

section Configuration

variable {scheduler : NrSlUeMacSchedulerNs3}

/-- A destination that RRC configures for the first time starts with one empty channel. -/
theorem doCschedUeNrSlLcConfigReq_fresh {params : SidelinkLogicalChannelInfo}
    (hfresh : scheduler.dstMap.find? params.dstL2Id = none) :
    scheduler.doCschedUeNrSlLcConfigReq params =
      .ok { scheduler with
        dstMap := scheduler.dstMap.put params.dstL2Id
          ⟨⟨params.dstL2Id, scheduler.initialNrSlMcs, [⟨[⟨params.lcId, params.priority, 0, 0, 0⟩], 0⟩]⟩,
            [params.lcGroup]⟩ } := by
  have hdst : (scheduler.createDstInfo params.dstL2Id).withGroup params.lcGroup =
      ⟨⟨params.dstL2Id, scheduler.initialNrSlMcs, [⟨[], 0⟩]⟩, [params.lcGroup]⟩ := by
    unfold NrSlUeMacSchedulerNs3.createDstInfo
    rw [hfresh]
    rfl
  have hinsert : insertInGroup ⟨params.lcId, params.priority, 0, 0, 0⟩ params.lcGroup [params.lcGroup]
      [⟨[], 0⟩] = .ok [⟨[⟨params.lcId, params.priority, 0, 0, 0⟩], 0⟩] := by
    unfold insertInGroup
    rw [if_pos rfl]
    rfl
  unfold NrSlUeMacSchedulerNs3.doCschedUeNrSlLcConfigReq
  rw [hdst]
  exact bind_of_ok hinsert

end Configuration

end SidelinkORe
