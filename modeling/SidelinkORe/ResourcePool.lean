import SidelinkORe.SfnSf
import SidelinkORe.Outcome
import Mathlib.Data.Finset.Card

namespace SidelinkORe

/-- Where a run of the program stops: one name for each abort, assertion or undefined access. -/
inductive Fault where
  | t2BelowT2min
  | sensingIteratorPastEnd
  | trimmedBufferEmpty
  | harqAllBusy
  | harqForeignDestination
  | harqIdOutOfRange
  | lcPacketMismatch
  | feedbackForAvailableId
  | logicalChannelMissing
  | harqIdUnassigned
  | keepCounterNegative
  | replacedCounterNegative
  | zeroReselCounter
  | zeroCResel
  | duplicateSlotAllocation
  | emptyGrant
  | emptySlotAllocations
  | gapIteratorPastEnd
  | sciMaxNumPerReserve
  | sciGapNotAllowed
  | sciEqualGaps
  | sciMandatoryUnset
  | gapsNotIncreasing
  | feedbackRetxUnsupported
  | unsupportedPeriod
  | unknownSchedulingType
  | emptyTxOpps
  | txOppsIteratorPastEnd
  | drawFromEmptyList
  | subChannelListTooShort
  | noSubChannels
  | invalidInstruction
  | drawsExhausted
  | notOneLogicalChannel
  | mcsNotFixed
  | noSlotSelected
  | pythonValueError
  | pythonIndexError
  | vectorIndexPastEnd
  | maxNumUesExceeded
  | textOutOfRange
  deriving DecidableEq

/-- PSCCH and PSSCH layout that a pool gives to each of its slots. -/
structure SlotShape where
  numSlPscchRbs : Nat := 0
  slPscchSymStart : Nat := 0
  slPscchSymLength : Nat := 0
  slPsschSymStart : Nat := 0
  slPsschSymLength : Nat := 0
  slSubchannelSize : Nat := 0
  slMaxNumPerReserve : Nat := 1
  deriving DecidableEq

structure SlotInfo where
  shape : SlotShape
  absSlotIndex : Nat
  slotOffset : Nat
  deriving DecidableEq

/-- A candidate slot as the MAC offers it to the scheduler. -/
structure NrSlSlotInfo where
  shape : SlotShape
  sfn : Nat
  occupiedSbCh : Finset Nat
  deriving DecidableEq

/-- The physical pool is a bitmap over consecutive slots. The two conversions to slots divide
floating-point numbers and are taken as given. -/
structure NrSlCommResourcePool where
  phyPool : List Bool
  phyPool_ne_nil : phyPool ≠ []
  shape : SlotShape
  slSelectionWindow : Nat
  numerology : Nat
  resvPeriodInSlots : Nat → Nat
  sensWindInSlots : Nat

namespace NrSlCommResourcePool

variable (pool : NrSlCommResourcePool)

/-- The bit of a slot, whose place in the bitmap is not cut to a type. -/
def isSidelinkSlot (absSlotIndex : Nat) : Bool :=
  pool.phyPool.getD (absSlotIndex % pool.phyPool.length) false

/-- `GetAbsPoolIndex` cuts the index to 16 bits. -/
def getAbsPoolIndex (absSlotIndex : Nat) : Nat := absSlotIndex % pool.phyPool.length % 65536

/-- The bit that `IsSidelinkSlot` reads. -/
def atAbsPoolIndex (absSlotIndex : Nat) : Bool :=
  pool.phyPool.getD (pool.getAbsPoolIndex absSlotIndex) false

def slotInfo (current i : Nat) : SlotInfo where
  shape := pool.shape
  absSlotIndex := i
  slotOffset := i - current

/-- The loop over `count` absolute slots from `i` on, with its running index into the bitmap. -/
def opportunitiesFrom (current : Nat) : Nat → Nat → Nat → List SlotInfo
  | 0, _, _ => []
  | count + 1, i, absPoolIndex =>
    let rest := opportunitiesFrom current count (i + 1) ((absPoolIndex + 1) % pool.phyPool.length)
    if pool.phyPool.getD absPoolIndex false then pool.slotInfo current i :: rest else rest

def getNrSlCommOpportunities (current : Nat) (t1 t2 : Nat) : Except Fault (List SlotInfo) := do
  require (pool.slSelectionWindow * 2 ^ pool.numerology ≤ t2) Fault.t2BelowT2min
  pure (pool.opportunitiesFrom current (t2 + 1 - t1) (current + t1)
    ((current + t1) % pool.phyPool.length))

theorem phyPool_length_pos : 0 < pool.phyPool.length :=
  List.length_pos_iff.mpr pool.phyPool_ne_nil

/-- With at most 65536 slots in the pool nothing is cut off. -/
theorem atAbsPoolIndex_eq (short : pool.phyPool.length ≤ 65536) (absSlotIndex : Nat) :
    pool.atAbsPoolIndex absSlotIndex = pool.isSidelinkSlot absSlotIndex := by
  have hlt := Nat.mod_lt absSlotIndex pool.phyPool_length_pos
  unfold atAbsPoolIndex getAbsPoolIndex
  rw [Nat.mod_eq_of_lt (lt_of_lt_of_le hlt short)]
  rfl

/-- The running index is the absolute slot modulo the pool length. -/
theorem opportunitiesFrom_eq (current : Nat) (count : Nat) (i : Nat) :
    pool.opportunitiesFrom current count i (i % pool.phyPool.length) =
      ((List.range' i count).filter (pool.isSidelinkSlot ·)).map (pool.slotInfo current) := by
  induction count generalizing i with
  | zero => rfl
  | succ count ih =>
    have hnext : (i % pool.phyPool.length + 1) % pool.phyPool.length =
        (i + 1) % pool.phyPool.length := Nat.mod_add_mod i _ 1
    rw [opportunitiesFrom, hnext, ih, List.range'_succ, List.filter_cons]
    change (if pool.isSidelinkSlot i then _ else _) = _
    split <;> rfl

theorem getNrSlCommOpportunities_ok {current : Nat} {t1 t2 : Nat} {opps : List SlotInfo}
    (h : pool.getNrSlCommOpportunities current t1 t2 = .ok opps) :
    opps = ((List.range' (current + t1) (t2 + 1 - t1)).filter (pool.isSidelinkSlot ·)).map
      (pool.slotInfo current) := by
  obtain ⟨_, _, h⟩ := bind_ok_iff.mp h
  rw [← pure_ok_iff.mp h, opportunitiesFrom_eq]

end NrSlCommResourcePool

/-- `GetNrSupportedList`: the offered slots with nothing occupied yet. -/
def getNrSupportedList (sfn : Nat) (slotInfo : List SlotInfo) : List NrSlSlotInfo :=
  slotInfo.map fun it => { shape := it.shape, sfn := sfn + it.slotOffset, occupiedSbCh := ∅ }

namespace NrSlCommResourcePool

variable {pool : NrSlCommResourcePool} {current : Nat} {t1 t2 : Nat} {opps : List SlotInfo}

theorem getNrSupportedList_sfn
    (h : pool.getNrSlCommOpportunities current t1 t2 = .ok opps) :
    (getNrSupportedList current opps).map (·.sfn) =
      (List.range' (current + t1) (t2 + 1 - t1)).filter (pool.isSidelinkSlot ·) := by
  rw [pool.getNrSlCommOpportunities_ok h, getNrSupportedList, List.map_map, List.map_map]
  refine (List.map_congr_left fun i hi => ?_).trans (List.map_id _)
  have hmem := List.mem_range'_1.mp (List.mem_filter.mp hi).1
  change current + (i - current) = i
  omega

theorem mem_getNrSupportedList
    (h : pool.getNrSlCommOpportunities current t1 t2 = .ok opps) {c : NrSlSlotInfo}
    (hc : c ∈ getNrSupportedList current opps) :
    current + t1 ≤ c.sfn ∧ c.sfn ≤ current + t2 ∧ pool.isSidelinkSlot c.sfn = true ∧
      c.shape = pool.shape ∧ c.occupiedSbCh = ∅ := by
  have hsfn := List.mem_map_of_mem (f := (·.sfn)) hc
  rw [getNrSupportedList_sfn h] at hsfn
  obtain ⟨hrange, hsl⟩ := List.mem_filter.mp hsfn
  have hmem := List.mem_range'_1.mp hrange
  obtain ⟨it, hit, rfl⟩ := List.mem_map.mp hc
  rw [pool.getNrSlCommOpportunities_ok h] at hit
  obtain ⟨i, _, rfl⟩ := List.mem_map.mp hit
  exact ⟨hmem.1, by omega, hsl, rfl, rfl⟩

theorem getNrSupportedList_sorted
    (h : pool.getNrSlCommOpportunities current t1 t2 = .ok opps) :
    ((getNrSupportedList current opps).map (·.sfn)).Pairwise (· < ·) := by
  rw [getNrSupportedList_sfn h]
  exact List.Pairwise.filter _ List.pairwise_lt_range'

end NrSlCommResourcePool

end SidelinkORe
