import SidelinkORe.ResourcePool
import Mathlib.Data.Rat.Defs
import Mathlib.Data.List.Flatten

namespace SidelinkORe

/-- One decoded SCI 1-A; a gap of 255 announces no retransmission. -/
structure SensingData where
  sfn : Nat
  rsvp : Nat := 0
  sbChLength : Nat := 255
  sbChStart : Nat := 255
  prio : Nat := 255
  slRsrp : ℚ := 0
  gapReTx1 : Nat := 255
  sbChStartReTx1 : Nat := 255
  gapReTx2 : Nat := 255
  sbChStartReTx2 : Nat := 255
  corrupt : Bool := false
  rc : Nat := 0
  srcRnti : Int := 0
  deriving DecidableEq

structure SlotSensingData where
  sfn : Nat
  rsvp : Nat
  sbChLength : Nat
  sbChStart : Nat
  prio : Nat
  slRsrp : ℚ
  corrupt : Bool
  rc : Nat
  srcRnti : Int
  deriving DecidableEq

/-- The attributes of the MAC that resource selection reads. -/
structure SelectionConfig where
  pool : NrSlCommResourcePool
  t1 : Nat
  t2 : Nat
  totalSubCh : Nat
  pRsvpTx : Nat
  tproc0 : Nat
  enableSensing : Bool
  slThresPsschRsrp : Int
  resPercentage : Nat
  oReExp : Bool
  imsi : Nat

/-- Subtraction of 64-bit unsigned numbers. -/
def subU64 (a b : Nat) : Nat := (a + 2 ^ 64 - b) % 2 ^ 64

/-- The erasing loop of `UpdateSensingWindow`: `erase` already moves to the next entry, which the
following increment then skips. -/
def eraseOutdated (oldest : Nat) : List SensingData → Except Fault (List SensingData)
  | [] => .ok []
  | [it] => if it.sfn < oldest then .error Fault.sensingIteratorPastEnd else .ok [it]
  | it :: skipped :: rest =>
    if it.sfn < oldest then do
      let rest' ← eraseOutdated oldest rest
      pure (skipped :: rest')
    else .ok (it :: skipped :: rest)

def updateSensingWindow (cfg : SelectionConfig) (sensingData : List SensingData) (sfn : Nat) :
    Except Fault (List SensingData) :=
  eraseOutdated (subU64 sfn cfg.pool.sensWindInSlots) sensingData

/-- The Tproc0 loop from the latest entry backwards; the list is the buffer in reverse. -/
def popLatest (cfg : SelectionConfig) (sfn : Nat) : List SensingData → Except Fault (List SensingData)
  | [] => .error Fault.trimmedBufferEmpty
  | it :: rest =>
    if subU64 sfn it.sfn ≤ cfg.tproc0 then popLatest cfg sfn rest else .ok (it :: rest)

def trimTproc0 (cfg : SelectionConfig) (sfn : Nat) (sensedData : List SensingData) :
    Except Fault (List SensingData) := do
  let kept ← popLatest cfg sfn sensedData.reverse
  pure kept.reverse

section Projection

variable (cfg : SelectionConfig)

def selecWindLen : Nat := (cfg.t2 + 65536 - cfg.t1 + 1) % 65536

/-- The number of periods projected ahead; a slot lasts `1 / 2 ^ numerology` milliseconds. -/
def projectedPeriods (rsvp : Nat) : Nat :=
  let period := rsvp * 2 ^ cfg.pool.numerology
  if period < selecWindLen cfg then (selecWindLen cfg + period - 1) / period else 1

/-- The slots of one reservation period: the one of the SCI and the announced retransmissions. -/
def announcedSlots (sensedData : SensingData) (sfn : Nat) : List SlotSensingData :=
  let sensedSlotData : SlotSensingData :=
    { sfn := sfn, rsvp := sensedData.rsvp, sbChLength := sensedData.sbChLength
      sbChStart := sensedData.sbChStart, prio := sensedData.prio, slRsrp := sensedData.slRsrp
      corrupt := sensedData.corrupt, rc := sensedData.rc, srcRnti := sensedData.srcRnti }
  let reTx1Slot := { sensedSlotData with
    sfn := sfn + sensedData.gapReTx1, sbChStart := sensedData.sbChStartReTx1 }
  let reTx2Slot := { sensedSlotData with
    sfn := sfn + sensedData.gapReTx2, sbChStart := sensedData.sbChStartReTx2 }
  [sensedSlotData] ++ (if sensedData.gapReTx1 ≠ 255 then [reTx1Slot] else []) ++
    (if sensedData.gapReTx2 ≠ 255 then [reTx2Slot] else [])

def getFutSlotsBasedOnSens (sensedData : SensingData) : List SlotSensingData :=
  (List.range (projectedPeriods cfg sensedData.rsvp + 1)).flatMap fun i =>
    announcedSlots sensedData (sensedData.sfn + i * cfg.pool.resvPeriodInSlots sensedData.rsvp)

end Projection

theorem announcedSlots_sender {d : SensingData} {sfn : Nat} {tx : SlotSensingData}
    (h : tx ∈ announcedSlots d sfn) :
    tx.corrupt = d.corrupt ∧ tx.rc = d.rc ∧ tx.srcRnti = d.srcRnti ∧ tx.slRsrp = d.slRsrp ∧
      tx.sbChLength = d.sbChLength := by
  unfold announcedSlots at h
  simp only [List.mem_append, List.mem_singleton] at h
  rcases h with (rfl | h) | h
  · exact ⟨rfl, rfl, rfl, rfl, rfl⟩
  · split at h
    · obtain rfl := List.mem_singleton.mp h
      exact ⟨rfl, rfl, rfl, rfl, rfl⟩
    · simp at h
  · split at h
    · obtain rfl := List.mem_singleton.mp h
      exact ⟨rfl, rfl, rfl, rfl, rfl⟩
    · simp at h

/-- Every projection carries the sender, the power and the length of the sensed message. -/
theorem getFutSlotsBasedOnSens_sender {cfg : SelectionConfig} {d : SensingData}
    {tx : SlotSensingData} (h : tx ∈ getFutSlotsBasedOnSens cfg d) :
    tx.corrupt = d.corrupt ∧ tx.rc = d.rc ∧ tx.srcRnti = d.srcRnti ∧ tx.slRsrp = d.slRsrp ∧
      tx.sbChLength = d.sbChLength := by
  obtain ⟨i, _, htx⟩ := List.mem_flatMap.mp h
  exact announcedSlots_sender htx

theorem popLatest_suffix {cfg : SelectionConfig} {sfn : Nat} {l kept : List SensingData}
    (h : popLatest cfg sfn l = .ok kept) : kept <:+ l ∧ kept ≠ [] := by
  induction l with
  | nil => cases h
  | cons it rest ih =>
    unfold popLatest at h
    split at h
    next =>
      obtain ⟨hsuffix, hne⟩ := ih h
      exact ⟨hsuffix.trans (List.suffix_cons it rest), hne⟩
    next =>
      cases h
      exact ⟨List.suffix_rfl, List.cons_ne_nil it rest⟩

/-- What is left of the sensing buffer is a first part of it, and not empty. -/
theorem trimTproc0_shortens {cfg : SelectionConfig} {sfn : Nat} {l kept : List SensingData}
    (h : trimTproc0 cfg sfn l = .ok kept) : kept <+: l ∧ kept ≠ [] := by
  obtain ⟨r, hr, hk⟩ := bind_ok_iff.mp h
  obtain ⟨hsuffix, hne⟩ := popLatest_suffix hr
  obtain rfl := pure_ok_iff.mp hk
  have hstart := List.reverse_prefix.mpr hsuffix
  rw [List.reverse_reverse] at hstart
  exact ⟨hstart, by simpa using hne⟩

end SidelinkORe
