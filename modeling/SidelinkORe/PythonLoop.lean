import SidelinkORe.Scheduler

namespace SidelinkORe

/-- What Python keeps from one message of a UE. -/
structure SensingRecord where
  index : Int
  numExclusions : Int
  rsrpThreshold : Int
  recievedPackets : List ReceivedPacket
  deriving DecidableEq

/-- The variables of the loop; the time is the one of the shared memory, which only
`passSensingData` sets. `E` holds the floating-point estimates of the UEs. -/
structure PythonState (E : Type) where
  time : Nat
  lastImsi : Int
  lastNumExclusions : List Int
  lastRsrpThreshold : List Int
  lastRecievedPackets : List (List ReceivedPacket)
  estimates : E

/-- Overwrite the packets to both sides of the sender, or draw slots. -/
inductive SelectionMode where
  | overwrite (totalTx : Nat) (sortedLChoices sortedRChoices : List ReceivedPacket)
  | draw (nSe : Nat)

section Lists

variable {α : Type}

/-- A negative index counts from the end of the list. -/
def pyIndex (size : Nat) (i : Int) : Except Fault Nat :=
  if 0 ≤ i ∧ i < size then .ok i.toNat
  else if i < 0 ∧ 0 ≤ i + size then .ok (i + size).toNat
  else .error Fault.pythonIndexError

def pyGet (l : List α) (i : Int) : Except Fault α := do
  let k ← pyIndex l.length i
  orFault Fault.pythonIndexError l[k]?

def pySet (l : List α) (i : Int) (a : α) : Except Fault (List α) := do
  let k ← pyIndex l.length i
  pure (l.set k a)

theorem pyIndex_lt {size k : Nat} {i : Int} (h : pyIndex size i = .ok k) : k < size := by
  unfold pyIndex at h
  split at h
  next =>
    obtain rfl := Except.ok.inj h
    omega
  next =>
    split at h
    next =>
      obtain rfl := Except.ok.inj h
      omega
    next => cases h

theorem pyGet_pySet {l l' : List α} {i : Int} {a : α} (h : pySet l i a = .ok l') :
    pyGet l' i = .ok a := by
  obtain ⟨k, hk, h⟩ := bind_ok_iff.mp h
  obtain rfl := pure_ok_iff.mp h
  unfold pyGet
  rw [List.length_set]
  refine bind_ok_iff.mpr ⟨k, hk, orFault_ok_iff.mpr ?_⟩
  exact List.getElem?_set_self (pyIndex_lt hk)

theorem pyGet_of_lt {l : List α} {i : Int} (hlow : 0 ≤ i) (hhigh : i < l.length) :
    ∃ a, l[i.toNat]? = some a ∧ pyGet l i = .ok a := by
  have hlt : i.toNat < l.length := by omega
  refine ⟨l[i.toNat], List.getElem?_eq_getElem hlt, ?_⟩
  rw [pyGet, pyIndex, if_pos ⟨hlow, hhigh⟩]
  exact orFault_ok_iff.mpr (List.getElem?_eq_getElem hlt)

end Lists

section Loop

variable {E : Type}

def initPython (numUe : Nat) (estimates : E) : PythonState E where
  time := 0
  lastImsi := -1
  lastNumExclusions := List.replicate numUe 1000
  lastRsrpThreshold := List.replicate numUe 0
  lastRecievedPackets := List.replicate numUe []
  estimates := estimates

/-- The branch of the loop for `sensningDataFlag == 1`. -/
def loadSensingData (m : SensingMessage) (py : PythonState E) : Except Fault (PythonState E) := do
  let lastNumExclusions ← pySet py.lastNumExclusions (ueIndex m.imsi) m.occupiedResources
  let lastRsrpThreshold ← pySet py.lastRsrpThreshold (ueIndex m.imsi) (m.rsrpThreshold + 110 - 3)
  let packets ← decodePackets (encodePackets m.packets)
  let lastRecievedPackets ← pySet py.lastRecievedPackets (ueIndex m.imsi) packets
  pure ⟨m.time, ueIndex m.imsi, lastNumExclusions, lastRsrpThreshold, lastRecievedPackets,
    py.estimates⟩

/-- The entries of the UE of the last message. -/
def lastRecord (py : PythonState E) : Except Fault SensingRecord := do
  let numExclusions ← pyGet py.lastNumExclusions py.lastImsi
  let rsrpThreshold ← pyGet py.lastRsrpThreshold py.lastImsi
  let recievedPackets ← pyGet py.lastRecievedPackets py.lastImsi
  pure ⟨py.lastImsi, numExclusions, rsrpThreshold, recievedPackets⟩

def selectionText (t1 time : Nat) : SelectionMode → Except Fault Text
  | .overwrite totalTx sortedLChoices sortedRChoices => do
    let chosen ← chosenPackets totalTx sortedLChoices sortedRChoices
    pure (overwriteText t1 time totalTx chosen)
  | .draw nSe => .ok (drawText nSe)

/-- The other branch: the record that it read, the text that it wrote and the new state. The
estimation and the choice between the settings compute with floating-point numbers and are a
parameter. -/
def selectResources (select : E → SensingRecord → Except Fault (SelectionMode × E)) (t1 : Nat)
    (py : PythonState E) : Except Fault (Option SensingRecord × Text × PythonState E) :=
  if -1 < py.lastImsi then do
    let record ← lastRecord py
    let (mode, estimates) ← select py.estimates record
    let text ← selectionText t1 py.time mode
    pure (some record, text, { py with estimates := estimates })
  else .ok (none, drawText 1, py)

/-- The record holds what Python decoded from the message. -/
structure RecordOf (m : SensingMessage) (r : SensingRecord) : Prop where
  index : r.index = ueIndex m.imsi
  numExclusions : r.numExclusions = m.occupiedResources
  rsrpThreshold : r.rsrpThreshold = m.rsrpThreshold + 110 - 3
  recievedPackets : decodePackets (encodePackets m.packets) = .ok r.recievedPackets

theorem RecordOf.packets {m : SensingMessage} {r : SensingRecord} (h : RecordOf m r)
    (hfits : ∀ p ∈ m.packets, FitsColumns p) : r.recievedPackets = m.packets.map receivedOf :=
  Except.ok.inj (h.recievedPackets.symm.trans (decodePackets_encodePackets hfits))

theorem loadSensingData_ok {m : SensingMessage} {py py' : PythonState E}
    (h : loadSensingData m py = .ok py') :
    py'.lastImsi = ueIndex m.imsi ∧ ∃ r, lastRecord py' = .ok r ∧ RecordOf m r := by
  obtain ⟨exclusions, hexclusions, h⟩ := bind_ok_iff.mp h
  obtain ⟨threshold, hthreshold, h⟩ := bind_ok_iff.mp h
  obtain ⟨packets, hpackets, h⟩ := bind_ok_iff.mp h
  obtain ⟨received, hreceived, h⟩ := bind_ok_iff.mp h
  obtain rfl := pure_ok_iff.mp h
  refine ⟨rfl, ⟨ueIndex m.imsi, m.occupiedResources, m.rsrpThreshold + 110 - 3, packets⟩, ?_,
    rfl, rfl, rfl, hpackets⟩
  exact bind_ok_iff.mpr ⟨_, pyGet_pySet hexclusions, bind_ok_iff.mpr ⟨_, pyGet_pySet hthreshold,
    bind_ok_iff.mpr ⟨_, pyGet_pySet hreceived, rfl⟩⟩⟩

variable {select : E → SensingRecord → Except Fault (SelectionMode × E)} {t1 : Nat}
  {py py' : PythonState E} {used : Option SensingRecord} {text : Text}

theorem selectResources_ok (h : selectResources select t1 py = .ok (used, text, py')) :
    py'.lastImsi = py.lastImsi ∧ lastRecord py' = lastRecord py ∧
      ((-1 < py.lastImsi ∧ ∃ r, used = some r ∧ lastRecord py = .ok r) ∨
        (¬-1 < py.lastImsi ∧ used = none)) := by
  unfold selectResources at h
  split at h
  next hlast =>
    obtain ⟨r, hr, h⟩ := bind_ok_iff.mp h
    obtain ⟨⟨mode, estimates⟩, _, h⟩ := bind_ok_iff.mp h
    obtain ⟨text', _, h⟩ := bind_ok_iff.mp h
    obtain ⟨rfl, rfl, rfl⟩ := pure_ok_iff.mp h
    exact ⟨rfl, rfl, Or.inl ⟨hlast, r, rfl, hr⟩⟩
  next hlast =>
    obtain ⟨rfl, rfl, rfl⟩ := Except.ok.inj h
    exact ⟨rfl, rfl, Or.inr ⟨hlast, rfl⟩⟩

theorem ueIndex_nonneg {imsi : Int} (h : 1 ≤ imsi) : 0 ≤ ueIndex imsi := by
  unfold ueIndex
  omega

end Loop

end SidelinkORe
