import SidelinkORe.Interference

namespace SidelinkORe

/-- `NrSpectrumPhy::State`. -/
inductive SpectrumPhyState where
  | idle
  | tx
  | rxData
  | rxDlCtrl
  | rxUlCtrl
  | rxUlSrs
  | ccaBusy
  deriving DecidableEq

/-- A signal on the channel; `slFrame` is what it carries when it is a sidelink frame. -/
structure SpectrumSignal (numRbs : Nat) (M : Type) where
  psd : SpectrumValue numRbs
  duration : Nat
  slFrame : Option M

/-- `SlRxSigParamInfo`: a sidelink frame in reception with the RBs that it has power in. -/
structure SlFrameInfo (numRbs : Nat) (M : Type) where
  psd : SpectrumValue numRbs
  payload : M
  rbBitmap : List (Fin numRbs)

/-- What the simulator calls at its time. -/
inductive SpectrumEvent (numRbs : Nat) where
  | doSubtractSignal (spd : SpectrumValue numRbs) (signalId : UInt32)
  | endRxSlFrame
  | endTx

structure NrSpectrumPhy (numRbs : Nat) (M : Type) where
  state : SpectrumPhyState
  slInterference : NrSlInterference numRbs
  slRxSigParamInfo : List (SlFrameInfo numRbs M)
  firstRxStart : Nat
  firstRxDuration : Nat
  slSinrPerceived : List (SpectrumValue numRbs)
  slSigPerceived : List (SpectrumValue numRbs)

/-- What `EndRxSlFrame` decodes: the frames with the SINR and the power perceived of each. -/
structure SlFrameReception (numRbs : Nat) (M : Type) where
  firstRxStart : Nat
  firstRxDuration : Nat
  frames : List (SlFrameInfo numRbs M)
  slSinrPerceived : List (SpectrumValue numRbs)
  slSigPerceived : List (SpectrumValue numRbs)

namespace NrSpectrumPhy

variable {numRbs : Nat} {M : Type}

def rbMap (psd : SpectrumValue numRbs) : List (Fin numRbs) :=
  (List.finRange numRbs).filter fun rb => psd rb ≠ 0

/-- The first frame of a reception schedules its end; the others must have its start and duration. -/
def startRxSlFrame (now : Nat) (signal : SpectrumSignal numRbs M) (payload : M)
    (phy : NrSpectrumPhy numRbs M) :
    Except InterferenceFault (NrSpectrumPhy numRbs M × List (Nat × SpectrumEvent numRbs)) :=
  match phy.state with
  | .tx | .rxUlCtrl | .rxDlCtrl | .rxUlSrs => .error .invalidState
  | .ccaBusy | .rxData | .idle => do
    let first := phy.slRxSigParamInfo.isEmpty
    if first = true then
      require (phy.state = .idle) .invalidState
    else
      require (phy.state = .rxData ∧ phy.firstRxStart = now ∧ phy.firstRxDuration = signal.duration)
        .invalidState
    let interference ← phy.slInterference.startRx now signal.psd
    pure ({ phy with
      state := .rxData
      slInterference := interference
      slRxSigParamInfo := phy.slRxSigParamInfo ++ [⟨signal.psd, payload, rbMap signal.psd⟩]
      firstRxStart := if first = true then now else phy.firstRxStart
      firstRxDuration := if first = true then signal.duration else phy.firstRxDuration },
      if first = true then [(now + signal.duration, SpectrumEvent.endRxSlFrame)] else [])

/-- `StartRx`: every signal counts as interference; a sidelink frame is received unless the UE
transmits. -/
def startRx (now : Nat) (signal : SpectrumSignal numRbs M) (phy : NrSpectrumPhy numRbs M) :
    Except InterferenceFault (NrSpectrumPhy numRbs M × List (Nat × SpectrumEvent numRbs)) := do
  let (interference, signalId) ← phy.slInterference.addSignal now signal.psd
  let phy := { phy with slInterference := interference }
  let subtract := (now + signal.duration, SpectrumEvent.doSubtractSignal signal.psd signalId)
  match signal.slFrame with
  | none => pure (phy, [subtract])
  | some payload =>
    if phy.state ≠ .tx then
      let (phy, events) ← phy.startRxSlFrame now signal payload
      pure (phy, subtract :: events)
    else
      pure (phy, [subtract])

/-- `StartTxSlCtrlFrames` and `StartTxSlDataFrames` change the state in the same way. -/
def startTxSlFrames (now duration : Nat) (phy : NrSpectrumPhy numRbs M) :
    Except InterferenceFault (NrSpectrumPhy numRbs M × List (Nat × SpectrumEvent numRbs)) :=
  match phy.state with
  | .rxData | .rxDlCtrl | .rxUlCtrl | .tx | .rxUlSrs => .error .invalidState
  | .ccaBusy | .idle => .ok ({ phy with state := .tx }, [(now + duration, .endTx)])

def endTx (phy : NrSpectrumPhy numRbs M) : Except InterferenceFault (NrSpectrumPhy numRbs M) := do
  require (phy.state = .tx) .invalidState
  pure { phy with state := .idle }

/-- The callbacks of the chunk processors run inside `EndRx`, before the frames are decoded. -/
def endRxSlFrame (now : Nat) (phy : NrSpectrumPhy numRbs M) :
    Except InterferenceFault (NrSpectrumPhy numRbs M × SlFrameReception numRbs M) := do
  let (interference, perceived) ← phy.slInterference.endRx now
  let sinr := perceived.sinr.getD phy.slSinrPerceived
  let sig := perceived.signal.getD phy.slSigPerceived
  pure ({ phy with
    state := .idle
    slInterference := interference
    slRxSigParamInfo := []
    slSinrPerceived := sinr
    slSigPerceived := sig }, ⟨phy.firstRxStart, phy.firstRxDuration, phy.slRxSigParamInfo, sinr, sig⟩)

def fire (now : Nat) (phy : NrSpectrumPhy numRbs M) : SpectrumEvent numRbs →
    Except InterferenceFault (NrSpectrumPhy numRbs M × List (SlFrameReception numRbs M))
  | .doSubtractSignal spd signalId => do
    let interference ← phy.slInterference.doSubtractSignal now spd signalId
    pure ({ phy with slInterference := interference }, [])
  | .endRxSlFrame => do
    let (phy, reception) ← phy.endRxSlFrame now
    pure (phy, [reception])
  | .endTx => do
    let phy ← phy.endTx
    pure (phy, [])

end NrSpectrumPhy

/-- A PHY with the simulator's time and the events that are scheduled for it. -/
structure PhySim (numRbs : Nat) (M : Type) where
  now : Nat
  phy : NrSpectrumPhy numRbs M
  events : List (Nat × SpectrumEvent numRbs)

section Steps

variable {numRbs : Nat} {M : Type}

/-- One step: time passes up to the next event at most, a signal arrives, the UE starts to transmit,
or one of the events that are due is called. The log grows by the signals that arrive. -/
inductive PhyStep (x : PhySim numRbs M) : List (Held (SpectrumValue numRbs)) →
    List (SlFrameReception numRbs M) → PhySim numRbs M → Prop
  | elapse (later : Nat) (hlater : x.now ≤ later) (hdue : ∀ e ∈ x.events, later ≤ e.1) :
      PhyStep x [] [] { x with now := later }
  | receive (signal : SpectrumSignal numRbs M) (phy : NrSpectrumPhy numRbs M)
      (events : List (Nat × SpectrumEvent numRbs)) (hrx : x.phy.startRx x.now signal = .ok (phy, events)) :
      PhyStep x [⟨x.now, signal.duration, signal.psd⟩] [] ⟨x.now, phy, x.events ++ events⟩
  | transmit (duration : Nat) (phy : NrSpectrumPhy numRbs M) (events : List (Nat × SpectrumEvent numRbs))
      (htx : x.phy.startTxSlFrames x.now duration = .ok (phy, events)) :
      PhyStep x [] [] ⟨x.now, phy, x.events ++ events⟩
  | due (before after : List (Nat × SpectrumEvent numRbs)) (event : SpectrumEvent numRbs)
      (phy : NrSpectrumPhy numRbs M) (receptions : List (SlFrameReception numRbs M))
      (hevents : x.events = before ++ (x.now, event) :: after)
      (hfire : x.phy.fire x.now event = .ok (phy, receptions)) :
      PhyStep x [] receptions ⟨x.now, phy, before ++ after⟩

/-- The steps from `x` to `y`, with the signals that arrived and the receptions that ended. -/
inductive PhyRun (x : PhySim numRbs M) : List (Held (SpectrumValue numRbs)) →
    List (SlFrameReception numRbs M) → PhySim numRbs M → Prop
  | start : PhyRun x [] [] x
  | next (log new : List (Held (SpectrumValue numRbs))) (out receptions : List (SlFrameReception numRbs M))
      (y z : PhySim numRbs M) (before : PhyRun x log out y) (step : PhyStep y new receptions z) :
      PhyRun x (log ++ new) (out ++ receptions) z

/-- A signal scheduled for subtraction that is not from before the last reset. -/
def liveSubtraction (lastSignalIdBeforeReset : UInt32) : Nat × SpectrumEvent numRbs → Option (Nat × SpectrumValue numRbs)
  | (time, .doSubtractSignal spd signalId) =>
    if 0 < (signalId - lastSignalIdBeforeReset).toInt32 then some (time, spd) else none
  | (_, .endRxSlFrame) => none
  | (_, .endTx) => none

def endOfReception : Nat × SpectrumEvent numRbs → Option Nat
  | (_, .doSubtractSignal _ _) => none
  | (time, .endRxSlFrame) => some time
  | (_, .endTx) => none

/-- The state after the noise power was set with no sidelink frame in reception; signals from before
may still be scheduled for subtraction. -/
structure NoiseSet (x : PhySim numRbs M) : Prop where
  notReceiving : x.phy.slInterference.receiving = false
  noSignal : x.phy.slInterference.allSignals = 0
  lastSignalId : x.phy.slInterference.lastSignalId = x.phy.slInterference.lastSignalIdBeforeReset
  noFrame : x.phy.slRxSigParamInfo = []
  stale : x.events.filterMap (liveSubtraction x.phy.slInterference.lastSignalIdBeforeReset) = []
  noEnd : x.events.filterMap endOfReception = []

/-- The SINR and the power perceived of each frame, by the signals that arrived: for every RB the
SINR is the mean, over the instants of the reception, of the power of the frame by that of all other
signals on the channel and the noise. -/
structure PerceivesMeans (log : List (Held (SpectrumValue numRbs))) (noise : SpectrumValue numRbs)
    (r : SlFrameReception numRbs M) : Prop where
  sinr : List.Forall₂ (fun frame v => ∃ k, log[k]? = some ⟨r.firstRxStart, r.firstRxDuration, frame.psd⟩ ∧
    ∀ rb, v rb = (∑ t ∈ Finset.Ico r.firstRxStart (r.firstRxStart + r.firstRxDuration),
      frame.psd rb / (heldAt (log.eraseIdx k) t rb + noise rb)) / (r.firstRxDuration : ℚ))
    r.frames r.slSinrPerceived
  signal : r.slSigPerceived = r.frames.map SlFrameInfo.psd

end Steps

section Interference

variable {numRbs : Nat} {s s' : NrSlInterference numRbs} {level : Nat → SpectrumValue numRbs}
  {noise : SpectrumValue numRbs} {start now : Nat}

/-- The chunk values cover the instants from `start` to the last change, since which the total power
has stayed the same. -/
structure Tracks (level : Nat → SpectrumValue numRbs) (start now : Nat) (s : NrSlInterference numRbs) :
    Prop where
  change_le : s.lastChangeTime ≤ now
  start_le : start ≤ s.lastChangeTime
  unchanged : ∀ t, s.lastChangeTime ≤ t → t < now → level t = s.allSignals
  chunks : ChunksHold level s.noise start s.lastChangeTime s.rxSignal s.chunks

/-- After the evaluation nothing but the chunk values and the time of the last change is different,
and a reception is covered up to now. -/
theorem conditionallyEvaluateChunk_ok (htracks : s.receiving = true → Tracks level start now s) :
    ∃ chunks last, s.conditionallyEvaluateChunk now = .ok { s with chunks := chunks, lastChangeTime := last } ∧
      (s.receiving = true → last = now ∧ ChunksHold level s.noise start now s.rxSignal chunks) := by
  unfold NrSlInterference.conditionallyEvaluateChunk
  by_cases hchange : s.receiving = true ∧ s.lastChangeTime < now
  · have ht := htracks hchange.1
    obtain ⟨chunks, hloop, hchunks⟩ := ht.chunks.evaluate ht.change_le ht.unchanged
    refine ⟨chunks, now, ?_, fun _ => ⟨rfl, hchunks⟩⟩
    rw [if_pos hchange, hloop]
    rfl
  · refine ⟨s.chunks, s.lastChangeTime, if_neg hchange, fun hrx => ?_⟩
    have ht := htracks hrx
    have hlast : s.lastChangeTime = now := by
      have hle := ht.change_le
      have hnot : ¬s.lastChangeTime < now := fun hlt => hchange ⟨hrx, hlt⟩
      omega
    exact ⟨hlast, hlast ▸ ht.chunks⟩

theorem toInt32_pos_iff (d : UInt32) : 0 < d.toInt32 ↔ 0 < d.toNat ∧ d.toNat < 2 ^ 31 := by
  rw [Int32.lt_iff_toInt_lt]
  show 0 < d.toBitVec.toInt ↔ _
  rw [BitVec.toInt_eq_toNat_cond]
  have hlt : d.toBitVec.toNat < 2 ^ 32 := d.toBitVec.isLt
  show _ ↔ 0 < d.toBitVec.toNat ∧ d.toBitVec.toNat < 2 ^ 31
  split <;> omega

/-- The ids given out since the reset are in front of it as long as there are less than `2 ^ 31`. -/
theorem signalId_live {before last : UInt32} {count : Nat} (hlast : last.toNat = (before.toNat + count) % 2 ^ 32)
    (hcount : count + 1 < 2 ^ 31) : 0 < (last + 1 - before).toInt32 := by
  rw [toInt32_pos_iff, UInt32.toNat_sub, UInt32.toNat_add]
  have hone : (1 : UInt32).toNat = 1 := rfl
  have hbefore := before.toNat_lt
  omega

end Interference

section Invariant

variable {numRbs : Nat} {M : Type} {before : UInt32} {noise : SpectrumValue numRbs}
  {log : List (Held (SpectrumValue numRbs))} {x y z : PhySim numRbs M}

/-- The frames in reception started together and are in the log; their chunk values are up to date. -/
structure InReception (log : List (Held (SpectrumValue numRbs))) (now : Nat) (phy : NrSpectrumPhy numRbs M) :
    Prop where
  nonempty : phy.slInterference.rxSignal ≠ []
  inLog : ∀ signal ∈ phy.slInterference.rxSignal,
    ∃ k : Nat, log[k]? = some ⟨phy.firstRxStart, phy.firstRxDuration, signal⟩
  tracks : Tracks (heldAt log) phy.firstRxStart now phy.slInterference

/-- What every step keeps in the states after the noise was set. -/
structure PhyInvariant (before : UInt32) (noise : SpectrumValue numRbs)
    (log : List (Held (SpectrumValue numRbs))) (x : PhySim numRbs M) : Prop where
  beforeReset : x.phy.slInterference.lastSignalIdBeforeReset = before
  noise : x.phy.slInterference.noise = noise
  lastId : x.phy.slInterference.lastSignalId.toNat = (before.toNat + log.length) % 2 ^ 32
  pending : ∃ pend, Outstanding x.now log pend ∧
    x.events.filterMap (liveSubtraction before) = pend.map (fun h => (h.finish, h.value)) ∧
    x.phy.slInterference.allSignals = (pend.map Held.value).sum
  ends : x.events.filterMap endOfReception =
    if x.phy.slInterference.receiving = true then [x.phy.firstRxStart + x.phy.firstRxDuration] else []
  frames : x.phy.slRxSigParamInfo.map SlFrameInfo.psd =
    if x.phy.slInterference.receiving = true then x.phy.slInterference.rxSignal else []
  reception : x.phy.slInterference.receiving = true → InReception log x.now x.phy

theorem NoiseSet.invariant (h : NoiseSet x) : PhyInvariant x.phy.slInterference.lastSignalIdBeforeReset
    x.phy.slInterference.noise [] x where
  beforeReset := rfl
  noise := rfl
  lastId := by
    have hlt := x.phy.slInterference.lastSignalIdBeforeReset.toNat_lt
    rw [h.lastSignalId]
    simp only [List.length_nil]
    omega
  pending := ⟨[], Outstanding.start x.now, h.stale, h.noSignal⟩
  ends := by rw [h.noEnd, h.notReceiving]; rfl
  frames := by rw [h.noFrame, h.notReceiving]; rfl
  reception := by simp [h.notReceiving]

theorem liveSubtraction_time {e : Nat × SpectrumEvent numRbs} {p : Nat × SpectrumValue numRbs}
    (h : liveSubtraction before e = some p) : p.1 = e.1 := by
  obtain ⟨time, event⟩ := e
  cases event with
  | doSubtractSignal spd signalId =>
    simp only [liveSubtraction] at h
    split at h
    next => rw [← Option.some.inj h]
    next => cases h
  | endRxSlFrame => cases h
  | endTx => cases h

/-- The pending signals finish at the times for which their subtraction is scheduled. -/
theorem pending_finish {events : List (Nat × SpectrumEvent numRbs)} {pend : List (Held (SpectrumValue numRbs))}
    (hlive : events.filterMap (liveSubtraction before) = pend.map fun h => (h.finish, h.value))
    {h : Held (SpectrumValue numRbs)} (hmem : h ∈ pend) : ∃ e ∈ events, e.1 = h.finish := by
  have hin : (h.finish, h.value) ∈ events.filterMap (liveSubtraction before) := by
    rw [hlive]
    exact List.mem_map_of_mem (f := fun h : Held (SpectrumValue numRbs) => (h.finish, h.value)) hmem
  obtain ⟨e, he, hsome⟩ := List.mem_filterMap.mp hin
  exact ⟨e, he, (liveSubtraction_time hsome).symm⟩

theorem PhyInvariant.elapse (hi : PhyInvariant before noise log x) {later : Nat} (hlater : x.now ≤ later)
    (hdue : ∀ e ∈ x.events, later ≤ e.1) : PhyInvariant before noise log { x with now := later } where
  beforeReset := hi.beforeReset
  noise := hi.noise
  lastId := hi.lastId
  pending := by
    obtain ⟨pend, hout, hlive, hsum⟩ := hi.pending
    refine ⟨pend, hout.advance hlater fun h hmem => ?_, hlive, hsum⟩
    obtain ⟨e, he, hfinish⟩ := pending_finish hlive hmem
    exact hfinish ▸ hdue e he
  ends := hi.ends
  frames := hi.frames
  reception := by
    intro hrx
    have hr := hi.reception hrx
    obtain ⟨pend, hout, hlive, hsum⟩ := hi.pending
    refine ⟨hr.nonempty, hr.inLog, hr.tracks.change_le.trans hlater, hr.tracks.start_le, ?_, hr.tracks.chunks⟩
    intro t hlow hhigh
    by_cases hnow : t < x.now
    · exact hr.tracks.unchanged t hlow hnow
    · show heldAt log t = x.phy.slInterference.allSignals
      rw [hsum]
      refine hout.heldAt_eq (by omega) fun h hmem => ?_
      obtain ⟨e, he, hfinish⟩ := pending_finish hlive hmem
      have hahead := hdue e he
      have hbefore : t < later := hhigh
      omega

/-- The frames in reception stay what they are when the log grows. -/
theorem getElem?_append_of_some {new : List (Held (SpectrumValue numRbs))} {k : Nat}
    {h : Held (SpectrumValue numRbs)} (hk : log[k]? = some h) : (log ++ new)[k]? = some h := by
  obtain ⟨hlt, _⟩ := List.getElem?_eq_some_iff.mp hk
  rw [List.getElem?_append_left hlt, hk]

theorem ChunksHold.append {a b now duration : Nat} {psd : SpectrumValue numRbs}
    {signals : List (SpectrumValue numRbs)} {chunks : ChunkProcessors numRbs}
    (h : ChunksHold (heldAt log) noise a b signals chunks) (hb : b ≤ now) :
    ChunksHold (heldAt (log ++ [⟨now, duration, psd⟩])) noise a b signals chunks := by
  refine h.congr fun t _ hhigh => (heldAt_append_later fun x hx => ?_).symm
  obtain rfl := List.mem_singleton.mp hx
  show t < now
  omega

/-- `AddSignal` puts the signal into the log, the total power and the simulator's list. -/
theorem PhyInvariant.addSignal (hi : PhyInvariant before noise log x) (psd : SpectrumValue numRbs)
    (duration : Nat) (hcount : log.length + 1 < 2 ^ 31) :
    ∃ interference signalId, x.phy.slInterference.addSignal x.now psd = .ok (interference, signalId) ∧
      interference.receiving = x.phy.slInterference.receiving ∧
      (interference.receiving = true → interference.lastChangeTime = x.now) ∧
      PhyInvariant before noise (log ++ [⟨x.now, duration, psd⟩])
        ⟨x.now, { x.phy with slInterference := interference },
          x.events ++ [(x.now + duration, .doSubtractSignal psd signalId)]⟩ := by
  obtain ⟨chunks, last, heval, hchunks⟩ :=
    conditionallyEvaluateChunk_ok (fun hrx => (hi.reception hrx).tracks)
  have hlive := signalId_live hi.lastId hcount
  have hnobump : x.phy.slInterference.lastSignalId + 1 ≠ x.phy.slInterference.lastSignalIdBeforeReset := by
    intro heq
    rw [heq, hi.beforeReset, toInt32_pos_iff] at hlive
    simp at hlive
  have hadd : x.phy.slInterference.addSignal x.now psd = .ok ({ x.phy.slInterference with
      chunks := chunks
      lastChangeTime := last
      allSignals := x.phy.slInterference.allSignals + psd
      lastSignalId := x.phy.slInterference.lastSignalId + 1 }, x.phy.slInterference.lastSignalId + 1) := by
    unfold NrSlInterference.addSignal
    rw [heval]
    show Except.ok _ = Except.ok _
    simp only [if_neg hnobump]
  refine ⟨_, _, hadd, rfl, ?_, ?_⟩
  · exact fun hrx => (hchunks hrx).1
  · exact {
      beforeReset := hi.beforeReset
      noise := hi.noise
      lastId := by
        have hl := hi.lastId
        show (x.phy.slInterference.lastSignalId + 1).toNat = _
        rw [UInt32.toNat_add, List.length_append]
        have hone : (1 : UInt32).toNat = 1 := rfl
        simp only [List.length_singleton]
        omega
      pending := by
        obtain ⟨pend, hout, hpend, hsum⟩ := hi.pending
        refine ⟨pend ++ [⟨x.now, duration, psd⟩], hout.add rfl, ?_, ?_⟩
        · have hnew : liveSubtraction before (x.now + duration,
              SpectrumEvent.doSubtractSignal psd (x.phy.slInterference.lastSignalId + 1)) =
              some (x.now + duration, psd) := if_pos hlive
          rw [List.filterMap_append, hpend, List.map_append, List.filterMap_cons_some hnew]
          rfl
        · show x.phy.slInterference.allSignals + psd = _
          rw [hsum]
          simp
      ends := by
        rw [List.filterMap_append, hi.ends]
        simp [endOfReception]
      frames := hi.frames
      reception := by
        intro hrx
        have hr := hi.reception hrx
        obtain ⟨hlast, hc⟩ := hchunks hrx
        refine ⟨hr.nonempty, fun signal hmem => ?_, ?_⟩
        · obtain ⟨k, hk⟩ := hr.inLog signal hmem
          exact ⟨k, getElem?_append_of_some hk⟩
        · subst hlast
          refine ⟨le_rfl, hr.tracks.start_le.trans hr.tracks.change_le, fun t hlow hhigh => ?_, hc.append le_rfl⟩
          exact absurd hhigh (Nat.not_lt.mpr hlow) }

/-- What `StartRxSlFrame` does: the first frame of a reception fixes its start and duration, the
others are added to it. -/
theorem startRxSlFrame_cases {now : Nat} {signal : SpectrumSignal numRbs M} {payload : M}
    {events : List (Nat × SpectrumEvent numRbs)} {phy phy' : NrSpectrumPhy numRbs M}
    (h : phy.startRxSlFrame now signal payload = .ok (phy', events)) :
    ∃ interference, phy.slInterference.startRx now signal.psd = .ok interference ∧
      ((phy.slRxSigParamInfo = [] ∧ events = [(now + signal.duration, .endRxSlFrame)] ∧
        phy' = { phy with
          state := .rxData
          slInterference := interference
          slRxSigParamInfo := [⟨signal.psd, payload, NrSpectrumPhy.rbMap signal.psd⟩]
          firstRxStart := now
          firstRxDuration := signal.duration }) ∨
      (phy.slRxSigParamInfo ≠ [] ∧ events = [] ∧ phy.firstRxStart = now ∧
        phy.firstRxDuration = signal.duration ∧
        phy' = { phy with
          state := .rxData
          slInterference := interference
          slRxSigParamInfo :=
            phy.slRxSigParamInfo ++ [⟨signal.psd, payload, NrSpectrumPhy.rbMap signal.psd⟩] })) := by
  unfold NrSpectrumPhy.startRxSlFrame at h
  cases hinfo : phy.slRxSigParamInfo with
  | nil =>
    simp only [hinfo, List.isEmpty_nil, ↓reduceIte] at h
    split at h
    any_goals cases h
    all_goals
      obtain ⟨_, _, h⟩ := bind_ok_iff.mp h
      obtain ⟨interference, hinterf, h⟩ := bind_ok_iff.mp h
      obtain ⟨rfl, rfl⟩ := Prod.mk.inj (pure_ok_iff.mp h)
      exact ⟨interference, hinterf, Or.inl ⟨rfl, rfl, rfl⟩⟩
  | cons frame rest =>
    simp only [hinfo, List.isEmpty_cons, Bool.false_eq_true, ↓reduceIte] at h
    split at h
    any_goals cases h
    all_goals
      obtain ⟨_, hsame, h⟩ := bind_ok_iff.mp h
      obtain ⟨_, hstart, hduration⟩ := require_ok_iff.mp hsame
      obtain ⟨interference, hinterf, h⟩ := bind_ok_iff.mp h
      obtain ⟨rfl, rfl⟩ := Prod.mk.inj (pure_ok_iff.mp h)
      exact ⟨interference, hinterf, Or.inr ⟨by simp, rfl, hstart, hduration, rfl⟩⟩

theorem interference_startRx_eq {now : Nat} {psd : SpectrumValue numRbs} {s s' : NrSlInterference numRbs}
    (h : s.startRx now psd = .ok s') : s' = { s with
      receiving := true
      rxSignal := (if (!s.receiving) = true then [] else s.rxSignal) ++ [psd]
      lastChangeTime := now
      chunks :=
        { rsPower := s.chunks.rsPower.start (!s.receiving)
          interf := s.chunks.interf.start (!s.receiving)
          sinr := s.chunks.sinr.start (!s.receiving) } } := by
  obtain ⟨_, _, h⟩ := bind_ok_iff.mp h
  exact (pure_ok_iff.mp h).symm

theorem PhyInvariant.noFrames (hi : PhyInvariant before noise log x) :
    x.phy.slRxSigParamInfo = [] ↔ x.phy.slInterference.receiving = false := by
  have hframes := hi.frames
  constructor
  · intro hempty
    by_contra hrx
    have hreceiving : x.phy.slInterference.receiving = true := by simpa using hrx
    rw [if_pos hreceiving, hempty] at hframes
    exact (hi.reception hreceiving).nonempty hframes.symm
  · intro hnot
    rw [hnot, if_neg Bool.false_ne_true] at hframes
    exact List.map_eq_nil_iff.mp hframes

/-- A sidelink frame whose signal has just been put into the log. -/
theorem PhyInvariant.startRxSlFrame {signal : SpectrumSignal numRbs M} {payload : M}
    {events : List (Nat × SpectrumEvent numRbs)} {phy : NrSpectrumPhy numRbs M} {k : Nat}
    (hi : PhyInvariant before noise log x) (hnew : log[k]? = some ⟨x.now, signal.duration, signal.psd⟩)
    (hchange : x.phy.slInterference.receiving = true → x.phy.slInterference.lastChangeTime = x.now)
    (hrx : x.phy.startRxSlFrame x.now signal payload = .ok (phy, events)) :
    PhyInvariant before noise log ⟨x.now, phy, x.events ++ events⟩ := by
  obtain ⟨interference, hinterf, hcases⟩ := startRxSlFrame_cases hrx
  obtain rfl := interference_startRx_eq hinterf
  obtain ⟨pend, hout, hlive, hsum⟩ := hi.pending
  have hframes := hi.frames
  have hends := hi.ends
  rcases hcases with ⟨hnone, rfl, rfl⟩ | ⟨hsome, rfl, hstart, hduration, rfl⟩
  · have hnot := hi.noFrames.mp hnone
    rw [hnot, if_neg Bool.false_ne_true] at hends
    refine ⟨hi.beforeReset, hi.noise, hi.lastId, ⟨pend, hout, ?_, hsum⟩, ?_, ?_, fun _ => ?_⟩
    · rw [List.filterMap_append, hlive]
      simp [liveSubtraction]
    · rw [List.filterMap_append, hends]
      rfl
    · simp [hnot]
    · refine ⟨by simp, ?_, le_rfl, le_rfl, fun t hlow hhigh => absurd hhigh (Nat.not_lt.mpr hlow), ?_⟩
      · intro psd hmem
        simp only [hnot, Bool.not_false, ↓reduceIte, List.nil_append, List.mem_singleton] at hmem
        exact ⟨k, hmem ▸ hnew⟩
      · simp only [hnot, Bool.not_false, ↓reduceIte, List.nil_append]
        have hone : ∀ f : SpectrumValue numRbs → Nat → SpectrumValue numRbs,
            Accumulates [signal.psd] [⟨none, 0⟩] f x.now x.now := fun f =>
          List.Forall₂.cons (sums_start _ _) List.Forall₂.nil
        exact ⟨hone _, hone _, hone _⟩
  · have hreceiving : x.phy.slInterference.receiving = true := by
      by_contra hnot
      exact hsome (hi.noFrames.mpr (by simpa using hnot))
    have hr := hi.reception hreceiving
    have hlast := hchange hreceiving
    have hc := hr.tracks.chunks
    have hbegin : x.phy.firstRxStart = x.phy.slInterference.lastChangeTime := hstart.trans hlast.symm
    rw [if_pos hreceiving] at hframes
    refine ⟨hi.beforeReset, hi.noise, hi.lastId, ⟨pend, hout, ?_, hsum⟩, ?_, ?_, fun _ => ?_⟩
    · rw [List.append_nil, hlive]
    · rw [List.append_nil, hends, if_pos hreceiving]
      rfl
    · rw [List.map_append, hframes]
      simp [hreceiving]
    · refine ⟨by simp, ?_, le_rfl, hstart.le, fun t hlow hhigh => absurd hhigh (Nat.not_lt.mpr hlow), ?_⟩
      · intro psd hmem
        simp only [hreceiving, Bool.not_true, Bool.false_eq_true, ↓reduceIte, List.mem_append,
          List.mem_singleton] at hmem
        rcases hmem with hmem | rfl
        · exact hr.inLog psd hmem
        · exact ⟨k, by rw [hnew, hstart, hduration]⟩
      · simp only [hreceiving, Bool.not_true, Bool.false_eq_true, ↓reduceIte]
        rw [hbegin, hlast] at hc
        rw [hstart]
        exact ⟨hc.rsPower.start _, hc.interf.start _, hc.sinr.start _⟩

theorem PhyInvariant.receive (hi : PhyInvariant before noise log x) {signal : SpectrumSignal numRbs M}
    {events : List (Nat × SpectrumEvent numRbs)} {phy : NrSpectrumPhy numRbs M}
    (hcount : log.length + 1 < 2 ^ 31) (hrx : x.phy.startRx x.now signal = .ok (phy, events)) :
    PhyInvariant before noise (log ++ [⟨x.now, signal.duration, signal.psd⟩])
      ⟨x.now, phy, x.events ++ events⟩ := by
  obtain ⟨interference, signalId, hadd, _, hchange, hadded⟩ :=
    hi.addSignal signal.psd signal.duration hcount
  obtain ⟨⟨_, _⟩, hadd', hrx⟩ := bind_ok_iff.mp hrx
  obtain ⟨rfl, rfl⟩ := Prod.mk.inj (Except.ok.inj (hadd.symm.trans hadd'))
  have hnew : (log ++ [⟨x.now, signal.duration, signal.psd⟩])[log.length]? =
      some (⟨x.now, signal.duration, signal.psd⟩ : Held (SpectrumValue numRbs)) := by simp
  dsimp only at hrx
  split at hrx
  next =>
    obtain ⟨rfl, rfl⟩ := Prod.mk.inj (pure_ok_iff.mp hrx)
    exact hadded
  next payload _ =>
    split at hrx
    next =>
      obtain ⟨⟨_, more⟩, hframe, hrx⟩ := bind_ok_iff.mp hrx
      obtain ⟨rfl, rfl⟩ := Prod.mk.inj (pure_ok_iff.mp hrx)
      have hstarted := hadded.startRxSlFrame hnew hchange hframe
      rw [List.append_assoc] at hstarted
      exact hstarted
    next =>
      obtain ⟨rfl, rfl⟩ := Prod.mk.inj (pure_ok_iff.mp hrx)
      exact hadded

/-- A change of the state and events without a signal or a reception. -/
theorem PhyInvariant.frame (hi : PhyInvariant before noise log x) {state : SpectrumPhyState}
    {events : List (Nat × SpectrumEvent numRbs)}
    (hlive : events.filterMap (liveSubtraction before) = x.events.filterMap (liveSubtraction before))
    (hends : events.filterMap endOfReception = x.events.filterMap endOfReception) :
    PhyInvariant before noise log ⟨x.now, { x.phy with state := state }, events⟩ where
  beforeReset := hi.beforeReset
  noise := hi.noise
  lastId := hi.lastId
  pending := by
    obtain ⟨pend, hout, hpend, hsum⟩ := hi.pending
    exact ⟨pend, hout, hlive.trans hpend, hsum⟩
  ends := hends.trans hi.ends
  frames := hi.frames
  reception := fun hrx => ⟨(hi.reception hrx).nonempty, (hi.reception hrx).inLog, (hi.reception hrx).tracks⟩

theorem PhyInvariant.transmit (hi : PhyInvariant before noise log x) {duration : Nat}
    {events : List (Nat × SpectrumEvent numRbs)} {phy : NrSpectrumPhy numRbs M}
    (htx : x.phy.startTxSlFrames x.now duration = .ok (phy, events)) :
    PhyInvariant before noise log ⟨x.now, phy, x.events ++ events⟩ := by
  unfold NrSpectrumPhy.startTxSlFrames at htx
  split at htx
  any_goals cases htx
  all_goals
    refine hi.frame ?_ ?_
    · simp [List.filterMap_append, liveSubtraction]
    · simp [List.filterMap_append, endOfReception]

theorem PhyInvariant.subtract (hi : PhyInvariant before noise log x) {spd : SpectrumValue numRbs}
    {signalId : UInt32} {first rest : List (Nat × SpectrumEvent numRbs)}
    {interference : NrSlInterference numRbs}
    (hevents : x.events = first ++ (x.now, .doSubtractSignal spd signalId) :: rest)
    (hsub : x.phy.slInterference.doSubtractSignal x.now spd signalId = .ok interference) :
    PhyInvariant before noise log ⟨x.now, { x.phy with slInterference := interference }, first ++ rest⟩ := by
  obtain ⟨chunks, last, heval, hchunks⟩ :=
    conditionallyEvaluateChunk_ok (fun hrx => (hi.reception hrx).tracks)
  unfold NrSlInterference.doSubtractSignal at hsub
  rw [heval] at hsub
  obtain rfl := (pure_ok_iff.mp hsub).symm
  obtain ⟨pend, hout, hlive, hsum⟩ := hi.pending
  have hends := hi.ends
  rw [hevents, List.filterMap_append, List.filterMap_cons_none rfl, ← List.filterMap_append] at hends
  rw [hevents, List.filterMap_append] at hlive
  have hreception : x.phy.slInterference.receiving = true →
      ∀ all, InReception log x.now { x.phy with slInterference := { x.phy.slInterference with
        chunks := chunks
        lastChangeTime := last
        allSignals := all } } := by
    intro hrx all
    have hr := hi.reception hrx
    obtain ⟨rfl, hc⟩ := hchunks hrx
    refine ⟨hr.nonempty, hr.inLog, le_rfl, hr.tracks.start_le.trans hr.tracks.change_le, ?_, hc⟩
    exact fun t hlow hhigh => absurd hhigh (Nat.not_lt.mpr hlow)
  by_cases hdelta : 0 < (signalId - x.phy.slInterference.lastSignalIdBeforeReset).toInt32
  · have hhere : liveSubtraction before (x.now, SpectrumEvent.doSubtractSignal spd signalId) =
        some (x.now, spd) := if_pos (hi.beforeReset ▸ hdelta)
    rw [List.filterMap_cons_some hhere] at hlive
    obtain ⟨pend₁, pend₂, rfl, hfirst, hrest⟩ := List.map_eq_append_iff.mp hlive.symm
    obtain ⟨h, pend₂, rfl, hsame, hafter⟩ := List.map_eq_cons_iff.mp hrest
    obtain ⟨hfinish, hvalue⟩ := Prod.mk.inj hsame
    rw [if_pos hdelta]
    refine ⟨hi.beforeReset, hi.noise, hi.lastId, ⟨pend₁ ++ pend₂, ?_, ?_, ?_⟩, hends, hi.frames,
      fun hrx => hreception hrx _⟩
    · exact hout.remove List.perm_middle hfinish.le
    · rw [List.filterMap_append, ← hfirst, ← hafter, List.map_append]
    · show x.phy.slInterference.allSignals - spd = _
      rw [hsum, ← hvalue]
      simp only [List.map_append, List.map_cons, List.sum_append, List.sum_cons]
      rw [add_left_comm, add_sub_cancel_left]
  · have hhere : liveSubtraction before (x.now, SpectrumEvent.doSubtractSignal spd signalId) = none :=
      if_neg (hi.beforeReset ▸ hdelta)
    rw [List.filterMap_cons_none hhere, ← List.filterMap_append] at hlive
    rw [if_neg hdelta]
    exact ⟨hi.beforeReset, hi.noise, hi.lastId, ⟨pend, hout, hlive, hsum⟩, hends, hi.frames,
      fun hrx => hreception hrx _⟩

theorem PhyInvariant.end_due (hi : PhyInvariant before noise log x)
    {first rest : List (Nat × SpectrumEvent numRbs)}
    (hevents : x.events = first ++ (x.now, .endRxSlFrame) :: rest) :
    x.phy.slInterference.receiving = true ∧ x.now = x.phy.firstRxStart + x.phy.firstRxDuration ∧
      (first ++ rest).filterMap endOfReception = [] := by
  have hends := hi.ends
  have hhere : endOfReception (x.now, (SpectrumEvent.endRxSlFrame : SpectrumEvent numRbs)) = some x.now := rfl
  rw [hevents, List.filterMap_append, List.filterMap_cons_some hhere] at hends
  by_cases hrx : x.phy.slInterference.receiving = true
  · rw [if_pos hrx] at hends
    obtain ⟨hfirst, hcons⟩ | ⟨_, hcons⟩ := List.append_eq_singleton_iff.mp hends
    · obtain ⟨hnow, hrest⟩ := List.cons_eq_cons.mp hcons
      exact ⟨hrx, hnow, by rw [List.filterMap_append, hfirst, hrest]; rfl⟩
    · cases hcons
  · rw [if_neg hrx] at hends
    obtain ⟨_, hcons⟩ := List.append_eq_nil_iff.mp hends
    cases hcons

/-- The interference that a logged signal sees is the power of the others. -/
theorem interference_of_logged {k duration start : Nat} {psd : SpectrumValue numRbs} {t : Nat}
    (hk : log[k]? = some ⟨start, duration, psd⟩) (hlow : start ≤ t) (hhigh : t < start + duration) :
    heldAt log t - psd = heldAt (log.eraseIdx k) t := by
  rw [heldAt_eraseIdx hk ⟨hlow, hhigh⟩, add_sub_cancel_left]

theorem PhyInvariant.endRx (hi : PhyInvariant before noise log x)
    {first rest : List (Nat × SpectrumEvent numRbs)}
    {phy : NrSpectrumPhy numRbs M} {r : SlFrameReception numRbs M}
    (hevents : x.events = first ++ (x.now, .endRxSlFrame) :: rest)
    (hend : x.phy.endRxSlFrame x.now = .ok (phy, r)) :
    PhyInvariant before noise log ⟨x.now, phy, first ++ rest⟩ ∧
      r.firstRxStart + r.firstRxDuration = x.now ∧
      (0 < r.firstRxDuration → PerceivesMeans log noise r) := by
  obtain ⟨hrx, hnow, hnoEnd⟩ := hi.end_due hevents
  have hr := hi.reception hrx
  obtain ⟨chunks, last, heval, hchunks⟩ := conditionallyEvaluateChunk_ok (fun _ => hr.tracks)
  obtain ⟨hlast, hc⟩ := hchunks hrx
  obtain ⟨⟨interference, perceived⟩, hendRx, hend⟩ := bind_ok_iff.mp hend
  obtain ⟨rfl, rfl⟩ := Prod.mk.inj (pure_ok_iff.mp hend)
  unfold NrSlInterference.endRx at hendRx
  rw [if_pos hrx, heval] at hendRx
  obtain ⟨evaluated, hevaluated, hendRx⟩ := bind_ok_iff.mp hendRx
  obtain rfl := Except.ok.inj hevaluated
  obtain ⟨signal, hsignal, hendRx⟩ := bind_ok_iff.mp hendRx
  obtain ⟨interf, hinterf, hendRx⟩ := bind_ok_iff.mp hendRx
  obtain ⟨sinr, hsinr, hendRx⟩ := bind_ok_iff.mp hendRx
  obtain ⟨rfl, rfl⟩ := Prod.mk.inj (pure_ok_iff.mp hendRx)
  have hlive := hi.pending
  rw [hevents, List.filterMap_append, List.filterMap_cons_none rfl, ← List.filterMap_append] at hlive
  have hframes := hi.frames
  rw [if_pos hrx] at hframes
  refine ⟨⟨hi.beforeReset, hi.noise, hi.lastId, hlive, hnoEnd, rfl, fun h => by cases h⟩, hnow.symm, ?_⟩
  intro hduration
  have hlt : x.phy.firstRxStart < x.now := by
    rw [hnow]
    exact Nat.lt_add_of_pos_right hduration
  have hlength : x.now - x.phy.firstRxStart = x.phy.firstRxDuration := by omega
  obtain ⟨sinrs, hsinrs, hmeans⟩ := hc.sinr.finish hlt hr.nonempty
  obtain ⟨powers, hpowers, hpower⟩ := hc.rsPower.finish hlt hr.nonempty
  obtain rfl := Except.ok.inj (hsinr.symm.trans hsinrs)
  obtain rfl := Except.ok.inj (hsignal.symm.trans hpowers)
  rw [hlength, ← hframes, List.forall₂_map_left_iff] at hmeans hpower
  refine ⟨?_, ?_⟩
  · have hlogged : ∀ frame ∈ x.phy.slRxSigParamInfo,
        ∃ k : Nat, log[k]? = some ⟨x.phy.firstRxStart, x.phy.firstRxDuration, frame.psd⟩ := fun frame hmem =>
      hr.inLog frame.psd (hframes ▸ List.mem_map_of_mem hmem)
    refine ((List.forall₂_and_left _ _).mpr ⟨hlogged, hmeans⟩).imp fun frame v h => ?_
    obtain ⟨⟨k, hk⟩, hv⟩ := h
    refine ⟨k, hk, fun rb => ?_⟩
    rw [hv rb, hnow]
    refine congrArg (fun sum => sum / (x.phy.firstRxDuration : ℚ)) (Finset.sum_congr rfl fun t ht => ?_)
    obtain ⟨hlow, hhigh⟩ := Finset.mem_Ico.mp ht
    show frame.psd rb / (heldAt log t - frame.psd + x.phy.slInterference.noise) rb = _
    rw [interference_of_logged hk hlow hhigh, hi.noise]
    rfl
  · have hconst : List.Forall₂ (fun frame v => frame.psd = v) x.phy.slRxSigParamInfo powers := by
      refine hpower.imp fun frame v hv => funext fun rb => ?_
      have hne : (x.phy.firstRxDuration : ℚ) ≠ 0 := Nat.cast_ne_zero.mpr (Nat.pos_iff_ne_zero.mp hduration)
      rw [hv rb, Finset.sum_const, Nat.card_Ico, hlength, nsmul_eq_mul, mul_div_cancel_left₀ _ hne]
    exact (List.forall₂_eq_eq_eq (α := SpectrumValue numRbs) ▸ List.forall₂_map_left_iff.mpr hconst).symm

/-- What arrives after a reception does not change what it should have perceived. -/
theorem PerceivesMeans.append {r : SlFrameReception numRbs M} {new : List (Held (SpectrumValue numRbs))}
    (h : PerceivesMeans log noise r) (hlater : ∀ a ∈ new, r.firstRxStart + r.firstRxDuration ≤ a.start) :
    PerceivesMeans (log ++ new) noise r where
  sinr := h.sinr.imp fun frame v hv => by
    obtain ⟨k, hk, hmean⟩ := hv
    obtain ⟨hlt, _⟩ := List.getElem?_eq_some_iff.mp hk
    refine ⟨k, getElem?_append_of_some hk, fun rb => (hmean rb).trans ?_⟩
    refine congrArg (fun sum => sum / (r.firstRxDuration : ℚ)) (Finset.sum_congr rfl fun t ht => ?_)
    have hbefore := (Finset.mem_Ico.mp ht).2
    have hold : heldAt ((log ++ new).eraseIdx k) t = heldAt (log.eraseIdx k) t := by
      rw [List.eraseIdx_append_of_lt_length hlt]
      refine heldAt_append_later fun a ha => ?_
      have hstart := hlater a ha
      omega
    rw [hold]
  signal := h.signal

/-- What one step does to a state that satisfies the invariant. -/
theorem PhyInvariant.step (hi : PhyInvariant before noise log y)
    {new : List (Held (SpectrumValue numRbs))} {receptions : List (SlFrameReception numRbs M)}
    (hstep : PhyStep y new receptions z) (hcount : (log ++ new).length < 2 ^ 31) :
    PhyInvariant before noise (log ++ new) z ∧ y.now ≤ z.now ∧ (∀ a ∈ new, a.start = y.now) ∧
      ∀ r ∈ receptions, r.firstRxStart + r.firstRxDuration = y.now ∧
        (0 < r.firstRxDuration → PerceivesMeans (log ++ new) noise r) := by
  cases hstep with
  | elapse later hlater hdue =>
    rw [List.append_nil]
    exact ⟨hi.elapse hlater hdue, hlater, by simp, by simp⟩
  | receive signal phy events hrx =>
    rw [List.length_append] at hcount
    exact ⟨hi.receive hcount hrx, le_rfl, by simp, by simp⟩
  | transmit duration phy events htx =>
    rw [List.append_nil]
    exact ⟨hi.transmit htx, le_rfl, by simp, by simp⟩
  | due first rest event phy receptions hevents hfire =>
    rw [List.append_nil]
    cases event with
    | doSubtractSignal spd signalId =>
      obtain ⟨interference, hsub, hfire⟩ := bind_ok_iff.mp hfire
      obtain ⟨rfl, rfl⟩ := Prod.mk.inj (pure_ok_iff.mp hfire)
      exact ⟨hi.subtract hevents hsub, le_rfl, by simp, by simp⟩
    | endRxSlFrame =>
      obtain ⟨⟨_, r⟩, hend, hfire⟩ := bind_ok_iff.mp hfire
      obtain ⟨rfl, rfl⟩ := Prod.mk.inj (pure_ok_iff.mp hfire)
      obtain ⟨hnext, htime, hmeans⟩ := hi.endRx hevents hend
      refine ⟨hnext, le_rfl, by simp, fun r' hr' => ?_⟩
      obtain rfl := List.mem_singleton.mp hr'
      exact ⟨htime, hmeans⟩
    | endTx =>
      obtain ⟨_, hend, hfire⟩ := bind_ok_iff.mp hfire
      obtain ⟨rfl, rfl⟩ := Prod.mk.inj (pure_ok_iff.mp hfire)
      obtain ⟨_, _, hend⟩ := bind_ok_iff.mp hend
      obtain rfl := pure_ok_iff.mp hend
      refine ⟨hi.frame ?_ ?_, le_rfl, by simp, by simp⟩
      · rw [hevents, List.filterMap_append, List.filterMap_append, List.filterMap_cons_none rfl]
      · rw [hevents, List.filterMap_append, List.filterMap_append, List.filterMap_cons_none rfl]

theorem PhyRun.invariant {out : List (SlFrameReception numRbs M)} (hrun : PhyRun x log out y)
    (hx : NoiseSet x) (hcount : log.length < 2 ^ 31) :
    PhyInvariant x.phy.slInterference.lastSignalIdBeforeReset x.phy.slInterference.noise log y ∧
      ∀ r ∈ out, r.firstRxStart + r.firstRxDuration ≤ y.now ∧
        (0 < r.firstRxDuration → PerceivesMeans log x.phy.slInterference.noise r) := by
  induction hrun with
  | start => exact ⟨hx.invariant, by simp⟩
  | next log new out receptions y z _ step ih =>
    have hlength : log.length ≤ (log ++ new).length := by simp
    obtain ⟨hi, hout⟩ := ih (by omega)
    obtain ⟨hnext, hnow, hnew, hreceptions⟩ := hi.step step hcount
    refine ⟨hnext, fun r hr => ?_⟩
    rcases List.mem_append.mp hr with hr | hr
    · obtain ⟨hended, hmeans⟩ := hout r hr
      refine ⟨hended.trans hnow, fun hduration => (hmeans hduration).append fun a ha => ?_⟩
      rw [hnew a ha]
      exact hended
    · obtain ⟨hended, hmeans⟩ := hreceptions r hr
      exact ⟨hended.le.trans hnow, hmeans⟩

/-- The signals scheduled for subtraction have ids of at most `count` signals ago. -/
def IssuedIds (before : UInt32) (count : Nat) (events : List (Nat × SpectrumEvent numRbs)) : Prop :=
  ∀ e ∈ events, ∀ spd signalId, e.2 = .doSubtractSignal spd signalId →
    ∃ j ≤ count, signalId.toNat = (before.toNat + j) % 2 ^ 32

theorem addSignal_id {s s' : NrSlInterference numRbs} {now : Nat} {spd : SpectrumValue numRbs} {signalId : UInt32}
    (h : s.addSignal now spd = .ok (s', signalId)) : signalId = s'.lastSignalId := by
  obtain ⟨_, _, h⟩ := bind_ok_iff.mp h
  obtain ⟨rfl, rfl⟩ := Prod.mk.inj (pure_ok_iff.mp h)
  rfl

theorem PhyInvariant.receive_ids (hi : PhyInvariant before noise log x) (hids : IssuedIds before log.length x.events)
    {signal : SpectrumSignal numRbs M} {events : List (Nat × SpectrumEvent numRbs)} {phy : NrSpectrumPhy numRbs M}
    (hcount : log.length + 1 < 2 ^ 31) (hrx : x.phy.startRx x.now signal = .ok (phy, events)) :
    IssuedIds before (log.length + 1) (x.events ++ events) := by
  obtain ⟨interference, signalId, hadd, _, _, hadded⟩ := hi.addSignal signal.psd signal.duration hcount
  obtain ⟨⟨_, _⟩, hadd', hrx⟩ := bind_ok_iff.mp hrx
  obtain ⟨rfl, rfl⟩ := Prod.mk.inj (Except.ok.inj (hadd.symm.trans hadd'))
  have hid : signalId.toNat = (before.toNat + (log.length + 1)) % 2 ^ 32 := by
    have hlast := hadded.lastId
    rw [List.length_append, List.length_singleton] at hlast
    rw [addSignal_id hadd]
    exact hlast
  have hframes : ∀ more : List (Nat × SpectrumEvent numRbs), (∀ e ∈ more, e.2 = .endRxSlFrame) →
      IssuedIds before (log.length + 1)
        (x.events ++ (x.now + signal.duration, .doSubtractSignal signal.psd signalId) :: more) := by
    intro more hmore e he spd id hevent
    rcases List.mem_append.mp he with he | he
    · obtain ⟨j, hj, hsame⟩ := hids e he spd id hevent
      exact ⟨j, by omega, hsame⟩
    · rcases List.mem_cons.mp he with rfl | he
      · cases hevent
        exact ⟨log.length + 1, le_rfl, hid⟩
      · rw [hmore e he] at hevent
        cases hevent
  dsimp only at hrx
  split at hrx
  next =>
    obtain ⟨rfl, rfl⟩ := Prod.mk.inj (pure_ok_iff.mp hrx)
    exact hframes [] (by simp)
  next payload _ =>
    split at hrx
    next =>
      obtain ⟨⟨_, more⟩, hframe, hrx⟩ := bind_ok_iff.mp hrx
      obtain ⟨rfl, rfl⟩ := Prod.mk.inj (pure_ok_iff.mp hrx)
      obtain ⟨_, _, ⟨_, rfl, _⟩ | ⟨_, rfl, _⟩⟩ := startRxSlFrame_cases hframe
      · exact hframes _ (by simp)
      · exact hframes [] (by simp)
    next =>
      obtain ⟨rfl, rfl⟩ := Prod.mk.inj (pure_ok_iff.mp hrx)
      exact hframes [] (by simp)

theorem IssuedIds.step (hids : IssuedIds before log.length y.events) (hi : PhyInvariant before noise log y)
    {new : List (Held (SpectrumValue numRbs))} {receptions : List (SlFrameReception numRbs M)}
    (hstep : PhyStep y new receptions z) (hcount : (log ++ new).length < 2 ^ 31) :
    IssuedIds before (log ++ new).length z.events := by
  cases hstep with
  | elapse later hlater hdue =>
    rw [List.append_nil]
    exact hids
  | receive signal phy events hrx =>
    rw [List.length_append, List.length_singleton] at hcount ⊢
    exact hi.receive_ids hids hcount hrx
  | transmit duration phy events htx =>
    rw [List.append_nil]
    unfold NrSpectrumPhy.startTxSlFrames at htx
    split at htx
    any_goals cases htx
    all_goals
      intro e he spd signalId hevent
      rcases List.mem_append.mp he with he | he
      · exact hids e he spd signalId hevent
      · obtain rfl := List.mem_singleton.mp he
        cases hevent
  | due first rest event phy receptions hevents hfire =>
    rw [List.append_nil]
    intro e he
    apply hids e
    rw [hevents]
    rcases List.mem_append.mp he with he | he
    · exact List.mem_append_left _ he
    · exact List.mem_append_right _ (List.mem_cons_of_mem _ he)

/-- Setting the noise power again between two receptions starts anew: the signals that are still on
the channel will not be subtracted. -/
theorem PhyRun.setNoise_noiseSet {out : List (SlFrameReception numRbs M)} (hrun : PhyRun x log out y)
    (hx : NoiseSet x) (hempty : x.events = []) (hcount : log.length < 2 ^ 31)
    (hframes : y.phy.slRxSigParamInfo = []) (noisePsd : SpectrumValue numRbs) :
    ∃ s, y.phy.slInterference.setNoisePowerSpectralDensity y.now noisePsd = .ok s ∧
      NoiseSet { y with phy := { y.phy with slInterference := s } } := by
  have hi := (hrun.invariant hx hcount).1
  have hids : IssuedIds x.phy.slInterference.lastSignalIdBeforeReset log.length y.events := by
    clear hframes hi
    induction hrun with
    | start =>
      intro e he
      rw [hempty] at he
      cases he
    | next log new out receptions y z before step ih =>
      have hshort : log.length < 2 ^ 31 := by
        rw [List.length_append] at hcount
        omega
      exact (ih hshort).step (before.invariant hx hshort).1 step hcount
  have hnot := hi.noFrames.mp hframes
  have heval : y.phy.slInterference.conditionallyEvaluateChunk y.now = .ok y.phy.slInterference := by
    unfold NrSlInterference.conditionallyEvaluateChunk
    rw [if_neg (by simp [hnot])]
    rfl
  refine ⟨_, bind_of_ok heval, rfl, rfl, rfl, hframes, ?_, ?_⟩
  · rw [List.filterMap_eq_nil_iff]
    intro e he
    obtain ⟨time, event⟩ := e
    cases event with
    | doSubtractSignal spd signalId =>
      obtain ⟨j, hj, hid⟩ := hids _ he spd signalId rfl
      refine if_neg ?_
      have hlast := hi.lastId
      have hbound := x.phy.slInterference.lastSignalIdBeforeReset.toNat_lt
      rw [toInt32_pos_iff, UInt32.toNat_sub]
      show ¬(0 < (2 ^ 32 - y.phy.slInterference.lastSignalId.toNat + signalId.toNat) % 2 ^ 32 ∧
        (2 ^ 32 - y.phy.slInterference.lastSignalId.toNat + signalId.toNat) % 2 ^ 32 < 2 ^ 31)
      omega
    | endRxSlFrame => rfl
    | endTx => rfl
  · show y.events.filterMap endOfReception = []
    rw [hi.ends, hnot]
    rfl

end Invariant

end SidelinkORe
