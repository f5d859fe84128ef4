import SidelinkORe.HeldSignals
import SidelinkORe.Outcome
import Mathlib.Algebra.BigOperators.Pi
import Mathlib.Algebra.Order.Field.Rat
import Mathlib.Algebra.Module.Pi
import Mathlib.Tactic.NormNum
import Mathlib.Tactic.Ring

namespace SidelinkORe

/-- One value for each RB. -/
abbrev SpectrumValue (numRbs : Nat) := Fin numRbs → ℚ

/-- `Time::GetSeconds`; time counts nanoseconds. -/
def getSeconds (time : Nat) : ℚ := (time : ℚ) / ((10 ^ 9 : Nat) : ℚ)

/-- The running sum of one received signal; it is a null pointer before the first chunk. -/
structure NrSlChunkValue (numRbs : Nat) where
  sumValues : Option (SpectrumValue numRbs)
  totDuration : Nat

abbrev NrSlChunkProcessor (numRbs : Nat) := List (NrSlChunkValue numRbs)

inductive InterferenceFault where
  | chunkIndexOutOfRange
  | nullChunkSum
  | asynchronousSignal
  | invalidState
  deriving DecidableEq

namespace NrSlChunkProcessor

variable {numRbs : Nat}

def start (init : Bool) (p : NrSlChunkProcessor numRbs) : NrSlChunkProcessor numRbs :=
  (if init = true then [] else p) ++ [⟨none, 0⟩]

def addChunk (c : NrSlChunkValue numRbs) (value : SpectrumValue numRbs) (duration : Nat) :
    NrSlChunkValue numRbs where
  sumValues := some (c.sumValues.getD 0 + getSeconds duration • value)
  totDuration := c.totDuration + duration

def evaluateChunk (p : NrSlChunkProcessor numRbs) (index : Nat) (value : SpectrumValue numRbs)
    (duration : Nat) : Except InterferenceFault (NrSlChunkProcessor numRbs) := do
  let c ← orFault .chunkIndexOutOfRange p[index]?
  pure (p.set index (addChunk c value duration))

def chunkMean (c : NrSlChunkValue numRbs) : Except InterferenceFault (SpectrumValue numRbs) := do
  let sum ← orFault .nullChunkSum c.sumValues
  pure fun rb => sum rb / getSeconds c.totDuration

/-- `End`: the values for the callbacks, none when nothing was evaluated. -/
def finish (p : NrSlChunkProcessor numRbs) :
    Except InterferenceFault (Option (List (SpectrumValue numRbs))) := do
  let first ← orFault .chunkIndexOutOfRange p[0]?
  if 0 < getSeconds first.totDuration then
    let values ← p.mapM chunkMean
    pure (some values)
  else
    pure none

end NrSlChunkProcessor

/-- The processors of received power, of interference and of SINR. -/
structure ChunkProcessors (numRbs : Nat) where
  rsPower : NrSlChunkProcessor numRbs
  interf : NrSlChunkProcessor numRbs
  sinr : NrSlChunkProcessor numRbs

structure NrSlInterference (numRbs : Nat) where
  receiving : Bool
  rxSignal : List (SpectrumValue numRbs)
  lastChangeTime : Nat
  allSignals : SpectrumValue numRbs
  noise : SpectrumValue numRbs
  lastSignalId : UInt32
  lastSignalIdBeforeReset : UInt32
  chunks : ChunkProcessors numRbs

namespace NrSlInterference

variable {numRbs : Nat}

def evaluateSignal (duration : Nat) (allSignals noise : SpectrumValue numRbs)
    (chunks : ChunkProcessors numRbs) (signal : SpectrumValue numRbs × Nat) :
    Except InterferenceFault (ChunkProcessors numRbs) := do
  let interf := allSignals - signal.1 + noise
  let sinr := signal.1 / interf
  let sinrChunks ← chunks.sinr.evaluateChunk signal.2 sinr duration
  let interfChunks ← chunks.interf.evaluateChunk signal.2 interf duration
  let rsPowerChunks ← chunks.rsPower.evaluateChunk signal.2 signal.1 duration
  pure ⟨rsPowerChunks, interfChunks, sinrChunks⟩

def conditionallyEvaluateChunk (now : Nat) (s : NrSlInterference numRbs) :
    Except InterferenceFault (NrSlInterference numRbs) :=
  if s.receiving = true ∧ s.lastChangeTime < now then do
    let chunks ← s.rxSignal.zipIdx.foldlM
      (evaluateSignal (now - s.lastChangeTime) s.allSignals s.noise) s.chunks
    pure { s with chunks := chunks, lastChangeTime := now }
  else
    pure s

def startRx (now : Nat) (rxPsd : SpectrumValue numRbs) (s : NrSlInterference numRbs) :
    Except InterferenceFault (NrSlInterference numRbs) := do
  let init := !s.receiving
  require (init = true ∨ s.lastChangeTime = now) .asynchronousSignal
  pure { s with
    receiving := true
    rxSignal := (if init = true then [] else s.rxSignal) ++ [rxPsd]
    lastChangeTime := now
    chunks :=
      { rsPower := s.chunks.rsPower.start init
        interf := s.chunks.interf.start init
        sinr := s.chunks.sinr.start init } }

/-- The power and SINR values that the callbacks receive, if any do. -/
structure Perceived (numRbs : Nat) where
  signal : Option (List (SpectrumValue numRbs))
  interf : Option (List (SpectrumValue numRbs))
  sinr : Option (List (SpectrumValue numRbs))

def endRx (now : Nat) (s : NrSlInterference numRbs) :
    Except InterferenceFault (NrSlInterference numRbs × Perceived numRbs) :=
  if s.receiving = true then do
    let s ← s.conditionallyEvaluateChunk now
    let signal ← s.chunks.rsPower.finish
    let interf ← s.chunks.interf.finish
    let sinr ← s.chunks.sinr.finish
    pure ({ s with receiving := false }, ⟨signal, interf, sinr⟩)
  else
    pure (s, ⟨none, none, none⟩)

/-- `AddSignal` without the scheduling, which is left to the caller; the result has the signal id. -/
def addSignal (now : Nat) (spd : SpectrumValue numRbs) (s : NrSlInterference numRbs) :
    Except InterferenceFault (NrSlInterference numRbs × UInt32) := do
  let s ← s.conditionallyEvaluateChunk now
  let signalId := s.lastSignalId + 1
  pure ({ s with
    allSignals := s.allSignals + spd
    lastSignalId := signalId
    lastSignalIdBeforeReset :=
      if signalId = s.lastSignalIdBeforeReset then s.lastSignalIdBeforeReset + 0x10000000
      else s.lastSignalIdBeforeReset }, signalId)

def doSubtractSignal (now : Nat) (spd : SpectrumValue numRbs) (signalId : UInt32)
    (s : NrSlInterference numRbs) : Except InterferenceFault (NrSlInterference numRbs) := do
  let s ← s.conditionallyEvaluateChunk now
  let deltaSignalId := (signalId - s.lastSignalIdBeforeReset).toInt32
  pure (if 0 < deltaSignalId then { s with allSignals := s.allSignals - spd } else s)

def setNoisePowerSpectralDensity (now : Nat) (noisePsd : SpectrumValue numRbs)
    (s : NrSlInterference numRbs) : Except InterferenceFault (NrSlInterference numRbs) := do
  let s ← s.conditionallyEvaluateChunk now
  pure { s with
    noise := noisePsd
    allSignals := 0
    receiving := false
    lastSignalIdBeforeReset := s.lastSignalId }

end NrSlInterference

section ChunkSums

variable {numRbs : Nat}

theorem getSeconds_eq (time : Nat) : getSeconds time = (time : ℚ) * getSeconds 1 := by
  unfold getSeconds
  push_cast
  ring

theorem getSeconds_pos {time : Nat} : 0 < getSeconds time ↔ 0 < time := by
  unfold getSeconds
  constructor
  · intro h
    by_contra hzero
    obtain rfl : time = 0 := by omega
    simp at h
  · intro h
    exact div_pos (Nat.cast_pos.mpr h) (by norm_num)

/-- The chunk value has summed up `f` over the instants from `a` to `b`. -/
structure Sums (c : NrSlChunkValue numRbs) (f : Nat → SpectrumValue numRbs) (a b : Nat) : Prop where
  le : a ≤ b
  total : c.sumValues.getD 0 = getSeconds 1 • ∑ t ∈ Finset.Ico a b, f t
  duration : c.totDuration = b - a
  evaluated : a < b → c.sumValues.isSome = true

variable {c : NrSlChunkValue numRbs} {f g : Nat → SpectrumValue numRbs} {v : SpectrumValue numRbs}
  {a b b' now : Nat}

theorem sums_start (f : Nat → SpectrumValue numRbs) (a : Nat) : Sums ⟨none, 0⟩ f a a where
  le := le_rfl
  total := by simp
  duration := by simp
  evaluated := by simp

theorem Sums.congr (h : Sums c f a b) (hfg : ∀ t, a ≤ t → t < b → f t = g t) : Sums c g a b where
  le := h.le
  total := by
    rw [h.total]
    refine congrArg _ (Finset.sum_congr rfl fun t ht => ?_)
    exact hfg t (Finset.mem_Ico.mp ht).1 (Finset.mem_Ico.mp ht).2
  duration := h.duration
  evaluated := h.evaluated

/-- One chunk extends the sum over the instants in which the value has not changed. -/
theorem Sums.addChunk (h : Sums c f a b) (hb : b ≤ b') (hconst : ∀ t, b ≤ t → t < b' → f t = v) :
    Sums (NrSlChunkProcessor.addChunk c v (b' - b)) f a b' where
  le := h.le.trans hb
  total := by
    have hchunk : ∑ t ∈ Finset.Ico b b', f t = (b' - b) • v := by
      rw [Finset.sum_congr rfl fun t ht => hconst t (Finset.mem_Ico.mp ht).1 (Finset.mem_Ico.mp ht).2]
      simp
    have hseconds : getSeconds (b' - b) • v = getSeconds 1 • ((b' - b) • v) := by
      funext rb
      simp only [Pi.smul_apply, smul_eq_mul, nsmul_eq_mul, Pi.mul_apply, Pi.natCast_apply]
      rw [getSeconds_eq]
      ring
    rw [← Finset.sum_Ico_consecutive f h.le hb, hchunk, smul_add, ← h.total, ← hseconds]
    rfl
  duration := by
    have hd := h.duration
    have hle := h.le
    show c.totDuration + (b' - b) = b' - a
    omega
  evaluated := fun _ => rfl

theorem Sums.chunkMean (h : Sums c f a b) (hlt : a < b) : ∃ v, NrSlChunkProcessor.chunkMean c = .ok v ∧
    ∀ rb, v rb = (∑ t ∈ Finset.Ico a b, f t rb) / ((b - a : Nat) : ℚ) := by
  obtain ⟨sum, hsum⟩ := Option.isSome_iff_exists.mp (h.evaluated hlt)
  have htotal := h.total
  rw [hsum] at htotal
  refine ⟨fun rb => sum rb / getSeconds c.totDuration, ?_, ?_⟩
  · unfold NrSlChunkProcessor.chunkMean
    rw [hsum]
    rfl
  · intro rb
    have hone : getSeconds 1 ≠ 0 := (getSeconds_pos.mpr Nat.one_pos).ne'
    have hrb : sum rb = getSeconds 1 * ∑ t ∈ Finset.Ico a b, f t rb := by
      have hat := congrFun htotal rb
      simpa using hat
    show sum rb / getSeconds c.totDuration = _
    rw [hrb, h.duration, getSeconds_eq (b - a), mul_comm ((b - a : Nat) : ℚ), mul_div_mul_left _ _ hone]

end ChunkSums

section Chunks

variable {numRbs : Nat} {signals : List (SpectrumValue numRbs)} {p : NrSlChunkProcessor numRbs}
  {level : Nat → SpectrumValue numRbs} {noise all : SpectrumValue numRbs} {chunks : ChunkProcessors numRbs}
  {a b b' : Nat}

/-- Each received signal has its own chunk value, which has summed up `f` of it. -/
def Accumulates (signals : List (SpectrumValue numRbs)) (p : NrSlChunkProcessor numRbs)
    (f : SpectrumValue numRbs → Nat → SpectrumValue numRbs) (a b : Nat) : Prop :=
  List.Forall₂ (fun signal c => Sums c (f signal) a b) signals p

theorem evaluateChunk_at {done rest : NrSlChunkProcessor numRbs} {c : NrSlChunkValue numRbs}
    {index : Nat} (hindex : done.length = index) (value : SpectrumValue numRbs) (duration : Nat) :
    NrSlChunkProcessor.evaluateChunk (done ++ c :: rest) index value duration =
      .ok (done ++ NrSlChunkProcessor.addChunk c value duration :: rest) := by
  subst hindex
  unfold NrSlChunkProcessor.evaluateChunk
  have hget : (done ++ c :: rest)[done.length]? = some c := by simp
  rw [hget]
  show Except.ok _ = _
  simp

/-- The chunk values of the signals, each with one more chunk. -/
def addChunks (value : SpectrumValue numRbs → SpectrumValue numRbs) (duration : Nat)
    (signals : List (SpectrumValue numRbs)) (p : NrSlChunkProcessor numRbs) : NrSlChunkProcessor numRbs :=
  List.zipWith (fun signal c => NrSlChunkProcessor.addChunk c (value signal) duration) signals p

/-- The loop over the received signals touches the chunk value of each of them once. -/
theorem evaluateSignals_ok (duration : Nat) (all noise : SpectrumValue numRbs)
    {signals : List (SpectrumValue numRbs)} {index : Nat}
    {done₁ done₂ done₃ rest₁ rest₂ rest₃ : NrSlChunkProcessor numRbs}
    (h₁ : done₁.length = index) (h₂ : done₂.length = index) (h₃ : done₃.length = index)
    (hr₁ : rest₁.length = signals.length) (hr₂ : rest₂.length = signals.length)
    (hr₃ : rest₃.length = signals.length) :
    (signals.zipIdx index).foldlM (NrSlInterference.evaluateSignal duration all noise)
      ⟨done₁ ++ rest₁, done₂ ++ rest₂, done₃ ++ rest₃⟩ =
    .ok ⟨done₁ ++ addChunks (fun signal => signal) duration signals rest₁,
      done₂ ++ addChunks (fun signal => all - signal + noise) duration signals rest₂,
      done₃ ++ addChunks (fun signal => signal / (all - signal + noise)) duration signals rest₃⟩ := by
  induction signals generalizing index done₁ done₂ done₃ rest₁ rest₂ rest₃ with
  | nil =>
    obtain rfl := List.length_eq_zero_iff.mp hr₁
    obtain rfl := List.length_eq_zero_iff.mp hr₂
    obtain rfl := List.length_eq_zero_iff.mp hr₃
    rfl
  | cons signal signals ih =>
    obtain ⟨c₁, rest₁, rfl⟩ := List.exists_cons_of_length_eq_add_one hr₁
    obtain ⟨c₂, rest₂, rfl⟩ := List.exists_cons_of_length_eq_add_one hr₂
    obtain ⟨c₃, rest₃, rfl⟩ := List.exists_cons_of_length_eq_add_one hr₃
    have hround : NrSlInterference.evaluateSignal duration all noise
        ⟨done₁ ++ c₁ :: rest₁, done₂ ++ c₂ :: rest₂, done₃ ++ c₃ :: rest₃⟩ (signal, index) =
        .ok ⟨done₁ ++ NrSlChunkProcessor.addChunk c₁ signal duration :: rest₁,
          done₂ ++ NrSlChunkProcessor.addChunk c₂ (all - signal + noise) duration :: rest₂,
          done₃ ++ NrSlChunkProcessor.addChunk c₃ (signal / (all - signal + noise)) duration :: rest₃⟩ := by
      unfold NrSlInterference.evaluateSignal
      simp only [evaluateChunk_at h₁, evaluateChunk_at h₂, evaluateChunk_at h₃]
      rfl
    rw [List.zipIdx_cons, List.foldlM_cons, bind_of_ok hround]
    have hrest := @ih (index + 1) (done₁ ++ [NrSlChunkProcessor.addChunk c₁ signal duration])
      (done₂ ++ [NrSlChunkProcessor.addChunk c₂ (all - signal + noise) duration])
      (done₃ ++ [NrSlChunkProcessor.addChunk c₃ (signal / (all - signal + noise)) duration])
      rest₁ rest₂ rest₃ (by simp [h₁]) (by simp [h₂]) (by simp [h₃]) (by simpa using hr₁)
      (by simpa using hr₂) (by simpa using hr₃)
    simpa [addChunks] using hrest

theorem Accumulates.addChunks {f : SpectrumValue numRbs → Nat → SpectrumValue numRbs}
    {value : SpectrumValue numRbs → SpectrumValue numRbs} (h : Accumulates signals p f a b) (hb : b ≤ b')
    (hconst : ∀ signal t, b ≤ t → t < b' → f signal t = value signal) :
    Accumulates signals (SidelinkORe.addChunks value (b' - b) signals p) f a b' := by
  induction h with
  | nil => exact List.Forall₂.nil
  | @cons signal c signals p hsum _ ih =>
    exact List.Forall₂.cons (hsum.addChunk hb (hconst signal)) ih

theorem Accumulates.congr {f g : SpectrumValue numRbs → Nat → SpectrumValue numRbs}
    (h : Accumulates signals p f a b) (hfg : ∀ signal t, a ≤ t → t < b → f signal t = g signal t) :
    Accumulates signals p g a b :=
  h.imp fun signal _ hsum => hsum.congr (hfg signal)

theorem Accumulates.start {f : SpectrumValue numRbs → Nat → SpectrumValue numRbs}
    (h : Accumulates signals p f a a) (signal : SpectrumValue numRbs) :
    Accumulates (signals ++ [signal]) (p.start false) f a a :=
  List.rel_append h (List.Forall₂.cons (sums_start _ a) List.Forall₂.nil)

/-- `End` delivers, for each received signal, the mean over the instants of the reception. -/
theorem Accumulates.finish {f : SpectrumValue numRbs → Nat → SpectrumValue numRbs}
    (h : Accumulates signals p f a b) (hlt : a < b) (hne : signals ≠ []) :
    ∃ values, p.finish = .ok (some values) ∧
      List.Forall₂ (fun signal v => ∀ rb, v rb =
        (∑ t ∈ Finset.Ico a b, f signal t rb) / ((b - a : Nat) : ℚ)) signals values := by
  have hmeans : ∃ values, List.mapM NrSlChunkProcessor.chunkMean p = .ok values ∧
      List.Forall₂ (fun signal v => ∀ rb, v rb =
        (∑ t ∈ Finset.Ico a b, f signal t rb) / ((b - a : Nat) : ℚ)) signals values := by
    clear hne
    induction h with
    | nil => exact ⟨[], rfl, List.Forall₂.nil⟩
    | @cons signal c signals p hsum _ ih =>
      obtain ⟨v, hv, hmean⟩ := hsum.chunkMean hlt
      obtain ⟨values, hvalues, hall⟩ := ih
      refine ⟨v :: values, ?_, List.Forall₂.cons hmean hall⟩
      rw [List.mapM_cons, hv]
      show (List.mapM NrSlChunkProcessor.chunkMean p >>= fun vs => pure (v :: vs)) = _
      rw [hvalues]
      rfl
  obtain ⟨values, hvalues, hall⟩ := hmeans
  refine ⟨values, ?_, hall⟩
  cases h with
  | nil => exact absurd rfl hne
  | @cons signal c signals p hsum hrest =>
    have hduration : 0 < getSeconds c.totDuration := by
      have hd := hsum.duration
      exact getSeconds_pos.mpr (by omega)
    unfold NrSlChunkProcessor.finish
    rw [hvalues]
    show (if 0 < getSeconds c.totDuration then _ else _) = _
    rw [if_pos hduration]
    rfl

/-- Power, interference and SINR of every received signal, summed up over the instants from `a` to
`b` when `level` is the total received power. -/
structure ChunksHold (level : Nat → SpectrumValue numRbs) (noise : SpectrumValue numRbs) (a b : Nat)
    (signals : List (SpectrumValue numRbs)) (chunks : ChunkProcessors numRbs) : Prop where
  rsPower : Accumulates signals chunks.rsPower (fun signal _ => signal) a b
  interf : Accumulates signals chunks.interf (fun signal t => level t - signal + noise) a b
  sinr : Accumulates signals chunks.sinr (fun signal t => signal / (level t - signal + noise)) a b

theorem ChunksHold.evaluate (h : ChunksHold level noise a b signals chunks) (hb : b ≤ b')
    (hconst : ∀ t, b ≤ t → t < b' → level t = all) :
    ∃ chunks', signals.zipIdx.foldlM (NrSlInterference.evaluateSignal (b' - b) all noise) chunks =
      .ok chunks' ∧ ChunksHold level noise a b' signals chunks' := by
  have hloop := @evaluateSignals_ok numRbs (b' - b) all noise signals 0 [] [] [] chunks.rsPower chunks.interf
    chunks.sinr rfl rfl rfl h.rsPower.length_eq.symm h.interf.length_eq.symm h.sinr.length_eq.symm
  refine ⟨_, hloop, ?_, ?_, ?_⟩
  · exact h.rsPower.addChunks hb fun _ _ _ _ => rfl
  · exact h.interf.addChunks hb fun signal t hlow hhigh => by rw [hconst t hlow hhigh]
  · exact h.sinr.addChunks hb fun signal t hlow hhigh => by rw [hconst t hlow hhigh]

theorem ChunksHold.congr {level' : Nat → SpectrumValue numRbs} (h : ChunksHold level noise a b signals chunks)
    (hlevel : ∀ t, a ≤ t → t < b → level t = level' t) : ChunksHold level' noise a b signals chunks where
  rsPower := h.rsPower
  interf := h.interf.congr fun signal t hlow hhigh => by rw [hlevel t hlow hhigh]
  sinr := h.sinr.congr fun signal t hlow hhigh => by rw [hlevel t hlow hhigh]

end Chunks

end SidelinkORe
