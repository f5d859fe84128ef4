import SidelinkORe.SlReception
import Mathlib.Algebra.Order.BigOperators.Group.Finset
import Mathlib.Algebra.Order.Pi
import Mathlib.Tactic.FieldSimp

namespace SidelinkORe

section Faults

variable {numRbs : Nat} {M : Type} {before : UInt32} {noise : SpectrumValue numRbs}
  {log : List (Held (SpectrumValue numRbs))} {x y : PhySim numRbs M}

theorem Accumulates.finish_ok {signals : List (SpectrumValue numRbs)} {p : NrSlChunkProcessor numRbs}
    {f : SpectrumValue numRbs → Nat → SpectrumValue numRbs} {a b : Nat} (h : Accumulates signals p f a b)
    (hne : signals ≠ []) : ∃ values, p.finish = .ok values := by
  by_cases hlt : a < b
  · obtain ⟨values, hvalues, _⟩ := h.finish hlt hne
    exact ⟨some values, hvalues⟩
  · cases h with
    | nil => exact absurd rfl hne
    | @cons signal c signals p hsum _ =>
      have hduration := hsum.duration
      have hnot : ¬0 < getSeconds c.totDuration := fun hpos => by
        have hpositive := getSeconds_pos.mp hpos
        omega
      refine ⟨none, ?_⟩
      unfold NrSlChunkProcessor.finish
      show (if 0 < getSeconds c.totDuration then _ else _) = _
      rw [if_neg hnot]
      rfl

theorem PhyInvariant.evaluates (hi : PhyInvariant before noise log x) :
    ∃ s, x.phy.slInterference.conditionallyEvaluateChunk x.now = .ok s := by
  obtain ⟨chunks, last, heval, _⟩ := conditionallyEvaluateChunk_ok fun hrx => (hi.reception hrx).tracks
  exact ⟨_, heval⟩

theorem PhyInvariant.endRx_ok (hi : PhyInvariant before noise log x) :
    ∃ result, x.phy.slInterference.endRx x.now = .ok result := by
  unfold NrSlInterference.endRx
  by_cases hrx : x.phy.slInterference.receiving = true
  · have hr := hi.reception hrx
    obtain ⟨chunks, last, heval, hchunks⟩ := conditionallyEvaluateChunk_ok fun _ => hr.tracks
    obtain ⟨_, hc⟩ := hchunks hrx
    obtain ⟨signal, hsignal⟩ := hc.rsPower.finish_ok hr.nonempty
    obtain ⟨interf, hinterf⟩ := hc.interf.finish_ok hr.nonempty
    obtain ⟨sinr, hsinr⟩ := hc.sinr.finish_ok hr.nonempty
    refine ⟨({ x.phy.slInterference with chunks := chunks, lastChangeTime := last, receiving := false },
      ⟨signal, interf, sinr⟩), ?_⟩
    rw [if_pos hrx, bind_of_ok heval, bind_of_ok hsignal, bind_of_ok hinterf, bind_of_ok hsinr]
    rfl
  · rw [if_neg hrx]
    exact ⟨_, rfl⟩

theorem PhyInvariant.endRxSlFrame_ok (hi : PhyInvariant before noise log x) :
    ∃ phy r, x.phy.endRxSlFrame x.now = .ok (phy, r) ∧ r.firstRxDuration = x.phy.firstRxDuration := by
  obtain ⟨result, hresult⟩ := hi.endRx_ok
  unfold NrSpectrumPhy.endRxSlFrame
  rw [bind_of_ok hresult]
  exact ⟨_, _, rfl, rfl⟩

theorem startRxSlFrame_fails {now : Nat} {signal : SpectrumSignal numRbs M} {payload : M}
    {phy : NrSpectrumPhy numRbs M}
    (hchange : phy.slInterference.receiving = true → phy.slInterference.lastChangeTime = now) :
    Fails (fun e => e = .invalidState) (phy.startRxSlFrame now signal payload) := by
  have hstart : Fails (fun e => e = InterferenceFault.invalidState)
      (phy.slInterference.startRx now signal.psd) := by
    refine fails_bind (fun e he => ?_) fun _ _ => fails_ok _
    obtain ⟨hno, _⟩ := require_error_iff.mp he
    refine absurd ?_ hno
    cases hrx : phy.slInterference.receiving with
    | false => exact Or.inl rfl
    | true => exact Or.inr (hchange hrx)
  unfold NrSpectrumPhy.startRxSlFrame
  split
  any_goals exact fails_error rfl
  all_goals
    refine fails_ite (fun _ => ?_) fun _ => ?_
    · exact fails_bind (fails_require rfl) fun _ _ => fails_bind hstart fun _ _ => fails_ok _
    · exact fails_bind (fails_require rfl) fun _ _ => fails_bind hstart fun _ _ => fails_ok _

theorem PhyInvariant.receive_fails (hi : PhyInvariant before noise log x) (hcount : log.length + 1 < 2 ^ 31)
    (signal : SpectrumSignal numRbs M) :
    Fails (fun e => e = .invalidState) (x.phy.startRx x.now signal) := by
  obtain ⟨interference, signalId, hadd, _, hchange, _⟩ := hi.addSignal signal.psd signal.duration hcount
  unfold NrSpectrumPhy.startRx
  rw [bind_of_ok hadd]
  dsimp only
  split
  next => exact fails_ok _
  next =>
    refine fails_ite (fun _ => ?_) fun _ => fails_ok _
    exact fails_bind (startRxSlFrame_fails hchange) fun _ _ => fails_ok _

theorem PhyInvariant.fire_fails (hi : PhyInvariant before noise log x) (event : SpectrumEvent numRbs) :
    Fails (fun e => e = .invalidState) (x.phy.fire x.now event) := by
  cases event with
  | doSubtractSignal spd signalId =>
    obtain ⟨s, hs⟩ := hi.evaluates
    refine fails_bind ?_ fun _ _ => fails_ok _
    unfold NrSlInterference.doSubtractSignal
    rw [bind_of_ok hs]
    exact fails_ok _
  | endRxSlFrame =>
    obtain ⟨result, hresult⟩ := hi.endRx_ok
    refine fails_bind ?_ fun _ _ => fails_ok _
    unfold NrSpectrumPhy.endRxSlFrame
    rw [bind_of_ok hresult]
    exact fails_ok _
  | endTx =>
    refine fails_bind (fails_bind (fails_require rfl) fun _ _ => fails_ok _) fun _ _ => fails_ok _

end Faults

section Overlapped

/-- A PHY of one RB with noise, at rest. -/
def quietPhy : PhySim 1 Unit where
  now := 0
  phy :=
    { state := .idle
      slInterference :=
        { receiving := false
          rxSignal := []
          lastChangeTime := 0
          allSignals := 0
          noise := fun _ => 1
          lastSignalId := 0
          lastSignalIdBeforeReset := 0
          chunks := ⟨[], [], []⟩ }
      slRxSigParamInfo := []
      firstRxStart := 0
      firstRxDuration := 0
      slSinrPerceived := []
      slSigPerceived := [] }
  events := []

theorem quietPhy_noiseSet : NoiseSet quietPhy := ⟨rfl, rfl, rfl, rfl, rfl, rfl⟩

/-- A frame in the instants 0 and 1, and another signal from the instant 1 on. -/
def overlappedLog : List (Held (SpectrumValue 1)) := [⟨0, 2, fun _ => 4⟩, ⟨1, 5, fun _ => 1⟩]

theorem overlapped_arrivals : ∃ y first rest, PhyRun quietPhy overlappedLog [] y ∧
    y.events = first ++ (y.now, .endRxSlFrame) :: rest ∧ y.phy.firstRxDuration = 2 := by
  have h₁ := PhyRun.next _ _ _ _ _ _ (PhyRun.start (x := quietPhy)) (.receive ⟨fun _ => 4, 2, some ()⟩ _ _ rfl)
  have h₂ := PhyRun.next _ _ _ _ _ _ h₁ (.elapse 1 (by decide) (by decide))
  have h₃ := PhyRun.next _ _ _ _ _ _ h₂ (.receive ⟨fun _ => 1, 5, none⟩ _ _ rfl)
  have h₄ := PhyRun.next _ _ _ _ _ _ h₃ (.elapse 2 (by decide) (by decide))
  exact ⟨_, [_], [_], h₄, rfl, rfl⟩

theorem overlapped_run : ∃ y out r, PhyRun quietPhy overlappedLog out y ∧ r ∈ out ∧ r.firstRxDuration = 2 := by
  obtain ⟨y, first, rest, hrun, hevents, hduration⟩ := overlapped_arrivals
  obtain ⟨phy, r, hend, hsame⟩ := (hrun.invariant quietPhy_noiseSet (by decide)).1.endRxSlFrame_ok
  have hfire : y.phy.fire y.now .endRxSlFrame = .ok (phy, [r]) := bind_of_ok hend
  exact ⟨_, _, r, .next _ _ _ _ _ _ hrun (.due first rest _ phy [r] hevents hfire), List.mem_singleton_self r,
    hsame.trans hduration⟩

end Overlapped

section Results

variable {numRbs : Nat} {M : Type} {log : List (Held (SpectrumValue numRbs))} {x y : PhySim numRbs M}

/-- In whatever order signals start and end, every reception perceives for each of its frames the
mean SINR over the time of the frame. -/
theorem PhyRun.perceivesMeans {out : List (SlFrameReception numRbs M)} (hrun : PhyRun x log out y)
    (hx : NoiseSet x) (hcount : log.length < 2 ^ 31) {r : SlFrameReception numRbs M} (hr : r ∈ out)
    (hduration : 0 < r.firstRxDuration) : PerceivesMeans log x.phy.slInterference.noise r :=
  ((hrun.invariant hx hcount).2 r hr).2 hduration

theorem PhyRun.perceivesMeans_overlapped : ∃ y out r, PhyRun quietPhy overlappedLog out y ∧ r ∈ out ∧
    PerceivesMeans overlappedLog (fun _ => 1) r := by
  obtain ⟨y, out, r, hrun, hr, hduration⟩ := overlapped_run
  exact ⟨y, out, r, hrun, hr, hrun.perceivesMeans quietPhy_noiseSet (by decide) hr (by omega)⟩

/-- Whatever happens next in a run, it stops with the check of the PHY state only: no chunk value is
read outside its list or before it is set, and no signals of one reception are apart in time. -/
theorem PhyRun.neverReadsOutside {out : List (SlFrameReception numRbs M)} (hrun : PhyRun x log out y)
    (hx : NoiseSet x) (hcount : log.length + 1 < 2 ^ 31) :
    (∀ signal, Fails (fun e => e = .invalidState) (y.phy.startRx y.now signal)) ∧
      ∀ event, Fails (fun e => e = .invalidState) (y.phy.fire y.now event) := by
  obtain ⟨hi, _⟩ := hrun.invariant hx (by omega)
  exact ⟨hi.receive_fails hcount, hi.fire_fails⟩

theorem PhyRun.neverReadsOutside_overlapped : ∃ y, PhyRun quietPhy overlappedLog [] y ∧
    (∀ signal, Fails (fun e => e = .invalidState) (y.phy.startRx y.now signal)) ∧
      ∀ event, Fails (fun e => e = .invalidState) (y.phy.fire y.now event) := by
  obtain ⟨y, _, _, hrun, _, _⟩ := overlapped_arrivals
  exact ⟨y, hrun, hrun.neverReadsOutside quietPhy_noiseSet (by decide)⟩

end Results

section Interferers

theorem div_add_le {a i n : ℚ} (ha : 0 ≤ a) (hi : 0 ≤ i) (hn : 0 < n) : a / (i + n) ≤ a / n :=
  div_le_div_of_nonneg_left ha hn (le_add_of_nonneg_left hi)

theorem div_add_eq_iff {a i n : ℚ} (hi : 0 ≤ i) (hn : 0 < n) : a / (i + n) = a / n ↔ a = 0 ∨ i = 0 := by
  have hsum : i + n ≠ 0 := (add_pos_of_nonneg_of_pos hi hn).ne'
  rw [div_eq_div_iff hsum hn.ne', mul_add, right_eq_add, mul_eq_zero]

/-- The mean of a ratio whose denominator is never below `n` reaches the ratio to `n` only if the
denominator never exceeds `n`. -/
theorem mean_div_eq_iff {a n : ℚ} {i : Nat → ℚ} (start : Nat) {duration : Nat} (ha : 0 ≤ a) (hn : 0 < n)
    (hi : ∀ t, 0 ≤ i t) (hduration : 0 < duration) :
    (∑ t ∈ Finset.Ico start (start + duration), a / (i t + n)) / (duration : ℚ) ≤ a / n ∧
      ((∑ t ∈ Finset.Ico start (start + duration), a / (i t + n)) / (duration : ℚ) = a / n ↔
        a = 0 ∨ ∀ t, start ≤ t → t < start + duration → i t = 0) := by
  have hpos : (0 : ℚ) < duration := Nat.cast_pos.mpr hduration
  have hconst : ∑ t ∈ Finset.Ico start (start + duration), a / n = a / n * (duration : ℚ) := by
    rw [Finset.sum_const, Nat.card_Ico, Nat.add_sub_cancel_left, nsmul_eq_mul, mul_comm]
  have hterm : ∀ t ∈ Finset.Ico start (start + duration), a / (i t + n) ≤ a / n := fun t _ =>
    div_add_le ha (hi t) hn
  refine ⟨?_, ?_⟩
  · rw [div_le_iff₀ hpos, ← hconst]
    exact Finset.sum_le_sum hterm
  · rw [div_eq_iff hpos.ne', ← hconst, Finset.sum_eq_sum_iff_of_le hterm]
    constructor
    · intro heq
      by_cases hzero : a = 0
      · exact Or.inl hzero
      · refine Or.inr fun t hlow hhigh => ?_
        have hat := heq t (Finset.mem_Ico.mpr ⟨hlow, hhigh⟩)
        exact ((div_add_eq_iff (hi t) hn).mp hat).resolve_left hzero
    · intro hnone t ht
      obtain ⟨hlow, hhigh⟩ := Finset.mem_Ico.mp ht
      exact (div_add_eq_iff (hi t) hn).mpr (hnone.imp_right fun h => h t hlow hhigh)

variable {numRbs : Nat} {M : Type} {log : List (Held (SpectrumValue numRbs))} {x y : PhySim numRbs M}

/-- Nothing else on the channel has power in the RB while the `k`-th signal of the log lasts. -/
def AloneIn (log : List (Held (SpectrumValue numRbs))) (k : Nat) (signal : Held (SpectrumValue numRbs))
    (rb : Fin numRbs) : Prop :=
  ∀ j other, j ≠ k → log[j]? = some other → ∀ t, signal.ActiveAt t → other.ActiveAt t → other.value rb = 0

theorem aloneIn_iff {k : Nat} {signal : Held (SpectrumValue numRbs)} {rb : Fin numRbs}
    (hlog : ∀ a ∈ log, 0 ≤ a.value) :
    AloneIn log k signal rb ↔ ∀ t, signal.ActiveAt t → heldAt (log.eraseIdx k) t rb = 0 := by
  have hzero : ∀ t, heldAt (log.eraseIdx k) t rb = 0 ↔
      ∀ a ∈ log.eraseIdx k, a.ActiveAt t → a.value rb = 0 := by
    intro t
    rw [heldAt_apply, heldAt_eq_zero_iff]
    · rw [List.forall_mem_map]
      rfl
    · intro h hh
      obtain ⟨a, ha, rfl⟩ := List.mem_map.mp hh
      exact hlog a (List.mem_of_mem_eraseIdx ha) rb
  constructor
  · intro halone t hactive
    refine (hzero t).mpr fun a ha hother => ?_
    obtain ⟨j, hne, hj⟩ := List.mem_eraseIdx_iff_getElem?.mp ha
    exact halone j a hne hj t hactive hother
  · intro hnone j other hne hj t hactive hother
    exact (hzero t).mp (hnone t hactive) other (List.mem_eraseIdx_iff_getElem?.mpr ⟨j, hne, hj⟩) hother

/-- With powers that are not negative and noise in every RB, a frame is perceived at most at the ratio
of its power to the noise, and in an RB with power of the frame at that ratio exactly if no other
signal of the run, a sidelink frame or not, has power in it during the frame. -/
theorem PhyRun.sinr_le {out : List (SlFrameReception numRbs M)} (hrun : PhyRun x log out y)
    (hx : NoiseSet x) (hcount : log.length < 2 ^ 31) (hlog : ∀ a ∈ log, 0 ≤ a.value)
    (hnoise : ∀ rb, 0 < x.phy.slInterference.noise rb) {r : SlFrameReception numRbs M} (hr : r ∈ out)
    (hduration : 0 < r.firstRxDuration) :
    List.Forall₂ (fun frame v => ∃ k : Nat, log[k]? = some ⟨r.firstRxStart, r.firstRxDuration, frame.psd⟩ ∧
      ∀ rb, v rb ≤ frame.psd rb / x.phy.slInterference.noise rb ∧
        (v rb = frame.psd rb / x.phy.slInterference.noise rb ↔
          frame.psd rb = 0 ∨ AloneIn log k ⟨r.firstRxStart, r.firstRxDuration, frame.psd⟩ rb))
      r.frames r.slSinrPerceived := by
  have hmeans := ((hrun.invariant hx hcount).2 r hr).2 hduration
  refine hmeans.sinr.imp fun frame v hv => ?_
  obtain ⟨k, hk, hmean⟩ := hv
  refine ⟨k, hk, fun rb => ?_⟩
  have hothers : ∀ t, 0 ≤ heldAt (log.eraseIdx k) t rb := fun t =>
    heldAt_nonneg (fun a ha => hlog a (List.mem_of_mem_eraseIdx ha)) t rb
  obtain ⟨hle, heq⟩ := mean_div_eq_iff r.firstRxStart (hlog _ (List.mem_of_getElem? hk) rb)
    (hnoise rb) hothers hduration
  rw [hmean rb]
  refine ⟨hle, heq.trans (or_congr_right ?_)⟩
  rw [aloneIn_iff hlog]
  exact ⟨fun h t hactive => h t hactive.1 hactive.2, fun h t hlow hhigh => h t ⟨hlow, hhigh⟩⟩

theorem PhyRun.sinr_le_overlapped : ∃ y out r, PhyRun quietPhy overlappedLog out y ∧ r ∈ out ∧
    List.Forall₂ (fun frame v => ∃ k : Nat, overlappedLog[k]? = some ⟨r.firstRxStart, r.firstRxDuration, frame.psd⟩ ∧
      ∀ rb, v rb ≤ frame.psd rb / 1 ∧ (v rb = frame.psd rb / 1 ↔
        frame.psd rb = 0 ∨ AloneIn overlappedLog k ⟨r.firstRxStart, r.firstRxDuration, frame.psd⟩ rb))
      r.frames r.slSinrPerceived := by
  obtain ⟨y, out, r, hrun, hr, hduration⟩ := overlapped_run
  have hlog : ∀ a ∈ overlappedLog, 0 ≤ a.value := by
    intro a ha
    simp only [overlappedLog, List.mem_cons, List.not_mem_nil, or_false] at ha
    rcases ha with rfl | rfl
    · exact fun _ => by norm_num
    · exact fun _ => by norm_num
  exact ⟨y, out, r, hrun, hr, hrun.sinr_le quietPhy_noiseSet (by decide) hlog (fun _ => one_pos) hr (by omega)⟩

end Interferers

end SidelinkORe
