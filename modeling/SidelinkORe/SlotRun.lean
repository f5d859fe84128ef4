import SidelinkORe.SlotIndication

namespace SidelinkORe

/-- The slot indication after `n` is the one of the next sidelink slot. -/
structure NextSlot (pool : NrSlCommResourcePool) (n n' : Nat) : Prop where
  later : n < n'
  sidelink : pool.isSidelinkSlot n' = true
  between : ∀ m, n < m → m < n' → pool.isSidelinkSlot m = false

theorem nextSlot_le {pool : NrSlCommResourcePool} {n n' m : Nat} (hnext : NextSlot pool n n') (hlater : n < m)
    (hsl : pool.isSidelinkSlot m = true) : n' ≤ m := by
  by_contra hlt
  have hfree := hnext.between m hlater (by omega)
  rw [hsl] at hfree
  cases hfree

theorem nextSlot_unique {pool : NrSlCommResourcePool} {n a b : Nat} (ha : NextSlot pool n a)
    (hb : NextSlot pool n b) : a = b :=
  Nat.le_antisymm (nextSlot_le ha hb.later hb.sidelink) (nextSlot_le hb ha.later ha.sidelink)

/-- The pool repeats, so a slot is always followed by a sidelink slot. -/
theorem exists_nextSlot {pool : NrSlCommResourcePool} {m : Nat} (hsl : pool.isSidelinkSlot m = true)
    (n : Nat) : ∃ n', NextSlot pool n n' := by
  have hlater : ∃ k, n < k ∧ pool.isSidelinkSlot k = true := by
    refine ⟨m + (n + 1) * pool.phyPool.length, ?_, ?_⟩
    · have hle := Nat.le_mul_of_pos_right (n + 1) pool.phyPool_length_pos
      omega
    · unfold NrSlCommResourcePool.isSidelinkSlot at hsl ⊢
      rw [Nat.add_mul_mod_self_right]
      exact hsl
  obtain ⟨hlt, hyes⟩ := Nat.find_spec hlater
  refine ⟨Nat.find hlater, hlt, hyes, fun k hlow hhigh => ?_⟩
  by_contra hk
  exact Nat.find_min hlater hhigh ⟨hlow, by simpa using hk⟩

/-- A UE between two slot indications, with the next slot to be processed. -/
structure UeState (W : Type) where
  slot : Nat
  mac : UeMac
  world : W

section Runs

variable {W : Type} (S : RsrpScale) (cfg : UeMacConfig)

structure Initial (x : UeState W) : Prop where
  sidelink : cfg.pool.isSidelinkSlot x.slot = true
  mac : ∃ numSidelinkProcess, numSidelinkProcess < 256 ∧ x.mac = initUeMac numSidelinkProcess

/-- One slot indication; `mid` is the MAC state from which the transmission loop starts. -/
structure SlotStep (env : SlotEnv W) (x : UeState W) (mid : UeMac) (sent : List Transmission)
    (y : UeState W) : Prop where
  selected : selectionPhase S cfg env x.slot (x.mac, x.world) = .ok (mid, y.world)
  transmitted : transmissionPhase cfg env x.slot mid = .ok (y.mac, sent)
  next : NextSlot cfg.pool x.slot y.slot

/-- Slot indications over consecutive sidelink slots, each under the condition `C`. -/
inductive Run (C : SlotEnv W → UeState W → Prop) (x : UeState W) :
    List Transmission → UeState W → Prop
  | start : Run C x [] x
  | next (env : SlotEnv W) (y : UeState W) (mid : UeMac) (sent log : List Transmission)
      (z : UeState W) (before : Run C x log y) (meets : C env y)
      (step : SlotStep S cfg env y mid sent z) : Run C x (log ++ sent) z

/-- The states that slot indications reach from a freshly created MAC. -/
def Reachable (C : SlotEnv W → UeState W → Prop) (y : UeState W) : Prop :=
  ∃ x log, Initial cfg x ∧ Run S cfg C x log y

variable {S cfg} {env : SlotEnv W} {C : SlotEnv W → UeState W → Prop}

theorem slotStep_iff {x y : UeState W} {sent : List Transmission}
    (hnext : NextSlot cfg.pool x.slot y.slot) :
    doNrSlSlotIndication S cfg env x.slot (x.mac, x.world) = .ok ((y.mac, y.world), sent) ↔
      ∃ mid, SlotStep S cfg env x mid sent y := by
  rw [doNrSlSlotIndication_iff]
  constructor
  · rintro ⟨mid, hselect, htransmit⟩
    exact ⟨mid, hselect, htransmit, hnext⟩
  · rintro ⟨mid, hselect, htransmit, _⟩
    exact ⟨mid, hselect, htransmit⟩

/-- What one slot indication under the condition preserves holds in every state of a run. -/
theorem Run.invariant {P : UeState W → Prop} {x y : UeState W} {log : List Transmission}
    (preserve : ∀ env y mid sent z, P y → C env y → SlotStep S cfg env y mid sent z → P z)
    (h : Run S cfg C x log y) (hx : P x) : P y := by
  induction h with
  | start => exact hx
  | next env y mid sent log z _ meets step ih => exact preserve env y mid sent z ih meets step

theorem Run.mono {D : SlotEnv W → UeState W → Prop} {x y : UeState W} {log : List Transmission}
    (hCD : ∀ env z, C env z → D env z) (h : Run S cfg C x log y) : Run S cfg D x log y := by
  induction h with
  | start => exact .start
  | next env y mid sent log z _ meets step ih =>
    exact .next env y mid sent log z ih (hCD env y meets) step

theorem Run.trans {x y z : UeState W} {log log' : List Transmission} (h : Run S cfg C x log y)
    (h' : Run S cfg C y log' z) : Run S cfg C x (log ++ log') z := by
  induction h' with
  | start =>
    rw [List.append_nil]
    exact h
  | next env y mid sent log z _ meets step ih =>
    rw [← List.append_assoc]
    exact .next env y mid sent _ z ih meets step

theorem SlotStep.sound {x y : UeState W} {mid : UeMac} {sent : List Transmission}
    (step : SlotStep S cfg env x mid sent y) (hs : MacSound x.mac) : MacSound mid ∧ MacSound y.mac := by
  have hmid := selectionPhase_sound hs step.selected
  exact ⟨hmid, (transmissionPhase_sound hmid step.transmitted).1⟩

theorem Initial.sound {x : UeState W} (h : Initial cfg x) : MacSound x.mac := by
  obtain ⟨_, n, _, hmac⟩ := h
  rw [hmac]
  refine ⟨NrSlUeMacHarq.initHarqBuffer_sound n, fun d g hg => ?_⟩
  cases Table.find?_eq_some_iff.mp hg

theorem Reachable.sound {y : UeState W} (h : Reachable S cfg C y) : MacSound y.mac := by
  obtain ⟨x, log, hinit, hrun⟩ := h
  exact hrun.invariant (fun _ _ _ _ _ hs _ step => (step.sound hs).2) hinit.sound

theorem SlotStep.size {x y : UeState W} {mid : UeMac} {sent : List Transmission}
    (step : SlotStep S cfg env x mid sent y) (hs : MacSound x.mac) :
    y.mac.harq.nrSlHarqPktBuffer.length = x.mac.harq.nrSlHarqPktBuffer.length := by
  have hharq : mid.harq = x.mac.harq := (selectionPhase_ok step.selected).1
  rw [← hharq]
  exact (transmissionPhase_sound (step.sound hs).1 step.transmitted).2

/-- The pool of HARQ ids keeps its size, which fits into eight bits. -/
theorem Reachable.size {y : UeState W} (h : Reachable S cfg C y) :
    y.mac.harq.nrSlHarqPktBuffer.length < 256 := by
  obtain ⟨x, log, hinit, hrun⟩ := h
  have hsound := hinit.sound
  obtain ⟨_, n, hn, hmac⟩ := hinit
  refine (hrun.invariant (P := fun z : UeState W =>
    MacSound z.mac ∧ z.mac.harq.nrSlHarqPktBuffer.length < 256)
    (fun _ _ _ _ _ hz _ step => ⟨(step.sound hz.1).2, by rw [step.size hz.1]; exact hz.2⟩)
    ⟨hsound, ?_⟩).2
  rw [hmac]
  change (List.replicate n _).length < 256
  rw [List.length_replicate]
  exact hn

end Runs

section SlotRun

def faultOf {α : Type} : Except Fault α → Option Fault
  | .error e => some e
  | .ok _ => none

theorem eq_error_of_faultOf {α : Type} {r : Except Fault α} {e : Fault} (h : faultOf r = some e) :
    r = .error e := by
  cases r with
  | error e' => exact congrArg _ (Option.some.inj h)
  | ok a => cases h

variable {W : Type} (S : RsrpScale) (cfg : UeMacConfig) (slotAt : Nat → Nat) (envAt : Nat → SlotEnv W)
  (st₀ : UeMac × W)

/-- The MAC after `k` slot indications, the last of them in slot `slotAt (k - 1)`. -/
def slotRun : Nat → Except Fault (UeMac × W)
  | 0 => .ok st₀
  | k + 1 => do
    let st ← slotRun k
    let r ← doNrSlSlotIndication S cfg (envAt k) (slotAt k) st
    pure r.1

variable {S cfg slotAt envAt st₀}

theorem slotRun_step {k : Nat} {st st' : UeMac × W}
    (hnext : NextSlot cfg.pool (slotAt k) (slotAt (k + 1)))
    (h : slotRun S cfg slotAt envAt st₀ k = .ok st)
    (h' : slotRun S cfg slotAt envAt st₀ (k + 1) = .ok st') :
    ∃ mid sent, SlotStep S cfg (envAt k) ⟨slotAt k, st.1, st.2⟩ mid sent
      ⟨slotAt (k + 1), st'.1, st'.2⟩ := by
  obtain ⟨st₁, h₁, h'⟩ := bind_ok_iff.mp h'
  obtain rfl := Except.ok.inj (h.symm.trans h₁)
  obtain ⟨r, hr, h'⟩ := bind_ok_iff.mp h'
  obtain rfl := pure_ok_iff.mp h'
  obtain ⟨mid, step⟩ := (slotStep_iff (x := ⟨slotAt k, st.1, st.2⟩)
    (y := ⟨slotAt (k + 1), r.1.1, r.1.2⟩) hnext).mp hr
  exact ⟨mid, r.2, step⟩

theorem slotRun_earlier {i k : Nat} {st : UeMac × W}
    (h : slotRun S cfg slotAt envAt st₀ (i + k) = .ok st) :
    ∃ st', slotRun S cfg slotAt envAt st₀ i = .ok st' := by
  induction k generalizing st with
  | zero => exact ⟨st, h⟩
  | succ k ih =>
    obtain ⟨st₁, h₁, _⟩ := bind_ok_iff.mp h
    exact ih h₁

/-- The part of such a run from `i` on, when every indication in it meets the condition. -/
theorem slotRun_reaches {i k : Nat} {C : SlotEnv W → UeState W → Prop} {st st' : UeMac × W}
    (hnext : ∀ k, NextSlot cfg.pool (slotAt k) (slotAt (k + 1)))
    (h : slotRun S cfg slotAt envAt st₀ i = .ok st)
    (h' : slotRun S cfg slotAt envAt st₀ (i + k) = .ok st')
    (meets : ∀ n z log, n < i + k → slotRun S cfg slotAt envAt st₀ n = .ok z →
      Run S cfg C ⟨slotAt i, st.1, st.2⟩ log ⟨slotAt n, z.1, z.2⟩ →
      C (envAt n) ⟨slotAt n, z.1, z.2⟩) :
    ∃ log, Run S cfg C ⟨slotAt i, st.1, st.2⟩ log ⟨slotAt (i + k), st'.1, st'.2⟩ := by
  induction k generalizing st' with
  | zero =>
    obtain rfl := Except.ok.inj (h.symm.trans h')
    exact ⟨[], .start⟩
  | succ k ih =>
    obtain ⟨st₁, h₁, _⟩ := bind_ok_iff.mp h'
    obtain ⟨log, hlog⟩ := ih h₁ fun n z log hhigh => meets n z log (by omega)
    obtain ⟨mid, sent, step⟩ := slotRun_step (hnext (i + k)) h₁ h'
    exact ⟨log ++ sent, .next _ _ mid sent log _ hlog (meets _ st₁ log (by omega) h₁ hlog) step⟩

/-- Every run through the environments of `slotRun` is a part of it. -/
theorem slotRun_of_run {k : Nat} {C : SlotEnv W → UeState W → Prop} {st : UeMac × W} {y : UeState W}
    {log : List Transmission} (hnext : ∀ k, NextSlot cfg.pool (slotAt k) (slotAt (k + 1)))
    (hC : ∀ env m z, C env z → z.slot = slotAt m → env = envAt m)
    (h : slotRun S cfg slotAt envAt st₀ k = .ok st)
    (run : Run S cfg C ⟨slotAt k, st.1, st.2⟩ log y) :
    ∃ m st', slotRun S cfg slotAt envAt st₀ m = .ok st' ∧ y = ⟨slotAt m, st'.1, st'.2⟩ := by
  induction run with
  | start => exact ⟨k, st, h, rfl⟩
  | next env y mid sent log z _ meets step ih =>
    obtain ⟨m, st', hm, rfl⟩ := ih
    obtain rfl := hC env m _ meets rfl
    have hslot : z.slot = slotAt (m + 1) := nextSlot_unique step.next (hnext m)
    have hind := (slotStep_iff step.next).mpr ⟨mid, step⟩
    refine ⟨m + 1, (z.mac, z.world), ?_, by rw [← hslot]⟩
    exact bind_ok_iff.mpr ⟨st', hm, bind_ok_iff.mpr ⟨_, hind, rfl⟩⟩

theorem slotRun_stops {k : Nat} {e : Fault} {st : UeMac × W}
    (h : slotRun S cfg slotAt envAt st₀ k = .ok st)
    (hstop : slotRun S cfg slotAt envAt st₀ (k + 1) = .error e) :
    doNrSlSlotIndication S cfg (envAt k) (slotAt k) st = .error e := by
  change (slotRun S cfg slotAt envAt st₀ k >>= _) = .error e at hstop
  rw [h] at hstop
  change (doNrSlSlotIndication S cfg (envAt k) (slotAt k) st >>= _) = .error e at hstop
  cases hind : doNrSlSlotIndication S cfg (envAt k) (slotAt k) st with
  | error e' =>
    rw [hind] at hstop
    exact congrArg _ (Except.error.inj hstop)
  | ok r =>
    rw [hind] at hstop
    cases hstop

end SlotRun

section SparsePool

/-- A pool with one sidelink slot in a hundred. -/
def sparsePool : NrSlCommResourcePool where
  phyPool := true :: List.replicate 99 false
  phyPool_ne_nil := by decide
  shape := {}
  slSelectionWindow := 5
  numerology := 0
  resvPeriodInSlots := fun ms => ms
  sensWindInSlots := 100

/-- A UE with one destination and one logical channel that selects without sensing. -/
def sparseConfig : UeMacConfig where
  pool := sparsePool
  t1 := 2
  t2 := 100
  totalSubCh := 4
  pRsvpTx := 100
  tproc0 := 1
  enableSensing := false
  slThresPsschRsrp := -110
  resPercentage := 20
  oReExp := false
  imsi := 1
  schedulingType := .ueSelected
  assertsEnabled := true
  slProbResourceKeep := 0
  enableBlindReTx := true
  srcL2Id := 10
  sidelinkTxDestinations := [(255, 1)]
  nrSlLcInfoMap := [(1, 255)]
  destinations_nodup := soleDestination_nodup

/-- A single transmission in the first offered slot. -/
def firstSlotAlloc (dstL2Id : Nat) (c : NrSlSlotInfo) : NrSlSlotAlloc where
  sfn := c.sfn
  dstL2Id := dstL2Id
  ndi := 1
  rv := 0
  priority := 1
  slRlcPduInfo := [⟨1, 300⟩]
  mcs := 14
  shape := c.shape
  slPsschSubChStart := 0
  slPsschSubChLength := 1
  maxNumPerReserve := 1
  txSci1A := true
  slotNumInd := 1

def firstSlotAllocation (dstL2Id : Nat) (c : NrSlSlotInfo) (rest : List NrSlSlotInfo) :
    Allocation dstL2Id (c :: rest) where
  slots := KeyedSet.empty.emplace (firstSlotAlloc dstL2Id c)
  nonempty := by simp [insertByKey]
  dest := by simp [insertByKey, firstSlotAlloc]
  drawn := by simp [insertByKey, firstSlotAlloc]

def firstSlotScheduler (dstL2Id : Nat) : (offered : List NrSlSlotInfo) → Unit →
    Except Fault (Unit × Option (Allocation dstL2Id offered))
  | [], w => .ok (w, none)
  | c :: rest, w => .ok (w, some (firstSlotAllocation dstL2Id c rest))

/-- A slot without sensed messages; the RLC answers as told. -/
def quietEnv (rlc : Bool) : SlotEnv Unit where
  received := []
  now := 0
  randProb := fun _ => 0
  reselDraw := fun _ => 0
  passSensingData := fun _ w => .ok w
  schedule := firstSlotScheduler
  rlc := fun _ _ => rlc
  order := storedOrder

/-- The MAC after `k` slot indications in the sparse pool; `rlc k` is the answer of the RLC at the
`k`-th one. -/
def sparseRun (S : RsrpScale) (numSidelinkProcess : Nat) (rlc : Nat → Bool) :
    Nat → Except Fault (UeMac × Unit) :=
  slotRun S sparseConfig (fun k => 100 * k) (fun k => quietEnv (rlc k))
    (initUeMac numSidelinkProcess, ())

theorem sparsePool_isSidelinkSlot (m : Nat) :
    sparsePool.isSidelinkSlot m = true ↔ m % 100 = 0 := by
  have hall : ∀ r < 100, (true :: List.replicate 99 false).getD r false = true ↔ r = 0 := by decide
  exact hall (m % 100) (Nat.mod_lt m (by decide))

theorem sparsePool_next (k : Nat) : NextSlot sparsePool (100 * k) (100 * (k + 1)) where
  later := by omega
  sidelink := (sparsePool_isSidelinkSlot _).mpr (by omega)
  between := by
    intro m hlow hhigh
    by_contra hm
    have hzero := (sparsePool_isSidelinkSlot m).mp (by simpa using hm)
    omega

theorem sparseRun_reachable {S : RsrpScale} {numSidelinkProcess k : Nat} {rlc : Nat → Bool}
    {st : UeMac × Unit} (hnum : numSidelinkProcess < 256)
    (h : sparseRun S numSidelinkProcess rlc k = .ok st) :
    Reachable S sparseConfig (fun _ _ => True) ⟨100 * k, st.1, st.2⟩ := by
  unfold sparseRun at h
  rw [← Nat.zero_add k] at h
  obtain ⟨log, hrun⟩ := slotRun_reaches (C := fun _ _ => True) (i := 0) sparsePool_next rfl h
    (fun _ _ _ _ _ _ => trivial)
  rw [Nat.zero_add] at hrun
  have hzero : sparsePool.isSidelinkSlot 0 = true := (sparsePool_isSidelinkSlot 0).mpr rfl
  exact ⟨⟨0, initUeMac numSidelinkProcess, ()⟩, log, ⟨hzero, _, hnum, rfl⟩, hrun⟩

theorem sparseRun_stops {S : RsrpScale} {numSidelinkProcess k next slot : Nat} {e : Fault}
    {st : UeMac × Unit} (hrun : sparseRun S numSidelinkProcess (fun _ => false) k = .ok st)
    (hnext : next = k + 1) (hslot : slot = 100 * k)
    (hstop : sparseRun S numSidelinkProcess (fun _ => false) next = .error e) :
    doNrSlSlotIndication S sparseConfig (quietEnv false) slot st = .error e := by
  subst hnext hslot
  exact slotRun_stops hrun hstop

/-- The first slot of each entry of the grant table. -/
def firstSlots (s : UeMac) : List (Option Nat) :=
  s.grantInfo.entries.map fun e => (e.2.slotAllocations.elems.map (·.sfn)).head?

theorem firstSlots_head {s : UeMac} {n d : Nat} {g : NrSlGrantInfo} {a : NrSlSlotAlloc}
    {rest : List NrSlSlotAlloc} (h : firstSlots s = [some n]) (hg : s.grantInfo.find? d = some g)
    (helems : g.slotAllocations.elems = a :: rest) : a.sfn = n := by
  have hmem := List.mem_map_of_mem (f := fun e : Nat × NrSlGrantInfo =>
    (e.2.slotAllocations.elems.map (·.sfn)).head?) (Table.find?_eq_some_iff.mp hg)
  change _ ∈ firstSlots s at hmem
  rw [h] at hmem
  simpa [helems] using hmem

theorem sparse_initial : Initial sparseConfig (⟨0, initUeMac 4, ()⟩ : UeState Unit) :=
  ⟨(sparsePool_isSidelinkSlot 0).mpr rfl, 4, by decide, rfl⟩

theorem sparse_firstStep :
    ∃ mid y sent, SlotStep realScale sparseConfig (quietEnv true)
      (⟨0, initUeMac 4, ()⟩ : UeState Unit) mid sent y ∧ y.slot = 100 ∧
      firstSlots mid = [some 100] ∧ firstSlots y.mac = [some 100] := by
  have hsel : (selectionPhase realScale sparseConfig (quietEnv true) 0
      (initUeMac 4, ())).toOption.map (fun st => firstSlots st.1) = some [some 100] := by
    decide +kernel
  have hrun : (doNrSlSlotIndication realScale sparseConfig (quietEnv true) 0
      (initUeMac 4, ())).toOption.map (fun r => firstSlots r.1.1) = some [some 100] := by
    decide +kernel
  cases hr : doNrSlSlotIndication realScale sparseConfig (quietEnv true) 0 (initUeMac 4, ()) with
  | error e =>
    rw [hr] at hrun
    cases hrun
  | ok r =>
    rw [hr] at hrun
    obtain ⟨mid, step⟩ := (slotStep_iff (x := ⟨0, initUeMac 4, ()⟩)
      (y := (⟨100, r.1.1, r.1.2⟩ : UeState Unit)) (sparsePool_next 0)).mp hr
    have hmid := step.selected
    change selectionPhase realScale sparseConfig (quietEnv true) 0 (initUeMac 4, ()) = _ at hmid
    rw [hmid] at hsel
    exact ⟨mid, _, r.2, step, rfl, Option.some.inj hsel, Option.some.inj hrun⟩

end SparsePool

end SidelinkORe
