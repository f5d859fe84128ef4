import SidelinkORe.SlotRun
import SidelinkORe.SlotReturns

namespace SidelinkORe

open NrSlUeMacHarq

/-- A transmission by its allocation, the counter that the trace shows and the Rc of its SCI 1-A. -/
structure PlannedUse where
  alloc : NrSlSlotAlloc
  resoReselCounter : Int
  rc : Option UInt8
  deriving DecidableEq

def Transmission.use (t : Transmission) : PlannedUse :=
  ⟨t.alloc, t.resoReselCounter, t.sciF1a.map (·.rc)⟩

/-- Period `p` of a grant with counter `R` announces that `R - p` more periods follow. -/
def plannedUse (R P p : Nat) (a : NrSlSlotAlloc) : PlannedUse where
  alloc := shiftAlloc (p * P) a
  resoReselCounter := (R : Int) - p
  rc := if a.txSci1A = true then some (UInt8.ofNat (R - p)) else none

/-- The transmissions of a grant in its `R + 1` reservation periods. -/
def plannedUses (R P : Nat) (l : List NrSlSlotAlloc) : List PlannedUse :=
  rounds (R + 1) (plannedUse R P) l

def UeMacConfig.period (cfg : UeMacConfig) : Nat := cfg.pool.resvPeriodInSlots cfg.pRsvpTx

/-- The grants whose counter is meant to count periods: one new-data slot in front, all slots of a
period within the selection window of slot `n`, every used slot a sidelink slot, and all prepared
slots before the frame counter restarts. -/
structure CountableGrant (cfg : UeMacConfig) (d R n : Nat) (A : SlotAllocSet) : Prop where
  counter_pos : 1 ≤ R
  counter_le : R ≤ 255
  size_le : A.elems.length ≤ 255
  dest : ∀ a ∈ A.elems, a.dstL2Id = d
  window : ∀ a ∈ A.elems, n + cfg.t1 ≤ a.sfn ∧ a.sfn ≤ n + cfg.t2
  period : cfg.t2 + 1 ≤ cfg.period + cfg.t1
  onlyFirst : ∃ first rest, A.elems = first :: rest ∧ first.ndi ≠ 0 ∧ first.slRlcPduInfo ≠ [] ∧
    ∀ a ∈ rest, a.ndi = 0
  sidelink : ∀ p ≤ R, ∀ a ∈ A.elems, cfg.pool.isSidelinkSlot (a.sfn + p * cfg.period) = true
  noWrap : ∀ a ∈ A.elems, a.sfn + R * 10 * cfg.period < SfnSf.cycle cfg.pool.numerology

/-- What the slots of a grant need besides a HARQ id: known logical channels, blind retransmissions
and SCI 1-A that can be built. -/
structure UsableGrant (cfg : UeMacConfig) (d : Nat) (A : SlotAllocSet) : Prop where
  channels : ∀ a ∈ A.elems, a.ndi ≠ 0 → ∀ lc ∈ a.slRlcPduInfo, (lc.lcid, d) ∈ cfg.nrSlLcInfoMap
  blind : ∀ a ∈ A.elems, a.ndi = 0 → cfg.enableBlindReTx = true
  announces : ∀ (i : Nat) (a : NrSlSlotAlloc), A.elems[i]? = some a → a.txSci1A = true →
    Announces cfg a (A.elems.drop (i + 1))

/-- The RLC buffer is not empty when slot `n` is the first transmission of a period. -/
def RlcReady {W : Type} (cfg : UeMacConfig) (d : Nat) (A : SlotAllocSet) (env : SlotEnv W) (n : Nat) :
    Prop :=
  ∀ a ∈ A.elems, a.ndi ≠ 0 → ∀ p, n = a.sfn + p * cfg.period →
    ∀ lc ∈ a.slRlcPduInfo, env.rlc d lc.lcid = true

section Unhindered

variable {W : Type} (cfg : UeMacConfig) (env : SlotEnv W)

/-- The transmission loop of slot `n` comes to the entry of `d`, with these HARQ processes. -/
def ComesTo (n : Nat) (mid : UeMac) (d : Nat) (g : NrSlGrantInfo) (h : NrSlUeMacHarq) : Prop :=
  ∃ before after l log, (env.order mid.grantInfo).1 = before ++ (d, g) :: after ∧
    sweep (visit (useEntry cfg n env.rlc)) before (mid.harq, []) = .ok (l, h, log)

/-- No other destination stops the transmission loop, and a new-data slot of `d` finds a HARQ id for
each of its logical channels. -/
structure Unhindered (d n : Nat) (mid : UeMac) : Prop where
  others : ∀ d' g h, d' ≠ d → ComesTo cfg env n mid d' g h →
    ∃ r, useGrant cfg env.rlc n d' g h = .ok r
  idsLeft : ∀ g h a rest, ComesTo cfg env n mid d g h → g.slotAllocations.elems = a :: rest →
    a.sfn = n → a.ndi ≠ 0 → a.slRlcPduInfo.length ≤ h.nrSlHarqIdBuffer.length

end Unhindered

section Plan

variable {cfg : UeMacConfig} {d R n : Nat} {A : SlotAllocSet}

theorem expandAllocs_getElem? {k P i : Nat} {l : List NrSlSlotAlloc} (h : i < k * l.length) :
    (expandAllocs k P l)[i]? = (l[i % l.length]?).map (shiftAlloc (i / l.length * P)) :=
  getElem?_rounds (f := fun p => shiftAlloc (p * P)) h

theorem CountableGrant.size_pos (plan : CountableGrant cfg d R n A) : 1 ≤ A.elems.length := by
  obtain ⟨first, rest, hA, _⟩ := plan.onlyFirst
  rw [hA, List.length_cons]
  omega

theorem CountableGrant.expanded_le (plan : CountableGrant cfg d R n A) :
    (R + 1) * A.elems.length < R * 10 * A.elems.length := by
  apply Nat.mul_lt_mul_of_pos_right
  · have := plan.counter_pos
    omega
  · exact plan.size_pos

theorem CountableGrant.nth (plan : CountableGrant cfg d R n A) {j : Nat}
    (hj : j < (R + 1) * A.elems.length) :
    ∃ a ∈ A.elems, j / A.elems.length ≤ R ∧
      (expandAllocs (R * 10) cfg.period A.elems)[j]? =
        some (shiftAlloc (j / A.elems.length * cfg.period) a) ∧
      (plannedUses R cfg.period A.elems)[j]? =
        some (plannedUse R cfg.period (j / A.elems.length) a) ∧
      (j % A.elems.length = 0 → a.ndi ≠ 0 ∧ a.slRlcPduInfo ≠ []) ∧
      (j % A.elems.length ≠ 0 → a.ndi = 0) := by
  have hsize := plan.size_pos
  have hmod := Nat.mod_lt j (show 0 < A.elems.length by omega)
  have hperiod : j / A.elems.length ≤ R := by
    have := (Nat.div_lt_iff_lt_mul (by omega)).mpr hj
    omega
  obtain ⟨a, hget⟩ : ∃ a, A.elems[j % A.elems.length]? = some a :=
    ⟨_, List.getElem?_eq_getElem hmod⟩
  have hin := List.mem_of_getElem? hget
  have hlong := plan.expanded_le
  obtain ⟨first, rest, hA, hndi, hpdu, hrest⟩ := plan.onlyFirst
  refine ⟨a, hin, hperiod, ?_, ?_, fun hzero => ?_, fun hne => ?_⟩
  · rw [expandAllocs_getElem? (by omega), hget]
    rfl
  · rw [plannedUses, getElem?_rounds hj, hget]
    rfl
  · rw [hzero, hA] at hget
    obtain rfl := Option.some.inj hget
    exact ⟨hndi, hpdu⟩
  · obtain ⟨k, hk⟩ := Nat.exists_eq_succ_of_ne_zero hne
    rw [hk, hA] at hget
    exact hrest a (List.mem_of_getElem? hget)

/-- The slots of a selection lie within one period. -/
theorem CountableGrant.span (plan : CountableGrant cfg d R n A) :
    ∀ a ∈ A.elems, a.sfn < n + cfg.t1 + cfg.period := by
  intro a ha
  have hhigh := (plan.window a ha).2
  have hperiod := plan.period
  omega

theorem CountableGrant.sorted (plan : CountableGrant cfg d R n A) :
    (expandAllocs (R * 10) cfg.period A.elems).Pairwise fun a b => a.sfn < b.sfn :=
  expandAllocs_sorted (fun a ha => (plan.window a ha).1) plan.span

/-- The state of a grant after `j` of its planned uses, before slot `n`. -/
structure Progress (cfg : UeMacConfig) (d R : Nat) (A : SlotAllocSet) (n : Nat) (g : NrSlGrantInfo)
    (h : NrSlUeMacHarq) (j : Nat) : Prop where
  le : j ≤ (R + 1) * A.elems.length
  counter : g.slResoReselCounter = (R : Int) - (j / A.elems.length : Nat)
  slots : g.slotAllocations.elems = (expandAllocs (R * 10) cfg.period A.elems).drop j
  nSelected : g.nSelected = A.elems.length
  burst : j % A.elems.length ≠ 0 → g.tbTxCounter = j % A.elems.length ∧
    ∃ p, h.Owned d g.nrSlHarqId p ∧ 0 < p.pktBurst
  done : ∀ i x, i < j → (expandAllocs (R * 10) cfg.period A.elems)[i]? = some x → x.sfn < n
  ahead : ∀ x, j < (R + 1) * A.elems.length →
    (expandAllocs (R * 10) cfg.period A.elems)[j]? = some x → n ≤ x.sfn

theorem Progress.keeps {g : NrSlGrantInfo} {h h' : NrSlUeMacHarq} {j : Nat}
    (prog : Progress cfg d R A n g h j) (hkeep : Keeps d h h') : Progress cfg d R A n g h' j where
  le := prog.le
  counter := prog.counter
  slots := prog.slots
  nSelected := prog.nSelected
  burst := by
    intro hj
    obtain ⟨htb, p, hown, hpos⟩ := prog.burst hj
    exact ⟨htb, p, (hkeep _ p).mp hown, hpos⟩
  done := prog.done
  ahead := prog.ahead

theorem Progress.head {g : NrSlGrantInfo} {h : NrSlUeMacHarq} {j : Nat} {x : NrSlSlotAlloc}
    (prog : Progress cfg d R A n g h j)
    (hx : (expandAllocs (R * 10) cfg.period A.elems)[j]? = some x) :
    g.slotAllocations.elems = x :: (expandAllocs (R * 10) cfg.period A.elems).drop (j + 1) := by
  obtain ⟨hlt, rfl⟩ := List.getElem?_eq_some_iff.mp hx
  exact prog.slots.trans (List.drop_eq_getElem_cons hlt)

theorem transmit_planned {rlc : Nat → Nat → Bool} {g g₁ : NrSlGrantInfo} {h h₁ : NrSlUeMacHarq}
    {a : NrSlSlotAlloc} {txed : Bool} {r : Nat} (hd : a.dstL2Id = d) (hr : r < 255)
    (hsound : h.Sound) (hfirst : r = 0 → a.ndi ≠ 0 ∧ a.slRlcPduInfo ≠ []) (hlater : r ≠ 0 → a.ndi = 0)
    (hrlc : a.ndi ≠ 0 → ∀ lc ∈ a.slRlcPduInfo, rlc d lc.lcid = true)
    (hburst : r ≠ 0 → g.tbTxCounter = r ∧ ∃ p, h.Owned d g.nrSlHarqId p ∧ 0 < p.pktBurst)
    (htransmit : transmit cfg rlc g h a = .ok (g₁, h₁, txed)) :
    txed = true ∧ g₁.tbTxCounter = r + 1 ∧ ∃ p, h₁.Owned d g₁.nrSlHarqId p ∧ 0 < p.pktBurst := by
  unfold transmit at htransmit
  by_cases hzero : r = 0
  · obtain ⟨hndi, hpdu⟩ := hfirst hzero
    rw [if_pos hndi] at htransmit
    obtain ⟨hg₁, _, hsome, hlast, _⟩ := transmitNewData_ok htransmit
    rw [hd] at hsome hlast
    obtain ⟨lc, hlc⟩ := List.exists_mem_of_ne_nil _ hpdu
    refine ⟨hsome ⟨lc, hlc, hrlc hndi lc hlc⟩, ?_, hlast hpdu (hrlc hndi) hsound⟩
    rw [hg₁, hzero]
  · rw [if_neg (not_not.mpr (hlater hzero))] at htransmit
    obtain ⟨hg₁, rfl, q, hownq, htxed⟩ := retransmit_ok htransmit
    obtain ⟨htb, p, hown, hpos⟩ := hburst hzero
    rw [hd] at hownq
    obtain rfl := Option.some.inj (hownq.1.symm.trans hown.1)
    refine ⟨htxed.mpr hpos, ?_, q, ?_, hpos⟩
    · rw [hg₁]
      change (g.tbTxCounter + 1) % 256 = r + 1
      rw [htb]
      omega
    · rw [hg₁]
      exact hown

theorem transmit_returns {rlc : Nat → Nat → Bool} {g : NrSlGrantInfo} {h : NrSlUeMacHarq}
    {a : NrSlSlotAlloc} (hd : a.dstL2Id = d) (hsound : h.Sound)
    (hsize : h.nrSlHarqPktBuffer.length < 256)
    (hchannels : a.ndi ≠ 0 → ∀ lc ∈ a.slRlcPduInfo, (lc.lcid, d) ∈ cfg.nrSlLcInfoMap)
    (hblind : a.ndi = 0 → cfg.enableBlindReTx = true)
    (hleft : a.ndi ≠ 0 → a.slRlcPduInfo.length ≤ h.nrSlHarqIdBuffer.length)
    (hburst : a.ndi = 0 → ∃ p, h.Owned d g.nrSlHarqId p) :
    ∃ r, transmit cfg rlc g h a = .ok r := by
  unfold transmit
  by_cases hndi : a.ndi = 0
  · obtain ⟨p, hown⟩ := hburst hndi
    rw [if_neg (not_not.mpr hndi)]
    exact retransmit_returns (hd ▸ hown) (hblind hndi)
  · rw [if_pos hndi]
    exact transmitNewData_returns (hd ▸ hchannels hndi) hsound hsize (hleft hndi)

theorem ofInt_sub {p : Nat} (hR : R ≤ 255) (hp : p ≤ R) :
    UInt8.ofInt ((R : Int) - p) = UInt8.ofNat (R - p) := by
  unfold UInt8.ofInt
  congr 1
  omega

theorem sciF1aOf_rc {g : NrSlGrantInfo} {a : NrSlSlotAlloc} {sci : Option NrSlSciF1aHeader}
    (h : sciF1aOf cfg g a = .ok sci) :
    sci.map (·.rc) = if a.txSci1A = true then some (UInt8.ofInt g.slResoReselCounter) else none := by
  rcases sciF1aOf_ok h with ⟨hno, rfl⟩ | ⟨hyes, header, rfl, hbuild⟩
  · rw [if_neg (by simp [hno])]
    rfl
  · rw [if_pos hyes, Option.map_some, buildSciF1a_rc hbuild]

/-- A slot of the plan is really used: the transmission is the planned one, and the counter goes down
exactly when it was the last one of its period. -/
theorem consume_planned {n₀ j : Nat} {rlc : Nat → Nat → Bool} {g g' : NrSlGrantInfo}
    {h h' : NrSlUeMacHarq} {x : NrSlSlotAlloc} {sent : Option Transmission}
    (plan : CountableGrant cfg d R n₀ A) (prog : Progress cfg d R A n g h j)
    (hj : j < (R + 1) * A.elems.length)
    (hx : (expandAllocs (R * 10) cfg.period A.elems)[j]? = some x) (hsound : h.Sound)
    (hrlc : x.ndi ≠ 0 → ∀ lc ∈ x.slRlcPduInfo, rlc d lc.lcid = true)
    (hconsume : consumeSlot cfg rlc d { g with slotAllocations := g.slotAllocations.eraseBegin } x h =
      .ok (g', h', sent)) :
    (∃ t, sent = some t ∧ (plannedUses R cfg.period A.elems)[j]? = some t.use) ∧
      g'.slResoReselCounter = (R : Int) - ((j + 1) / A.elems.length : Nat) ∧
      ((j + 1) % A.elems.length ≠ 0 → g'.tbTxCounter = (j + 1) % A.elems.length ∧
        ∃ p, h'.Owned d g'.nrSlHarqId p ∧ 0 < p.pktBurst) := by
  obtain ⟨a, ha, hperiod, hget, hplanned, hfirst, hlater⟩ := plan.nth hj
  obtain rfl := Option.some.inj (hget.symm.trans hx)
  have hsize := plan.size_le
  have hmod := Nat.mod_lt j plan.size_pos
  obtain ⟨g₁, h₁, txed, htransmit, hcases⟩ := consumeSlot_ok hconsume
  obtain ⟨hsent, htb, hburst⟩ := transmit_planned
    (g := { g with slotAllocations := g.slotAllocations.eraseBegin }) (plan.dest a ha) (by omega)
    hsound hfirst hlater hrlc prog.burst htransmit
  have hg₁ := (transmit_ok htransmit).2
  have hcounter : g₁.slResoReselCounter = (R : Int) - (j / A.elems.length : Nat) := by
    rw [hg₁]
    exact prog.counter
  have hselected : g₁.nSelected = A.elems.length := by
    rw [hg₁]
    exact prog.nSelected
  rcases hcases with ⟨hfalse, _⟩ | ⟨_, hclose, sci, hsci, rfl⟩
  · rw [hsent] at hfalse
    cases hfalse
  refine ⟨⟨_, rfl, ?_⟩, ?_⟩
  · rw [hplanned, Transmission.use, sciF1aOf_rc hsci, hcounter, ofInt_sub plan.counter_le hperiod]
    rfl
  · rcases closePeriod_ok hclose with ⟨hmore, rfl, rfl⟩ | ⟨hlast, hg', _⟩
    · -- not the last use of the period
      rw [htb, hselected] at hmore
      obtain ⟨hdiv, hnext⟩ := add_in_round (show j % A.elems.length + 1 < A.elems.length by omega)
      rw [hdiv, hnext]
      exact ⟨hcounter, fun _ => ⟨htb, hburst⟩⟩
    · rw [htb, hselected] at hlast
      obtain ⟨hdiv, hnext⟩ := next_round hlast
      refine ⟨?_, fun hne => absurd hnext hne⟩
      rw [hg', hdiv]
      change g₁.slResoReselCounter - 1 = _
      omega

theorem sorted_getElem? {l : List NrSlSlotAlloc} (hl : l.Pairwise fun a b => a.sfn < b.sfn)
    {i j : Nat} {x y : NrSlSlotAlloc} (hij : i < j) (hx : l[i]? = some x) (hy : l[j]? = some y) :
    x.sfn < y.sfn := by
  obtain ⟨hi, rfl⟩ := List.getElem?_eq_some_iff.mp hx
  obtain ⟨hj, rfl⟩ := List.getElem?_eq_some_iff.mp hy
  exact List.pairwise_iff_getElem.mp hl i j hi hj hij

theorem Progress.wait {n₀ n' j : Nat} {g : NrSlGrantInfo} {h : NrSlUeMacHarq} {x : NrSlSlotAlloc}
    (plan : CountableGrant cfg d R n₀ A) (prog : Progress cfg d R A n g h j)
    (hj : j < (R + 1) * A.elems.length) (hnext : NextSlot cfg.pool n n')
    (hx : (expandAllocs (R * 10) cfg.period A.elems)[j]? = some x) (hnot : x.sfn ≠ n) :
    Progress cfg d R A n' g h j where
  le := prog.le
  counter := prog.counter
  slots := prog.slots
  nSelected := prog.nSelected
  burst := prog.burst
  done := by
    intro i y hi hy
    have hdone := prog.done i y hi hy
    have hlater := hnext.later
    omega
  ahead := by
    intro y _ hy
    obtain rfl := Option.some.inj (hx.symm.trans hy)
    obtain ⟨a, ha, hperiod, hget, _⟩ := plan.nth hj
    obtain rfl := Option.some.inj (hget.symm.trans hx)
    have hlow := prog.ahead _ hj hx
    exact nextSlot_le hnext (by omega) (plan.sidelink _ hperiod a ha)

theorem Progress.used {n₀ n' j : Nat} {g g' : NrSlGrantInfo} {h h' : NrSlUeMacHarq}
    {x : NrSlSlotAlloc} (plan : CountableGrant cfg d R n₀ A) (prog : Progress cfg d R A n g h j)
    (hj : j < (R + 1) * A.elems.length) (hnext : NextSlot cfg.pool n n')
    (hx : (expandAllocs (R * 10) cfg.period A.elems)[j]? = some x) (hnow : x.sfn = n)
    (hcounter : g'.slResoReselCounter = (R : Int) - ((j + 1) / A.elems.length : Nat))
    (hslots : g'.slotAllocations.elems = g.slotAllocations.elems.tail)
    (hselected : g'.nSelected = g.nSelected)
    (hburst : (j + 1) % A.elems.length ≠ 0 → g'.tbTxCounter = (j + 1) % A.elems.length ∧
      ∃ p, h'.Owned d g'.nrSlHarqId p ∧ 0 < p.pktBurst) :
    Progress cfg d R A n' g' h' (j + 1) where
  le := hj
  counter := hcounter
  slots := by rw [hslots, prog.slots, List.tail_drop]
  nSelected := hselected.trans prog.nSelected
  burst := hburst
  done := by
    intro i y hi hy
    have hlater := hnext.later
    by_cases hij : i = j
    · subst hij
      obtain rfl := Option.some.inj (hx.symm.trans hy)
      omega
    · have hdone := prog.done i y (by omega) hy
      omega
  ahead := by
    intro y hj' hy
    have hrise := sorted_getElem? plan.sorted (Nat.lt_succ_self j) hx hy
    obtain ⟨a, ha, hperiod, hget, _⟩ := plan.nth hj'
    obtain rfl := Option.some.inj (hget.symm.trans hy)
    exact nextSlot_le hnext (by omega) (plan.sidelink _ hperiod a ha)

/-- The grant's turn in one slot indication: it waits for its next slot, or it makes the next planned
transmission. -/
theorem progress_turn {n₀ n' j : Nat} {rlc : Nat → Nat → Bool} {g g' : NrSlGrantInfo}
    {h h' : NrSlUeMacHarq} {own : Option Transmission} (plan : CountableGrant cfg d R n₀ A)
    (prog : Progress cfg d R A n g h j) (hj : j < (R + 1) * A.elems.length) (hsound : h.Sound)
    (hnext : NextSlot cfg.pool n n')
    (hrlc : ∀ a ∈ A.elems, a.ndi ≠ 0 → ∀ p, n = a.sfn + p * cfg.period →
      ∀ lc ∈ a.slRlcPduInfo, rlc d lc.lcid = true)
    (huse : useGrant cfg rlc n d g h = .ok (g', h', own)) :
    ∃ j', Progress cfg d R A n' g' h' j' ∧ (plannedUses R cfg.period A.elems).take j' =
      (plannedUses R cfg.period A.elems).take j ++ own.toList.map Transmission.use := by
  obtain ⟨a, ha, hperiod, hx, hplanned, _⟩ := plan.nth hj
  have helems := prog.head hx
  rcases useGrant_ok huse with ⟨rfl, rfl, rfl, hidle⟩ | ⟨_, b, rest, helems', hnow, hconsume⟩
  · have hnot : (shiftAlloc (j / A.elems.length * cfg.period) a).sfn ≠ n := by
      rcases hidle with hdead | ⟨b, rest, helems', hb⟩
      · have hcounter := prog.counter
        omega
      · rw [helems] at helems'
        obtain ⟨rfl, _⟩ := List.cons.inj helems'
        exact hb
    exact ⟨j, prog.wait plan hj hnext hx hnot, by simp⟩
  · rw [helems] at helems'
    obtain ⟨rfl, rfl⟩ := List.cons.inj helems'
    have hready : (shiftAlloc (j / A.elems.length * cfg.period) a).ndi ≠ 0 →
        ∀ lc ∈ (shiftAlloc (j / A.elems.length * cfg.period) a).slRlcPduInfo, rlc d lc.lcid = true :=
      fun hndi => hrlc a ha hndi _ hnow.symm
    obtain ⟨⟨t, rfl, hused⟩, hcounter, hburst⟩ :=
      consume_planned plan prog hj hx hsound hready hconsume
    obtain ⟨hslots, hselected, _⟩ := consumeSlot_grant hconsume
    refine ⟨j + 1, prog.used plan hj hnext hx hnow hcounter (congrArg KeyedSet.elems hslots)
      hselected hburst, ?_⟩
    rw [List.take_add_one, hused]
    rfl

/-- What a slot of the plan announces follows it in the same period. -/
theorem UsableGrant.announces_planned {n₀ j : Nat} {x : NrSlSlotAlloc}
    (plan : CountableGrant cfg d R n₀ A) (usable : UsableGrant cfg d A)
    (hj : j < (R + 1) * A.elems.length)
    (hx : (expandAllocs (R * 10) cfg.period A.elems)[j]? = some x) (hsci : x.txSci1A = true) :
    Announces cfg x ((expandAllocs (R * 10) cfg.period A.elems).drop (j + 1)) := by
  have hlong := plan.expanded_le
  rw [expandAllocs_getElem? (by omega)] at hx
  obtain ⟨a, ha, rfl⟩ := Option.map_eq_some_iff.mp hx
  refine (usable.announces _ a ha hsci).later fun k b hb => ?_
  rw [List.getElem?_drop] at hb
  have hlt := (List.getElem?_eq_some_iff.mp hb).1
  obtain ⟨hdiv, hmod⟩ := add_in_round (i := j) (m := A.elems.length) (k := 1 + k) (by omega)
  have hsame : (j + (1 + k)) / A.elems.length < R + 1 := by
    rw [hdiv]
    exact (Nat.div_lt_iff_lt_mul plan.size_pos).mpr hj
  have hbound := (Nat.div_lt_iff_lt_mul plan.size_pos).mp hsame
  rw [List.getElem?_drop, Nat.add_assoc, expandAllocs_getElem? (by omega), hdiv, hmod,
    ← Nat.add_assoc, hb]
  rfl

/-- A slot of the plan that finds its HARQ ids is used without a fault. -/
theorem consume_returns {n₀ j : Nat} {rlc : Nat → Nat → Bool} {g : NrSlGrantInfo}
    {h : NrSlUeMacHarq} {x : NrSlSlotAlloc} (plan : CountableGrant cfg d R n₀ A)
    (usable : UsableGrant cfg d A) (prog : Progress cfg d R A n g h j)
    (hj : j < (R + 1) * A.elems.length)
    (hx : (expandAllocs (R * 10) cfg.period A.elems)[j]? = some x) (hsound : h.Sound)
    (hsize : h.nrSlHarqPktBuffer.length < 256)
    (hrlc : x.ndi ≠ 0 → ∀ lc ∈ x.slRlcPduInfo, rlc d lc.lcid = true)
    (hleft : x.ndi ≠ 0 → x.slRlcPduInfo.length ≤ h.nrSlHarqIdBuffer.length) :
    ∃ r, consumeSlot cfg rlc d { g with slotAllocations := g.slotAllocations.eraseBegin } x h =
      .ok r := by
  obtain ⟨a, ha, hperiod, hget, hplanned, hfirst, hlater⟩ := plan.nth hj
  obtain rfl := Option.some.inj (hget.symm.trans hx)
  have hsizeA := plan.size_le
  have hmod := Nat.mod_lt j plan.size_pos
  have hd := plan.dest a ha
  have hhead := prog.head hx
  have hburst : a.ndi = 0 → ∃ p, h.Owned d g.nrSlHarqId p := by
    intro hndi
    obtain ⟨_, p, hown, _⟩ := prog.burst fun hzero => (hfirst hzero).1 hndi
    exact ⟨p, hown⟩
  have htransmits := @transmit_returns cfg d rlc
    { g with slotAllocations := g.slotAllocations.eraseBegin } h
    (shiftAlloc (j / A.elems.length * cfg.period) a) hd hsound hsize (usable.channels a ha)
    (usable.blind a ha) hleft hburst
  obtain ⟨⟨g₁, h₁, txed⟩, htransmit⟩ := htransmits
  obtain ⟨_, _, p, hown, _⟩ := transmit_planned
    (g := { g with slotAllocations := g.slotAllocations.eraseBegin }) hd (by omega) hsound hfirst
    hlater hrlc prog.burst htransmit
  obtain ⟨hconf, hg₁⟩ := transmit_ok htransmit
  have hnext : g₁.slotAllocations.elems =
      (expandAllocs (R * 10) cfg.period A.elems).drop (j + 1) := by
    rw [hg₁]
    change g.slotAllocations.elems.tail = _
    rw [hhead, List.tail_cons]
  have hsorted := g.slotAllocations.sorted
  rw [hhead] at hsorted
  refine consumeSlot_returns htransmit (fun hyes => ?_) (hnext ▸ hsorted)
    (closePeriod_returns (hconf.sound hsound) (hd ▸ hown))
  rw [hnext]
  exact usable.announces_planned plan hj hx hyes

/-- The turn of a grant that has planned uses left stops at nothing but a missing HARQ id. -/
theorem Progress.returns {n₀ j : Nat} {rlc : Nat → Nat → Bool} {g : NrSlGrantInfo}
    {h : NrSlUeMacHarq} (plan : CountableGrant cfg d R n₀ A) (usable : UsableGrant cfg d A)
    (prog : Progress cfg d R A n g h j) (hj : j < (R + 1) * A.elems.length) (hsound : h.Sound)
    (hsize : h.nrSlHarqPktBuffer.length < 256)
    (hrlc : ∀ a ∈ A.elems, a.ndi ≠ 0 → ∀ p, n = a.sfn + p * cfg.period →
      ∀ lc ∈ a.slRlcPduInfo, rlc d lc.lcid = true)
    (hleft : ∀ a rest, g.slotAllocations.elems = a :: rest → a.sfn = n → a.ndi ≠ 0 →
      a.slRlcPduInfo.length ≤ h.nrSlHarqIdBuffer.length) :
    ∃ r, useGrant cfg rlc n d g h = .ok r := by
  obtain ⟨a, ha, hperiod, hx, _⟩ := plan.nth hj
  have helems := prog.head hx
  have hlive : 0 ≤ g.slResoReselCounter := by
    have hcounter := prog.counter
    omega
  unfold useGrant
  rw [if_pos hlive, helems]
  dsimp only
  split
  next hnow =>
    exact consume_returns plan usable prog hj hx hsound hsize
      (fun hndi => hrlc a ha hndi _ hnow.symm) fun hndi => hleft _ _ helems hnow hndi
  next => exact ⟨_, rfl⟩

/-- A grant fresh from `CreateGrantInfo` has none of its planned uses behind it. -/
theorem progress_created {g : NrSlGrantInfo} {h : NrSlUeMacHarq} (plan : CountableGrant cfg d R n A)
    (created : createGrantInfo cfg R (R * 10) A = .ok g) : Progress cfg d R A n g h 0 where
  le := Nat.zero_le _
  counter := by
    rw [createGrantInfo_ok created]
    simp
  slots := createGrantInfo_elems created (fun a ha => (plan.window a ha).1) plan.span
  nSelected := by
    have hsize := plan.size_le
    rw [createGrantInfo_ok created]
    exact Nat.mod_eq_of_lt (by omega)
  burst := fun hne => absurd (Nat.zero_mod _) hne
  done := fun i x hi => absurd hi (Nat.not_lt_zero i)
  ahead := by
    intro x hj hx
    obtain ⟨a, ha, _, hget, _⟩ := plan.nth hj
    obtain rfl := Option.some.inj (hget.symm.trans hx)
    have hlow := (plan.window a ha).1
    change n ≤ a.sfn + 0 / A.elems.length * cfg.period
    omega

end Plan

end SidelinkORe
