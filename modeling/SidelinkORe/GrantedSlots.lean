import SidelinkORe.GrantProgress

namespace SidelinkORe

namespace NrSlCommResourcePool

variable {pool : NrSlCommResourcePool} {P : Nat}

/-- What `IsRsvpMultipOfPoolLen` asks of the period. `ValidateResvPeriod` still calls it, but nothing
that the MAC runs does. -/
def IsRsvpMultipOfPoolLen (pool : NrSlCommResourcePool) (rsvpInSlots : Nat) : Prop :=
  rsvpInSlots % pool.phyPool.length = 0

/-- The bitmap rotated by the period has a sidelink slot wherever the bitmap has one. -/
def RotationClosed (pool : NrSlCommResourcePool) (P : Nat) : Prop :=
  ∀ j < pool.phyPool.length, pool.phyPool.getD j false = true →
    pool.phyPool.getD ((j + P) % pool.phyPool.length) false = true

theorem isSidelinkSlot_of_mod {m j : Nat} (h : m % pool.phyPool.length = j % pool.phyPool.length) :
    pool.isSidelinkSlot m = pool.isSidelinkSlot j := by
  unfold isSidelinkSlot
  rw [h]

/-- In the first lap of the bitmap there is a slot from which `j` is reached in `t1` slots. -/
theorem exists_slot_before (pool : NrSlCommResourcePool) (t1 j : Nat) :
    ∃ n < pool.phyPool.length,
      (n + t1) % pool.phyPool.length = j % pool.phyPool.length := by
  have hpos := pool.phyPool_length_pos
  refine ⟨(j + pool.phyPool.length * t1 - t1) % pool.phyPool.length, Nat.mod_lt _ hpos, ?_⟩
  have hle : t1 ≤ pool.phyPool.length * t1 := Nat.le_mul_of_pos_left _ hpos
  rw [Nat.mod_add_mod, Nat.sub_add_cancel (by omega), Nat.add_mul_mod_self_left]

theorem rotationClosed_iff : pool.RotationClosed P ↔
    ∀ m, pool.isSidelinkSlot m = true → pool.isSidelinkSlot (m + P) = true := by
  unfold RotationClosed isSidelinkSlot
  constructor
  · intro h m hm
    have hnext := h (m % pool.phyPool.length) (Nat.mod_lt m pool.phyPool_length_pos) hm
    rw [Nat.mod_add_mod] at hnext
    exact hnext
  · intro h j hj hsl
    apply h j
    rw [Nat.mod_eq_of_lt hj]
    exact hsl

theorem RotationClosed.shift (h : pool.RotationClosed P) {m : Nat} (hm : pool.isSidelinkSlot m = true)
    (i : Nat) : pool.isSidelinkSlot (m + i * P) = true := by
  induction i with
  | zero => simpa using hm
  | succ i ih =>
    have hnext := rotationClosed_iff.mp h _ ih
    rw [Nat.succ_mul, ← Nat.add_assoc]
    exact hnext

/-- The check that was taken out would have been enough. -/
theorem rotationClosed_of_multiple (h : pool.IsRsvpMultipOfPoolLen P) : pool.RotationClosed P := by
  intro j hj hsl
  have hsame : (j + P) % pool.phyPool.length = j := by
    rw [Nat.add_mod, show P % pool.phyPool.length = 0 from h, Nat.add_zero, Nat.mod_mod,
      Nat.mod_eq_of_lt hj]
  rw [hsame]
  exact hsl

end NrSlCommResourcePool

section Indication

variable {W : Type} (S : RsrpScale) (cfg : UeMacConfig) (env : SlotEnv W)

/-- `DoSlotIndication`: the sidelink part runs only in sidelink slots. -/
def doSlotIndication (sfn : Nat) (st : UeMac × W) : Except Fault ((UeMac × W) × List Transmission) :=
  if cfg.pool.atAbsPoolIndex sfn = true then doNrSlSlotIndication S cfg env sfn st else pure (st, [])

/-- The slots from `n` on up to before slot `m`, while the grant of `d` is live. -/
inductive LiveRun (d n : Nat) (st : UeMac × W) : Nat → UeMac × W → Prop
  | start : LiveRun d n st n st
  | next (env : SlotEnv W) (m : Nat) (st' st'' : UeMac × W) (sent : List Transmission)
      (before : LiveRun d n st m st') (live : ∀ g ∈ st'.1.grantInfo.find? d, 0 ≤ g.slResoReselCounter)
      (step : doSlotIndication S cfg env m st' = .ok (st'', sent)) : LiveRun d n st (m + 1) st''

/-- All slots of the grant that was created from the allocations `A` are processed: `Add` reaches
each of them from an allocation, each one is a sidelink slot, and a MAC that holds the grant uses up
its slots one after the other, each in its time, as long as the counter has not run out. -/
structure Served (W : Type) (A : SlotAllocSet) (R : Nat) (g : NrSlGrantInfo) : Prop where
  reached : ∀ a ∈ A.elems, ∀ s : SfnSf, s.numerology = cfg.pool.numerology → s.normalize = a.sfn →
    ∀ i < R * 10, (s.add (i * cfg.period)).WellFormed ∧
      ∃ b ∈ g.slotAllocations.elems, b.sfn = (s.add (i * cfg.period)).normalize
  sidelink : ∀ a ∈ g.slotAllocations.elems, cfg.pool.atAbsPoolIndex a.sfn = true
  indicated : ∀ a ∈ g.slotAllocations.elems, ∀ (env : SlotEnv W) st,
    doSlotIndication S cfg env a.sfn st = doNrSlSlotIndication S cfg env a.sfn st
  consumed : ∀ (d n m : Nat) (st st' : UeMac × W), m ≤ SfnSf.cycle cfg.pool.numerology →
    MacSound st.1 → st.1.grantInfo.find? d = some g →
    (∀ a ∈ g.slotAllocations.elems, n ≤ a.sfn) → LiveRun S cfg d n st m st' →
    ∃ held, st'.1.grantInfo.find? d = some held ∧
      held.slotAllocations.elems = g.slotAllocations.elems.filter fun a => m ≤ a.sfn

end Indication

section Consumption

variable {W : Type} {S : RsrpScale} {cfg : UeMacConfig} {env : SlotEnv W}

theorem doSlotIndication_sound {m : Nat} {st st' : UeMac × W} {sent : List Transmission}
    (hs : MacSound st.1) (h : doSlotIndication S cfg env m st = .ok (st', sent)) :
    MacSound st'.1 := by
  unfold doSlotIndication at h
  split at h
  next =>
    obtain ⟨mid, hselect, htransmit⟩ := doNrSlSlotIndication_iff.mp h
    exact (transmissionPhase_sound (selectionPhase_sound hs hselect) htransmit).1
  next =>
    cases pure_ok_iff.mp h
    exact hs

theorem filter_later {m : Nat} {l : List NrSlSlotAlloc} (h : ∀ a ∈ l, m < a.sfn) :
    l = l.filter fun a => m + 1 ≤ a.sfn := by
  symm
  apply List.filter_eq_self.mpr
  intro a ha
  have hlt := h a ha
  simp only [decide_eq_true_eq]
  omega

/-- A live grant loses the slot of `m` and no other one. -/
theorem useGrant_later {m d : Nat} {rlc : Nat → Nat → Bool} {g held : NrSlGrantInfo}
    {h₁ h₂ : NrSlUeMacHarq} {own : Option Transmission} (hlive : 0 ≤ g.slResoReselCounter)
    (hahead : ∀ a ∈ g.slotAllocations.elems, m ≤ a.sfn)
    (huse : useGrant cfg rlc m d g h₁ = .ok (held, h₂, own)) :
    held.slotAllocations.elems = g.slotAllocations.elems.filter fun a => m + 1 ≤ a.sfn := by
  rcases useGrant_ok huse with ⟨rfl, _, _, hidle⟩ | ⟨_, a, rest, helems, hnow, hconsume⟩
  · apply filter_later
    obtain hdead | ⟨a, rest, helems, hne⟩ := hidle
    · omega
    · intro b hb
      have hfirst := hahead a (helems ▸ List.mem_cons_self)
      rw [helems] at hb
      rcases List.mem_cons.mp hb with rfl | hb
      · omega
      · have hlt := KeyedSet.lt_of_mem_tail helems hb
        omega
  · have hrest : ∀ b ∈ rest, m < b.sfn := by
      intro b hb
      have hlt := KeyedSet.lt_of_mem_tail helems hb
      omega
    rw [(consumeSlot_grant hconsume).1, KeyedSet.elems_eraseBegin, helems, List.tail_cons,
      List.filter_cons_of_neg (by simp [hnow])]
    exact filter_later hrest

/-- A live grant loses its slot of this indication and no other one. -/
theorem doSlotIndication_slots {m d : Nat} {st st' : UeMac × W} {sent : List Transmission}
    {g : NrSlGrantInfo} (hs : MacSound st.1) (hg : st.1.grantInfo.find? d = some g)
    (hlive : 0 ≤ g.slResoReselCounter) (hahead : ∀ a ∈ g.slotAllocations.elems, m ≤ a.sfn)
    (hsl : ∀ a ∈ g.slotAllocations.elems, cfg.pool.atAbsPoolIndex a.sfn = true)
    (h : doSlotIndication S cfg env m st = .ok (st', sent)) :
    ∃ held, st'.1.grantInfo.find? d = some held ∧
      held.slotAllocations.elems = g.slotAllocations.elems.filter fun a => m + 1 ≤ a.sfn := by
  unfold doSlotIndication at h
  split at h
  next =>
    obtain ⟨mid, hselect, htransmit⟩ := doNrSlSlotIndication_iff.mp h
    have hmid := selectionPhase_live hselect hg hlive
    obtain ⟨held, h₁, h₂, own, huse, _, _, _, hfind, _⟩ :=
      transmissionPhase_turn (selectionPhase_sound hs hselect) htransmit hmid
    exact ⟨held, hfind, useGrant_later hlive hahead huse⟩
  next hnot =>
    cases pure_ok_iff.mp h
    refine ⟨g, hg, filter_later fun a ha => ?_⟩
    have hne : a.sfn ≠ m := by
      intro hnow
      apply hnot
      rw [← hnow]
      exact hsl a ha
    have hle := hahead a ha
    omega

/-- Before the frame counter restarts, `Add` reaches the slots of a grant. -/
theorem createGrantInfo_reached {A : SlotAllocSet} {R : Nat} {g : NrSlGrantInfo}
    (hg : createGrantInfo cfg R (R * 10) A = .ok g)
    (noWrap : ∀ a ∈ A.elems, a.sfn + R * 10 * cfg.period < SfnSf.cycle cfg.pool.numerology) :
    ∀ a ∈ A.elems, ∀ s : SfnSf, s.numerology = cfg.pool.numerology → s.normalize = a.sfn →
      ∀ i < R * 10, (s.add (i * cfg.period)).WellFormed ∧
        ∃ b ∈ g.slotAllocations.elems, b.sfn = (s.add (i * cfg.period)).normalize := by
  intro a ha s hnumerology hname i hi
  refine ⟨SfnSf.add_wellFormed _, ?_⟩
  have hbefore := noWrap a ha
  have hle := Nat.mul_le_mul_right cfg.period hi.le
  rw [SfnSf.normalize_add (by rw [hnumerology, hname]; omega), hname, createGrantInfo_ok hg]
  exact KeyedSet.exists_key_emplaceAll (mem_expandAllocs.mpr ⟨i, hi, a, ha, rfl⟩)

/-- A grant of sidelink slots only is served. -/
theorem served_of_sidelink {A : SlotAllocSet} {R : Nat} {g : NrSlGrantInfo}
    (hg : createGrantInfo cfg R (R * 10) A = .ok g)
    (noWrap : ∀ a ∈ A.elems, a.sfn + R * 10 * cfg.period < SfnSf.cycle cfg.pool.numerology)
    (hsl : ∀ a ∈ g.slotAllocations.elems, cfg.pool.atAbsPoolIndex a.sfn = true) :
    Served S cfg W A R g where
  reached := createGrantInfo_reached hg noWrap
  sidelink := hsl
  indicated := fun a ha env st => if_pos (hsl a ha)
  consumed := by
    rintro d n m st st' - hs hg hahead hrun
    have hinv : MacSound st'.1 ∧ ∃ held, st'.1.grantInfo.find? d = some held ∧
        held.slotAllocations.elems = g.slotAllocations.elems.filter fun a => m ≤ a.sfn := by
      induction hrun with
      | start =>
        refine ⟨hs, g, hg, ?_⟩
        symm
        apply List.filter_eq_self.mpr
        simpa using hahead
      | next env m st' st'' sent before live step ih =>
        obtain ⟨hs', held, hheld, hslots⟩ := ih
        have hin : ∀ a ∈ held.slotAllocations.elems, a ∈ g.slotAllocations.elems ∧ m ≤ a.sfn := by
          intro a ha
          rw [hslots] at ha
          simpa using ha
        obtain ⟨held', hheld', hslots'⟩ := doSlotIndication_slots hs' hheld (live held hheld)
          (fun a ha => (hin a ha).2) (fun a ha => hsl a (hin a ha).1) step
        refine ⟨doSlotIndication_sound hs' step, held', hheld', ?_⟩
        rw [hslots', hslots, List.filter_filter]
        refine List.filter_congr fun a _ => ?_
        rw [← Bool.decide_and]
        exact decide_eq_decide.mpr (by omega)
    exact hinv.2

end Consumption

/-- No allocation can be drawn: the period is refused, or the selection window is. -/
def SelectsNothing (cfg : UeMacConfig) : Prop :=
  (cfg.pRsvpTx ∉ listedPeriods ∧ 100 ≤ cfg.pRsvpTx) ∨
    cfg.t2 < cfg.pool.slSelectionWindow * 2 ^ cfg.pool.numerology ∨ cfg.t2 < cfg.t1

/-- The ranges of the types behind a configuration: the pool index and the end of the window have 16
bits, and no reservation period is longer than a second. -/
structure TypedConfig (cfg : UeMacConfig) : Prop where
  pool : cfg.pool.phyPool.length ≤ 65536
  window : cfg.t2 < 65536
  period : cfg.period ≤ 1000 * 2 ^ cfg.pool.numerology

/-- An answer with a single slot. -/
def soleSlot (sfn : Nat) : SlotAllocSet := KeyedSet.empty.emplace { sfn := sfn, dstL2Id := 255 }

theorem mem_soleSlot {sfn : Nat} {a : NrSlSlotAlloc} (h : a ∈ (soleSlot sfn).elems) : a.sfn = sfn := by
  obtain rfl := List.mem_singleton.mp h
  rfl

section Drawn

variable {cfg : UeMacConfig}

/-- The smallest counter that can be drawn. -/
theorem getRndmReselectionCounter_least {R : Nat} (h : getRndmReselectionCounter cfg 0 = .ok R) :
    R ≤ 25 := by
  unfold getRndmReselectionCounter getInteger at h
  split at h
  next =>
    obtain rfl := Except.ok.inj h
    omega
  next =>
    split at h
    next =>
      obtain rfl := Except.ok.inj h
      have hmax : 100 / max 20 cfg.pRsvpTx ≤ 100 / 20 := Nat.div_le_div_left (le_max_left _ _) (by decide)
      rw [Nat.zero_mod]
      omega
    next => cases h

/-- The grants that are made in the first lap of the bitmap with the smallest counters end long
before the frame counter restarts. -/
theorem TypedConfig.before_restart (typed : TypedConfig cfg) {n R : Nat}
    (hn : n < cfg.pool.phyPool.length) (hR : R ≤ 25) :
    n + cfg.t2 + R * 10 * cfg.period < SfnSf.cycle cfg.pool.numerology := by
  have hgranted : R * 10 * cfg.period ≤ 250 * (1000 * 2 ^ cfg.pool.numerology) :=
    Nat.mul_le_mul (by omega) typed.period
  have hpool := typed.pool
  have hwindow := typed.window
  have hslot := Nat.two_pow_pos cfg.pool.numerology
  unfold SfnSf.cycle
  omega

/-- Unless nothing can be drawn, every sidelink slot can be the only one of a grant, long before the
frame counter restarts. -/
theorem soleSlot_granted (typed : TypedConfig cfg) (hdraws : ¬SelectsNothing cfg)
    (hperiod : 0 < cfg.period) {j : Nat} (hsl : cfg.pool.isSidelinkSlot j = true) :
    ∃ n opps R g, cfg.pool.getNrSlCommOpportunities n cfg.t1 cfg.t2 = .ok opps ∧
      n + cfg.t2 + R * 10 * cfg.period < SfnSf.cycle cfg.pool.numerology ∧
      (∀ a ∈ (soleSlot (n + cfg.t1)).elems, a.sfn ∈ (getNrSupportedList n opps).map (·.sfn)) ∧
      getRndmReselectionCounter cfg 0 = .ok R ∧
      createGrantInfo cfg R (R * 10) (soleSlot (n + cfg.t1)) = .ok g ∧
      (n + cfg.t1) % cfg.pool.phyPool.length = j % cfg.pool.phyPool.length ∧
      ∃ a ∈ g.slotAllocations.elems, a.sfn = n + cfg.t1 + cfg.period := by
  unfold SelectsNothing at hdraws
  -- the slot t1 after n lies at the bitmap position of slot j
  obtain ⟨n, hfirstLap, hsame⟩ := cfg.pool.exists_slot_before cfg.t1 j
  have hfirst : cfg.pool.isSidelinkSlot (n + cfg.t1) = true :=
    (NrSlCommResourcePool.isSidelinkSlot_of_mod hsame).trans hsl
  obtain ⟨opps, hopps⟩ : ∃ opps, cfg.pool.getNrSlCommOpportunities n cfg.t1 cfg.t2 = .ok opps :=
    ⟨_, bind_ok_iff.mpr ⟨(), require_ok_iff.mpr (by omega), rfl⟩⟩
  have hoffered : n + cfg.t1 ∈ (getNrSupportedList n opps).map (·.sfn) := by
    rw [NrSlCommResourcePool.getNrSupportedList_sfn hopps]
    exact List.mem_filter.mpr ⟨List.mem_range'_1.mpr ⟨le_rfl, by omega⟩, hfirst⟩
  have hperiodOk : ¬(cfg.pRsvpTx ∉ listedPeriods ∧ 100 ≤ cfg.pRsvpTx) := fun hbad =>
    hdraws (Or.inl hbad)
  obtain ⟨R, hR⟩ := getRndmReselectionCounter_exists hperiodOk 0
  have hcounter := (getRndmReselectionCounter_ok hR).1
  have hlow : ∀ a ∈ (soleSlot (n + cfg.t1)).elems, n + cfg.t1 ≤ a.sfn :=
    fun a ha => (mem_soleSlot ha).ge
  have hspan : ∀ a ∈ (soleSlot (n + cfg.t1)).elems, a.sfn < n + cfg.t1 + cfg.period := by
    intro a ha
    have hsfn := mem_soleSlot ha
    omega
  have hcounter_ne : R ≠ 0 := by omega
  have hcResel_ne : R * 10 ≠ 0 := by omega
  obtain ⟨g, hg⟩ := createGrantInfo_of_sorted hcounter_ne hcResel_ne (expandAllocs_sorted hlow hspan)
  refine ⟨n, opps, R, g, hopps, typed.before_restart hfirstLap (getRndmReselectionCounter_least hR),
    fun a ha => mem_soleSlot ha ▸ hoffered, hR, hg, hsame, ?_⟩
  rw [createGrantInfo_elems hg hlow hspan]
  refine ⟨_, mem_expandAllocs.mpr ⟨1, by omega, _, List.mem_singleton.mpr rfl, rfl⟩, ?_⟩
  change n + cfg.t1 + 1 * cfg.period = _
  rw [Nat.one_mul]

/-- The slots of a grant are sidelink slots when the period rotates the bitmap into itself. -/
theorem granted_sidelink (hclosed : cfg.pool.RotationClosed cfg.period) {n R : Nat}
    {opps : List SlotInfo} {A : SlotAllocSet} {g : NrSlGrantInfo}
    (hopps : cfg.pool.getNrSlCommOpportunities n cfg.t1 cfg.t2 = .ok opps)
    (hdrawn : ∀ a ∈ A.elems, a.sfn ∈ (getNrSupportedList n opps).map (·.sfn))
    (hg : createGrantInfo cfg R (R * 10) A = .ok g) :
    ∀ a ∈ g.slotAllocations.elems, cfg.pool.isSidelinkSlot a.sfn = true := by
  intro x hx
  obtain ⟨i, _, a, ha, rfl⟩ := (createGrantInfo_slots hg).1 x hx
  have hin := hdrawn a ha
  rw [NrSlCommResourcePool.getNrSupportedList_sfn hopps] at hin
  exact hclosed.shift (List.mem_filter.mp hin).2 i

/-- The slots of an answer lie in the selection window. -/
theorem drawn_le {n : Nat} {opps : List SlotInfo} {A : SlotAllocSet}
    (hopps : cfg.pool.getNrSlCommOpportunities n cfg.t1 cfg.t2 = .ok opps)
    (hdrawn : ∀ a ∈ A.elems, a.sfn ∈ (getNrSupportedList n opps).map (·.sfn)) :
    ∀ a ∈ A.elems, n + cfg.t1 ≤ a.sfn ∧ a.sfn ≤ n + cfg.t2 := by
  intro a ha
  have hin := hdrawn a ha
  rw [NrSlCommResourcePool.getNrSupportedList_sfn hopps] at hin
  have hrange := List.mem_range'_1.mp (List.mem_filter.mp hin).1
  omega

end Drawn

/-- Before the frame counter restarts, every grant that can be drawn is served exactly when the
bitmap, rotated by the reservation period, maps sidelink slots to sidelink slots. -/
theorem served_iff_rotationClosed (S : RsrpScale) (cfg : UeMacConfig) (W : Type)
    (typed : TypedConfig cfg) :
    (∀ n opps (A : SlotAllocSet) draw R g,
      cfg.pool.getNrSlCommOpportunities n cfg.t1 cfg.t2 = .ok opps →
      (∀ a ∈ A.elems, a.sfn ∈ (getNrSupportedList n opps).map (·.sfn)) →
      getRndmReselectionCounter cfg draw = .ok R → createGrantInfo cfg R (R * 10) A = .ok g →
      n + cfg.t2 + R * 10 * cfg.period < SfnSf.cycle cfg.pool.numerology →
      Served S cfg W A R g) ↔
    SelectsNothing cfg ∨ cfg.pool.RotationClosed cfg.period := by
  constructor
  · intro hserved
    by_cases hnothing : SelectsNothing cfg
    · exact Or.inl hnothing
    · right
      rcases Nat.eq_zero_or_pos cfg.period with hzero | hpos
      · rw [hzero]
        apply NrSlCommResourcePool.rotationClosed_of_multiple
        exact Nat.zero_mod _
      · intro j hj hsl
        have hj' : j % cfg.pool.phyPool.length = j := Nat.mod_eq_of_lt hj
        have hslot : cfg.pool.isSidelinkSlot j = true := by
          unfold NrSlCommResourcePool.isSidelinkSlot
          rw [hj']
          exact hsl
        obtain ⟨n, opps, R, g, hopps, hnoWrap, hdrawn, hR, hg, hsame, a, ha, hsfn⟩ :=
          soleSlot_granted typed hnothing hpos hslot
        have hnext := (hserved n opps _ 0 R g hopps hdrawn hR hg hnoWrap).sidelink a ha
        rw [cfg.pool.atAbsPoolIndex_eq typed.pool] at hnext
        unfold NrSlCommResourcePool.isSidelinkSlot at hnext
        rw [hsfn, ← Nat.mod_add_mod, hsame, hj'] at hnext
        exact hnext
  · intro hcondition n opps A draw R g hopps hdrawn hR hg hnoWrap
    have hwindow := drawn_le hopps hdrawn
    refine served_of_sidelink hg (fun a ha => ?_) fun x hx => ?_
    · have hhigh := (hwindow a ha).2
      omega
    · rw [cfg.pool.atAbsPoolIndex_eq typed.pool]
      rcases hcondition with hnothing | hclosed
      · obtain ⟨i, _, a, ha, _⟩ := (createGrantInfo_slots hg).1 x hx
        have hin := hwindow a ha
        have hmin := require_ok_iff.mp (bind_ok_iff.mp hopps).choose_spec.1
        rcases hnothing with ⟨hunlisted, hlarge⟩ | hbelow | hempty
        · unfold getRndmReselectionCounter at hR
          rw [if_neg hunlisted, if_neg (by omega)] at hR
          cases hR
        · omega
        · omega
      · exact granted_sidelink hclosed hopps hdrawn hg x hx

/-- A pool with one sidelink slot in three, which no listed period but multiples of three respects. -/
def thirdPool : NrSlCommResourcePool where
  phyPool := [true, false, false]
  phyPool_ne_nil := by decide
  shape := {}
  slSelectionWindow := 5
  numerology := 0
  resvPeriodInSlots := fun ms => ms
  sensWindInSlots := 100

def thirdConfig : UeMacConfig := { sparseConfig with pool := thirdPool, t2 := 10 }

theorem thirdConfig_typed : TypedConfig thirdConfig where
  pool := by decide
  window := by decide
  period := by decide

/-- With a period of one bitmap the grant of slot 100 is served. -/
theorem served_iff_rotationClosed_sparse : ∃ g,
    createGrantInfo sparseConfig 5 50 (soleSlot 100) = .ok g ∧
      Served realScale sparseConfig Unit (soleSlot 100) 5 g := by
  have typed : TypedConfig sparseConfig := ⟨by decide, by decide, by decide⟩
  have hclosed : sparseConfig.pool.RotationClosed sparseConfig.period := by
    apply NrSlCommResourcePool.rotationClosed_of_multiple
    unfold NrSlCommResourcePool.IsRsvpMultipOfPoolLen
    decide
  have hlow : ∀ a ∈ (soleSlot 100).elems, 100 ≤ a.sfn := fun a ha => (mem_soleSlot ha).ge
  have hspan : ∀ a ∈ (soleSlot 100).elems, a.sfn < 100 + sparseConfig.period := by
    intro a ha
    rw [mem_soleSlot ha]
    decide
  obtain ⟨g, hg⟩ : ∃ g, createGrantInfo sparseConfig 5 50 (soleSlot 100) = .ok g :=
    createGrantInfo_of_sorted (by decide) (by decide) (expandAllocs_sorted hlow hspan)
  exact ⟨g, hg, (served_iff_rotationClosed realScale sparseConfig Unit typed).mpr (Or.inr hclosed)
    98 [sparsePool.slotInfo 98 100] (soleSlot 100) 0 5 g (by decide +kernel) (by decide) (by rfl) hg
    (by decide)⟩

/-- The second period of a grant of slot 3 is slot 103, which is no sidelink slot. -/
theorem served_fails_thirdPool :
    ¬∀ (S : RsrpScale) (cfg : UeMacConfig) (W : Type) n opps (A : SlotAllocSet) draw R g,
      TypedConfig cfg → cfg.pool.getNrSlCommOpportunities n cfg.t1 cfg.t2 = .ok opps →
      (∀ a ∈ A.elems, a.sfn ∈ (getNrSupportedList n opps).map (·.sfn)) →
      getRndmReselectionCounter cfg draw = .ok R → createGrantInfo cfg R (R * 10) A = .ok g →
      n + cfg.t2 + R * 10 * cfg.period < SfnSf.cycle cfg.pool.numerology →
      Served S cfg W A R g := by
  intro claimed
  have hslots : (createGrantInfo thirdConfig 5 50 (soleSlot 3)).toOption.map (fun g =>
      (g.slotAllocations.elems.map (·.sfn))[1]?) = some (some 103) := by decide +kernel
  cases hg : createGrantInfo thirdConfig 5 50 (soleSlot 3) with
  | error e =>
    rw [hg] at hslots
    cases hslots
  | ok g =>
    rw [hg] at hslots
    have hsecond : (g.slotAllocations.elems.map (·.sfn))[1]? = some 103 := Option.some.inj hslots
    obtain ⟨a, ha, hsfn⟩ := List.mem_map.mp (List.mem_of_getElem? hsecond)
    have served := claimed realScale thirdConfig Unit 1
      [thirdPool.slotInfo 1 3, thirdPool.slotInfo 1 6, thirdPool.slotInfo 1 9] (soleSlot 3) 0 5 g
      thirdConfig_typed (by rfl) (by decide) (by rfl) hg (by decide)
    have hsl := served.sidelink a ha
    rw [hsfn] at hsl
    have hnone : thirdConfig.pool.atAbsPoolIndex 103 = false := by decide
    rw [hnone] at hsl
    cases hsl

end SidelinkORe
