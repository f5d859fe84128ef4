import SidelinkORe.TxOpportunities
import SidelinkORe.KeyedSet
import SidelinkORe.Table

namespace SidelinkORe

structure SlRlcPduInfo where
  lcid : Nat
  size : Nat
  deriving DecidableEq

/-- The allocation of one slot, as the scheduler returns it. -/
structure NrSlSlotAlloc where
  sfn : Nat
  dstL2Id : Nat
  ndi : Nat := 255
  rv : Nat := 255
  priority : Nat := 255
  slRlcPduInfo : List SlRlcPduInfo := []
  mcs : Nat := 65535
  shape : SlotShape := {}
  slPsschSubChStart : Nat := 65535
  slPsschSubChLength : Nat := 65535
  maxNumPerReserve : Nat := 65535
  txSci1A : Bool := false
  slotNumInd : Nat := 0
  deriving DecidableEq

/-- `std::set <NrSlSlotAlloc>`, which compares slots only. -/
abbrev SlotAllocSet := KeyedSet NrSlSlotAlloc.sfn

structure NrSlGrantInfo where
  cReselCounter : Nat := 255
  slResoReselCounter : Int := 255
  slotAllocations : SlotAllocSet := KeyedSet.empty
  prevSlResoReselCounter : Nat := 255
  nrSlHarqId : Nat := 255
  nSelected : Nat := 0
  tbTxCounter : Nat := 0
  deriving DecidableEq

inductive SchedulingType where
  | unknown
  | scheduled
  | ueSelected
  deriving DecidableEq

/-- The attributes and tables of the MAC besides those of resource selection. -/
structure UeMacConfig extends SelectionConfig where
  schedulingType : SchedulingType
  assertsEnabled : Bool
  slProbResourceKeep : ℚ
  enableBlindReTx : Bool
  srcL2Id : Nat
  sidelinkTxDestinations : List (Nat × Nat)
  nrSlLcInfoMap : List (Nat × Nat)
  destinations_nodup : (sidelinkTxDestinations.map Prod.fst).Nodup

theorem soleDestination_nodup : (([(255, 1)] : List (Nat × Nat)).map Prod.fst).Nodup := by decide

/-- `UniformRandomVariable::GetInteger` with both bounds included. -/
def getInteger (lo hi draw : Nat) : Nat := lo + draw % (hi - lo + 1)

def listedPeriods : List Nat :=
  [100, 150, 200, 250, 300, 350, 400, 450, 500, 550, 600, 700, 750, 800, 850, 900, 950, 1000]

def getRndmReselectionCounter (cfg : UeMacConfig) (draw : Nat) : Except Fault Nat :=
  if cfg.pRsvpTx ∈ listedPeriods then .ok (getInteger 5 15 draw)
  else if cfg.pRsvpTx < 100 then
    .ok (getInteger (5 * (100 / max 20 cfg.pRsvpTx)) (15 * (100 / max 20 cfg.pRsvpTx)) draw)
  else .error Fault.unsupportedPeriod

def shiftAlloc (slots : Nat) (a : NrSlSlotAlloc) : NrSlSlotAlloc := { a with sfn := a.sfn + slots }

/-- The order in which `CreateGrantInfo` inserts the allocations of all periods. -/
def expandAllocs (cReselCounter resPeriodSlots : Nat) (slotAllocList : List NrSlSlotAlloc) :
    List NrSlSlotAlloc :=
  (List.range cReselCounter).flatMap fun i => slotAllocList.map (shiftAlloc (i * resPeriodSlots))

def emplaceAsserted (assertsEnabled : Bool) (s : SlotAllocSet) (a : NrSlSlotAlloc) :
    Except Fault SlotAllocSet := do
  require (assertsEnabled = true → s.isNew a = true) Fault.duplicateSlotAllocation
  pure (s.emplace a)

def createGrantInfo (cfg : UeMacConfig) (reselCounter cResel : Nat) (slotAllocList : SlotAllocSet) :
    Except Fault NrSlGrantInfo := do
  require (cfg.assertsEnabled = true → reselCounter ≠ 0) Fault.zeroReselCounter
  require (cfg.assertsEnabled = true → cResel ≠ 0) Fault.zeroCResel
  let slotAllocations ← (expandAllocs cResel (cfg.pool.resvPeriodInSlots cfg.pRsvpTx)
    slotAllocList.elems).foldlM (emplaceAsserted cfg.assertsEnabled) KeyedSet.empty
  pure {
    cReselCounter := cResel
    slResoReselCounter := reselCounter
    slotAllocations := slotAllocations
    prevSlResoReselCounter := reselCounter % 256
    nSelected := slotAllocList.elems.length % 256 }

abbrev GrantTable := Table Nat NrSlGrantInfo

/-- `DoSchedUeNrSlConfigInd`; the destination is read from the first allocation. -/
def doSchedUeNrSlConfigInd (cfg : UeMacConfig) (reselCounter cResel : Nat) (grantInfo : GrantTable)
    (slotAllocList : SlotAllocSet) : Except Fault GrantTable := do
  let first ← orFault Fault.emptySlotAllocations slotAllocList.elems.head?
  require (cfg.assertsEnabled = true → ∀ old ∈ grantInfo.find? first.dstL2Id,
    0 ≤ old.slResoReselCounter) Fault.replacedCounterNegative
  let grant ← createGrantInfo cfg reselCounter cResel slotAllocList
  require (cfg.assertsEnabled = true → grant.slotAllocations.elems ≠ []) Fault.emptyGrant
  pure (grantInfo.put first.dstL2Id grant)

/-- `FilterTxOpportunities`: the slots that no grant holds. -/
def filterTxOpportunities (grantInfo : GrantTable) (txOppr : List NrSlSlotInfo) :
    List NrSlSlotInfo :=
  grantInfo.entries.foldl
    (fun l itDst => l.filter fun it => !itDst.2.slotAllocations.hasKey it.sfn) txOppr

theorem getRndmReselectionCounter_ok {cfg : UeMacConfig} {draw R : Nat}
    (h : getRndmReselectionCounter cfg draw = .ok R) : 5 ≤ R ∧ R ≤ 75 := by
  unfold getRndmReselectionCounter getInteger at h
  split at h
  next =>
    obtain rfl := Except.ok.inj h
    omega
  next =>
    split at h
    next =>
      obtain rfl := Except.ok.inj h
      have hlow : 1 ≤ 100 / max 20 cfg.pRsvpTx := by
        rw [Nat.le_div_iff_mul_le (by omega)]
        omega
      have hhigh : 100 / max 20 cfg.pRsvpTx ≤ 5 := by
        have := Nat.div_le_div_left (show 20 ≤ max 20 cfg.pRsvpTx by omega) (by decide) (a := 100)
        omega
      generalize 100 / max 20 cfg.pRsvpTx = q at *
      have hmod := Nat.mod_lt draw (show 0 < 15 * q - 5 * q + 1 by omega)
      omega
    next => cases h

/-- Only a period that is neither listed nor below 100 ms is refused. -/
theorem getRndmReselectionCounter_exists {cfg : UeMacConfig}
    (h : ¬(cfg.pRsvpTx ∉ listedPeriods ∧ 100 ≤ cfg.pRsvpTx)) (draw : Nat) :
    ∃ R, getRndmReselectionCounter cfg draw = .ok R := by
  unfold getRndmReselectionCounter
  by_cases hlisted : cfg.pRsvpTx ∈ listedPeriods
  · exact ⟨_, if_pos hlisted⟩
  · have hsmall : cfg.pRsvpTx < 100 := by
      by_contra hlarge
      exact h ⟨hlisted, Nat.le_of_not_lt hlarge⟩
    exact ⟨_, by rw [if_neg hlisted, if_pos hsmall]⟩

theorem getRndmReselectionCounter_period {cfg : UeMacConfig} {draw R : Nat}
    (h : getRndmReselectionCounter cfg draw = .ok R) : cfg.pRsvpTx ≤ 1000 := by
  unfold getRndmReselectionCounter at h
  split at h
  next hlisted =>
    have hall : ∀ ms ∈ listedPeriods, ms ≤ 1000 := by decide
    exact hall _ hlisted
  next =>
    split at h
    next => omega
    next => cases h

theorem emplaceAsserted_foldlM_ok {asserts : Bool} {l : List NrSlSlotAlloc} {s s' : SlotAllocSet}
    (h : l.foldlM (emplaceAsserted asserts) s = .ok s') : s' = s.emplaceAll l := by
  induction l generalizing s with
  | nil => exact (pure_ok_iff.mp h).symm
  | cons a l ih =>
    obtain ⟨s₁, h₁, hl⟩ := foldlM_cons_ok_iff.mp h
    obtain ⟨_, _, h₁⟩ := bind_ok_iff.mp h₁
    obtain rfl := pure_ok_iff.mp h₁
    exact ih hl

theorem createGrantInfo_release {cfg : UeMacConfig} (h : cfg.assertsEnabled = false)
    (reselCounter cResel : Nat) (A : SlotAllocSet) :
    createGrantInfo cfg reselCounter cResel A = .ok {
      cReselCounter := cResel
      slResoReselCounter := reselCounter
      slotAllocations := KeyedSet.empty.emplaceAll
        (expandAllocs cResel (cfg.pool.resvPeriodInSlots cfg.pRsvpTx) A.elems)
      prevSlResoReselCounter := reselCounter % 256
      nSelected := A.elems.length % 256 } := by
  have hall : ∀ (l : List NrSlSlotAlloc) (s : SlotAllocSet),
      l.foldlM (emplaceAsserted false) s = .ok (s.emplaceAll l) := by
    intro l
    induction l with
    | nil => exact fun s => rfl
    | cons a l ih =>
      intro s
      exact foldlM_cons_ok_iff.mpr ⟨s.emplace a, by simp [emplaceAsserted, require], ih _⟩
  unfold createGrantInfo
  simp only [h, hall]
  simp [require]
  rfl

theorem createGrantInfo_ok {cfg : UeMacConfig} {reselCounter cResel : Nat} {A : SlotAllocSet}
    {g : NrSlGrantInfo} (h : createGrantInfo cfg reselCounter cResel A = .ok g) :
    g = { cReselCounter := cResel
          slResoReselCounter := reselCounter
          slotAllocations := KeyedSet.empty.emplaceAll
            (expandAllocs cResel (cfg.pool.resvPeriodInSlots cfg.pRsvpTx) A.elems)
          prevSlResoReselCounter := reselCounter % 256
          nSelected := A.elems.length % 256 } := by
  obtain ⟨_, _, h⟩ := bind_ok_iff.mp h
  obtain ⟨_, _, h⟩ := bind_ok_iff.mp h
  obtain ⟨s, hs, h⟩ := bind_ok_iff.mp h
  obtain rfl := emplaceAsserted_foldlM_ok hs
  exact (pure_ok_iff.mp h).symm

theorem mem_expandAllocs {cResel P : Nat} {l : List NrSlSlotAlloc} {x : NrSlSlotAlloc} :
    x ∈ expandAllocs cResel P l ↔ ∃ i < cResel, ∃ a ∈ l, x = shiftAlloc (i * P) a := by
  unfold expandAllocs
  simp only [List.mem_flatMap, List.mem_range, List.mem_map]
  constructor
  · rintro ⟨i, hi, a, ha, rfl⟩
    exact ⟨i, hi, a, ha, rfl⟩
  · rintro ⟨i, hi, a, ha, rfl⟩
    exact ⟨i, hi, a, ha, rfl⟩

/-- The periods do not overlap when the allocations span less than a period. -/
theorem expandAllocs_sorted {cResel P first : Nat} {A : SlotAllocSet}
    (hlow : ∀ a ∈ A.elems, first ≤ a.sfn) (hspan : ∀ a ∈ A.elems, a.sfn < first + P) :
    (expandAllocs cResel P A.elems).Pairwise fun a b => a.sfn < b.sfn := by
  unfold expandAllocs
  rw [List.pairwise_flatMap]
  refine ⟨fun i _ => ?_, ?_⟩
  · rw [List.pairwise_map]
    exact A.sorted.imp fun hab => Nat.add_lt_add_right hab _
  · refine List.pairwise_lt_range.imp fun {i j} hij x hx y hy => ?_
    obtain ⟨a, ha, rfl⟩ := List.mem_map.mp hx
    obtain ⟨b, hb, rfl⟩ := List.mem_map.mp hy
    have hle := Nat.mul_le_mul_right P (Nat.succ_le_of_lt hij)
    have hsucc := Nat.succ_mul i P
    have ha' := hspan a ha
    have hb' := hlow b hb
    change a.sfn + i * P < b.sfn + j * P
    omega

theorem emplaceAsserted_foldlM_of_sorted (asserts : Bool) {l : List NrSlSlotAlloc} {s : SlotAllocSet}
    (hl : l.Pairwise fun a b => a.sfn < b.sfn) (h : ∀ a ∈ s.elems, ∀ b ∈ l, a.sfn < b.sfn) :
    l.foldlM (emplaceAsserted asserts) s = .ok (s.emplaceAll l) := by
  induction l generalizing s with
  | nil => rfl
  | cons a l ih =>
    obtain ⟨hhead, htail⟩ := List.pairwise_cons.mp hl
    have hnew : s.isNew a = true :=
      KeyedSet.isNew_iff.mpr fun b hb => (h b hb a List.mem_cons_self).ne
    have hadd : emplaceAsserted asserts s a = .ok (s.emplace a) :=
      bind_ok_iff.mpr ⟨(), require_ok_iff.mpr fun _ => hnew, rfl⟩
    refine foldlM_cons_ok_iff.mpr ⟨s.emplace a, hadd, ih htail fun x hx b hb => ?_⟩
    rcases mem_insertByKey hx with rfl | hx
    · exact hhead b hb
    · exact h x hx b (List.mem_cons_of_mem a hb)

theorem emplaceAsserted_foldlM_empty (asserts : Bool) {l : List NrSlSlotAlloc}
    (hl : l.Pairwise fun a b => a.sfn < b.sfn) :
    l.foldlM (emplaceAsserted asserts) KeyedSet.empty = .ok (KeyedSet.empty.emplaceAll l) :=
  emplaceAsserted_foldlM_of_sorted asserts hl (by simp)

theorem createGrantInfo_of_sorted {cfg : UeMacConfig} {R cResel : Nat} {A : SlotAllocSet}
    (hR : R ≠ 0) (hcResel : cResel ≠ 0)
    (hsorted : (expandAllocs cResel (cfg.pool.resvPeriodInSlots cfg.pRsvpTx) A.elems).Pairwise
      fun a b => a.sfn < b.sfn) : ∃ g, createGrantInfo cfg R cResel A = .ok g := by
  have hexpand := emplaceAsserted_foldlM_empty cfg.assertsEnabled hsorted
  exact ⟨_, bind_ok_iff.mpr ⟨(), require_ok_iff.mpr fun _ => hR,
    bind_ok_iff.mpr ⟨(), require_ok_iff.mpr fun _ => hcResel,
      bind_ok_iff.mpr ⟨_, hexpand, rfl⟩⟩⟩⟩

theorem createGrantInfo_elems {cfg : UeMacConfig} {R cResel first : Nat} {A : SlotAllocSet}
    {g : NrSlGrantInfo} (h : createGrantInfo cfg R cResel A = .ok g)
    (hlow : ∀ a ∈ A.elems, first ≤ a.sfn)
    (hspan : ∀ a ∈ A.elems, a.sfn < first + cfg.pool.resvPeriodInSlots cfg.pRsvpTx) :
    g.slotAllocations.elems =
      expandAllocs cResel (cfg.pool.resvPeriodInSlots cfg.pRsvpTx) A.elems := by
  rw [createGrantInfo_ok h]
  exact KeyedSet.elems_emplaceAll_of_sorted (expandAllocs_sorted hlow hspan) (by simp)

/-- Every slot of a created grant is a granted slot shifted by whole periods, and each one of these
is there. -/
theorem createGrantInfo_slots {cfg : UeMacConfig} {R cResel : Nat} {A : SlotAllocSet}
    {g : NrSlGrantInfo} (h : createGrantInfo cfg R cResel A = .ok g) :
    (∀ x ∈ g.slotAllocations.elems, ∃ i < cResel, ∃ a ∈ A.elems,
      x = shiftAlloc (i * cfg.pool.resvPeriodInSlots cfg.pRsvpTx) a) ∧
    (0 < cResel → A.elems ≠ [] → g.slotAllocations.elems ≠ []) := by
  rw [createGrantInfo_ok h]
  refine ⟨fun x hx => ?_, fun hpos hne hnil => ?_⟩
  · rcases KeyedSet.mem_emplaceAll hx with hx | hx
    · exact mem_expandAllocs.mp hx
    · simp at hx
  · obtain ⟨a, ha⟩ := List.exists_mem_of_ne_nil _ hne
    have hmem : shiftAlloc 0 a ∈
        expandAllocs cResel (cfg.pool.resvPeriodInSlots cfg.pRsvpTx) A.elems :=
      mem_expandAllocs.mpr ⟨0, hpos, a, ha, by rw [Nat.zero_mul]⟩
    obtain ⟨y, hy, _⟩ :=
      KeyedSet.exists_key_emplaceAll (s := (KeyedSet.empty : SlotAllocSet)) hmem
    rw [hnil] at hy
    simp at hy

theorem mem_filterTxOpportunities {grantInfo : GrantTable} {txOppr : List NrSlSlotInfo}
    {c : NrSlSlotInfo} : c ∈ filterTxOpportunities grantInfo txOppr ↔
      c ∈ txOppr ∧ ∀ e ∈ grantInfo.entries, e.2.slotAllocations.hasKey c.sfn = false := by
  unfold filterTxOpportunities
  generalize grantInfo.entries = l
  induction l generalizing txOppr with
  | nil => simp
  | cons e l ih =>
    rw [List.foldl_cons, ih, List.mem_filter, Bool.not_eq_true', List.forall_mem_cons, and_assoc]

theorem filterTxOpportunities_sublist (grantInfo : GrantTable) (txOppr : List NrSlSlotInfo) :
    List.Sublist (filterTxOpportunities grantInfo txOppr) txOppr := by
  unfold filterTxOpportunities
  generalize grantInfo.entries = l
  induction l generalizing txOppr with
  | nil => exact List.Sublist.refl _
  | cons e l ih => exact (ih _).trans List.filter_sublist

end SidelinkORe
