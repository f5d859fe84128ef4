import SidelinkORe.SlotSelection
import SidelinkORe.TextExchange
import SidelinkORe.Reselection

namespace SidelinkORe

/-- A logical channel as the scheduler knows it from the buffer reports. -/
structure SchedulerLc where
  lcid : Nat
  priority : Nat
  txQueueSize : Nat
  retxQueueSize : Nat
  statusPduSize : Nat

structure SchedulerLcg where
  lcs : List SchedulerLc
  totalSize : Nat

structure SchedulerDstInfo where
  dstL2Id : Nat
  dstMcs : Nat
  lcgs : List SchedulerLcg

/-- The attributes of the scheduler and what it asks the MAC and the AMC for. -/
structure SchedulerConfig where
  assertsEnabled : Bool
  totalSubCh : Nat
  slMaxTxTransNumPssch : Nat
  fixedNrSlMcs : Bool
  oReExp : Bool
  calculateTbSize : Nat → Nat → Nat

def subU32 (a b : Nat) : Nat := (a + 2 ^ 32 - b) % 2 ^ 32

def SchedulerLc.totalQueueSize (lc : SchedulerLc) : Nat :=
  (lc.txQueueSize + lc.retxQueueSize + lc.statusPduSize) % 2 ^ 32

/-- Only the first queue that the data serves is reduced. -/
def SchedulerLc.assigned (lc : SchedulerLc) (size : Nat) : SchedulerLc :=
  if 0 < lc.statusPduSize ∧ lc.statusPduSize ≤ size then { lc with statusPduSize := 0 }
  else if 0 < lc.retxQueueSize ∧ lc.retxQueueSize ≤ size then { lc with retxQueueSize := 0 }
  else { lc with txQueueSize := lc.txQueueSize - size }

/-- `AssignedData` of the only logical channel. -/
def SchedulerDstInfo.assignedData (dst : SchedulerDstInfo) (size : Nat) : SchedulerDstInfo :=
  match dst.lcgs with
  | ⟨lc :: lcs, totalSize⟩ :: lcgs =>
    { dst with lcgs := ⟨lc.assigned size :: lcs, totalSize - size⟩ :: lcgs }
  | _ => dst

def getRv (txNumTb : Nat) : Nat :=
  match txNumTb % 4 with
  | 0 => 0
  | 1 => 2
  | 2 => 3
  | _ => 1

/-- What a branch of the scheduler settles before the allocations are written: the slots with their
start subchannels, the symbols of the first slot, and the size. -/
structure Choice where
  slots : List (NrSlSlotInfo × Nat)
  availableSymbols : Nat
  assignedSbCh : Nat
  tbs : Nat

section Overwrite

/-- Walks to one chosen position after the other. -/
def walkChosen (txOpps : List NrSlSlotInfo) : Nat → List Nat → Except Fault (List NrSlSlotInfo)
  | 0, _ => .ok []
  | _ + 1, [] => .error Fault.invalidInstruction
  | n + 1, slot :: chosenSlots => do
    let it ← orFault Fault.txOppsIteratorPastEnd txOpps[slot]?
    let newTxOpps ← walkChosen txOpps n chosenSlots
    pure (it :: newTxOpps)

def drawFreeSlot (totalSubCh totalTx : Nat) (txOpps : List NrSlSlotInfo) :
    Draws → Except Fault (NrSlSlotInfo × Draws)
  | [] => .error Fault.drawsExhausted
  | draw :: draws => do
    let it ← orFault Fault.drawFromEmptyList txOpps[getInteger 0 (txOpps.length - 1) draw]?
    if it.occupiedSbCh.card < totalSubCh ∨ txOpps.length ≤ totalTx then pure (it, draws)
    else drawFreeSlot totalSubCh totalTx txOpps draws

def drawFreeSbCh (totalSubCh : Nat) (it : NrSlSlotInfo) : Draws → Except Fault (Nat × Draws)
  | [] => .error Fault.drawsExhausted
  | draw :: draws =>
    let randSc := getInteger 0 (totalSubCh - 1) draw
    if randSc ∈ it.occupiedSbCh then drawFreeSbCh totalSubCh it draws
    else .ok (randSc % 256, draws)

/-- The loop for an odd number of transmissions: the chosen slots first, then random slots, which
stay in the list, each with a random free subchannel. -/
def walkOrDraw (totalSubCh totalTx : Nat) (txOpps : List NrSlSlotInfo) :
    Nat → List Nat → Draws → Except Fault (List NrSlSlotInfo × List Nat × Draws)
  | 0, _, draws => .ok ([], [], draws)
  | n + 1, slot :: chosenSlots, draws => do
    let it ← orFault Fault.txOppsIteratorPastEnd txOpps[slot]?
    let (newTxOpps, extra, draws) ← walkOrDraw totalSubCh totalTx txOpps n chosenSlots draws
    pure (it :: newTxOpps, extra, draws)
  | n + 1, [], draws => do
    let (it, draws) ← drawFreeSlot totalSubCh totalTx txOpps draws
    let (randSc, draws) ← drawFreeSbCh totalSubCh it draws
    let (newTxOpps, extra, draws) ← walkOrDraw totalSubCh totalTx txOpps n [] draws
    pure (it :: newTxOpps, randSc :: extra, draws)

/-- The slots of the O-Re branch and the subchannels for them, position by position. -/
def overwriteSlots (totalSubCh totalTx : Nat) (chosen : List (Nat × Nat)) (draws : Draws)
    (txOpps : List NrSlSlotInfo) : Except Fault (List NrSlSlotInfo × List Nat × Draws) :=
  if totalTx < txOpps.length then
    if totalTx % 2 = 0 then do
      let newTxOpps ← walkChosen txOpps totalTx (chosen.map Prod.fst)
      pure (newTxOpps, chosen.map Prod.snd, draws)
    else do
      let (newTxOpps, extra, draws) ←
        walkOrDraw totalSubCh totalTx txOpps totalTx (chosen.map Prod.fst) draws
      pure (newTxOpps, chosen.map Prod.snd ++ extra, draws)
  else pure (txOpps, chosen.map Prod.snd, draws)

def pairSubChannels : List NrSlSlotInfo → List Nat → Except Fault (List (NrSlSlotInfo × Nat))
  | [], _ => .ok []
  | _ :: _, [] => .error Fault.subChannelListTooShort
  | it :: newTxOpps, subChannel :: chosenSubChannels => do
    let pairs ← pairSubChannels newTxOpps chosenSubChannels
    pure ((it, subChannel) :: pairs)

/-- `operator <` of the pairs: by slot, then by subchannel. -/
def pairBefore (a b : NrSlSlotInfo × Nat) : Prop :=
  a.1.sfn < b.1.sfn ∨ a.1.sfn = b.1.sfn ∧ a.2 ≤ b.2

instance : DecidableRel pairBefore := fun a b =>
  inferInstanceAs (Decidable (a.1.sfn < b.1.sfn ∨ a.1.sfn = b.1.sfn ∧ a.2 ≤ b.2))

theorem pairBefore.sfn_le {a b : NrSlSlotInfo × Nat} (h : pairBefore a b) : a.1.sfn ≤ b.1.sfn := by
  unfold pairBefore at h
  omega

def sortPairs (l : List (NrSlSlotInfo × Nat)) : List (NrSlSlotInfo × Nat) :=
  l.insertionSort pairBefore

end Overwrite

section Allocation

variable (cfg : SchedulerConfig)

/-- The size of the allocation in every one of the selected slots. -/
def sizeOfSelected (dst : SchedulerDstInfo) (bufferSize : Nat) (selectedTxOpps : List NrSlSlotInfo) :
    Except Fault (SbChInfo × Choice) := do
  let first ← orFault Fault.noSlotSelected selectedTxOpps.head?
  let info ← getAvailSbChInfo cfg.totalSubCh selectedTxOpps
  let size := sizeAllocation
    (fun n => cfg.calculateTbSize dst.dstMcs
      (first.shape.slSubchannelSize * n * first.shape.slPsschSymLength))
    ((bufferSize + 5) % 2 ^ 32) (info.numSubCh - 1) 1
  pure (info, ⟨[], first.shape.slPsschSymLength, size.1, subU32 size.2 5⟩)

def overwriteResources (dst : SchedulerDstInfo) (bufferSize : Nat) (txOpps : List NrSlSlotInfo)
    (totalTx : Nat) (chosen : List (Nat × Nat)) (draws : Draws) : Except Fault (Choice × Draws) := do
  let (newTxOpps, chosenSubChannels, draws) ←
    overwriteSlots cfg.totalSubCh totalTx chosen draws txOpps
  let pairs ← pairSubChannels newTxOpps chosenSubChannels
  let (_, choice) ← sizeOfSelected cfg dst bufferSize ((sortPairs pairs).map Prod.fst)
  pure ({ choice with slots := sortPairs pairs }, draws)

def drawResources (dst : SchedulerDstInfo) (bufferSize : Nat) (txOpps : List NrSlSlotInfo)
    (totalTx : Nat) (draws : Draws) : Except Fault (Choice × Draws) := do
  let (selectedTxOpps, draws) ← randomlySelectSlots cfg.totalSubCh totalTx draws txOpps
  let (info, choice) ← sizeOfSelected cfg dst bufferSize selectedTxOpps
  let (starts, draws) ← randSelSbChStart cfg.totalSubCh info choice.assignedSbCh draws
  pure ({ choice with slots := selectedTxOpps.zip starts }, draws)

def followInstruction (dst : SchedulerDstInfo) (bufferSize : Nat) (txOpps : List NrSlSlotInfo)
    (draws : Draws) : SelectionInstruction → Except Fault (Choice × Draws)
  | .overwrite totalTx chosen => overwriteResources cfg dst bufferSize txOpps totalTx chosen draws
  | .draw nSe => drawResources cfg dst bufferSize txOpps nSe draws

/-- Allocation number `k` of the set; every `slMaxNumPerReserve`-th one carries an SCI 1-A. -/
def slotAllocOf (dst : SchedulerDstInfo) (lc : SchedulerLc) (choice : Choice) (k : Nat)
    (p : NrSlSlotInfo × Nat) : NrSlSlotAlloc where
  sfn := p.1.sfn
  dstL2Id := dst.dstL2Id
  ndi := if k = 0 then 1 else 0
  rv := getRv (k % 256)
  priority := lc.priority
  slRlcPduInfo := [⟨lc.lcid, choice.tbs⟩]
  mcs := dst.dstMcs
  shape := { p.1.shape with slPsschSymLength := choice.availableSymbols }
  slPsschSubChStart := p.2
  slPsschSubChLength := choice.assignedSbCh
  maxNumPerReserve := p.1.shape.slMaxNumPerReserve
  txSci1A := decide (k % p.1.shape.slMaxNumPerReserve = 0)
  slotNumInd :=
    if k % p.1.shape.slMaxNumPerReserve = 0 then
      if k + p.1.shape.slMaxNumPerReserve ≤ choice.slots.length then p.1.shape.slMaxNumPerReserve
      else choice.slots.length - k
    else 0

def allocateSlots (dst : SchedulerDstInfo) (lc : SchedulerLc) (choice : Choice) : SlotAllocSet :=
  choice.slots.foldl (fun s p => s.emplace (slotAllocOf dst lc choice s.elems.length p))
    KeyedSet.empty

/-- The only logical channel of a destination. -/
def soleLogicalChannel (dst : SchedulerDstInfo) : Except Fault SchedulerLc := do
  require (cfg.assertsEnabled = true → dst.lcgs.length = 1) Fault.notOneLogicalChannel
  let lcg ← orFault Fault.notOneLogicalChannel dst.lcgs.head?
  require (cfg.assertsEnabled = true → lcg.lcs.length = 1) Fault.notOneLogicalChannel
  orFault Fault.notOneLogicalChannel lcg.lcs.head?

/-- The state the scheduler leaves behind. -/
structure Scheduled (W : Type) where
  slotAllocList : Option SlotAllocSet
  dstInfo : SchedulerDstInfo
  draws : Draws
  world : W

variable {W : Type} (getResourceSelections : W → Except Fault (Text × W))

/-- With O-Re enabled the instructions are asked for, else the slots are drawn. -/
def chooseResources (dst : SchedulerDstInfo) (bufferSize : Nat) (txOpps : List NrSlSlotInfo)
    (draws : Draws) (w : W) : Except Fault (Choice × Draws × W) :=
  if cfg.oReExp = true then do
    let (text, w) ← getResourceSelections w
    let instruction ← readInstruction text
    let (choice, draws) ← followInstruction cfg dst bufferSize txOpps draws instruction
    pure (choice, draws, w)
  else do
    let (choice, draws) ← drawResources cfg dst bufferSize txOpps cfg.slMaxTxTransNumPssch draws
    pure (choice, draws, w)

/-- `DoNrSlAllocation`; without data nothing is allocated and nobody is asked. -/
def doNrSlAllocation (txOpps : List NrSlSlotInfo) (dst : SchedulerDstInfo) (draws : Draws) (w : W) :
    Except Fault (Scheduled W) := do
  require (cfg.assertsEnabled = true → txOpps ≠ []) Fault.emptyTxOpps
  let lc ← soleLogicalChannel cfg dst
  if lc.totalQueueSize = 0 then pure ⟨none, dst, draws, w⟩
  else do
    require (cfg.assertsEnabled = true → cfg.fixedNrSlMcs = true) Fault.mcsNotFixed
    let (choice, draws, w) ←
      chooseResources cfg getResourceSelections dst lc.totalQueueSize txOpps draws w
    pure ⟨some (allocateSlots dst lc choice), dst.assignedData choice.tbs, draws, w⟩

end Allocation

section AllocationLoop

variable {dst : SchedulerDstInfo} {lc : SchedulerLc} {choice : Choice}

/-- The set after the slots `done`: its elements are numbered, and each slot has the allocation of
the first pair that names it. -/
structure Allocated (dst : SchedulerDstInfo) (lc : SchedulerLc) (choice : Choice)
    (done : List (NrSlSlotInfo × Nat)) (s : SlotAllocSet) : Prop where
  numbered : ∀ k a, s.elems[k]? = some a → ∃ p ∈ done, a = slotAllocOf dst lc choice k p
  count : s.elems.length ≤ done.length
  present : ∀ p ∈ done, ∃ a ∈ s.elems, a.sfn = p.1.sfn
  first : ∀ before p after, done = before ++ p :: after → (∀ q ∈ before, q.1.sfn ≠ p.1.sfn) →
    ∃ a ∈ s.elems, a.sfn = p.1.sfn ∧ a.slPsschSubChStart = p.2

theorem append_split {α : Type} {l l' before after : List α} {x : α}
    (h : l ++ l' = before ++ x :: after) :
    (∃ after', l = before ++ x :: after') ∨
      ∃ before', before = l ++ before' ∧ l' = before' ++ x :: after := by
  rcases List.append_eq_append_iff.mp h with ⟨before', hbefore, hl'⟩ | ⟨rest, hl, hafter⟩
  · exact Or.inr ⟨before', hbefore, hl'⟩
  · cases rest with
    | nil => exact Or.inr ⟨[], by rw [hl]; simp, by rw [hafter]; rfl⟩
    | cons y rest =>
      obtain ⟨rfl, _⟩ := List.cons.inj hafter
      exact Or.inl ⟨rest, hl⟩

theorem snoc_split {α : Type} {l before after : List α} {x y : α}
    (h : l ++ [x] = before ++ y :: after) :
    (l = before ∧ x = y) ∨ ∃ after', l = before ++ y :: after' := by
  rcases append_split h with ⟨after', hl⟩ | ⟨before', hbefore, hlast⟩
  · exact Or.inr ⟨after', hl⟩
  · cases before' with
    | nil =>
      obtain ⟨hxy, _⟩ := List.cons.inj hlast
      exact Or.inl ⟨by rw [hbefore, List.append_nil], hxy⟩
    | cons z before' => simp at hlast

variable {done : List (NrSlSlotInfo × Nat)} {s : SlotAllocSet} {p : NrSlSlotInfo × Nat}

theorem Allocated.taken (h : Allocated dst lc choice done s) {b : NrSlSlotAlloc}
    (hb : b ∈ s.elems) (hbp : b.sfn = p.1.sfn) : Allocated dst lc choice (done ++ [p]) s where
  numbered := by
    intro k a hk
    obtain ⟨q, hq, ha⟩ := h.numbered k a hk
    exact ⟨q, List.mem_append_left _ hq, ha⟩
  count := by
    have := h.count
    rw [List.length_append]
    omega
  present := by
    intro q hq
    rcases List.mem_append.mp hq with hq | hq
    · exact h.present q hq
    · rw [List.mem_singleton.mp hq]
      exact ⟨b, hb, hbp⟩
  first := by
    intro before q after hsplit hnew
    rcases snoc_split hsplit with ⟨rfl, rfl⟩ | ⟨after', hdone⟩
    · obtain ⟨k, hk⟩ := List.mem_iff_getElem?.mp hb
      obtain ⟨q, hq, rfl⟩ := h.numbered k b hk
      exact absurd hbp (hnew q hq)
    · exact h.first before q after' hdone hnew

theorem Allocated.later (h : Allocated dst lc choice done s) {t : SlotAllocSet}
    (ht : t.elems = s.elems ++ [slotAllocOf dst lc choice s.elems.length p]) :
    Allocated dst lc choice (done ++ [p]) t where
  numbered := by
    intro k a hk
    rw [ht] at hk
    by_cases hlt : k < s.elems.length
    · rw [List.getElem?_append_left hlt] at hk
      obtain ⟨q, hq, ha⟩ := h.numbered k a hk
      exact ⟨q, List.mem_append_left _ hq, ha⟩
    · rw [List.getElem?_append_right (by omega)] at hk
      obtain ⟨hk0, hak⟩ := List.getElem?_eq_some_iff.mp hk
      have hkn : k = s.elems.length := by
        rw [List.length_singleton] at hk0
        omega
      subst hkn
      refine ⟨p, by simp, ?_⟩
      rw [← hak, List.getElem_singleton]
  count := by
    have := h.count
    rw [ht, List.length_append, List.length_append]
    simpa using this
  present := by
    intro q hq
    rw [ht]
    rcases List.mem_append.mp hq with hq | hq
    · obtain ⟨a, ha, he⟩ := h.present q hq
      exact ⟨a, List.mem_append_left _ ha, he⟩
    · rw [List.mem_singleton.mp hq]
      exact ⟨_, List.mem_append_right _ (List.mem_singleton_self _), rfl⟩
  first := by
    intro before q after hsplit hnew
    rw [ht]
    rcases snoc_split hsplit with ⟨rfl, rfl⟩ | ⟨after', hdone⟩
    · exact ⟨_, List.mem_append_right _ (List.mem_singleton_self _), rfl, rfl⟩
    · obtain ⟨a, ha, he⟩ := h.first before q after' hdone hnew
      exact ⟨a, List.mem_append_left _ ha, he⟩

theorem Allocated.next (h : Allocated dst lc choice done s)
    (hsorted : ∀ q ∈ done, q.1.sfn ≤ p.1.sfn) :
    Allocated dst lc choice (done ++ [p])
      (s.emplace (slotAllocOf dst lc choice s.elems.length p)) := by
  by_cases hthere : ∃ a ∈ s.elems, a.sfn = p.1.sfn
  · obtain ⟨b, hb, hbp⟩ := hthere
    have hself : s.emplace (slotAllocOf dst lc choice s.elems.length p) = s :=
      KeyedSet.ext_elems (insertByKey_eq_self s.sorted hb hbp)
    rw [hself]
    exact h.taken hb hbp
  · refine h.later (insertByKey_eq_append fun a ha => ?_)
    obtain ⟨k, hk⟩ := List.mem_iff_getElem?.mp ha
    obtain ⟨q, hq, rfl⟩ := h.numbered k a hk
    have hne : q.1.sfn ≠ p.1.sfn := fun he => hthere ⟨_, ha, he⟩
    have hle := hsorted q hq
    change q.1.sfn < p.1.sfn
    omega

theorem allocated_foldl {l : List (NrSlSlotInfo × Nat)}
    (h : Allocated dst lc choice done s)
    (hsorted : (done ++ l).Pairwise fun p q => p.1.sfn ≤ q.1.sfn) :
    Allocated dst lc choice (done ++ l)
      (l.foldl (fun s p => s.emplace (slotAllocOf dst lc choice s.elems.length p)) s) := by
  induction l generalizing done s with
  | nil => simpa using h
  | cons p l ih =>
    have hcat : done ++ p :: l = done ++ [p] ++ l := by simp
    have hbefore : ∀ q ∈ done, q.1.sfn ≤ p.1.sfn := fun q hq =>
      (List.pairwise_append.mp hsorted).2.2 q hq p List.mem_cons_self
    rw [hcat] at hsorted ⊢
    exact ih (h.next hbefore) hsorted

theorem allocateSlots_allocated (hsorted : choice.slots.Pairwise fun p q => p.1.sfn ≤ q.1.sfn) :
    Allocated dst lc choice choice.slots (allocateSlots dst lc choice) := by
  have hempty : Allocated dst lc choice [] KeyedSet.empty := ⟨by simp, by simp, by simp, by simp⟩
  exact allocated_foldl hempty hsorted

end AllocationLoop

end SidelinkORe
