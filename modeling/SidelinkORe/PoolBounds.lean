import SidelinkORe.AllocationSize
import SidelinkORe.OddCompletion

namespace SidelinkORe

section Starts

variable {dst : SchedulerDstInfo} {lc : SchedulerLc} {choice : Choice}
  {pairs : List (NrSlSlotInfo × Nat)} {p : NrSlSlotInfo × Nat}

/-- The pair starts at the lowest of the subchannels that are given to its slot. -/
def LowestStart (pairs : List (NrSlSlotInfo × Nat)) (p : NrSlSlotInfo × Nat) : Prop :=
  ∀ q ∈ pairs, q.1.sfn = p.1.sfn → p.2 ≤ q.2

theorem exists_first_split (hp : p ∈ pairs) : ∃ before q after, pairs = before ++ q :: after ∧
    q.1.sfn = p.1.sfn ∧ ∀ x ∈ before, x.1.sfn ≠ p.1.sfn := by
  induction pairs with
  | nil => simp at hp
  | cons x pairs ih =>
    by_cases hx : x.1.sfn = p.1.sfn
    · exact ⟨[], x, pairs, rfl, hx, by simp⟩
    · rcases List.mem_cons.mp hp with rfl | hp
      · exact absurd rfl hx
      · obtain ⟨before, q, after, rfl, hq, hbefore⟩ := ih hp
        refine ⟨x :: before, q, after, rfl, hq, fun y hy => ?_⟩
        rcases List.mem_cons.mp hy with rfl | hy
        · exact hx
        · exact hbefore y hy

theorem lowestStart_first {before after : List (NrSlSlotInfo × Nat)}
    (hsorted : (before ++ p :: after).Pairwise pairBefore)
    (hbefore : ∀ x ∈ before, x.1.sfn ≠ p.1.sfn) : LowestStart (before ++ p :: after) p := by
  intro q hq heq
  rcases List.mem_append.mp hq with hq | hq
  · exact absurd heq (hbefore q hq)
  · rcases List.mem_cons.mp hq with rfl | hq
    · exact Nat.le_refl q.2
    · have hrest := (List.pairwise_cons.mp (List.pairwise_append.mp hsorted).2.1).1 q hq
      unfold pairBefore at hrest
      omega

theorem exists_lowest_alloc (hsorted : choice.slots.Pairwise pairBefore) (hp : p ∈ choice.slots) :
    ∃ q ∈ choice.slots, q.1.sfn = p.1.sfn ∧ LowestStart choice.slots q ∧
      ∃ a ∈ (allocateSlots dst lc choice).elems, a.sfn = q.1.sfn ∧ a.slPsschSubChStart = q.2 := by
  have hallocated : Allocated dst lc choice choice.slots (allocateSlots dst lc choice) :=
    allocateSlots_allocated (hsorted.imp pairBefore.sfn_le)
  obtain ⟨before, q, after, hsplit, hq, hbefore⟩ := exists_first_split hp
  have hlowest : LowestStart choice.slots q := by
    rw [hsplit] at hsorted ⊢
    exact lowestStart_first hsorted (hq ▸ hbefore)
  refine ⟨q, ?_, hq, hlowest, hallocated.first before q after hsplit (hq ▸ hbefore)⟩
  rw [hsplit]
  simp

/-- The allocations lie in the pool when the lowest starts leave room for the size. -/
theorem allocations_within_iff {total : Nat} (hsorted : choice.slots.Pairwise pairBefore) :
    (∀ a ∈ (allocateSlots dst lc choice).elems,
      a.slPsschSubChStart + a.slPsschSubChLength ≤ total) ↔
      ∀ p ∈ choice.slots, LowestStart choice.slots p → p.2 + choice.assignedSbCh ≤ total := by
  have hallocated : Allocated dst lc choice choice.slots (allocateSlots dst lc choice) :=
    allocateSlots_allocated (hsorted.imp pairBefore.sfn_le)
  have hlength : ∀ a ∈ (allocateSlots dst lc choice).elems,
      a.slPsschSubChLength = choice.assignedSbCh ∧ ∃ p ∈ choice.slots, a.sfn = p.1.sfn := by
    intro a ha
    obtain ⟨k, hk⟩ := List.mem_iff_getElem?.mp ha
    obtain ⟨p, hp, rfl⟩ := hallocated.numbered k a hk
    exact ⟨rfl, p, hp, rfl⟩
  constructor
  · intro h p hp hlowest
    obtain ⟨q, hq, hqp, hqLowest, a, ha, _, hstart⟩ :
      ∃ q ∈ choice.slots, q.1.sfn = p.1.sfn ∧ LowestStart choice.slots q ∧
        ∃ a ∈ (allocateSlots dst lc choice).elems, a.sfn = q.1.sfn ∧ a.slPsschSubChStart = q.2 :=
      exists_lowest_alloc hsorted hp
    have heq : q.2 = p.2 := Nat.le_antisymm (hqLowest p hp hqp.symm) (hlowest q hq hqp)
    have hin := h a ha
    rw [hstart, heq, (hlength a ha).1] at hin
    exact hin
  · intro h a ha
    obtain ⟨hlen, p, hp, hap⟩ := hlength a ha
    obtain ⟨q, hq, hqp, hqLowest, b, hb, hbq, hstart⟩ :
      ∃ q ∈ choice.slots, q.1.sfn = p.1.sfn ∧ LowestStart choice.slots q ∧
        ∃ a ∈ (allocateSlots dst lc choice).elems, a.sfn = q.1.sfn ∧ a.slPsschSubChStart = q.2 :=
      exists_lowest_alloc hsorted hp
    have hsame : a.sfn = b.sfn := by rw [hap, hbq, hqp]
    rw [hlen, KeyedSet.eq_of_key_eq ha hb hsame, hstart]
    exact h q hq hqLowest

end Starts

section Selection

variable {totalSubCh totalTx : Nat} {draws rest : Draws} {txOpps newTxOpps : List NrSlSlotInfo}
  {chosen : List (Nat × Nat)} {cs : List Nat}

/-- The slots and start subchannels that an instruction can lead to: all offered slots when they are
few, else the chosen ones, and for an odd number a free subchannel of a free slot besides. -/
inductive Selected (totalSubCh totalTx : Nat) (txOpps : List NrSlSlotInfo)
    (chosen : List (Nat × Nat)) : List (NrSlSlotInfo × Nat) → Prop
  | few (h : txOpps.length ≤ totalTx) :
    Selected totalSubCh totalTx txOpps chosen (txOpps.zip (chosen.map Prod.snd))
  | even {l} (h : totalTx < txOpps.length) (heven : totalTx % 2 = 0)
      (hl : List.Forall₂ (fun p it => txOpps[p.1]? = some it) chosen l) :
    Selected totalSubCh totalTx txOpps chosen (l.zip (chosen.map Prod.snd))
  | odd {l it c} (h : totalTx < txOpps.length) (hodd : totalTx % 2 = 1)
      (hl : List.Forall₂ (fun p it => txOpps[p.1]? = some it) chosen l) (hin : it ∈ txOpps)
      (hfree : HasFree totalSubCh it) (hc : c < totalSubCh) (hcfree : c ∉ it.occupiedSbCh) :
    Selected totalSubCh totalTx txOpps chosen (l.zip (chosen.map Prod.snd) ++ [(it, c)])

theorem overwriteSlots_selected (hcount : chosen.length = totalTx - totalTx % 2)
    (hlists : ¬(totalTx % 2 = 1 ∧ txOpps.length = totalTx)) (htotal : totalSubCh ≤ 256)
    (h : overwriteSlots totalSubCh totalTx chosen draws txOpps = .ok (newTxOpps, cs, rest)) :
    newTxOpps.length ≤ cs.length ∧ Selected totalSubCh totalTx txOpps chosen (newTxOpps.zip cs) := by
  unfold overwriteSlots at h
  split at h
  next hmany =>
    split at h
    next heven =>
      obtain ⟨l, hwalk, h⟩ := bind_ok_iff.mp h
      cases pure_ok_iff.mp h
      obtain ⟨_, hl⟩ := walkChosen_ok_iff.mp hwalk
      rw [List.take_of_length_le (by rw [List.length_map]; omega), List.forall₂_map_left_iff] at hl
      exact ⟨(chosenSlots_length hl).le, .even hmany heven hl⟩
    next hodd =>
      obtain ⟨⟨l', extra, rest'⟩, hwalk, h⟩ := bind_ok_iff.mp h
      cases pure_ok_iff.mp h
      have hlen : totalTx = (chosen.map Prod.fst).length + 1 := by
        rw [List.length_map]
        omega
      rw [hlen] at hwalk
      obtain ⟨l, it, draws₁, c, _, hl, hit, hc, hout⟩ := walkOrDraw_ok_iff.mp hwalk
      cases hout
      rw [← hlen] at hit
      rw [List.forall₂_map_left_iff] at hl
      obtain ⟨hin, hfree⟩ := drawFreeSlot_hasFree hmany hit
      obtain ⟨hclt, hcfree⟩ := drawFreeSbCh_free htotal (Nat.zero_lt_of_lt hfree) hc
      have hsame := chosenSlots_length hl
      refine ⟨by simp [hsame], ?_⟩
      rw [List.zip_append hsame]
      exact .odd hmany (by omega) hl hin hfree hclt hcfree
  next hfew =>
    cases pure_ok_iff.mp h
    refine ⟨?_, .few (Nat.le_of_not_lt hfew)⟩
    rw [List.length_map, hcount]
    omega

theorem Selected.drawn {pairs : List (NrSlSlotInfo × Nat)}
    (h : Selected totalSubCh totalTx txOpps chosen pairs)
    (hcount : chosen.length = totalTx - totalTx % 2)
    (hlists : ¬(totalTx % 2 = 1 ∧ txOpps.length = totalTx)) (htotal : totalSubCh ≤ 256) :
    ∃ draws rest newTxOpps cs,
      overwriteSlots totalSubCh totalTx chosen draws txOpps = .ok (newTxOpps, cs, rest) ∧
      newTxOpps.length ≤ cs.length ∧ newTxOpps.zip cs = pairs := by
  cases h with
  | few hfew =>
    refine ⟨[], [], txOpps, chosen.map Prod.snd, ?_, ?_, rfl⟩
    · unfold overwriteSlots
      rw [if_neg (Nat.not_lt.mpr hfew)]
      rfl
    · rw [List.length_map, hcount]
      omega
  | even hmany heven hl =>
    have hall : chosen.length = totalTx := by omega
    exact ⟨[], [], _, _, overwriteSlots_even heven hmany hall hl, (chosenSlots_length hl).le, rfl⟩
  | @odd l it c hmany hodd hl hin hfree hc hcfree =>
    obtain ⟨i, hit⟩ := List.mem_iff_getElem?.mp hin
    have hi := (List.getElem?_eq_some_iff.mp hit).1
    have hlen : totalTx = (chosen.map Prod.fst).length + 1 := by
      rw [List.length_map]
      omega
    have hsame := chosenSlots_length hl
    have hslot : drawFreeSlot totalSubCh totalTx txOpps [i, c] = .ok (it, [c]) :=
      drawFreeSlot_hit (by rw [getInteger_index hi, hit]) hfree
    have hsubCh : drawFreeSbCh totalSubCh it [c] = .ok (c, []) :=
      drawFreeSbCh_hit htotal (getInteger_index hc) (Nat.zero_lt_of_lt hc) hcfree
    have hwalk : walkOrDraw totalSubCh totalTx txOpps totalTx (chosen.map Prod.fst) [i, c] =
        .ok (l ++ [it], [c], []) := by
      rw [hlen] at hslot ⊢
      exact walkOrDraw_ok_iff.mpr
        ⟨l, it, [c], c, [], List.forall₂_map_left_iff.mpr hl, hslot, hsubCh, rfl⟩
    refine ⟨[i, c], [], l ++ [it], chosen.map Prod.snd ++ [c], ?_, by simp [hsame], ?_⟩
    · unfold overwriteSlots
      rw [if_pos hmany, if_neg (by omega)]
      exact bind_of_ok hwalk
    · rw [List.zip_append hsame]
      rfl

end Selection

/-- The fault is not a read outside the lists of an instruction. -/
def ListsInRange (e : Fault) : Prop := e ≠ .invalidInstruction ∧ e ≠ .subChannelListTooShort

/-- Whatever is drawn, the lists of the instruction are read inside their bounds, and every
allocation lies inside the pool. -/
def InBounds {W : Type} (cfg : SchedulerConfig) (getResourceSelections : W → Except Fault (Text × W))
    (txOpps : List NrSlSlotInfo) (dst : SchedulerDstInfo) (w : W) : Prop :=
  ∀ draws, Fails ListsInRange (doNrSlAllocation cfg getResourceSelections txOpps dst draws w) ∧
    ∀ r A, doNrSlAllocation cfg getResourceSelections txOpps dst draws w = .ok r →
      r.slotAllocList = some A →
      ∀ a ∈ A.elems, a.slPsschSubChStart + a.slPsschSubChLength ≤ cfg.totalSubCh

/-- From the lowest start of a slot on the pool has room: for a size that is enough for the data, or
for any size that all selected slots have free. -/
def HasRoom (cfg : SchedulerConfig) (dst : SchedulerDstInfo) (shape : SlotShape) (bufferSize : Nat)
    (pairs : List (NrSlSlotInfo × Nat)) : Prop :=
  ∀ p ∈ pairs, LowestStart pairs p →
    (∃ n, 1 ≤ n ∧ p.2 + n ≤ cfg.totalSubCh ∧ (bufferSize + 5) % 2 ^ 32 ≤
      cfg.calculateTbSize dst.dstMcs (shape.slSubchannelSize * n * shape.slPsschSymLength)) ∨
    ∃ q ∈ pairs, ¬FreeRun cfg.totalSubCh q.1 (cfg.totalSubCh - p.2 + 1)

section Bounds

variable {cfg : SchedulerConfig} {dst : SchedulerDstInfo} {lc : SchedulerLc} {shape : SlotShape}
  {bufferSize totalTx : Nat} {txOpps : List NrSlSlotInfo} {chosen : List (Nat × Nat)}
  {pairs : List (NrSlSlotInfo × Nat)} {info : SbChInfo} {size choice : Choice} {draws : Draws}

theorem lists_walkChosen {n : Nat} {slots : List Nat} (h : n ≤ slots.length) :
    Fails ListsInRange (walkChosen txOpps n slots) := by
  induction n generalizing slots with
  | zero => exact fails_ok _
  | succ n ih =>
    cases slots with
    | nil => simp at h
    | cons slot slots =>
      refine fails_bind (fails_orFault (by simp [ListsInRange])) fun _ _ => ?_
      refine fails_bind (ih (by simpa using h)) fun _ _ => fails_ok _

theorem lists_drawFreeSlot {total : Nat} :
    Fails ListsInRange (drawFreeSlot total totalTx txOpps draws) := by
  induction draws with
  | nil => exact fails_error (by simp [ListsInRange])
  | cons draw draws ih =>
    refine fails_bind (fails_orFault (by simp [ListsInRange])) fun _ _ => ?_
    exact fails_ite (fun _ => fails_ok _) fun _ => ih

theorem lists_drawFreeSbCh {total : Nat} {it : NrSlSlotInfo} :
    Fails ListsInRange (drawFreeSbCh total it draws) := by
  induction draws with
  | nil => exact fails_error (by simp [ListsInRange])
  | cons draw draws ih => exact fails_ite (fun _ => ih) fun _ => fails_ok _

theorem lists_walkOrDraw {total n : Nat} {slots : List Nat} :
    Fails ListsInRange (walkOrDraw total totalTx txOpps n slots draws) := by
  induction n generalizing slots draws with
  | zero => exact fails_ok _
  | succ n ih =>
    cases slots with
    | nil =>
      refine fails_bind lists_drawFreeSlot fun _ _ => fails_bind lists_drawFreeSbCh fun _ _ => ?_
      exact fails_bind ih fun _ _ => fails_ok _
    | cons slot slots =>
      refine fails_bind (fails_orFault (by simp [ListsInRange])) fun _ _ => ?_
      exact fails_bind ih fun _ _ => fails_ok _

theorem lists_sizeOfSelected {selected : List NrSlSlotInfo} :
    Fails ListsInRange (sizeOfSelected cfg dst bufferSize selected) := by
  refine fails_bind (fails_orFault (by simp [ListsInRange])) fun _ _ => fails_bind ?_ fun _ _ => fails_ok _
  exact fails_bind (fails_require (by simp [ListsInRange])) fun _ _ => fails_ok _

/-- Apart from an odd number with just as many slots on offer there is a subchannel for each slot. -/
theorem lists_overwriteResources (hcount : chosen.length = totalTx - totalTx % 2)
    (hlists : ¬(totalTx % 2 = 1 ∧ txOpps.length = totalTx)) (htotal : cfg.totalSubCh ≤ 256) :
    Fails ListsInRange (overwriteResources cfg dst bufferSize txOpps totalTx chosen draws) := by
  refine fails_bind ?_ fun p hslots => ?_
  · refine fails_ite (fun _ => fails_ite (fun _ => ?_) fun _ => ?_) fun _ => fails_ok _
    · exact fails_bind (lists_walkChosen (by rw [List.length_map]; omega)) fun _ _ => fails_ok _
    · exact fails_bind lists_walkOrDraw fun _ _ => fails_ok _
  · obtain ⟨newTxOpps, cs, rest⟩ := p
    obtain ⟨hlen, _⟩ := overwriteSlots_selected hcount hlists htotal hslots
    have hpairs : pairSubChannels newTxOpps cs = .ok (newTxOpps.zip cs) :=
      pairSubChannels_ok_iff.mpr ⟨hlen, rfl⟩
    refine fails_bind ?_ fun _ _ => fails_bind lists_sizeOfSelected fun _ _ => fails_ok _
    rw [hpairs]
    exact fails_ok _

theorem pairSubChannels_short {l : List NrSlSlotInfo} {cs : List Nat} (h : cs.length < l.length) :
    pairSubChannels l cs = .error .subChannelListTooShort := by
  induction l generalizing cs with
  | nil => simp at h
  | cons it l ih =>
    cases cs with
    | nil => rfl
    | cons c cs => exact bind_of_error (ih (by simpa using h))

/-- With as many slots on offer as an odd number of transmissions the last slot has no subchannel. -/
theorem overwriteResources_short (hcount : chosen.length = totalTx - totalTx % 2)
    (hodd : totalTx % 2 = 1) (hall : txOpps.length = totalTx) :
    overwriteResources cfg dst bufferSize txOpps totalTx chosen draws =
      .error .subChannelListTooShort := by
  have hslots : overwriteSlots cfg.totalSubCh totalTx chosen draws txOpps =
      .ok (txOpps, chosen.map Prod.snd, draws) := by
    unfold overwriteSlots
    rw [if_neg (by omega)]
    rfl
  have hshort : pairSubChannels txOpps (chosen.map Prod.snd) = .error .subChannelListTooShort :=
    pairSubChannels_short (by rw [List.length_map]; omega)
  unfold overwriteResources
  refine (bind_of_ok hslots).trans ?_
  exact bind_of_error hshort

/-- The size of the selected slots fits behind a start when the pool has room there. -/
theorem size_fits_iff {c : Nat} (hshape : ∀ p ∈ pairs, p.1.shape = shape) (hc : c < cfg.totalSubCh)
    (h : sizeOfSelected cfg dst bufferSize ((sortPairs pairs).map Prod.fst) = .ok (info, size)) :
    c + size.assignedSbCh ≤ cfg.totalSubCh ↔
      (∃ n, 1 ≤ n ∧ c + n ≤ cfg.totalSubCh ∧ (bufferSize + 5) % 2 ^ 32 ≤
        cfg.calculateTbSize dst.dstMcs (shape.slSubchannelSize * n * shape.slPsschSymLength)) ∨
      ∃ q ∈ pairs, ¬FreeRun cfg.totalSubCh q.1 (cfg.totalSubCh - c + 1) := by
  have hin : ∀ it, it ∈ (sortPairs pairs).map Prod.fst ↔ ∃ p ∈ pairs, p.1 = it := by
    intro it
    simp only [List.mem_map, mem_sortPairs]
  obtain ⟨first, hfirst, h⟩ := bind_ok_iff.mp h
  obtain ⟨info', hinfo, h⟩ := bind_ok_iff.mp h
  cases pure_ok_iff.mp h
  have hlayout : first.shape = shape := by
    obtain ⟨p, hp, heq⟩ := (hin first).mp (List.mem_of_mem_head? (orFault_ok_iff.mp hfirst))
    rw [← heq]
    exact hshape p hp
  have hsize := sizeAllocation_le_iff (fun n => cfg.calculateTbSize dst.dstMcs
      (first.shape.slSubchannelSize * n * first.shape.slPsschSymLength))
    ((bufferSize + 5) % 2 ^ 32) (info.numSubCh - 1) (show 1 ≤ cfg.totalSubCh - c by omega)
  have hruns : info.numSubCh ≤ cfg.totalSubCh - c ↔
      cfg.totalSubCh ≤ cfg.totalSubCh - c ∨ ∃ it ∈ (sortPairs pairs).map Prod.fst,
        ¬FreeRun cfg.totalSubCh it (cfg.totalSubCh - c + 1) := numSubCh_le_iff hinfo
  dsimp only
  rw [hlayout] at hsize ⊢
  constructor
  · intro hle
    rcases hsize.mp (by omega) with hend | ⟨n, hn, hnb, hfits⟩
    · apply Or.inr
      rcases hruns.mp (by omega) with hwhole | ⟨it, hit, hshort⟩
      · -- a start at the first subchannel: no run is longer than the pool
        obtain ⟨p, hp, _⟩ := (hin first).mp (List.mem_of_mem_head? (orFault_ok_iff.mp hfirst))
        exact ⟨p, hp, not_freeRun (by omega)⟩
      · obtain ⟨p, hp, rfl⟩ := (hin it).mp hit
        exact ⟨p, hp, hshort⟩
    · exact Or.inl ⟨n, hn, by omega, hfits⟩
  · intro hroom
    have hle : (sizeAllocation (fun n => cfg.calculateTbSize dst.dstMcs
        (shape.slSubchannelSize * n * shape.slPsschSymLength)) ((bufferSize + 5) % 2 ^ 32)
        (info.numSubCh - 1) 1).1 ≤ cfg.totalSubCh - c := by
      apply hsize.mpr
      rcases hroom with ⟨n, hn, hnb, hfits⟩ | ⟨p, hp, hshort⟩
      · exact Or.inr ⟨n, hn, by omega, hfits⟩
      · have hnum := hruns.mpr (Or.inr ⟨p.1, (hin p.1).mpr ⟨p, hp, rfl⟩, hshort⟩)
        exact Or.inl (by omega)
    omega

theorem Selected.offered (h : Selected cfg.totalSubCh totalTx txOpps chosen pairs)
    (hsub : ∀ p ∈ chosen, p.2 < cfg.totalSubCh) :
    ∀ p ∈ pairs, p.1 ∈ txOpps ∧ p.2 < cfg.totalSubCh := by
  have hstart : ∀ c ∈ chosen.map Prod.snd, c < cfg.totalSubCh := by
    intro c hc
    obtain ⟨p, hp, rfl⟩ := List.mem_map.mp hc
    exact hsub p hp
  intro p hp
  cases h with
  | few _ => exact ⟨(List.of_mem_zip hp).1, hstart p.2 (List.of_mem_zip hp).2⟩
  | even _ _ hl =>
    have hin := chosenSlots_offered hl p.1 (List.of_mem_zip hp).1
    exact ⟨hin, hstart p.2 (List.of_mem_zip hp).2⟩
  | odd _ _ hl hin _ hc _ =>
    rcases List.mem_append.mp hp with hp | hp
    · have hslot := chosenSlots_offered hl p.1 (List.of_mem_zip hp).1
      exact ⟨hslot, hstart p.2 (List.of_mem_zip hp).2⟩
    · rw [List.mem_singleton.mp hp]
      exact ⟨hin, hc⟩

theorem allocations_iff_hasRoom (hslots : choice.slots = sortPairs pairs)
    (hchoice : choice.assignedSbCh = size.assignedSbCh)
    (hshape : ∀ p ∈ pairs, p.1.shape = shape) (hsub : ∀ p ∈ pairs, p.2 < cfg.totalSubCh)
    (h : sizeOfSelected cfg dst bufferSize ((sortPairs pairs).map Prod.fst) = .ok (info, size)) :
    (∀ a ∈ (allocateSlots dst lc choice).elems,
      a.slPsschSubChStart + a.slPsschSubChLength ≤ cfg.totalSubCh) ↔
      HasRoom cfg dst shape bufferSize pairs := by
  have hsorted : choice.slots.Pairwise pairBefore := by
    rw [hslots]
    exact sortPairs_sorted pairs
  have hin : ∀ p, p ∈ choice.slots ↔ p ∈ pairs := by
    intro p
    rw [hslots, mem_sortPairs]
  have hlowest : ∀ p, LowestStart choice.slots p ↔ LowestStart pairs p := by
    intro p
    unfold LowestStart
    simp only [hin]
  rw [allocations_within_iff hsorted, hchoice]
  unfold HasRoom
  simp only [hin, hlowest]
  constructor
  · intro hall p hp hp'
    exact (size_fits_iff hshape (hsub p hp) h).mp (hall p hp hp')
  · intro hall p hp hp'
    exact (size_fits_iff hshape (hsub p hp) h).mpr (hall p hp hp')

variable {W : Type} {getResourceSelections : W → Except Fault (Text × W)} {w w' : W}

/-- A size that is settled for pairs is the size of the allocations. -/
theorem overwriteResources_ok {newTxOpps : List NrSlSlotInfo} {cs : List Nat} {rest rest' : Draws}
    (hslots : overwriteSlots cfg.totalSubCh totalTx chosen draws txOpps =
      .ok (newTxOpps, cs, rest)) (hlen : newTxOpps.length ≤ cs.length)
    (h : overwriteResources cfg dst bufferSize txOpps totalTx chosen draws = .ok (choice, rest')) :
    ∃ info size, sizeOfSelected cfg dst bufferSize ((sortPairs (newTxOpps.zip cs)).map Prod.fst) =
      .ok (info, size) ∧ choice.slots = sortPairs (newTxOpps.zip cs) ∧
        choice.assignedSbCh = size.assignedSbCh := by
  rw [overwriteResources_of_slots hslots hlen] at h
  obtain ⟨⟨info, size⟩, hsize, h⟩ := bind_ok_iff.mp h
  cases Except.ok.inj h
  exact ⟨info, size, hsize, rfl, rfl⟩

/-- With a subchannel for every slot and room for whatever can be selected all bounds are kept. -/
theorem inBounds_of_room (h : Instructed cfg getResourceSelections dst lc totalTx chosen w w')
    (hne : txOpps ≠ []) (hcount : chosen.length = totalTx - totalTx % 2)
    (hsub : ∀ p ∈ chosen, p.2 < cfg.totalSubCh) (htotal : cfg.totalSubCh ≤ 256)
    (hshape : ∀ it ∈ txOpps, it.shape = shape)
    (hlists : ¬(totalTx % 2 = 1 ∧ txOpps.length = totalTx))
    (hroom : ∀ pairs, Selected cfg.totalSubCh totalTx txOpps chosen pairs →
      HasRoom cfg dst shape lc.totalQueueSize pairs) :
    InBounds cfg getResourceSelections txOpps dst w := by
  intro draws
  rw [h.doNrSlAllocation_eq hne draws]
  refine ⟨fails_bind (lists_overwriteResources hcount hlists htotal) fun _ _ => fails_ok _, ?_⟩
  intro r A hrun hA
  obtain ⟨⟨choice, rest⟩, hchoice, hrun⟩ := bind_ok_iff.mp hrun
  cases Except.ok.inj hrun
  obtain rfl := Option.some.inj hA
  have hresources := hchoice
  obtain ⟨⟨newTxOpps, cs, rest'⟩, hslots, _⟩ := bind_ok_iff.mp hchoice
  obtain ⟨hlen, hselected⟩ := overwriteSlots_selected hcount hlists htotal hslots
  obtain ⟨info, size, hsize, hpairs, hassigned⟩ := overwriteResources_ok hslots hlen hresources
  have hoffered := hselected.offered hsub
  refine (allocations_iff_hasRoom hpairs hassigned (fun p hp => hshape p.1 (hoffered p hp).1)
    (fun p hp => (hoffered p hp).2) hsize).mpr ?_
  exact hroom _ hselected

theorem InBounds.lists (hbounds : InBounds cfg getResourceSelections txOpps dst w)
    (h : Instructed cfg getResourceSelections dst lc totalTx chosen w w')
    (hne : txOpps ≠ []) (hcount : chosen.length = totalTx - totalTx % 2) :
    ¬(totalTx % 2 = 1 ∧ txOpps.length = totalTx) := by
  rintro ⟨hodd, hall⟩
  have hrun := h.doNrSlAllocation_eq hne []
  rw [bind_of_error (overwriteResources_short hcount hodd hall)] at hrun
  exact ((hbounds []).1 _ hrun).2 rfl

theorem InBounds.room (hbounds : InBounds cfg getResourceSelections txOpps dst w)
    (h : Instructed cfg getResourceSelections dst lc totalTx chosen w w')
    (hne : txOpps ≠ []) (hcount : chosen.length = totalTx - totalTx % 2)
    (hsub : ∀ p ∈ chosen, p.2 < cfg.totalSubCh) (htotal : cfg.totalSubCh ≤ 256)
    (hshape : ∀ it ∈ txOpps, it.shape = shape)
    (hselected : Selected cfg.totalSubCh totalTx txOpps chosen pairs) :
    HasRoom cfg dst shape lc.totalQueueSize pairs := by
  intro p hp hlowest
  have hlists := hbounds.lists h hne hcount
  have hoffered := hselected.offered hsub
  obtain ⟨draws, rest, newTxOpps, cs, hslots, hlen, rfl⟩ := hselected.drawn hcount hlists htotal
  have hpos : 0 < cfg.totalSubCh := Nat.zero_lt_of_lt (hoffered p hp).2
  have hsome : (sortPairs (newTxOpps.zip cs)).map Prod.fst ≠ [] :=
    List.ne_nil_of_mem (List.mem_map_of_mem (mem_sortPairs.mpr hp))
  obtain ⟨info, size, hsize⟩ : ∃ info size, sizeOfSelected cfg dst lc.totalQueueSize
    ((sortPairs (newTxOpps.zip cs)).map Prod.fst) = .ok (info, size) :=
    sizeOfSelected_exists hsome hpos
  obtain ⟨choice, hchoice, hslotsOf, hassigned⟩ : ∃ choice,
      overwriteResources cfg dst lc.totalQueueSize txOpps totalTx chosen draws = .ok (choice, rest) ∧
      choice.slots = sortPairs (newTxOpps.zip cs) ∧ choice.assignedSbCh = size.assignedSbCh :=
    ⟨_, (overwriteResources_of_slots hslots hlen).trans (bind_of_ok hsize), rfl, rfl⟩
  have hrun := h.doNrSlAllocation_eq hne draws
  rw [bind_of_ok hchoice] at hrun
  have hwithin := (hbounds draws).2 _ _ hrun rfl
  exact (allocations_iff_hasRoom hslotsOf hassigned (fun q hq => hshape q.1 (hoffered q hq).1)
    (fun q hq => (hoffered q hq).2) hsize).mp hwithin p hp hlowest

/-- The bounds are kept exactly when an odd number of transmissions does not meet just as many
slots on offer, and the pool has room for whatever can be selected. -/
theorem inBounds_iff (h : Instructed cfg getResourceSelections dst lc totalTx chosen w w')
    (hne : txOpps ≠ []) (hcount : chosen.length = totalTx - totalTx % 2)
    (hsub : ∀ p ∈ chosen, p.2 < cfg.totalSubCh) (htotal : cfg.totalSubCh ≤ 256)
    (hshape : ∀ it ∈ txOpps, it.shape = shape) :
    InBounds cfg getResourceSelections txOpps dst w ↔
      ¬(totalTx % 2 = 1 ∧ txOpps.length = totalTx) ∧
      ∀ pairs, Selected cfg.totalSubCh totalTx txOpps chosen pairs →
        HasRoom cfg dst shape lc.totalQueueSize pairs := by
  constructor
  · intro hbounds
    exact ⟨hbounds.lists h hne hcount, fun pairs hselected =>
      hbounds.room h hne hcount hsub htotal hshape hselected⟩
  · rintro ⟨hlists, hroom⟩
    exact inBounds_of_room h hne hcount hsub htotal hshape hlists hroom

end Bounds

section TwoSlots

/-- Two chosen resources that begin with the first subchannel lie in the pool. -/
theorem inBounds_firstSubCh :
    InBounds overwriteSched (instruct "12000010") (overwriteOffer [4, 5, 6]) overwriteDst () := by
  refine (inBounds_iff (instructed_text
    (show readInstruction "12000010".toList = .ok (.overwrite 2 [(0, 0), (1, 0)]) by decide +kernel))
    (by decide) rfl (by decide) (by decide) (overwriteOffer_shape _)).mpr ⟨by decide, ?_⟩
  intro pairs hselected p hp _
  have hfirst : p.2 = 0 := by
    cases hselected with
    | few hfew => exact absurd hfew (by decide)
    | even _ _ hl => simpa using (List.of_mem_zip hp).2
    | odd _ hodd => exact absurd hodd (by decide)
  exact Or.inl ⟨2, by decide, by rw [hfirst]; decide, by decide⟩

/-- Data that needs both subchannels is sent from the second one on. -/
theorem inBounds_fails_lastSubCh :
    ¬InBounds overwriteSched (instruct "12001011") (overwriteOffer [4, 5, 6]) overwriteDst () := by
  intro hbounds
  have hselected : Selected 2 2 (overwriteOffer [4, 5, 6]) [(0, 1), (1, 1)]
      [(⟨overwriteShape, 4, ∅⟩, 1), (⟨overwriteShape, 5, ∅⟩, 1)] :=
    .even (by decide) rfl (.cons rfl (.cons rfl .nil))
  have hroom := hbounds.room (instructed_text
    (show readInstruction "12001011".toList = .ok (.overwrite 2 [(0, 1), (1, 1)]) by decide +kernel))
    (by decide) rfl (by decide) (by decide) (overwriteOffer_shape _) hselected
  have hfree : ∀ sfn, FreeRun 2 ⟨overwriteShape, sfn, ∅⟩ 2 := by
    intro sfn
    refine ⟨0, fun j hj => ?_⟩
    have hall : availSbCh 2 ⟨overwriteShape, sfn, ∅⟩ = [0, 1] := rfl
    rw [hall]
    have : j = 0 ∨ j = 1 := by omega
    simp [this]
  have hlowest : LowestStart [(⟨overwriteShape, 4, ∅⟩, 1), (⟨overwriteShape, 5, ∅⟩, 1)]
      (⟨overwriteShape, 4, ∅⟩, 1) := by
    intro q hq _
    simp only [List.mem_cons, List.not_mem_nil, or_false] at hq
    rcases hq with rfl | rfl <;> exact Nat.le_refl 1
  rcases hroom _ List.mem_cons_self hlowest with ⟨n, hn, hnb, hfits⟩ | ⟨q, hq, hshort⟩
  · have hone : n = 1 := by
      change 1 + n ≤ 2 at hnb
      omega
    rw [hone] at hfits
    exact absurd hfits (by decide)
  · simp only [List.mem_cons, List.not_mem_nil, or_false] at hq
    rcases hq with rfl | rfl
    · exact hshort (hfree 4)
    · exact hshort (hfree 5)

end TwoSlots

end SidelinkORe
