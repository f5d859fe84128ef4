import SidelinkORe.RisingList
import SidelinkORe.SchedulerAnswer

namespace SidelinkORe

/-- What the chosen pairs are written down for: an allocation for each pair, with the subchannel of
the pair, the first one of them a new transmission, and every allocation announced by one SCI 1-A. -/
structure KeepsChosen (totalTx : Nat) (txOpps : List NrSlSlotInfo) (chosen : List (Nat × Nat))
    (A : SlotAllocSet) : Prop where
  count : A.elems.length = totalTx
  kept : (A.elems.map fun a => (some a.sfn, a.slPsschSubChStart)).Perm
    (chosen.map fun p => (txOpps[p.1]?.map (·.sfn), p.2))
  fresh : ∃ first rest, A.elems = first :: rest ∧ first.ndi = 1 ∧ ∀ a ∈ rest, a.ndi ≠ 1
  announced : ((A.elems.filter (·.txSci1A)).map (·.slotNumInd)).sum = A.elems.length

section Announcement

theorem sum_filter_of_zero {α : Type} (l : List α) (p : α → Bool) (f : α → Nat)
    (h : ∀ a ∈ l, p a = false → f a = 0) : ((l.filter p).map f).sum = (l.map f).sum := by
  induction l with
  | nil => rfl
  | cons a l ih =>
    have hrest := ih fun b hb => h b (List.mem_cons_of_mem a hb)
    cases hp : p a with
    | false =>
      have hzero := h a List.mem_cons_self hp
      simp [hp, hrest, hzero]
    | true => simp [hp, hrest]

/-- How many transmissions number `k` of `n` announces when every `m`-th one announces. -/
def announcedAt (m n k : Nat) : Nat :=
  if k % m = 0 then if k + m ≤ n then m else n - k else 0

/-- The announcements up to position `j` reach to the next announcing one or to the end. -/
theorem announced_prefix {m n j : Nat} (hm : 1 ≤ m) (hj : j ≤ n) :
    ∃ t, m ∣ t ∧ j ≤ t ∧ t < j + m ∧ ((List.range j).map (announcedAt m n)).sum = min n t := by
  induction j with
  | zero => exact ⟨0, Nat.dvd_zero m, Nat.le_refl 0, by omega, by simp⟩
  | succ j ih =>
    obtain ⟨t, hdvd, hlow, hhigh, hsum⟩ := ih (by omega)
    have hnext : ((List.range (j + 1)).map (announcedAt m n)).sum = min n t + announcedAt m n j := by
      rw [List.range_succ, List.map_append, List.sum_append, hsum]
      simp
    rw [hnext]
    unfold announcedAt
    by_cases hmod : j % m = 0
    · have hdvdSub : m ∣ t - j := Nat.dvd_sub hdvd (Nat.dvd_of_mod_eq_zero hmod)
      have hreach : t - j = 0 := Nat.eq_zero_of_dvd_of_lt hdvdSub (by omega)
      refine ⟨j + m, (Nat.dvd_add_self_right).mpr (Nat.dvd_of_mod_eq_zero hmod), by omega, by omega, ?_⟩
      rw [if_pos hmod]
      split <;> omega
    · have hpast : t ≠ j := by
        intro htj
        exact hmod (Nat.mod_eq_zero_of_dvd (htj ▸ hdvd))
      refine ⟨t, hdvd, by omega, by omega, ?_⟩
      rw [if_neg hmod, Nat.add_zero]

theorem announced_all {m : Nat} (n : Nat) (hm : 1 ≤ m) :
    ((List.range n).map (announcedAt m n)).sum = n := by
  obtain ⟨t, _, hlow, _, hsum⟩ := announced_prefix hm (Nat.le_refl n)
  rw [hsum]
  omega

end Announcement

section Rising

variable {dst : SchedulerDstInfo} {lc : SchedulerLc} {choice : Choice}

theorem allocateSlots_foldl {l : List (NrSlSlotInfo × Nat)} {s : SlotAllocSet}
    (hrising : l.Pairwise fun p q => p.1.sfn < q.1.sfn)
    (hbefore : ∀ a ∈ s.elems, ∀ p ∈ l, a.sfn < p.1.sfn) :
    (l.foldl (fun s p => s.emplace (slotAllocOf dst lc choice s.elems.length p)) s).elems =
      s.elems ++ l.mapIdx fun i p => slotAllocOf dst lc choice (s.elems.length + i) p := by
  induction l generalizing s with
  | nil => simp
  | cons p l ih =>
    obtain ⟨hhead, htail⟩ := List.pairwise_cons.mp hrising
    have hnew : (s.emplace (slotAllocOf dst lc choice s.elems.length p)).elems =
        s.elems ++ [slotAllocOf dst lc choice s.elems.length p] :=
      insertByKey_eq_append fun a ha => hbefore a ha p List.mem_cons_self
    have hafter : ∀ a ∈ (s.emplace (slotAllocOf dst lc choice s.elems.length p)).elems,
        ∀ q ∈ l, a.sfn < q.1.sfn := by
      intro a ha q hq
      rw [hnew] at ha
      rcases List.mem_append.mp ha with ha | ha
      · exact hbefore a ha q (List.mem_cons_of_mem p hq)
      · rw [List.mem_singleton.mp ha]
        exact hhead q hq
    rw [List.foldl_cons, ih htail hafter, hnew, List.mapIdx_cons, List.append_assoc]
    simp only [List.singleton_append, List.length_append, List.length_singleton, Nat.add_zero]
    simp only [Nat.add_assoc, Nat.add_comm 1]

theorem allocateSlots_of_rising (h : choice.slots.Pairwise fun p q => p.1.sfn < q.1.sfn) :
    (allocateSlots dst lc choice).elems = choice.slots.mapIdx (slotAllocOf dst lc choice) := by
  have hstart : ∀ a ∈ (KeyedSet.empty : SlotAllocSet).elems, ∀ p ∈ choice.slots,
      a.sfn < p.1.sfn := by simp
  refine (allocateSlots_foldl h hstart).trans ?_
  simp

theorem allocated_pairs_of_rising (h : choice.slots.Pairwise fun p q => p.1.sfn < q.1.sfn) :
    (allocateSlots dst lc choice).elems.map (fun a => (some a.sfn, a.slPsschSubChStart)) =
      choice.slots.map fun p => (some p.1.sfn, p.2) := by
  rw [allocateSlots_of_rising h]
  apply List.ext_getElem
  · simp
  · intro k hk _
    simp only [List.getElem_map, List.getElem_mapIdx]
    rfl

theorem fresh_of_rising (h : choice.slots.Pairwise fun p q => p.1.sfn < q.1.sfn)
    (hsome : choice.slots ≠ []) : ∃ first rest, (allocateSlots dst lc choice).elems = first :: rest ∧
      first.ndi = 1 ∧ ∀ a ∈ rest, a.ndi ≠ 1 := by
  have helems : (allocateSlots dst lc choice).elems =
    choice.slots.mapIdx (slotAllocOf dst lc choice) := allocateSlots_of_rising h
  obtain ⟨p, slots, hslots⟩ := List.exists_cons_of_ne_nil hsome
  rw [hslots, List.mapIdx_cons] at helems
  refine ⟨_, _, helems, rfl, fun a ha => ?_⟩
  obtain ⟨k, hk, rfl⟩ := List.mem_mapIdx.mp ha
  have hlater : (slotAllocOf dst lc choice (k + 1) slots[k]).ndi = 0 := rfl
  rw [hlater]
  omega

/-- Slots of one layout that rise strictly are announced as often as there are. -/
theorem announced_of_rising {shape : SlotShape} (hreserve : 1 ≤ shape.slMaxNumPerReserve)
    (hshape : ∀ p ∈ choice.slots, p.1.shape = shape)
    (h : choice.slots.Pairwise fun p q => p.1.sfn < q.1.sfn) :
    (((allocateSlots dst lc choice).elems.filter (·.txSci1A)).map (·.slotNumInd)).sum =
      (allocateSlots dst lc choice).elems.length := by
  rw [allocateSlots_of_rising h, List.length_mapIdx]
  have hsilent : ∀ a ∈ choice.slots.mapIdx (slotAllocOf dst lc choice), a.txSci1A = false →
      a.slotNumInd = 0 := by
    intro a ha hno
    obtain ⟨k, hk, rfl⟩ := List.mem_mapIdx.mp ha
    have hmod : ¬k % choice.slots[k].1.shape.slMaxNumPerReserve = 0 := of_decide_eq_false hno
    exact if_neg hmod
  have hnumbers : (choice.slots.mapIdx (slotAllocOf dst lc choice)).map (·.slotNumInd) =
      (List.range choice.slots.length).map
        (announcedAt shape.slMaxNumPerReserve choice.slots.length) := by
    apply List.ext_getElem
    · simp
    · intro k hk _
      have hlt : k < choice.slots.length := by simpa using hk
      have hm := hshape choice.slots[k] (List.getElem_mem hlt)
      simp only [List.getElem_map, List.getElem_mapIdx, List.getElem_range]
      unfold announcedAt
      rw [← hm]
      rfl
  rw [sum_filter_of_zero _ _ _ hsilent, hnumbers]
  exact announced_all choice.slots.length hreserve

end Rising

section Even

variable {totalSubCh totalTx : Nat} {txOpps l : List NrSlSlotInfo} {chosen : List (Nat × Nat)} {draws : Draws}

theorem exists_chosenSlots (hoffsets : ∀ p ∈ chosen, p.1 < txOpps.length) :
    ∃ l, List.Forall₂ (fun p it => txOpps[p.1]? = some it) chosen l := by
  induction chosen with
  | nil => exact ⟨[], .nil⟩
  | cons p chosen ih =>
    obtain ⟨l, hl⟩ := ih fun q hq => hoffsets q (List.mem_cons_of_mem p hq)
    have hp := hoffsets p List.mem_cons_self
    exact ⟨txOpps[p.1] :: l, .cons (List.getElem?_eq_getElem hp) hl⟩

theorem chosenSlots_offered (hl : List.Forall₂ (fun p it => txOpps[p.1]? = some it) chosen l) :
    ∀ it ∈ l, it ∈ txOpps := by
  have hoffsets : List.Forall₂ (fun slot it => txOpps[slot]? = some it) (chosen.map Prod.fst) l :=
    List.forall₂_map_left_iff.mpr hl
  exact mem_of_forall₂_getElem? hoffsets

theorem chosenSlots_length (hl : List.Forall₂ (fun p it => txOpps[p.1]? = some it) chosen l) :
    l.length = (chosen.map Prod.snd).length := by
  rw [List.length_map, hl.length_eq]

theorem overwriteSlots_even (heven : totalTx % 2 = 0) (hmany : totalTx < txOpps.length)
    (hcount : chosen.length = totalTx)
    (hl : List.Forall₂ (fun p it => txOpps[p.1]? = some it) chosen l) :
    overwriteSlots totalSubCh totalTx chosen draws txOpps =
      .ok (l, chosen.map Prod.snd, draws) := by
  have hwalk : walkChosen txOpps totalTx (chosen.map Prod.fst) = .ok l := by
    refine walkChosen_ok_iff.mpr ⟨by rw [List.length_map, hcount], ?_⟩
    rw [List.take_of_length_le (by rw [List.length_map, hcount]), List.forall₂_map_left_iff]
    exact hl
  unfold overwriteSlots
  rw [if_pos hmany, if_pos heven]
  exact bind_of_ok hwalk

theorem zip_chosen (hl : List.Forall₂ (fun p it => txOpps[p.1]? = some it) chosen l) :
    (l.zip (chosen.map Prod.snd)).map (fun p => (some p.1.sfn, p.2)) =
      chosen.map fun p => (txOpps[p.1]?.map (·.sfn), p.2) := by
  induction hl with
  | nil => rfl
  | cons hp _ ih =>
    simp only [List.map_cons, List.zip_cons_cons, ih, hp, Option.map_some]

theorem zip_chosen_nodup (hl : List.Forall₂ (fun p it => txOpps[p.1]? = some it) chosen l)
    (hdistinct : (chosen.map fun p => txOpps[p.1]?.map (·.sfn)).Nodup) :
    ((l.zip (chosen.map Prod.snd)).map fun p => p.1.sfn).Nodup := by
  have hslots : (l.zip (chosen.map Prod.snd)).map (fun p => some p.1.sfn) =
      chosen.map fun p => txOpps[p.1]?.map (·.sfn) := by
    have hfst := congrArg (List.map Prod.fst) (zip_chosen hl)
    rw [List.map_map, List.map_map] at hfst
    exact hfst
  rw [← hslots, List.Nodup, List.pairwise_map] at hdistinct
  rw [List.Nodup, List.pairwise_map]
  exact hdistinct.imp fun hne heq => hne (congrArg some heq)

theorem sortPairs_rising {pairs : List (NrSlSlotInfo × Nat)}
    (h : (pairs.map fun p => p.1.sfn).Nodup) :
    (sortPairs pairs).Pairwise fun p q => p.1.sfn < q.1.sfn := by
  have hperm : (sortPairs pairs).Perm pairs := List.perm_insertionSort _ pairs
  apply rising_of_nodup ((sortPairs_sorted pairs).imp pairBefore.sfn_le)
  exact (hperm.map _).nodup_iff.mpr h

end Even

section Kept

variable {cfg : SchedulerConfig} {dst : SchedulerDstInfo} {lc : SchedulerLc} {totalTx : Nat}
  {txOpps l : List NrSlSlotInfo} {chosen : List (Nat × Nat)} {draws : Draws} {choice : Choice}

/-- An allocation for every chosen pair leaves no two of them in one slot. -/
theorem KeepsChosen.nodup {A : SlotAllocSet} (h : KeepsChosen totalTx txOpps chosen A) :
    (chosen.map fun p => txOpps[p.1]?.map (·.sfn)).Nodup := by
  have hslots : (A.elems.map fun a => some a.sfn).Perm
      (chosen.map fun p => txOpps[p.1]?.map (·.sfn)) := by
    have hfst := h.kept.map Prod.fst
    rw [List.map_map, List.map_map] at hfst
    exact hfst
  apply hslots.nodup_iff.mp
  apply List.pairwise_map.mpr
  refine A.sorted.imp fun {a b} hab heq => ?_
  have := Option.some.inj heq
  omega

theorem keepsChosen_of_nodup {shape : SlotShape} (hreserve : 1 ≤ shape.slMaxNumPerReserve)
    (hshape : ∀ it ∈ txOpps, it.shape = shape) (hcount : chosen.length = totalTx)
    (hsome : chosen ≠ []) (hl : List.Forall₂ (fun p it => txOpps[p.1]? = some it) chosen l)
    (hslots : choice.slots = sortPairs (l.zip (chosen.map Prod.snd)))
    (hdistinct : (chosen.map fun p => txOpps[p.1]?.map (·.sfn)).Nodup) :
    KeepsChosen totalTx txOpps chosen (allocateSlots dst lc choice) := by
  have hperm : choice.slots.Perm (l.zip (chosen.map Prod.snd)) := by
    rw [hslots]
    exact List.perm_insertionSort _ _
  have hrising : choice.slots.Pairwise fun p q => p.1.sfn < q.1.sfn := by
    rw [hslots]
    exact sortPairs_rising (zip_chosen_nodup hl hdistinct)
  have hlayout : ∀ p ∈ choice.slots, p.1.shape = shape := by
    intro p hp
    have hin := (List.of_mem_zip (hperm.mem_iff.mp hp)).1
    exact hshape p.1 (chosenSlots_offered hl p.1 hin)
  have hlen : choice.slots.length = totalTx := by
    rw [hperm.length_eq, List.length_zip, List.length_map, ← hl.length_eq, hcount, Nat.min_self]
  have hne : choice.slots ≠ [] := by
    intro hnil
    rw [hnil, List.length_nil] at hlen
    exact hsome (List.length_eq_zero_iff.mp (hcount.trans hlen.symm))
  refine ⟨?_, ?_, fresh_of_rising hrising hne, announced_of_rising hreserve hlayout hrising⟩
  · rw [allocateSlots_of_rising hrising, List.length_mapIdx, hlen]
  · rw [allocated_pairs_of_rising hrising, ← zip_chosen hl]
    exact hperm.map _

variable {shape : SlotShape} {W : Type} {getResourceSelections : W → Except Fault (Text × W)}
  {w w' : W}

theorem instructed_even
    (h : Instructed cfg getResourceSelections dst lc totalTx chosen w w')
    (heven : totalTx % 2 = 0) (hsome : 2 ≤ totalTx) (hcount : chosen.length = totalTx)
    (hoffsets : ∀ p ∈ chosen, p.1 < txOpps.length) (hmany : totalTx < txOpps.length)
    (hsubCh : 0 < cfg.totalSubCh) (draws : Draws) :
    ∃ l choice, List.Forall₂ (fun p it => txOpps[p.1]? = some it) chosen l ∧
      choice.slots = sortPairs (l.zip (chosen.map Prod.snd)) ∧
      doNrSlAllocation cfg getResourceSelections txOpps dst draws w =
        .ok ⟨some (allocateSlots dst lc choice), dst.assignedData choice.tbs, draws, w'⟩ := by
  obtain ⟨l, hl⟩ := exists_chosenSlots hoffsets
  have hslots : overwriteSlots cfg.totalSubCh totalTx chosen draws txOpps =
      .ok (l, chosen.map Prod.snd, draws) := overwriteSlots_even heven hmany hcount hl
  have hlen := chosenSlots_length hl
  have hne : (sortPairs (l.zip (chosen.map Prod.snd))).map Prod.fst ≠ [] := by
    intro hnil
    have hzero := congrArg List.length hnil
    rw [List.length_map, sortPairs, List.length_insertionSort, List.length_zip, ← hlen,
      Nat.min_self, ← hl.length_eq, hcount, List.length_nil] at hzero
    omega
  obtain ⟨info, size, hsize⟩ : ∃ info size, sizeOfSelected cfg dst lc.totalQueueSize
      ((sortPairs (l.zip (chosen.map Prod.snd))).map Prod.fst) = .ok (info, size) :=
    sizeOfSelected_exists hne hsubCh
  have hchoice := (overwriteResources_of_slots hslots hlen.le).trans (bind_of_ok hsize)
  have hoffer : txOpps ≠ [] := by
    rintro rfl
    simp at hmany
  have hrun := h.doNrSlAllocation_eq hoffer draws
  rw [bind_of_ok hchoice] at hrun
  exact ⟨l, _, hl, rfl, hrun⟩

/-- Every chosen resource is kept exactly when the chosen offsets name different slots. -/
theorem keepsChosen_iff_distinctSlots
    (h : Instructed cfg getResourceSelections dst lc totalTx chosen w w')
    (heven : totalTx % 2 = 0) (hsome : 2 ≤ totalTx) (hcount : chosen.length = totalTx)
    (hoffsets : ∀ p ∈ chosen, p.1 < txOpps.length) (hmany : totalTx < txOpps.length)
    (hsubCh : 0 < cfg.totalSubCh) (hshape : ∀ it ∈ txOpps, it.shape = shape)
    (hreserve : 1 ≤ shape.slMaxNumPerReserve) (draws : Draws) :
    ∃ r A, doNrSlAllocation cfg getResourceSelections txOpps dst draws w = .ok r ∧
      r.slotAllocList = some A ∧ (KeepsChosen totalTx txOpps chosen A ↔
        (chosen.map fun p => txOpps[p.1]?.map (·.sfn)).Nodup) := by
  obtain ⟨l, choice, hl, hslots, hrun⟩ :=
    instructed_even h heven hsome hcount hoffsets hmany hsubCh draws
  have hchosen : chosen ≠ [] := by
    rintro rfl
    rw [List.length_nil] at hcount
    omega
  exact ⟨_, _, hrun, rfl, KeepsChosen.nodup,
    keepsChosen_of_nodup hreserve hshape hcount hchosen hl hslots⟩

end Kept

section TwoChosen

def overwriteSched : SchedulerConfig where
  assertsEnabled := true
  totalSubCh := 2
  slMaxTxTransNumPssch := 2
  fixedNrSlMcs := true
  oReExp := true
  calculateTbSize := fun _ nprb => nprb

def overwriteLc : SchedulerLc := ⟨4, 1, 100, 0, 0⟩

def overwriteDst : SchedulerDstInfo := ⟨255, 14, [⟨[overwriteLc], 100⟩]⟩

def overwriteShape : SlotShape := { slPsschSymLength := 9, slSubchannelSize := 10, slMaxNumPerReserve := 3 }

/-- Free slots of the pool with two subchannels. -/
def overwriteOffer (sfns : List Nat) : List NrSlSlotInfo :=
  sfns.map fun sfn => ⟨overwriteShape, sfn, ∅⟩

def instruct (text : String) : Unit → Except Fault (Text × Unit) := fun _ => .ok (text.toList, ())

theorem instructed_text {text : String} {totalTx : Nat} {chosen : List (Nat × Nat)}
    (hread : readInstruction text.toList = .ok (.overwrite totalTx chosen)) :
    Instructed overwriteSched (instruct text) overwriteDst overwriteLc totalTx chosen () () where
  oReExp := rfl
  mcsFixed := fun _ => rfl
  soleLc := rfl
  data := by decide
  answer := ⟨text.toList, rfl, hread⟩

theorem overwriteOffer_shape (sfns : List Nat) :
    ∀ it ∈ overwriteOffer sfns, it.shape = overwriteShape := by
  intro it hit
  obtain ⟨sfn, _, rfl⟩ := List.mem_map.mp hit
  rfl

/-- Two chosen slots are kept. -/
theorem keepsChosen_twoSlots : ∃ r A,
    doNrSlAllocation overwriteSched (instruct "12000011") (overwriteOffer [4, 5, 6]) overwriteDst
      [] () = .ok r ∧ r.slotAllocList = some A ∧
      (KeepsChosen 2 (overwriteOffer [4, 5, 6]) [(0, 0), (1, 1)] A ↔
        ([(0, 0), (1, 1)].map fun p => (overwriteOffer [4, 5, 6])[p.1]?.map (·.sfn)).Nodup) :=
  keepsChosen_iff_distinctSlots (instructed_text (by decide +kernel)) (by decide) (by decide)
    (by decide) (by decide) (by decide) (by decide) (overwriteOffer_shape _) (by decide) []

/-- Of two resources in one slot, chosen from the left and from the right, one is lost. -/
theorem keepsChosen_fails_oneSlot : ∃ r A,
    doNrSlAllocation overwriteSched (instruct "12000001") (overwriteOffer [4, 5, 6]) overwriteDst
      [] () = .ok r ∧ r.slotAllocList = some A ∧
      ¬KeepsChosen 2 (overwriteOffer [4, 5, 6]) [(0, 0), (0, 1)] A := by
  obtain ⟨l, choice, _, _, hrun⟩ := instructed_even
    (instructed_text (show readInstruction "12000001".toList = .ok (.overwrite 2 [(0, 0), (0, 1)])
      by decide +kernel))
    (by decide) (by decide) (by decide)
    (show ∀ p ∈ [(0, 0), (0, 1)], p.1 < (overwriteOffer [4, 5, 6]).length by decide)
    (by decide) (by decide) []
  refine ⟨_, _, hrun, rfl, fun hkeeps => ?_⟩
  exact absurd hkeeps.nodup (by decide)

end TwoChosen

end SidelinkORe
