import SidelinkORe.Scheduler

namespace SidelinkORe

section Instructions

theorem splitSign_short {s : Text} (h : s.length ≤ 1) :
    splitSign s = (false, s) ∨ (splitSign s).2 = [] := by
  unfold splitSign
  split
  next rest => exact Or.inr (by simpa using h)
  next rest => exact Or.inr (by simpa using h)
  next => exact Or.inl rfl

theorem stoi_char {c : Char} {v : Int} (h : stoi [c] = .ok v) : castU8 v < 10 := by
  have hdrop : ([c].dropWhile Char.isWhitespace).length ≤ 1 := (List.dropWhile_suffix _).length_le
  unfold stoi at h
  dsimp only at h
  generalize [c].dropWhile Char.isWhitespace = s at h hdrop
  rcases splitSign_short hdrop with hsign | hsign
  · rw [hsign] at h
    dsimp only at h
    match s, hdrop with
    | [], _ => simp at h
    | [d], _ =>
      by_cases hd : d.isDigit = true
      · have hle : d.toNat ≤ 57 := by
          simp only [Char.isDigit, Bool.and_eq_true, decide_eq_true_eq] at hd
          exact hd.2
        have hvalue : signed (false, [d]) = (d.toNat - 48 : Nat) := by
          simp [signed, Nat.ofDigitChars]
        rw [List.takeWhile_cons_of_pos hd, List.takeWhile_nil, if_neg (List.cons_ne_nil d []),
          hvalue] at h
        obtain rfl := Except.ok.inj h
        rw [castU8_of_lt (by omega)]
        omega
      · rw [List.takeWhile_cons_of_neg hd] at h
        simp at h
  · rw [hsign] at h
    simp at h

theorem readChosen_digits {s : Text} {chosen : List (Nat × Nat)} (h : readChosen s = .ok chosen) :
    ∀ p ∈ chosen, p.2 < 10 := by
  induction s using readChosen.induct generalizing chosen with
  | case1 =>
    cases h
    simp
  | case2 a b c rest ih =>
    unfold readChosen at h
    obtain ⟨slot, _, h⟩ := bind_ok_iff.mp h
    obtain ⟨subChannel, hsub, h⟩ := bind_ok_iff.mp h
    obtain ⟨more, hmore, h⟩ := bind_ok_iff.mp h
    obtain rfl := pure_ok_iff.mp h
    intro p hp
    rcases List.mem_cons.mp hp with rfl | hp
    · exact stoi_char hsub
    · exact ih hmore p hp
  | case3 s hnil hcons =>
    unfold readChosen at h
    split at h
    next => exact absurd rfl hnil
    next a b c rest => exact absurd rfl (hcons a b c rest)
    next => cases h

theorem readInstruction_digits {s : Text} {totalTx : Nat} {chosen : List (Nat × Nat)}
    (h : readInstruction s = .ok (.overwrite totalTx chosen)) : ∀ p ∈ chosen, p.2 < 10 := by
  obtain ⟨mode, _, h⟩ := bind_ok_iff.mp h
  split at h
  next =>
    obtain ⟨total, _, h⟩ := bind_ok_iff.mp h
    obtain ⟨read, hread, h⟩ := bind_ok_iff.mp h
    have heq := pure_ok_iff.mp h
    cases heq
    exact readChosen_digits hread
  next =>
    obtain ⟨nSe, _, h⟩ := bind_ok_iff.mp h
    have heq := pure_ok_iff.mp h
    cases heq

end Instructions

section Branches

variable {cfg : SchedulerConfig} {dst : SchedulerDstInfo} {txOpps : List NrSlSlotInfo}

theorem walkChosen_ok_iff {n : Nat} {chosenSlots : List Nat} {l : List NrSlSlotInfo} :
    walkChosen txOpps n chosenSlots = .ok l ↔ n ≤ chosenSlots.length ∧
      List.Forall₂ (fun slot it => txOpps[slot]? = some it) (chosenSlots.take n) l := by
  induction n generalizing chosenSlots l with
  | zero =>
    simp only [walkChosen, Nat.zero_le, List.take_zero, true_and, List.forall₂_nil_left_iff]
    constructor
    · intro h
      exact (Except.ok.inj h).symm
    · intro h
      rw [h]
  | succ n ih =>
    cases chosenSlots with
    | nil =>
      constructor
      · intro h
        cases h
      · intro h
        exact absurd h.1 (by simp)
    | cons slot chosenSlots =>
      unfold walkChosen
      simp only [bind_ok_iff, orFault_ok_iff, pure_ok_iff, ih, List.take_succ_cons,
        List.forall₂_cons_left_iff, List.length_cons, Nat.add_le_add_iff_right]
      constructor
      · rintro ⟨it, hit, l', ⟨hlen, hl'⟩, rfl⟩
        exact ⟨hlen, it, l', hit, hl', rfl⟩
      · rintro ⟨hlen, it, l', hit, hl', rfl⟩
        exact ⟨it, hit, l', ⟨hlen, hl'⟩, rfl⟩

theorem mem_of_forall₂_getElem? {slots : List Nat} {l : List NrSlSlotInfo}
    (h : List.Forall₂ (fun slot it => txOpps[slot]? = some it) slots l) : ∀ it ∈ l, it ∈ txOpps := by
  induction h with
  | nil => simp
  | cons hslot _ ih =>
    intro it hit
    rcases List.mem_cons.mp hit with rfl | hit
    · exact List.mem_of_getElem? hslot
    · exact ih it hit

theorem drawFreeSlot_ok {totalSubCh totalTx : Nat} {draws rest : Draws} {it : NrSlSlotInfo}
    (h : drawFreeSlot totalSubCh totalTx txOpps draws = .ok (it, rest)) : it ∈ txOpps := by
  induction draws with
  | nil => cases h
  | cons draw draws ih =>
    obtain ⟨drawn, hdrawn, h⟩ := bind_ok_iff.mp h
    split at h
    next =>
      obtain ⟨rfl, -⟩ := Prod.mk.inj (pure_ok_iff.mp h)
      exact List.mem_of_getElem? (orFault_ok_iff.mp hdrawn)
    next => exact ih h

theorem drawFreeSbCh_ok {totalSubCh c : Nat} {draws rest : Draws} {it : NrSlSlotInfo}
    (h : drawFreeSbCh totalSubCh it draws = .ok (c, rest)) : c ≤ totalSubCh - 1 := by
  induction draws with
  | nil => cases h
  | cons draw draws ih =>
    unfold drawFreeSbCh at h
    dsimp only at h
    split at h
    next => exact ih h
    next =>
      obtain ⟨rfl, -⟩ := Prod.mk.inj (Except.ok.inj h)
      exact (Nat.mod_le _ _).trans (getInteger_bounds 0 _ draw (Nat.zero_le _)).2

theorem walkOrDraw_ok {totalSubCh totalTx n : Nat} {chosenSlots extra : List Nat}
    {draws rest : Draws} {l : List NrSlSlotInfo}
    (h : walkOrDraw totalSubCh totalTx txOpps n chosenSlots draws = .ok (l, extra, rest)) :
    (∀ it ∈ l, it ∈ txOpps) ∧ ∀ c ∈ extra, c ≤ totalSubCh - 1 := by
  induction n generalizing chosenSlots draws l extra rest with
  | zero =>
    cases h
    exact ⟨by simp, by simp⟩
  | succ n ih =>
    cases chosenSlots with
    | cons slot chosenSlots =>
      obtain ⟨it, hit, h⟩ := bind_ok_iff.mp h
      obtain ⟨⟨l', extra', rest'⟩, hl', h⟩ := bind_ok_iff.mp h
      cases pure_ok_iff.mp h
      obtain ⟨hmem, hextra⟩ := ih hl'
      refine ⟨fun x hx => ?_, hextra⟩
      rcases List.mem_cons.mp hx with rfl | hx
      · exact List.mem_of_getElem? (orFault_ok_iff.mp hit)
      · exact hmem x hx
    | nil =>
      obtain ⟨⟨it, draws₁⟩, hit, h⟩ := bind_ok_iff.mp h
      obtain ⟨⟨c, draws₂⟩, hc, h⟩ := bind_ok_iff.mp h
      obtain ⟨⟨l', extra', rest'⟩, hl', h⟩ := bind_ok_iff.mp h
      cases pure_ok_iff.mp h
      obtain ⟨hmem, hextra⟩ := ih hl'
      refine ⟨fun x hx => ?_, fun x hx => ?_⟩
      · rcases List.mem_cons.mp hx with rfl | hx
        · exact drawFreeSlot_ok hit
        · exact hmem x hx
      · rcases List.mem_cons.mp hx with rfl | hx
        · exact drawFreeSbCh_ok hc
        · exact hextra x hx

theorem walkOrDraw_ok_iff {totalSubCh totalTx : Nat} {chosenSlots : List Nat} {draws : Draws}
    {out : List NrSlSlotInfo × List Nat × Draws} :
    walkOrDraw totalSubCh totalTx txOpps (chosenSlots.length + 1) chosenSlots draws = .ok out ↔
      ∃ l it draws₁ c rest, List.Forall₂ (fun slot it => txOpps[slot]? = some it) chosenSlots l ∧
        drawFreeSlot totalSubCh totalTx txOpps draws = .ok (it, draws₁) ∧
        drawFreeSbCh totalSubCh it draws₁ = .ok (c, rest) ∧ out = (l ++ [it], [c], rest) := by
  induction chosenSlots generalizing out with
  | nil =>
    simp only [List.length_nil, walkOrDraw, bind_ok_iff, List.forall₂_nil_left_iff, Prod.exists]
    constructor
    · rintro ⟨it, draws₁, hit, c, rest, hc, l, extra, rest', hl, hout⟩
      cases hl
      exact ⟨[], it, draws₁, c, rest, rfl, hit, hc, (pure_ok_iff.mp hout).symm⟩
    · rintro ⟨l, it, draws₁, c, rest, rfl, hit, hc, rfl⟩
      exact ⟨it, draws₁, hit, c, rest, hc, [], [], rest, rfl, rfl⟩
  | cons slot chosenSlots ih =>
    simp only [List.length_cons, walkOrDraw, bind_ok_iff, orFault_ok_iff,
      List.forall₂_cons_left_iff, ih, Prod.exists]
    constructor
    · rintro ⟨it, hit, _, _, _, ⟨l, e, draws₁, c, rest, hl, he, hc, heq⟩, hout⟩
      cases heq
      exact ⟨it :: l, e, draws₁, c, _, ⟨it, l, hit, hl, rfl⟩, he, hc,
        (pure_ok_iff.mp hout).symm⟩
    · rintro ⟨_, e, draws₁, c, rest, ⟨it, l, hit, hl, rfl⟩, he, hc, rfl⟩
      exact ⟨it, hit, _, _, _, ⟨l, e, draws₁, c, rest, hl, he, hc, rfl⟩, rfl⟩

theorem pairSubChannels_ok_iff {l : List NrSlSlotInfo} {cs : List Nat}
    {pairs : List (NrSlSlotInfo × Nat)} :
    pairSubChannels l cs = .ok pairs ↔ l.length ≤ cs.length ∧ pairs = l.zip cs := by
  induction l generalizing cs pairs with
  | nil =>
    simp only [pairSubChannels, List.length_nil, Nat.zero_le, List.zip_nil_left, true_and]
    constructor
    · intro h
      exact (Except.ok.inj h).symm
    · intro h
      rw [h]
  | cons it l ih =>
    cases cs with
    | nil =>
      constructor
      · intro h
        cases h
      · intro h
        exact absurd h.1 (by simp)
    | cons c cs =>
      unfold pairSubChannels
      simp only [bind_ok_iff, pure_ok_iff, ih, List.length_cons, Nat.add_le_add_iff_right,
        List.zip_cons_cons]
      constructor
      · rintro ⟨pairs', ⟨hlen, rfl⟩, rfl⟩
        exact ⟨hlen, rfl⟩
      · rintro ⟨hlen, rfl⟩
        exact ⟨_, ⟨hlen, rfl⟩, rfl⟩

theorem mem_sortPairs {l : List (NrSlSlotInfo × Nat)} {p : NrSlSlotInfo × Nat} :
    p ∈ sortPairs l ↔ p ∈ l := (List.perm_insertionSort _ l).mem_iff

theorem sortPairs_sorted (l : List (NrSlSlotInfo × Nat)) : (sortPairs l).Pairwise pairBefore := by
  have : Std.Total pairBefore := ⟨fun a b => by
    unfold pairBefore
    omega⟩
  have : IsTrans (NrSlSlotInfo × Nat) pairBefore := ⟨fun a b c hab hbc => by
    unfold pairBefore at *
    omega⟩
  exact List.pairwise_insertionSort _ l

/-- What every branch of the scheduler settles on. -/
structure Choice.Sound (cfg : SchedulerConfig) (txOpps : List NrSlSlotInfo) (choice : Choice) :
    Prop where
  nonempty : choice.slots ≠ []
  drawn : ∀ p ∈ choice.slots, p.1 ∈ txOpps
  sorted : choice.slots.Pairwise fun p q => p.1.sfn ≤ q.1.sfn
  subChannel : ∀ p ∈ choice.slots, p.2 < max 10 cfg.totalSubCh
  size_pos : 1 ≤ choice.assignedSbCh
  size_le : choice.assignedSbCh ≤ cfg.totalSubCh

theorem sizeOfSelected_ok {bufferSize : Nat} {selected : List NrSlSlotInfo} {info : SbChInfo}
    {choice : Choice} (h : sizeOfSelected cfg dst bufferSize selected = .ok (info, choice)) :
    selected ≠ [] ∧ getAvailSbChInfo cfg.totalSubCh selected = .ok info ∧
      1 ≤ choice.assignedSbCh ∧ choice.assignedSbCh ≤ cfg.totalSubCh := by
  obtain ⟨first, hfirst, h⟩ := bind_ok_iff.mp h
  obtain ⟨info', hinfo, h⟩ := bind_ok_iff.mp h
  obtain ⟨rfl, rfl⟩ := Prod.mk.inj (pure_ok_iff.mp h)
  have hne : selected ≠ [] := by
    rintro rfl
    simp at hfirst
  obtain ⟨_, hle, hpos⟩ := getAvailSbChInfo_ok hinfo
  have hbounds := sizeAllocation_bounds
    (fun n => cfg.calculateTbSize dst.dstMcs
      (first.shape.slSubchannelSize * n * first.shape.slPsschSymLength))
    ((bufferSize + 5) % 2 ^ 32) (info'.numSubCh - 1) 1
  have hsome := hpos hne
  refine ⟨hne, hinfo, hbounds.1, ?_⟩
  have := hbounds.2
  dsimp only
  omega

theorem sizeOfSelected_exists {bufferSize : Nat} {selected : List NrSlSlotInfo}
    (hne : selected ≠ []) (hpos : 0 < cfg.totalSubCh) :
    ∃ info choice, sizeOfSelected cfg dst bufferSize selected = .ok (info, choice) := by
  obtain ⟨first, hfirst⟩ := Option.isSome_iff_exists.mp (List.isSome_head?.mpr hne)
  have havail : ∃ info, getAvailSbChInfo cfg.totalSubCh selected = .ok info :=
    getAvailSbChInfo_of_pos hpos
  obtain ⟨info, hinfo⟩ := havail
  exact ⟨_, _, bind_ok_iff.mpr ⟨first, orFault_ok_iff.mpr hfirst, bind_ok_iff.mpr ⟨info, hinfo, rfl⟩⟩⟩

theorem drawResources_sound {bufferSize totalTx : Nat} {draws rest : Draws} {choice : Choice}
    (h : drawResources cfg dst bufferSize txOpps totalTx draws = .ok (choice, rest)) :
    choice.Sound cfg txOpps := by
  obtain ⟨⟨selected, draws₁⟩, hselect, h⟩ := bind_ok_iff.mp h
  obtain ⟨⟨info, size⟩, hsize, h⟩ := bind_ok_iff.mp h
  obtain ⟨⟨starts, draws₂⟩, hstarts, h⟩ := bind_ok_iff.mp h
  obtain ⟨rfl, -⟩ := Prod.mk.inj (pure_ok_iff.mp h)
  obtain ⟨hmem, hsorted, _⟩ := randomlySelectSlots_ok hselect
  obtain ⟨hne, hinfo, hsizePos, hsizeLe⟩ := sizeOfSelected_ok hsize
  obtain ⟨hlen, hlt⟩ := randSelSbChStart_ok hinfo hne hstarts
  have hfst : (selected.zip starts).map Prod.fst = selected := List.map_fst_zip hlen.ge
  refine ⟨fun hnil => hne ?_, fun p hp => ?_, ?_, fun p hp => ?_, hsizePos, hsizeLe⟩
  · rw [← hfst]
    exact congrArg (List.map Prod.fst) hnil
  · exact hmem _ (List.of_mem_zip hp).1
  · rw [← hfst, List.pairwise_map] at hsorted
    exact hsorted
  · have := hlt _ (List.of_mem_zip hp).2
    omega

theorem overwriteResources_sound {bufferSize totalTx : Nat} {chosen : List (Nat × Nat)}
    {draws rest : Draws} {choice : Choice} (hchosen : ∀ p ∈ chosen, p.2 < 10)
    (h : overwriteResources cfg dst bufferSize txOpps totalTx chosen draws = .ok (choice, rest)) :
    choice.Sound cfg txOpps := by
  obtain ⟨⟨newTxOpps, cs, draws₁⟩, hslots, h⟩ := bind_ok_iff.mp h
  obtain ⟨pairs, hpairs, h⟩ := bind_ok_iff.mp h
  obtain ⟨⟨info, size⟩, hsize, h⟩ := bind_ok_iff.mp h
  obtain ⟨rfl, -⟩ := Prod.mk.inj (pure_ok_iff.mp h)
  obtain ⟨hne, hinfo, hsizePos, hsizeLe⟩ := sizeOfSelected_ok hsize
  obtain ⟨_, rfl⟩ := pairSubChannels_ok_iff.mp hpairs
  have hpos := (getAvailSbChInfo_ok hinfo).2.2 hne
  have hsub : ∀ c ∈ chosen.map Prod.snd, c < 10 := by
    intro c hc
    obtain ⟨p, hp, rfl⟩ := List.mem_map.mp hc
    exact hchosen p hp
  have hnew : (∀ it ∈ newTxOpps, it ∈ txOpps) ∧ ∀ c ∈ cs, c < max 10 cfg.totalSubCh := by
    unfold overwriteSlots at hslots
    split at hslots
    next =>
      split at hslots
      next =>
        obtain ⟨l, hl, hslots⟩ := bind_ok_iff.mp hslots
        cases pure_ok_iff.mp hslots
        refine ⟨mem_of_forall₂_getElem? (walkChosen_ok_iff.mp hl).2, fun c hc => ?_⟩
        have := hsub c hc
        omega
      next =>
        obtain ⟨⟨l, extra, rest'⟩, hl, hslots⟩ := bind_ok_iff.mp hslots
        cases pure_ok_iff.mp hslots
        obtain ⟨hmem, hextra⟩ := walkOrDraw_ok hl
        refine ⟨hmem, fun c hc => ?_⟩
        rcases List.mem_append.mp hc with hc | hc
        · have := hsub c hc
          omega
        · have := hextra c hc
          omega
    next =>
      cases pure_ok_iff.mp hslots
      refine ⟨fun it hit => hit, fun c hc => ?_⟩
      have := hsub c hc
      omega
  refine ⟨fun hnil => hne ?_, fun p hp => ?_, ?_, fun p hp => ?_, hsizePos, hsizeLe⟩
  · exact congrArg (List.map Prod.fst) hnil
  · exact hnew.1 _ (List.of_mem_zip (mem_sortPairs.mp hp)).1
  · exact (sortPairs_sorted _).imp pairBefore.sfn_le
  · exact hnew.2 _ (List.of_mem_zip (mem_sortPairs.mp hp)).2

variable {W : Type} {getResourceSelections : W → Except Fault (Text × W)}

theorem chooseResources_sound {bufferSize : Nat} {draws rest : Draws} {w w' : W} {choice : Choice}
    (h : chooseResources cfg getResourceSelections dst bufferSize txOpps draws w =
      .ok (choice, rest, w')) : choice.Sound cfg txOpps := by
  unfold chooseResources at h
  split at h
  next =>
    obtain ⟨⟨text, w₁⟩, _, h⟩ := bind_ok_iff.mp h
    obtain ⟨instruction, hread, h⟩ := bind_ok_iff.mp h
    obtain ⟨⟨choice', rest'⟩, hfollow, h⟩ := bind_ok_iff.mp h
    cases pure_ok_iff.mp h
    cases instruction with
    | overwrite totalTx chosen =>
      exact overwriteResources_sound (readInstruction_digits hread) hfollow
    | draw nSe => exact drawResources_sound hfollow
  next =>
    obtain ⟨⟨choice', rest'⟩, hdraw, h⟩ := bind_ok_iff.mp h
    cases pure_ok_iff.mp h
    exact drawResources_sound hdraw

/-- The scheduler stays silent without data; else it allocates what a branch settled on. -/
theorem doNrSlAllocation_ok {draws : Draws} {w : W} {r : Scheduled W}
    (h : doNrSlAllocation cfg getResourceSelections txOpps dst draws w = .ok r) :
    ∃ lc, soleLogicalChannel cfg dst = .ok lc ∧
      ((lc.totalQueueSize = 0 ∧ r = ⟨none, dst, draws, w⟩) ∨
       (lc.totalQueueSize ≠ 0 ∧ ∃ choice, choice.Sound cfg txOpps ∧
        chooseResources cfg getResourceSelections dst lc.totalQueueSize txOpps draws w =
          .ok (choice, r.draws, r.world) ∧
        r.slotAllocList = some (allocateSlots dst lc choice))) := by
  obtain ⟨_, _, h⟩ := bind_ok_iff.mp h
  obtain ⟨lc, hlc, h⟩ := bind_ok_iff.mp h
  refine ⟨lc, hlc, ?_⟩
  split at h
  next hempty => exact Or.inl ⟨hempty, (pure_ok_iff.mp h).symm⟩
  next hdata =>
    obtain ⟨_, _, h⟩ := bind_ok_iff.mp h
    obtain ⟨⟨choice, rest, w'⟩, hchoose, h⟩ := bind_ok_iff.mp h
    obtain rfl := pure_ok_iff.mp h
    exact Or.inr ⟨hdata, choice, chooseResources_sound hchoose, hchoose, rfl⟩

theorem doNrSlAllocation_choice {draws : Draws} {w : W} {r : Scheduled W} {A : SlotAllocSet}
    (h : doNrSlAllocation cfg getResourceSelections txOpps dst draws w = .ok r)
    (hA : r.slotAllocList = some A) :
    ∃ lc choice, choice.Sound cfg txOpps ∧ A = allocateSlots dst lc choice := by
  obtain ⟨lc, _, ⟨_, rfl⟩ | ⟨_, choice, hsound, _, hset⟩⟩ := doNrSlAllocation_ok h
  · cases hA
  · exact ⟨lc, choice, hsound, Option.some.inj (hA.symm.trans hset)⟩

theorem Choice.Sound.allocated {choice : Choice} (h : choice.Sound cfg txOpps) (lc : SchedulerLc) :
    Allocated dst lc choice choice.slots (allocateSlots dst lc choice) :=
  allocateSlots_allocated h.sorted

/-- The allocations of a sound choice are an answer that the MAC accepts. -/
def Choice.Sound.answer {choice : Choice} (h : choice.Sound cfg txOpps) (lc : SchedulerLc) :
    Allocation dst.dstL2Id txOpps where
  slots := allocateSlots dst lc choice
  nonempty := by
    have hallocated : Allocated dst lc choice choice.slots _ := h.allocated lc
    obtain ⟨p, hp⟩ := List.exists_mem_of_ne_nil _ h.nonempty
    obtain ⟨a, ha, _⟩ := hallocated.present p hp
    exact List.ne_nil_of_mem ha
  dest := by
    intro a ha
    have hallocated : Allocated dst lc choice choice.slots _ := h.allocated lc
    obtain ⟨k, hk⟩ := List.mem_iff_getElem?.mp ha
    obtain ⟨p, _, rfl⟩ := hallocated.numbered k a hk
    rfl
  drawn := by
    intro a ha
    have hallocated : Allocated dst lc choice choice.slots _ := h.allocated lc
    obtain ⟨k, hk⟩ := List.mem_iff_getElem?.mp ha
    obtain ⟨p, hp, rfl⟩ := hallocated.numbered k a hk
    exact List.mem_map_of_mem (h.drawn p hp)

/-- The allocations that the scheduler returns, as an answer. -/
def allocationOf {draws : Draws} {w : W} {r : Scheduled W} {A : SlotAllocSet}
    (h : doNrSlAllocation cfg getResourceSelections txOpps dst draws w = .ok r)
    (hA : r.slotAllocList = some A) : Allocation dst.dstL2Id txOpps where
  slots := A
  nonempty := by
    obtain ⟨lc, choice, hsound, rfl⟩ := doNrSlAllocation_choice h hA
    exact (hsound.answer lc).nonempty
  dest := by
    obtain ⟨lc, choice, hsound, rfl⟩ := doNrSlAllocation_choice h hA
    exact (hsound.answer lc).dest
  drawn := by
    obtain ⟨lc, choice, hsound, rfl⟩ := doNrSlAllocation_choice h hA
    exact (hsound.answer lc).drawn

end Branches

section Instructed

variable {cfg : SchedulerConfig} {dst : SchedulerDstInfo} {lc : SchedulerLc} {bufferSize totalTx : Nat}
  {txOpps newTxOpps : List NrSlSlotInfo} {chosen : List (Nat × Nat)} {draws rest : Draws} {cs : List Nat}
  {W : Type} {getResourceSelections : W → Except Fault (Text × W)} {w w' : W}

/-- The scheduler has data to send, and its request for instructions is answered with resources to
overwrite. -/
structure Instructed (cfg : SchedulerConfig) (getResourceSelections : W → Except Fault (Text × W))
    (dst : SchedulerDstInfo) (lc : SchedulerLc) (totalTx : Nat) (chosen : List (Nat × Nat))
    (w w' : W) : Prop where
  oReExp : cfg.oReExp = true
  mcsFixed : cfg.assertsEnabled = true → cfg.fixedNrSlMcs = true
  soleLc : soleLogicalChannel cfg dst = .ok lc
  data : lc.totalQueueSize ≠ 0
  answer : ∃ text, getResourceSelections w = .ok (text, w') ∧
    readInstruction text = .ok (.overwrite totalTx chosen)

/-- Such a scheduler does what the overwriting branch does. -/
theorem Instructed.doNrSlAllocation_eq
    (h : Instructed cfg getResourceSelections dst lc totalTx chosen w w') (hne : txOpps ≠ [])
    (draws : Draws) :
    doNrSlAllocation cfg getResourceSelections txOpps dst draws w =
      (overwriteResources cfg dst lc.totalQueueSize txOpps totalTx chosen draws >>= fun p =>
        .ok ⟨some (allocateSlots dst lc p.1), dst.assignedData p.1.tbs, p.2, w'⟩) := by
  obtain ⟨text, htext, hread⟩ := h.answer
  have hchoose : chooseResources cfg getResourceSelections dst lc.totalQueueSize txOpps draws w =
      (overwriteResources cfg dst lc.totalQueueSize txOpps totalTx chosen draws >>= fun p =>
        .ok (p.1, p.2, w')) := by
    unfold chooseResources
    rw [if_pos h.oReExp]
    refine (bind_of_ok htext).trans ?_
    exact bind_of_ok hread
  have hoffer : require (cfg.assertsEnabled = true → txOpps ≠ []) Fault.emptyTxOpps = .ok () :=
    require_ok_iff.mpr fun _ => hne
  have hmcs : require (cfg.assertsEnabled = true → cfg.fixedNrSlMcs = true) Fault.mcsNotFixed =
    .ok () := require_ok_iff.mpr h.mcsFixed
  unfold doNrSlAllocation
  refine (bind_of_ok hoffer).trans ?_
  refine (bind_of_ok h.soleLc).trans ?_
  rw [if_neg h.data]
  refine (bind_of_ok hmcs).trans ?_
  rw [hchoose]
  cases overwriteResources cfg dst lc.totalQueueSize txOpps totalTx chosen draws with
  | error e => rfl
  | ok p => rfl

theorem overwriteResources_of_slots
    (hslots : overwriteSlots cfg.totalSubCh totalTx chosen draws txOpps =
      .ok (newTxOpps, cs, rest)) (hlen : newTxOpps.length ≤ cs.length) :
    overwriteResources cfg dst bufferSize txOpps totalTx chosen draws =
      (sizeOfSelected cfg dst bufferSize ((sortPairs (newTxOpps.zip cs)).map Prod.fst) >>= fun p =>
        .ok ({ p.2 with slots := sortPairs (newTxOpps.zip cs) }, rest)) := by
  unfold overwriteResources
  refine (bind_of_ok hslots).trans ?_
  exact bind_of_ok (pairSubChannels_ok_iff.mpr ⟨hlen, rfl⟩)

end Instructed

end SidelinkORe
