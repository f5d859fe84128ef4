import SidelinkORe.RisingList
import SidelinkORe.SlotSelection
import Mathlib.Data.List.Perm.Basic

namespace SidelinkORe

/-- Some subchannel of the slot is not occupied. -/
def HasFree (totalSubCh : Nat) (it : NrSlSlotInfo) : Prop := it.occupiedSbCh.card < totalSubCh

instance (totalSubCh : Nat) : DecidablePred (HasFree totalSubCh) := fun it =>
  inferInstanceAs (Decidable (it.occupiedSbCh.card < totalSubCh))

def numFree (totalSubCh : Nat) (txOpps : List NrSlSlotInfo) : Nat :=
  txOpps.countP fun it => HasFree totalSubCh it

section FreeSlots

variable {totalSubCh : Nat} {it : NrSlSlotInfo} {l l' : List NrSlSlotInfo}

theorem HasFree.exists_free (h : HasFree totalSubCh it) :
    ∃ c < totalSubCh, c ∉ it.occupiedSbCh := by
  by_contra hall
  have hsub : Finset.range totalSubCh ⊆ it.occupiedSbCh := by
    intro c hc
    by_contra hfree
    exact hall ⟨c, Finset.mem_range.mp hc, hfree⟩
  have hcard := Finset.card_le_card hsub
  rw [Finset.card_range] at hcard
  unfold HasFree at h
  omega

/-- A pool's subchannels are counted as free exactly when one of them is. -/
theorem hasFree_iff (h : ∀ c ∈ it.occupiedSbCh, c < totalSubCh) :
    HasFree totalSubCh it ↔ ∃ c < totalSubCh, c ∉ it.occupiedSbCh := by
  constructor
  · exact HasFree.exists_free
  · rintro ⟨c, hc, hfree⟩
    have hlt : it.occupiedSbCh ⊂ Finset.range totalSubCh := by
      refine Finset.ssubset_iff_subset_ne.mpr ⟨fun x hx => Finset.mem_range.mpr (h x hx), ?_⟩
      intro heq
      apply hfree
      rw [heq]
      exact Finset.mem_range.mpr hc
    have hcard := Finset.card_lt_card hlt
    rwa [Finset.card_range] at hcard

theorem numFree_le (totalSubCh : Nat) (l : List NrSlSlotInfo) : numFree totalSubCh l ≤ l.length :=
  List.countP_le_length

theorem numFree_perm (totalSubCh : Nat) (h : l.Perm l') :
    numFree totalSubCh l = numFree totalSubCh l' :=
  h.countP_eq _

theorem numFree_cons (totalSubCh : Nat) (it : NrSlSlotInfo) (l : List NrSlSlotInfo) :
    numFree totalSubCh (it :: l) = numFree totalSubCh l + if HasFree totalSubCh it then 1 else 0 := by
  unfold numFree
  rw [List.countP_cons]
  simp

theorem numFree_eq_length : numFree totalSubCh l = l.length ↔ ∀ it ∈ l, HasFree totalSubCh it := by
  unfold numFree
  rw [List.countP_eq_length]
  simp

theorem exists_hasFree (h : 0 < numFree totalSubCh l) : ∃ it ∈ l, HasFree totalSubCh it := by
  obtain ⟨it, hit, hfree⟩ := List.countP_pos_iff.mp h
  exact ⟨it, hit, by simpa using hfree⟩

theorem exists_full (h : numFree totalSubCh l < l.length) : ∃ it ∈ l, ¬HasFree totalSubCh it := by
  by_contra hall
  have hfree : ∀ it ∈ l, HasFree totalSubCh it := by
    intro it hit
    by_contra hfull
    exact hall ⟨it, hit, hfull⟩
  have heq := numFree_eq_length.mpr hfree
  omega

end FreeSlots

/-- What the selection is for: the wanted number of distinct offered slots in rising order, with a
slot that has nothing free only if free ones are too few. -/
structure SelectsUsable (totalSubCh totalTx : Nat) (txOpps selected : List NrSlSlotInfo) : Prop where
  sorted : selected.Pairwise fun a b => a.sfn < b.sfn
  offered : ∀ it ∈ selected, it ∈ txOpps
  count : selected.length = min totalTx txOpps.length
  usable : (∃ it ∈ selected, ¬HasFree totalSubCh it) → numFree totalSubCh txOpps < totalTx

/-- Whatever is drawn, one draw a slot is enough, and the selection is what it is for. -/
def PrefersUsable (totalSubCh totalTx : Nat) (txOpps : List NrSlSlotInfo) : Prop :=
  ∀ draws : Draws, txOpps.length ≤ draws.length → ∃ selected rest,
    randomlySelectSlots totalSubCh totalTx draws txOpps = .ok (selected, rest) ∧
      SelectsUsable totalSubCh totalTx txOpps selected

section Loop

variable {totalSubCh totalTx draw i : Nat} {draws : Draws} {it : NrSlSlotInfo}
  {txOpps newTxOpps : List NrSlSlotInfo}

theorem pickSlots_round (hmore : newTxOpps.length ≠ totalTx)
    (hi : getInteger 0 (txOpps.length - 1) draw = i) (hit : txOpps[i]? = some it) :
    pickSlots totalSubCh totalTx newTxOpps (draw :: draws) txOpps =
      if HasFree totalSubCh it ∨ txOpps.length ≤ totalTx then
        pickSlots totalSubCh totalTx (newTxOpps ++ [it]) draws (txOpps.eraseIdx i)
      else pickSlots totalSubCh totalTx newTxOpps draws (txOpps.eraseIdx i) := by
  rw [pickSlots, if_neg hmore, hi]
  exact bind_of_ok (orFault_ok_iff.mpr hit)

theorem perm_eraseIdx (hit : txOpps[i]? = some it) : (it :: txOpps.eraseIdx i).Perm txOpps := by
  obtain ⟨hlt, rfl⟩ := List.getElem?_eq_some_iff.mp hit
  exact List.getElem_cons_eraseIdx_perm hlt

theorem length_eraseIdx_succ (hit : txOpps[i]? = some it) :
    (txOpps.eraseIdx i).length + 1 = txOpps.length := by
  have hlen := (perm_eraseIdx hit).length_eq
  simpa using hlen

theorem pickSlots_total (henough : totalTx ≤ txOpps.length + newTxOpps.length)
    (hle : newTxOpps.length ≤ totalTx) (hdraws : txOpps.length ≤ draws.length) :
    ∃ more rest, pickSlots totalSubCh totalTx newTxOpps draws txOpps = .ok (newTxOpps ++ more, rest) ∧
      more.Subperm txOpps ∧ newTxOpps.length + more.length = totalTx := by
  induction draws generalizing txOpps newTxOpps with
  | nil =>
    have hlen : newTxOpps.length = totalTx := by
      rw [List.length_nil] at hdraws
      omega
    refine ⟨[], [], ?_, List.nil_subperm, by simpa using hlen⟩
    rw [pickSlots, if_pos hlen, List.append_nil]
  | cons draw draws ih =>
    by_cases hlen : newTxOpps.length = totalTx
    · refine ⟨[], draw :: draws, ?_, List.nil_subperm, by simpa using hlen⟩
      rw [pickSlots, if_pos hlen, List.append_nil]
    · have hpos : 0 < txOpps.length := by omega
      obtain ⟨i, hi⟩ : ∃ i, getInteger 0 (txOpps.length - 1) draw = i := ⟨_, rfl⟩
      obtain ⟨it, hit⟩ : ∃ it, txOpps[i]? = some it :=
        ⟨_, List.getElem?_eq_getElem (hi ▸ getInteger_lt hpos draw)⟩
      have hlast := length_eraseIdx_succ hit
      have hperm := perm_eraseIdx hit
      rw [List.length_cons] at hdraws
      rw [pickSlots_round hlen hi hit]
      split
      next =>
        have hlonger : (newTxOpps ++ [it]).length = newTxOpps.length + 1 := by simp
        obtain ⟨more, rest, hpick, hmore, hcount⟩ := ih
          (show totalTx ≤ (txOpps.eraseIdx i).length + (newTxOpps ++ [it]).length by omega)
          (by omega) (by omega)
        refine ⟨it :: more, rest, ?_, ?_, ?_⟩
        · rw [hpick, List.append_assoc, List.singleton_append]
        · exact ((List.subperm_cons it).mpr hmore).trans hperm.subperm
        · rw [List.length_append, List.length_singleton] at hcount
          rw [List.length_cons]
          omega
      next hdrop =>
        have hlong : totalTx < txOpps.length := by
          by_contra hshort
          exact hdrop (Or.inr (Nat.le_of_not_lt hshort))
        obtain ⟨more, rest, hpick, hmore, hcount⟩ := ih
          (show totalTx ≤ (txOpps.eraseIdx i).length + newTxOpps.length by omega) hle (by omega)
        exact ⟨more, rest, hpick, (hmore.cons_right it).trans hperm.subperm, hcount⟩

/-- With enough free slots, twice the wanted number less one, no full slot is ever picked: the list
is too long when one is drawn. -/
theorem pickSlots_free {picked : List NrSlSlotInfo} {rest : Draws}
    (hnew : ∀ it ∈ newTxOpps, HasFree totalSubCh it)
    (hfree : numFree totalSubCh txOpps = txOpps.length ∨
      2 * totalTx ≤ numFree totalSubCh txOpps + newTxOpps.length + 1)
    (hle : newTxOpps.length ≤ totalTx)
    (h : pickSlots totalSubCh totalTx newTxOpps draws txOpps = .ok (picked, rest)) :
    ∀ it ∈ picked, HasFree totalSubCh it := by
  induction draws generalizing txOpps newTxOpps with
  | nil =>
    unfold pickSlots at h
    split at h
    next =>
      cases h
      exact hnew
    next => cases h
  | cons draw draws ih =>
    by_cases hlen : newTxOpps.length = totalTx
    · rw [pickSlots, if_pos hlen] at h
      cases h
      exact hnew
    · obtain ⟨i, hi⟩ : ∃ i, getInteger 0 (txOpps.length - 1) draw = i := ⟨_, rfl⟩
      have hround := h
      rw [pickSlots, if_neg hlen, hi] at hround
      obtain ⟨it, hget, _⟩ := bind_ok_iff.mp hround
      have hit : txOpps[i]? = some it := orFault_ok_iff.mp hget
      rw [pickSlots_round hlen hi hit] at h
      have hlast := length_eraseIdx_succ hit
      have hcount := numFree_perm totalSubCh (perm_eraseIdx hit)
      rw [numFree_cons] at hcount
      have hbound := numFree_le totalSubCh (txOpps.eraseIdx i)
      by_cases hitFree : HasFree totalSubCh it
      · rw [if_pos hitFree] at hcount
        rw [if_pos (Or.inl hitFree)] at h
        have hlonger : (newTxOpps ++ [it]).length = newTxOpps.length + 1 := by simp
        refine ih (fun x hx => ?_) (by omega) (by omega) h
        rcases List.mem_append.mp hx with hx | hx
        · exact hnew x hx
        · rw [List.mem_singleton.mp hx]
          exact hitFree
      · rw [if_neg hitFree] at hcount
        -- a full slot is drawn from a list that is longer than totalTx
        have hdrop : ¬(HasFree totalSubCh it ∨ txOpps.length ≤ totalTx) := by
          rintro (hyes | hshort)
          · exact hitFree hyes
          · omega
        rw [if_neg hdrop] at h
        exact ih hnew (by omega) hle h

/-- With fewer free slots some draws pick a full one: first free slots until fewer than wanted are
left, then full ones. -/
theorem pickSlots_full (hmore : newTxOpps.length < totalTx)
    (hfew : numFree totalSubCh txOpps + newTxOpps.length + 2 ≤ 2 * totalTx)
    (hfull : numFree totalSubCh txOpps < txOpps.length)
    (henough : totalTx ≤ txOpps.length + newTxOpps.length) :
    ∃ draws : Draws, draws.length = txOpps.length ∧ ∀ picked rest,
      pickSlots totalSubCh totalTx newTxOpps draws txOpps = .ok (picked, rest) →
        ∃ it ∈ picked, ¬HasFree totalSubCh it := by
  induction hn : txOpps.length generalizing txOpps newTxOpps with
  | zero => omega
  | succ n ih =>
    have hlen : newTxOpps.length ≠ totalTx := by omega
    by_cases hmany : totalTx ≤ numFree totalSubCh txOpps
    · obtain ⟨it, hin, hitFree⟩ := exists_hasFree (show 0 < numFree totalSubCh txOpps by omega)
      obtain ⟨i, hit⟩ := List.mem_iff_getElem?.mp hin
      have hi := (List.getElem?_eq_some_iff.mp hit).1
      have hlast := length_eraseIdx_succ hit
      have hcount := numFree_perm totalSubCh (perm_eraseIdx hit)
      rw [numFree_cons, if_pos hitFree] at hcount
      have hlonger : (newTxOpps ++ [it]).length = newTxOpps.length + 1 := by simp
      obtain ⟨draws, hdraws, hpicks⟩ := ih (show (newTxOpps ++ [it]).length < totalTx by omega)
        (show numFree totalSubCh (txOpps.eraseIdx i) + (newTxOpps ++ [it]).length + 2 ≤ 2 * totalTx by
          omega) (by omega) (by omega) (by omega)
      refine ⟨i :: draws, by simp [hdraws], fun picked rest hpick => hpicks picked rest ?_⟩
      rw [pickSlots_round hlen (getInteger_index hi) hit, if_pos (Or.inl hitFree)] at hpick
      exact hpick
    · obtain ⟨it, hin, hitFull⟩ := exists_full hfull
      obtain ⟨i, hit⟩ := List.mem_iff_getElem?.mp hin
      have hi := (List.getElem?_eq_some_iff.mp hit).1
      have hlast := length_eraseIdx_succ hit
      have hcount := numFree_perm totalSubCh (perm_eraseIdx hit)
      rw [numFree_cons, if_neg hitFull] at hcount
      by_cases hshort : txOpps.length ≤ totalTx
      · refine ⟨i :: List.replicate n 0, by simp, fun picked rest hpick => ?_⟩
        rw [pickSlots_round hlen (getInteger_index hi) hit, if_pos (Or.inr hshort)] at hpick
        have hlonger : (newTxOpps ++ [it]).length = newTxOpps.length + 1 := by simp
        have hzeros : (List.replicate n 0).length = n := by simp
        obtain ⟨more, rest', htotal, _⟩ : ∃ more rest', pickSlots totalSubCh totalTx
            (newTxOpps ++ [it]) (List.replicate n 0) (txOpps.eraseIdx i) =
              .ok (newTxOpps ++ [it] ++ more, rest') ∧ more.Subperm (txOpps.eraseIdx i) ∧
            (newTxOpps ++ [it]).length + more.length = totalTx :=
          pickSlots_total (by omega) (by omega) (by omega)
        obtain ⟨rfl, _⟩ := Prod.mk.inj (Except.ok.inj (htotal.symm.trans hpick))
        exact ⟨it, by simp, hitFull⟩
      · obtain ⟨draws, hdraws, hpicks⟩ := ih hmore
          (show numFree totalSubCh (txOpps.eraseIdx i) + newTxOpps.length + 2 ≤ 2 * totalTx by omega)
          (by omega) (by omega) (by omega)
        refine ⟨i :: draws, by simp [hdraws], fun picked rest hpick => hpicks picked rest ?_⟩
        have hdrop : ¬(HasFree totalSubCh it ∨ txOpps.length ≤ totalTx) := by
          rintro (hyes | hyes)
          · exact hitFull hyes
          · exact hshort hyes
        rw [pickSlots_round hlen (getInteger_index hi) hit, if_neg hdrop] at hpick
        exact hpick

end Loop

section Selection

variable {totalSubCh totalTx : Nat} {draws rest : Draws} {txOpps selected : List NrSlSlotInfo}

theorem randomlySelectSlots_of_few (hfew : txOpps.length ≤ totalTx) :
    randomlySelectSlots totalSubCh totalTx draws txOpps = .ok (sortSlots txOpps, draws) := by
  unfold randomlySelectSlots
  rw [if_neg (Nat.not_lt.mpr hfew)]
  rfl

theorem randomlySelectSlots_of_many (hmany : totalTx < txOpps.length)
    (hpick : pickSlots totalSubCh totalTx [] draws txOpps = .ok (selected, rest)) :
    randomlySelectSlots totalSubCh totalTx draws txOpps = .ok (sortSlots selected, rest) := by
  unfold randomlySelectSlots
  rw [if_pos hmany]
  exact bind_of_ok hpick

theorem sortSlots_rising (hdistinct : (txOpps.map (·.sfn)).Nodup)
    (hsub : selected.Subperm txOpps) :
    (sortSlots selected).Pairwise fun a b => a.sfn < b.sfn := by
  have hperm : (sortSlots selected).Perm selected := List.perm_insertionSort _ selected
  obtain ⟨kept, hkept, hsublist⟩ := hsub
  have hkeptNodup : (kept.map (·.sfn)).Nodup := hdistinct.sublist (hsublist.map _)
  apply rising_of_nodup (sortSlots_sorted selected)
  exact ((hperm.trans hkept.symm).map _).nodup_iff.mpr hkeptNodup

theorem selectsUsable_of_subperm (hdistinct : (txOpps.map (·.sfn)).Nodup)
    (hsub : selected.Subperm txOpps) (hcount : selected.length = min totalTx txOpps.length)
    (husable : (∃ it ∈ selected, ¬HasFree totalSubCh it) → numFree totalSubCh txOpps < totalTx) :
    SelectsUsable totalSubCh totalTx txOpps (sortSlots selected) where
  sorted := sortSlots_rising hdistinct hsub
  offered := fun _ hit => hsub.subset (mem_sortSlots.mp hit)
  count := by rw [sortSlots, List.length_insertionSort, hcount]
  usable := by
    rintro ⟨it, hit, hfull⟩
    exact husable ⟨it, mem_sortSlots.mp hit, hfull⟩

theorem PrefersUsable.free_count (h : PrefersUsable totalSubCh totalTx txOpps) :
    numFree totalSubCh txOpps < totalTx ∨ numFree totalSubCh txOpps = txOpps.length ∨
      2 * totalTx ≤ numFree totalSubCh txOpps + 1 := by
  have hbound := numFree_le totalSubCh txOpps
  have hnone : ([] : List NrSlSlotInfo).length = 0 := rfl
  by_contra hnot
  have hmany : totalTx ≤ numFree totalSubCh txOpps := by omega
  have hfull : numFree totalSubCh txOpps < txOpps.length := by omega
  obtain ⟨draws, hdraws, hpicks⟩ := pickSlots_full
    (show ([] : List NrSlSlotInfo).length < totalTx by omega)
    (show numFree totalSubCh txOpps + ([] : List NrSlSlotInfo).length + 2 ≤ 2 * totalTx by omega)
    hfull (Nat.le_add_right_of_le (hmany.trans hbound))
  obtain ⟨selected, rest, hselect, husable⟩ := h draws hdraws.ge
  unfold randomlySelectSlots at hselect
  rw [if_pos (by omega)] at hselect
  obtain ⟨⟨picked, draws'⟩, hpick, hselect⟩ := bind_ok_iff.mp hselect
  obtain ⟨rfl, -⟩ := Prod.mk.inj (pure_ok_iff.mp hselect)
  obtain ⟨it, hit, hitFull⟩ := hpicks picked draws' hpick
  have hfew := husable.usable ⟨it, mem_sortSlots.mpr hit, hitFull⟩
  omega

/-- The loop drops what it draws and keeps to free slots while there are enough. -/
theorem selects_of_many (hdistinct : (txOpps.map (·.sfn)).Nodup) (hmany : totalTx < txOpps.length)
    (hcount : numFree totalSubCh txOpps < totalTx ∨ numFree totalSubCh txOpps = txOpps.length ∨
      2 * totalTx ≤ numFree totalSubCh txOpps + 1) (hdraws : txOpps.length ≤ draws.length) :
    ∃ selected rest, randomlySelectSlots totalSubCh totalTx draws txOpps = .ok (selected, rest) ∧
      SelectsUsable totalSubCh totalTx txOpps selected := by
  have hnone : ([] : List NrSlSlotInfo).length = 0 := rfl
  obtain ⟨picked, rest, hpick, hsub, hlen⟩ := pickSlots_total
    (show totalTx ≤ txOpps.length + ([] : List NrSlSlotInfo).length by omega)
    (Nat.zero_le totalTx) hdraws
  rw [List.nil_append] at hpick
  refine ⟨sortSlots picked, rest, randomlySelectSlots_of_many hmany hpick, ?_⟩
  apply selectsUsable_of_subperm hdistinct hsub (by omega)
  rintro ⟨it, hit, hfull⟩
  by_contra hfew
  exact hfull (pickSlots_free (by simp) (by omega) (Nat.zero_le totalTx) hpick it hit)

theorem selects_of_few (hdistinct : (txOpps.map (·.sfn)).Nodup) (hfew : txOpps.length ≤ totalTx) :
    SelectsUsable totalSubCh totalTx txOpps (sortSlots txOpps) := by
  have hbound := numFree_le totalSubCh txOpps
  apply selectsUsable_of_subperm hdistinct (List.Perm.refl txOpps).subperm (by omega)
  rintro ⟨it, hit, hfull⟩
  have hnotAll : numFree totalSubCh txOpps ≠ txOpps.length := by
    intro hall
    exact hfull (numFree_eq_length.mp hall it hit)
  omega

/-- The selection keeps to usable slots exactly when too few slots are free for that, or no slot is
full, or so many are free that the wanted number is reached before no more than that are left. -/
theorem prefersUsable_iff (hdistinct : (txOpps.map (·.sfn)).Nodup) :
    PrefersUsable totalSubCh totalTx txOpps ↔
      numFree totalSubCh txOpps < totalTx ∨ numFree totalSubCh txOpps = txOpps.length ∨
        2 * totalTx ≤ numFree totalSubCh txOpps + 1 := by
  constructor
  · exact PrefersUsable.free_count
  · intro hcount draws hdraws
    by_cases hmany : totalTx < txOpps.length
    · exact selects_of_many hdistinct hmany hcount hdraws
    · have hfew : txOpps.length ≤ totalTx := Nat.le_of_not_lt hmany
      exact ⟨_, draws, randomlySelectSlots_of_few hfew, selects_of_few hdistinct hfew⟩

end Selection

/-- A slot of a pool with one subchannel, free or occupied. -/
def oneSubChannelSlot (sfn : Nat) (occupied : Bool) : NrSlSlotInfo where
  shape := {}
  sfn := sfn
  occupiedSbCh := if occupied then {0} else ∅

/-- Two transmissions, four slots: with three of them free the selection keeps to free ones. -/
theorem prefersUsable_threeFree : PrefersUsable 1 2 [oneSubChannelSlot 0 false,
    oneSubChannelSlot 1 false, oneSubChannelSlot 2 false, oneSubChannelSlot 3 true] :=
  (prefersUsable_iff (by decide)).mpr (by decide)

/-- With two of them free, a free slot is drawn first and a full one is erased; the two that are
left are then no more than two are wanted, and the full one of them is taken. -/
theorem prefersUsable_fails_twoFree : ¬PrefersUsable 1 2 [oneSubChannelSlot 0 false,
    oneSubChannelSlot 1 false, oneSubChannelSlot 2 true, oneSubChannelSlot 3 true] := by
  intro h
  obtain ⟨selected, rest, hselect, husable⟩ := h [0, 1, 1, 0] (by decide)
  have hrun : randomlySelectSlots 1 2 [0, 1, 1, 0] [oneSubChannelSlot 0 false,
      oneSubChannelSlot 1 false, oneSubChannelSlot 2 true, oneSubChannelSlot 3 true] =
        .ok ([oneSubChannelSlot 0 false, oneSubChannelSlot 3 true], [0]) := by decide +kernel
  obtain ⟨rfl, rfl⟩ := Prod.mk.inj (Except.ok.inj (hselect.symm.trans hrun))
  have hfew := husable.usable ⟨oneSubChannelSlot 3 true, by simp, by decide⟩
  exact absurd hfew (by decide)

end SidelinkORe
