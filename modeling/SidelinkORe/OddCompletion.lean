import SidelinkORe.SlotPreference
import SidelinkORe.KeptResources
import Mathlib.Data.Nat.Pairing

namespace SidelinkORe

section Fair

/-- Each value of a range of `m` values occurs after every position. -/
def Fair (m : Nat) (f : Nat → Nat) : Prop :=
  ∀ n, ∀ v < m, ∃ k, n ≤ k ∧ getInteger 0 (m - 1) (f k) = v

def firstDraws (f : Nat → Nat) (n : Nat) : Draws := (List.range n).map f

def prependDraw (draw : Nat) (f : Nat → Nat) : Nat → Nat
  | 0 => draw
  | k + 1 => f k

variable {m n k : Nat} {f : Nat → Nat}

theorem Fair.prependDraw (h : Fair m f) (draw : Nat) : Fair m (prependDraw draw f) := by
  intro n v hv
  obtain ⟨k, hk, hfk⟩ := h n v hv
  exact ⟨k + 1, by omega, hfk⟩

theorem fair_unpair (m : Nat) : Fair m fun k => k.unpair.1 := by
  intro n v hv
  refine ⟨Nat.pair v n, Nat.right_le_pair v n, ?_⟩
  simp only [Nat.unpair_pair]
  exact getInteger_index hv

theorem firstDraws_prependDraw (draw : Nat) (f : Nat → Nat) (n : Nat) :
    firstDraws (prependDraw draw f) (n + 1) = draw :: firstDraws f n := by
  unfold firstDraws
  rw [List.range_succ_eq_map, List.map_cons, List.map_map]
  rfl

theorem firstDraws_append (f : Nat → Nat) (h : n ≤ k) :
    ∃ more, firstDraws f (k + 1) = firstDraws f n ++ more ∧ f k ∈ more := by
  refine ⟨(List.range (k + 1 - n)).map fun i => f (n + i), ?_, ?_⟩
  · have hlen : k + 1 = n + (k + 1 - n) := by omega
    unfold firstDraws
    rw [hlen, List.range_add, List.map_append, List.map_map, Nat.add_sub_cancel_left]
    rfl
  · refine List.mem_map.mpr ⟨k - n, List.mem_range.mpr (by omega), ?_⟩
    rw [Nat.add_sub_cancel' h]

end Fair

section Loops

variable {totalSubCh totalTx draw c : Nat} {draws rest : Draws} {it : NrSlSlotInfo}
  {txOpps l : List NrSlSlotInfo}

theorem drawFreeSlot_hit (hit : txOpps[getInteger 0 (txOpps.length - 1) draw]? = some it)
    (hfree : HasFree totalSubCh it) :
    drawFreeSlot totalSubCh totalTx txOpps (draw :: draws) = .ok (it, draws) := by
  unfold drawFreeSlot
  refine (bind_of_ok (orFault_ok_iff.mpr hit)).trans ?_
  exact if_pos (Or.inl hfree)

/-- With more slots than wanted only a free one ends it. -/
theorem drawFreeSlot_hasFree (hmany : totalTx < txOpps.length)
    (h : drawFreeSlot totalSubCh totalTx txOpps draws = .ok (it, rest)) :
    it ∈ txOpps ∧ HasFree totalSubCh it := by
  refine ⟨drawFreeSlot_ok h, ?_⟩
  induction draws with
  | nil => cases h
  | cons draw draws ih =>
    obtain ⟨drawn, hdrawn, h⟩ := bind_ok_iff.mp h
    split at h
    next hstop =>
      obtain ⟨rfl, -⟩ := Prod.mk.inj (pure_ok_iff.mp h)
      exact hstop.resolve_right (by omega)
    next => exact ih h

theorem drawFreeSlot_append (h : drawFreeSlot totalSubCh totalTx txOpps draws = .ok (it, rest))
    (more : Draws) :
    drawFreeSlot totalSubCh totalTx txOpps (draws ++ more) = .ok (it, rest ++ more) := by
  induction draws with
  | nil => cases h
  | cons draw draws ih =>
    rw [drawFreeSlot] at h
    rw [List.cons_append, drawFreeSlot]
    obtain ⟨drawn, hdrawn, h⟩ := bind_ok_iff.mp h
    refine (bind_of_ok hdrawn).trans ?_
    split at h
    next hstop =>
      obtain ⟨rfl, rfl⟩ := Prod.mk.inj (pure_ok_iff.mp h)
      exact if_pos hstop
    next hgo =>
      rw [if_neg hgo]
      exact ih h

theorem drawFreeSlot_ends (hin : draw ∈ draws)
    (hit : txOpps[getInteger 0 (txOpps.length - 1) draw]? = some it)
    (hfree : HasFree totalSubCh it) :
    ∃ it' rest, drawFreeSlot totalSubCh totalTx txOpps draws = .ok (it', rest) := by
  have hpos : 0 < txOpps.length := List.length_pos_of_mem (List.mem_of_getElem? hit)
  induction draws with
  | nil => simp at hin
  | cons first draws ih =>
    rcases List.mem_cons.mp hin with rfl | hin
    · exact ⟨it, draws, drawFreeSlot_hit hit hfree⟩
    · obtain ⟨x, hx⟩ : ∃ x, txOpps[getInteger 0 (txOpps.length - 1) first]? = some x :=
        ⟨_, List.getElem?_eq_getElem (getInteger_lt hpos first)⟩
      rw [drawFreeSlot, bind_of_ok (orFault_ok_iff.mpr hx)]
      split
      next => exact ⟨x, draws, rfl⟩
      next => exact ih hin

theorem drawFreeSbCh_hit (htotal : totalSubCh ≤ 256) (hc : getInteger 0 (totalSubCh - 1) draw = c)
    (hpos : 0 < totalSubCh) (hfree : c ∉ it.occupiedSbCh) :
    drawFreeSbCh totalSubCh it (draw :: draws) = .ok (c, draws) := by
  have hlt := getInteger_lt hpos draw
  rw [hc] at hlt
  unfold drawFreeSbCh
  dsimp only
  rw [hc, if_neg hfree, Nat.mod_eq_of_lt (by omega)]

theorem drawFreeSbCh_free (htotal : totalSubCh ≤ 256) (hpos : 0 < totalSubCh)
    (h : drawFreeSbCh totalSubCh it draws = .ok (c, rest)) :
    c < totalSubCh ∧ c ∉ it.occupiedSbCh := by
  induction draws with
  | nil => cases h
  | cons draw draws ih =>
    have hlt := getInteger_lt hpos draw
    unfold drawFreeSbCh at h
    dsimp only at h
    split at h
    next => exact ih h
    next hfree =>
      obtain ⟨rfl, -⟩ := Prod.mk.inj (Except.ok.inj h)
      rw [Nat.mod_eq_of_lt (by omega)]
      exact ⟨hlt, hfree⟩

theorem drawFreeSbCh_ends (hin : draw ∈ draws)
    (hfree : getInteger 0 (totalSubCh - 1) draw ∉ it.occupiedSbCh) :
    ∃ c rest, drawFreeSbCh totalSubCh it draws = .ok (c, rest) := by
  induction draws with
  | nil => simp at hin
  | cons first draws ih =>
    unfold drawFreeSbCh
    dsimp only
    split
    next hocc =>
      rcases List.mem_cons.mp hin with rfl | hin
      · exact absurd hocc hfree
      · exact ih hin
    next => exact ⟨_, _, rfl⟩

end Loops

/-- What the completion is for: on every fair sequence of draws it ends, and it adds a slot that is
not yet chosen, on a subchannel that is free there. -/
def CompletesFresh (totalSubCh totalTx : Nat) (txOpps : List NrSlSlotInfo)
    (chosen : List (Nat × Nat)) : Prop :=
  ∀ f : Nat → Nat, Fair txOpps.length f → Fair totalSubCh f → ∃ n slots it c rest,
    walkOrDraw totalSubCh totalTx txOpps totalTx (chosen.map Prod.fst) (firstDraws f n) =
      .ok (slots ++ [it], [c], rest) ∧
    (∀ p ∈ chosen, txOpps[p.1]?.map (·.sfn) ≠ some it.sfn) ∧
    c < totalSubCh ∧ c ∉ it.occupiedSbCh

section Completion

theorem lt_of_forall₂_getElem? {txOpps l : List NrSlSlotInfo} {slots : List Nat}
    (h : List.Forall₂ (fun slot it => txOpps[slot]? = some it) slots l) :
    ∀ slot ∈ slots, slot < txOpps.length := by
  induction h with
  | nil => simp
  | cons hslot _ ih =>
    intro slot hin
    rcases List.mem_cons.mp hin with rfl | hin
    · exact (List.getElem?_eq_some_iff.mp hslot).1
    · exact ih slot hin

variable {totalSubCh totalTx : Nat} {txOpps : List NrSlSlotInfo} {chosen : List (Nat × Nat)}
  {f : Nat → Nat} {it : NrSlSlotInfo}

/-- On fair draws the searches end when some slot is free. -/
theorem searches_end (hfree : HasFree totalSubCh it) (hin : it ∈ txOpps)
    (hmany : totalTx < txOpps.length) (hslots : Fair txOpps.length f) (hsub : Fair totalSubCh f) :
    ∃ n it' c draws₁ rest,
      drawFreeSlot totalSubCh totalTx txOpps (firstDraws f n) = .ok (it', draws₁) ∧
      drawFreeSbCh totalSubCh it' draws₁ = .ok (c, rest) := by
  obtain ⟨i, hit⟩ := List.mem_iff_getElem?.mp hin
  have hi := (List.getElem?_eq_some_iff.mp hit).1
  obtain ⟨k, _, hk⟩ := hslots 0 i hi
  obtain ⟨more, hmore, hkin⟩ := firstDraws_append f (Nat.zero_le k)
  have hkdraws : f k ∈ firstDraws f (k + 1) := by
    rw [hmore]
    exact List.mem_append_right _ hkin
  obtain ⟨it', draws₁, hslot⟩ : ∃ it' rest,
      drawFreeSlot totalSubCh totalTx txOpps (firstDraws f (k + 1)) = .ok (it', rest) :=
    drawFreeSlot_ends hkdraws (hk ▸ hit) hfree
  obtain ⟨c, hclt, hcfree⟩ := (drawFreeSlot_hasFree hmany hslot).2.exists_free
  -- the free subchannel of the drawn slot is drawn some time later
  obtain ⟨k', hk', hc⟩ := hsub (k + 1) c hclt
  obtain ⟨more', hmore', hkin'⟩ := firstDraws_append f hk'
  have hfreeDraw : getInteger 0 (totalSubCh - 1) (f k') ∉ it'.occupiedSbCh := by
    rw [hc]
    exact hcfree
  obtain ⟨c', rest, hsubCh⟩ : ∃ c rest, drawFreeSbCh totalSubCh it' (draws₁ ++ more') =
      .ok (c, rest) := drawFreeSbCh_ends (List.mem_append_right _ hkin') hfreeDraw
  refine ⟨k' + 1, it', c', draws₁ ++ more', rest, ?_, hsubCh⟩
  rw [hmore']
  exact drawFreeSlot_append hslot more'

/-- A completion that ends has walked to the chosen slots and drawn a free one. -/
theorem CompletesFresh.ends (h : CompletesFresh totalSubCh totalTx txOpps chosen)
    (hmany : totalTx < txOpps.length) (hcount : chosen.length + 1 = totalTx) :
    (∀ p ∈ chosen, p.1 < txOpps.length) ∧ ∃ it ∈ txOpps, HasFree totalSubCh it := by
  have hlen : totalTx = (chosen.map Prod.fst).length + 1 := by rw [List.length_map, hcount]
  obtain ⟨n, slots, it, c, rest, hwalk, _⟩ := h _ (fair_unpair _) (fair_unpair _)
  rw [hlen] at hwalk
  obtain ⟨l, it', draws₁, c', rest', hl, hit, _⟩ := walkOrDraw_ok_iff.mp hwalk
  rw [← hlen] at hit
  refine ⟨fun p hp => ?_, it', drawFreeSlot_hasFree hmany hit⟩
  exact lt_of_forall₂_getElem? hl p.1 (List.mem_map_of_mem hp)

/-- Every free slot can be the one that is drawn. -/
theorem CompletesFresh.fresh (h : CompletesFresh totalSubCh totalTx txOpps chosen)
    (hcount : chosen.length + 1 = totalTx) (hin : it ∈ txOpps) (hfree : HasFree totalSubCh it) :
    ∀ p ∈ chosen, txOpps[p.1]?.map (·.sfn) ≠ some it.sfn := by
  have hlen : totalTx = (chosen.map Prod.fst).length + 1 := by rw [List.length_map, hcount]
  obtain ⟨i, hi⟩ := List.mem_iff_getElem?.mp hin
  have hilt := (List.getElem?_eq_some_iff.mp hi).1
  -- fair draws that begin with the free slot
  obtain ⟨n, slots, x, c, rest, hwalk, hfresh, _⟩ := h (prependDraw i fun k => k.unpair.1)
    ((fair_unpair _).prependDraw i) ((fair_unpair _).prependDraw i)
  rw [hlen] at hwalk
  obtain ⟨l, y, draws₁, c', rest', _, hit, _, hout⟩ := walkOrDraw_ok_iff.mp hwalk
  have hslots : slots ++ [x] = l ++ [y] := congrArg Prod.fst hout
  rw [← hlen] at hit
  cases n with
  | zero => cases hit
  | succ n =>
    have hfirst : txOpps[getInteger 0 (txOpps.length - 1) i]? = some it := by
      rw [getInteger_index hilt, hi]
    rw [firstDraws_prependDraw, drawFreeSlot_hit hfirst hfree] at hit
    obtain ⟨rfl, -⟩ := Prod.mk.inj (Except.ok.inj hit)
    obtain ⟨_, hlast⟩ := List.append_inj' hslots rfl
    rw [← List.singleton_inj.mp hlast]
    exact hfresh

/-- The completion is as wanted exactly when the offsets are positions of the list, some slot has a
free subchannel, and none of the chosen slots has. -/
theorem completesFresh_iff (htotal : totalSubCh ≤ 256) (hmany : totalTx < txOpps.length)
    (hcount : chosen.length + 1 = totalTx) :
    CompletesFresh totalSubCh totalTx txOpps chosen ↔
      (∀ p ∈ chosen, p.1 < txOpps.length) ∧ (∃ it ∈ txOpps, HasFree totalSubCh it) ∧
      ∀ it ∈ txOpps, HasFree totalSubCh it →
        ∀ p ∈ chosen, txOpps[p.1]?.map (·.sfn) ≠ some it.sfn := by
  constructor
  · intro h
    obtain ⟨hoffsets, hsome⟩ := h.ends hmany hcount
    exact ⟨hoffsets, hsome, fun it hin hfree => h.fresh hcount hin hfree⟩
  · rintro ⟨hoffsets, ⟨free, hin, hfree⟩, hfresh⟩ f hslots hsub
    obtain ⟨n, it, c, draws₁, rest, hit, hc⟩ := searches_end hfree hin hmany hslots hsub
    obtain ⟨l, hl⟩ := exists_chosenSlots hoffsets
    have hpos : 0 < totalSubCh := Nat.zero_lt_of_lt hfree
    have hlen : totalTx = (chosen.map Prod.fst).length + 1 := by rw [List.length_map, hcount]
    obtain ⟨hitIn, hitFree⟩ := drawFreeSlot_hasFree hmany hit
    refine ⟨n, l, it, c, rest, ?_, hfresh it hitIn hitFree, drawFreeSbCh_free htotal hpos hc⟩
    rw [hlen] at hit ⊢
    exact walkOrDraw_ok_iff.mpr
      ⟨l, it, draws₁, c, rest, List.forall₂_map_left_iff.mpr hl, hit, hc, rfl⟩

end Completion

/-- Two occupied slots are chosen and the third one is drawn from the free ones. -/
theorem completesFresh_chosenFull : CompletesFresh 1 3 [oneSubChannelSlot 0 true,
    oneSubChannelSlot 1 true, oneSubChannelSlot 2 false, oneSubChannelSlot 3 false]
    [(0, 0), (1, 0)] := by
  refine (completesFresh_iff ?_ ?_ ?_).mpr ?_
  all_goals decide

/-- When every slot is occupied the search for a slot goes on for ever. -/
theorem completesFresh_fails_allFull : ¬CompletesFresh 1 3 [oneSubChannelSlot 0 true,
    oneSubChannelSlot 1 true, oneSubChannelSlot 2 true, oneSubChannelSlot 3 true]
    [(0, 0), (1, 0)] := by
  intro h
  exact absurd (h.ends (by decide) rfl).2 (by decide)

end SidelinkORe
