import SidelinkORe.RisingList
import SidelinkORe.SlotSelection

namespace SidelinkORe

section Runs

variable {l : List Nat} {s n b i x : Nat}

theorem le_contiguous_iff (hl : (s :: l).Pairwise (· < ·)) :
    n ≤ contiguous (s :: l) ↔ ∀ j < n, s + j ∈ s :: l := by
  induction l generalizing s n with
  | nil =>
    rw [contiguous]
    constructor
    · intro hn j hj
      have hzero : j = 0 := by omega
      simp [hzero]
    · intro h
      by_contra hn
      have hone := h 1 (by omega)
      simp at hone
  | cons t l ih =>
    obtain ⟨hhead, htail⟩ := List.pairwise_cons.mp hl
    have hst := hhead t List.mem_cons_self
    have hle : ∀ x ∈ t :: l, t ≤ x := by
      intro x hx
      rcases List.mem_cons.mp hx with rfl | hx
      · exact Nat.le_refl x
      · exact ((List.pairwise_cons.mp htail).1 x hx).le
    rw [contiguous]
    split
    next hnext =>
      cases n with
      | zero => simp
      | succ n =>
        rw [Nat.add_le_add_iff_right, ih htail]
        constructor
        · intro h j hj
          cases j with
          | zero => simp
          | succ j =>
            have hshift : s + (j + 1) = t + j := by omega
            rw [hshift]
            exact List.mem_cons_of_mem s (h j (by omega))
        · intro h j hj
          have hshift : s + (j + 1) = t + j := by omega
          have hmem := h (j + 1) (by omega)
          rw [hshift] at hmem
          rcases List.mem_cons.mp hmem with heq | hmem
          · omega
          · exact hmem
    next hgap =>
      constructor
      · intro hn j hj
        have hzero : j = 0 := by omega
        simp [hzero]
      · intro h
        by_contra hn
        have hone := h 1 (by omega)
        rcases List.mem_cons.mp hone with heq | hmem
        · omega
        · have := hle (s + 1) hmem
          omega

theorem mem_drop_of_le (hl : l.Pairwise (· < ·)) (hi : l[i]? = some s) (hx : x ∈ l) (hle : s ≤ x) :
    x ∈ l.drop i := by
  obtain ⟨k, hk⟩ := List.mem_iff_getElem?.mp hx
  have hik : i ≤ k := by
    by_contra hlt
    have hrise := rising_lt hl hk hi (by omega)
    omega
  apply List.mem_of_getElem? (i := k - i)
  rw [List.getElem?_drop, Nat.add_sub_cancel' hik, hk]

theorem exists_run_iff (hl : l.Pairwise (· < ·)) (hn : 0 < n) :
    (∃ i < l.length, n ≤ contiguous (l.drop i)) ↔ ∃ s, ∀ j < n, s + j ∈ l := by
  constructor
  · rintro ⟨i, hi, hrun⟩
    rw [List.drop_eq_getElem_cons hi] at hrun
    have hdrop : (l[i] :: l.drop (i + 1)).Pairwise (· < ·) := by
      rw [← List.drop_eq_getElem_cons hi]
      exact hl.sublist (List.drop_sublist i l)
    refine ⟨l[i], fun j hj => ?_⟩
    have hmem := (le_contiguous_iff hdrop).mp hrun j hj
    rw [← List.drop_eq_getElem_cons hi] at hmem
    exact List.mem_of_mem_drop hmem
  · rintro ⟨s, hs⟩
    obtain ⟨i, hi⟩ := List.mem_iff_getElem?.mp (hs 0 hn)
    obtain ⟨hlt, hget⟩ := List.getElem?_eq_some_iff.mp hi
    refine ⟨i, hlt, ?_⟩
    have hdrop : (l[i] :: l.drop (i + 1)).Pairwise (· < ·) := by
      rw [← List.drop_eq_getElem_cons hlt]
      exact hl.sublist (List.drop_sublist i l)
    rw [List.drop_eq_getElem_cons hlt, le_contiguous_iff hdrop]
    intro j hj
    rw [← List.drop_eq_getElem_cons hlt, hget]
    exact mem_drop_of_le hl hi (hs j hj) (by omega)

theorem foldl_max_le_iff {α : Type} (f : α → Nat) (l : List α) (c : Nat) :
    l.foldl (fun c a => max c (f a)) c ≤ b ↔ c ≤ b ∧ ∀ a ∈ l, f a ≤ b := by
  induction l generalizing c with
  | nil => simp
  | cons a l ih =>
    rw [List.foldl_cons, ih, List.forall_mem_cons, max_le_iff, and_assoc]

theorem foldl_min_le_iff {α : Type} (f : α → Nat) (l : List α) (c : Nat) :
    l.foldl (fun c a => min (f a) c) c ≤ b ↔ c ≤ b ∨ ∃ a ∈ l, f a ≤ b := by
  induction l generalizing c with
  | nil => simp
  | cons a l ih =>
    rw [List.foldl_cons, ih, min_le_iff]
    simp only [List.mem_cons, exists_eq_or_imp]
    constructor
    · rintro ((ha | hc) | hl)
      · exact Or.inr (Or.inl ha)
      · exact Or.inl hc
      · exact Or.inr (Or.inr hl)
    · rintro (hc | ha | hl)
      · exact Or.inl (Or.inr hc)
      · exact Or.inl (Or.inl ha)
      · exact Or.inr hl

end Runs

/-- `n` consecutive subchannels of the slot are to be had: free ones, or any when none is free. -/
def FreeRun (totalSubCh : Nat) (it : NrSlSlotInfo) (n : Nat) : Prop :=
  ∃ s, ∀ j < n, s + j ∈ availSbCh totalSubCh it

section Size

variable {totalSubCh b : Nat} {selected : List NrSlSlotInfo} {info : SbChInfo}

theorem availSbCh_rising (totalSubCh : Nat) (it : NrSlSlotInfo) :
    (availSbCh totalSubCh it).Pairwise (· < ·) := by
  unfold availSbCh
  dsimp only
  split
  · exact List.pairwise_lt_range
  · exact List.pairwise_lt_range.sublist List.filter_sublist

theorem not_freeRun {it : NrSlSlotInfo} {n : Nat} (h : totalSubCh < n) :
    ¬FreeRun totalSubCh it n := by
  rintro ⟨s, hs⟩
  have hlast := availSbCh_lt (hs totalSubCh h)
  omega

/-- The size of the selection is limited by the longest run of some slot. -/
theorem numSubCh_le_iff (h : getAvailSbChInfo totalSubCh selected = .ok info) :
    info.numSubCh ≤ b ↔ totalSubCh ≤ b ∨ ∃ it ∈ selected, ¬FreeRun totalSubCh it (b + 1) := by
  obtain ⟨_, _, h⟩ := bind_ok_iff.mp h
  obtain rfl := pure_ok_iff.mp h
  have hlongest : ∀ it, (List.range (availSbCh totalSubCh it).length).foldl
      (fun c i => max c (contiguous ((availSbCh totalSubCh it).drop i))) 0 ≤ b ↔
        ¬FreeRun totalSubCh it (b + 1) := by
    intro it
    rw [foldl_max_le_iff, FreeRun,
      ← exists_run_iff (availSbCh_rising totalSubCh it) (Nat.succ_pos b)]
    simp
  rw [foldl_min_le_iff]
  simp only [List.mem_map, exists_exists_and_eq_and, hlongest]

/-- The loop stops below `b` when the list of sizes does, or when some size up to `b` is enough. -/
theorem sizeAllocation_le_iff (tbSize : Nat → Nat) (needed left : Nat) {a : Nat} (h : a ≤ b) :
    (sizeAllocation tbSize needed left a).1 ≤ b ↔
      a + left ≤ b ∨ ∃ n, a ≤ n ∧ n ≤ b ∧ needed ≤ tbSize n := by
  induction left generalizing a with
  | zero =>
    rw [sizeAllocation, Nat.add_zero]
    exact ⟨Or.inl, fun _ => h⟩
  | succ left ih =>
    rw [sizeAllocation]
    split
    next hsmall =>
      by_cases hlt : a < b
      · rw [ih hlt]
        constructor
        · rintro (hend | ⟨n, hn, hnb, hfits⟩)
          · exact Or.inl (by omega)
          · exact Or.inr ⟨n, by omega, hnb, hfits⟩
        · rintro (hend | ⟨n, hn, hnb, hfits⟩)
          · exact Or.inl (by omega)
          · refine Or.inr ⟨n, ?_, hnb, hfits⟩
            by_contra hle
            have heq : n = a := by omega
            rw [heq] at hfits
            omega
      · have hbound := (sizeAllocation_bounds tbSize needed left (a + 1)).1
        constructor
        · intro hle
          omega
        · rintro (hend | ⟨n, hn, hnb, hfits⟩)
          · omega
          · have heq : n = a := by omega
            rw [heq] at hfits
            omega
    next hlarge =>
      exact ⟨fun _ => Or.inr ⟨a, Nat.le_refl a, h, by omega⟩, fun _ => h⟩

end Size

end SidelinkORe
