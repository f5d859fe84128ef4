import SidelinkORe.Grant
import Mathlib.Data.List.Sort

namespace SidelinkORe

section Draws

/-- The values that `m_uniformVariable` still yields. A loop that has not ended when they run out
does not end on them, which is a fault of its own. -/
abbrev Draws := List Nat

def drawInteger (lo hi : Nat) : Draws → Except Fault (Nat × Draws)
  | [] => .error Fault.drawsExhausted
  | draw :: draws => .ok (getInteger lo hi draw, draws)

theorem getInteger_bounds (lo hi draw : Nat) (h : lo ≤ hi) :
    lo ≤ getInteger lo hi draw ∧ getInteger lo hi draw ≤ hi := by
  have hlt := Nat.mod_lt draw (show 0 < hi - lo + 1 by omega)
  unfold getInteger
  omega

theorem getInteger_index {n i : Nat} (h : i < n) : getInteger 0 (n - 1) i = i := by
  unfold getInteger
  rw [Nat.zero_add, Nat.mod_eq_of_lt (by omega)]

theorem getInteger_lt {n : Nat} (h : 0 < n) (draw : Nat) : getInteger 0 (n - 1) draw < n := by
  have := (getInteger_bounds 0 (n - 1) draw (Nat.zero_le _)).2
  omega

theorem drawInteger_ok {lo hi i : Nat} {draws rest : Draws} (h : lo ≤ hi)
    (hd : drawInteger lo hi draws = .ok (i, rest)) : lo ≤ i ∧ i ≤ hi := by
  cases draws with
  | nil => cases hd
  | cons draw draws =>
    cases hd
    exact getInteger_bounds lo hi draw h

end Draws

section RandomSlots

/-- `std::list::sort` by slot number. -/
def sortSlots (l : List NrSlSlotInfo) : List NrSlSlotInfo :=
  l.insertionSort fun a b => a.sfn ≤ b.sfn

/-- The loop of `RandomlySelectSlots`: a drawn slot leaves the list, and it is taken if it has a
free subchannel or no more slots are left than are wanted. -/
def pickSlots (totalSubCh totalTx : Nat) (newTxOpps : List NrSlSlotInfo) :
    Draws → List NrSlSlotInfo → Except Fault (List NrSlSlotInfo × Draws)
  | draws, txOpps =>
    if newTxOpps.length = totalTx then .ok (newTxOpps, draws)
    else match draws with
      | [] => .error Fault.drawsExhausted
      | draw :: draws => do
        let i := getInteger 0 (txOpps.length - 1) draw
        let it ← orFault Fault.drawFromEmptyList txOpps[i]?
        if it.occupiedSbCh.card < totalSubCh ∨ txOpps.length ≤ totalTx then
          pickSlots totalSubCh totalTx (newTxOpps ++ [it]) draws (txOpps.eraseIdx i)
        else pickSlots totalSubCh totalTx newTxOpps draws (txOpps.eraseIdx i)

def randomlySelectSlots (totalSubCh totalTx : Nat) (draws : Draws) (txOpps : List NrSlSlotInfo) :
    Except Fault (List NrSlSlotInfo × Draws) :=
  if totalTx < txOpps.length then do
    let (newTxOpps, draws) ← pickSlots totalSubCh totalTx [] draws txOpps
    pure (sortSlots newTxOpps, draws)
  else pure (sortSlots txOpps, draws)

theorem mem_sortSlots {l : List NrSlSlotInfo} {it : NrSlSlotInfo} : it ∈ sortSlots l ↔ it ∈ l :=
  (List.perm_insertionSort _ l).mem_iff

theorem sortSlots_sorted (l : List NrSlSlotInfo) :
    (sortSlots l).Pairwise fun a b => a.sfn ≤ b.sfn := by
  have : Std.Total fun a b : NrSlSlotInfo => a.sfn ≤ b.sfn := ⟨fun a b => Nat.le_total a.sfn b.sfn⟩
  have : IsTrans NrSlSlotInfo fun a b => a.sfn ≤ b.sfn := ⟨fun _ _ _ => Nat.le_trans⟩
  exact List.pairwise_insertionSort _ l

theorem pickSlots_ok {totalSubCh totalTx : Nat} {draws rest : Draws}
    {txOpps newTxOpps picked : List NrSlSlotInfo}
    (h : pickSlots totalSubCh totalTx newTxOpps draws txOpps = .ok (picked, rest)) :
    picked.length = totalTx ∧ ∀ it ∈ picked, it ∈ newTxOpps ∨ it ∈ txOpps := by
  induction draws generalizing txOpps newTxOpps with
  | nil =>
    unfold pickSlots at h
    split at h
    next hlen =>
      cases h
      exact ⟨hlen, fun it hit => Or.inl hit⟩
    next => cases h
  | cons draw draws ih =>
    unfold pickSlots at h
    split at h
    next hlen =>
      cases h
      exact ⟨hlen, fun it hit => Or.inl hit⟩
    next =>
      obtain ⟨taken, htaken, h⟩ := bind_ok_iff.mp h
      have hmem := List.mem_of_getElem? (orFault_ok_iff.mp htaken)
      split at h
      next =>
        obtain ⟨hlen, hpicked⟩ := ih h
        refine ⟨hlen, fun it hit => ?_⟩
        rcases hpicked it hit with hin | hin
        · rcases List.mem_append.mp hin with hin | hin
          · exact Or.inl hin
          · obtain rfl := List.mem_singleton.mp hin
            exact Or.inr hmem
        · exact Or.inr (List.mem_of_mem_eraseIdx hin)
      next =>
        obtain ⟨hlen, hpicked⟩ := ih h
        exact ⟨hlen, fun it hit => (hpicked it hit).imp_right List.mem_of_mem_eraseIdx⟩

theorem randomlySelectSlots_ok {totalSubCh totalTx : Nat} {draws rest : Draws}
    {txOpps selected : List NrSlSlotInfo}
    (h : randomlySelectSlots totalSubCh totalTx draws txOpps = .ok (selected, rest)) :
    (∀ it ∈ selected, it ∈ txOpps) ∧ (selected.Pairwise fun a b => a.sfn ≤ b.sfn) ∧
      selected.length ≤ totalTx := by
  unfold randomlySelectSlots at h
  split at h
  next =>
    obtain ⟨⟨picked, draws'⟩, hpick, h⟩ := bind_ok_iff.mp h
    obtain ⟨rfl, -⟩ := Prod.mk.inj (pure_ok_iff.mp h)
    obtain ⟨hlen, hpicked⟩ := pickSlots_ok hpick
    refine ⟨fun it hit => ?_, sortSlots_sorted picked, ?_⟩
    · exact (hpicked it (mem_sortSlots.mp hit)).resolve_left List.not_mem_nil
    · exact ((List.perm_insertionSort _ picked).length_eq.trans hlen).le
  next hfew =>
    obtain ⟨rfl, -⟩ := Prod.mk.inj (pure_ok_iff.mp h)
    refine ⟨fun it hit => mem_sortSlots.mp hit, sortSlots_sorted txOpps, ?_⟩
    rw [sortSlots, (List.perm_insertionSort _ txOpps).length_eq]
    omega

end RandomSlots

section SubChannels

/-- The indexes a slot has free; all of them when it has none. -/
def availSbCh (totalSubCh : Nat) (it : NrSlSlotInfo) : List Nat :=
  let indexes := (List.range totalSubCh).filter fun i => i ∉ it.occupiedSbCh
  if indexes = [] then List.range totalSubCh else indexes

/-- The number of consecutive indexes at the beginning of a rising list. -/
def contiguous : List Nat → Nat
  | [] => 0
  | [_] => 1
  | i :: j :: rest => if j = i + 1 then contiguous (j :: rest) + 1 else 1

structure SbChInfo where
  numSubCh : Nat
  availSbChIndPerSlot : List (List Nat)

/-- `GetAvailSbChInfo`; `numSubCh` is the least of the longest runs of the slots. -/
def getAvailSbChInfo (totalSubCh : Nat) (txOpps : List NrSlSlotInfo) : Except Fault SbChInfo := do
  let avail := txOpps.map (availSbCh totalSubCh)
  require (∀ indexes ∈ avail, indexes ≠ []) Fault.noSubChannels
  pure {
    numSubCh := avail.foldl (fun numSubCh indexes => min
      ((List.range indexes.length).foldl (fun c i => max c (contiguous (indexes.drop i))) 0)
      numSubCh) totalSubCh
    availSbChIndPerSlot := avail }

/-- The do-while loop that grows the allocation until the data fits; `left` subchannels remain. -/
def sizeAllocation (tbSize : Nat → Nat) (needed : Nat) : Nat → Nat → Nat × Nat
  | 0, assignedSbCh => (assignedSbCh, tbSize assignedSbCh)
  | left + 1, assignedSbCh =>
    if tbSize assignedSbCh < needed then sizeAllocation tbSize needed left (assignedSbCh + 1)
    else (assignedSbCh, tbSize assignedSbCh)

/-- Draws until enough consecutive indexes follow the drawn one. -/
def drawSbChStart (assignedSbCh : Nat) (indexes : List Nat) : Draws → Except Fault (Nat × Draws)
  | [] => .error Fault.drawsExhausted
  | draw :: draws =>
    let randIndex := getInteger 0 (indexes.length - 1) draw
    match indexes.drop randIndex with
    | [] => .error Fault.noSubChannels
    | start :: rest =>
      if assignedSbCh ≤ contiguous (start :: rest) then .ok (start, draws)
      else drawSbChStart assignedSbCh indexes draws

def startSbChOf (totalSubCh : Nat) (info : SbChInfo) (assignedSbCh : Nat) (indexes : List Nat)
    (draws : Draws) : Except Fault (Nat × Draws) :=
  if info.numSubCh = totalSubCh ∧ assignedSbCh = 1 then drawInteger 0 (totalSubCh - 1) draws
  else drawSbChStart assignedSbCh indexes draws

def randSelSbChStartFrom (totalSubCh : Nat) (info : SbChInfo) (assignedSbCh : Nat) :
    List (List Nat) → Draws → Except Fault (List Nat × Draws)
  | [], draws => .ok ([], draws)
  | indexes :: avail, draws => do
    let (start, draws) ← startSbChOf totalSubCh info assignedSbCh indexes draws
    let (starts, draws) ← randSelSbChStartFrom totalSubCh info assignedSbCh avail draws
    pure (start :: starts, draws)

def randSelSbChStart (totalSubCh : Nat) (info : SbChInfo) (assignedSbCh : Nat) (draws : Draws) :
    Except Fault (List Nat × Draws) :=
  randSelSbChStartFrom totalSubCh info assignedSbCh info.availSbChIndPerSlot draws

theorem availSbCh_lt {totalSubCh i : Nat} {it : NrSlSlotInfo} (h : i ∈ availSbCh totalSubCh it) :
    i < totalSubCh := by
  unfold availSbCh at h
  dsimp only at h
  split at h
  · exact List.mem_range.mp h
  · exact List.mem_range.mp (List.mem_filter.mp h).1

theorem availSbCh_ne_nil {totalSubCh : Nat} {it : NrSlSlotInfo} (h : 0 < totalSubCh) :
    availSbCh totalSubCh it ≠ [] := by
  unfold availSbCh
  dsimp only
  split
  · rw [ne_eq, List.range_eq_nil]
    omega
  · assumption

theorem getAvailSbChInfo_of_pos {totalSubCh : Nat} {txOpps : List NrSlSlotInfo}
    (h : 0 < totalSubCh) : ∃ info, getAvailSbChInfo totalSubCh txOpps = .ok info := by
  have hall : ∀ indexes ∈ txOpps.map (availSbCh totalSubCh), indexes ≠ [] := by
    intro indexes hin
    obtain ⟨it, _, rfl⟩ := List.mem_map.mp hin
    exact availSbCh_ne_nil h
  exact ⟨_, bind_ok_iff.mpr ⟨(), require_ok_iff.mpr hall, rfl⟩⟩

theorem getAvailSbChInfo_ok {totalSubCh : Nat} {txOpps : List NrSlSlotInfo} {info : SbChInfo}
    (h : getAvailSbChInfo totalSubCh txOpps = .ok info) :
    info.availSbChIndPerSlot = txOpps.map (availSbCh totalSubCh) ∧ info.numSubCh ≤ totalSubCh ∧
      (txOpps ≠ [] → 0 < totalSubCh) := by
  obtain ⟨_, hne, h⟩ := bind_ok_iff.mp h
  obtain rfl := pure_ok_iff.mp h
  refine ⟨rfl, ?_, fun hopps => ?_⟩
  · have hfold : ∀ (l : List (List Nat)) (f : List Nat → Nat) (c : Nat),
        l.foldl (fun numSubCh indexes => min (f indexes) numSubCh) c ≤ c := by
      intro l f
      induction l with
      | nil => exact fun c => le_rfl
      | cons a l ih => exact fun c => (ih _).trans (Nat.min_le_right _ _)
    exact hfold _ _ _
  · obtain ⟨it, hit⟩ := List.exists_mem_of_ne_nil _ hopps
    have hsome := require_ok_iff.mp hne _ (List.mem_map_of_mem hit)
    obtain ⟨i, hi⟩ := List.exists_mem_of_ne_nil _ hsome
    have := availSbCh_lt hi
    omega

/-- The allocation takes at least one subchannel and not more than are to be had. -/
theorem sizeAllocation_bounds (tbSize : Nat → Nat) (needed left assignedSbCh : Nat) :
    assignedSbCh ≤ (sizeAllocation tbSize needed left assignedSbCh).1 ∧
      (sizeAllocation tbSize needed left assignedSbCh).1 ≤ assignedSbCh + left := by
  induction left generalizing assignedSbCh with
  | zero => exact ⟨le_rfl, le_rfl⟩
  | succ left ih =>
    unfold sizeAllocation
    split
    · have := ih (assignedSbCh + 1)
      omega
    · exact ⟨le_rfl, by omega⟩

theorem drawSbChStart_ok {assignedSbCh start : Nat} {indexes : List Nat} {draws rest : Draws}
    (h : drawSbChStart assignedSbCh indexes draws = .ok (start, rest)) : start ∈ indexes := by
  induction draws with
  | nil => cases h
  | cons draw draws ih =>
    unfold drawSbChStart at h
    dsimp only at h
    split at h
    next => cases h
    next first others hdrop =>
      split at h
      next =>
        cases h
        exact List.mem_of_mem_drop (hdrop ▸ List.mem_cons_self)
      next => exact ih h

theorem randSelSbChStartFrom_ok {totalSubCh assignedSbCh : Nat} {info : SbChInfo}
    {avail : List (List Nat)} {draws rest : Draws} {starts : List Nat} (hpos : 0 < totalSubCh)
    (hlt : ∀ indexes ∈ avail, ∀ i ∈ indexes, i < totalSubCh)
    (h : randSelSbChStartFrom totalSubCh info assignedSbCh avail draws = .ok (starts, rest)) :
    starts.length = avail.length ∧ ∀ c ∈ starts, c < totalSubCh := by
  induction avail generalizing draws rest starts with
  | nil =>
    cases h
    exact ⟨rfl, by simp⟩
  | cons indexes avail ih =>
    obtain ⟨⟨start, draws₁⟩, hstart, h⟩ := bind_ok_iff.mp h
    obtain ⟨⟨starts', draws₂⟩, hrest, h⟩ := bind_ok_iff.mp h
    obtain ⟨rfl, -⟩ := Prod.mk.inj (pure_ok_iff.mp h)
    obtain ⟨hlen, hstarts⟩ := ih (fun x hx => hlt x (List.mem_cons_of_mem indexes hx)) hrest
    have hfirst : start < totalSubCh := by
      unfold startSbChOf at hstart
      split at hstart
      next =>
        have := drawInteger_ok (Nat.zero_le _) hstart
        omega
      next => exact hlt indexes List.mem_cons_self start (drawSbChStart_ok hstart)
    refine ⟨by rw [List.length_cons, hlen, List.length_cons], fun c hc => ?_⟩
    rcases List.mem_cons.mp hc with rfl | hc
    · exact hfirst
    · exact hstarts c hc

theorem randSelSbChStart_ok {totalSubCh assignedSbCh : Nat} {txOpps : List NrSlSlotInfo}
    {info : SbChInfo} {draws rest : Draws} {starts : List Nat}
    (hinfo : getAvailSbChInfo totalSubCh txOpps = .ok info) (hne : txOpps ≠ [])
    (h : randSelSbChStart totalSubCh info assignedSbCh draws = .ok (starts, rest)) :
    starts.length = txOpps.length ∧ ∀ c ∈ starts, c < totalSubCh := by
  obtain ⟨havail, _, hpos⟩ := getAvailSbChInfo_ok hinfo
  have hlt : ∀ indexes ∈ info.availSbChIndPerSlot, ∀ i ∈ indexes, i < totalSubCh := by
    intro indexes hin i hi
    rw [havail] at hin
    obtain ⟨it, _, rfl⟩ := List.mem_map.mp hin
    exact availSbCh_lt hi
  obtain ⟨hlen, hstarts⟩ := randSelSbChStartFrom_ok (hpos hne) hlt h
  exact ⟨by rw [hlen, havail, List.length_map], hstarts⟩

end SubChannels

end SidelinkORe
