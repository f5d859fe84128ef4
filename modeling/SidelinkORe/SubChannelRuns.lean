import SidelinkORe.SubChannelLoops
import Mathlib.Order.Bounds.Basic

namespace SidelinkORe

section Assignment

/-- A subchannel that may be used: a free one, or any when the slot has no free one. -/
def Available (totalSubCh : Nat) (it : NrSlSlotInfo) (c : Nat) : Prop :=
  c < totalSubCh ∧ (c ∉ it.occupiedSbCh ∨ ∀ d < totalSubCh, d ∈ it.occupiedSbCh)

def AvailableFrom (totalSubCh : Nat) (it : NrSlSlotInfo) (n start : Nat) : Prop :=
  ∀ j < n, Available totalSubCh it (start + j)

def LongestRun (totalSubCh : Nat) (it : NrSlSlotInfo) (n : Nat) : Prop :=
  IsGreatest {m | ∃ start, AvailableFrom totalSubCh it m start} n

/-- The size that the do-while loop settles; `bufferSize + 5` is computed with 32 bits. -/
def sizedSbCh (bufferSize : UInt32) (tbSize : Nat → UInt32) (numSubCh : UInt8) : UInt8 :=
  UInt8.ofNat (sizeAllocation (fun n => (tbSize n).toNat) (bufferSize + 5).toNat
    (numSubCh.toNat - 1) 1).1

/-- A size that all slots have room for, with starts at which they do. -/
structure AssignsRuns (totalSubCh : UInt8) (selected : List NrSlSlotInfo) (bufferSize : UInt32)
    (tbSize : Nat → UInt32) (info : Uint8.SbChInfo) (assignedSbCh : UInt8) : Prop where
  numSubCh : IsLeast {n | ∃ it ∈ selected, LongestRun totalSubCh.toNat it n} info.numSubCh.toNat
  size_pos : 1 ≤ assignedSbCh.toNat
  size_le : assignedSbCh.toNat ≤ info.numSubCh.toNat
  size_least : (bufferSize.toNat + 5 ≤ (tbSize assignedSbCh.toNat).toNat ∧
    ∀ n, 1 ≤ n → n < assignedSbCh.toNat → (tbSize n).toNat < bufferSize.toNat + 5) ∨
      assignedSbCh.toNat = info.numSubCh.toNat
  acceptable : ∀ it ∈ selected, ∃ draw start, Uint8.startSbChOf totalSubCh info.numSubCh
    assignedSbCh (availSbCh totalSubCh.toNat it) [draw] = .ok (start, [])
  starts : ∀ draws starts rest,
    Uint8.randSelSbChStart totalSubCh info assignedSbCh draws = .ok (starts, rest) →
      List.Forall₂ (fun it start => AvailableFrom totalSubCh.toNat it assignedSbCh.toNat start)
        selected starts

def AssignsSubChannels (totalSubCh : UInt8) (selected : List NrSlSlotInfo) (bufferSize : UInt32)
    (tbSize : Nat → UInt32) : Prop :=
  ∃ info, Uint8.getAvailSbChInfo totalSubCh selected = .ok info ∧
    AssignsRuns totalSubCh selected bufferSize tbSize info
      (sizedSbCh bufferSize tbSize info.numSubCh)

/-- The size that is needed does not wrap, or no block smaller than the largest one reaches what
wrapping leaves of it. -/
def SizeUnwrapped (totalSubCh : UInt8) (selected : List NrSlSlotInfo) (bufferSize : UInt32)
    (tbSize : Nat → UInt32) : Prop :=
  bufferSize.toNat + 5 < 2 ^ 32 ∨ ∀ n, 1 ≤ n →
    (∀ it ∈ selected, ∃ start, AvailableFrom totalSubCh.toNat it (n + 1) start) →
      (tbSize n).toNat + 2 ^ 32 < bufferSize.toNat + 5

variable {totalSubCh n c : Nat} {it : NrSlSlotInfo} {selected : List NrSlSlotInfo}

theorem mem_availSbCh_iff : c ∈ availSbCh totalSubCh it ↔ Available totalSubCh it c := by
  have hfilter : ∀ d, d ∈ (List.range totalSubCh).filter (fun i => i ∉ it.occupiedSbCh) ↔
      d < totalSubCh ∧ d ∉ it.occupiedSbCh := by
    intro d
    rw [List.mem_filter, List.mem_range, decide_eq_true_iff]
  unfold availSbCh Available
  dsimp only
  split
  next hnil =>
    have hfull : ∀ d < totalSubCh, d ∈ it.occupiedSbCh := by
      intro d hd
      by_contra hfree
      have hmem := (hfilter d).mpr ⟨hd, hfree⟩
      rw [hnil] at hmem
      simp at hmem
    rw [List.mem_range]
    exact ⟨fun hc => ⟨hc, Or.inr hfull⟩, fun h => h.1⟩
  next hsome =>
    rw [hfilter]
    refine and_congr_right fun _ => ⟨Or.inl, fun h => h.resolve_right fun hfull => ?_⟩
    obtain ⟨d, hd⟩ := List.exists_mem_of_ne_nil _ hsome
    obtain ⟨hlt, hfree⟩ := (hfilter d).mp hd
    exact hfree (hfull d hlt)

theorem freeRun_iff : FreeRun totalSubCh it n ↔ ∃ start, AvailableFrom totalSubCh it n start := by
  unfold FreeRun AvailableFrom
  simp only [mem_availSbCh_iff]

theorem FreeRun.shorter {m : Nat} (h : FreeRun totalSubCh it n) (hm : m ≤ n) :
    FreeRun totalSubCh it m := by
  obtain ⟨start, hrun⟩ := h
  exact ⟨start, fun j hj => hrun j (by omega)⟩

theorem le_numSubCh_iff {info : SbChInfo} (hne : selected ≠ [])
    (h : getAvailSbChInfo totalSubCh selected = .ok info) :
    n ≤ info.numSubCh ↔ ∀ it ∈ selected, FreeRun totalSubCh it n := by
  cases n with
  | zero => exact ⟨fun _ it _ => ⟨0, fun j hj => absurd hj (Nat.not_lt_zero j)⟩, fun _ => Nat.zero_le _⟩
  | succ n =>
    rw [Nat.succ_le_iff, ← Nat.not_le, numSubCh_le_iff h, not_or, not_exists]
    simp only [not_and, not_not]
    refine ⟨fun h => h.2, fun hall => ⟨fun hle => ?_, hall⟩⟩
    obtain ⟨it, hit⟩ := List.exists_mem_of_ne_nil _ hne
    exact not_freeRun (by omega) (hall it hit)

theorem numSubCh_isLeast {info : SbChInfo} (hne : selected ≠ [])
    (h : getAvailSbChInfo totalSubCh selected = .ok info) :
    IsLeast {n | ∃ it ∈ selected, LongestRun totalSubCh it n} info.numSubCh := by
  have hall := (le_numSubCh_iff hne h).mp le_rfl
  constructor
  · have hmore : ¬∀ it ∈ selected, FreeRun totalSubCh it (info.numSubCh + 1) := by
      rw [← le_numSubCh_iff hne h]
      omega
    obtain ⟨it, hit, hshort⟩ := by simpa only [not_forall, exists_prop] using hmore
    refine ⟨it, hit, freeRun_iff.mp (hall it hit), fun m hm => ?_⟩
    by_contra hlt
    exact hshort ((freeRun_iff.mpr hm).shorter (by omega))
  · rintro n ⟨it, hit, hlongest⟩
    exact hlongest.2 (freeRun_iff.mp (hall it hit))

/-- The size is at most `n` only when a size up to `n` is enough or the slots have no more. -/
theorem size_least_of_lt {tbSize : Nat → Nat} {needed left : Nat} (hn : 1 ≤ n)
    (h : n < (sizeAllocation tbSize needed left 1).1) : tbSize n < needed := by
  by_contra hfits
  have hle := (sizeAllocation_le_iff tbSize needed left hn).mpr
    (Or.inr ⟨n, hn, le_rfl, Nat.not_lt.mp hfits⟩)
  omega

theorem size_fits_of_lt {tbSize : Nat → Nat} {needed left : Nat}
    (h : (sizeAllocation tbSize needed left 1).1 < 1 + left) :
    needed ≤ tbSize (sizeAllocation tbSize needed left 1).1 := by
  have hpos := (sizeAllocation_bounds tbSize needed left 1).1
  rcases (sizeAllocation_le_iff tbSize needed left hpos).mp le_rfl with hend | ⟨n, hn, hle, hfits⟩
  · omega
  · rcases Nat.lt_or_eq_of_le hle with hlt | heq
    · have := size_least_of_lt hn hlt
      omega
    · rw [← heq]
      exact hfits

theorem drawSbChStart_run {assignedSbCh start : Nat} {indexes : List Nat} {draws rest : Draws}
    (hl : indexes.Pairwise (· < ·))
    (h : drawSbChStart assignedSbCh indexes draws = .ok (start, rest)) :
    ∀ j < assignedSbCh, start + j ∈ indexes := by
  induction draws with
  | nil => cases h
  | cons draw draws ih =>
    unfold drawSbChStart at h
    dsimp only at h
    split at h
    next => cases h
    next first others hdrop =>
      split at h
      next hrun =>
        cases h
        have hrising := hl.sublist
          (List.drop_sublist (getInteger 0 (indexes.length - 1) draw) indexes)
        rw [hdrop] at hrising
        intro j hj
        have hmem := (le_contiguous_iff hrising).mp hrun j hj
        exact List.mem_of_mem_drop (hdrop ▸ hmem)
      next => exact ih h

theorem startSbChOf_run {info : SbChInfo} {assignedSbCh start : Nat} {draws rest : Draws}
    (hpos : 0 < totalSubCh) (hroom : FreeRun totalSubCh it info.numSubCh)
    (h : startSbChOf totalSubCh info assignedSbCh (availSbCh totalSubCh it) draws =
      .ok (start, rest)) : AvailableFrom totalSubCh it assignedSbCh start := by
  unfold startSbChOf at h
  split at h
  next hexit =>
    obtain ⟨hall, rfl⟩ := hexit
    obtain ⟨s, hs⟩ := hroom
    rw [hall] at hs
    have hstart := drawInteger_ok (Nat.zero_le _) h
    have hlast := availSbCh_lt (hs (totalSubCh - 1) (by omega))
    have hzero : s = 0 := by omega
    intro j hj
    obtain rfl : j = 0 := by omega
    have hmem := hs start (by omega)
    rw [hzero, Nat.zero_add] at hmem
    exact mem_availSbCh_iff.mp hmem
  next =>
    intro j hj
    exact mem_availSbCh_iff.mp (drawSbChStart_run (availSbCh_rising totalSubCh it) h j hj)

theorem randSelSbChStartFrom_run {info : SbChInfo} {assignedSbCh : Nat} {draws rest : Draws}
    {starts : List Nat} (hpos : 0 < totalSubCh)
    (hroom : ∀ it ∈ selected, FreeRun totalSubCh it info.numSubCh)
    (h : randSelSbChStartFrom totalSubCh info assignedSbCh
      (selected.map (availSbCh totalSubCh)) draws = .ok (starts, rest)) :
    List.Forall₂ (fun it start => AvailableFrom totalSubCh it assignedSbCh start)
      selected starts := by
  induction selected generalizing draws rest starts with
  | nil =>
    cases h
    exact .nil
  | cons it selected ih =>
    obtain ⟨⟨start, draws₁⟩, hstart, h⟩ := bind_ok_iff.mp h
    obtain ⟨⟨starts', draws₂⟩, hrest, h⟩ := bind_ok_iff.mp h
    obtain ⟨rfl, -⟩ := Prod.mk.inj (pure_ok_iff.mp h)
    exact .cons (startSbChOf_run hpos (hroom it List.mem_cons_self) hstart)
      (ih (fun x hx => hroom x (List.mem_cons_of_mem it hx)) hrest)

theorem startSbChOf_exists {info : SbChInfo} {assignedSbCh : Nat} (hpos : 1 ≤ assignedSbCh)
    (hroom : FreeRun totalSubCh it assignedSbCh) : ∃ draw start,
      startSbChOf totalSubCh info assignedSbCh (availSbCh totalSubCh it) [draw] = .ok (start, []) := by
  unfold startSbChOf
  split
  next => exact ⟨0, _, rfl⟩
  next =>
    obtain ⟨i, hi, hrun⟩ := (exists_run_iff (availSbCh_rising totalSubCh it) hpos).mpr hroom
    refine ⟨i, (availSbCh totalSubCh it)[i], ?_⟩
    rw [List.drop_eq_getElem_cons hi] at hrun
    rw [drawSbChStart, getInteger_index hi, List.drop_eq_getElem_cons hi]
    exact if_pos hrun

end Assignment

section Contract

variable {totalSubCh : UInt8} {selected : List NrSlSlotInfo} {bufferSize : UInt32}
  {tbSize : Nat → UInt32} {info : Uint8.SbChInfo}

theorem sizedSbCh_toNat (hpos : 1 ≤ info.numSubCh.toNat) :
    (sizedSbCh bufferSize tbSize info.numSubCh).toNat =
      (sizeAllocation (fun n => (tbSize n).toNat) (bufferSize + 5).toNat
        (info.numSubCh.toNat - 1) 1).1 := by
  have hbound := info.numSubCh.toNat_lt
  have hsize := (sizeAllocation_bounds (fun n => (tbSize n).toNat) (bufferSize + 5).toNat
    (info.numSubCh.toNat - 1) 1).2
  exact Uint8.toNat_ofNat (by omega)

/-- The size is the least one that is enough, unless what is needed wraps. -/
theorem size_least_iff (hpos : 1 ≤ info.numSubCh.toNat)
    (hnum : ∀ n, n ≤ info.numSubCh.toNat ↔
      ∀ it ∈ selected, ∃ start, AvailableFrom totalSubCh.toNat it n start) :
    ((bufferSize.toNat + 5 ≤ (tbSize (sizedSbCh bufferSize tbSize info.numSubCh).toNat).toNat ∧
      ∀ n, 1 ≤ n → n < (sizedSbCh bufferSize tbSize info.numSubCh).toNat →
        (tbSize n).toNat < bufferSize.toNat + 5) ∨
      (sizedSbCh bufferSize tbSize info.numSubCh).toNat = info.numSubCh.toNat) ↔
    SizeUnwrapped totalSubCh selected bufferSize tbSize := by
  have hbuffer := bufferSize.toNat_lt
  have hneeded : (bufferSize + 5).toNat = (bufferSize.toNat + 5) % 2 ^ 32 :=
    UInt32.toNat_add bufferSize 5
  have hbounds := sizeAllocation_bounds (fun n => (tbSize n).toNat) (bufferSize + 5).toNat
    (info.numSubCh.toNat - 1) 1
  have hleast : ∀ n, 1 ≤ n → n < (sizeAllocation (fun n => (tbSize n).toNat)
      (bufferSize + 5).toNat (info.numSubCh.toNat - 1) 1).1 →
        (tbSize n).toNat < (bufferSize + 5).toNat := fun n hn h => size_least_of_lt hn h
  have hfits : (sizeAllocation (fun n => (tbSize n).toNat) (bufferSize + 5).toNat
      (info.numSubCh.toNat - 1) 1).1 < 1 + (info.numSubCh.toNat - 1) → _ := size_fits_of_lt
  rw [sizedSbCh_toNat hpos]
  generalize (sizeAllocation (fun n => (tbSize n).toNat) (bufferSize + 5).toNat
    (info.numSubCh.toNat - 1) 1).1 = size at *
  unfold SizeUnwrapped
  simp only [← hnum]
  constructor
  · rintro (⟨hfit, _⟩ | hall)
    · have := (tbSize size).toNat_lt
      omega
    · by_cases hwrap : bufferSize.toNat + 5 < 2 ^ 32
      · exact Or.inl hwrap
      · refine Or.inr fun n hn hroom => ?_
        have := hleast n hn (by omega)
        omega
  · rintro (hexact | hwrapped)
    · rw [hneeded, Nat.mod_eq_of_lt hexact] at hleast hfits
      by_cases hall : size = info.numSubCh.toNat
      · exact Or.inr hall
      · exact Or.inl ⟨hfits (by omega), hleast⟩
    · refine Or.inr ?_
      by_contra hless
      have hfit := hfits (by omega)
      have := hwrapped size hbounds.1 (by omega)
      omega

theorem assignsRuns_of_info (hpos : 0 < totalSubCh.toNat) (hne : selected ≠ [])
    (hspec : getAvailSbChInfo totalSubCh.toNat selected =
      .ok ⟨info.numSubCh.toNat, info.availSbChIndPerSlot⟩) {assignedSbCh : UInt8}
    (hsize : 1 ≤ assignedSbCh.toNat) (hle : assignedSbCh.toNat ≤ info.numSubCh.toNat)
    (hleast : (bufferSize.toNat + 5 ≤ (tbSize assignedSbCh.toNat).toNat ∧
      ∀ n, 1 ≤ n → n < assignedSbCh.toNat → (tbSize n).toNat < bufferSize.toNat + 5) ∨
        assignedSbCh.toNat = info.numSubCh.toNat) :
    AssignsRuns totalSubCh selected bufferSize tbSize info assignedSbCh where
  numSubCh := numSubCh_isLeast hne hspec
  size_pos := hsize
  size_le := hle
  size_least := hleast
  acceptable := by
    intro it hit
    have hroom := (le_numSubCh_iff hne hspec).mp le_rfl it hit
    have hstart : ∀ draws, Uint8.startSbChOf totalSubCh info.numSubCh assignedSbCh
        (availSbCh totalSubCh.toNat it) draws = startSbChOf totalSubCh.toNat
          ⟨info.numSubCh.toNat, info.availSbChIndPerSlot⟩ assignedSbCh.toNat
            (availSbCh totalSubCh.toNat it) draws :=
      Uint8.startSbChOf_eq info (availSbCh_rising totalSubCh.toNat it)
        (Uint8.availSbCh_short totalSubCh it) (availSbCh_ne_nil hpos)
        (UInt8.lt_iff_toNat_lt.mpr hsize)
    simp only [hstart]
    exact startSbChOf_exists hsize (hroom.shorter hle)
  starts := by
    intro draws starts rest h
    have havail : info.availSbChIndPerSlot = selected.map (availSbCh totalSubCh.toNat) :=
      (getAvailSbChInfo_ok hspec).1
    have hlists : ∀ indexes ∈ selected.map (availSbCh totalSubCh.toNat),
        indexes.Pairwise (· < ·) ∧ indexes.length < 256 ∧ indexes ≠ [] := by
      intro indexes hin
      obtain ⟨it, _, rfl⟩ := List.mem_map.mp hin
      exact ⟨availSbCh_rising totalSubCh.toNat it, Uint8.availSbCh_short totalSubCh it,
        availSbCh_ne_nil hpos⟩
    unfold Uint8.randSelSbChStart at h
    rw [havail, Uint8.randSelSbChStartFrom_eq info (UInt8.lt_iff_toNat_lt.mpr hsize) hlists] at h
    exact randSelSbChStartFrom_run hpos ((le_numSubCh_iff hne hspec).mp le_rfl) h

/-- The branches that draw their slots assign sizes and starts as described exactly when the size
that is needed does not wrap. -/
theorem assignsSubChannels_iff (hpos : 0 < totalSubCh) (hne : selected ≠ []) :
    AssignsSubChannels totalSubCh selected bufferSize tbSize ↔
      SizeUnwrapped totalSubCh selected bufferSize tbSize := by
  have htotal : 0 < totalSubCh.toNat := UInt8.lt_iff_toNat_lt.mp hpos
  obtain ⟨info, hinfo, hspec⟩ := Uint8.getAvailSbChInfo_ok htotal selected
  have hruns : ∀ n, n ≤ info.numSubCh.toNat ↔ ∀ it ∈ selected, FreeRun totalSubCh.toNat it n :=
    fun n => le_numSubCh_iff hne hspec
  have hnum : ∀ n, n ≤ info.numSubCh.toNat ↔
      ∀ it ∈ selected, ∃ start, AvailableFrom totalSubCh.toNat it n start := by
    intro n
    simp only [hruns, freeRun_iff]
  have hsome : 1 ≤ info.numSubCh.toNat := by
    refine (hruns 1).mpr fun it _ => ?_
    obtain ⟨c, hc⟩ := List.exists_mem_of_ne_nil (availSbCh totalSubCh.toNat it)
      (availSbCh_ne_nil htotal)
    refine ⟨c, fun j hj => ?_⟩
    obtain rfl : j = 0 := by omega
    exact hc
  have hbounds := sizeAllocation_bounds (fun n => (tbSize n).toNat) (bufferSize + 5).toNat
    (info.numSubCh.toNat - 1) 1
  rw [← sizedSbCh_toNat hsome] at hbounds
  rw [← size_least_iff hsome hnum]
  constructor
  · rintro ⟨info', hinfo', h⟩
    cases Except.ok.inj (hinfo.symm.trans hinfo')
    exact h.size_least
  · intro hleast
    exact ⟨info, hinfo, assignsRuns_of_info htotal hne hspec hbounds.1 (by omega) hleast⟩

/-- Two free subchannels of three in one slot, for a buffer of 100 bytes. -/
theorem assignsSubChannels_iff_pair :
    AssignsSubChannels 3 [{ shape := {}, sfn := 4, occupiedSbCh := {0} }] 100
      (fun n => 90 * n.toUInt32) :=
  (assignsSubChannels_iff (by decide) (List.cons_ne_nil _ _)).mpr (Or.inl (by decide))

/-- A full 32-bit buffer needs 4 bytes after the sum has wrapped, and one subchannel is enough. -/
theorem assignsSubChannels_fails_fullBuffer :
    ¬∀ (totalSubCh : UInt8) (selected : List NrSlSlotInfo) (bufferSize : UInt32)
      (tbSize : Nat → UInt32), 0 < totalSubCh → selected ≠ [] →
        AssignsSubChannels totalSubCh selected bufferSize tbSize := by
  intro claimed
  obtain ⟨info, hinfo, h⟩ := claimed 2 [{ shape := {}, sfn := 4, occupiedSbCh := ∅ }] 0xFFFFFFFF
    (fun n => 90 * n.toUInt32) (by decide) (List.cons_ne_nil _ _)
  have htwoPos : 0 < UInt8.toNat 2 := by decide
  obtain ⟨info', hinfo', hspec⟩ :=
    Uint8.getAvailSbChInfo_ok htwoPos [{ shape := {}, sfn := 4, occupiedSbCh := ∅ }]
  cases Except.ok.inj (hinfo.symm.trans hinfo')
  have htwo : getAvailSbChInfo 2 [{ shape := {}, sfn := 4, occupiedSbCh := ∅ }] =
      .ok ⟨2, [[0, 1]]⟩ := by rfl
  have hnum : info.numSubCh = 2 :=
    UInt8.toNat_inj.mp (SbChInfo.mk.inj (Except.ok.inj (hspec.symm.trans htwo))).1
  have hone : (sizedSbCh 0xFFFFFFFF (fun n => 90 * n.toUInt32) 2).toNat = 1 := by decide
  have hleast := h.size_least
  rw [hnum, hone] at hleast
  exact absurd hleast (by decide)

end Contract

end SidelinkORe
