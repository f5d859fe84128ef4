import SidelinkORe.AllocationSize

namespace SidelinkORe

namespace Uint8

/-- The do-while loop that counts a run with `uint8_t` variables; `at` throws past the end. -/
def countRun (indexes : List Nat) (j counter2 : UInt8) : Except Fault UInt8 :=
  if (j + 1).toNat = indexes.length then .ok (counter2 + 1)
  else if (j + 1).toNat = 0 then .error Fault.vectorIndexPastEnd
  else do
    let next ← orFault Fault.vectorIndexPastEnd indexes[(j + 1).toNat]?
    let last ← orFault Fault.vectorIndexPastEnd indexes[(j + 1).toNat - 1]?
    if next = last + 1 then countRun indexes (j + 1) (counter2 + 1) else pure (counter2 + 1)
termination_by 256 - j.toNat
decreasing_by
  have hj := j.toNat_lt
  have hsum := UInt8.toNat_add j 1
  simp only [UInt8.reduceToNat] at hsum
  omega

def longestRun (indexes : List Nat) : Except Fault UInt8 :=
  (List.range indexes.length).foldlM (fun counter i => do
    let counter2 ← countRun indexes (UInt8.ofNat i) 0
    pure (max counter counter2)) 0

structure SbChInfo where
  numSubCh : UInt8
  availSbChIndPerSlot : List (List Nat)

/-- The body of the loop over the selected slots. -/
def addSlot (totalSubCh : UInt8) (info : SbChInfo) (it : NrSlSlotInfo) : Except Fault SbChInfo := do
  let indexes := availSbCh totalSubCh.toNat it
  require (indexes ≠ []) Fault.noSubChannels
  let counter ← longestRun indexes
  pure ⟨min counter info.numSubCh, info.availSbChIndPerSlot ++ [indexes]⟩

def getAvailSbChInfo (totalSubCh : UInt8) (txOpps : List NrSlSlotInfo) : Except Fault SbChInfo :=
  txOpps.foldlM (addSlot totalSubCh) ⟨totalSubCh, []⟩

/-- The search for a run from position `i` on, which looks up the next subchannel by its value. -/
def acceptsStart (assignedSbCh : UInt8) (indexes : List Nat) (i : Nat) (sbChCounter : UInt8) : Bool :=
  if h : i < indexes.length then
    if sbChCounter + 1 = assignedSbCh then true
    else if indexes[i] + 1 ∉ indexes then false
    else acceptsStart assignedSbCh indexes (i + 1) (sbChCounter + 1)
  else false
termination_by indexes.length - i

def drawSbChStart (assignedSbCh : UInt8) (indexes : List Nat) : Draws → Except Fault (Nat × Draws)
  | [] => .error Fault.drawsExhausted
  | draw :: draws => do
    require (indexes ≠ []) Fault.noSubChannels
    let randIndex := getInteger 0 (indexes.length - 1) draw
    if acceptsStart assignedSbCh indexes randIndex 0 = true then do
      let start ← orFault Fault.vectorIndexPastEnd indexes[randIndex]?
      pure (start, draws)
    else drawSbChStart assignedSbCh indexes draws

/-- The start for one slot; the quick exit does not look at the slot's list. -/
def startSbChOf (totalSubCh minContgSbCh assignedSbCh : UInt8) (indexes : List Nat) (draws : Draws) :
    Except Fault (Nat × Draws) :=
  if minContgSbCh = totalSubCh ∧ assignedSbCh = 1 then drawInteger 0 (totalSubCh.toNat - 1) draws
  else drawSbChStart assignedSbCh indexes draws

def randSelSbChStartFrom (totalSubCh minContgSbCh assignedSbCh : UInt8) :
    List (List Nat) → Draws → Except Fault (List Nat × Draws)
  | [], draws => .ok ([], draws)
  | indexes :: avail, draws => do
    let (start, draws) ← startSbChOf totalSubCh minContgSbCh assignedSbCh indexes draws
    let (starts, draws) ← randSelSbChStartFrom totalSubCh minContgSbCh assignedSbCh avail draws
    pure (start :: starts, draws)

def randSelSbChStart (totalSubCh : UInt8) (info : SbChInfo) (assignedSbCh : UInt8) (draws : Draws) :
    Except Fault (List Nat × Draws) :=
  randSelSbChStartFrom totalSubCh info.numSubCh assignedSbCh info.availSbChIndPerSlot draws

section Runs

variable {indexes : List Nat} {i : Nat}

theorem contiguous_le_length (l : List Nat) : contiguous l ≤ l.length := by
  match l with
  | [] => exact le_rfl
  | [_] => exact le_rfl
  | i :: j :: rest =>
    have := contiguous_le_length (j :: rest)
    rw [contiguous]
    split
    · simp only [List.length_cons] at *
      omega
    · simp

theorem contiguous_of_mem {s : Nat} {rest : List Nat} (hl : (s :: rest).Pairwise (· < ·))
    (h : s + 1 ∈ rest) : contiguous (s :: rest) = contiguous rest + 1 := by
  cases rest with
  | nil => simp at h
  | cons t rest =>
    obtain ⟨hhead, htail⟩ := List.pairwise_cons.mp hl
    have hst := hhead t List.mem_cons_self
    have hts : t ≤ s + 1 := by
      rcases List.mem_cons.mp h with heq | hmem
      · exact heq.ge
      · exact ((List.pairwise_cons.mp htail).1 _ hmem).le
    rw [contiguous, if_pos (by omega)]

theorem contiguous_of_notMem {s : Nat} {rest : List Nat} (h : s + 1 ∉ rest) :
    contiguous (s :: rest) = 1 := by
  cases rest with
  | nil => rfl
  | cons t rest =>
    rw [contiguous, if_neg]
    rintro rfl
    exact h List.mem_cons_self

theorem toNat_succ {j : UInt8} (h : j.toNat < 255) : (j + 1).toNat = j.toNat + 1 := by
  have hsum := UInt8.toNat_add j 1
  simp only [UInt8.reduceToNat] at hsum
  omega

theorem countRun_ok (hlen : indexes.length < 256) {j counter2 : UInt8}
    (hj : j.toNat < indexes.length) :
    countRun indexes j counter2 =
      .ok (counter2 + UInt8.ofNat (contiguous (indexes.drop j.toNat))) := by
  have hnext := toNat_succ (show j.toNat < 255 by omega)
  rw [countRun, hnext, List.drop_eq_getElem_cons hj]
  by_cases hlast : j.toNat + 1 = indexes.length
  · rw [if_pos hlast, List.drop_eq_nil_of_le hlast.ge]
    rfl
  · have hlt : j.toNat + 1 < indexes.length := by omega
    rw [if_neg hlast, if_neg (by omega), List.getElem?_eq_getElem hlt, Nat.add_sub_cancel,
      List.getElem?_eq_getElem hj, List.drop_eq_getElem_cons hlt, contiguous]
    change (if indexes[j.toNat + 1] = indexes[j.toNat] + 1 then countRun indexes (j + 1) (counter2 + 1)
      else pure (counter2 + 1)) = _
    split
    next =>
      have ih : countRun indexes (j + 1) (counter2 + 1) =
          .ok (counter2 + 1 + UInt8.ofNat (contiguous (indexes.drop (j + 1).toNat))) :=
        countRun_ok hlen (by omega)
      rw [ih, hnext, ← List.drop_eq_getElem_cons hlt, UInt8.ofNat_add]
      congr 1
      ac_rfl
    next => rfl
termination_by indexes.length - j.toNat

theorem toNat_ofNat {n : Nat} (h : n < 256) : (UInt8.ofNat n).toNat = n :=
  UInt8.toNat_ofNat_of_lt' h

theorem toNat_max (a b : UInt8) : (max a b).toNat = max a.toNat b.toNat := by
  change (if a ≤ b then b else a).toNat = _
  simp only [UInt8.le_iff_toNat_le]
  split <;> omega

theorem toNat_min (a b : UInt8) : (min a b).toNat = min a.toNat b.toNat := by
  change (if a ≤ b then a else b).toNat = _
  simp only [UInt8.le_iff_toNat_le]
  split <;> omega

theorem longestRun_ok (hlen : indexes.length < 256) : ∃ counter, longestRun indexes = .ok counter ∧
    counter.toNat =
      (List.range indexes.length).foldl (fun c i => max c (contiguous (indexes.drop i))) 0 := by
  apply foldlM_follows
  · intro counter c i hi hc
    have hlt := List.mem_range.mp hi
    have hpos : (UInt8.ofNat i).toNat = i := toNat_ofNat (by omega)
    have hrun := contiguous_le_length (indexes.drop i)
    rw [List.length_drop] at hrun
    refine ⟨_, bind_ok_iff.mpr ⟨_, countRun_ok hlen (hpos.symm ▸ hlt), rfl⟩, ?_⟩
    rw [hpos, UInt8.zero_add, toNat_max, hc, toNat_ofNat (by omega)]
  · rfl

theorem availSbCh_short (totalSubCh : UInt8) (it : NrSlSlotInfo) :
    (availSbCh totalSubCh.toNat it).length < 256 := by
  have hbound := totalSubCh.toNat_lt
  have hnodup : (availSbCh totalSubCh.toNat it).Nodup :=
    (availSbCh_rising totalSubCh.toNat it).imp Nat.ne_of_lt
  have hsub : availSbCh totalSubCh.toNat it ⊆ List.range totalSubCh.toNat :=
    fun i hi => List.mem_range.mpr (availSbCh_lt hi)
  have hle := hnodup.length_le_of_subset hsub
  rw [List.length_range] at hle
  omega

theorem addSlot_ok {totalSubCh : UInt8} (hpos : 0 < totalSubCh.toNat) (info : SbChInfo)
    (it : NrSlSlotInfo) : ∃ info', addSlot totalSubCh info it = .ok info' ∧
      info'.numSubCh.toNat = min ((List.range (availSbCh totalSubCh.toNat it).length).foldl
        (fun c i => max c (contiguous ((availSbCh totalSubCh.toNat it).drop i))) 0)
          info.numSubCh.toNat ∧
      info'.availSbChIndPerSlot = info.availSbChIndPerSlot ++ [availSbCh totalSubCh.toNat it] := by
  obtain ⟨counter, hcounter, hvalue⟩ := longestRun_ok (availSbCh_short totalSubCh it)
  refine ⟨⟨min counter info.numSubCh, info.availSbChIndPerSlot ++ [availSbCh totalSubCh.toNat it]⟩,
    ?_, ?_, rfl⟩
  · exact bind_ok_iff.mpr ⟨(), require_ok_iff.mpr (availSbCh_ne_nil hpos),
      bind_ok_iff.mpr ⟨counter, hcounter, rfl⟩⟩
  · rw [toNat_min, hvalue]

theorem addSlots_ok {totalSubCh : UInt8} (hpos : 0 < totalSubCh.toNat) (txOpps : List NrSlSlotInfo)
    (info : SbChInfo) : ∃ info', txOpps.foldlM (addSlot totalSubCh) info = .ok info' ∧
      info'.numSubCh.toNat = (txOpps.map (availSbCh totalSubCh.toNat)).foldl
        (fun numSubCh indexes => min
          ((List.range indexes.length).foldl (fun c i => max c (contiguous (indexes.drop i))) 0)
          numSubCh) info.numSubCh.toNat ∧
      info'.availSbChIndPerSlot =
        info.availSbChIndPerSlot ++ txOpps.map (availSbCh totalSubCh.toNat) := by
  induction txOpps generalizing info with
  | nil => exact ⟨info, rfl, rfl, (List.append_nil _).symm⟩
  | cons it txOpps ih =>
    obtain ⟨info₁, hadd, hnum₁, havail₁⟩ := addSlot_ok hpos info it
    obtain ⟨info', hrest, hnum, havail⟩ := ih info₁
    refine ⟨info', foldlM_cons_ok_iff.mpr ⟨info₁, hadd, hrest⟩, ?_, ?_⟩
    · rw [hnum, hnum₁, List.map_cons, List.foldl_cons]
    · rw [havail, havail₁, List.map_cons, List.append_assoc, List.singleton_append]

theorem getAvailSbChInfo_ok {totalSubCh : UInt8} (hpos : 0 < totalSubCh.toNat)
    (txOpps : List NrSlSlotInfo) : ∃ info, getAvailSbChInfo totalSubCh txOpps = .ok info ∧
      SidelinkORe.getAvailSbChInfo totalSubCh.toNat txOpps =
        .ok ⟨info.numSubCh.toNat, info.availSbChIndPerSlot⟩ := by
  obtain ⟨info, hinfo, hnum, havail⟩ := addSlots_ok hpos txOpps ⟨totalSubCh, []⟩
  refine ⟨info, hinfo, ?_⟩
  have hall : ∀ indexes ∈ txOpps.map (availSbCh totalSubCh.toNat), indexes ≠ [] := by
    intro indexes hin
    obtain ⟨it, _, rfl⟩ := List.mem_map.mp hin
    exact availSbCh_ne_nil hpos
  refine bind_ok_iff.mpr ⟨(), require_ok_iff.mpr hall, ?_⟩
  rw [hnum, havail, List.nil_append]
  rfl

end Runs

section Starts

variable {indexes : List Nat} {assignedSbCh : UInt8}

theorem acceptsStart_iff (hl : indexes.Pairwise (· < ·)) (hlen : indexes.length < 256)
    {i : Nat} (hi : i < indexes.length) {sbChCounter : UInt8} (hcount : sbChCounter < assignedSbCh) :
    acceptsStart assignedSbCh indexes i sbChCounter = true ↔
      assignedSbCh.toNat ≤ sbChCounter.toNat + contiguous (indexes.drop i) := by
  have hlt := UInt8.lt_iff_toNat_lt.mp hcount
  have hbound := assignedSbCh.toNat_lt
  have hsucc := toNat_succ (show sbChCounter.toNat < 255 by omega)
  have hdrop : (indexes[i] :: indexes.drop (i + 1)).Pairwise (· < ·) := by
    rw [← List.drop_eq_getElem_cons hi]
    exact hl.sublist (List.drop_sublist i indexes)
  have hpos : 1 ≤ contiguous (indexes.drop i) := by
    rw [List.drop_eq_getElem_cons hi, le_contiguous_iff hdrop]
    intro j hj
    obtain rfl : j = 0 := by omega
    exact List.mem_cons_self
  rw [acceptsStart, dif_pos hi]
  split
  next hfound =>
    have htoNat := congrArg UInt8.toNat hfound
    simp only [true_iff]
    omega
  next hmore =>
    have hne : sbChCounter.toNat + 1 ≠ assignedSbCh.toNat := by
      rw [← hsucc]
      exact fun h => hmore (UInt8.toNat_inj.mp h)
    split
    next hend =>
      have hnotMem : indexes[i] + 1 ∉ indexes.drop (i + 1) := fun h => hend (List.mem_of_mem_drop h)
      rw [List.drop_eq_getElem_cons hi, contiguous_of_notMem hnotMem]
      simp only [Bool.false_eq_true, false_iff]
      omega
    next hnext =>
      have hin := Decidable.not_not.mp hnext
      have hmem : indexes[i] + 1 ∈ indexes.drop i :=
        mem_drop_of_le hl (List.getElem?_eq_getElem hi) hin (Nat.le_succ _)
      rw [List.drop_eq_getElem_cons hi] at hmem
      have htail := (List.mem_cons.mp hmem).resolve_left (by omega)
      have hi' : i + 1 < indexes.length := by
        by_contra hge
        rw [List.drop_eq_nil_of_le (by omega)] at htail
        simp at htail
      rw [acceptsStart_iff hl hlen hi' (UInt8.lt_iff_toNat_lt.mpr (by omega)), hsucc,
        List.drop_eq_getElem_cons hi, contiguous_of_mem hdrop htail]
      omega
termination_by indexes.length - i

theorem drawSbChStart_eq (hl : indexes.Pairwise (· < ·)) (hlen : indexes.length < 256)
    (hne : indexes ≠ []) (hpos : 0 < assignedSbCh) (draws : Draws) :
    drawSbChStart assignedSbCh indexes draws =
      SidelinkORe.drawSbChStart assignedSbCh.toNat indexes draws := by
  induction draws with
  | nil => rfl
  | cons draw draws ih =>
    have hi := getInteger_lt (List.length_pos_of_ne_nil hne) draw
    have haccepts := acceptsStart_iff hl hlen hi hpos
    rw [UInt8.toNat_zero, Nat.zero_add] at haccepts
    rw [drawSbChStart, SidelinkORe.drawSbChStart, List.drop_eq_getElem_cons hi]
    rw [List.drop_eq_getElem_cons hi] at haccepts
    have hchecked : require (indexes ≠ []) Fault.noSubChannels = .ok () := require_ok_iff.mpr hne
    refine (bind_of_ok hchecked).trans ?_
    dsimp only
    by_cases hrun : assignedSbCh.toNat ≤ contiguous
        (indexes[getInteger 0 (indexes.length - 1) draw] ::
          indexes.drop (getInteger 0 (indexes.length - 1) draw + 1))
    · rw [if_pos (haccepts.mpr hrun), if_pos hrun, List.getElem?_eq_getElem hi]
      rfl
    · rw [if_neg (mt haccepts.mp hrun), if_neg hrun, ih]

theorem startSbChOf_eq {totalSubCh : UInt8} (info : SbChInfo) (hl : indexes.Pairwise (· < ·))
    (hlen : indexes.length < 256) (hne : indexes ≠ []) (hpos : 0 < assignedSbCh) (draws : Draws) :
    startSbChOf totalSubCh info.numSubCh assignedSbCh indexes draws =
      SidelinkORe.startSbChOf totalSubCh.toNat ⟨info.numSubCh.toNat, info.availSbChIndPerSlot⟩
        assignedSbCh.toNat indexes draws := by
  unfold startSbChOf SidelinkORe.startSbChOf
  rw [drawSbChStart_eq hl hlen hne hpos]
  simp only [UInt8.toNat_inj, ← UInt8.toNat_inj (b := 1), UInt8.toNat_one]

theorem randSelSbChStartFrom_eq {totalSubCh : UInt8} (info : SbChInfo) (hpos : 0 < assignedSbCh)
    {avail : List (List Nat)} (havail : ∀ indexes ∈ avail,
      indexes.Pairwise (· < ·) ∧ indexes.length < 256 ∧ indexes ≠ []) (draws : Draws) :
    randSelSbChStartFrom totalSubCh info.numSubCh assignedSbCh avail draws =
      SidelinkORe.randSelSbChStartFrom totalSubCh.toNat
        ⟨info.numSubCh.toNat, info.availSbChIndPerSlot⟩ assignedSbCh.toNat avail draws := by
  induction avail generalizing draws with
  | nil => rfl
  | cons indexes avail ih =>
    obtain ⟨hl, hlen, hne⟩ := havail indexes List.mem_cons_self
    have hrest := ih fun x hx => havail x (List.mem_cons_of_mem indexes hx)
    rw [randSelSbChStartFrom, SidelinkORe.randSelSbChStartFrom, startSbChOf_eq info hl hlen hne hpos]
    simp only [hrest]

end Starts

end Uint8

end SidelinkORe
