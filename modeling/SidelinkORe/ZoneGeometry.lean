import SidelinkORe.PythonLoop
import Mathlib.Algebra.Order.Floor.Semiring
import Mathlib.Data.Rat.Floor

namespace SidelinkORe

/-- Two lanes of UEs at a distance `dV`, and square zones of size `dZ`. -/
structure Highway where
  numUe : Nat
  numUe_even : numUe % 2 = 0
  dV : ℚ
  dV_pos : 0 < dV
  dZ : ℚ
  dZ_pos : 0 < dZ

def numLanes : Nat := 2

def dL : ℚ := 4

/-- The corner at which the grid of the zones starts. -/
def zoneStart : ℚ × ℚ := (-5 / 2, -3)

/-- Python's `int`, which drops the fraction. -/
def truncate (q : ℚ) : Int := q.num.tdiv q.den

namespace Highway

variable (h : Highway)

def numUePerLane : Nat := h.numUe / numLanes

def uePos : List (ℚ × ℚ) :=
  (List.range numLanes).flatMap fun i : Nat =>
    (List.range h.numUePerLane).map fun j : Nat => (h.dV * j, dL * i)

/-- The while loops that count `tempX` and `tempY`. -/
def countZones (start pos : ℚ) (temp : Nat) : Nat :=
  if start + h.dZ * temp < pos then countZones start pos (temp + 1) else temp
termination_by ⌈(pos - start) / h.dZ⌉₊ - temp
decreasing_by
  have hlt : temp < ⌈(pos - start) / h.dZ⌉₊ := by
    rw [Nat.lt_ceil, lt_div_iff₀ h.dZ_pos, mul_comm]
    linarith
  omega

def zoneOf (pos : ℚ × ℚ) : Int :=
  let tempX := h.countZones zoneStart.1 pos.1 1
  let tempY := h.countZones zoneStart.2 pos.2 1
  tempX + truncate (((tempY : ℚ) - 1) * h.numUePerLane * (h.dV / h.dZ))

def zoneId : List Int := h.uePos.map h.zoneOf

def zoneCenter (tempX tempY : Nat) : ℚ × ℚ :=
  (zoneStart.1 + ((tempX : ℚ) - 1) * h.dZ + h.dZ / 2, zoneStart.2 + ((tempY : ℚ) - 1) * h.dZ + h.dZ / 2)

/-- The loop that lists the centres row by row. -/
def centersFrom : Nat → Nat → Nat → List (ℚ × ℚ)
  | 0, _, _ => []
  | n + 1, tempX, tempY =>
    h.zoneCenter tempX tempY ::
      if (h.numUe : ℚ) / 2 * (h.dV / h.dZ) < (tempX + 1 : Nat) then centersFrom n 1 (tempY + 1)
      else centersFrom n (tempX + 1) tempY

/-- There are as many centres as the zone of the last UE says. -/
def zoneCenters : Except Fault (List (ℚ × ℚ)) := do
  let last ← orFault Fault.pythonIndexError h.zoneId.getLast?
  pure (h.centersFrom last.toNat 1 1)

/-- The column and the row of the square of the grid that holds a position. -/
def square (pos : ℚ × ℚ) : Nat × Nat :=
  (⌈(pos.1 - zoneStart.1) / h.dZ⌉₊, ⌈(pos.2 - zoneStart.2) / h.dZ⌉₊)

/-- A square holds its upper border, as in the loops that count. -/
def InSquare (center pos : ℚ × ℚ) : Prop :=
  (center.1 - h.dZ / 2 < pos.1 ∧ pos.1 ≤ center.1 + h.dZ / 2) ∧
    center.2 - h.dZ / 2 < pos.2 ∧ pos.2 ≤ center.2 + h.dZ / 2

/-- Every UE has the centre of its own square, and UEs of one zone share a square. -/
structure ZonesFit : Prop where
  centered : ∀ (i : Nat) (pos : ℚ × ℚ) (zone : Int), h.uePos[i]? = some pos →
    h.zoneId[i]? = some zone → ∃ centers center, h.zoneCenters = .ok centers ∧ 0 ≤ zone - 1 ∧
      centers[(zone - 1).toNat]? = some center ∧ h.InSquare center pos
  sameSquare : ∀ (i j : Nat) (pos pos' : ℚ × ℚ) (zone : Int), h.uePos[i]? = some pos →
    h.uePos[j]? = some pos' → h.zoneId[i]? = some zone → h.zoneId[j]? = some zone →
      h.square pos = h.square pos'

/-- The length of a lane in zones. -/
def laneZones : ℚ := h.numUePerLane * (h.dV / h.dZ)

/-- The number of centres in a row. -/
def rowWidth : Nat := max 1 ⌊h.laneZones⌋₊

/-- The last UE of a lane is inside a row of whole zones, and the rows below the upper lane have as
many zones by the length of the lane as by whole zones. -/
def RowsAlign : Prop :=
  h.numUe = 0 ∨ 5 / 2 + h.dV * ((h.numUePerLane : ℚ) - 1) ≤ h.dZ * h.rowWidth ∧
    ⌊((⌈7 / h.dZ⌉₊ - 1 : Nat) : ℚ) * h.laneZones⌋₊ = (⌈7 / h.dZ⌉₊ - 1) * h.rowWidth

end Highway

section Rounding

theorem truncate_of_nonneg {q : ℚ} (hq : 0 ≤ q) : truncate q = (⌊q⌋₊ : Nat) := by
  rw [truncate, Int.tdiv_eq_ediv_of_nonneg (Rat.num_nonneg.mpr hq), Int.natCast_floor_eq_floor hq,
    Rat.floor_def']

/-- Whole rows are lost to rounding in the higher rows first. -/
theorem floor_mul_of_le {w : ℚ} {m n : Nat} (hw : 0 ≤ w) (hmn : m ≤ n)
    (h : ⌊(n : ℚ) * w⌋₊ = n * max 1 ⌊w⌋₊) : ⌊(m : ℚ) * w⌋₊ = m * max 1 ⌊w⌋₊ := by
  rcases Nat.eq_zero_or_pos m with rfl | hm
  · simp
  · have hn : (0 : ℚ) < n := by exact_mod_cast hm.trans_le hmn
    obtain ⟨hlow, hhigh⟩ := (Nat.floor_eq_iff (mul_nonneg hn.le hw)).mp h
    push_cast at hlow hhigh
    have hwidth : ((max 1 ⌊w⌋₊ : Nat) : ℚ) ≤ w := by
      push_cast
      exact le_of_mul_le_mul_left hlow hn
    push_cast at hwidth
    have hcast : (m : ℚ) ≤ n := by exact_mod_cast hmn
    have hmore : (m : ℚ) * (w - max 1 (⌊w⌋₊ : ℚ)) ≤ n * (w - max 1 (⌊w⌋₊ : ℚ)) :=
      mul_le_mul_of_nonneg_right hcast (sub_nonneg.mpr hwidth)
    refine (Nat.floor_eq_iff (mul_nonneg (Nat.cast_nonneg m) hw)).mpr ⟨?_, ?_⟩
    · push_cast
      exact mul_le_mul_of_nonneg_left hwidth (Nat.cast_nonneg m)
    · push_cast
      linarith

end Rounding

namespace Highway

variable {h : Highway} {pos pos' : ℚ × ℚ}

theorem countZones_eq {start pos : ℚ} {temp : Nat} (htemp : temp ≤ ⌈(pos - start) / h.dZ⌉₊) :
    h.countZones start pos temp = ⌈(pos - start) / h.dZ⌉₊ := by
  induction temp using countZones.induct h start pos with
  | case1 temp hlt ih =>
    rw [countZones, if_pos hlt]
    apply ih
    rw [Nat.succ_le_iff, Nat.lt_ceil, lt_div_iff₀ h.dZ_pos, mul_comm]
    linarith
  | case2 temp hle =>
    rw [countZones, if_neg hle]
    refine le_antisymm htemp (Nat.ceil_le.mpr ?_)
    rw [div_le_iff₀ h.dZ_pos, mul_comm]
    linarith

theorem mem_uePos : pos ∈ h.uePos ↔
    ∃ i < numLanes, ∃ j < h.numUePerLane, pos = (h.dV * (j : Nat), dL * (i : Nat)) := by
  unfold uePos
  constructor
  · intro hpos
    obtain ⟨i, hi, hpos⟩ := List.mem_flatMap.mp hpos
    obtain ⟨j, hj, rfl⟩ := List.mem_map.mp hpos
    exact ⟨i, List.mem_range.mp hi, j, List.mem_range.mp hj, rfl⟩
  · rintro ⟨i, hi, j, hj, rfl⟩
    exact List.mem_flatMap.mpr
      ⟨i, List.mem_range.mpr hi, List.mem_map.mpr ⟨j, List.mem_range.mpr hj, rfl⟩⟩

theorem uePos_nonneg (hpos : pos ∈ h.uePos) : 0 ≤ pos.1 ∧ 0 ≤ pos.2 := by
  obtain ⟨i, _, j, _, rfl⟩ := mem_uePos.mp hpos
  exact ⟨mul_nonneg h.dV_pos.le (Nat.cast_nonneg j),
    mul_nonneg (by norm_num [dL]) (Nat.cast_nonneg i)⟩

theorem square_pos (hpos : 0 ≤ pos.1 ∧ 0 ≤ pos.2) : 1 ≤ (h.square pos).1 ∧ 1 ≤ (h.square pos).2 := by
  unfold square zoneStart
  refine ⟨Nat.one_le_iff_ne_zero.mpr (Nat.ceil_pos.mpr (div_pos ?_ h.dZ_pos)).ne',
    Nat.one_le_iff_ne_zero.mpr (Nat.ceil_pos.mpr (div_pos ?_ h.dZ_pos)).ne'⟩
  · linarith [hpos.1]
  · linarith [hpos.2]

theorem square_mono (hx : pos.1 ≤ pos'.1) (hy : pos.2 ≤ pos'.2) :
    (h.square pos).1 ≤ (h.square pos').1 ∧ (h.square pos).2 ≤ (h.square pos').2 := by
  unfold square
  refine ⟨Nat.ceil_mono (div_le_div_of_nonneg_right ?_ h.dZ_pos.le),
    Nat.ceil_mono (div_le_div_of_nonneg_right ?_ h.dZ_pos.le)⟩
  · linarith
  · linarith

theorem laneZones_nonneg : 0 ≤ h.laneZones :=
  mul_nonneg (Nat.cast_nonneg _) (div_pos h.dV_pos h.dZ_pos).le

variable (h) in
/-- The number of zones in the rows below row `y`, by the length of the lane. -/
def zonesBelow (y : Nat) : Nat := ⌊((y - 1 : Nat) : ℚ) * h.laneZones⌋₊

theorem zonesBelow_mono {y y' : Nat} (hy : y ≤ y') : h.zonesBelow y ≤ h.zonesBelow y' := by
  have hcast : ((y - 1 : Nat) : ℚ) ≤ (y' - 1 : Nat) := by exact_mod_cast Nat.sub_le_sub_right hy 1
  exact Nat.floor_mono (mul_le_mul_of_nonneg_right hcast laneZones_nonneg)

variable (h) in
/-- The zone of a UE from the square that it is in. -/
def zoneNumber (pos : ℚ × ℚ) : Nat := (h.square pos).1 + h.zonesBelow (h.square pos).2

theorem zoneNumber_pos (hpos : 0 ≤ pos.1 ∧ 0 ≤ pos.2) : 1 ≤ h.zoneNumber pos :=
  (square_pos hpos).1.trans (Nat.le_add_right _ _)

theorem zoneOf_eq (hpos : 0 ≤ pos.1 ∧ 0 ≤ pos.2) : h.zoneOf pos = h.zoneNumber pos := by
  obtain ⟨hx, hy⟩ := square_pos (h := h) hpos
  have hcountX : h.countZones zoneStart.1 pos.1 1 = (h.square pos).1 := countZones_eq hx
  have hcountY : h.countZones zoneStart.2 pos.2 1 = (h.square pos).2 := countZones_eq hy
  have hrows : (((h.square pos).2 : ℚ) - 1) * h.numUePerLane * (h.dV / h.dZ) =
      (((h.square pos).2 - 1 : Nat) : ℚ) * h.laneZones := by
    rw [Nat.cast_sub hy, Nat.cast_one, laneZones, mul_assoc]
  unfold zoneOf
  dsimp only
  rw [hcountX, hcountY, hrows, truncate_of_nonneg (mul_nonneg (Nat.cast_nonneg _) laneZones_nonneg)]
  rfl

theorem rowWidth_pos : 1 ≤ h.rowWidth := le_max_left _ _

/-- The loop over the centres begins a new row after `rowWidth` of them. -/
theorem wraps_iff {tempX : Nat} (hpos : 1 ≤ tempX) (hle : tempX ≤ h.rowWidth) :
    (h.numUe : ℚ) / 2 * (h.dV / h.dZ) < (tempX + 1 : Nat) ↔ tempX = h.rowWidth := by
  have hhalf : (h.numUe : ℚ) / 2 = h.numUePerLane := by
    have heven := h.numUe_even
    have hdouble : h.numUe = 2 * h.numUePerLane := by
      unfold numUePerLane numLanes
      omega
    rw [hdouble]
    push_cast
    ring
  rw [hhalf]
  change h.laneZones < _ ↔ _
  rw [← Nat.floor_lt laneZones_nonneg]
  unfold rowWidth at hle ⊢
  omega

theorem getElem?_centersFrom {n tempX tempY k : Nat} (hpos : 1 ≤ tempX) (hle : tempX ≤ h.rowWidth)
    (hk : k < n) : (h.centersFrom n tempX tempY)[k]? =
      some (h.zoneCenter ((tempX - 1 + k) % h.rowWidth + 1) (tempY + (tempX - 1 + k) / h.rowWidth)) := by
  have hwidth := rowWidth_pos (h := h)
  induction n generalizing tempX tempY k with
  | zero => omega
  | succ n ih =>
    rw [centersFrom]
    cases k with
    | zero =>
      rw [List.getElem?_cons_zero, Nat.add_zero, Nat.mod_eq_of_lt (by omega),
        Nat.div_eq_of_lt (by omega), Nat.sub_add_cancel hpos, Nat.add_zero]
    | succ k =>
      rw [List.getElem?_cons_succ]
      by_cases hend : tempX = h.rowWidth
      · rw [if_pos ((wraps_iff hpos hle).mpr hend), ih le_rfl hwidth (by omega)]
        have hnext : tempX - 1 + (k + 1) = k + h.rowWidth := by omega
        rw [hnext, Nat.add_mod_right, Nat.add_div_right _ hwidth, Nat.sub_self, Nat.zero_add]
        congr 2
        omega
      · rw [if_neg fun hwrap => hend ((wraps_iff hpos hle).mp hwrap), ih (by omega) (by omega) (by omega)]
        have hnext : tempX + 1 - 1 + k = tempX - 1 + (k + 1) := by omega
        rw [hnext]

theorem inSquare_zoneCenter {tempX tempY : Nat} (hx : 1 ≤ tempX) (hy : 1 ≤ tempY) :
    h.InSquare (h.zoneCenter tempX tempY) pos ↔ h.square pos = (tempX, tempY) := by
  have haxis : ∀ (start p : ℚ) (n : Nat), 1 ≤ n →
      (⌈(p - start) / h.dZ⌉₊ = n ↔
        start + ((n : ℚ) - 1) * h.dZ + h.dZ / 2 - h.dZ / 2 < p ∧
          p ≤ start + ((n : ℚ) - 1) * h.dZ + h.dZ / 2 + h.dZ / 2) := by
    intro start p n hn
    rw [Nat.ceil_eq_iff (by omega), Nat.cast_sub hn, Nat.cast_one, lt_div_iff₀ h.dZ_pos,
      div_le_iff₀ h.dZ_pos]
    constructor
    · rintro ⟨hlow, hhigh⟩
      exact ⟨by linarith, by linarith⟩
    · rintro ⟨hlow, hhigh⟩
      exact ⟨by linarith, by linarith⟩
  unfold InSquare square zoneCenter
  rw [Prod.mk.injEq, haxis _ _ _ hx, haxis _ _ _ hy]

variable (h) in
/-- The last UE of the upper lane. -/
def lastUePos : ℚ × ℚ := (h.dV * (h.numUePerLane - 1 : Nat), dL * (1 : Nat))

theorem zoneId_getLast (hn : 0 < h.numUePerLane) : h.zoneId.getLast? = some (h.zoneOf h.lastUePos) := by
  have hlanes : List.range numLanes = [0, 1] := rfl
  have hlast : (List.range h.numUePerLane).getLast? = some (h.numUePerLane - 1) := by
    rw [List.getLast?_range, if_neg hn.ne']
  rw [zoneId, uePos, hlanes, List.flatMap_cons, List.flatMap_singleton, List.getLast?_map,
    List.getLast?_append, List.getLast?_map, hlast]
  rfl

theorem le_lastUePos (hpos : pos ∈ h.uePos) : pos.1 ≤ h.lastUePos.1 ∧ pos.2 ≤ h.lastUePos.2 := by
  obtain ⟨i, hi, j, hj, rfl⟩ := mem_uePos.mp hpos
  have hlane : (i : ℚ) ≤ (1 : Nat) := by exact_mod_cast Nat.lt_succ_iff.mp hi
  have hplace : (j : ℚ) ≤ (h.numUePerLane - 1 : Nat) := by exact_mod_cast Nat.le_sub_one_of_lt hj
  exact ⟨mul_le_mul_of_nonneg_left hplace h.dV_pos.le,
    mul_le_mul_of_nonneg_left hlane (by norm_num [dL])⟩

theorem square_le_last (hpos : pos ∈ h.uePos) :
    (h.square pos).1 ≤ (h.square h.lastUePos).1 ∧ (h.square pos).2 ≤ (h.square h.lastUePos).2 := by
  obtain ⟨hx, hy⟩ := le_lastUePos hpos
  exact square_mono hx hy

theorem zoneNumber_le_last (hpos : pos ∈ h.uePos) :
    h.zoneNumber pos ≤ h.zoneNumber h.lastUePos := by
  obtain ⟨hcolumn, hrow⟩ := square_le_last hpos
  exact Nat.add_le_add hcolumn (zonesBelow_mono hrow)

/-- The zone of every UE has a centre in the list, at the row and column of its number. -/
theorem zoneCenters_at (hpos : pos ∈ h.uePos) : ∃ centers, h.zoneCenters = .ok centers ∧
    0 ≤ h.zoneOf pos - 1 ∧ centers[(h.zoneOf pos - 1).toNat]? = some (h.zoneCenter
      ((h.zoneNumber pos - 1) % h.rowWidth + 1) (1 + (h.zoneNumber pos - 1) / h.rowWidth)) := by
  have hn : 0 < h.numUePerLane := by
    obtain ⟨_, _, j, hj, _⟩ := mem_uePos.mp hpos
    omega
  have hnonneg := uePos_nonneg hpos
  obtain ⟨hx, hy⟩ := le_lastUePos hpos
  have hzone := zoneOf_eq (h := h) hnonneg
  have hlast : h.zoneOf h.lastUePos = h.zoneNumber h.lastUePos :=
    zoneOf_eq ⟨hnonneg.1.trans hx, hnonneg.2.trans hy⟩
  have hfirst := zoneNumber_pos (h := h) hnonneg
  have hle := zoneNumber_le_last hpos
  refine ⟨h.centersFrom (h.zoneOf h.lastUePos).toNat 1 1, ?_, by omega, ?_⟩
  · rw [zoneCenters, zoneId_getLast hn]
    rfl
  · have hindex : (h.zoneOf pos - 1).toNat = h.zoneNumber pos - 1 := by omega
    rw [hindex, getElem?_centersFrom le_rfl rowWidth_pos (by omega), Nat.sub_self, Nat.zero_add]

variable (h) in
/-- The square is inside a row of whole zones, above rows of whole zones. -/
def Fits (pos : ℚ × ℚ) : Prop :=
  (h.square pos).1 ≤ h.rowWidth ∧
    h.zonesBelow (h.square pos).2 = ((h.square pos).2 - 1) * h.rowWidth

theorem fits_iff (hpos : 0 ≤ pos.1 ∧ 0 ≤ pos.2) : h.square pos =
    ((h.zoneNumber pos - 1) % h.rowWidth + 1, 1 + (h.zoneNumber pos - 1) / h.rowWidth) ↔
      h.Fits pos := by
  obtain ⟨hx, hy⟩ := square_pos (h := h) hpos
  have hwidth := rowWidth_pos (h := h)
  rw [Prod.ext_iff]
  unfold Fits zoneNumber
  dsimp only
  constructor
  · rintro ⟨hcolumn, hrow⟩
    have hlt := Nat.mod_lt ((h.square pos).1 + h.zonesBelow (h.square pos).2 - 1) hwidth
    have hdm := Nat.mod_add_div' ((h.square pos).1 + h.zonesBelow (h.square pos).2 - 1) h.rowWidth
    have hbelow : ((h.square pos).1 + h.zonesBelow (h.square pos).2 - 1) / h.rowWidth =
        (h.square pos).2 - 1 := by omega
    rw [hbelow] at hdm
    exact ⟨by omega, by omega⟩
  · rintro ⟨hcolumn, hrows⟩
    have hnumber : (h.square pos).1 + h.zonesBelow (h.square pos).2 - 1 =
        (h.square pos).1 - 1 + ((h.square pos).2 - 1) * h.rowWidth := by omega
    rw [hnumber, Nat.add_mul_mod_self_right, Nat.add_mul_div_right _ _ hwidth,
      Nat.mod_eq_of_lt (by omega), Nat.div_eq_of_lt (by omega)]
    exact ⟨by omega, by omega⟩

theorem uePos_zone {i : Nat} {zone : Int} (hpos : h.uePos[i]? = some pos)
    (hzone : h.zoneId[i]? = some zone) : zone = h.zoneOf pos := by
  rw [zoneId, List.getElem?_map, hpos] at hzone
  exact (Option.some.inj hzone).symm

theorem zonesFit_iff_fits : h.ZonesFit ↔ ∀ pos ∈ h.uePos, h.Fits pos := by
  constructor
  · intro fit pos hpos
    obtain ⟨i, hi⟩ := List.mem_iff_getElem?.mp hpos
    have hzone : h.zoneId[i]? = some (h.zoneOf pos) := by
      rw [zoneId, List.getElem?_map, hi]
      rfl
    obtain ⟨centers, center, hcenters, _, hat, hin⟩ := fit.centered i pos _ hi hzone
    obtain ⟨centers', hcenters', _, hat'⟩ := zoneCenters_at hpos
    obtain rfl := Except.ok.inj (hcenters.symm.trans hcenters')
    obtain rfl := Option.some.inj (hat.symm.trans hat')
    exact (fits_iff (uePos_nonneg hpos)).mp
      ((inSquare_zoneCenter (Nat.succ_pos _) (Nat.le_add_right 1 _)).mp hin)
  · intro fits
    constructor
    · intro i pos zone hi hzone
      obtain rfl := uePos_zone hi hzone
      have hpos := List.mem_of_getElem? hi
      obtain ⟨centers, hcenters, hindex, hat⟩ := zoneCenters_at hpos
      refine ⟨centers, _, hcenters, hindex, hat, ?_⟩
      exact (inSquare_zoneCenter (Nat.succ_pos _) (Nat.le_add_right 1 _)).mpr
        ((fits_iff (uePos_nonneg hpos)).mpr (fits pos hpos))
    · intro i j pos pos' zone hi hj hzone hzone'
      have hpos := List.mem_of_getElem? hi
      have hpos' := List.mem_of_getElem? hj
      have hsame : h.zoneOf pos = h.zoneOf pos' :=
        (uePos_zone hi hzone).symm.trans (uePos_zone hj hzone')
      rw [zoneOf_eq (uePos_nonneg hpos), zoneOf_eq (uePos_nonneg hpos'), Nat.cast_inj] at hsame
      rw [(fits_iff (uePos_nonneg hpos)).mpr (fits pos hpos),
        (fits_iff (uePos_nonneg hpos')).mpr (fits pos' hpos'), hsame]

theorem fits_all_iff : (∀ pos ∈ h.uePos, h.Fits pos) ↔ h.numUePerLane = 0 ∨ h.Fits h.lastUePos := by
  constructor
  · intro fits
    rcases Nat.eq_zero_or_pos h.numUePerLane with hn | hn
    · exact Or.inl hn
    · refine Or.inr (fits _ (mem_uePos.mpr ⟨1, by decide, h.numUePerLane - 1, by omega, rfl⟩))
  · rintro (hn | hlast) pos hpos
    · obtain ⟨_, _, j, hj, _⟩ := mem_uePos.mp hpos
      omega
    · obtain ⟨hsquareX, hsquareY⟩ := square_le_last hpos
      exact ⟨hsquareX.trans hlast.1,
        floor_mul_of_le laneZones_nonneg (Nat.sub_le_sub_right hsquareY 1) hlast.2⟩

theorem fits_lastUePos (hn : 0 < h.numUePerLane) : h.Fits h.lastUePos ↔
    5 / 2 + h.dV * ((h.numUePerLane : ℚ) - 1) ≤ h.dZ * h.rowWidth ∧
      ⌊((⌈7 / h.dZ⌉₊ - 1 : Nat) : ℚ) * h.laneZones⌋₊ = (⌈7 / h.dZ⌉₊ - 1) * h.rowWidth := by
  have hrow : (h.square h.lastUePos).2 = ⌈7 / h.dZ⌉₊ := by
    have hseven : h.lastUePos.2 - zoneStart.2 = 7 := by norm_num [lastUePos, zoneStart, dL]
    rw [square, hseven]
  have hcolumn : (h.square h.lastUePos).1 ≤ h.rowWidth ↔
      5 / 2 + h.dV * ((h.numUePerLane : ℚ) - 1) ≤ h.dZ * h.rowWidth := by
    have hstart : h.lastUePos.1 - zoneStart.1 = 5 / 2 + h.dV * ((h.numUePerLane : ℚ) - 1) := by
      simp only [lastUePos, zoneStart, Nat.cast_sub (Nat.succ_le_of_lt hn)]
      push_cast
      ring
    unfold square
    rw [hstart, Nat.ceil_le, div_le_iff₀ h.dZ_pos, mul_comm (h.rowWidth : ℚ)]
  unfold Fits zonesBelow
  rw [hrow, hcolumn]

/-- The zone numbers agree with the table of centres exactly when the lanes align with rows of whole
zones: the numbers use the length of a lane, the table wraps after a whole number of zones. -/
theorem zonesFit_iff_rowsAlign (h : Highway) : h.ZonesFit ↔ h.RowsAlign := by
  rw [zonesFit_iff_fits, fits_all_iff]
  unfold RowsAlign
  have hnone : h.numUePerLane = 0 ↔ h.numUe = 0 := by
    have heven := h.numUe_even
    unfold numUePerLane numLanes
    omega
  rcases Nat.eq_zero_or_pos h.numUePerLane with hn | hn
  · simp [hn, hnone.mp hn]
  · rw [fits_lastUePos hn, hnone]

end Highway

/-- The experiment's UEs with zones of 16 metres. -/
def wideZones : Highway where
  numUe := 300
  numUe_even := rfl
  dV := 10
  dV_pos := by norm_num
  dZ := 16
  dZ_pos := by norm_num

/-- The last UE at 1490 metres is in column 94, but the rows of the table have 93 columns. -/
theorem zonesFit_fails_wideZones : ¬∀ h : Highway, h.ZonesFit := by
  intro claimed
  have hn : 0 < wideZones.numUePerLane := by decide
  have hlast := (Highway.fits_all_iff.mp (Highway.zonesFit_iff_fits.mp (claimed wideZones))).resolve_left
    hn.ne'
  have hcolumn := ((Highway.fits_lastUePos hn).mp hlast).1
  have hwidth : wideZones.rowWidth = 93 := by
    have hfloor : ⌊wideZones.laneZones⌋₊ = 93 := by
      norm_num [Nat.floor_eq_iff, Highway.laneZones, Highway.numUePerLane, numLanes, wideZones]
    rw [Highway.rowWidth, hfloor]
    rfl
  rw [hwidth] at hcolumn
  norm_num [Highway.numUePerLane, numLanes, wideZones] at hcolumn

end SidelinkORe
