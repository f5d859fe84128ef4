import Mathlib.Algebra.Order.Field.Rat
import Mathlib.Algebra.Order.Ring.Basic
import Mathlib.Data.List.TakeWhile
import Mathlib.Tactic.Linarith
import Mathlib.Tactic.NormNum
import Mathlib.Tactic.Ring

namespace SidelinkORe

inductive GraphType where
  | first
  | second
  deriving DecidableEq

/-- The code rates of the modulation and coding schemes, in hundredths. -/
def mcsEcrTable : List Nat :=
  [12, 15, 19, 25, 30, 37, 44, 51, 59, 66,
   33, 37, 42, 48, 54, 60, 64,
   43, 46, 50, 55, 60, 65, 70, 75, 80, 85, 89, 93]

abbrev McsIndex := Fin mcsEcrTable.length

/-- The code block sizes that have been simulated for each base graph and MCS. -/
structure SimulatedSizes where
  cbSizes : GraphType → McsIndex → List Nat
  ne_nil : ∀ bgType mcs, cbSizes bgType mcs ≠ []
  rising : ∀ bgType mcs, (cbSizes bgType mcs).Pairwise (· < ·)

/-- The error rate of a code block by SINR, a curve for each simulated size. -/
structure ErrorCurves where
  cbler : GraphType → McsIndex → Nat → ℚ → ℚ
  nonneg : ∀ bgType mcs size sinr, 0 ≤ cbler bgType mcs size sinr
  le_one : ∀ bgType mcs size sinr, cbler bgType mcs size sinr ≤ 1
  antitone : ∀ bgType mcs size, Antitone (cbler bgType mcs size)

namespace NrEesmErrorModel

def getBaseGraphType (tbSizeBit : Nat) (mcs : McsIndex) : GraphType :=
  let ecr := mcsEcrTable.get mcs
  if tbSizeBit ≤ 292 ∨ ecr ≤ 25 ∨ (tbSizeBit ≤ 3824 ∧ ecr ≤ 67) then .second else .first

def liftingSizeTableBG : List Nat :=
  [2, 3, 4, 5, 6, 7, 8, 9, 10, 11, 12, 13, 14, 15, 16, 18, 20, 22, 24, 26, 28, 30,
   32, 36, 40, 44, 48, 52, 56, 60, 64, 72, 80, 88, 96, 104, 112, 120, 128, 144,
   160, 176, 192, 208, 224, 240, 256, 288, 320, 352, 384]

/-- The largest code block of a base graph. -/
def kcb : GraphType → Nat
  | .first => 8448
  | .second => 3840

def kb (B : Nat) : GraphType → Nat
  | .first => 22
  | .second => if 640 ≤ B then 10 else if 560 ≤ B then 9 else if 192 ≤ B then 8 else 6

/-- The number of code blocks for `B` bits; more than one of them get a CRC of 24 bits each. -/
def numCodeBlocks (B : Nat) (bgType : GraphType) : Nat :=
  if B ≤ kcb bgType then 1 else (B + (kcb bgType - 24) - 1) / (kcb bgType - 24)

/-- The size of the code blocks and their number. The search for a lifting size adds a thousandth
to the quotient and does not look at the last size, which it ends on. -/
def codeBlockSegmentation (B : Nat) (bgType : GraphType) : Nat × Nat :=
  let C := numCodeBlocks B bgType
  let L := if B ≤ kcb bgType then 0 else 24
  let B1 := (B + C * L) % 2 ^ 32
  let K1 := B1 / C
  let Zc := (liftingSizeTableBG.dropLast.find? fun Z =>
    K1 * 1000 + kb B bgType < Z * kb B bgType * 1000).getD 384
  match bgType with
  | .first => (Zc * 22, C)
  | .second => (Zc * 10, C)

/-- The entry before the first larger size, or the first entry. -/
def lookupCbMap (cbSizeBit : Nat) (cbMap : List Nat) : Option Nat :=
  let upperBound := (cbMap.takeWhile fun size => size ≤ cbSizeBit).length
  if upperBound ≠ 0 then cbMap[upperBound - 1]? else cbMap[upperBound]?

def mappingSinrBler (sizes : SimulatedSizes) (curves : ErrorCurves) (sinr : ℚ) (mcs : McsIndex)
    (cbSizeBit : Nat) : Option ℚ := do
  let bgType := getBaseGraphType cbSizeBit mcs
  let cbIt ← lookupCbMap cbSizeBit (sizes.cbSizes bgType mcs)
  pure (curves.cbler bgType mcs cbIt sinr)

/-- The error rate of a first transmission; `sinr` is the effective SINR. -/
def getTbBitDecodificationStats (sizes : SimulatedSizes) (curves : ErrorCurves) (sinr : ℚ)
    (sizeBit : Nat) (mcs : McsIndex) : Option ℚ := do
  let bgType := getBaseGraphType sizeBit mcs
  let (K, C) := codeBlockSegmentation ((sizeBit + 24) % 2 ^ 32) bgType
  let cbler ← mappingSinrBler sizes curves sinr mcs K
  if C ≠ 1 then pure (1 - (1 - cbler) ^ C) else pure cbler

end NrEesmErrorModel

namespace Matlab

def getBaseGraphType (tbSizeBits : Nat) (mcs : McsIndex) : Nat :=
  let ecr := mcsEcrTable.get mcs
  if tbSizeBits ≤ 292 ∨ ecr ≤ 25 ∨ (tbSizeBits ≤ 3824 ∧ ecr ≤ 67) then 2 else 1

/-- The tables are numbered from one. -/
def graphOf (baseGraphType : Nat) : GraphType := if baseGraphType = 1 then .first else .second

/-- The loop over the table, with the entry before the current one. -/
def scanCbMap (cbSizeBits : Nat) : Option Nat → List Nat → Option Nat
  | previous, [] => previous
  | previous, size :: cbMap =>
    if cbSizeBits < size then some (previous.getD size) else scanCbMap cbSizeBits (some size) cbMap

def mappingSinrBler (sizes : SimulatedSizes) (curves : ErrorCurves) (sinr : ℚ) (mcs : McsIndex)
    (cbSizeBits : Nat) : Option ℚ := do
  let bgType := graphOf (getBaseGraphType cbSizeBits mcs)
  let cbIt ← scanCbMap cbSizeBits none (sizes.cbSizes bgType mcs)
  pure (curves.cbler bgType mcs cbIt sinr)

/-- `SINR2BLER`; the number of resource blocks is not used for a flat SINR. -/
def sinr2Bler (sizes : SimulatedSizes) (curves : ErrorCurves) (sinr : ℚ) (tbSizeBits : Nat)
    (mcs : McsIndex) : Option ℚ := do
  let baseGraphType := getBaseGraphType tbSizeBits mcs
  let B := tbSizeBits + 24
  let cbler ← mappingSinrBler sizes curves sinr mcs B
  if baseGraphType ≠ 1 then pure (1 - (1 - cbler) ^ baseGraphType) else pure cbler

end Matlab

section Lookup

open NrEesmErrorModel Matlab

variable {x y r p a : Nat} {l : List Nat}

theorem scanCbMap_some (x p : Nat) (l : List Nat) :
    scanCbMap x (some p) l = (p :: l)[(l.takeWhile fun size => size ≤ x).length]? := by
  induction l generalizing p with
  | nil => rfl
  | cons size l ih =>
    unfold scanCbMap
    split
    next hlt =>
      rw [List.takeWhile_cons_of_neg (by simpa using hlt)]
      rfl
    next hle =>
      rw [List.takeWhile_cons_of_pos (by simpa using hle), ih, List.length_cons,
        List.getElem?_cons_succ]

theorem lookupCbMap_eq_scanCbMap (x : Nat) (l : List Nat) :
    lookupCbMap x l = scanCbMap x none l := by
  cases l with
  | nil => rfl
  | cons size l =>
    unfold lookupCbMap scanCbMap
    dsimp only
    by_cases hlt : x < size
    · rw [if_pos hlt, List.takeWhile_cons_of_neg (by simpa using hlt)]
      rfl
    · rw [if_neg hlt, List.takeWhile_cons_of_pos (by simpa using hlt), List.length_cons,
        if_pos (Nat.succ_ne_zero _), Nat.add_sub_cancel, scanCbMap_some]

theorem scanCbMap_spec (hl : (p :: l).Pairwise (· < ·)) (h : scanCbMap x (some p) l = some r) :
    (r = p ∨ r ∈ l ∧ r ≤ x) ∧ ∀ size ∈ l, size ≤ x → size ≤ r := by
  induction l generalizing p with
  | nil =>
    cases h
    exact ⟨Or.inl rfl, by simp⟩
  | cons s l ih =>
    have htail := (List.pairwise_cons.mp hl).2
    have hlow := (List.pairwise_cons.mp htail).1
    unfold scanCbMap at h
    split at h
    next hlt =>
      cases h
      refine ⟨Or.inl rfl, fun size hin hle => ?_⟩
      rcases List.mem_cons.mp hin with rfl | hin
      · omega
      · have := hlow size hin
        omega
    next hle =>
      obtain ⟨hr, hmax⟩ := ih htail h
      have hsr : s ≤ r := by
        rcases hr with rfl | ⟨hin, _⟩
        · exact Nat.le_refl r
        · exact (hlow r hin).le
      refine ⟨Or.inr ?_, fun size hin hsize => ?_⟩
      · rcases hr with rfl | ⟨hin, hrx⟩
        · exact ⟨List.mem_cons_self, by omega⟩
        · exact ⟨List.mem_cons_of_mem s hin, hrx⟩
      · rcases List.mem_cons.mp hin with rfl | hin
        · exact hsr
        · exact hmax size hin hsize

/-- The entry that is found is the smallest one or not above the size, and no later one is nearer. -/
theorem lookup_spec (hl : (a :: l).Pairwise (· < ·)) (h : scanCbMap x none (a :: l) = some r) :
    (r = a ∨ r ∈ l ∧ r ≤ x) ∧ ∀ size ∈ l, size ≤ x → size ≤ r := by
  unfold scanCbMap at h
  split at h
  next hlt =>
    cases h
    refine ⟨Or.inl rfl, fun size hin hle => ?_⟩
    have := (List.pairwise_cons.mp hl).1 size hin
    omega
  next => exact scanCbMap_spec hl h

theorem scanCbMap_exists (x : Nat) (hne : l ≠ []) : ∃ r, scanCbMap x none l = some r := by
  cases l with
  | nil => exact absurd rfl hne
  | cons a l =>
    unfold scanCbMap
    split
    next => exact ⟨a, rfl⟩
    next =>
      rw [scanCbMap_some]
      refine ⟨_, List.getElem?_eq_getElem ?_⟩
      have hlen : (l.takeWhile fun size => decide (size ≤ x)).length ≤ l.length :=
        (List.takeWhile_sublist _).length_le
      rw [List.length_cons]
      omega

/-- Two sizes find the same entry when no entry but the smallest lies between them. -/
theorem scanCbMap_eq_iff (hl : l.Pairwise (· < ·)) (hne : l ≠ []) :
    scanCbMap x none l = scanCbMap y none l ↔ ∀ size ∈ l.tail, (size ≤ x ↔ size ≤ y) := by
  obtain ⟨r, hr⟩ := scanCbMap_exists x hne
  obtain ⟨r', hr'⟩ := scanCbMap_exists y hne
  cases l with
  | nil => exact absurd rfl hne
  | cons a l =>
    have hlow := (List.pairwise_cons.mp hl).1
    obtain ⟨hrx, hmax⟩ := lookup_spec hl hr
    obtain ⟨hry, hmax'⟩ := lookup_spec hl hr'
    rw [hr, hr', List.tail_cons, Option.some_inj]
    constructor
    · rintro rfl size hin
      have ha := hlow size hin
      constructor
      · intro hsize
        have := hmax size hin hsize
        rcases hry with rfl | ⟨_, hle⟩
        · omega
        · omega
      · intro hsize
        have := hmax' size hin hsize
        rcases hrx with rfl | ⟨_, hle⟩
        · omega
        · omega
    · intro hsame
      have hle : r ≤ r' := by
        rcases hrx with rfl | ⟨hin, hle⟩
        · rcases hry with rfl | ⟨hin', _⟩
          · exact Nat.le_refl r'
          · exact (hlow r' hin').le
        · exact hmax' r hin ((hsame r hin).mp hle)
      have hge : r' ≤ r := by
        rcases hry with rfl | ⟨hin, hle⟩
        · rcases hrx with rfl | ⟨hin', _⟩
          · exact Nat.le_refl r
          · exact (hlow r hin').le
        · exact hmax r' hin ((hsame r' hin).mpr hle)
      omega

end Lookup

section Agreement

open NrEesmErrorModel Matlab

variable {sizes : SimulatedSizes} {curves : ErrorCurves} {tbSize : Nat} {mcs : McsIndex} {sinr : ℚ}

/-- The rates of both programs are equal for all curves over the simulated sizes. -/
def SameErrorModel (sizes : SimulatedSizes) (tbSize : Nat) (mcs : McsIndex) : Prop :=
  ∀ (curves : ErrorCurves) (sinr : ℚ),
    sinr2Bler sizes curves sinr tbSize mcs =
      getTbBitDecodificationStats sizes curves sinr tbSize mcs

/-- Two sizes use one curve: they belong to one base graph, and no simulated size but the smallest
lies between them. -/
def SameCurve (sizes : SimulatedSizes) (mcs : McsIndex) (x y : Nat) : Prop :=
  NrEesmErrorModel.getBaseGraphType x mcs = NrEesmErrorModel.getBaseGraphType y mcs ∧
    ∀ size ∈ (sizes.cbSizes (NrEesmErrorModel.getBaseGraphType x mcs) mcs).tail,
      (size ≤ x ↔ size ≤ y)

theorem graphOf_getBaseGraphType (x : Nat) (mcs : McsIndex) :
    graphOf (Matlab.getBaseGraphType x mcs) = NrEesmErrorModel.getBaseGraphType x mcs := by
  unfold Matlab.getBaseGraphType NrEesmErrorModel.getBaseGraphType graphOf
  dsimp only
  split
  next => rfl
  next => rfl

theorem getBaseGraphType_cases (x : Nat) (mcs : McsIndex) :
    (Matlab.getBaseGraphType x mcs = 1 ∧ NrEesmErrorModel.getBaseGraphType x mcs = .first) ∨
      (Matlab.getBaseGraphType x mcs = 2 ∧ NrEesmErrorModel.getBaseGraphType x mcs = .second) := by
  unfold Matlab.getBaseGraphType NrEesmErrorModel.getBaseGraphType
  dsimp only
  split
  next => exact Or.inr ⟨rfl, rfl⟩
  next => exact Or.inl ⟨rfl, rfl⟩

theorem segmentation_count (B : Nat) (bgType : GraphType) :
    (codeBlockSegmentation B bgType).2 = numCodeBlocks B bgType := by
  cases bgType <;> rfl

/-- A block is one up to the largest code block, and two up to twice that without the CRCs. -/
theorem numCodeBlocks_eq_one (B : Nat) : numCodeBlocks B .first = 1 ↔ B ≤ 8448 := by
  unfold numCodeBlocks kcb
  dsimp only
  split <;> omega

theorem numCodeBlocks_eq_two (B : Nat) :
    numCodeBlocks B .second = 2 ↔ 3840 < B ∧ B ≤ 7632 := by
  unfold numCodeBlocks kcb
  dsimp only
  split <;> omega

theorem numCodeBlocks_pos (B : Nat) (bgType : GraphType) : 0 < numCodeBlocks B bgType := by
  cases bgType <;> unfold numCodeBlocks kcb <;> dsimp only <;> split <;> omega

/-- The code block size of a transport block. -/
def codeBlockSize (tbSize : Nat) (mcs : McsIndex) : Nat :=
  (codeBlockSegmentation ((tbSize + 24) % 2 ^ 32)
    (NrEesmErrorModel.getBaseGraphType tbSize mcs)).1

def codeBlockCount (tbSize : Nat) (mcs : McsIndex) : Nat :=
  numCodeBlocks ((tbSize + 24) % 2 ^ 32) (NrEesmErrorModel.getBaseGraphType tbSize mcs)

/-- One block needs no power. -/
theorem blockRate (n : Nat) (c : ℚ) :
    (if n ≠ 1 then some (1 - (1 - c) ^ n) else some c) = some (1 - (1 - c) ^ n) := by
  split
  next => rfl
  next h =>
    rw [not_not.mp h, pow_one]
    congr 1
    ring

theorem mappingSinrBler_eq {x : Nat} :
    NrEesmErrorModel.mappingSinrBler sizes curves sinr mcs x =
      Matlab.mappingSinrBler sizes curves sinr mcs x := by
  unfold NrEesmErrorModel.mappingSinrBler Matlab.mappingSinrBler
  rw [graphOf_getBaseGraphType]
  simp only [lookupCbMap_eq_scanCbMap]

theorem mappingSinrBler_exists (sizes : SimulatedSizes) (mcs : McsIndex) (x : Nat) :
    ∃ cbIt, scanCbMap x none (sizes.cbSizes (NrEesmErrorModel.getBaseGraphType x mcs) mcs) =
        some cbIt ∧
      ∀ curves sinr, Matlab.mappingSinrBler sizes curves sinr mcs x =
        some (curves.cbler (NrEesmErrorModel.getBaseGraphType x mcs) mcs cbIt sinr) := by
  obtain ⟨cbIt, hcbIt⟩ := scanCbMap_exists x
    (sizes.ne_nil (NrEesmErrorModel.getBaseGraphType x mcs) mcs)
  refine ⟨cbIt, hcbIt, fun curves sinr => ?_⟩
  unfold Matlab.mappingSinrBler
  rw [graphOf_getBaseGraphType]
  dsimp only
  rw [hcbIt]
  rfl

theorem sinr2Bler_eq {c : ℚ}
    (h : Matlab.mappingSinrBler sizes curves sinr mcs (tbSize + 24) = some c) :
    sinr2Bler sizes curves sinr tbSize mcs =
      some (1 - (1 - c) ^ Matlab.getBaseGraphType tbSize mcs) := by
  rw [← blockRate]
  unfold sinr2Bler
  dsimp only
  rw [h]
  rfl

theorem getTbBitDecodificationStats_eq {c : ℚ}
    (h : Matlab.mappingSinrBler sizes curves sinr mcs (codeBlockSize tbSize mcs) = some c) :
    getTbBitDecodificationStats sizes curves sinr tbSize mcs =
      some (1 - (1 - c) ^ codeBlockCount tbSize mcs) := by
  rw [← blockRate]
  unfold codeBlockCount getTbBitDecodificationStats
  rw [← segmentation_count]
  rw [codeBlockSize, ← mappingSinrBler_eq] at h
  dsimp only
  rw [h]
  rfl

theorem sameExponent_iff : Matlab.getBaseGraphType tbSize mcs = codeBlockCount tbSize mcs ↔
    (NrEesmErrorModel.getBaseGraphType tbSize mcs = .first ∧ (tbSize + 24) % 2 ^ 32 ≤ 8448) ∨
      (NrEesmErrorModel.getBaseGraphType tbSize mcs = .second ∧
        3840 < (tbSize + 24) % 2 ^ 32 ∧ (tbSize + 24) % 2 ^ 32 ≤ 7632) := by
  unfold codeBlockCount
  rcases getBaseGraphType_cases tbSize mcs with ⟨hone, hfirst⟩ | ⟨htwo, hsecond⟩
  · rw [hone, hfirst, eq_comm, numCodeBlocks_eq_one]
    simp
  · rw [htwo, hsecond, eq_comm, numCodeBlocks_eq_two]
    simp

/-- A family of constant curves. -/
def constantCurves (value : GraphType → Nat → ℚ) (h0 : ∀ bgType size, 0 ≤ value bgType size)
    (h1 : ∀ bgType size, value bgType size ≤ 1) : ErrorCurves where
  cbler := fun bgType _ size _ => value bgType size
  nonneg := fun bgType _ size _ => h0 bgType size
  le_one := fun bgType _ size _ => h1 bgType size
  antitone := fun _ _ _ => antitone_const

/-- One size finds the same curve as the other exactly when they use one curve. -/
theorem sameCurve_iff {x y r r' : Nat}
    (hx : scanCbMap x none (sizes.cbSizes (NrEesmErrorModel.getBaseGraphType x mcs) mcs) = some r)
    (hy : scanCbMap y none (sizes.cbSizes (NrEesmErrorModel.getBaseGraphType y mcs) mcs) = some r') :
    SameCurve sizes mcs x y ↔
      NrEesmErrorModel.getBaseGraphType x mcs = NrEesmErrorModel.getBaseGraphType y mcs ∧
        r = r' := by
  unfold SameCurve
  refine and_congr_right fun hgraph => ?_
  rw [← hgraph] at hy
  rw [← scanCbMap_eq_iff (sizes.rising _ mcs) (sizes.ne_nil _ mcs), hx, hy, Option.some_inj]

/-- Equal rates for all curves come from equal exponents and one curve. -/
theorem SameErrorModel.exponent_and_curve (h : SameErrorModel sizes tbSize mcs) :
    Matlab.getBaseGraphType tbSize mcs = codeBlockCount tbSize mcs ∧
      SameCurve sizes mcs (tbSize + 24) (codeBlockSize tbSize mcs) := by
  obtain ⟨r, hr, hB⟩ := mappingSinrBler_exists sizes mcs (tbSize + 24)
  obtain ⟨r', hr', hK⟩ := mappingSinrBler_exists sizes mcs (codeBlockSize tbSize mcs)
  have hrates : ∀ (curves : ErrorCurves) (sinr : ℚ),
      (1 - curves.cbler (NrEesmErrorModel.getBaseGraphType (tbSize + 24) mcs) mcs r sinr) ^
          Matlab.getBaseGraphType tbSize mcs =
        (1 - curves.cbler (NrEesmErrorModel.getBaseGraphType (codeBlockSize tbSize mcs) mcs) mcs r'
          sinr) ^ codeBlockCount tbSize mcs := by
    intro curves sinr
    have heq := h curves sinr
    rw [sinr2Bler_eq (hB curves sinr), getTbBitDecodificationStats_eq (hK curves sinr)] at heq
    have hval := Option.some.inj heq
    linarith
  constructor
  · have hhalf := hrates (constantCurves (fun _ _ => 1 / 2) (by norm_num) (by norm_num)) 0
    have hbase : (1 : ℚ) - 1 / 2 = 1 / 2 := by norm_num
    simp only [constantCurves, hbase] at hhalf
    exact pow_right_injective₀ (by norm_num) (by norm_num) hhalf
  · rw [sameCurve_iff hr hr']
    by_contra hother
    -- the curve of one size is zero while the other one's is not
    have hzero := hrates (constantCurves
      (fun bgType size => if bgType = NrEesmErrorModel.getBaseGraphType (codeBlockSize tbSize mcs) mcs ∧
        size = r' then 1 / 2 else 0)
      (fun _ _ => by split <;> norm_num) (fun _ _ => by split <;> norm_num)) 0
    simp only [constantCurves, if_neg hother, and_self, if_true, sub_zero, one_pow] at hzero
    have hlt : ((1 : ℚ) - 1 / 2) ^ codeBlockCount tbSize mcs < 1 :=
      pow_lt_one₀ (by norm_num) (by norm_num) (numCodeBlocks_pos _ _).ne'
    linarith

/-- Both programs have one error model exactly when the block is one code block of the first graph
or two of the second, and its bits and its code blocks use one curve. -/
theorem sameErrorModel_iff (sizes : SimulatedSizes) (tbSize : Nat) (mcs : McsIndex) :
    SameErrorModel sizes tbSize mcs ↔
      ((NrEesmErrorModel.getBaseGraphType tbSize mcs = .first ∧ (tbSize + 24) % 2 ^ 32 ≤ 8448) ∨
        (NrEesmErrorModel.getBaseGraphType tbSize mcs = .second ∧
          3840 < (tbSize + 24) % 2 ^ 32 ∧ (tbSize + 24) % 2 ^ 32 ≤ 7632)) ∧
      SameCurve sizes mcs (tbSize + 24) (codeBlockSize tbSize mcs) := by
  rw [← sameExponent_iff]
  constructor
  · exact SameErrorModel.exponent_and_curve
  · rintro ⟨hexponent, hcurve⟩ curves sinr
    obtain ⟨r, hr, hB⟩ := mappingSinrBler_exists sizes mcs (tbSize + 24)
    obtain ⟨r', hr', hK⟩ := mappingSinrBler_exists sizes mcs (codeBlockSize tbSize mcs)
    obtain ⟨hgraph, rfl⟩ := (sameCurve_iff hr hr').mp hcurve
    rw [sinr2Bler_eq (hB curves sinr), getTbBitDecodificationStats_eq (hK curves sinr), hexponent,
      hgraph]

/-- Every graph and MCS simulated for blocks of 3840 bits. -/
def oneSimulatedSize : SimulatedSizes where
  cbSizes := fun _ _ => [3840]
  ne_nil := by simp
  rising := by simp

/-- The packets of the theoretical curves, 1774 bytes with MCS 14, take two code blocks of the first
graph, which one program counts as one. -/
theorem sameErrorModel_fails_packet : ¬SameErrorModel oneSimulatedSize (1774 * 8) ⟨14, by decide⟩ := by
  intro h
  have hexponent := h.exponent_and_curve.1
  exact absurd hexponent (by decide)

end Agreement

end SidelinkORe
