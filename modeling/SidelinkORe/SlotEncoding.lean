import SidelinkORe.ByteFormat
import SidelinkORe.SfnSf

namespace SidelinkORe

namespace SfnSf

/-- `GetEncodingWithSymStart`: the slot and a symbol of it in one 64-bit key. -/
def getEncodingWithSymStart (s : SfnSf) (symStart : Nat) : Nat :=
  s.numerology <<< 48 ||| s.frameNum <<< 32 ||| s.subframeNum <<< 24 ||| s.slotNum <<< 8 |||
    symStart

def getEncoding (s : SfnSf) : Nat :=
  s.numerology <<< 48 ||| s.frameNum <<< 32 ||| s.subframeNum <<< 24 ||| s.slotNum <<< 8

/-- `FromEncoding`; the numerology takes eight bits, the bits of a symbol are ignored. -/
def fromEncoding (sfn : Nat) : SfnSf where
  numerology := (sfn &&& 0x00FF000000000000) >>> 48
  frameNum := (sfn &&& 0x0000FFFF00000000) >>> 32
  subframeNum := (sfn &&& 0x00000000FF000000) >>> 24
  slotNum := (sfn &&& 0x0000000000FFFF00) >>> 8

/-- The ranges of the types of the fields, the numerology apart. -/
structure InRange (s : SfnSf) : Prop where
  frame : s.frameNum < 65536
  subframe : s.subframeNum < 256
  slot : s.slotNum < 65536

variable {a b s : SfnSf} {k j : Nat}

theorem or_shifted {x y i : Nat} (c : Nat) (hx : x = c * 2 ^ i) (hy : y < 2 ^ i) :
    x ||| y = x + y := by
  rw [hx, ← Nat.shiftLeft_eq, Nat.shiftLeft_add_eq_or_of_lt hy]

/-- The fields stand side by side in the key. -/
theorem getEncodingWithSymStart_eq (hs : InRange s) (hk : k < 256) :
    s.getEncodingWithSymStart k = s.numerology * 2 ^ 48 + s.frameNum * 2 ^ 32 +
      s.subframeNum * 2 ^ 24 + s.slotNum * 2 ^ 8 + k := by
  have hframe := hs.frame
  have hsubframe := hs.subframe
  have hslot := hs.slot
  have h48 : s.numerology * 2 ^ 48 ||| s.frameNum * 2 ^ 32 =
      s.numerology * 2 ^ 48 + s.frameNum * 2 ^ 32 := by
    apply or_shifted (i := 48) s.numerology rfl
    omega
  have h32 : s.numerology * 2 ^ 48 + s.frameNum * 2 ^ 32 ||| s.subframeNum * 2 ^ 24 =
      s.numerology * 2 ^ 48 + s.frameNum * 2 ^ 32 + s.subframeNum * 2 ^ 24 := by
    apply or_shifted (i := 32) (s.numerology * 2 ^ 16 + s.frameNum) <;> omega
  have h24 : s.numerology * 2 ^ 48 + s.frameNum * 2 ^ 32 + s.subframeNum * 2 ^ 24 |||
      s.slotNum * 2 ^ 8 = s.numerology * 2 ^ 48 + s.frameNum * 2 ^ 32 + s.subframeNum * 2 ^ 24 +
        s.slotNum * 2 ^ 8 := by
    apply or_shifted (i := 24)
      (s.numerology * 2 ^ 24 + s.frameNum * 2 ^ 8 + s.subframeNum) <;> omega
  have h8 : s.numerology * 2 ^ 48 + s.frameNum * 2 ^ 32 + s.subframeNum * 2 ^ 24 +
      s.slotNum * 2 ^ 8 ||| k = s.numerology * 2 ^ 48 + s.frameNum * 2 ^ 32 +
        s.subframeNum * 2 ^ 24 + s.slotNum * 2 ^ 8 + k := by
    apply or_shifted (i := 8) (s.numerology * 2 ^ 40 + s.frameNum * 2 ^ 24 +
      s.subframeNum * 2 ^ 16 + s.slotNum) <;> omega
  simp only [getEncodingWithSymStart, Nat.shiftLeft_eq, h48, h32, h24, h8]

theorem getEncoding_eq (s : SfnSf) : s.getEncoding = s.getEncodingWithSymStart 0 := by
  rw [getEncodingWithSymStart, Nat.or_zero]
  rfl

theorem mask_shiftRight (x : Nat) (i w : Nat) :
    (x &&& (2 ^ w - 1) <<< i) >>> i = x / 2 ^ i % 2 ^ w := by
  rw [Nat.shiftRight_and_distrib, Nat.shiftLeft_shiftRight, Nat.and_two_pow_sub_one_eq_mod,
    Nat.shiftRight_eq_div_pow]

theorem fromEncoding_eq (sfn : Nat) : fromEncoding sfn =
    ⟨sfn / 2 ^ 32 % 65536, sfn / 2 ^ 24 % 256, sfn / 2 ^ 8 % 65536, sfn / 2 ^ 48 % 256⟩ := by
  have h48 := mask_shiftRight sfn 48 8
  have h32 := mask_shiftRight sfn 32 16
  have h24 := mask_shiftRight sfn 24 8
  have h8 := mask_shiftRight sfn 8 16
  simp only [Nat.reducePow, Nat.reduceSub, Nat.reduceShiftLeft] at h48 h32 h24 h8
  simp only [fromEncoding, h48, h32, h24, h8, Nat.reducePow]

/-- A slot is read back from its key, with its numerology cut to eight bits. -/
theorem fromEncoding_getEncodingWithSymStart (hs : InRange s) (hk : k < 256) :
    fromEncoding (s.getEncodingWithSymStart k) = { s with numerology := s.numerology % 256 } := by
  obtain ⟨hframe, hsubframe, hslot⟩ := hs
  rw [fromEncoding_eq, getEncodingWithSymStart_eq ⟨hframe, hsubframe, hslot⟩ hk]
  simp only [mk.injEq]
  omega

/-- Bits above the 64 of the key do not reach the slot. -/
theorem fromEncoding_mod (sfn : Nat) : fromEncoding (sfn % 2 ^ 64) = fromEncoding sfn := by
  rw [fromEncoding_eq, fromEncoding_eq]
  simp only [mk.injEq]
  omega

theorem inRange_of_wellFormed (hs : WellFormed s) (hn : s.numerology ≤ 12) : InRange s := by
  have hslots : s.slotPerSubframe ≤ 2 ^ 12 := Nat.pow_le_pow_right (by decide) hn
  have hframe := hs.frame
  have hsubframe := hs.subframe
  have hslot := hs.slot
  exact ⟨hframe, by omega, by omega⟩

theorem getEncodingWithSymStart_lt_iff (ha : InRange a) (hb : InRange b)
    (same : a.numerology = b.numerology) (hk : k < 256) (hj : j < 256) :
    a.getEncodingWithSymStart k < b.getEncodingWithSymStart j ↔
      lt a b = true ∨ a = b ∧ k < j := by
  rw [getEncodingWithSymStart_eq ha hk, getEncodingWithSymStart_eq hb hj, same]
  obtain ⟨haf, has, hat⟩ := ha
  obtain ⟨hbf, hbs, hbt⟩ := hb
  have heq : a = b ↔ a.frameNum = b.frameNum ∧ a.subframeNum = b.subframeNum ∧
      a.slotNum = b.slotNum := by
    cases a
    cases b
    simp only [mk.injEq]
    tauto
  rw [heq]
  unfold lt
  split_ifs with hframe hsub
  · simp only [true_or, iff_true]
    omega
  · simp only [true_or, iff_true]
    omega
  · rw [decide_eq_true_iff]
    omega

/-- Keys of one numerology are ordered as time is: by the slot, then by the symbol. -/
theorem getEncodingWithSymStart_lt_iff_normalize (ha : WellFormed a) (hb : WellFormed b)
    (same : a.numerology = b.numerology) (hn : a.numerology ≤ 12) (hk : k < 256) (hj : j < 256) :
    a.getEncodingWithSymStart k < b.getEncodingWithSymStart j ↔
      a.normalize < b.normalize ∨ a = b ∧ k < j := by
  have hra := inRange_of_wellFormed ha hn
  have hrb := inRange_of_wellFormed hb (same ▸ hn)
  rw [getEncodingWithSymStart_lt_iff hra hrb same hk hj, lt_iff_normalize_lt ha hb same]

/-- The keys keep slot and symbol apart, in the order of time, and give the slot back. Beyond
numerology 12 the products of `Normalize` no longer fit 32 bits. -/
theorem slotKey_faithful (ha : WellFormed a) (hb : WellFormed b)
    (same : a.numerology = b.numerology) (hn : a.numerology ≤ 12) (hk : k < 256) (hj : j < 256) :
    (a.getEncodingWithSymStart k < b.getEncodingWithSymStart j ↔
      a.normalize < b.normalize ∨ a = b ∧ k < j) ∧
    (a.getEncodingWithSymStart k = b.getEncodingWithSymStart j ↔ a = b ∧ k = j) ∧
    fromEncoding (a.getEncodingWithSymStart k) = a := by
  have hra := inRange_of_wellFormed ha hn
  have hrb := inRange_of_wellFormed hb (same ▸ hn)
  have hback : ∀ {s : SfnSf} {k : Nat}, InRange s → s.numerology ≤ 12 → k < 256 →
      fromEncoding (s.getEncodingWithSymStart k) = s := by
    intro s k hs hsn hk
    rw [fromEncoding_getEncodingWithSymStart hs hk, Nat.mod_eq_of_lt (by omega)]
  have horder := getEncodingWithSymStart_lt_iff_normalize ha hb same hn hk hj
  refine ⟨horder, ⟨?_, ?_⟩, hback hra hn hk⟩
  · intro hkey
    have hslot := congrArg fromEncoding hkey
    rw [hback hra hn hk, hback hrb (same ▸ hn) hj] at hslot
    subst hslot
    rw [getEncodingWithSymStart_eq hra hk, getEncodingWithSymStart_eq hra hj] at hkey
    exact ⟨rfl, by omega⟩
  · rintro ⟨rfl, rfl⟩
    rfl

theorem slotKey_faithful_lastSlot :
    (getEncodingWithSymStart ⟨1, 9, 3, 2⟩ 10 < getEncodingWithSymStart ⟨2, 0, 0, 2⟩ 1 ↔
      normalize ⟨1, 9, 3, 2⟩ < normalize ⟨2, 0, 0, 2⟩ ∨
        (⟨1, 9, 3, 2⟩ : SfnSf) = ⟨2, 0, 0, 2⟩ ∧ 10 < 1) ∧
    (getEncodingWithSymStart ⟨1, 9, 3, 2⟩ 10 = getEncodingWithSymStart ⟨2, 0, 0, 2⟩ 1 ↔
      (⟨1, 9, 3, 2⟩ : SfnSf) = ⟨2, 0, 0, 2⟩ ∧ 10 = 1) ∧
    fromEncoding (getEncodingWithSymStart ⟨1, 9, 3, 2⟩ 10) = ⟨1, 9, 3, 2⟩ :=
  slotKey_faithful ⟨by decide, by decide, by decide⟩ ⟨by decide, by decide, by decide⟩ rfl
    (by decide) (by decide) (by decide)

end SfnSf

/-- `NrSlMacPduTag` as it is serialized, its slot by frame, subframe and slot number. -/
structure SlMacPduTag where
  rnti : UInt16
  sfnSf : SfnSf
  symStart : UInt8
  numSym : UInt8
  tbSize : UInt32
  dstL2Id : UInt32
  deriving DecidableEq

namespace SlMacPduTag

def getSerializedSize : Nat := 2 + 8 + 1 + 1 + 4 + 4

def serialize (t : SlMacPduTag) : List UInt8 :=
  writeLe 2 t.rnti.toNat ++ (writeLe 8 t.sfnSf.getEncoding ++ ([t.symStart] ++ ([t.numSym] ++
    (writeLe 4 t.tbSize.toNat ++ (writeLe 4 t.dstL2Id.toNat ++ [])))))

def deserialize : Reader SlMacPduTag := do
  let rnti ← readLe 2
  let v ← readLe 8
  let symStart ← readU8
  let numSym ← readU8
  let tbSize ← readLe 4
  let dstL2Id ← readLe 4
  pure ⟨UInt16.ofNat rnti, SfnSf.fromEncoding v, symStart, numSym, UInt32.ofNat tbSize,
    UInt32.ofNat dstL2Id⟩

theorem reads_deserialize {t : SlMacPduTag} (ht : t.sfnSf.InRange) :
    Reads deserialize t.serialize
      { t with sfnSf := { t.sfnSf with numerology := t.sfnSf.numerology % 256 } } := by
  have hsfn : SfnSf.fromEncoding (t.sfnSf.getEncoding % 256 ^ 8) =
      { t.sfnSf with numerology := t.sfnSf.numerology % 256 } := by
    have hmod := SfnSf.fromEncoding_mod t.sfnSf.getEncoding
    simp only [Nat.reducePow] at hmod ⊢
    rw [hmod, SfnSf.getEncoding_eq, SfnSf.fromEncoding_getEncodingWithSymStart ht (by decide)]
  have hrnti : UInt16.ofNat (t.rnti.toNat % 256 ^ 2) = t.rnti := by
    have hlt : t.rnti.toNat < 256 ^ 2 := t.rnti.toNat_lt
    rw [Nat.mod_eq_of_lt hlt, UInt16.ofNat_toNat]
  have hword : ∀ x : UInt32, UInt32.ofNat (x.toNat % 256 ^ 4) = x := by
    intro x
    have hlt : x.toNat < 256 ^ 4 := x.toNat_lt
    rw [Nat.mod_eq_of_lt hlt, UInt32.ofNat_toNat]
  refine (reads_readLe 2 _).bind ?_
  refine (reads_readLe 8 _).bind ?_
  refine (reads_u8 _).bind ?_
  refine (reads_u8 _).bind ?_
  refine (reads_readLe 4 _).bind ?_
  refine (reads_readLe 4 _).bind ?_
  rw [hsfn, hrnti, hword, hword]
  exact reads_pure _

/-- The tag takes the bytes it announces. It arrives as it was sent exactly when its numerology
fits the eight bits of the key. -/
theorem slMacPduTag_codec {t : SlMacPduTag} (ht : t.sfnSf.InRange) (rest : List UInt8) :
    t.serialize.length = getSerializedSize ∧
    (deserialize (t.serialize ++ rest) = some (t, rest) ↔ t.sfnSf.numerology < 256) := by
  constructor
  · simp [serialize, writeLe_length, getSerializedSize]
  · rw [reads_deserialize ht rest]
    constructor
    · intro h
      have htag := congrArg (fun r => r.1.sfnSf.numerology) (Option.some.inj h)
      change t.sfnSf.numerology % 256 = t.sfnSf.numerology at htag
      omega
    · intro h
      rw [Nat.mod_eq_of_lt h]

/-- The tag of a block in the last slot of the frame counter. -/
theorem slMacPduTag_codec_lastFrame :
    (serialize ⟨7, ⟨65535, 9, 3, 2⟩, 1, 12, 500, 224⟩).length = getSerializedSize ∧
    (deserialize (serialize ⟨7, ⟨65535, 9, 3, 2⟩, 1, 12, 500, 224⟩ ++ []) =
      some (⟨7, ⟨65535, 9, 3, 2⟩, 1, 12, 500, 224⟩, []) ↔ 2 < 256) :=
  slMacPduTag_codec ⟨by decide, by decide, by decide⟩ []

end SlMacPduTag

end SidelinkORe
