import SidelinkORe.ByteFormat

namespace SidelinkORe

/-- `NrSlSciF2aHeader` with the fields of `NrSlSciF2Header`; the mandatory ones start unset. -/
structure NrSlSciF2aHeader where
  harqId : UInt8 := 0xFF
  ndi : UInt8 := 0xFF
  rv : UInt8 := 0xFF
  srcId : UInt32 := 0xFFFFFFFF
  dstId : UInt32 := 0xFFFFFFFF
  harqFbIndicator : UInt32 := 0
  castType : UInt8 := 0
  csiReq : UInt8 := 0
  deriving DecidableEq

namespace NrSlSciF2aHeader

def ensureMandConfig (h : NrSlSciF2aHeader) : Bool :=
  h.harqId != 0xFF && h.ndi != 0xFF && h.rv != 0xFF && h.srcId != 0xFFFFFFFF &&
    h.dstId != 0xFFFFFFFF

def getSerializedSize : Nat := 4 + 1

/-- The word of the mandatory fields, 32 bits in all. -/
def scif2 (h : NrSlSciF2aHeader) : Nat :=
  let scif2 := h.harqId.toNat &&& 0xF
  let scif2 := (h.ndi.toNat &&& 0x1) ||| scif2 <<< 1
  let scif2 := (h.rv.toNat &&& 0x3) ||| scif2 <<< 2
  let scif2 := (h.srcId.toNat &&& 0xFF) ||| scif2 <<< 8
  let scif2 := (h.dstId.toNat &&& 0xFFFF) ||| scif2 <<< 16
  (h.harqFbIndicator.toNat &&& 0x1) ||| scif2 <<< 1

/-- The byte of the 2-A fields over five bits of padding. -/
def scif02a (h : NrSlSciF2aHeader) : Nat :=
  let scif02a := h.castType.toNat &&& 0x3
  let scif02a := (h.csiReq.toNat &&& 0x1) ||| scif02a <<< 1
  let padding := 0
  (padding &&& 0x1F) ||| scif02a <<< 5

/-- `PreSerialize` stops at a mandatory field that was never set. -/
def preSerialize (h : NrSlSciF2aHeader) : Option (List UInt8) :=
  if h.ensureMandConfig then some (writeHton 4 h.scif2) else none

def serialize (h : NrSlSciF2aHeader) : Option (List UInt8) := do
  let written ← h.preSerialize
  pure (written ++ [UInt8.ofNat h.scif02a])

def preDeserialize (this : NrSlSciF2aHeader) : Reader NrSlSciF2aHeader := do
  let scif2 ← readNtoh 4 0
  pure { this with
    harqId := UInt8.ofNat ((scif2 >>> 28) &&& 0xF)
    ndi := UInt8.ofNat ((scif2 >>> 27) &&& 0x1)
    rv := UInt8.ofNat ((scif2 >>> 25) &&& 0x3)
    srcId := UInt32.ofNat ((scif2 >>> 17) &&& 0xFF)
    dstId := UInt32.ofNat ((scif2 >>> 1) &&& 0xFFFF)
    harqFbIndicator := UInt32.ofNat (scif2 &&& 0x1) }

def deserialize (this : NrSlSciF2aHeader) : Reader (NrSlSciF2aHeader × Nat) := do
  let this ← this.preDeserialize
  let scif02a ← readU8
  let this := { this with
    castType := UInt8.ofNat ((scif02a.toNat >>> 6) &&& 0x3)
    csiReq := UInt8.ofNat ((scif02a.toNat >>> 5) &&& 0x1) }
  pure (this, getSerializedSize)

/-- `operator ==`; the HARQ feedback indicator is not compared. -/
def operatorEq (a b : NrSlSciF2aHeader) : Bool :=
  a.harqId == b.harqId && a.ndi == b.ndi && a.rv == b.rv && a.srcId == b.srcId &&
    a.dstId == b.dstId && a.csiReq == b.csiReq && a.castType == b.castType

/-- Every compared field fits the bits the format has for it. -/
structure Fits (h : NrSlSciF2aHeader) : Prop where
  harqId : h.harqId.toNat < 16
  ndi : h.ndi.toNat < 2
  rv : h.rv.toNat < 4
  srcId : h.srcId.toNat < 256
  dstId : h.dstId.toNat < 65536
  castType : h.castType.toNat < 4
  csiReq : h.csiReq.toNat < 2

/-- The header read from a word of mandatory fields and a byte of 2-A fields. -/
def ofWords (word byte : Nat) : NrSlSciF2aHeader where
  harqId := UInt8.ofNat (word / 2 ^ 28 % 16)
  ndi := UInt8.ofNat (word / 2 ^ 27 % 2)
  rv := UInt8.ofNat (word / 2 ^ 25 % 4)
  srcId := UInt32.ofNat (word / 2 ^ 17 % 256)
  dstId := UInt32.ofNat (word / 2 % 65536)
  harqFbIndicator := UInt32.ofNat (word % 2)
  castType := UInt8.ofNat (byte / 64 % 4)
  csiReq := UInt8.ofNat (byte / 32 % 2)

theorem and_mask (x w : Nat) : x &&& (2 ^ w - 1) = x % 2 ^ w :=
  Nat.and_two_pow_sub_one_eq_mod x w

theorem field_or_shiftLeft (v x w : Nat) :
    ((v &&& (2 ^ w - 1)) ||| x <<< w) = v % 2 ^ w + x * 2 ^ w := by
  rw [and_mask, or_shiftLeft]

theorem scif2_eq (h : NrSlSciF2aHeader) :
    h.scif2 = h.harqFbIndicator.toNat % 2 + (h.dstId.toNat % 65536 + (h.srcId.toNat % 256 +
      (h.rv.toNat % 4 + (h.ndi.toNat % 2 + h.harqId.toNat % 16 * 2) * 4) * 256) * 65536) * 2 := by
  have h4 := and_mask h.harqId.toNat 4
  have h1 := fun v x => field_or_shiftLeft v x 1
  have h2 := fun v x => field_or_shiftLeft v x 2
  have h8 := fun v x => field_or_shiftLeft v x 8
  have h16 := fun v x => field_or_shiftLeft v x 16
  simp only [Nat.reducePow, Nat.reduceSub] at h4 h1 h2 h8 h16
  simp only [scif2, h4, h1, h2, h8, h16]

theorem scif02a_eq (h : NrSlSciF2aHeader) :
    h.scif02a = (h.csiReq.toNat % 2 + h.castType.toNat % 4 * 2) * 32 := by
  have h2 := and_mask h.castType.toNat 2
  have h1 := fun v x => field_or_shiftLeft v x 1
  have h5 := fun x => field_or_shiftLeft 0 x 5
  simp only [Nat.reducePow, Nat.reduceSub, Nat.zero_mod, Nat.zero_add] at h2 h1 h5
  simp only [scif02a, h2, h1, h5]

/-- The reader needs five bytes and fills every field. -/
theorem reads_deserialize (this : NrSlSciF2aHeader) (word : Nat) (byte : UInt8) :
    Reads this.deserialize (writeHton 4 word ++ [byte])
      (ofWords (word % 2 ^ 32) byte.toNat, getSerializedSize) := by
  have hword := reads_readNtoh 4 word 0
  rw [Nat.zero_mul, Nat.zero_add] at hword
  have h1 := fun x => and_mask x 1
  have h2 := fun x => and_mask x 2
  have h4 := fun x => and_mask x 4
  have h8 := fun x => and_mask x 8
  have h16 := fun x => and_mask x 16
  simp only [Nat.reducePow, Nat.reduceSub] at hword h1 h2 h4 h8 h16
  have hpre : Reads this.preDeserialize (writeHton 4 word ++ [])
      { ofWords (word % 2 ^ 32) byte.toNat with
        castType := this.castType, csiReq := this.csiReq } := by
    refine Reads.bind hword ?_
    simp only [ofWords, Nat.shiftRight_eq_div_pow, h1, h2, h4, h8, h16, Nat.reducePow]
    exact reads_pure _
  rw [List.append_nil] at hpre
  refine Reads.bind hpre ?_
  refine Reads.bind (w := [byte]) (reads_u8 byte) ?_
  simp only [ofWords, Nat.shiftRight_eq_div_pow, h1, h2, Nat.reducePow]
  exact reads_pure _

theorem ofWords_ensureMandConfig (word byte : Nat) :
    (ofWords word byte).ensureMandConfig = true := by
  have hsmall8 : ∀ x m : Nat, m ≤ 16 → 0 < m → UInt8.ofNat (x % m) ≠ 0xFF := by
    intro x m hm hpos heq
    have hlt := Nat.mod_lt x hpos
    have htoNat := congrArg UInt8.toNat heq
    rw [UInt8.toNat_ofNat'] at htoNat
    change x % m % 256 = 255 at htoNat
    omega
  have hsmall32 : ∀ x m : Nat, m ≤ 65536 → 0 < m → UInt32.ofNat (x % m) ≠ 0xFFFFFFFF := by
    intro x m hm hpos heq
    have hlt := Nat.mod_lt x hpos
    have htoNat := congrArg UInt32.toNat heq
    rw [UInt32.toNat_ofNat'] at htoNat
    change x % m % 4294967296 = 4294967295 at htoNat
    omega
  simp only [ensureMandConfig, ofWords, Bool.and_eq_true, bne_iff_ne]
  exact ⟨⟨⟨⟨hsmall8 _ 16 (by omega) (by omega), hsmall8 _ 2 (by omega) (by omega)⟩,
    hsmall8 _ 4 (by omega) (by omega)⟩, hsmall32 _ 256 (by omega) (by omega)⟩,
    hsmall32 _ 65536 (by omega) (by omega)⟩

theorem scif2_ofWords {word : Nat} (byte : Nat) (hword : word < 2 ^ 32) :
    (ofWords word byte).scif2 = word := by
  rw [scif2_eq]
  simp only [ofWords, UInt8.toNat_ofNat', UInt32.toNat_ofNat']
  omega

theorem scif02a_ofWords {byte : Nat} (word : Nat) (hbyte : byte < 256) :
    (ofWords word byte).scif02a = byte / 32 * 32 := by
  rw [scif02a_eq]
  simp only [ofWords, UInt8.toNat_ofNat']
  omega

theorem ofWords_fits (word byte : Nat) : Fits (ofWords word byte) where
  harqId := by simp only [ofWords, UInt8.toNat_ofNat']; omega
  ndi := by simp only [ofWords, UInt8.toNat_ofNat']; omega
  rv := by simp only [ofWords, UInt8.toNat_ofNat']; omega
  srcId := by simp only [ofWords, UInt32.toNat_ofNat']; omega
  dstId := by simp only [ofWords, UInt32.toNat_ofNat']; omega
  castType := by simp only [ofWords, UInt8.toNat_ofNat']; omega
  csiReq := by simp only [ofWords, UInt8.toNat_ofNat']; omega

theorem serialize_eq_some {h : NrSlSciF2aHeader} {bytes : List UInt8} :
    h.serialize = some bytes ↔
      h.ensureMandConfig = true ∧ bytes = writeHton 4 h.scif2 ++ [UInt8.ofNat h.scif02a] := by
  unfold serialize preSerialize
  by_cases hmand : h.ensureMandConfig = true
  · rw [if_pos hmand]
    constructor
    · intro hbytes
      exact ⟨hmand, (Option.some.inj hbytes).symm⟩
    · intro hbytes
      rw [hbytes.2]
      rfl
  · rw [if_neg hmand]
    constructor
    · intro hbytes
      cases hbytes
    · intro hbytes
      exact absurd hbytes.1 hmand

/-- What is read from two words is written as these words, the padding cleared. -/
theorem serialize_ofWords {word byte : Nat} (hword : word < 2 ^ 32) (hbyte : byte < 256) :
    (ofWords word byte).serialize =
      some (writeHton 4 word ++ [UInt8.ofNat (byte / 32 * 32)]) := by
  apply serialize_eq_some.mpr
  rw [scif2_ofWords byte hword, scif02a_ofWords word hbyte]
  exact ⟨ofWords_ensureMandConfig word byte, rfl⟩

theorem scif2_lt (h : NrSlSciF2aHeader) : h.scif2 < 2 ^ 32 := by
  rw [scif2_eq]
  omega

theorem scif02a_lt (h : NrSlSciF2aHeader) : h.scif02a < 256 := by
  rw [scif02a_eq]
  omega

theorem uint8_ofNat_eq_iff {n : Nat} (hn : n < 256) (x : UInt8) :
    UInt8.ofNat n = x ↔ n = x.toNat := by
  rw [← UInt8.toNat_inj, UInt8.toNat_ofNat', Nat.mod_eq_of_lt hn]

theorem uint32_ofNat_eq_iff {n : Nat} (hn : n < 2 ^ 32) (x : UInt32) :
    UInt32.ofNat n = x ↔ n = x.toNat := by
  rw [← UInt32.toNat_inj, UInt32.toNat_ofNat', Nat.mod_eq_of_lt hn]

/-- The header that went over the air compares equal exactly when nothing was cut off it. -/
theorem operatorEq_ofWords (h : NrSlSciF2aHeader) :
    operatorEq (ofWords h.scif2 h.scif02a) h = true ↔ Fits h := by
  have hword := scif2_eq h
  have hbyte := scif02a_eq h
  have hharq : h.scif2 / 2 ^ 28 % 16 = h.harqId.toNat % 16 := by omega
  have hndi : h.scif2 / 2 ^ 27 % 2 = h.ndi.toNat % 2 := by omega
  have hrv : h.scif2 / 2 ^ 25 % 4 = h.rv.toNat % 4 := by omega
  have hsrc : h.scif2 / 2 ^ 17 % 256 = h.srcId.toNat % 256 := by omega
  have hdst : h.scif2 / 2 % 65536 = h.dstId.toNat % 65536 := by omega
  have hcast : h.scif02a / 64 % 4 = h.castType.toNat % 4 := by omega
  have hcsi : h.scif02a / 32 % 2 = h.csiReq.toNat % 2 := by omega
  have hcut : ∀ {x m : Nat} [NeZero m], x % m = x → x < m :=
    fun h => (Nat.mod_eq_iff_lt (NeZero.ne _)).mp h
  simp only [operatorEq, ofWords, Bool.and_eq_true, beq_iff_eq]
  rw [uint8_ofNat_eq_iff (by omega), uint8_ofNat_eq_iff (by omega), uint8_ofNat_eq_iff (by omega),
    uint32_ofNat_eq_iff (by omega), uint32_ofNat_eq_iff (by omega), uint8_ofNat_eq_iff (by omega),
    uint8_ofNat_eq_iff (by omega), hharq, hndi, hrv, hsrc, hdst, hcast, hcsi]
  constructor
  · rintro ⟨⟨⟨⟨⟨⟨h1, h2⟩, h3⟩, h4⟩, h5⟩, h6⟩, h7⟩
    exact ⟨hcut h1, hcut h2, hcut h3, hcut h4, hcut h5, hcut h7, hcut h6⟩
  · intro fits
    exact ⟨⟨⟨⟨⟨⟨Nat.mod_eq_of_lt fits.harqId, Nat.mod_eq_of_lt fits.ndi⟩,
      Nat.mod_eq_of_lt fits.rv⟩, Nat.mod_eq_of_lt fits.srcId⟩, Nat.mod_eq_of_lt fits.dstId⟩,
      Nat.mod_eq_of_lt fits.csiReq⟩, Nat.mod_eq_of_lt fits.castType⟩

/-- Four bytes are what is written for the word they spell. -/
theorem writeHton_bytes (b0 b1 b2 b3 : UInt8) :
    writeHton 4 (((b0.toNat * 256 + b1.toNat) * 256 + b2.toNat) * 256 + b3.toNat) =
      [b0, b1, b2, b3] := by
  have h0 := b0.toNat_lt
  have h1 := b1.toNat_lt
  have h2 := b2.toNat_lt
  have h3 := b3.toNat_lt
  have hbyte : ∀ {n : Nat} {b : UInt8}, n % 256 = b.toNat → UInt8.ofNat n = b := by
    intro n b hn
    apply UInt8.toNat_inj.mp
    rw [UInt8.toNat_ofNat']
    exact hn
  simp only [writeHton, Nat.shiftRight_eq_div_pow, List.cons.injEq, and_true]
  exact ⟨hbyte (by omega), hbyte (by omega), hbyte (by omega), hbyte (by omega)⟩

/-- A sent header arrives with its fields cut to their bits, and it is written again as it came.
Any five bytes are read as a header that fits, and only their padding is lost. -/
theorem sciF2a_codec (this : NrSlSciF2aHeader) (rest : List UInt8) :
    (∀ h bytes, h.serialize = some bytes →
      bytes.length = getSerializedSize ∧
      ∃ received, this.deserialize (bytes ++ rest) = some ((received, getSerializedSize), rest) ∧
        received.serialize = some bytes ∧ (operatorEq received h = true ↔ Fits h)) ∧
    (∀ b0 b1 b2 b3 b4 : UInt8, ∃ received,
      this.deserialize ([b0, b1, b2, b3, b4] ++ rest) = some ((received, getSerializedSize), rest) ∧
        Fits received ∧ received.serialize = some [b0, b1, b2, b3, b4 / 32 * 32]) := by
  constructor
  · intro h bytes sent
    obtain ⟨-, rfl⟩ := serialize_eq_some.mp sent
    have hread := reads_deserialize this h.scif2 (UInt8.ofNat h.scif02a) rest
    rw [Nat.mod_eq_of_lt h.scif2_lt, UInt8.toNat_ofNat', Nat.mod_eq_of_lt h.scif02a_lt] at hread
    refine ⟨by simp [writeHton_length, getSerializedSize], _, hread, ?_, operatorEq_ofWords h⟩
    have hpadding : h.scif02a / 32 * 32 = h.scif02a := by
      have hbyte := scif02a_eq h
      omega
    rw [serialize_ofWords h.scif2_lt h.scif02a_lt, hpadding]
  · intro b0 b1 b2 b3 b4
    have hbytes := writeHton_bytes b0 b1 b2 b3
    have hlt : ((b0.toNat * 256 + b1.toNat) * 256 + b2.toNat) * 256 + b3.toNat < 2 ^ 32 := by
      have h0 := b0.toNat_lt
      have h1 := b1.toNat_lt
      have h2 := b2.toNat_lt
      have h3 := b3.toNat_lt
      omega
    generalize ((b0.toNat * 256 + b1.toNat) * 256 + b2.toNat) * 256 + b3.toNat = word at hbytes hlt
    have hread := reads_deserialize this word b4 rest
    rw [Nat.mod_eq_of_lt hlt, hbytes] at hread
    refine ⟨_, hread, ofWords_fits word b4.toNat, ?_⟩
    rw [serialize_ofWords hlt b4.toNat_lt, hbytes]
    have hpadding : UInt8.ofNat (b4.toNat / 32 * 32) = b4 / 32 * 32 := by
      apply UInt8.toNat_inj.mp
      rw [UInt8.toNat_ofNat', UInt8.toNat_mul, UInt8.toNat_div]
      rfl
    rw [hpadding]
    rfl

end NrSlSciF2aHeader

end SidelinkORe
