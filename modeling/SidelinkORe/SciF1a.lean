import SidelinkORe.ByteFormat

namespace SidelinkORe

/-- `NrSlSciF1aHeader`; every field starts at the largest value of its type, which means unset. -/
structure NrSlSciF1aHeader where
  totalSubChannels : UInt16 := 0xFFFF
  priority : UInt8 := 0xFF
  indexStartSubChannel : UInt8 := 0xFF
  lengthSubChannel : UInt8 := 0xFF
  mcs : UInt8 := 0xFF
  slResourceReservePeriod : UInt16 := 0xFFFF
  slMaxNumPerReserve : UInt8 := 0xFF
  slSciStage2Format : UInt8 := 0xFF
  indexStartSbChReTx1 : UInt8 := 0xFF
  indexStartSbChReTx2 : UInt8 := 0xFF
  gapReTx1 : UInt8 := 0xFF
  gapReTx2 : UInt8 := 0xFF
  rc : UInt8 := 0xFF
  deriving DecidableEq

namespace NrSlSciF1aHeader

/-- `EnsureMandConfig`: no mandatory field still has its unset value. -/
def ensureMandConfig (h : NrSlSciF1aHeader) : Bool :=
  h.priority != 0xFF && h.mcs != 0xFF && h.slSciStage2Format != 0xFF &&
    h.slResourceReservePeriod != 0xFFFF && h.totalSubChannels != 0xFFFF &&
    h.indexStartSubChannel != 0xFF && h.lengthSubChannel != 0xFF && h.slMaxNumPerReserve != 0xFF

def getSerializedSize (h : NrSlSciF1aHeader) : Nat :=
  let totalSize := 1 + 1 + 1 + 2 + 2 + 1 + 1 + 1
  let totalSize := if h.slMaxNumPerReserve = 2 then totalSize + 2 else totalSize + 0
  if h.slMaxNumPerReserve = 3 then totalSize + 4 else totalSize + 0

/-- The fields written before `slMaxNumPerReserve` decides what follows, and that field itself. -/
def serializeMandatory (h : NrSlSciF1aHeader) : List UInt8 :=
  [h.priority] ++ ([h.mcs] ++ ([h.slSciStage2Format] ++ (writeHtonU16 h.slResourceReservePeriod ++
    (writeHtonU16 h.totalSubChannels ++ ([h.indexStartSubChannel] ++ ([h.lengthSubChannel] ++
    ([h.slMaxNumPerReserve] ++ [])))))))

def serializeReTx1 (h : NrSlSciF1aHeader) : List UInt8 :=
  if h.slMaxNumPerReserve = 2 ∨ h.slMaxNumPerReserve = 3 then
    [h.gapReTx1] ++ ([h.indexStartSbChReTx1] ++ []) else []

def serializeReTx2 (h : NrSlSciF1aHeader) : List UInt8 :=
  if h.slMaxNumPerReserve = 3 then [h.gapReTx2] ++ ([h.indexStartSbChReTx2] ++ []) else []

/-- The bytes `Serialize` writes from the start of its iterator on. -/
def serialize (h : NrSlSciF1aHeader) : List UInt8 :=
  serializeMandatory h ++ (serializeReTx1 h ++ (serializeReTx2 h ++ ([h.rc] ++ [])))

def deserializeMandatory (this : NrSlSciF1aHeader) : Reader NrSlSciF1aHeader := do
  let priority ← readU8
  let mcs ← readU8
  let slSciStage2Format ← readU8
  let slResourceReservePeriod ← readNtohU16
  let totalSubChannels ← readNtohU16
  let indexStartSubChannel ← readU8
  let lengthSubChannel ← readU8
  let slMaxNumPerReserve ← readU8
  pure { this with priority, mcs, slSciStage2Format, slResourceReservePeriod, totalSubChannels, indexStartSubChannel, lengthSubChannel, slMaxNumPerReserve }

def deserializeReTx1 (this : NrSlSciF1aHeader) : Reader NrSlSciF1aHeader :=
  if this.slMaxNumPerReserve = 2 ∨ this.slMaxNumPerReserve = 3 then do
    let gapReTx1 ← readU8
    let indexStartSbChReTx1 ← readU8
    pure { this with gapReTx1, indexStartSbChReTx1 }
  else pure this

def deserializeReTx2 (this : NrSlSciF1aHeader) : Reader NrSlSciF1aHeader :=
  if this.slMaxNumPerReserve = 3 then do
    let gapReTx2 ← readU8
    let indexStartSbChReTx2 ← readU8
    pure { this with gapReTx2, indexStartSbChReTx2 }
  else pure this

/-- `Deserialize` fills the header it is called on and returns `GetSerializedSize` of the result. -/
def deserialize (this : NrSlSciF1aHeader) : Reader (NrSlSciF1aHeader × Nat) := do
  let this ← deserializeMandatory this
  let this ← deserializeReTx1 this
  let this ← deserializeReTx2 this
  let rc ← readU8
  let this := { this with rc }
  pure (this, this.getSerializedSize)

/-- `operator ==`; the comparison stops before the field `rc`. -/
def operatorEq (a b : NrSlSciF1aHeader) : Bool :=
  a.priority == b.priority && a.mcs == b.mcs && a.slSciStage2Format == b.slSciStage2Format &&
    a.slResourceReservePeriod == b.slResourceReservePeriod &&
    a.totalSubChannels == b.totalSubChannels && a.indexStartSubChannel == b.indexStartSubChannel &&
    a.lengthSubChannel == b.lengthSubChannel && a.slMaxNumPerReserve == b.slMaxNumPerReserve &&
    a.gapReTx1 == b.gapReTx1 && a.gapReTx2 == b.gapReTx2 &&
    a.indexStartSbChReTx1 == b.indexStartSbChReTx1 && a.indexStartSbChReTx2 == b.indexStartSbChReTx2

/-- What a sender may put on the air: mandatory fields set, one to three reservations, and the
retransmission fields that the format does not carry left unset. -/
structure Sendable (h : NrSlSciF1aHeader) : Prop where
  mandatory : h.ensureMandConfig = true
  maxNum : h.slMaxNumPerReserve = 1 ∨ h.slMaxNumPerReserve = 2 ∨ h.slMaxNumPerReserve = 3
  unset1 : h.slMaxNumPerReserve = 1 → h.gapReTx1 = 0xFF ∧ h.indexStartSbChReTx1 = 0xFF
  unset2 : h.slMaxNumPerReserve ≠ 3 → h.gapReTx2 = 0xFF ∧ h.indexStartSbChReTx2 = 0xFF

/-- Size, writer, reader and comparison of one header agree. -/
structure CodecContract (h : NrSlSciF1aHeader) : Prop where
  written : (serialize h).length = h.getSerializedSize
  restored : ∀ rest, ∃ n, deserialize {} (serialize h ++ rest) = some ((h, n), rest) ∧
    n = (serialize h).length
  compared : ∀ b, operatorEq h b = true ↔ h = b

/-- A header that took its mandatory fields from `h`. -/
def withMandatory (this h : NrSlSciF1aHeader) : NrSlSciF1aHeader :=
  { this with
    priority := h.priority, mcs := h.mcs, slSciStage2Format := h.slSciStage2Format
    slResourceReservePeriod := h.slResourceReservePeriod, totalSubChannels := h.totalSubChannels
    indexStartSubChannel := h.indexStartSubChannel, lengthSubChannel := h.lengthSubChannel
    slMaxNumPerReserve := h.slMaxNumPerReserve }

def withReTx1 (this h : NrSlSciF1aHeader) : NrSlSciF1aHeader :=
  if this.slMaxNumPerReserve = 2 ∨ this.slMaxNumPerReserve = 3 then
    { this with gapReTx1 := h.gapReTx1, indexStartSbChReTx1 := h.indexStartSbChReTx1 }
  else this

def withReTx2 (this h : NrSlSciF1aHeader) : NrSlSciF1aHeader :=
  if this.slMaxNumPerReserve = 3 then
    { this with gapReTx2 := h.gapReTx2, indexStartSbChReTx2 := h.indexStartSbChReTx2 }
  else this

theorem reads_mandatory (this h : NrSlSciF1aHeader) :
    Reads (deserializeMandatory this) (serializeMandatory h) (withMandatory this h) :=
  (reads_u8 _).bind <| (reads_u8 _).bind <| (reads_u8 _).bind <| (reads_ntohU16 _).bind <|
    (reads_ntohU16 _).bind <| (reads_u8 _).bind <| (reads_u8 _).bind <| (reads_u8 _).bind <|
    reads_pure _

theorem reads_reTx1 {this h : NrSlSciF1aHeader}
    (hm : this.slMaxNumPerReserve = h.slMaxNumPerReserve) :
    Reads (deserializeReTx1 this) (serializeReTx1 h) (withReTx1 this h) := by
  unfold deserializeReTx1 serializeReTx1 withReTx1
  rw [hm]
  split
  · exact (reads_u8 _).bind ((reads_u8 _).bind (reads_pure _))
  · exact reads_pure _

theorem reads_reTx2 {this h : NrSlSciF1aHeader}
    (hm : this.slMaxNumPerReserve = h.slMaxNumPerReserve) :
    Reads (deserializeReTx2 this) (serializeReTx2 h) (withReTx2 this h) := by
  unfold deserializeReTx2 serializeReTx2 withReTx2
  rw [hm]
  split
  · exact (reads_u8 _).bind ((reads_u8 _).bind (reads_pure _))
  · exact reads_pure _

theorem withReTx1_slMaxNumPerReserve (this h : NrSlSciF1aHeader) :
    (withReTx1 this h).slMaxNumPerReserve = this.slMaxNumPerReserve := by
  unfold withReTx1
  split <;> rfl

/-- A fresh header that takes over what the format carries of a sendable one is that header. -/
theorem fresh_with_all {h : NrSlSciF1aHeader} (hs : Sendable h) :
    { withReTx2 (withReTx1 (withMandatory {} h) h) h with rc := h.rc } = h := by
  have two := hs.unset2
  have one := hs.unset1
  cases h
  rcases hs.maxNum with hn | hn | hn <;>
    simp_all [withReTx2, withReTx1, withMandatory]

/-- The reader gets back every field of a sendable header, `rc` included. -/
theorem reads_serialize {h : NrSlSciF1aHeader} (hs : Sendable h) :
    Reads (deserialize {}) (serialize h) (h, h.getSerializedSize) := by
  have hmax : (withMandatory {} h).slMaxNumPerReserve = h.slMaxNumPerReserve := rfl
  have hmax1 := (withReTx1_slMaxNumPerReserve (withMandatory {} h) h).trans hmax
  unfold deserialize serialize
  refine Reads.bind (reads_mandatory {} h) ?_
  refine Reads.bind (reads_reTx1 hmax) ?_
  refine Reads.bind (reads_reTx2 hmax1) ?_
  refine Reads.bind (reads_u8 h.rc) ?_
  rw [fresh_with_all hs]
  exact reads_pure _

/-- `Serialize` writes one byte more than `GetSerializedSize` announces: the byte of `rc`. -/
theorem serialize_length {h : NrSlSciF1aHeader} (hs : Sendable h) :
    (serialize h).length = h.getSerializedSize + 1 := by
  rcases hs.maxNum with hn | hn | hn <;>
    simp [serialize, serializeMandatory, serializeReTx1, serializeReTx2, getSerializedSize,
      writeHtonU16, hn]

/-- The comparison sees every field but `rc`. -/
theorem operatorEq_iff {a b : NrSlSciF1aHeader} :
    operatorEq a b = true ↔ { a with rc := b.rc } = b := by
  cases a
  cases b
  simp only [operatorEq, Bool.and_eq_true, beq_iff_eq, mk.injEq]
  tauto

/-- The smallest header of the round-trip test, with a re-selection counter set. -/
def testHeader : NrSlSciF1aHeader where
  priority := 1
  mcs := 12
  slSciStage2Format := 0
  slResourceReservePeriod := 200
  totalSubChannels := 1
  indexStartSubChannel := 0
  lengthSubChannel := 1
  slMaxNumPerReserve := 1
  rc := 5

theorem testHeader_sendable : Sendable testHeader where
  mandatory := by decide
  maxNum := by decide
  unset1 := by decide
  unset2 := by decide

/-- No header keeps the contract: `rc` is written and read but neither counted nor compared. -/
theorem sciF1a_codec_contract_never {h : NrSlSciF1aHeader} (hs : Sendable h) :
    ¬CodecContract h := by
  intro contract
  have hlen := serialize_length hs
  have hwritten := contract.written
  omega

theorem sciF1a_codec_contract_never_testHeader : ¬CodecContract testHeader :=
  sciF1a_codec_contract_never testHeader_sendable

theorem sciF1a_codec_contract_fails :
    ¬∀ h : NrSlSciF1aHeader, Sendable h → CodecContract h := by
  intro claimed
  have hwritten := (claimed testHeader testHeader_sendable).written
  exact absurd hwritten (by decide)

end NrSlSciF1aHeader

end SidelinkORe
