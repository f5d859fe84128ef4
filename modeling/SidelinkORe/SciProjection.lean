import SidelinkORe.GrantUse
import SidelinkORe.Rounds

namespace SidelinkORe

section Sender

variable {cfg : UeMacConfig} {x y z : NrSlSlotAlloc} {next : List NrSlSlotAlloc} {counter : Int}

/-- A gap as it is put on the air. -/
def gapByte (x y : NrSlSlotAlloc) : Nat := subU64 y.sfn x.sfn % 256

/-- The fields that the sender fills from its configuration and from the allocation are neither
out of range nor equal to the value that means unset. -/
structure MandatorySet (cfg : UeMacConfig) (x : NrSlSlotAlloc) : Prop where
  priority : x.priority < 255
  mcs : x.mcs < 255
  period : cfg.pRsvpTx < 65535
  totalSubCh : cfg.totalSubCh < 65535
  start : x.slPsschSubChStart < 255
  length : x.slPsschSubChLength < 255
  reserve : x.maxNumPerReserve = 1 ∨ x.maxNumPerReserve = 2 ∨ x.maxNumPerReserve = 3

theorem ofNat_ne_unset {n : Nat} (h : n < 255) : UInt8.ofNat n ≠ 0xFF := by
  intro heq
  have hn := congrArg UInt8.toNat heq
  rw [UInt8.toNat_ofNat'] at hn
  change n % 256 = 255 at hn
  omega

theorem ofNat16_ne_unset {n : Nat} (h : n < 65535) : UInt16.ofNat n ≠ 0xFFFF := by
  intro heq
  have hn := congrArg UInt16.toNat heq
  rw [UInt16.toNat_ofNat'] at hn
  change n % 65536 = 65535 at hn
  omega

theorem sciF1aOfAlloc_mandatory (h : MandatorySet cfg x) :
    (sciF1aOfAlloc cfg x).ensureMandConfig = true := by
  have hreserve : x.maxNumPerReserve < 255 := by
    have := h.reserve
    omega
  unfold NrSlSciF1aHeader.ensureMandConfig sciF1aOfAlloc
  simp only [Bool.and_eq_true, bne_iff_ne]
  exact ⟨⟨⟨⟨⟨⟨⟨ofNat_ne_unset h.priority, ofNat_ne_unset h.mcs⟩, by decide⟩,
    ofNat16_ne_unset h.period⟩, ofNat16_ne_unset h.totalSubCh⟩, ofNat_ne_unset h.start⟩,
    ofNat_ne_unset h.length⟩, ofNat_ne_unset hreserve⟩

theorem sciF1aOfAlloc_reserve (h : MandatorySet cfg x) :
    (sciF1aOfAlloc cfg x).slMaxNumPerReserve = 1 ∨ (sciF1aOfAlloc cfg x).slMaxNumPerReserve = 2 ∨
      (sciF1aOfAlloc cfg x).slMaxNumPerReserve = 3 := by
  unfold sciF1aOfAlloc
  rcases h.reserve with h | h | h
  · exact Or.inl (by rw [h]; rfl)
  · exact Or.inr (Or.inl (by rw [h]; rfl))
  · exact Or.inr (Or.inr (by rw [h]; rfl))

/-- The header of an allocation that announces the next one. -/
def announcingOne (cfg : UeMacConfig) (x y : NrSlSlotAlloc) : NrSlSciF1aHeader :=
  { sciF1aOfAlloc cfg x with
    gapReTx1 := .ofNat (gapByte x y)
    indexStartSbChReTx1 := .ofNat (y.slPsschSubChStart % 256) }

def announcingTwo (cfg : UeMacConfig) (x y z : NrSlSlotAlloc) : NrSlSciF1aHeader :=
  { announcingOne cfg x y with
    gapReTx2 := .ofNat (gapByte x z)
    indexStartSbChReTx2 := .ofNat (z.slPsschSubChStart % 256) }

def withRc (sciF1a : NrSlSciF1aHeader) (counter : Int) : NrSlSciF1aHeader :=
  { sciF1a with rc := .ofInt counter }

theorem announce_none (hind : x.slotNumInd ≤ 1) {announced : NrSlSciF1aHeader} :
    announceRetransmissions cfg.assertsEnabled x next (sciF1aOfAlloc cfg x) = .ok announced ↔
      announced = sciF1aOfAlloc cfg x := by
  rw [announceRetransmissions, if_neg (by omega), pure_ok_iff, eq_comm]

theorem announce_one (h : MandatorySet cfg x) (hind : x.slotNumInd = 2)
    (hreserve : 2 ≤ x.maxNumPerReserve) {announced : NrSlSciF1aHeader} :
    announceRetransmissions cfg.assertsEnabled x next (sciF1aOfAlloc cfg x) = .ok announced ↔
      ∃ y, next[0]? = some y ∧ announced = announcingOne cfg x y := by
  have hallowed : (sciF1aOfAlloc cfg x).slMaxNumPerReserve = 2 ∨
      (sciF1aOfAlloc cfg x).slMaxNumPerReserve = 3 := by
    unfold sciF1aOfAlloc
    rcases h.reserve with h | h | h
    · omega
    · exact Or.inl (by rw [h]; rfl)
    · exact Or.inr (by rw [h]; rfl)
  rw [announceRetransmissions, if_pos (by omega), hind]
  unfold computeGaps getStartSbChOfReTx setRetransmissions
  simp only [Nat.add_one_sub_one, advancing, List.mapM_cons, List.mapM_nil, bind_ok_iff,
    orFault_ok_iff, pure_ok_iff, require_ok_iff, Nat.add_zero]
  constructor
  · rintro ⟨gaps, ⟨_, ⟨y, hy, rfl⟩, _, rfl, rfl⟩, starts, ⟨_, ⟨y', hy', rfl⟩, _, rfl, rfl⟩, hset⟩
    obtain rfl := Option.some.inj (hy.symm.trans hy')
    obtain ⟨_, hgap, _, hstart, _, _, hset⟩ := hset
    obtain rfl := Option.some.inj hgap
    obtain rfl := Option.some.inj hstart
    exact ⟨y, hy, (pure_ok_iff.mp hset).symm⟩
  · rintro ⟨y, hy, rfl⟩
    exact ⟨_, ⟨_, ⟨y, hy, rfl⟩, [], rfl, rfl⟩, _, ⟨_, ⟨y, hy, rfl⟩, [], rfl, rfl⟩,
      _, rfl, _, rfl, (), fun _ => hallowed, rfl⟩

theorem announce_two (hind : x.slotNumInd = 3) (hreserve : x.maxNumPerReserve = 3)
    {announced : NrSlSciF1aHeader} :
    announceRetransmissions cfg.assertsEnabled x next (sciF1aOfAlloc cfg x) = .ok announced ↔
      ∃ y z, next[0]? = some y ∧ next[1]? = some z ∧
        (cfg.assertsEnabled = true → gapByte x y < gapByte x z) ∧
        announced = announcingTwo cfg x y z := by
  have hallowed : (sciF1aOfAlloc cfg x).slMaxNumPerReserve = 3 := by
    unfold sciF1aOfAlloc
    rw [hreserve]
    rfl
  rw [announceRetransmissions, if_pos (by omega), hind]
  unfold computeGaps getStartSbChOfReTx setRetransmissions
  simp only [Nat.add_one_sub_one, advancing, List.mapM_cons, List.mapM_nil, bind_ok_iff,
    orFault_ok_iff, pure_ok_iff, require_ok_iff, Nat.add_zero, Nat.zero_add]
  constructor
  · rintro ⟨gaps, ⟨_, ⟨y, hy, rfl⟩, _, ⟨_, ⟨z, hz, rfl⟩, _, rfl, rfl⟩, rfl⟩,
      starts, ⟨_, ⟨y', hy', rfl⟩, _, ⟨_, ⟨z', hz', rfl⟩, _, rfl, rfl⟩, rfl⟩, hset⟩
    obtain rfl := Option.some.inj (hy.symm.trans hy')
    obtain rfl := Option.some.inj (hz.symm.trans hz')
    obtain ⟨_, hgap, _, hstart, _, _, hset⟩ := hset
    obtain rfl := Option.some.inj hgap
    obtain rfl := Option.some.inj hstart
    rw [if_pos (by simp)] at hset
    simp only [bind_ok_iff, orFault_ok_iff, require_ok_iff, pure_ok_iff] at hset
    obtain ⟨_, hgap, _, hstart, _, _, _, _, _, hrising, hset⟩ := hset
    obtain rfl := Option.some.inj hgap
    obtain rfl := Option.some.inj hstart
    exact ⟨y, z, hy, hz, hrising, hset.symm⟩
  · rintro ⟨y, z, hy, hz, hrising, rfl⟩
    refine ⟨_, ⟨_, ⟨y, hy, rfl⟩, _, ⟨_, ⟨z, hz, rfl⟩, [], rfl, rfl⟩, rfl⟩,
      _, ⟨_, ⟨y, hy, rfl⟩, _, ⟨_, ⟨z, hz, rfl⟩, [], rfl, rfl⟩, rfl⟩,
      _, rfl, _, rfl, (), fun _ => Or.inr hallowed, ?_⟩
    rw [if_pos (by simp)]
    simp only [bind_ok_iff, orFault_ok_iff, require_ok_iff, pure_ok_iff]
    exact ⟨_, rfl, _, rfl, (), fun _ => hallowed, (), fun ha => (hrising ha).ne', (), hrising, rfl⟩

/-- The announcement decides whether a sender with set fields sends an SCI 1-A, and which. -/
theorem buildSciF1a_ok_iff (h : MandatorySet cfg x) {sci : NrSlSciF1aHeader} :
    buildSciF1a cfg x next counter = .ok sci ↔
      ∃ announced, announceRetransmissions cfg.assertsEnabled x next (sciF1aOfAlloc cfg x) =
        .ok announced ∧ sci = withRc announced counter := by
  have hmandatory : ∀ announced : NrSlSciF1aHeader,
      announceRetransmissions cfg.assertsEnabled x next (sciF1aOfAlloc cfg x) = .ok announced →
      (withRc announced counter).ensureMandConfig = true := by
    intro announced hannounced
    obtain ⟨_, _, _, _, rfl⟩ := announceRetransmissions_ok hannounced
    exact sciF1aOfAlloc_mandatory h
  unfold buildSciF1a
  simp only [bind_ok_iff, require_ok_iff, pure_ok_iff]
  constructor
  · rintro ⟨_, _, announced, hannounced, _, _, rfl⟩
    exact ⟨announced, hannounced, rfl⟩
  · rintro ⟨announced, hannounced, rfl⟩
    exact ⟨(), fun _ => sciF1aOfAlloc_reserve h, announced, hannounced, (),
      fun _ => hmandatory announced hannounced, rfl⟩

end Sender

section Receiver

/-- What the PHY hands to the MAC for a received SCI 1-A. -/
def sensingDataOf (sfn : Nat) (sciF1a : NrSlSciF1aHeader) (rsrpDbm : ℚ) (corrupt : Bool)
    (rnti : Int) : SensingData where
  sfn := sfn
  rsvp := sciF1a.slResourceReservePeriod.toNat
  sbChLength := sciF1a.lengthSubChannel.toNat
  sbChStart := sciF1a.indexStartSubChannel.toNat
  prio := sciF1a.priority.toNat
  slRsrp := rsrpDbm
  gapReTx1 := sciF1a.gapReTx1.toNat
  sbChStartReTx1 := sciF1a.indexStartSbChReTx1.toNat
  gapReTx2 := sciF1a.gapReTx2.toNat
  sbChStartReTx2 := sciF1a.indexStartSbChReTx2.toNat
  corrupt := corrupt
  rc := sciF1a.rc.toNat
  srcRnti := rnti

def slotAndStart (tx : SlotSensingData) : Nat × Nat := (tx.sfn, tx.sbChStart)

def laterBy (slots : Nat) (pair : Nat × Nat) : Nat × Nat := (pair.1 + slots, pair.2)

/-- The projection repeats the announced slots every reservation period. -/
theorem getFutSlotsBasedOnSens_pairs (rx : SelectionConfig) (d : SensingData) :
    (getFutSlotsBasedOnSens rx d).map slotAndStart =
      rounds (projectedPeriods rx d.rsvp + 1)
        (fun i => laterBy (i * rx.pool.resvPeriodInSlots d.rsvp))
        ((announcedSlots d d.sfn).map slotAndStart) := by
  unfold getFutSlotsBasedOnSens rounds
  rw [List.map_flatMap]
  refine List.flatMap_congr fun i _ => ?_
  unfold announcedSlots
  split <;> split <;>
    simp [slotAndStart, laterBy, Nat.add_right_comm]

/-- The pair that a gap adds to the slot of the SCI, if it announces anything. -/
def gapPairs (x y : NrSlSlotAlloc) : List (Nat × Nat) :=
  if gapByte x y = 255 then [] else [(x.sfn + gapByte x y, y.slPsschSubChStart)]

theorem announcedSlots_pairs (d : SensingData) (sfn : Nat) :
    (announcedSlots d sfn).map slotAndStart = (sfn, d.sbChStart) ::
      ((if d.gapReTx1 = 255 then [] else [(sfn + d.gapReTx1, d.sbChStartReTx1)]) ++
       (if d.gapReTx2 = 255 then [] else [(sfn + d.gapReTx2, d.sbChStartReTx2)])) := by
  unfold announcedSlots
  by_cases h1 : d.gapReTx1 = 255 <;> by_cases h2 : d.gapReTx2 = 255 <;>
    simp [slotAndStart, h1, h2]

theorem toNat_byte (n : Nat) : (UInt8.ofNat (n % 256)).toNat = n % 256 := by
  rw [UInt8.toNat_ofNat']
  exact Nat.mod_mod n 256

theorem toNat_small {n : Nat} (h : n < 255) : (UInt8.ofNat n).toNat = n := by
  rw [UInt8.toNat_ofNat']
  exact Nat.mod_eq_of_lt (by omega)

section Heard

variable {cfg : UeMacConfig} {x y z : NrSlSlotAlloc} {counter : Int} {rsrpDbm : ℚ} {corrupt : Bool}
  {rnti : Int}

/-- The pairs that a receiver reads from a header sent in the slot of `x`. -/
def heardPairs (x : NrSlSlotAlloc) (sciF1a : NrSlSciF1aHeader) (rsrpDbm : ℚ) (corrupt : Bool)
    (rnti : Int) : List (Nat × Nat) :=
  (announcedSlots (sensingDataOf x.sfn sciF1a rsrpDbm corrupt rnti) x.sfn).map slotAndStart

theorem heardPairs_none (hx : x.slPsschSubChStart < 255) :
    heardPairs x (withRc (sciF1aOfAlloc cfg x) counter) rsrpDbm corrupt rnti =
      [(x.sfn, x.slPsschSubChStart)] := by
  rw [heardPairs, announcedSlots_pairs]
  change (x.sfn, (UInt8.ofNat x.slPsschSubChStart).toNat) :: _ = _
  rw [toNat_small hx]
  rfl

/-- What is heard of a later slot from its two bytes. -/
theorem gapPairs_written (hy : y.slPsschSubChStart < 255) :
    (if (UInt8.ofNat (gapByte x y)).toNat = 255 then []
      else [(x.sfn + (UInt8.ofNat (gapByte x y)).toNat,
        (UInt8.ofNat (y.slPsschSubChStart % 256)).toNat)]) = gapPairs x y := by
  have hgap : (UInt8.ofNat (gapByte x y)).toNat = gapByte x y := toNat_byte _
  have hstart : (UInt8.ofNat (y.slPsschSubChStart % 256)).toNat = y.slPsschSubChStart := by
    rw [toNat_byte]
    omega
  rw [hgap, hstart]
  rfl

theorem heardPairs_one (hx : x.slPsschSubChStart < 255) (hy : y.slPsschSubChStart < 255) :
    heardPairs x (withRc (announcingOne cfg x y) counter) rsrpDbm corrupt rnti =
      (x.sfn, x.slPsschSubChStart) :: gapPairs x y := by
  rw [heardPairs, announcedSlots_pairs, ← gapPairs_written hy]
  change (x.sfn, (UInt8.ofNat x.slPsschSubChStart).toNat) :: (_ ++ []) = _
  rw [toNat_small hx, List.append_nil]
  rfl

theorem heardPairs_two (hx : x.slPsschSubChStart < 255) (hy : y.slPsschSubChStart < 255)
    (hz : z.slPsschSubChStart < 255) :
    heardPairs x (withRc (announcingTwo cfg x y z) counter) rsrpDbm corrupt rnti =
      (x.sfn, x.slPsschSubChStart) :: (gapPairs x y ++ gapPairs x z) := by
  rw [heardPairs, announcedSlots_pairs, ← gapPairs_written hy, ← gapPairs_written hz]
  change (x.sfn, (UInt8.ofNat x.slPsschSubChStart).toNat) :: (_ ++ _) = _
  rw [toNat_small hx]
  rfl

end Heard

end Receiver

end SidelinkORe
