import SidelinkORe.SciProjection
import SidelinkORe.SchedulerAnswer

namespace SidelinkORe

section Gaps

/-- A gap cast to eight bits points to the next slot `y`, and to no later one, if it does not need
the cast and is not the value that announces nothing. -/
theorem gap_meets {x y slot : Nat} (hxy : x < y) (hy : y ≤ slot) :
    (y - x) % 256 ≠ 255 ∧ x + (y - x) % 256 = slot ↔ y = slot ∧ slot - x < 255 := by
  constructor
  · rintro ⟨hne, heq⟩
    omega
  · rintro ⟨rfl, hlt⟩
    omega

theorem gapByte_eq {x y : NrSlSlotAlloc} (h : x.sfn < y.sfn) :
    gapByte x y = (y.sfn - x.sfn) % 256 := by
  unfold gapByte subU64
  omega

end Gaps

section Agreement

variable {W : Type} (S : RsrpScale) (cfg : UeMacConfig) (sched : SchedulerConfig)

/-- A grant that the MAC created from the answer of the scheduler, with all that led to it. -/
structure ScheduledGrant (W : Type) (S : RsrpScale) (cfg : UeMacConfig) (sched : SchedulerConfig) where
  sfn : Nat
  now : Nat
  sensingData : List SensingData
  grantInfo : GrantTable
  availbleReso : List NrSlSlotInfo
  message : Option SensingMessage
  offered : getNrSlTxOpportunities S cfg.toSelectionConfig now sensingData sfn =
    .ok (availbleReso, message)
  getResourceSelections : W → Except Fault (Text × W)
  dst : SchedulerDstInfo
  lc : SchedulerLc
  channel : soleLogicalChannel sched dst = .ok lc
  draws : Draws
  world : W
  choice : Choice
  answer : Draws × W
  chosen : chooseResources sched getResourceSelections dst lc.totalQueueSize
    (filterTxOpportunities grantInfo availbleReso) draws world = .ok (choice, answer)
  reselDraw : Nat
  reselCounter : Nat
  counter : getRndmReselectionCounter cfg reselDraw = .ok reselCounter
  grant : NrSlGrantInfo
  created : createGrantInfo cfg reselCounter (reselCounter * 10) (allocateSlots dst lc choice) =
    .ok grant

namespace ScheduledGrant

variable {S cfg sched} (o : ScheduledGrant W S cfg sched)

/-- The allocations of one period. -/
def period : List NrSlSlotAlloc := (allocateSlots o.dst o.lc o.choice).elems

/-- The allocations of all periods, in the order of their slots. -/
def transmissions : SlotAllocSet := o.grant.slotAllocations

/-- How far the `p`-th period lies behind the first one. -/
def offset (_ : ScheduledGrant W S cfg sched) (p : Nat) : Nat :=
  p * cfg.pool.resvPeriodInSlots cfg.pRsvpTx

/-- The subchannel at which the transmission in a slot really starts. -/
def usedSubCh (slot : Nat) : Nat :=
  match o.transmissions.elems.find? fun x => decide (x.sfn = slot) with
  | some x => x.slPsschSubChStart
  | none => 65535

/-- Transmission number `j` of the grant is allocation number `k` of the `p`-th period; it carries
an SCI 1-A and another period follows. -/
structure CarriesSci (p k j : Nat) (a : NrSlSlotAlloc) : Prop where
  followed : p + 1 < o.reselCounter * 10
  allocation : o.period[k]? = some a
  txSci1A : a.txSci1A = true
  transmission : o.transmissions.elems[j]? = some (shiftAlloc (o.offset p) a)

/-- The slot of the SCI and the transmissions of the same period that it announces. -/
def announcedPairs (p k : Nat) (a : NrSlSlotAlloc) : List (Nat × Nat) :=
  ((o.period.drop k).take a.maxNumPerReserve).map fun b =>
    (b.sfn + o.offset p, o.usedSubCh (b.sfn + o.offset p))

/-- What a receiver projects from the SCI 1-A of one transmission is the announced part of its
period, repeated every reservation period. -/
def AgreesAt (rx : SelectionConfig) (p k j : Nat) (a : NrSlSlotAlloc) : Prop :=
  ∀ slResoReselCounter : Int, ∃ sciF1a,
    buildSciF1a cfg (shiftAlloc (o.offset p) a) (o.transmissions.elems.drop (j + 1))
      slResoReselCounter = .ok sciF1a ∧
    ∀ rsrpDbm corrupt rnti,
      (getFutSlotsBasedOnSens rx
        (sensingDataOf (a.sfn + o.offset p) sciF1a rsrpDbm corrupt rnti)).map slotAndStart =
      rounds (projectedPeriods rx cfg.pRsvpTx + 1)
        (fun i => laterBy (i * cfg.pool.resvPeriodInSlots cfg.pRsvpTx)) (o.announcedPairs p k a)

def ProjectionAgrees (rx : SelectionConfig) : Prop :=
  ∀ p k j a, o.CarriesSci p k j a → o.AgreesAt rx p k j a

/-- The number of transmissions an SCI 1-A of allocation `k` counts: it is taken from the number of
selected slots, in which a slot selected twice counts twice. -/
def counted (k : Nat) : Nat := min cfg.pool.shape.slMaxNumPerReserve (o.choice.slots.length - k)

/-- A counted transmission `y` is the one that the period continues with, less than 255 slots after
the SCI at `x`; where the period has ended, only a distance of 255 (modulo 256) announces nothing. -/
def MeetsPeriod (p x y : Nat) : Option NrSlSlotAlloc → Prop
  | some b => y = b.sfn + o.offset p ∧ y - x < 255
  | none => (y - x) % 256 = 255

/-- Every counted transmission meets the period. Two gaps that announce nothing are equal, which
the assertions of the header do not accept. -/
def AnnouncesAt (p k j : Nat) (a : NrSlSlotAlloc) : Prop :=
  (∀ q, 1 ≤ q → q < o.counted k → ∃ y, o.transmissions.elems[j + q]? = some y ∧
    o.MeetsPeriod p (a.sfn + o.offset p) y.sfn o.period[k + q]?) ∧
  (cfg.assertsEnabled = true → o.counted k = 3 → k + 1 < o.period.length)

def AnnouncesPeriod : Prop := ∀ p k j a, o.CarriesSci p k j a → o.AnnouncesAt p k j a

/-- What the source fixes for the fields of the header: their unset values are not used. -/
structure FieldsSet : Prop where
  priority : o.lc.priority < 255
  mcs : o.dst.dstMcs < 255
  subChannels : sched.totalSubCh = cfg.totalSubCh
  totalSubCh : cfg.totalSubCh < 255
  reserve : cfg.pool.shape.slMaxNumPerReserve = 1 ∨ cfg.pool.shape.slMaxNumPerReserve = 2 ∨
    cfg.pool.shape.slMaxNumPerReserve = 3

variable {o}

theorem sound : o.choice.Sound sched (filterTxOpportunities o.grantInfo o.availbleReso) :=
  chooseResources_sound o.chosen

theorem allocated : Allocated o.dst o.lc o.choice o.choice.slots
    (allocateSlots o.dst o.lc o.choice) := sound.allocated o.lc

theorem shape_of_slot {it : NrSlSlotInfo × Nat} (h : it ∈ o.choice.slots) :
    it.1.shape = cfg.pool.shape :=
  getNrSlTxOpportunities_shape o.offered _ (mem_filterTxOpportunities.mp (sound.drawn it h)).1

/-- Allocation number `k` of a period. -/
theorem period_at {k : Nat} {a : NrSlSlotAlloc} (h : o.period[k]? = some a) :
    ∃ it ∈ o.choice.slots, a = slotAllocOf o.dst o.lc o.choice k it := allocated.numbered k a h

theorem maxNumPerReserve_eq {k : Nat} {a : NrSlSlotAlloc} (h : o.period[k]? = some a) :
    a.maxNumPerReserve = cfg.pool.shape.slMaxNumPerReserve := by
  obtain ⟨it, hit, rfl⟩ := period_at h
  exact congrArg SlotShape.slMaxNumPerReserve (shape_of_slot hit)

theorem slotNumInd_eq {k : Nat} {a : NrSlSlotAlloc} (h : o.period[k]? = some a)
    (hsci : a.txSci1A = true) : a.slotNumInd = o.counted k := by
  obtain ⟨it, hit, rfl⟩ := period_at h
  have hshape := congrArg SlotShape.slMaxNumPerReserve (shape_of_slot hit)
  have hmod := of_decide_eq_true hsci
  change (if k % it.1.shape.slMaxNumPerReserve = 0 then _ else _) = _
  rw [if_pos hmod, hshape]
  unfold counted
  split <;> omega

theorem transmissions_eq : o.transmissions = KeyedSet.empty.emplaceAll
    (expandAllocs (o.reselCounter * 10) (cfg.pool.resvPeriodInSlots cfg.pRsvpTx) o.period) := by
  unfold transmissions
  rw [createGrantInfo_ok o.created]
  rfl

theorem start_lt (hset : o.FieldsSet) {x : NrSlSlotAlloc} (h : x ∈ o.transmissions.elems) :
    x.slPsschSubChStart < 255 := by
  obtain ⟨i, _, a, ha, rfl⟩ := (createGrantInfo_slots o.created).1 x h
  obtain ⟨k, hk⟩ := List.mem_iff_getElem?.mp ha
  obtain ⟨it, hit, rfl⟩ := period_at hk
  have hlt := sound.subChannel it hit
  have htotal := hset.totalSubCh
  have hsame := hset.subChannels
  change it.2 < 255
  omega

theorem mandatorySet (hset : o.FieldsSet) {p k j : Nat} {a : NrSlSlotAlloc}
    (h : o.CarriesSci p k j a) : MandatorySet cfg (shiftAlloc (o.offset p) a) := by
  have hmem := List.mem_of_getElem? h.transmission
  have hstart := start_lt hset hmem
  have hmax := maxNumPerReserve_eq h.allocation
  obtain ⟨it, hit, rfl⟩ := period_at h.allocation
  have hperiod := getRndmReselectionCounter_period o.counter
  have hlength := (sound (o := o)).size_le
  have hsame := hset.subChannels
  have htotal := hset.totalSubCh
  refine ⟨hset.priority, hset.mcs, by omega, by omega, hstart, ?_, ?_⟩
  · change o.choice.assignedSbCh < 255
    omega
  · change it.1.shape.slMaxNumPerReserve = 1 ∨ it.1.shape.slMaxNumPerReserve = 2 ∨
      it.1.shape.slMaxNumPerReserve = 3
    rw [shape_of_slot hit]
    exact hset.reserve

/-- Every allocation of every period has its slot among the transmissions. -/
theorem slot_used {p k : Nat} {b : NrSlSlotAlloc} (hp : p < o.reselCounter * 10)
    (h : o.period[k]? = some b) :
    ∃ y ∈ o.transmissions.elems, y.sfn = b.sfn + o.offset p := by
  have hmem : shiftAlloc (o.offset p) b ∈ expandAllocs (o.reselCounter * 10)
      (cfg.pool.resvPeriodInSlots cfg.pRsvpTx) o.period :=
    mem_expandAllocs.mpr ⟨p, hp, b, List.mem_of_getElem? h, rfl⟩
  rw [transmissions_eq]
  exact KeyedSet.exists_key_emplaceAll hmem

theorem usedSubCh_of_mem {x : NrSlSlotAlloc} (h : x ∈ o.transmissions.elems) :
    o.usedSubCh x.sfn = x.slPsschSubChStart := by
  unfold usedSubCh
  cases hfind : o.transmissions.elems.find? fun y => decide (y.sfn = x.sfn) with
  | none =>
    have hnone := List.find?_eq_none.mp hfind x h
    simp at hnone
  | some y =>
    have hkey : y.sfn = x.sfn := by simpa using List.find?_some hfind
    rw [KeyedSet.eq_of_key_eq (List.mem_of_find?_eq_some hfind) h hkey]

/-- The pair of the `q`-th transmission after allocation `k` in its period, if there is one. -/
def following (o : ScheduledGrant W S cfg sched) (p k q : Nat) : List (Nat × Nat) :=
  (o.period[k + q]?).toList.map fun b =>
    (b.sfn + o.offset p, o.usedSubCh (b.sfn + o.offset p))

theorem counted_le_three (hset : o.FieldsSet) (k : Nat) : o.counted k ≤ 3 := by
  have hreserve := hset.reserve
  unfold counted
  omega

theorem period_length_le : o.period.length ≤ o.choice.slots.length := allocated.count

section Carried

variable {p k j : Nat} {a : NrSlSlotAlloc}

theorem counted_pos (hset : o.FieldsSet) (h : o.CarriesSci p k j a) : 1 ≤ o.counted k := by
  obtain ⟨hk, _⟩ := List.getElem?_eq_some_iff.mp h.allocation
  have hlen := period_length_le (o := o)
  have hreserve := hset.reserve
  unfold counted
  omega

/-- The announced part of a period, transmission by transmission. -/
theorem announcedPairs_eq (h : o.CarriesSci p k j a) :
    o.announcedPairs p k a = ((o.period.drop k).take (o.counted k)).map fun b =>
      (b.sfn + o.offset p, o.usedSubCh (b.sfn + o.offset p)) := by
  have hlen := period_length_le (o := o)
  unfold announcedPairs
  rw [maxNumPerReserve_eq h.allocation, List.take_eq_take_iff.mpr]
  rw [List.length_drop]
  unfold counted
  omega

theorem first_pair (h : o.CarriesSci p k j a) :
    (a.sfn + o.offset p, o.usedSubCh (a.sfn + o.offset p)) =
      ((shiftAlloc (o.offset p) a).sfn, (shiftAlloc (o.offset p) a).slPsschSubChStart) := by
  have hused := usedSubCh_of_mem (List.mem_of_getElem? h.transmission)
  exact Prod.ext rfl hused

theorem drop_take_succ (l : List NrSlSlotAlloc) (k n : Nat) :
    (l.drop k).take (n + 1) = (l.drop k).take n ++ (l[k + n]?).toList := by
  rw [List.take_add_one, List.getElem?_drop]

theorem announcedPairs_one (h : o.CarriesSci p k j a) (hcounted : o.counted k = 1) :
    o.announcedPairs p k a = [((shiftAlloc (o.offset p) a).sfn,
      (shiftAlloc (o.offset p) a).slPsschSubChStart)] := by
  rw [announcedPairs_eq h, hcounted, drop_take_succ, List.take_zero, List.nil_append, Nat.add_zero,
    h.allocation, Option.toList_some, List.map_singleton, first_pair h]

theorem announcedPairs_two (h : o.CarriesSci p k j a) (hcounted : o.counted k = 2) :
    o.announcedPairs p k a = ((shiftAlloc (o.offset p) a).sfn,
      (shiftAlloc (o.offset p) a).slPsschSubChStart) :: o.following p k 1 := by
  rw [announcedPairs_eq h, hcounted, drop_take_succ, drop_take_succ, List.take_zero,
    List.nil_append, Nat.add_zero, h.allocation, Option.toList_some, List.map_append,
    List.map_singleton, first_pair h]
  rfl

theorem announcedPairs_three (h : o.CarriesSci p k j a) (hcounted : o.counted k = 3) :
    o.announcedPairs p k a = ((shiftAlloc (o.offset p) a).sfn,
      (shiftAlloc (o.offset p) a).slPsschSubChStart) ::
        (o.following p k 1 ++ o.following p k 2) := by
  rw [announcedPairs_eq h, hcounted, drop_take_succ, drop_take_succ, drop_take_succ, List.take_zero,
    List.nil_append, Nat.add_zero, h.allocation, Option.toList_some, List.map_append,
    List.map_append, List.map_singleton, first_pair h]
  rfl

/-- A later allocation of the period lies after the SCI and is one of the transmissions. -/
theorem later_slot (h : o.CarriesSci p k j a) {q : Nat} (hq : 0 < q) {b : NrSlSlotAlloc}
    (hb : o.period[k + q]? = some b) :
    (shiftAlloc (o.offset p) a).sfn < b.sfn + o.offset p ∧
      ∃ y ∈ o.transmissions.elems, y.sfn = b.sfn + o.offset p := by
  have hfollowed := h.followed
  refine ⟨?_, slot_used (by omega) hb⟩
  have hlt : a.sfn < b.sfn := KeyedSet.key_lt_of_getElem? h.allocation hb (by omega)
  exact Nat.add_lt_add_right hlt _

/-- A gap adds the pair of the period exactly when its transmission meets the period. -/
theorem gapPairs_eq_iff {q : Nat} {y : NrSlSlotAlloc}
    (hy : y ∈ o.transmissions.elems) (hafter : (shiftAlloc (o.offset p) a).sfn < y.sfn)
    (hnext : ∀ b, o.period[k + q]? = some b → y.sfn ≤ b.sfn + o.offset p) :
    gapPairs (shiftAlloc (o.offset p) a) y = o.following p k q ↔
      o.MeetsPeriod p (a.sfn + o.offset p) y.sfn o.period[k + q]? := by
  have hgap := gapByte_eq hafter
  unfold gapPairs following
  cases hb : o.period[k + q]? with
  | none =>
    rw [hgap]
    change _ ↔ (y.sfn - (a.sfn + o.offset p)) % 256 = 255
    change (if (y.sfn - (a.sfn + o.offset p)) % 256 = 255 then [] else _) = [] ↔ _
    split <;> simp_all
  | some b =>
    have hmeets := gap_meets hafter (hnext b hb)
    rw [hgap]
    change (if (y.sfn - (shiftAlloc (o.offset p) a).sfn) % 256 = 255 then []
      else [((shiftAlloc (o.offset p) a).sfn + (y.sfn - (shiftAlloc (o.offset p) a).sfn) % 256,
        y.slPsschSubChStart)]) = [(b.sfn + o.offset p, o.usedSubCh (b.sfn + o.offset p))] ↔
      y.sfn = b.sfn + o.offset p ∧ y.sfn - (shiftAlloc (o.offset p) a).sfn < 255
    constructor
    · intro heq
      split at heq
      next => cases heq
      next hne =>
        have hslot := (Prod.mk.inj (List.singleton_inj.mp heq)).1
        obtain ⟨hysfn, hlt⟩ := hmeets.mp ⟨hne, hslot⟩
        exact ⟨hysfn, hysfn ▸ hlt⟩
    · rintro ⟨hysfn, hlt⟩
      obtain ⟨hne, hslot⟩ := hmeets.mpr ⟨hysfn, hysfn ▸ hlt⟩
      rw [if_neg hne, hslot, ← hysfn, usedSubCh_of_mem hy]

theorem gapPairs_length (x y : NrSlSlotAlloc) : (gapPairs x y).length ≤ 1 := by
  unfold gapPairs
  split <;> simp

/-- The projection of one SCI agrees when what the receiver hears is the announced part. -/
theorem agrees_iff_heard (rx : SelectionConfig) (hrx : rx.pool = cfg.pool) {announced : NrSlSciF1aHeader} {next : List NrSlSlotAlloc}
    {counter : Int}
    (hann : announceRetransmissions cfg.assertsEnabled (shiftAlloc (o.offset p) a) next
      (sciF1aOfAlloc cfg (shiftAlloc (o.offset p) a)) = .ok announced) {rsrpDbm : ℚ}
    {corrupt : Bool} {rnti : Int} :
    (getFutSlotsBasedOnSens rx (sensingDataOf (a.sfn + o.offset p) (withRc announced counter)
      rsrpDbm corrupt rnti)).map slotAndStart =
        rounds (projectedPeriods rx cfg.pRsvpTx + 1)
          (fun i => laterBy (i * cfg.pool.resvPeriodInSlots cfg.pRsvpTx)) (o.announcedPairs p k a) ↔
      heardPairs (shiftAlloc (o.offset p) a) (withRc announced counter) rsrpDbm corrupt rnti =
        o.announcedPairs p k a := by
  have hperiod : (sensingDataOf (a.sfn + o.offset p) (withRc announced counter) rsrpDbm corrupt
      rnti).rsvp = cfg.pRsvpTx := by
    obtain ⟨_, _, _, _, rfl⟩ := announceRetransmissions_ok hann
    have hle := getRndmReselectionCounter_period o.counter
    change (UInt16.ofNat cfg.pRsvpTx).toNat = cfg.pRsvpTx
    rw [UInt16.toNat_ofNat']
    exact Nat.mod_eq_of_lt (by omega)
  rw [getFutSlotsBasedOnSens_pairs, hperiod, hrx]
  constructor
  · intro heq
    refine rounds_injective (Nat.succ_pos _) ?_ heq
    intro u v huv
    simpa [laterBy, Prod.ext_iff] using huv
  · intro heq
    rw [← heq]
    rfl

/-- The next transmission comes not later than the next allocation of the period. -/
theorem next_le_slot (h : o.CarriesSci p k j a) {y : NrSlSlotAlloc}
    (hy : o.transmissions.elems[j + 1]? = some y) (b : NrSlSlotAlloc)
    (hb : o.period[k + 1]? = some b) : y.sfn ≤ b.sfn + o.offset p := by
  obtain ⟨hlt, c, hc, hcb⟩ := later_slot h (by omega) hb
  rw [← hcb] at hlt ⊢
  exact KeyedSet.next_le h.transmission hy hc hlt

/-- The second next transmission comes not later than the second next allocation, if the first one
is the next allocation. -/
theorem second_le_slot (h : o.CarriesSci p k j a) {y z b : NrSlSlotAlloc}
    (hy : o.transmissions.elems[j + 1]? = some y) (hz : o.transmissions.elems[j + 2]? = some z)
    (hb : o.period[k + 1]? = some b) (hyb : y.sfn = b.sfn + o.offset p) (c : NrSlSlotAlloc)
    (hc : o.period[k + 2]? = some c) : z.sfn ≤ c.sfn + o.offset p := by
  obtain ⟨_, d, hd, hdc⟩ := later_slot h (by omega) hc
  have hbc : b.sfn < c.sfn := KeyedSet.key_lt_of_getElem? hb hc (by omega)
  rw [← hdc]
  refine KeyedSet.next_le hy hz hd ?_
  change y.sfn < d.sfn
  omega

theorem period_second_none (hn : o.period[k + 1]? = none) : o.period[k + 2]? = none := by
  rw [List.getElem?_eq_none_iff] at hn ⊢
  omega

/-- After a first announced slot that meets the period the second one comes in time. -/
theorem second_le_of_meets (h : o.CarriesSci p k j a) {y z : NrSlSlotAlloc}
    (hy : o.transmissions.elems[j + 1]? = some y) (hz : o.transmissions.elems[j + 2]? = some z)
    (hmeets : o.MeetsPeriod p (a.sfn + o.offset p) y.sfn o.period[k + 1]?) (c : NrSlSlotAlloc)
    (hc : o.period[k + 2]? = some c) : z.sfn ≤ c.sfn + o.offset p := by
  cases hb : o.period[k + 1]? with
  | none =>
    rw [period_second_none hb] at hc
    cases hc
  | some b =>
    rw [hb] at hmeets
    exact second_le_slot h hy hz hb hmeets.1 c hc

/-- Two gaps that announce what follows do so one by one: a gap of 255 to `y` cannot be made up for
by the gap to `z`. -/
theorem firstGap_of_twoGaps (h : o.CarriesSci p k j a) {y z : NrSlSlotAlloc}
    (hy : o.transmissions.elems[j + 1]? = some y) (hz : o.transmissions.elems[j + 2]? = some z)
    (heq : gapPairs (shiftAlloc (o.offset p) a) y ++ gapPairs (shiftAlloc (o.offset p) a) z =
      o.following p k 1 ++ o.following p k 2) :
    gapPairs (shiftAlloc (o.offset p) a) y = o.following p k 1 := by
  have hxy := KeyedSet.key_lt_of_getElem? h.transmission hy (by omega)
  have hxz := KeyedSet.key_lt_of_getElem? h.transmission hz (by omega)
  cases hb : o.period[k + 1]? with
  | none =>
    unfold following at heq ⊢
    rw [hb, period_second_none hb] at heq
    rw [hb]
    exact (List.append_eq_nil_iff.mp heq).1
  | some b =>
    by_cases hgap : gapPairs (shiftAlloc (o.offset p) a) y = []
    · exfalso
      have hle := next_le_slot h hy b hb
      have hybyte := gapByte_eq hxy
      have hzbyte := gapByte_eq hxz
      rw [hgap, List.nil_append] at heq
      unfold following at heq
      rw [hb] at heq
      unfold gapPairs at heq hgap
      split at hgap
      next h255 =>
        split at heq
        next => simp at heq
        next hne =>
          have hslot := (Prod.mk.inj (List.cons.inj heq).1).1
          omega
      next => cases hgap
    · have hlen := gapPairs_length (shiftAlloc (o.offset p) a) y
      have hpos := List.length_pos_iff.mpr hgap
      have hone : (o.following p k 1).length = 1 := by
        unfold following
        rw [hb]
        rfl
      exact (List.append_inj heq (by omega)).1

/-- Two gaps add the two pairs of the period exactly when both transmissions meet it. -/
theorem twoGaps_eq_iff (h : o.CarriesSci p k j a) {y z : NrSlSlotAlloc}
    (hy : o.transmissions.elems[j + 1]? = some y) (hz : o.transmissions.elems[j + 2]? = some z) :
    gapPairs (shiftAlloc (o.offset p) a) y ++ gapPairs (shiftAlloc (o.offset p) a) z =
        o.following p k 1 ++ o.following p k 2 ↔
      o.MeetsPeriod p (a.sfn + o.offset p) y.sfn o.period[k + 1]? ∧
        o.MeetsPeriod p (a.sfn + o.offset p) z.sfn o.period[k + 2]? := by
  have hxy := KeyedSet.key_lt_of_getElem? h.transmission hy (by omega)
  have hxz := KeyedSet.key_lt_of_getElem? h.transmission hz (by omega)
  have hfirst := gapPairs_eq_iff (List.mem_of_getElem? hy) hxy (next_le_slot h hy)
  constructor
  · intro heq
    have hone := firstGap_of_twoGaps h hy hz heq
    have hmeets := hfirst.mp hone
    rw [hone] at heq
    exact ⟨hmeets, (gapPairs_eq_iff (List.mem_of_getElem? hz) hxz
      (second_le_of_meets h hy hz hmeets)).mp (List.append_cancel_left heq)⟩
  · rintro ⟨hmeetsY, hmeetsZ⟩
    rw [hfirst.mpr hmeetsY, (gapPairs_eq_iff (List.mem_of_getElem? hz) hxz
      (second_le_of_meets h hy hz hmeetsY)).mpr hmeetsZ]

/-- Both gaps of a period rise; two times nothing does not. -/
theorem gaps_rise_iff (h : o.CarriesSci p k j a) {y z : NrSlSlotAlloc}
    (hy : o.transmissions.elems[j + 1]? = some y) (hz : o.transmissions.elems[j + 2]? = some z)
    (hmeetsY : o.MeetsPeriod p (a.sfn + o.offset p) y.sfn o.period[k + 1]?)
    (hmeetsZ : o.MeetsPeriod p (a.sfn + o.offset p) z.sfn o.period[k + 2]?) :
    gapByte (shiftAlloc (o.offset p) a) y < gapByte (shiftAlloc (o.offset p) a) z ↔
      k + 1 < o.period.length := by
  have hxy := KeyedSet.key_lt_of_getElem? h.transmission hy (by omega)
  have hxz := KeyedSet.key_lt_of_getElem? h.transmission hz (by omega)
  have hyz := KeyedSet.key_lt_of_getElem? hy hz (by omega)
  rw [gapByte_eq hxy, gapByte_eq hxz]
  change (y.sfn - (a.sfn + o.offset p)) % 256 < (z.sfn - (a.sfn + o.offset p)) % 256 ↔ _
  change a.sfn + o.offset p < y.sfn at hxy
  change y.sfn < z.sfn at hyz
  cases hb : o.period[k + 1]? with
  | none =>
    have hlen := List.getElem?_eq_none_iff.mp hb
    have hc : o.period[k + 2]? = none := List.getElem?_eq_none_iff.mpr (by omega)
    rw [hb] at hmeetsY
    rw [hc] at hmeetsZ
    change (y.sfn - (a.sfn + o.offset p)) % 256 = 255 at hmeetsY
    change (z.sfn - (a.sfn + o.offset p)) % 256 = 255 at hmeetsZ
    omega
  | some b =>
    obtain ⟨hlen, _⟩ := List.getElem?_eq_some_iff.mp hb
    rw [hb] at hmeetsY
    obtain ⟨_, hy255⟩ := hmeetsY
    cases hc : o.period[k + 2]? with
    | none =>
      rw [hc] at hmeetsZ
      change (z.sfn - (a.sfn + o.offset p)) % 256 = 255 at hmeetsZ
      omega
    | some c =>
      rw [hc] at hmeetsZ
      obtain ⟨_, hz255⟩ := hmeetsZ
      omega

theorem sent_slotNumInd (h : o.CarriesSci p k j a) :
    (shiftAlloc (o.offset p) a).slotNumInd = o.counted k := by
  have hind := slotNumInd_eq h.allocation h.txSci1A
  exact hind

theorem sent_reserve (h : o.CarriesSci p k j a) :
    (shiftAlloc (o.offset p) a).maxNumPerReserve = cfg.pool.shape.slMaxNumPerReserve := by
  have hreserve := maxNumPerReserve_eq h.allocation
  exact hreserve

theorem counted_le_reserve : o.counted k ≤ cfg.pool.shape.slMaxNumPerReserve := Nat.min_le_left _ _

theorem rest_getElem? (o : ScheduledGrant W S cfg sched) (j i : Nat) :
    (o.transmissions.elems.drop (j + 1))[i]? = o.transmissions.elems[j + (i + 1)]? := by
  rw [List.getElem?_drop]
  congr 1
  omega

/-- Agreement is about the header that the announcement yields. -/
theorem agreesAt_iff_heard (hset : o.FieldsSet) (h : o.CarriesSci p k j a) (rx : SelectionConfig)
    (hrx : rx.pool = cfg.pool) : o.AgreesAt rx p k j a ↔
      ∃ announced, announceRetransmissions cfg.assertsEnabled (shiftAlloc (o.offset p) a)
        (o.transmissions.elems.drop (j + 1)) (sciF1aOfAlloc cfg (shiftAlloc (o.offset p) a)) =
          .ok announced ∧
        ∀ counter rsrpDbm corrupt rnti, heardPairs (shiftAlloc (o.offset p) a)
          (withRc announced counter) rsrpDbm corrupt rnti = o.announcedPairs p k a := by
  have hmand := mandatorySet hset h
  constructor
  · intro hagrees
    obtain ⟨_, hbuild, _⟩ := hagrees 0
    obtain ⟨announced, hann, rfl⟩ := (buildSciF1a_ok_iff hmand).mp hbuild
    refine ⟨announced, hann, fun counter rsrpDbm corrupt rnti => ?_⟩
    obtain ⟨_, hbuild', hheard⟩ := hagrees counter
    obtain ⟨announced', hann', rfl⟩ := (buildSciF1a_ok_iff hmand).mp hbuild'
    obtain rfl := Except.ok.inj (hann.symm.trans hann')
    exact (agrees_iff_heard rx hrx hann).mp (hheard rsrpDbm corrupt rnti)
  · rintro ⟨announced, hann, hheard⟩ counter
    refine ⟨_, (buildSciF1a_ok_iff hmand).mpr ⟨announced, hann, rfl⟩, fun rsrpDbm corrupt rnti => ?_⟩
    exact (agrees_iff_heard rx hrx hann).mpr (hheard counter rsrpDbm corrupt rnti)

theorem agreesAt_one (hset : o.FieldsSet) (h : o.CarriesSci p k j a) (rx : SelectionConfig)
    (hrx : rx.pool = cfg.pool) (hcounted : o.counted k = 1) : o.AgreesAt rx p k j a := by
  have hx := start_lt hset (List.mem_of_getElem? h.transmission)
  have hind : (shiftAlloc (o.offset p) a).slotNumInd ≤ 1 := by
    rw [sent_slotNumInd h]
    omega
  refine (agreesAt_iff_heard hset h rx hrx).mpr ⟨_, (announce_none hind).mpr rfl, ?_⟩
  intro counter rsrpDbm corrupt rnti
  rw [heardPairs_none hx, announcedPairs_one h hcounted]

theorem agreesAt_two (hset : o.FieldsSet) (h : o.CarriesSci p k j a) (rx : SelectionConfig)
    (hrx : rx.pool = cfg.pool) (hcounted : o.counted k = 2) : o.AgreesAt rx p k j a ↔
      ∃ y, o.transmissions.elems[j + 1]? = some y ∧
        o.MeetsPeriod p (a.sfn + o.offset p) y.sfn o.period[k + 1]? := by
  have hx := start_lt hset (List.mem_of_getElem? h.transmission)
  have hreserve : 2 ≤ (shiftAlloc (o.offset p) a).maxNumPerReserve := by
    have hle := counted_le_reserve (o := o) (k := k)
    rw [sent_reserve h]
    omega
  have hann : ∀ announced, announceRetransmissions cfg.assertsEnabled (shiftAlloc (o.offset p) a)
      (o.transmissions.elems.drop (j + 1)) (sciF1aOfAlloc cfg (shiftAlloc (o.offset p) a)) =
        .ok announced ↔ ∃ y, (o.transmissions.elems.drop (j + 1))[0]? = some y ∧
          announced = announcingOne cfg (shiftAlloc (o.offset p) a) y := fun _ =>
    announce_one (mandatorySet hset h) ((sent_slotNumInd h).trans hcounted) hreserve
  have hpairs : ∀ y, o.transmissions.elems[j + 1]? = some y →
      (gapPairs (shiftAlloc (o.offset p) a) y = o.following p k 1 ↔
        o.MeetsPeriod p (a.sfn + o.offset p) y.sfn o.period[k + 1]?) := fun y hy =>
    gapPairs_eq_iff (List.mem_of_getElem? hy)
      (KeyedSet.key_lt_of_getElem? h.transmission hy (by omega)) (next_le_slot h hy)
  rw [agreesAt_iff_heard hset h rx hrx]
  constructor
  · rintro ⟨announced, hannounced, hheard⟩
    obtain ⟨y, hy, rfl⟩ := (hann announced).mp hannounced
    rw [rest_getElem? o j 0] at hy
    have hpair := hheard 0 0 false 0
    rw [heardPairs_one hx (start_lt hset (List.mem_of_getElem? hy)),
      announcedPairs_two h hcounted] at hpair
    exact ⟨y, hy, (hpairs y hy).mp (List.cons.inj hpair).2⟩
  · rintro ⟨y, hy, hmeets⟩
    refine ⟨_, (hann _).mpr ⟨y, (rest_getElem? o j 0).trans hy, rfl⟩, ?_⟩
    intro counter rsrpDbm corrupt rnti
    rw [heardPairs_one hx (start_lt hset (List.mem_of_getElem? hy)), announcedPairs_two h hcounted,
      (hpairs y hy).mpr hmeets]

theorem agreesAt_three (hset : o.FieldsSet) (h : o.CarriesSci p k j a) (rx : SelectionConfig)
    (hrx : rx.pool = cfg.pool) (hcounted : o.counted k = 3) : o.AgreesAt rx p k j a ↔
      ∃ y z, o.transmissions.elems[j + 1]? = some y ∧ o.transmissions.elems[j + 2]? = some z ∧
        o.MeetsPeriod p (a.sfn + o.offset p) y.sfn o.period[k + 1]? ∧
        o.MeetsPeriod p (a.sfn + o.offset p) z.sfn o.period[k + 2]? ∧
        (cfg.assertsEnabled = true → k + 1 < o.period.length) := by
  have hx := start_lt hset (List.mem_of_getElem? h.transmission)
  have hreserve : (shiftAlloc (o.offset p) a).maxNumPerReserve = 3 := by
    have hle := counted_le_reserve (o := o) (k := k)
    have hset3 := hset.reserve
    rw [sent_reserve h]
    omega
  have hann : ∀ announced, announceRetransmissions cfg.assertsEnabled (shiftAlloc (o.offset p) a)
      (o.transmissions.elems.drop (j + 1)) (sciF1aOfAlloc cfg (shiftAlloc (o.offset p) a)) =
        .ok announced ↔ ∃ y z, (o.transmissions.elems.drop (j + 1))[0]? = some y ∧
          (o.transmissions.elems.drop (j + 1))[1]? = some z ∧
          (cfg.assertsEnabled = true →
            gapByte (shiftAlloc (o.offset p) a) y < gapByte (shiftAlloc (o.offset p) a) z) ∧
          announced = announcingTwo cfg (shiftAlloc (o.offset p) a) y z := fun _ =>
    announce_two ((sent_slotNumInd h).trans hcounted) hreserve
  rw [agreesAt_iff_heard hset h rx hrx]
  constructor
  · rintro ⟨announced, hannounced, hheard⟩
    obtain ⟨y, z, hy, hz, hrise, rfl⟩ := (hann announced).mp hannounced
    rw [rest_getElem? o j 0] at hy
    rw [rest_getElem? o j 1] at hz
    have hpair := hheard 0 0 false 0
    rw [heardPairs_two hx (start_lt hset (List.mem_of_getElem? hy))
      (start_lt hset (List.mem_of_getElem? hz)), announcedPairs_three h hcounted] at hpair
    obtain ⟨hmeetsY, hmeetsZ⟩ := (twoGaps_eq_iff h hy hz).mp (List.cons.inj hpair).2
    exact ⟨y, z, hy, hz, hmeetsY, hmeetsZ,
      fun ha => (gaps_rise_iff h hy hz hmeetsY hmeetsZ).mp (hrise ha)⟩
  · rintro ⟨y, z, hy, hz, hmeetsY, hmeetsZ, hrise⟩
    refine ⟨_, (hann _).mpr ⟨y, z, (rest_getElem? o j 0).trans hy, (rest_getElem? o j 1).trans hz,
      fun ha => (gaps_rise_iff h hy hz hmeetsY hmeetsZ).mpr (hrise ha), rfl⟩, ?_⟩
    intro counter rsrpDbm corrupt rnti
    rw [heardPairs_two hx (start_lt hset (List.mem_of_getElem? hy))
      (start_lt hset (List.mem_of_getElem? hz)), announcedPairs_three h hcounted,
      (twoGaps_eq_iff h hy hz).mpr ⟨hmeetsY, hmeetsZ⟩]

/-- The SCI of one transmission is projected right exactly when it announces its period. -/
theorem agreesAt_iff (hset : o.FieldsSet) (h : o.CarriesSci p k j a) (rx : SelectionConfig)
    (hrx : rx.pool = cfg.pool) : o.AgreesAt rx p k j a ↔ o.AnnouncesAt p k j a := by
  have hone := counted_pos hset h
  have hthree := counted_le_three hset k
  obtain hcounted | hcounted | hcounted : o.counted k = 1 ∨ o.counted k = 2 ∨ o.counted k = 3 := by
    omega
  · exact iff_of_true (agreesAt_one hset h rx hrx hcounted)
      ⟨fun q _ _ => by omega, fun _ _ => by omega⟩
  · rw [agreesAt_two hset h rx hrx hcounted]
    constructor
    · rintro ⟨y, hy, hmeets⟩
      refine ⟨fun q hlow hhigh => ?_, fun _ _ => by omega⟩
      obtain rfl : q = 1 := by omega
      exact ⟨y, hy, hmeets⟩
    · rintro ⟨hmeets, _⟩
      exact hmeets 1 le_rfl (by omega)
  · rw [agreesAt_three hset h rx hrx hcounted]
    constructor
    · rintro ⟨y, z, hy, hz, hmeetsY, hmeetsZ, hrise⟩
      refine ⟨fun q hlow hhigh => ?_, fun ha _ => hrise ha⟩
      obtain rfl | rfl : q = 1 ∨ q = 2 := by omega
      · exact ⟨y, hy, hmeetsY⟩
      · exact ⟨z, hz, hmeetsZ⟩
    · rintro ⟨hmeets, hrise⟩
      obtain ⟨y, hy, hmeetsY⟩ := hmeets 1 le_rfl (by omega)
      obtain ⟨z, hz, hmeetsZ⟩ := hmeets 2 (by omega) (by omega)
      exact ⟨y, z, hy, hz, hmeetsY, hmeetsZ, fun ha => hrise ha hcounted⟩

end Carried

/-- A receiver projects what the sender does exactly when every transmission that an SCI counts
belongs to the SCI's period and lies less than 255 slots ahead. -/
theorem projectionAgrees_iff_announcesPeriod (o : ScheduledGrant W S cfg sched) (hset : o.FieldsSet)
    (rx : SelectionConfig) (hrx : rx.pool = cfg.pool) : o.ProjectionAgrees rx ↔ o.AnnouncesPeriod := by
  constructor
  · intro hagrees p k j a h
    exact (agreesAt_iff hset h rx hrx).mp (hagrees p k j a h)
  · intro hannounces p k j a h
    exact (agreesAt_iff hset h rx hrx).mpr (hannounces p k j a h)

end ScheduledGrant

end Agreement

section FarSlots

/-- One sidelink slot in 256, so that the next one is 256 slots ahead. -/
def farPool : NrSlCommResourcePool where
  phyPool := [false, false, true] ++ List.replicate 253 false
  phyPool_ne_nil := by decide
  shape := { slMaxNumPerReserve := 2 }
  slSelectionWindow := 5
  numerology := 0
  resvPeriodInSlots := fun ms => ms
  sensWindInSlots := 100

def farConfig : UeMacConfig where
  pool := farPool
  t1 := 2
  t2 := 300
  totalSubCh := 4
  pRsvpTx := 1000
  tproc0 := 1
  enableSensing := false
  slThresPsschRsrp := -110
  resPercentage := 20
  oReExp := false
  imsi := 1
  schedulingType := .ueSelected
  assertsEnabled := false
  slProbResourceKeep := 0
  enableBlindReTx := true
  srcL2Id := 10
  sidelinkTxDestinations := [(255, 1)]
  nrSlLcInfoMap := [(1, 255)]
  destinations_nodup := soleDestination_nodup

def farSched : SchedulerConfig where
  assertsEnabled := false
  totalSubCh := 4
  slMaxTxTransNumPssch := 2
  fixedNrSlMcs := true
  oReExp := false
  calculateTbSize := fun _ nprb => nprb + 100

def farDst : SchedulerDstInfo where
  dstL2Id := 255
  dstMcs := 14
  lcgs := [⟨[⟨1, 1, 50, 0, 0⟩], 50⟩]

theorem far_offered (S : RsrpScale) :
    getNrSlTxOpportunities S farConfig.toSelectionConfig 0 [] 0 =
      .ok ([⟨{ slMaxNumPerReserve := 2 }, 2, ∅⟩, ⟨{ slMaxNumPerReserve := 2 }, 258, ∅⟩], none) := by
  have hopps : farPool.getNrSlCommOpportunities 0 2 300 =
      .ok [⟨{ slMaxNumPerReserve := 2 }, 2, 2⟩, ⟨{ slMaxNumPerReserve := 2 }, 258, 258⟩] := by
    decide +kernel
  unfold getNrSlTxOpportunities
  change (farPool.getNrSlCommOpportunities 0 2 300 >>= _) = _
  rw [hopps]
  rfl

/-- The grant for the slots 2 and 258, drawn by the plain branch. -/
def farGrant (S : RsrpScale) : ScheduledGrant Unit S farConfig farSched where
  sfn := 0
  now := 0
  sensingData := []
  grantInfo := Table.empty
  availbleReso := [⟨{ slMaxNumPerReserve := 2 }, 2, ∅⟩, ⟨{ slMaxNumPerReserve := 2 }, 258, ∅⟩]
  message := none
  offered := far_offered S
  getResourceSelections := fun w => .ok ([], w)
  dst := farDst
  lc := ⟨1, 1, 50, 0, 0⟩
  channel := by rfl
  draws := [0, 3]
  world := ()
  choice := ⟨[(⟨{ slMaxNumPerReserve := 2 }, 2, ∅⟩, 0), (⟨{ slMaxNumPerReserve := 2 }, 258, ∅⟩, 3)],
    0, 1, 95⟩
  answer := ([], ())
  chosen := by rfl
  reselDraw := 0
  reselCounter := 5
  counter := by rfl
  grant := _
  created := createGrantInfo_release rfl _ _ _

theorem farGrant_fieldsSet (S : RsrpScale) : (farGrant S).FieldsSet where
  priority := (by decide : 1 < 255)
  mcs := (by decide : 14 < 255)
  subChannels := by decide
  totalSubCh := by decide
  reserve := by decide

theorem farGrant_carriesSci (S : RsrpScale) : ∃ a, (farGrant S).CarriesSci 0 0 0 a ∧ a.sfn = 2 ∧
    (farGrant S).counted 0 = 2 ∧ ((farGrant S).transmissions.elems[1]?).map (·.sfn) = some 258 := by
  refine ⟨slotAllocOf farDst ⟨1, 1, 50, 0, 0⟩ (farGrant S).choice 0
    (⟨{ slMaxNumPerReserve := 2 }, 2, ∅⟩, 0), ⟨?_, ?_, ?_, ?_⟩, ?_, ?_, ?_⟩
  · exact (by decide : 0 + 1 < 5 * 10)
  · rfl
  · rfl
  · rfl
  · rfl
  · rfl
  · rfl

theorem projectionAgrees_iff_announcesPeriod_farSlots :
    (farGrant realScale).ProjectionAgrees farConfig.toSelectionConfig ↔
      (farGrant realScale).AnnouncesPeriod :=
  (farGrant realScale).projectionAgrees_iff_announcesPeriod (farGrant_fieldsSet realScale) _ rfl

/-- A gap of 256 slots is put on the air as 0. -/
theorem projectionAgrees_fails_farSlots : (farGrant realScale).FieldsSet ∧
    ¬(farGrant realScale).ProjectionAgrees farConfig.toSelectionConfig := by
  refine ⟨farGrant_fieldsSet realScale, fun hagrees => ?_⟩
  obtain ⟨a, hcarries, hsfn, hcounted, hnext⟩ := farGrant_carriesSci realScale
  obtain ⟨hmeets, _⟩ := (ScheduledGrant.agreesAt_iff (farGrant_fieldsSet realScale) hcarries
    farConfig.toSelectionConfig rfl).mp (hagrees 0 0 0 a hcarries)
  obtain ⟨y, hy, hmeetsY⟩ := hmeets 1 le_rfl (by omega)
  rw [Nat.zero_add] at hy
  rw [hy] at hnext
  have hysfn : y.sfn = 258 := Option.some.inj hnext
  have hsecond : ((farGrant realScale).period[0 + 1]?).map (·.sfn) = some 258 := rfl
  cases hb : (farGrant realScale).period[0 + 1]? with
  | none =>
    rw [hb] at hsecond
    cases hsecond
  | some b =>
    rw [hb] at hmeetsY
    have hgap : y.sfn - (a.sfn + 0 * farConfig.pool.resvPeriodInSlots 1000) < 255 := hmeetsY.2
    omega

end FarSlots

end SidelinkORe
