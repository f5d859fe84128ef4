import SidelinkORe.Sensing
import SidelinkORe.RsrpScale
import Mathlib.Algebra.Order.BigOperators.Group.List

namespace SidelinkORe

/-- One entry of the vectors `srcRnti`, `Rc`, `srcSlotNum` and `srcScNum`. -/
structure Packet where
  srcRnti : Int
  rc : Nat
  slot : Nat
  subChannel : Nat
  deriving DecidableEq

/-- What the inner loops change: the candidate's occupied subchannels, the counter of eliminated
resources and the packets collected so far. -/
structure Marking where
  occupiedSbCh : Finset Nat
  eliminatedResources : Int
  reported : List Packet

def packetOf (tx : SlotSensingData) (futureSfn : Nat) : Packet :=
  ⟨tx.srcRnti, tx.rc, futureSfn % 100, tx.sbChStart⟩

section Loops

variable (S : RsrpScale) (rsrpThreshold : Int) (firstRun : Bool)

/-- One projected transmission against one future candidate. A corrupt one adds power as well but
is not collected. -/
def hearTx (futureSfn : Nat) (acc : Marking × (Nat → S.Power)) (tx : SlotSensingData) :
    Marking × (Nat → S.Power) :=
  if futureSfn = tx.sfn ∧ tx.sbChStart ∉ acc.1.occupiedSbCh then
    let reported := if tx.corrupt = false ∧ firstRun = true then
      acc.1.reported ++ [packetOf tx futureSfn] else acc.1.reported
    let power := S.addDbm (acc.2 tx.sbChStart) tx.slRsrp
    let totRxPower := Function.update acc.2 tx.sbChStart power
    if S.above power rsrpThreshold then
      (⟨insert tx.sbChStart acc.1.occupiedSbCh, acc.1.eliminatedResources + 1, reported⟩, totRxPower)
    else (⟨acc.1.occupiedSbCh, acc.1.eliminatedResources, reported⟩, totRxPower)
  else acc

def hearFutureCand (listFutureSensTx : List SlotSensingData) (m : Marking) (futureSfn : Nat) :
    Marking :=
  (listFutureSensTx.foldl (hearTx S rsrpThreshold firstRun futureSfn) (m, fun _ => S.zero)).1

def hearEntry (futureCands : List Nat) (m : Marking) (listFutureSensTx : List SlotSensingData) :
    Marking :=
  futureCands.foldl (hearFutureCand S rsrpThreshold firstRun listFutureSensTx) m

/-- `listFutureCands`: the candidate and its repetition one reservation period later. -/
def listFutureCands (pPrimeRsvpTx sfn : Nat) : List Nat :=
  (List.range 2).map fun i => sfn + i * pPrimeRsvpTx

def markCandidate (pPrimeRsvpTx : Nat) (allSensingData : List (List SlotSensingData))
    (eliminated : Int) (reported : List Packet) (cand : NrSlSlotInfo) : Marking :=
  allSensingData.foldl
    (hearEntry S rsrpThreshold firstRun (listFutureCands pPrimeRsvpTx cand.sfn))
    ⟨cand.occupiedSbCh, eliminated, reported⟩

/-- One traversal of the candidates. -/
def exclusionPass (pPrimeRsvpTx : Nat) (allSensingData : List (List SlotSensingData)) :
    List NrSlSlotInfo → Int → List Packet → List NrSlSlotInfo × Int × List Packet
  | [], eliminated, reported => ([], eliminated, reported)
  | cand :: cands, eliminated, reported =>
    let m := markCandidate S rsrpThreshold firstRun pPrimeRsvpTx allSensingData eliminated reported cand
    let rest := exclusionPass pPrimeRsvpTx allSensingData cands m.eliminatedResources m.reported
    ({ cand with occupiedSbCh := m.occupiedSbCh } :: rest.1, rest.2)

end Loops

/-- The powers that an entry brings to one subchannel of one slot. -/
def powersAt (txs : List SlotSensingData) (sfn c : Nat) : List ℚ :=
  (txs.filter fun tx => decide (sfn = tx.sfn ∧ tx.sbChStart = c)).map (·.slRsrp)

section Occupancy

variable (S : RsrpScale) (t : Int)

def overThreshold (txs : List SlotSensingData) (sfn c : Nat) : Bool :=
  S.above (S.sum (powersAt txs sfn c)) t

/-- Some sensed entry alone is above the threshold on the subchannel, in the candidate slot or in
its repetition. -/
def Occupied (pPrimeRsvpTx : Nat) (allSensingData : List (List SlotSensingData)) (sfn c : Nat) :
    Prop :=
  ∃ txs ∈ allSensingData, ∃ f ∈ listFutureCands pPrimeRsvpTx sfn, overThreshold S t txs f c = true

variable {S t}

theorem powersAt_append (txs txs' : List SlotSensingData) (sfn c : Nat) :
    powersAt (txs ++ txs') sfn c = powersAt txs sfn c ++ powersAt txs' sfn c := by
  simp [powersAt]

theorem powersAt_singleton_hit {tx : SlotSensingData} {sfn : Nat} (h : sfn = tx.sfn) :
    powersAt [tx] sfn tx.sbChStart = [tx.slRsrp] := by
  simp [powersAt, h]

theorem powersAt_singleton_miss {tx : SlotSensingData} {sfn c : Nat}
    (h : ¬(sfn = tx.sfn ∧ tx.sbChStart = c)) : powersAt [tx] sfn c = [] := by
  simp [powersAt, h]

theorem overThreshold_append {txs txs' : List SlotSensingData} {sfn c : Nat}
    (h : overThreshold S t txs sfn c = true) : overThreshold S t (txs ++ txs') sfn c = true := by
  unfold overThreshold
  rw [powersAt_append]
  exact S.above_sum_more h

theorem overThreshold_anti {t' : Int} {txs : List SlotSensingData} {sfn c : Nat} (ht : t ≤ t')
    (h : overThreshold S t' txs sfn c = true) : overThreshold S t txs sfn c = true :=
  S.above_anti _ _ _ ht h

theorem overThreshold_of_mem (exact : S.Exact) {txs : List SlotSensingData} {tx : SlotSensingData}
    (h : tx ∈ txs) (ht : (t : ℚ) < tx.slRsrp) : overThreshold S t txs tx.sfn tx.sbChStart = true := by
  refine exact.above_sum_of_mem (List.mem_map.mpr ⟨tx, ?_, rfl⟩) ht
  exact List.mem_filter.mpr ⟨h, by simp⟩

/-- Only start subchannels of projected transmissions are ever over the threshold. -/
theorem exists_of_overThreshold {txs : List SlotSensingData} {sfn c : Nat}
    (h : overThreshold S t txs sfn c = true) :
    ∃ tx ∈ txs, tx.sfn = sfn ∧ tx.sbChStart = c := by
  have hhit : powersAt txs sfn c ≠ [] := by
    intro hnil
    rw [overThreshold, hnil, S.sum_nil, S.above_zero] at h
    cases h
  obtain ⟨r, hr⟩ := List.exists_mem_of_ne_nil _ hhit
  obtain ⟨tx, htx, _⟩ := List.mem_map.mp hr
  obtain ⟨hmem, hat⟩ := List.mem_filter.mp htx
  obtain ⟨hsfn, hstart⟩ := of_decide_eq_true hat
  exact ⟨tx, hmem, hsfn.symm, hstart⟩

theorem Occupied.anti {t' : Int} {p : Nat} {all : List (List SlotSensingData)} {sfn c : Nat}
    (ht : t ≤ t') (h : Occupied S t' p all sfn c) : Occupied S t p all sfn c := by
  obtain ⟨txs, htxs, f, hf, hover⟩ := h
  exact ⟨txs, htxs, f, hf, overThreshold_anti ht hover⟩

/-- What a future candidate has heard after a prefix of an entry: a subchannel is occupied when it
was before or when the prefix is above the threshold there, and the others hold their sum. -/
structure HeardPrefix (S : RsrpScale) (t : Int) (done : List SlotSensingData) (sfn : Nat)
    (m : Marking) (acc : Marking × (Nat → S.Power)) : Prop where
  occupied : ∀ c, c ∈ acc.1.occupiedSbCh ↔
    c ∈ m.occupiedSbCh ∨ overThreshold S t done sfn c = true
  power : ∀ c, c ∉ acc.1.occupiedSbCh → acc.2 c = S.sum (powersAt done sfn c)
  counted : acc.1.eliminatedResources - acc.1.occupiedSbCh.card =
    m.eliminatedResources - m.occupiedSbCh.card

theorem heardPrefix_start (sfn : Nat) (m : Marking) :
    HeardPrefix S t [] sfn m (m, fun _ => S.zero) where
  occupied := by
    intro c
    have hzero : overThreshold S t [] sfn c = false := S.above_zero t
    simp [hzero]
  power := fun c _ => rfl
  counted := rfl

theorem powersAt_snoc_miss {done : List SlotSensingData} {tx : SlotSensingData} {sfn c : Nat}
    (h : ¬(sfn = tx.sfn ∧ tx.sbChStart = c)) :
    powersAt (done ++ [tx]) sfn c = powersAt done sfn c := by
  rw [powersAt_append, powersAt_singleton_miss h, List.append_nil]

theorem overThreshold_snoc_miss {done : List SlotSensingData} {tx : SlotSensingData} {sfn c : Nat}
    (h : ¬(sfn = tx.sfn ∧ tx.sbChStart = c)) :
    overThreshold S t (done ++ [tx]) sfn c = overThreshold S t done sfn c := by
  rw [overThreshold, powersAt_snoc_miss h, overThreshold]

theorem sum_powersAt_snoc_hit {done : List SlotSensingData} {tx : SlotSensingData} {sfn : Nat}
    (h : sfn = tx.sfn) : S.sum (powersAt (done ++ [tx]) sfn tx.sbChStart) =
      S.addDbm (S.sum (powersAt done sfn tx.sbChStart)) tx.slRsrp := by
  rw [powersAt_append, powersAt_singleton_hit h, S.sum_append]

/-- A transmission that is skipped, because it is elsewhere or its subchannel is occupied. -/
theorem heardPrefix_skip {done : List SlotSensingData} {sfn : Nat} {m : Marking}
    {acc : Marking × (Nat → S.Power)} (h : HeardPrefix S t done sfn m acc) {tx : SlotSensingData}
    (hskip : ¬(sfn = tx.sfn ∧ tx.sbChStart ∉ acc.1.occupiedSbCh)) :
    HeardPrefix S t (done ++ [tx]) sfn m acc where
  occupied := by
    intro c
    by_cases hit : sfn = tx.sfn ∧ tx.sbChStart = c
    · have hocc : c ∈ acc.1.occupiedSbCh := by
        by_contra hc
        exact hskip ⟨hit.1, hit.2 ▸ hc⟩
      have hbefore := (h.occupied c).mp hocc
      exact ⟨fun _ => hbefore.imp_right overThreshold_append, fun _ => hocc⟩
    · rw [overThreshold_snoc_miss hit]
      exact h.occupied c
  power := by
    intro c hc
    have hmiss : ¬(sfn = tx.sfn ∧ tx.sbChStart = c) := by
      rintro ⟨hsfn, rfl⟩
      exact hskip ⟨hsfn, hc⟩
    rw [powersAt_snoc_miss hmiss]
    exact h.power c hc
  counted := h.counted

theorem heardPrefix_step {first : Bool} {done : List SlotSensingData} {sfn : Nat} {m : Marking}
    {acc : Marking × (Nat → S.Power)} (h : HeardPrefix S t done sfn m acc) (tx : SlotSensingData) :
    HeardPrefix S t (done ++ [tx]) sfn m (hearTx S t first sfn acc tx) := by
  unfold hearTx
  split
  next hhit =>
    obtain ⟨hsfn, hfree⟩ := hhit
    have hsum : S.addDbm (acc.2 tx.sbChStart) tx.slRsrp =
        S.sum (powersAt (done ++ [tx]) sfn tx.sbChStart) := by
      rw [sum_powersAt_snoc_hit hsfn, h.power _ hfree]
    have hmiss : ∀ c, c ≠ tx.sbChStart → ¬(sfn = tx.sfn ∧ tx.sbChStart = c) :=
      fun c hc hit => hc hit.2.symm
    have hpower : ∀ c, c ∉ acc.1.occupiedSbCh →
        Function.update acc.2 tx.sbChStart (S.addDbm (acc.2 tx.sbChStart) tx.slRsrp) c =
          S.sum (powersAt (done ++ [tx]) sfn c) := by
      intro c hc
      by_cases hcs : c = tx.sbChStart
      · rw [hcs, Function.update_self, hsum]
      · rw [Function.update_of_ne hcs, powersAt_snoc_miss (hmiss c hcs)]
        exact h.power c hc
    simp only
    split
    next habove =>
      rw [hsum] at habove
      refine ⟨fun c => ?_, fun c hc => hpower c fun hin => hc (Finset.mem_insert_of_mem hin), ?_⟩
      · by_cases hcs : c = tx.sbChStart
        · rw [hcs]
          exact ⟨fun _ => Or.inr habove, fun _ => Finset.mem_insert_self _ _⟩
        · rw [Finset.mem_insert, overThreshold_snoc_miss (hmiss c hcs), h.occupied c]
          exact ⟨fun hor => hor.resolve_left hcs, Or.inr⟩
      · have hcount := h.counted
        rw [Finset.card_insert_of_notMem hfree]
        push_cast
        omega
    next hbelow =>
      rw [hsum] at hbelow
      refine ⟨fun c => ?_, hpower, h.counted⟩
      by_cases hcs : c = tx.sbChStart
      · rw [hcs]
        have hnot : ¬(tx.sbChStart ∈ m.occupiedSbCh ∨ overThreshold S t done sfn tx.sbChStart = true) :=
          fun hor => hfree ((h.occupied _).mpr hor)
        constructor
        · intro hin
          exact absurd hin hfree
        · rintro (hin | hover)
          · exact absurd (Or.inl hin) hnot
          · exact absurd hover hbelow
      · rw [overThreshold_snoc_miss (hmiss c hcs)]
        exact h.occupied c
  next hskip => exact heardPrefix_skip h hskip

/-- A step that occupies exactly the subchannels it is over the threshold on, and counts them. -/
structure Heard (loud : Nat → Prop) (m m' : Marking) : Prop where
  occupied : ∀ c, c ∈ m'.occupiedSbCh ↔ c ∈ m.occupiedSbCh ∨ loud c
  counted : m'.eliminatedResources - m'.occupiedSbCh.card =
    m.eliminatedResources - m.occupiedSbCh.card

theorem hearFutureCand_heard (first : Bool) (txs : List SlotSensingData) (m : Marking) (sfn : Nat) :
    Heard (fun c => overThreshold S t txs sfn c = true) m (hearFutureCand S t first txs m sfn) := by
  have hall : HeardPrefix S t txs sfn m
      (txs.foldl (hearTx S t first sfn) (m, fun _ => S.zero)) := by
    induction txs using List.reverseRecOn with
    | nil => exact heardPrefix_start sfn m
    | append_singleton done tx ih =>
      rw [List.foldl_append]
      exact heardPrefix_step ih tx
  exact ⟨hall.occupied, hall.counted⟩

theorem heard_trans {loud loud' : Nat → Prop} {m m' m'' : Marking} (h : Heard loud m m')
    (h' : Heard loud' m' m'') : Heard (fun c => loud c ∨ loud' c) m m'' where
  occupied := by
    intro c
    rw [h'.occupied c, h.occupied c, or_assoc]
  counted := h'.counted.trans h.counted

theorem heard_foldl {α : Type} {loud : α → Nat → Prop} {f : Marking → α → Marking}
    (step : ∀ m a, Heard (loud a) m (f m a)) (l : List α) (m : Marking) :
    Heard (fun c => ∃ a ∈ l, loud a c) m (l.foldl f m) := by
  induction l generalizing m with
  | nil => exact ⟨by simp, rfl⟩
  | cons a l ih =>
    have hboth := heard_trans (step m a) (ih (f m a))
    refine ⟨fun c => ?_, hboth.counted⟩
    rw [List.foldl_cons, hboth.occupied c, List.exists_mem_cons_iff]

theorem hearEntry_heard (first : Bool) (futureCands : List Nat) (m : Marking)
    (txs : List SlotSensingData) :
    Heard (fun c => ∃ f ∈ futureCands, overThreshold S t txs f c = true) m
      (hearEntry S t first futureCands m txs) :=
  heard_foldl (fun m f => hearFutureCand_heard first txs m f) futureCands m

theorem markCandidate_heard (first : Bool) (p : Nat) (all : List (List SlotSensingData))
    (eliminated : Int) (reported : List Packet) (cand : NrSlSlotInfo) :
    Heard (Occupied S t p all cand.sfn) ⟨cand.occupiedSbCh, eliminated, reported⟩
      (markCandidate S t first p all eliminated reported cand) :=
  heard_foldl (hearEntry_heard first (listFutureCands p cand.sfn)) all _

variable (S t) in
/-- The subchannels that a pass at threshold `t` leaves occupied in a slot that was free. -/
def occupancy (p : Nat) (all : List (List SlotSensingData)) (sfn : Nat) : Finset Nat :=
  (markCandidate S t false p all 0 [] { shape := {}, sfn := sfn, occupiedSbCh := ∅ }).occupiedSbCh

theorem mem_occupancy {p : Nat} {all : List (List SlotSensingData)} {sfn c : Nat} :
    c ∈ occupancy S t p all sfn ↔ Occupied S t p all sfn c := by
  have hmark := markCandidate_heard (S := S) (t := t) false p all 0 []
    { shape := {}, sfn := sfn, occupiedSbCh := ∅ }
  exact (hmark.occupied c).trans (or_iff_right (Finset.notMem_empty c))

theorem occupancy_anti {t' : Int} (ht : t ≤ t') (p : Nat) (all : List (List SlotSensingData))
    (sfn : Nat) : occupancy S t' p all sfn ⊆ occupancy S t p all sfn := by
  intro c hc
  exact mem_occupancy.mpr ((mem_occupancy.mp hc).anti ht)

variable (S t) in
def occupiedCandidates (p : Nat) (all : List (List SlotSensingData)) (cands : List NrSlSlotInfo) :
    List NrSlSlotInfo :=
  cands.map fun c => { c with occupiedSbCh := occupancy S t p all c.sfn }

variable (S t) in
/-- The number of occupied single-slot resources. -/
def occupiedCount (p : Nat) (all : List (List SlotSensingData)) (cands : List NrSlSlotInfo) : Nat :=
  (cands.map fun c => (occupancy S t p all c.sfn).card).sum

theorem occupiedCount_anti {t' : Int} (ht : t ≤ t') (p : Nat) (all : List (List SlotSensingData))
    (cands : List NrSlSlotInfo) :
    occupiedCount S t' p all cands ≤ occupiedCount S t p all cands := by
  apply List.sum_le_sum
  intro c _
  exact Finset.card_le_card (occupancy_anti ht p all c.sfn)

/-- The incremental counter of a pass agrees with the sizes of the occupied sets. -/
theorem exclusionPass_eq (first : Bool) (p : Nat) (all : List (List SlotSensingData))
    {cands : List NrSlSlotInfo} (free : ∀ c ∈ cands, c.occupiedSbCh = ∅)
    (eliminated : Int) (reported : List Packet) :
    (exclusionPass S t first p all cands eliminated reported).1 = occupiedCandidates S t p all cands ∧
      (exclusionPass S t first p all cands eliminated reported).2.1 =
        eliminated + occupiedCount S t p all cands := by
  induction cands generalizing eliminated reported with
  | nil => simp [exclusionPass, occupiedCandidates, occupiedCount]
  | cons c cands ih =>
    have hmark := markCandidate_heard (S := S) (t := t) first p all eliminated reported c
    have hfree := free c (by simp)
    obtain ⟨hcands, hcount⟩ := ih (fun x hx => free x (List.mem_cons_of_mem c hx))
      (markCandidate S t first p all eliminated reported c).eliminatedResources
      (markCandidate S t first p all eliminated reported c).reported
    have hocc : (markCandidate S t first p all eliminated reported c).occupiedSbCh =
        occupancy S t p all c.sfn := by
      ext x
      rw [hmark.occupied x, mem_occupancy, hfree]
      exact or_iff_right (Finset.notMem_empty x)
    have hcounted := hmark.counted
    rw [hocc, hfree, Finset.card_empty] at hcounted
    unfold exclusionPass
    simp only [hcands, hcount, hocc, occupiedCandidates, occupiedCount, List.map_cons, List.sum_cons,
      true_and]
    push_cast at hcounted ⊢
    omega

end Occupancy

end SidelinkORe
