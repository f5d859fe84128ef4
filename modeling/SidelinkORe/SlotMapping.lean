import SidelinkORe.SchedulerAnswer
import SidelinkORe.RisingList

namespace SidelinkORe

/-- The packet was reported for the slot `t.1` ahead, in the selection window, on subchannel `t.2`.
Python holds a subchannel as one digit. -/
structure LiesAhead (cfg : SelectionConfig) (sfn : Nat) (packet : ReceivedPacket) (t : Nat × Nat) :
    Prop where
  low : cfg.t1 ≤ t.1
  high : t.1 ≤ cfg.t2
  slot : packet.slot = (((sfn + t.1) % 100 : Nat) : Int)
  subChannel : packet.subChannel = ((t.2 : Nat) : Int)
  digit : t.2 < 10

/-- One O-Re re-selection from the sensed messages to the scheduler. A slot lasts a millisecond, but
the time that goes with the message never restarts as the slot numbers do: it has the last digits of
the current slot in the first 655360 ms, and the slots of the window come before the restart.
`targets` lists for each chosen packet how far its slot lies ahead, and its subchannel. -/
structure OverwriteRequest (W : Type) (S : RsrpScale) (cfg : UeMacConfig) (sched : SchedulerConfig)
    where
  sfn : Nat
  now : Nat
  clock : now % 100 = sfn % 100
  noWrap : sfn + cfg.t2 + cfg.pool.resvPeriodInSlots cfg.pRsvpTx < SfnSf.cycle cfg.pool.numerology
  numerology : cfg.pool.numerology = 0
  window : cfg.t1 ≤ cfg.t2 ∧ cfg.t2 < 100
  sensingData : List SensingData
  grantInfo : GrantTable
  availbleReso : List NrSlSlotInfo
  message : SensingMessage
  offered : getNrSlTxOpportunities S cfg.toSelectionConfig now sensingData sfn =
    .ok (availbleReso, some message)
  asked : filterTxOpportunities grantInfo availbleReso ≠ []
  totalTx : Nat
  totalTx_digit : totalTx < 10
  sortedLChoices : List ReceivedPacket
  sortedRChoices : List ReceivedPacket
  chosen : List ReceivedPacket
  chosenFrom : chosenPackets totalTx sortedLChoices sortedRChoices = .ok chosen
  reported : ∀ packet ∈ chosen, ∃ p ∈ message.packets, receivedOf p = packet
  targets : List (Nat × Nat)
  ahead : List.Forall₂ (LiesAhead cfg.toSelectionConfig sfn) chosen targets
  dst : SchedulerDstInfo
  lc : SchedulerLc
  channel : soleLogicalChannel sched dst = .ok lc
  data : lc.totalQueueSize ≠ 0
  draws : Draws
  world : W
  enabled : sched.oReExp = true
  fixedMcs : sched.fixedNrSlMcs = true
  subChannels : 0 < sched.totalSubCh

namespace OverwriteRequest

variable {W : Type} {S : RsrpScale} {cfg : UeMacConfig} {sched : SchedulerConfig}
  (o : OverwriteRequest W S cfg sched)

def txOpps : List NrSlSlotInfo := filterTxOpportunities o.grantInfo o.availbleReso

/-- The scheduler's run on the text that Python writes for the chosen packets. -/
def allocate : Except Fault (Scheduled W) :=
  doNrSlAllocation sched (fun w => .ok (overwriteText cfg.t1 o.now o.totalTx o.chosen, w))
    o.txOpps o.dst o.draws o.world

/-- The allocation succeeds and takes the resource of a chosen packet. -/
def Overwrites (t : Nat × Nat) : Prop :=
  ∃ r A, o.allocate = .ok r ∧ r.slotAllocList = some A ∧
    ∃ a ∈ A.elems, a.sfn = o.sfn + t.1 ∧ a.slPsschSubChStart = t.2

def MapsChosen : Prop := ∀ t ∈ o.targets, o.Overwrites t

/-- The slots of the selection window that are sidelink slots and that no grant holds. -/
def openSlots : List Nat :=
  (List.range' (o.sfn + cfg.t1) (cfg.t2 + 1 - cfg.t1)).filter fun m =>
    cfg.pool.isSidelinkSlot m && o.grantInfo.entries.all fun e => !e.2.slotAllocations.hasKey m

/-- The random slot and subchannel that an odd number of transmissions is filled up with. -/
def extraDraw : Except Fault ((NrSlSlotInfo × Nat) × Draws) := do
  let (it, draws) ← drawFreeSlot sched.totalSubCh o.totalTx o.txOpps o.draws
  let (randSc, draws) ← drawFreeSbCh sched.totalSubCh it draws
  pure ((it, randSc), draws)

/-- When the chosen packet `t` is overwritten. With more open slots than transmissions no slot of the
window up to the packet's is missing, other chosen packets of its slot have its subchannel, and the
random draw does not take the slot with a lower one. With fewer, the open slots happen to be those
of the packets. -/
structure PositionHolds (t : Nat × Nat) : Prop where
  ahead : 0 < t.1
  reached : o.totalTx < o.openSlots.length →
    ∀ m, o.sfn + cfg.t1 ≤ m → m ≤ o.sfn + t.1 → m ∈ o.openSlots
  single : o.totalTx < o.openSlots.length → ∀ u ∈ o.targets, u.1 = t.1 → t.2 ≤ u.2
  extra : o.totalTx < o.openSlots.length → o.totalTx % 2 = 1 →
    ∃ e rest, o.extraDraw = .ok (e, rest) ∧ (e.1.sfn = o.sfn + t.1 → t.2 ≤ e.2)
  few : ¬o.totalTx < o.openSlots.length → o.openSlots.length ≤ o.targets.length ∧
    ∃ i : Nat, o.openSlots[i]? = some (o.sfn + t.1) ∧ (o.targets[i]?).map Prod.snd = some t.2

def PositionsHold : Prop := ∀ t ∈ o.targets, o.PositionHolds t

/-- The random slot, where one is drawn, is not that of a chosen packet. -/
def ExtraAside : Prop :=
  o.totalTx < o.openSlots.length → o.totalTx % 2 = 1 →
    ∀ e rest, o.extraDraw = .ok (e, rest) → ∀ t ∈ o.targets, e.1.sfn ≠ o.sfn + t.1

variable {o}

theorem openSlots_eq : o.txOpps.map (·.sfn) = o.openSlots := by
  have hfilter : ∀ l : List NrSlSlotInfo, (filterTxOpportunities o.grantInfo l).map (·.sfn) =
      (l.map (·.sfn)).filter fun m =>
        o.grantInfo.entries.all fun e => !e.2.slotAllocations.hasKey m := by
    unfold filterTxOpportunities
    generalize o.grantInfo.entries = entries
    induction entries with
    | nil => simp
    | cons e entries ih =>
      intro l
      have hstep : (l.filter fun it => !e.2.slotAllocations.hasKey it.sfn).map (·.sfn) =
          (l.map (·.sfn)).filter fun m => !e.2.slotAllocations.hasKey m := by
        rw [List.filter_map]
        rfl
      rw [List.foldl_cons, ih, hstep, List.filter_filter]
      exact List.filter_congr fun m _ => Bool.and_comm _ _
  obtain ⟨opps, hopps, hnil | ⟨hsfn, _⟩⟩ := getNrSlTxOpportunities_offers o.offered
  · have hempty : filterTxOpportunities o.grantInfo o.availbleReso = [] := by
      rw [hnil]
      exact List.sublist_nil.mp (filterTxOpportunities_sublist _ _)
    exact absurd hempty o.asked
  · unfold txOpps openSlots
    rw [hfilter, hsfn, NrSlCommResourcePool.getNrSupportedList_sfn hopps, List.filter_filter]
    exact List.filter_congr fun m _ => Bool.and_comm _ _

theorem txOpps_length : o.txOpps.length = o.openSlots.length := by
  rw [← openSlots_eq, List.length_map]

theorem openSlots_rising : o.openSlots.Pairwise (· < ·) :=
  List.Pairwise.sublist List.filter_sublist List.pairwise_lt_range'

theorem openSlots_low : ∀ m ∈ o.openSlots, o.sfn + cfg.t1 ≤ m := fun _ hm =>
  (List.mem_range'_1.mp (List.mem_filter.mp hm).1).1

theorem openSlots_at {i : Nat} {it : NrSlSlotInfo} (h : o.txOpps[i]? = some it) :
    o.openSlots[i]? = some it.sfn := by
  rw [← openSlots_eq, List.getElem?_map, h]
  rfl

theorem txOpps_at {i m : Nat} (h : o.openSlots[i]? = some m) :
    ∃ it, o.txOpps[i]? = some it ∧ it.sfn = m := by
  rw [← openSlots_eq, List.getElem?_map, Option.map_eq_some_iff] at h
  exact h

section Allocation

/-- Among pairs the one with the least subchannel of a slot names it. -/
def Named (pairs : List (NrSlSlotInfo × Nat)) (slot c : Nat) : Prop :=
  ∃ p ∈ pairs, p.1.sfn = slot ∧ p.2 = c ∧ ∀ q ∈ pairs, q.1.sfn = slot → c ≤ q.2

theorem named_sortPairs {pairs : List (NrSlSlotInfo × Nat)} {slot c : Nat} :
    Named (sortPairs pairs) slot c ↔ Named pairs slot c := by
  unfold Named
  simp only [mem_sortPairs]

theorem allocated_named {dst : SchedulerDstInfo} {lc : SchedulerLc} {choice : Choice} {slot c : Nat}
    (hsorted : choice.slots.Pairwise pairBefore) :
    (∃ a ∈ (allocateSlots dst lc choice).elems, a.sfn = slot ∧ a.slPsschSubChStart = c) ↔
      Named choice.slots slot c := by
  have hallocated : Allocated dst lc choice choice.slots (allocateSlots dst lc choice) := by
    refine allocateSlots_allocated (hsorted.imp fun {a b} hab => ?_)
    unfold pairBefore at hab
    omega
  -- the first pair of the slot gives the allocation, and it has the least subchannel
  have hfirst : ∀ q ∈ choice.slots, q.1.sfn = slot → ∃ p ∈ choice.slots, p.1.sfn = slot ∧
      (∀ q ∈ choice.slots, q.1.sfn = slot → p.2 ≤ q.2) ∧
      ∃ a ∈ (allocateSlots dst lc choice).elems, a.sfn = slot ∧ a.slPsschSubChStart = p.2 := by
    intro q hq hqslot
    have hsome : (choice.slots.find? fun p => decide (p.1.sfn = slot)).isSome :=
      List.find?_isSome.mpr ⟨q, hq, decide_eq_true hqslot⟩
    obtain ⟨p, hp⟩ := Option.isSome_iff_exists.mp hsome
    obtain ⟨hpslot, before, after, hsplit, hbefore⟩ := List.find?_eq_some_iff_append.mp hp
    have hpsfn : p.1.sfn = slot := of_decide_eq_true hpslot
    have hnew : ∀ r ∈ before, r.1.sfn ≠ p.1.sfn := by
      intro r hr he
      have := hbefore r hr
      rw [hpsfn] at he
      simp [he] at this
    refine ⟨p, hsplit ▸ by simp, hpsfn, fun r hr hrslot => ?_, ?_⟩
    · rw [hsplit] at hr hsorted
      rcases List.mem_append.mp hr with hr | hr
      · exact absurd (hrslot.trans hpsfn.symm) (hnew r hr)
      · rcases List.mem_cons.mp hr with rfl | hr
        · exact le_rfl
        · have hpr := (List.pairwise_cons.mp (List.pairwise_append.mp hsorted).2.1).1 r hr
          unfold pairBefore at hpr
          omega
    · obtain ⟨a, ha, hasfn, hac⟩ := hallocated.first before p after hsplit hnew
      exact ⟨a, ha, hasfn.trans hpsfn, hac⟩
  constructor
  · rintro ⟨a, ha, haslot, rfl⟩
    obtain ⟨k, hk⟩ := List.mem_iff_getElem?.mp ha
    obtain ⟨q, hq, rfl⟩ := hallocated.numbered k a hk
    obtain ⟨p, hp, hpslot, hleast, b, hb, hbslot, hbc⟩ := hfirst q hq haslot
    have hab := KeyedSet.eq_of_key_eq ha hb (haslot.trans hbslot.symm)
    refine ⟨p, hp, hpslot, ?_, fun r hr hrslot => ?_⟩
    · rw [hab, hbc]
    · rw [hab, hbc]
      exact hleast r hr hrslot
  · rintro ⟨q, hq, hqslot, rfl, hqleast⟩
    obtain ⟨p, hp, hpslot, hleast, a, ha, haslot, hac⟩ := hfirst q hq hqslot
    have hpq := hleast q hq hqslot
    have hqp := hqleast p hp hpslot
    exact ⟨a, ha, haslot, by omega⟩

end Allocation

/-- What Python writes is read as the distances from the window's start. -/
def readBack (o : OverwriteRequest W S cfg sched) : List (Nat × Nat) :=
  o.targets.map fun t => (t.1 - cfg.t1, t.2)

theorem text_read (hpos : ∀ t ∈ o.targets, 0 < t.1) :
    readInstruction (overwriteText cfg.t1 o.now o.totalTx o.chosen) =
      .ok (.overwrite o.totalTx o.readBack) := by
  refine readInstruction_overwriteText o.totalTx_digit ?_
  have hahead := o.ahead
  have hwindow := o.window
  unfold readBack
  generalize o.chosen = chosen at hahead
  generalize o.targets = targets at hahead hpos
  induction hahead with
  | nil => exact .nil
  | @cons packet t chosen targets hpacket _ ih =>
    have hhigh := hpacket.high
    refine .cons ⟨?_, ?_, hpacket.subChannel, hpacket.digit⟩
      (ih fun u hu => hpos u (List.mem_cons_of_mem t hu))
    · exact chosenSlot_ahead o.clock hpacket.low (hpos t List.mem_cons_self) (by omega) hpacket.slot
    · change t.1 - cfg.t1 < 100
      omega

theorem targets_length : o.targets.length = o.totalTx - o.totalTx % 2 := by
  rw [← o.ahead.length_eq, chosenPackets_length o.chosenFrom]

theorem overwriteResources_named {bufferSize : Nat} {chosen : List (Nat × Nat)} {slot c : Nat}
    (hpos : 0 < sched.totalSubCh) {lc : SchedulerLc} {dst : SchedulerDstInfo} {draws : Draws}
    {txOpps : List NrSlSlotInfo} {totalTx : Nat} :
    (∃ choice rest, overwriteResources sched dst bufferSize txOpps totalTx chosen draws =
        .ok (choice, rest) ∧
      ∃ a ∈ (allocateSlots dst lc choice).elems, a.sfn = slot ∧ a.slPsschSubChStart = c) ↔
    ∃ l cs rest, overwriteSlots sched.totalSubCh totalTx chosen draws txOpps = .ok (l, cs, rest) ∧
      l.length ≤ cs.length ∧ Named (l.zip cs) slot c := by
  constructor
  · rintro ⟨choice, rest, h, ha⟩
    obtain ⟨⟨l, cs, draws₁⟩, hslots, h⟩ := bind_ok_iff.mp h
    obtain ⟨pairs, hpairs, h⟩ := bind_ok_iff.mp h
    obtain ⟨⟨info, size⟩, _, h⟩ := bind_ok_iff.mp h
    obtain ⟨rfl, -⟩ := Prod.mk.inj (pure_ok_iff.mp h)
    obtain ⟨hlen, rfl⟩ := pairSubChannels_ok_iff.mp hpairs
    exact ⟨l, cs, draws₁, hslots, hlen,
      named_sortPairs.mp ((allocated_named (sortPairs_sorted _)).mp ha)⟩
  · rintro ⟨l, cs, rest, hslots, hlen, hnamed⟩
    have hne : (sortPairs (l.zip cs)).map Prod.fst ≠ [] := by
      obtain ⟨p, hp, _⟩ := hnamed
      exact List.ne_nil_of_mem (List.mem_map_of_mem (mem_sortPairs.mpr hp))
    have hexists : ∃ info size, sizeOfSelected sched dst bufferSize
        ((sortPairs (l.zip cs)).map Prod.fst) = .ok (info, size) := sizeOfSelected_exists hne hpos
    obtain ⟨info, size, hsize⟩ := hexists
    refine ⟨{ size with slots := sortPairs (l.zip cs) }, rest, ?_, ?_⟩
    · exact bind_ok_iff.mpr ⟨_, hslots, bind_ok_iff.mpr ⟨_, pairSubChannels_ok_iff.mpr ⟨hlen, rfl⟩,
        bind_ok_iff.mpr ⟨_, hsize, rfl⟩⟩⟩
    · exact (allocated_named (sortPairs_sorted _)).mpr (named_sortPairs.mpr hnamed)

/-- On the text of Python the scheduler takes the O-Re branch with what Python wrote. -/
theorem chooseResources_read (hpos : ∀ t ∈ o.targets, 0 < t.1) {choice : Choice} {rest : Draws}
    {w : W} :
    chooseResources sched (fun w => .ok (overwriteText cfg.t1 o.now o.totalTx o.chosen, w)) o.dst
        o.lc.totalQueueSize o.txOpps o.draws o.world = .ok (choice, rest, w) ↔
      overwriteResources sched o.dst o.lc.totalQueueSize o.txOpps o.totalTx o.readBack o.draws =
        .ok (choice, rest) ∧ w = o.world := by
  unfold chooseResources
  rw [if_pos o.enabled]
  constructor
  · intro h
    obtain ⟨⟨text, w'⟩, htext, h⟩ := bind_ok_iff.mp h
    obtain ⟨rfl, rfl⟩ := Prod.mk.inj (Except.ok.inj htext)
    obtain ⟨instruction, hread, h⟩ := bind_ok_iff.mp h
    obtain rfl := Except.ok.inj ((text_read hpos).symm.trans hread)
    obtain ⟨⟨choice', rest'⟩, hfollow, h⟩ := bind_ok_iff.mp h
    cases pure_ok_iff.mp h
    exact ⟨hfollow, rfl⟩
  · rintro ⟨hchoice, rfl⟩
    exact bind_ok_iff.mpr ⟨_, rfl, bind_ok_iff.mpr ⟨_, text_read hpos,
      bind_ok_iff.mpr ⟨_, hchoice, rfl⟩⟩⟩

/-- Whether a chosen packet is overwritten depends on the slots that the O-Re branch finds. -/
theorem overwrites_iff (hpos : ∀ t ∈ o.targets, 0 < t.1) (t : Nat × Nat) :
    o.Overwrites t ↔ ∃ l cs rest, overwriteSlots sched.totalSubCh o.totalTx o.readBack o.draws
      o.txOpps = .ok (l, cs, rest) ∧ l.length ≤ cs.length ∧ Named (l.zip cs) (o.sfn + t.1) t.2 := by
  have hnamed : (∃ choice rest, overwriteResources sched o.dst o.lc.totalQueueSize o.txOpps o.totalTx
      o.readBack o.draws = .ok (choice, rest) ∧ ∃ a ∈ (allocateSlots o.dst o.lc choice).elems,
        a.sfn = o.sfn + t.1 ∧ a.slPsschSubChStart = t.2) ↔ _ := overwriteResources_named o.subChannels
  rw [← hnamed]
  constructor
  · rintro ⟨r, A, hr, hA, ha⟩
    obtain ⟨lc, hlc, ⟨hempty, _⟩ | ⟨_, choice, _, hchoose, hset⟩⟩ := doNrSlAllocation_ok hr
    · obtain rfl := Except.ok.inj (o.channel.symm.trans hlc)
      exact absurd hempty o.data
    · obtain rfl := Except.ok.inj (o.channel.symm.trans hlc)
      obtain rfl := Option.some.inj (hset.symm.trans hA)
      exact ⟨_, _, ((chooseResources_read hpos).mp hchoose).1, ha⟩
  · rintro ⟨choice, rest, hchoice, ha⟩
    have hchoose := (chooseResources_read hpos).mpr ⟨hchoice, rfl⟩
    refine ⟨⟨some (allocateSlots o.dst o.lc choice), o.dst.assignedData choice.tbs, rest, o.world⟩,
      _, ?_, rfl, ha⟩
    unfold allocate doNrSlAllocation
    refine bind_ok_iff.mpr ⟨(), require_ok_iff.mpr fun _ => o.asked, bind_ok_iff.mpr
      ⟨_, o.channel, ?_⟩⟩
    rw [if_neg o.data]
    exact bind_ok_iff.mpr ⟨(), require_ok_iff.mpr fun _ => o.fixedMcs,
      bind_ok_iff.mpr ⟨_, hchoose, rfl⟩⟩

section Positions

variable {l : List NrSlSlotInfo} {slot c : Nat}

/-- The slots that the chosen positions lead to. -/
def WalkedTo (o : OverwriteRequest W S cfg sched) (l : List NrSlSlotInfo) : Prop :=
  List.Forall₂ (fun t it => o.txOpps[t.1 - cfg.t1]? = some it) o.targets l

/-- What an odd number of transmissions adds to the chosen resources. -/
inductive Extras (o : OverwriteRequest W S cfg sched) : List (NrSlSlotInfo × Nat) → Prop where
  | none (heven : o.totalTx % 2 = 0) : Extras o []
  | drawn (hodd : o.totalTx % 2 = 1) {e : NrSlSlotInfo × Nat} {rest : Draws}
      (hdraw : o.extraDraw = .ok (e, rest)) : Extras o [e]

theorem readBack_walked : List.Forall₂ (fun slot it => o.txOpps[slot]? = some it)
    (o.readBack.map Prod.fst) l ↔ o.WalkedTo l := by
  unfold readBack WalkedTo
  rw [List.map_map, List.forall₂_map_left_iff]
  rfl

theorem readBack_subChannels : o.readBack.map Prod.snd = o.targets.map Prod.snd := by
  unfold readBack
  rw [List.map_map]
  rfl

theorem readBack_length : (o.readBack.map Prod.fst).length = o.targets.length := by
  unfold readBack
  rw [List.length_map, List.length_map]

theorem overwriteSlots_more (hmore : o.totalTx < o.openSlots.length) :
    (∃ l cs rest, overwriteSlots sched.totalSubCh o.totalTx o.readBack o.draws o.txOpps =
      .ok (l, cs, rest) ∧ l.length ≤ cs.length ∧ Named (l.zip cs) slot c) ↔
    ∃ l extras, o.WalkedTo l ∧ o.Extras extras ∧
      Named (l.zip (o.targets.map Prod.snd) ++ extras) slot c := by
  have hlen := targets_length (o := o)
  unfold overwriteSlots
  rw [txOpps_length, if_pos hmore, readBack_subChannels]
  rcases Nat.mod_two_eq_zero_or_one o.totalTx with heven | hodd
  · rw [if_pos heven]
    have hall : (o.readBack.map Prod.fst).take o.totalTx = o.readBack.map Prod.fst :=
      List.take_of_length_le (by rw [readBack_length]; omega)
    simp only [bind_ok_iff, walkChosen_ok_iff, hall, readBack_walked]
    constructor
    · rintro ⟨l, cs, rest, ⟨l', ⟨_, hl⟩, hout⟩, _, hnamed⟩
      cases pure_ok_iff.mp hout
      exact ⟨l, [], hl, .none heven, by rwa [List.append_nil]⟩
    · rintro ⟨l, extras, hl, hextras, hnamed⟩
      cases hextras with
      | none =>
        rw [List.append_nil] at hnamed
        refine ⟨l, _, _, ⟨l, ⟨?_, hl⟩, rfl⟩, ?_, hnamed⟩
        · rw [readBack_length]
          omega
        · rw [List.length_map, hl.length_eq]
      | drawn hodd => omega
  · rw [if_neg (by omega)]
    have hone : o.totalTx = (o.readBack.map Prod.fst).length + 1 := by
      rw [readBack_length]
      omega
    have hwalk : ∀ out, walkOrDraw sched.totalSubCh o.totalTx o.txOpps o.totalTx
        (o.readBack.map Prod.fst) o.draws = .ok out ↔ ∃ l e rest, o.WalkedTo l ∧
          o.extraDraw = .ok (e, rest) ∧ out = (l ++ [e.1], [e.2], rest) := by
      intro out
      conv_lhs => rw [hone]
      rw [walkOrDraw_ok_iff, ← hone]
      unfold extraDraw
      simp only [readBack_walked, bind_ok_iff, Prod.exists]
      constructor
      · rintro ⟨l, it, draws₁, c, rest, hl, hit, hc, rfl⟩
        exact ⟨l, it, c, rest, hl, ⟨it, draws₁, hit, c, rest, hc, rfl⟩, rfl⟩
      · rintro ⟨l, it, c, rest, hl, ⟨it', draws₁, hit, c', rest', hc, heq⟩, rfl⟩
        cases pure_ok_iff.mp heq
        exact ⟨l, it, draws₁, c, rest, hl, hit, hc, rfl⟩
    simp only [bind_ok_iff, hwalk]
    have hzip : ∀ {l : List NrSlSlotInfo} (e : NrSlSlotInfo × Nat), o.WalkedTo l →
        (l ++ [e.1]).zip (o.targets.map Prod.snd ++ [e.2]) =
          l.zip (o.targets.map Prod.snd) ++ [e] := by
      intro l e hl
      rw [List.zip_append (by rw [List.length_map, hl.length_eq])]
      rfl
    constructor
    · rintro ⟨l, cs, rest, ⟨_, ⟨l', e, rest', hl, he, rfl⟩, hout⟩, _, hnamed⟩
      cases pure_ok_iff.mp hout
      rw [hzip e hl] at hnamed
      exact ⟨l', [e], hl, .drawn hodd he, hnamed⟩
    · rintro ⟨l, extras, hl, hextras, hnamed⟩
      cases hextras with
      | none heven => omega
      | @drawn _ e rest he =>
        rw [← hzip e hl] at hnamed
        refine ⟨_, _, rest, ⟨_, ⟨l, e, rest, hl, he, rfl⟩, rfl⟩, ?_, hnamed⟩
        rw [List.length_append, List.length_append, List.length_map, hl.length_eq]
        exact le_rfl

theorem mem_walked {l : List NrSlSlotInfo} {p : NrSlSlotInfo × Nat} (h : o.WalkedTo l) :
    p ∈ l.zip (o.targets.map Prod.snd) ↔
      ∃ t ∈ o.targets, o.txOpps[t.1 - cfg.t1]? = some p.1 ∧ p.2 = t.2 := by
  unfold WalkedTo at h
  generalize o.targets = targets at h
  induction h with
  | nil => simp
  | @cons t it targets l hit _ ih =>
    rw [List.map_cons, List.zip_cons_cons, List.mem_cons, ih]
    constructor
    · rintro (rfl | ⟨u, hu, hwalk⟩)
      · exact ⟨t, List.mem_cons_self, hit, rfl⟩
      · exact ⟨u, List.mem_cons_of_mem t hu, hwalk⟩
    · rintro ⟨u, hu, hwalk, hc⟩
      rcases List.mem_cons.mp hu with rfl | hu
      · exact Or.inl (Prod.ext (Option.some.inj (hwalk.symm.trans hit)) hc)
      · exact Or.inr ⟨u, hu, hwalk, hc⟩

theorem walkedTo_exists (h : ∀ t ∈ o.targets, ∃ it, o.txOpps[t.1 - cfg.t1]? = some it) :
    ∃ l, o.WalkedTo l := by
  unfold WalkedTo
  generalize o.targets = targets at h
  induction targets with
  | nil => exact ⟨[], .nil⟩
  | cons t targets ih =>
    obtain ⟨it, hit⟩ := h t List.mem_cons_self
    obtain ⟨l, hl⟩ := ih fun u hu => h u (List.mem_cons_of_mem t hu)
    exact ⟨it :: l, .cons hit hl⟩

theorem targets_low : ∀ t ∈ o.targets, cfg.t1 ≤ t.1 := by
  have hahead := o.ahead
  generalize o.chosen = chosen at hahead
  generalize o.targets = targets at hahead
  induction hahead with
  | nil => simp
  | cons hpacket _ ih =>
    intro t ht
    rcases List.mem_cons.mp ht with rfl | ht
    · exact hpacket.low
    · exact ih t ht

/-- A packet's position leads to its own slot when no slot up to it is missing. -/
theorem position_iff {t : Nat × Nat} (ht : t ∈ o.targets) :
    o.openSlots[t.1 - cfg.t1]? = some (o.sfn + t.1) ↔
      ∀ m, o.sfn + cfg.t1 ≤ m → m ≤ o.sfn + t.1 → m ∈ o.openSlots := by
  have hlow := targets_low t ht
  have hsum : o.sfn + t.1 = o.sfn + cfg.t1 + (t.1 - cfg.t1) := by omega
  rw [hsum]
  exact rising_at_iff openSlots_rising openSlots_low

/-- When each packet's slot is at the position of some packet, it is at its own: positions lead
nowhere before the packet's slot. -/
theorem positions_own (h : ∀ t ∈ o.targets, ∃ u ∈ o.targets,
    o.openSlots[u.1 - cfg.t1]? = some (o.sfn + t.1)) :
    ∀ t ∈ o.targets, o.openSlots[t.1 - cfg.t1]? = some (o.sfn + t.1) := by
  intro t ht
  induction hd : t.1 using Nat.strong_induction_on generalizing t with
  | _ d ih =>
    subst hd
    obtain ⟨u, hu, hat⟩ := h t ht
    have hlow := targets_low u hu
    have hle := rising_le openSlots_rising openSlots_low hat
    rcases Nat.lt_or_ge u.1 t.1 with hlt | hge
    · have hown := ih u.1 hlt u hu rfl
      have hsame := Option.some.inj (hown.symm.trans hat)
      omega
    · obtain heq : u.1 = t.1 := by omega
      rwa [heq] at hat

theorem few_iff {t : Nat × Nat} (hpos : ∀ u ∈ o.targets, 0 < u.1)
    (hfew : ¬o.totalTx < o.openSlots.length) :
    o.Overwrites t ↔ o.openSlots.length ≤ o.targets.length ∧
      ∃ i : Nat, o.openSlots[i]? = some (o.sfn + t.1) ∧
        (o.targets[i]?).map Prod.snd = some t.2 := by
  have hslots : overwriteSlots sched.totalSubCh o.totalTx o.readBack o.draws o.txOpps =
      .ok (o.txOpps, o.targets.map Prod.snd, o.draws) := by
    unfold overwriteSlots
    rw [txOpps_length, if_neg hfew, readBack_subChannels]
    rfl
  rw [overwrites_iff hpos, hslots]
  constructor
  · rintro ⟨l, cs, rest, hout, hlen, p, hp, hslot, hc, _⟩
    cases hout
    rw [txOpps_length, List.length_map] at hlen
    obtain ⟨i, hi⟩ := List.mem_iff_getElem?.mp hp
    obtain ⟨hit, hsub⟩ := List.getElem?_zip_eq_some.mp hi
    rw [List.getElem?_map, hc] at hsub
    exact ⟨hlen, i, hslot ▸ openSlots_at hit, hsub⟩
  · rintro ⟨hlen, i, hat, hsub⟩
    obtain ⟨it, hit, hslot⟩ := txOpps_at hat
    rw [← List.getElem?_map] at hsub
    refine ⟨_, _, _, rfl, by rwa [txOpps_length, List.length_map], (it, t.2),
      List.mem_of_getElem? (List.getElem?_zip_eq_some.mpr ⟨hit, hsub⟩), hslot, rfl, ?_⟩
    intro q hq hqslot
    -- the open slots differ, so the slot is at no other position
    obtain ⟨j, hj⟩ := List.mem_iff_getElem?.mp hq
    obtain ⟨hqit, hqsub⟩ := List.getElem?_zip_eq_some.mp hj
    have hqat := openSlots_at hqit
    rw [hqslot] at hqat
    rcases Nat.lt_trichotomy i j with hij | rfl | hji
    · exact absurd (rising_lt openSlots_rising hat hqat hij) (lt_irrefl _)
    · exact (Option.some.inj (hsub.symm.trans hqsub)).le
    · exact absurd (rising_lt openSlots_rising hqat hat hji) (lt_irrefl _)

/-- Enough for the mapping: every position leads to its packet's slot and nothing undercuts it. -/
theorem mapsChosen_of_positionsHold (h : o.PositionsHold) : o.MapsChosen := by
  intro t ht
  have hpos : ∀ u ∈ o.targets, 0 < u.1 := fun u hu => (h u hu).ahead
  by_cases hmore : o.totalTx < o.openSlots.length
  · have hat : ∀ u ∈ o.targets, o.openSlots[u.1 - cfg.t1]? = some (o.sfn + u.1) := fun u hu =>
      (position_iff hu).mpr ((h u hu).reached hmore)
    obtain ⟨l, hl⟩ := walkedTo_exists fun u hu => by
      obtain ⟨it, hit, _⟩ := txOpps_at (hat u hu)
      exact ⟨it, hit⟩
    have hextras : ∃ extras, o.Extras extras ∧
        ∀ q ∈ extras, q.1.sfn = o.sfn + t.1 → t.2 ≤ q.2 := by
      rcases Nat.mod_two_eq_zero_or_one o.totalTx with heven | hodd
      · exact ⟨[], .none heven, by simp⟩
      · obtain ⟨e, rest, he, hle⟩ := (h t ht).extra hmore hodd
        refine ⟨[e], .drawn hodd he, fun q hq => ?_⟩
        rw [List.mem_singleton.mp hq]
        exact hle
    obtain ⟨extras, hextras, hundercut⟩ := hextras
    obtain ⟨it, hit, hslot⟩ := txOpps_at (hat t ht)
    rw [overwrites_iff hpos, overwriteSlots_more hmore]
    refine ⟨l, extras, hl, hextras, (it, t.2), ?_, hslot, rfl, fun q hq hqslot => ?_⟩
    · exact List.mem_append_left _ ((mem_walked hl).mpr ⟨t, ht, hit, rfl⟩)
    · rcases List.mem_append.mp hq with hq | hq
      · obtain ⟨u, hu, hqit, hqc⟩ := (mem_walked hl).mp hq
        have hqat := Option.some.inj ((openSlots_at hqit).symm.trans (hat u hu))
        rw [hqc]
        exact (h t ht).single hmore u hu (by omega)
      · exact hundercut q hq hqslot
  · rw [few_iff hpos hmore]
    exact (h t ht).few hmore

/-- Nothing else brings about the mapping, the random draw left aside. -/
theorem positionsHold_of_mapsChosen (hpos : ∀ t ∈ o.targets, 0 < t.1) (haside : o.ExtraAside)
    (h : o.MapsChosen) : o.PositionsHold := by
  intro t ht
  by_cases hmore : o.totalTx < o.openSlots.length
  · have hnamed : ∀ u ∈ o.targets, ∃ l extras, o.WalkedTo l ∧ o.Extras extras ∧
        Named (l.zip (o.targets.map Prod.snd) ++ extras) (o.sfn + u.1) u.2 := fun u hu =>
      (overwriteSlots_more hmore).mp ((overwrites_iff hpos u).mp (h u hu))
    have hat := positions_own fun u hu => by
      obtain ⟨l, extras, hl, hextras, p, hp, hslot, _⟩ := hnamed u hu
      rcases List.mem_append.mp hp with hp | hp
      · obtain ⟨v, hv, hit, _⟩ := (mem_walked hl).mp hp
        exact ⟨v, hv, hslot ▸ openSlots_at hit⟩
      · cases hextras with
        | none => simp at hp
        | drawn hodd he =>
          rw [List.mem_singleton.mp hp] at hslot
          exact absurd hslot (haside hmore hodd _ _ he u hu)
    obtain ⟨l, extras, hl, hextras, _, _, _, _, hleast⟩ := hnamed t ht
    refine ⟨hpos t ht, fun _ => (position_iff ht).mp (hat t ht), fun _ u hu hut => ?_,
      fun _ hodd => ?_, fun hfew => absurd hmore hfew⟩
    · obtain ⟨it, hit, hslot⟩ := txOpps_at (hat u hu)
      exact hleast (it, u.2) (List.mem_append_left _ ((mem_walked hl).mpr ⟨u, hu, hit, rfl⟩))
        (by rw [hslot, hut])
    · cases hextras with
      | none heven => omega
      | @drawn _ e rest he =>
        exact ⟨e, rest, he, fun hslot => hleast e (by simp) hslot⟩
  · exact ⟨hpos t ht, fun hmore' => absurd hmore' hmore, fun hmore' => absurd hmore' hmore,
      fun hmore' => absurd hmore' hmore, fun _ => (few_iff hpos hmore).mp (h t ht)⟩

end Positions

end OverwriteRequest

section HoledPool

/-- The strongest of the powers decides. -/
def peakScale : RsrpScale where
  Power := Option ℚ
  zero := none
  addDbm := fun p r => some (max r (p.getD r))
  above := fun p t => p.any fun r => decide ((t : ℚ) < r)
  above_zero := fun _ => rfl
  above_addDbm := by
    intro p r t h
    cases p with
    | none => cases h
    | some q => exact decide_eq_true (lt_max_of_lt_right (of_decide_eq_true h))
  above_anti := by
    intro p t t' htt h
    cases p with
    | none => cases h
    | some q =>
      have hcast : (t : ℚ) ≤ t' := by exact_mod_cast htt
      exact decide_eq_true (lt_of_le_of_lt hcast (of_decide_eq_true h))

def holedPool : NrSlCommResourcePool where
  phyPool := [true, true, true, false, true, true, true, true, true, true]
  phyPool_ne_nil := by decide
  shape := { slMaxNumPerReserve := 1 }
  slSelectionWindow := 5
  numerology := 0
  resvPeriodInSlots := fun ms => ms
  sensWindInSlots := 100

def holedConfig : UeMacConfig where
  pool := holedPool
  t1 := 2
  t2 := 9
  totalSubCh := 4
  pRsvpTx := 100
  tproc0 := 1
  enableSensing := true
  slThresPsschRsrp := -110
  resPercentage := 20
  oReExp := true
  imsi := 1
  schedulingType := .ueSelected
  assertsEnabled := false
  slProbResourceKeep := 0
  enableBlindReTx := true
  srcL2Id := 10
  sidelinkTxDestinations := [(255, 1)]
  nrSlLcInfoMap := [(1, 255)]
  destinations_nodup := soleDestination_nodup

def sensedAt (sfn c : Nat) (rnti : Int) : SensingData :=
  { sfn := sfn, rsvp := 100, sbChLength := 1, sbChStart := c, slRsrp := -120, rc := 9, srcRnti := rnti }


def holedSched : SchedulerConfig where
  assertsEnabled := false
  totalSubCh := 4
  slMaxTxTransNumPssch := 1
  fixedNrSlMcs := true
  oReExp := true
  calculateTbSize := fun _ nprb => nprb + 100

def holedDst : SchedulerDstInfo where
  dstL2Id := 255
  dstMcs := 14
  lcgs := [⟨[⟨1, 1, 50, 0, 0⟩], 50⟩]

/-- What a UE offers that has sensed two packets for the slots five and six ahead. -/
def OffersPair (sfn slot : Nat) (opens : List Nat) : Prop :=
  getNrSlTxOpportunities peakScale holedConfig.toSelectionConfig sfn
    [sensedAt slot 0 3, sensedAt (slot + 1) 1 5] sfn =
      .ok (opens.map fun m => ⟨holedPool.shape, m, ∅⟩,
        some ⟨1, sfn, -107, 0, [⟨3, 9, slot, 0⟩, ⟨5, 9, slot + 1, 1⟩]⟩)

/-- Both packets are to be overwritten. -/
def pairRequest {sfn slot : Nat} {opens : List Nat} (hopens : opens ≠ []) (hearly : sfn < 655000)
    (hslot : (sfn + 5) % 100 = slot ∧ (sfn + 6) % 100 = slot + 1)
    (offered : OffersPair sfn slot opens) :
    OverwriteRequest Unit peakScale holedConfig holedSched where
  sfn := sfn
  now := sfn
  clock := rfl
  noWrap := by
    change sfn + 9 + 100 < 655360 * 2 ^ 0
    omega
  numerology := rfl
  window := by decide
  sensingData := [sensedAt slot 0 3, sensedAt (slot + 1) 1 5]
  grantInfo := Table.empty
  availbleReso := opens.map fun m => ⟨holedPool.shape, m, ∅⟩
  message := ⟨1, sfn, -107, 0, [⟨3, 9, slot, 0⟩, ⟨5, 9, slot + 1, 1⟩]⟩
  offered := offered
  asked := fun hnil => hopens (List.map_eq_nil_iff.mp hnil)
  totalTx := 2
  totalTx_digit := by decide
  sortedLChoices := [⟨2, 9, slot, 0⟩]
  sortedRChoices := [⟨4, 9, slot + 1, 1⟩]
  chosen := [⟨2, 9, slot, 0⟩, ⟨4, 9, slot + 1, 1⟩]
  chosenFrom := rfl
  reported := by
    intro packet hpacket
    simp only [List.mem_cons, List.not_mem_nil, or_false] at hpacket
    rcases hpacket with rfl | rfl
    · exact ⟨⟨3, 9, slot, 0⟩, List.mem_cons_self, rfl⟩
    · exact ⟨⟨5, 9, slot + 1, 1⟩, List.mem_cons_of_mem _ List.mem_cons_self, rfl⟩
  targets := [(5, 0), (6, 1)]
  ahead := by
    refine .cons ⟨by decide, by decide, ?_, rfl, by decide⟩
      (.cons ⟨by decide, by decide, ?_, rfl, by decide⟩ .nil)
    · rw [hslot.1]
    · rw [hslot.2]
      rfl
  dst := holedDst
  lc := ⟨1, 1, 50, 0, 0⟩
  channel := rfl
  data := by decide
  draws := []
  world := ()
  enabled := rfl
  fixedMcs := rfl
  subChannels := by decide

theorem holed_offered : OffersPair 110 15 [112, 114, 115, 116, 117, 118, 119] := by
  unfold OffersPair
  decide +kernel

theorem unholed_offered : OffersPair 114 19 [116, 117, 118, 119, 120, 121, 122] := by
  unfold OffersPair
  decide +kernel

def holedRequest := pairRequest (by decide) (by decide) (by decide) holed_offered

def unholedRequest := pairRequest (by decide) (by decide) (by decide) unholed_offered

theorem unholedRequest_positionsHold : unholedRequest.PositionsHold := by
  have hopen : unholedRequest.openSlots = [116, 117, 118, 119, 120, 121, 122] := by decide +kernel
  have hat : ∀ t ∈ unholedRequest.targets,
      unholedRequest.openSlots[t.1 - holedConfig.t1]? = some (unholedRequest.sfn + t.1) := by
    rw [hopen]
    decide
  intro t ht
  refine ⟨?_, fun _ => (OverwriteRequest.position_iff ht).mp (hat t ht), fun _ => ?_,
    fun _ hodd => absurd hodd (by decide), fun hfew => absurd ?_ hfew⟩
  · revert t
    decide
  · revert t
    decide
  · rw [hopen]
    decide

end HoledPool

end SidelinkORe
