import SidelinkORe.SlotFaults
import SidelinkORe.SlotRun
import Mathlib.Data.List.Perm.Subperm

namespace SidelinkORe

open NrSlUeMacHarq

/-- The ids that are not in the list of available ones. -/
def takenIds (h : NrSlUeMacHarq) : List Nat :=
  (List.range h.nrSlHarqPktBuffer.length).filter fun id => decide (id ∉ h.nrSlHarqIdBuffer)

/-- The books of the HARQ processes between two slot indications. -/
structure HarqAccounting (s : UeMac) : Prop where
  taken_le : (takenIds s.harq).length ≤ s.grantInfo.entries.length
  owner : ∀ id ∈ takenIds s.harq, ∃ d g, s.harq.Owns d id ∧ s.grantInfo.find? d = some g ∧
    g.nrSlHarqId = id
  apart : ∀ id ∈ s.harq.nrSlHarqIdBuffer, ∀ d, ¬s.harq.Owns d id

section Counting

variable {h : NrSlUeMacHarq}

theorem taken_owned (hs : h.Sound) {id : Nat} (hin : id ∈ takenIds h) : ∃ d, h.Owns d id := by
  obtain ⟨hrange, hnot⟩ := List.mem_filter.mp hin
  have hlt := List.mem_range.mp hrange
  have hp : h.nrSlHarqPktBuffer[id]? = some h.nrSlHarqPktBuffer[id] := List.getElem?_eq_getElem hlt
  cases hd : (h.nrSlHarqPktBuffer[id]).dstL2Id with
  | some d => exact ⟨d, _, hp, hd⟩
  | none =>
    have hfree := hs.taken id _ hp hd
    rw [hfree] at hp
    exact absurd ((hs.available id).mpr hp) (of_decide_eq_true hnot)

theorem takenIds_le (hs : h.Sound) {keys : List Nat}
    (hone : ∀ d i j, h.Owns d i → h.Owns d j → i = j) (hkeys : ∀ d i, h.Owns d i → d ∈ keys) :
    (takenIds h).length ≤ keys.length := by
  have hchoose : ∀ id ∈ takenIds h, ∃ d, h.Owns d id := fun id hin => taken_owned hs hin
  choose! owner howner using hchoose
  have hnodup : ((takenIds h).map owner).Nodup := by
    refine List.Nodup.map_on (fun i hi j hj hij => ?_) (List.nodup_range.filter _)
    have hownj := howner j hj
    rw [← hij] at hownj
    exact hone (owner i) i j (howner i hi) hownj
  have hsub : (takenIds h).map owner ⊆ keys := by
    intro d hd
    obtain ⟨id, hin, rfl⟩ := List.mem_map.mp hd
    exact hkeys _ id (howner id hin)
  have hle := (List.subperm_of_subset hnodup hsub).length_le
  rw [List.length_map] at hle
  exact hle

theorem id_left (hs : h.Sound) {keys : List Nat} {d : Nat} (hd : d ∈ keys)
    (hone : ∀ d i j, h.Owns d i → h.Owns d j → i = j) (hkeys : ∀ d i, h.Owns d i → d ∈ keys)
    (hfree : ∀ i, ¬h.Owns d i) (hsize : keys.length ≤ h.nrSlHarqPktBuffer.length) :
    h.nrSlHarqIdBuffer ≠ [] := by
  intro hnil
  have hall : takenIds h = List.range h.nrSlHarqPktBuffer.length := by
    apply List.filter_eq_self.mpr
    intro id _
    simp [hnil]
  have hothers : ∀ d' i, h.Owns d' i → d' ∈ keys.erase d := by
    intro d' i hown
    have hne : d' ≠ d := by
      intro hdd
      exact hfree i (hdd ▸ hown)
    exact (List.mem_erase_of_ne hne).mpr (hkeys d' i hown)
  have hle := takenIds_le hs hone hothers
  rw [hall, List.length_range, List.length_erase_of_mem hd] at hle
  have hpos := List.length_pos_of_mem hd
  omega

end Counting

section Conditions

variable {W : Type} (S : RsrpScale) (cfg : UeMacConfig) (env : SlotEnv W)

/-- The scheduler serves one logical channel per destination. -/
def OneChannel : Prop :=
  ∀ dst offered w w' (A : Allocation dst offered), env.schedule dst offered w = .ok (w', some A) →
    ∀ a ∈ A.slots.elems, ∃ lc, a.slRlcPduInfo = [lc]

/-- A slot for new data finds its destination without a HARQ id. -/
def NewDataFree (n : Nat) (mid : UeMac) : Prop :=
  ∀ d g a rest, mid.grantInfo.find? d = some g → 0 ≤ g.slResoReselCounter →
    g.slotAllocations.elems = a :: rest → a.sfn = n → a.ndi ≠ 0 → ∀ id, ¬mid.harq.Owns d id

/-- With one channel per destination, every HARQ id is given back before the next new data. -/
def IdsReturned (env : SlotEnv W) (x : UeState W) : Prop :=
  OneChannel env ∧ ∀ mid w, selectionPhase S cfg env x.slot (x.mac, x.world) = .ok (mid, w) →
    NewDataFree x.slot mid

end Conditions

/-- The invariant of the runs: besides the books, one channel per slot and the known destinations. -/
structure HarqInvariant (cfg : UeMacConfig) (s : UeMac) : Prop where
  sound : MacSound s
  owners : ∀ d id, s.harq.Owns d id →
    ∃ g, s.grantInfo.find? d = some g ∧ g.nrSlHarqId = id ∧ 0 ≤ g.slResoReselCounter
  channel : ∀ d g, s.grantInfo.find? d = some g →
    ∀ a ∈ g.slotAllocations.elems, ∃ lc, a.slRlcPduInfo = [lc]
  known : ∀ d, s.grantInfo.find? d ≠ none → d ∈ cfg.sidelinkTxDestinations.map Prod.fst
  size : s.harq.nrSlHarqPktBuffer.length < 256

section Steps

variable {W : Type} {S : RsrpScale} {cfg : UeMacConfig} {env : SlotEnv W}

theorem HarqInvariant.one {s : UeMac} (hs : HarqInvariant cfg s) {d i j : Nat}
    (hi : s.harq.Owns d i) (hj : s.harq.Owns d j) : i = j := by
  obtain ⟨g, hg, hgi, _⟩ := hs.owners d i hi
  obtain ⟨g', hg', hgj, _⟩ := hs.owners d j hj
  obtain rfl := Option.some.inj (hg.symm.trans hg')
  exact hgi.symm.trans hgj

theorem harqInvariant_accounting {s : UeMac} (hs : HarqInvariant cfg s) : HarqAccounting s where
  taken_le := by
    have hkeys : ∀ d i, s.harq.Owns d i → d ∈ s.grantInfo.entries.map Prod.fst := by
      intro d i hi
      obtain ⟨g, hg, _⟩ := hs.owners d i hi
      exact List.mem_map_of_mem (f := Prod.fst) (Table.find?_eq_some_iff.mp hg)
    have hle := takenIds_le hs.sound.harq (fun _ _ _ hi hj => hs.one hi hj) hkeys
    rw [List.length_map] at hle
    exact hle
  owner := by
    intro id hin
    obtain ⟨d, hown⟩ := taken_owned hs.sound.harq hin
    obtain ⟨g, hg, hid, _⟩ := hs.owners d id hown
    exact ⟨d, g, hown, hg, hid⟩
  apart := fun _ hin _ => available_not_owned hs.sound.harq hin

theorem selectionPhase_accounts {x : UeState W} {mid : UeMac} {w : W}
    (hs : HarqInvariant cfg x.mac) (hone : OneChannel env)
    (h : selectionPhase S cfg env x.slot (x.mac, x.world) = .ok (mid, w)) :
    HarqInvariant cfg mid := by
  have hsound := selectionPhase_sound hs.sound h
  obtain ⟨hharq, hentries⟩ := selectionPhase_ok h
  refine ⟨hsound, fun d id hown => ?_, fun d g hg => ?_, fun d hd => ?_, hharq ▸ hs.size⟩
  · change mid.harq = x.mac.harq at hharq
    rw [hharq] at hown
    obtain ⟨g, hg, hid, hlive⟩ := hs.owners d id hown
    exact ⟨g, selectionPhase_live h hg hlive, hid, hlive⟩
  · rcases hentries d with hsame | ⟨_, _, hresel⟩
    · exact hs.channel d g (hsame ▸ hg)
    · exact reselected_slots (Q := fun a => ∃ lc, a.slRlcPduInfo = [lc]) hresel
        (fun g' hg' => hs.channel d g' hg') (fun offered w w' A hA a ha _ => hone d offered w w' A hA a ha)
        g hg
  · rcases hentries d with hsame | ⟨_, hin, _⟩
    · exact hs.known d (hsame ▸ hd)
    · exact hin

/-- A destination uses no id but the one in its grant, and none once the counter has run out; a turn
of its grant keeps this when new data finds it without an id. -/
theorem useGrant_owns {rlc : Nat → Nat → Bool} {sfn d : Nat} {g g' : NrSlGrantInfo}
    {h h' : NrSlUeMacHarq} {sent : Option Transmission}
    (hdst : ∀ a ∈ g.slotAllocations.elems, a.dstL2Id = d)
    (hlc : ∀ a ∈ g.slotAllocations.elems, ∃ lc, a.slRlcPduInfo = [lc])
    (howns : ∀ id, h.Owns d id → g.nrSlHarqId = id ∧ 0 ≤ g.slResoReselCounter)
    (hfree : ∀ a rest, 0 ≤ g.slResoReselCounter → g.slotAllocations.elems = a :: rest →
      a.sfn = sfn → a.ndi ≠ 0 → ∀ id, ¬h.Owns d id)
    (huse : useGrant cfg rlc sfn d g h = .ok (g', h', sent)) :
    ∀ id, h'.Owns d id → g'.nrSlHarqId = id ∧ 0 ≤ g'.slResoReselCounter := by
  rcases useGrant_ok huse with ⟨rfl, rfl, _⟩ | ⟨hlive, a, rest, helems, hnow, hconsume⟩
  · exact howns
  · have ha : a ∈ g.slotAllocations.elems := helems ▸ List.mem_cons_self
    have had := hdst a ha
    obtain ⟨g₁, h₁, txed, htransmit, hcases⟩ := consumeSlot_ok hconsume
    have hcounter : g₁.slResoReselCounter = g.slResoReselCounter := by
      rw [(transmit_ok htransmit).2]
    have hsent : ∀ id, h₁.Owns d id → g₁.nrSlHarqId = id := by
      intro id hown
      unfold transmit at htransmit
      by_cases hndi : a.ndi ≠ 0
      · rw [if_pos hndi] at htransmit
        obtain ⟨_, _, _, _, hsingle⟩ := transmitNewData_ok htransmit
        obtain ⟨lc, hlc⟩ := hlc a ha
        rcases (hsingle lc hlc id).mp (had ▸ hown) with hid | hbefore
        · exact hid.symm
        · exact absurd (had ▸ hbefore) (hfree a rest hlive helems hnow hndi id)
      · rw [if_neg hndi] at htransmit
        obtain ⟨hg₁, rfl, _⟩ := retransmit_ok htransmit
        rw [hg₁]
        exact (howns id hown).1
    rcases hcases with ⟨_, rfl, rfl, _⟩ | ⟨_, hclose, _⟩
    · exact fun id hown => ⟨hsent id hown, by omega⟩
    · rcases closePeriod_ok hclose with ⟨_, rfl, rfl⟩ | ⟨_, _, _, hback⟩
      · exact fun id hown => ⟨hsent id hown, by omega⟩
      · intro id hown
        obtain ⟨hne, hown₁⟩ := (hback id).mp (had.symm ▸ hown)
        exact absurd (hsent id (had ▸ hown₁)).symm hne

theorem useEntries_owns {rlc : Nat → Nat → Bool} {sfn : Nat} {l l' : List (Nat × NrSlGrantInfo)}
    {st st' : NrSlUeMacHarq × List Transmission}
    (hnodup : (l.map Prod.fst).Nodup) (hsound : st.1.Sound)
    (hdst : ∀ e ∈ l, ∀ a ∈ e.2.slotAllocations.elems, a.dstL2Id = e.1)
    (hlc : ∀ e ∈ l, ∀ a ∈ e.2.slotAllocations.elems, ∃ lc, a.slRlcPduInfo = [lc])
    (howns : ∀ e ∈ l, ∀ id, st.1.Owns e.1 id → e.2.nrSlHarqId = id ∧ 0 ≤ e.2.slResoReselCounter)
    (hfree : ∀ e ∈ l, ∀ a rest, 0 ≤ e.2.slResoReselCounter → e.2.slotAllocations.elems = a :: rest →
      a.sfn = sfn → a.ndi ≠ 0 → ∀ id, ¬st.1.Owns e.1 id)
    (h : sweep (visit (useEntry cfg sfn rlc)) l st = .ok (l', st')) (d : Nat) :
    (∃ g', (d, g') ∈ l' ∧ ∀ id, st'.1.Owns d id →
      g'.nrSlHarqId = id ∧ 0 ≤ g'.slResoReselCounter) ∨
    (d ∉ l.map Prod.fst ∧ ∀ id, st.1.Owns d id ↔ st'.1.Owns d id) := by
  by_cases hd : d ∈ l.map Prod.fst
  · obtain ⟨⟨_, g⟩, hin, rfl⟩ := List.mem_map.mp hd
    obtain ⟨g', h₁, h₂, own, huse, _, hk₁, hk₂, hresult, _⟩ :=
      useEntries_turn hnodup hsound hdst h hin
    have hturn := useGrant_owns (hdst _ hin) (hlc _ hin)
      (fun i hi => howns _ hin i ((keeps_owns hk₁ i).mpr hi))
      (fun a rest hlive helems hnow hndi i hi =>
        hfree _ hin a rest hlive helems hnow hndi i ((keeps_owns hk₁ i).mpr hi)) huse
    exact Or.inl ⟨g', hresult, fun id hown => hturn id ((keeps_owns hk₂ id).mpr hown)⟩
  · have haside := useEntries_aside (d := d) (fun e he => ⟨fun hed => hd ?_, hdst e he⟩) h
    · exact Or.inr ⟨hd, keeps_owns (haside hsound).2.1⟩
    · rw [← hed]
      exact List.mem_map_of_mem he

theorem harqInvariant_entries {s : UeMac} (hs : HarqInvariant cfg s) {e : Nat × NrSlGrantInfo}
    (he : e ∈ (env.order s.grantInfo).1) :
    s.grantInfo.find? e.1 = some e.2 ∧
      (∀ a ∈ e.2.slotAllocations.elems, a.dstL2Id = e.1) ∧
      (∀ a ∈ e.2.slotAllocations.elems, ∃ lc, a.slRlcPduInfo = [lc]) ∧
      ∀ id, s.harq.Owns e.1 id → e.2.nrSlHarqId = id ∧ 0 ≤ e.2.slResoReselCounter := by
  have hfind : s.grantInfo.find? e.1 = some e.2 := mem_order_iff.mp he
  refine ⟨hfind, hs.sound.dest e.1 e.2 hfind, hs.channel e.1 e.2 hfind, fun id hown => ?_⟩
  obtain ⟨g, hg, hid, hlive⟩ := hs.owners e.1 id hown
  obtain rfl := Option.some.inj (hfind.symm.trans hg)
  exact ⟨hid, hlive⟩

theorem transmissionPhase_accounts {n : Nat} {mid s' : UeMac} {sent : List Transmission}
    (hs : HarqInvariant cfg mid) (hfree : NewDataFree n mid)
    (h : transmissionPhase cfg env n mid = .ok (s', sent)) : HarqInvariant cfg s' := by
  obtain ⟨hsweep, hdst, hnodup⟩ := transmissionPhase_entries hs.sound h
  obtain ⟨hsound, hsize⟩ := transmissionPhase_sound hs.sound h
  have howns := useEntries_owns hnodup hs.sound.harq hdst
    (fun e he => (harqInvariant_entries hs he).2.2.1)
    (fun e he => (harqInvariant_entries hs he).2.2.2)
    (fun e he a rest => hfree e.1 e.2 a rest (harqInvariant_entries hs he).1) hsweep
  refine ⟨hsound, fun d id hown => ?_, fun d g' hg' => ?_, fun d hd => ?_, by
    rw [hsize]; exact hs.size⟩
  · rcases howns d with ⟨g', hin, hturn⟩ | ⟨hnot, hsame⟩
    · obtain ⟨hid, hlive⟩ := hturn id hown
      exact ⟨g', Table.find?_eq_some_iff.mpr hin, hid, hlive⟩
    · obtain ⟨g, hg, _⟩ := hs.owners d id ((hsame id).mpr hown)
      exact absurd (List.mem_map_of_mem (f := Prod.fst) (mem_order_iff.mpr hg)) hnot
  · obtain ⟨g, hg, hslots⟩ := transmissionPhase_slots hs.sound h hg'
    exact fun a ha => hs.channel d g hg a (hslots.subset ha)
  · apply hs.known d
    intro hnone
    exact hd ((transmissionPhase_none h).mpr hnone)

theorem useEntries_one {n : Nat} {mid : UeMac} (hs : HarqInvariant cfg mid)
    (hfree : NewDataFree n mid) {before after l : List (Nat × NrSlGrantInfo)}
    {st : NrSlUeMacHarq × List Transmission}
    (hsplit : (env.order mid.grantInfo).1 = before ++ after)
    (h : sweep (visit (useEntry cfg n env.rlc)) before (mid.harq, []) = .ok (l, st)) :
    (∀ d i j, st.1.Owns d i → st.1.Owns d j → i = j) ∧
      (∀ d i, st.1.Owns d i → d ∈ (env.order mid.grantInfo).1.map Prod.fst) ∧
      ∀ d, d ∉ before.map Prod.fst → ∀ i, mid.harq.Owns d i ↔ st.1.Owns d i := by
  have hin : ∀ e ∈ before, e ∈ (env.order mid.grantInfo).1 := by
    intro e he
    rw [hsplit]
    exact List.mem_append_left _ he
  have hnodup : (before.map Prod.fst).Nodup := by
    have hall := order_nodup env mid.grantInfo
    rw [hsplit, List.map_append] at hall
    exact (List.nodup_append.mp hall).1
  have hdst : ∀ e ∈ before, ∀ a ∈ e.2.slotAllocations.elems, a.dstL2Id = e.1 :=
    fun e he => (harqInvariant_entries hs (hin e he)).2.1
  have howns := useEntries_owns hnodup hs.sound.harq hdst
    (fun e he => (harqInvariant_entries hs (hin e he)).2.2.1)
    (fun e he => (harqInvariant_entries hs (hin e he)).2.2.2)
    (fun e he a rest => hfree e.1 e.2 a rest (harqInvariant_entries hs (hin e he)).1) h
  have hwaiting : ∀ d, d ∉ before.map Prod.fst → ∀ i, mid.harq.Owns d i ↔ st.1.Owns d i := by
    intro d hd
    have haside := useEntries_aside (d := d)
      (fun e he => ⟨fun hed => hd (hed ▸ List.mem_map_of_mem he), hdst e he⟩) h
    exact keeps_owns (haside hs.sound.harq).2.1
  refine ⟨fun d i j hi hj => ?_, fun d i hi => ?_, hwaiting⟩
  · rcases howns d with ⟨g', _, hturn⟩ | ⟨_, hsame⟩
    · rw [← (hturn i hi).1, ← (hturn j hj).1]
    · exact hs.one ((hsame i).mpr hi) ((hsame j).mpr hj)
  · by_cases hd : d ∈ before.map Prod.fst
    · obtain ⟨e, he, rfl⟩ := List.mem_map.mp hd
      exact List.mem_map_of_mem (hin e he)
    · obtain ⟨g, hg, _⟩ := hs.owners d i ((hwaiting d hd i).mpr hi)
      exact List.mem_map_of_mem (f := Prod.fst) (mem_order_iff.mpr hg)

theorem transmissionPhase_assigns {n : Nat} {mid : UeMac} (hs : HarqInvariant cfg mid)
    (hfree : NewDataFree n mid)
    (hpool : cfg.sidelinkTxDestinations.length ≤ mid.harq.nrSlHarqPktBuffer.length) :
    Fails (· ≠ Fault.harqAllBusy) (transmissionPhase cfg env n mid) := by
  refine transmissionPhase_fails ?_
  intro before d g after hsplit l st hbefore
  obtain ⟨hg, hearlier⟩ := order_split hsplit
  obtain ⟨hone, hkeys, hwaiting⟩ := useEntries_one hs hfree hsplit hbefore
  obtain ⟨hsound, hsize⟩ := useEntries_frame
    (fun e he => hs.sound.dest e.1 e.2 (hearlier e he).2) hbefore
  have hcount : ((env.order mid.grantInfo).1.map Prod.fst).length ≤ st.1.nrSlHarqPktBuffer.length := by
    have hsub : (env.order mid.grantInfo).1.map Prod.fst ⊆ cfg.sidelinkTxDestinations.map Prod.fst := by
      intro k hk
      obtain ⟨e, he, rfl⟩ := List.mem_map.mp hk
      refine hs.known e.1 fun hnone => ?_
      rw [mem_order_iff.mp he] at hnone
      cases hnone
    have hle := (List.subperm_of_subset (order_nodup env mid.grantInfo) hsub).length_le
    have hdsts : (cfg.sidelinkTxDestinations.map Prod.fst).length =
        cfg.sidelinkTxDestinations.length := List.length_map _
    change st.1.nrSlHarqPktBuffer.length = mid.harq.nrSlHarqPktBuffer.length at hsize
    omega
  have hd : d ∉ before.map Prod.fst := by
    intro hdb
    obtain ⟨e, he, hed⟩ := List.mem_map.mp hdb
    exact (hearlier e he).1 hed
  have hfaults : ∀ e ∈ slotUseFaults, e ≠ Fault.harqAllBusy := by decide
  refine useGrant_fails hfaults (fun _ _ => by decide)
    (fun a rest hlive helems hnow hndi => ?_)
  · obtain ⟨lc, ha⟩ := hs.channel d g hg a (helems ▸ List.mem_cons_self)
    have hleft := id_left (hsound hs.sound.harq)
      (List.mem_map_of_mem (f := Prod.fst) (mem_order_iff.mpr hg)) hone hkeys
      (fun i hi => hfree d g a rest hg hlive helems hnow hndi i ((hwaiting d hd i).mpr hi)) hcount
    have hlt := available_lt (hsound hs.sound.harq) (by rw [hsize]; exact hs.size)
    refine fails_bind ?_ fun _ _ => fails_ok _
    rw [ha, List.foldlM_cons]
    exact fails_bind (notifyTxOpportunity_fails hfaults
      (assign_fails_of_left hfaults _ hleft hlt) lc) fun _ _ => fails_ok _

end Steps

/-- In a run whose slot indications all give the ids back in time the books are in order, and with as
many ids as destinations no assignment aborts. -/
theorem harqAccounting_of_idsReturned {W : Type} {S : RsrpScale} {cfg : UeMacConfig} {y : UeState W}
    (h : Reachable S cfg (IdsReturned S cfg) y) :
    HarqAccounting y.mac ∧ ∀ env mid w, IdsReturned S cfg env y →
      selectionPhase S cfg env y.slot (y.mac, y.world) = .ok (mid, w) →
      cfg.sidelinkTxDestinations.length ≤ y.mac.harq.nrSlHarqPktBuffer.length →
      transmissionPhase cfg env y.slot mid ≠ .error Fault.harqAllBusy := by
  obtain ⟨x, log, hinit, hrun⟩ := h
  have hstart : HarqInvariant cfg x.mac := by
    have hsound := hinit.sound
    obtain ⟨_, n, hn, hmac⟩ := hinit
    rw [hmac] at hsound ⊢
    have hnone : ∀ d, (initUeMac n).grantInfo.find? d = none := fun _ => rfl
    refine ⟨hsound, fun d id hown => ?_, fun d g hg => ?_, fun d hd => absurd (hnone d) hd, ?_⟩
    · obtain ⟨p, hp, hd⟩ := hown
      simp only [initUeMac, initHarqBuffer, List.getElem?_replicate] at hp
      split at hp
      next =>
        obtain rfl := Option.some.inj hp
        cases hd
      next => cases hp
    · rw [hnone d] at hg
      cases hg
    · simpa [initUeMac, initHarqBuffer] using hn
  have hinv := hrun.invariant (P := fun z => HarqInvariant cfg z.mac)
    (fun env z mid sent z' hz hmeets step => transmissionPhase_accounts
      (selectionPhase_accounts hz hmeets.1 step.selected) (hmeets.2 mid z'.world step.selected)
      step.transmitted) hstart
  refine ⟨harqInvariant_accounting hinv, fun env mid w hmeets hselect hpool herror => ?_⟩
  have hmid := selectionPhase_accounts hinv hmeets.1 hselect
  have hharq : mid.harq = y.mac.harq := (selectionPhase_ok hselect).1
  exact transmissionPhase_assigns hmid (hmeets.2 mid w hselect) (hharq ▸ hpool) _ herror rfl

theorem harqAccounting_of_idsReturned_firstGrant :
    ∃ y : UeState Unit, y.slot = 100 ∧ firstSlots y.mac = [some 100] ∧ HarqAccounting y.mac := by
  obtain ⟨mid, y, sent, step, hslot, hmid, hy⟩ := sparse_firstStep
  have hreturned : IdsReturned realScale sparseConfig (quietEnv true)
      (⟨0, initUeMac 4, ()⟩ : UeState Unit) := by
    refine ⟨fun dst offered w w' A hA => ?_, fun mid' w' hmid' d g a rest hg _ helems hnow => ?_⟩
    · cases offered with
      | nil => cases hA
      | cons c rest =>
        cases hA
        simp [firstSlotAllocation, insertByKey, firstSlotAlloc]
    · obtain ⟨rfl, _⟩ := Prod.mk.inj (Except.ok.inj (step.selected.symm.trans hmid'))
      have hsfn := firstSlots_head hmid hg helems
      change a.sfn = 0 at hnow
      omega
  have hreach : Reachable realScale sparseConfig (IdsReturned realScale sparseConfig) y :=
    ⟨_, _, sparse_initial, .next _ _ mid sent [] _ .start hreturned step⟩
  exact ⟨y, hslot, hy, (harqAccounting_of_idsReturned hreach).1⟩

/-- The fault of a run, or how many ids are taken and how many destinations have a grant. -/
def sparseBooks (r : Except Fault (UeMac × Unit)) : Fault ⊕ (Nat × Nat) :=
  match r with
  | .error e => .inl e
  | .ok st => .inr ((takenIds st.1.harq).length, st.1.grantInfo.entries.length)

/-- Each slot for new data with an empty RLC buffer takes an id for good: four of them exhaust a pool
of four ids that serves one destination. -/
theorem harqAccounting_fails_emptyBuffer :
    ∃ y : UeState Unit, Reachable realScale sparseConfig (fun _ _ => True) y ∧
      ¬HarqAccounting y.mac ∧
      sparseConfig.sidelinkTxDestinations.length ≤ y.mac.harq.nrSlHarqPktBuffer.length ∧
      doNrSlSlotIndication realScale sparseConfig (quietEnv false) y.slot (y.mac, y.world) =
        .error Fault.harqAllBusy := by
  have hend : sparseBooks (sparseRun realScale 4 (fun _ => false) 5) = .inr (4, 1) := by
    decide +kernel
  have hsize : (sparseRun realScale 4 (fun _ => false) 5).toOption.map
      (fun st => st.1.harq.nrSlHarqPktBuffer.length) = some 4 := by
    decide +kernel
  have hfault : faultOf (sparseRun realScale 4 (fun _ => false) 6) = some Fault.harqAllBusy := by
    decide +kernel
  cases hrun : sparseRun realScale 4 (fun _ => false) 5 with
  | error e =>
    rw [hrun] at hend
    cases hend
  | ok st =>
    rw [hrun] at hend hsize
    obtain ⟨htaken, hgrants⟩ := Prod.mk.inj (Sum.inr.inj hend)
    have hpool : st.1.harq.nrSlHarqPktBuffer.length = 4 := Option.some.inj hsize
    refine ⟨⟨500, st.1, st.2⟩, sparseRun_reachable (by decide) hrun, fun hbooks => ?_, ?_, ?_⟩
    · have hle := hbooks.taken_le
      change (takenIds st.1.harq).length ≤ st.1.grantInfo.entries.length at hle
      omega
    · change 1 ≤ st.1.harq.nrSlHarqPktBuffer.length
      omega
    · exact sparseRun_stops hrun rfl rfl (eq_error_of_faultOf hfault)

end SidelinkORe
