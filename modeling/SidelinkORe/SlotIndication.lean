import SidelinkORe.GrantUse
import SidelinkORe.Reselection

namespace SidelinkORe

section Indication

variable {W : Type} (S : RsrpScale) (cfg : UeMacConfig) (env : SlotEnv W) (sfn : Nat)

def receiveSensingData (sensingData : List SensingData) : List SensingData :=
  if cfg.enableSensing = true then sensingData ++ env.received else sensingData

/-- The first part of a slot indication: sensing window and re-selection. -/
def selectionPhase (st : UeMac × W) : Except Fault (UeMac × W) := do
  let sensingData ← updateSensingWindow cfg.toSelectionConfig
    (receiveSensingData cfg env st.1.sensingData) sfn
  reselectionPhase S cfg env sfn ({ st.1 with sensingData := sensingData }, st.2)

/-- One round of the transmission loop, with the transmissions of the slot so far. -/
def useEntry (rlc : Nat → Nat → Bool) (dstL2Id : Nat) (g : NrSlGrantInfo)
    (st : NrSlUeMacHarq × List Transmission) :
    Except Fault (NrSlGrantInfo × NrSlUeMacHarq × List Transmission) := do
  let (g, harq, sent) ← useGrant cfg rlc sfn dstL2Id g st.1
  pure (g, harq, st.2 ++ sent.toList)

/-- The second part of a slot indication: the transmission loop over `m_grantInfo`. -/
def transmissionPhase (s : UeMac) : Except Fault (UeMac × List Transmission) := do
  let ordered := env.order s.grantInfo
  let (grantInfo, harq, sent) ← sweepTable (useEntry cfg sfn env.rlc)
    (s.grantInfo.reorder ordered.1 ordered.2) (s.harq, [])
  pure ({ s with grantInfo := grantInfo, harq := harq }, sent)

def doNrSlSlotIndication (st : UeMac × W) : Except Fault ((UeMac × W) × List Transmission) := do
  let (mac, w) ← selectionPhase S cfg env sfn st
  let (mac, sent) ← transmissionPhase cfg env sfn mac
  pure ((mac, w), sent)

end Indication

open NrSlUeMacHarq

/-- What every reachable MAC state satisfies: the HARQ processes are in order and each grant holds
allocations of its own destination. -/
structure MacSound (s : UeMac) : Prop where
  harq : s.harq.Sound
  dest : ∀ d g, s.grantInfo.find? d = some g → ∀ a ∈ g.slotAllocations.elems, a.dstL2Id = d

section Frames

variable {W : Type} {S : RsrpScale} {cfg : UeMacConfig} {env : SlotEnv W} {sfn : Nat}

theorem doNrSlSlotIndication_iff {st st' : UeMac × W} {sent : List Transmission} :
    doNrSlSlotIndication S cfg env sfn st = .ok (st', sent) ↔
      ∃ mid, selectionPhase S cfg env sfn st = .ok (mid, st'.2) ∧
        transmissionPhase cfg env sfn mid = .ok (st'.1, sent) := by
  constructor
  · intro h
    obtain ⟨⟨mid, w⟩, hselect, h⟩ := bind_ok_iff.mp h
    obtain ⟨⟨mac, log⟩, htransmit, h⟩ := bind_ok_iff.mp h
    cases pure_ok_iff.mp h
    exact ⟨mid, hselect, htransmit⟩
  · rintro ⟨mid, hselect, htransmit⟩
    exact bind_ok_iff.mpr ⟨_, hselect, bind_ok_iff.mpr ⟨_, htransmit, rfl⟩⟩

theorem selectionPhase_ok {st st' : UeMac × W} (h : selectionPhase S cfg env sfn st = .ok st') :
    st'.1.harq = st.1.harq ∧
      ∀ d, st'.1.grantInfo.find? d = st.1.grantInfo.find? d ∨
        (st.1.harq.getNumAvailableHarqIds ≠ 0 ∧ d ∈ cfg.sidelinkTxDestinations.map Prod.fst ∧
          Reselected cfg env sfn d (st.1.grantInfo.find? d) (st'.1.grantInfo.find? d)) := by
  obtain ⟨_, _, h⟩ := bind_ok_iff.mp h
  exact (reselectionPhase_ok h).2

/-- The slots of a fresh grant belong to its destination, lie in or after the window, and there is
at least one. -/
theorem freshGrant_slots {d : Nat} {offered : List NrSlSlotInfo} {g : NrSlGrantInfo}
    (made : FreshGrant cfg env sfn d offered g) :
    g.slotAllocations.elems ≠ [] ∧
      ∀ x ∈ g.slotAllocations.elems, x.dstL2Id = d ∧ sfn + cfg.t1 ≤ x.sfn := by
  obtain ⟨hfrom, hne⟩ := createGrantInfo_slots made.created
  refine ⟨hne (by have := made.counter_pos; omega) made.answer.nonempty, fun x hx => ?_⟩
  obtain ⟨i, _, a, ha, rfl⟩ := hfrom x hx
  refine ⟨made.answer.dest a ha, ?_⟩
  obtain ⟨c, hc, hsfn⟩ := List.mem_map.mp (made.answer.drawn a ha)
  have hlow := (made.window c hc).1
  change sfn + cfg.t1 ≤ a.sfn + _
  have hsfn' : c.sfn = a.sfn := hsfn
  omega

/-- What holds of every slot of the old grant and of the shifted slots of every answer of the
scheduler holds of every slot of the new grant. -/
theorem reselected_slots {Q : NrSlSlotAlloc → Prop} {d : Nat} {old new : Option NrSlGrantInfo}
    (h : Reselected cfg env sfn d old new) (hold : ∀ g ∈ old, ∀ a ∈ g.slotAllocations.elems, Q a)
    (hanswer : ∀ offered w w' (A : Allocation d offered),
      env.schedule d offered w = .ok (w', some A) → ∀ a ∈ A.slots.elems, ∀ k, Q (shiftAlloc k a)) :
    ∀ g ∈ new, ∀ a ∈ g.slotAllocations.elems, Q a := by
  cases h with
  | untouched => exact hold
  | kept g =>
    intro g' hg'
    obtain rfl := Option.some.inj hg'
    exact hold g rfl
  | cleared g =>
    intro g' hg' a ha
    obtain rfl := Option.some.inj hg'
    simp at ha
  | fresh _ _ offered g made =>
    intro g' hg' x hx
    obtain rfl := Option.some.inj hg'
    obtain ⟨i, _, a, ha, rfl⟩ := (createGrantInfo_slots made.created).1 x hx
    obtain ⟨w, w', hw⟩ := made.answered
    exact hanswer offered w w' made.answer hw a ha _

theorem reselected_live {d : Nat} {g : NrSlGrantInfo} {new : Option NrSlGrantInfo}
    (h : Reselected cfg env sfn d (some g) new) (hlive : 0 ≤ g.slResoReselCounter) :
    new = some g := by
  cases h with
  | untouched => rfl
  | kept _ neg => omega
  | cleared _ neg => omega
  | fresh _ neg =>
    have hneg := neg g rfl
    omega

theorem selectionPhase_live {st st' : UeMac × W} {d : Nat} {g : NrSlGrantInfo}
    (h : selectionPhase S cfg env sfn st = .ok st') (hg : st.1.grantInfo.find? d = some g)
    (hlive : 0 ≤ g.slResoReselCounter) : st'.1.grantInfo.find? d = some g := by
  rcases (selectionPhase_ok h).2 d with hsame | ⟨_, _, hresel⟩
  · exact hsame.trans hg
  · rw [hg] at hresel
    exact reselected_live hresel hlive

theorem selectionPhase_sound {st st' : UeMac × W} (hs : MacSound st.1)
    (h : selectionPhase S cfg env sfn st = .ok st') : MacSound st'.1 := by
  obtain ⟨hharq, hentries⟩ := selectionPhase_ok h
  refine ⟨hharq ▸ hs.harq, fun d g hg => ?_⟩
  rcases hentries d with hsame | ⟨_, _, hresel⟩
  · exact hs.dest d g (hsame ▸ hg)
  · exact reselected_slots (Q := fun a => a.dstL2Id = d) hresel (fun g' hg' => hs.dest d g' hg')
      (fun _ _ _ A _ a ha _ => A.dest a ha) g hg

/-- A state change during the transmission loop that leaves `d` aside. -/
def Aside (d : Nat) (s s' : NrSlUeMacHarq × List Transmission) : Prop :=
  s.1.Sound → s'.1.Sound ∧ Keeps d s.1 s'.1 ∧
    ∃ sent, s'.2 = s.2 ++ sent ∧ ∀ t ∈ sent, t.dstL2Id ≠ d

theorem aside_refl (d : Nat) (s : NrSlUeMacHarq × List Transmission) : Aside d s s :=
  fun hs => ⟨hs, keeps_refl _, [], by simp, by simp⟩

theorem aside_trans {d : Nat} {s₁ s₂ s₃ : NrSlUeMacHarq × List Transmission} (h12 : Aside d s₁ s₂)
    (h23 : Aside d s₂ s₃) : Aside d s₁ s₃ := by
  intro hs
  obtain ⟨hs₂, hk₂, l₂, hl₂, hd₂⟩ := h12 hs
  obtain ⟨hs₃, hk₃, l₃, hl₃, hd₃⟩ := h23 hs₂
  refine ⟨hs₃, keeps_trans hk₂ hk₃, l₂ ++ l₃, by rw [hl₃, hl₂, List.append_assoc], fun t ht => ?_⟩
  rcases List.mem_append.mp ht with ht | ht
  · exact hd₂ t ht
  · exact hd₃ t ht

theorem useEntry_ok {rlc : Nat → Nat → Bool} {k : Nat} {g g' : NrSlGrantInfo}
    {st st' : NrSlUeMacHarq × List Transmission}
    (h : useEntry cfg sfn rlc k g st = .ok (g', st')) :
    ∃ sent, useGrant cfg rlc sfn k g st.1 = .ok (g', st'.1, sent) ∧ st'.2 = st.2 ++ sent.toList := by
  obtain ⟨⟨g₁, h₁, sent⟩, huse, h⟩ := bind_ok_iff.mp h
  cases pure_ok_iff.mp h
  exact ⟨sent, huse, rfl⟩

theorem useEntry_aside {rlc : Nat → Nat → Bool} {d k : Nat} {g g' : NrSlGrantInfo}
    {st st' : NrSlUeMacHarq × List Transmission} (hk : k ≠ d)
    (hdst : ∀ x ∈ g.slotAllocations.elems, x.dstL2Id = k)
    (h : useEntry cfg sfn rlc k g st = .ok (g', st')) : Aside d st st' := by
  obtain ⟨sent, huse, hlog⟩ := useEntry_ok h
  obtain ⟨hconf, hsent⟩ := useGrant_confined hdst huse
  intro hs
  refine ⟨hconf.sound hs, hconf.keeps hs d (Ne.symm hk), sent.toList, hlog, fun t ht => ?_⟩
  rw [hsent t (Option.mem_toList.mp ht)]
  exact hk

theorem useEntries_aside {rlc : Nat → Nat → Bool} {d : Nat} {l l' : List (Nat × NrSlGrantInfo)}
    {st st' : NrSlUeMacHarq × List Transmission}
    (hdst : ∀ e ∈ l, e.1 ≠ d ∧ ∀ x ∈ e.2.slotAllocations.elems, x.dstL2Id = e.1)
    (h : sweep (visit (useEntry cfg sfn rlc)) l st = .ok (l', st')) : Aside d st st' :=
  sweep_relates (aside_refl d) (fun _ _ _ => aside_trans)
    (fun e he _ _ _ huse => useEntry_aside (hdst e he).1 (hdst e he).2 huse) h

theorem useEntries_frame {rlc : Nat → Nat → Bool} {l l' : List (Nat × NrSlGrantInfo)}
    {st st' : NrSlUeMacHarq × List Transmission}
    (hdst : ∀ e ∈ l, ∀ x ∈ e.2.slotAllocations.elems, x.dstL2Id = e.1)
    (h : sweep (visit (useEntry cfg sfn rlc)) l st = .ok (l', st')) :
    (st.1.Sound → st'.1.Sound) ∧
      st'.1.nrSlHarqPktBuffer.length = st.1.nrSlHarqPktBuffer.length := by
  refine sweep_relates (R := fun s s' : NrSlUeMacHarq × List Transmission =>
    (s.1.Sound → s'.1.Sound) ∧
      s'.1.nrSlHarqPktBuffer.length = s.1.nrSlHarqPktBuffer.length) (fun _ => ⟨id, rfl⟩)
    (fun _ _ _ h12 h23 => ⟨fun hs => h23.1 (h12.1 hs), h23.2.trans h12.2⟩) ?_ h
  intro e he s a s' huse
  obtain ⟨_, hgrant, _⟩ := useEntry_ok huse
  have hconf := (useGrant_confined (hdst e he) hgrant).1
  exact ⟨hconf.sound, hconf.size⟩

/-- The transmission loop as one destination sees it: the others leave its processes alone before
and after its own turn. -/
theorem useEntries_turn {rlc : Nat → Nat → Bool} {l l' : List (Nat × NrSlGrantInfo)}
    {st st' : NrSlUeMacHarq × List Transmission} {d : Nat} {g : NrSlGrantInfo}
    (hnodup : (l.map Prod.fst).Nodup) (hsound : st.1.Sound)
    (hdst : ∀ e ∈ l, ∀ x ∈ e.2.slotAllocations.elems, x.dstL2Id = e.1)
    (h : sweep (visit (useEntry cfg sfn rlc)) l st = .ok (l', st')) (hg : (d, g) ∈ l) :
    ∃ g' h₁ h₂ own, useGrant cfg rlc sfn d g h₁ = .ok (g', h₂, own) ∧ h₁.Sound ∧
      Keeps d st.1 h₁ ∧ Keeps d h₂ st'.1 ∧ (d, g') ∈ l' ∧
      ∃ before after, st'.2 = st.2 ++ before ++ own.toList ++ after ∧
        (∀ t ∈ before, t.dstL2Id ≠ d) ∧ ∀ t ∈ after, t.dstL2Id ≠ d := by
  obtain ⟨before, st₁, g', st₂, after, turn⟩ := sweep_turn hnodup h hg
  have hothers : ∀ e, e ∈ before ∨ e ∈ after →
      e.1 ≠ d ∧ ∀ x ∈ e.2.slotAllocations.elems, x.dstL2Id = e.1 := by
    intro e he
    refine ⟨turn.others e he, hdst e ?_⟩
    rw [turn.entries]
    rcases he with hb | ha
    · exact List.mem_append_left _ hb
    · exact List.mem_append_right _ (List.mem_cons_of_mem _ ha)
  obtain ⟨_, hearlier⟩ := turn.earlier
  obtain ⟨_, hlater⟩ := turn.later
  obtain ⟨hs₁, hk₁, l₁, hl₁, hd₁⟩ :=
    useEntries_aside (fun e he => hothers e (Or.inl he)) hearlier hsound
  obtain ⟨own, huse, hlog⟩ := useEntry_ok turn.own
  have hconf := (useGrant_confined (hdst (d, g) hg) huse).1
  obtain ⟨_, hk₂, l₂, hl₂, hd₂⟩ :=
    useEntries_aside (fun e he => hothers e (Or.inr he)) hlater (hconf.sound hs₁)
  exact ⟨g', st₁.1, st₂.1, own, huse, hs₁, hk₁, hk₂, turn.result, l₁, l₂, by rw [hl₂, hlog, hl₁],
    hd₁, hd₂⟩

theorem mem_order_iff {T : GrantTable} {d : Nat} {g : NrSlGrantInfo} :
    (d, g) ∈ (env.order T).1 ↔ T.find? d = some g :=
  (env.order T).2.mem_iff.trans Table.find?_eq_some_iff.symm

theorem order_nodup (env : SlotEnv W) (T : GrantTable) : ((env.order T).1.map Prod.fst).Nodup :=
  (T.reorder _ (env.order T).2).nodup

/-- What comes before the turn of `d` in the traversal are the grants of other destinations. -/
theorem order_split {T : GrantTable} {before after : List (Nat × NrSlGrantInfo)} {d : Nat}
    {g : NrSlGrantInfo} (h : (env.order T).1 = before ++ (d, g) :: after) :
    T.find? d = some g ∧ ∀ e ∈ before, e.1 ≠ d ∧ T.find? e.1 = some e.2 := by
  have hnodup := order_nodup env T
  rw [h, List.map_append, List.map_cons] at hnodup
  refine ⟨mem_order_iff.mp (h ▸ List.mem_append_right _ List.mem_cons_self), fun e he => ?_⟩
  refine ⟨fun hed => ?_, mem_order_iff.mp (h ▸ List.mem_append_left _ he)⟩
  exact (List.nodup_append.mp hnodup).2.2 e.1 (List.mem_map_of_mem he) d List.mem_cons_self hed

theorem transmissionPhase_entries {s s' : UeMac} {sent : List Transmission} (hs : MacSound s)
    (h : transmissionPhase cfg env sfn s = .ok (s', sent)) :
    sweep (visit (useEntry cfg sfn env.rlc)) (env.order s.grantInfo).1 (s.harq, []) =
        .ok (s'.grantInfo.entries, s'.harq, sent) ∧
      (∀ e ∈ (env.order s.grantInfo).1, ∀ x ∈ e.2.slotAllocations.elems, x.dstL2Id = e.1) ∧
      ((env.order s.grantInfo).1.map Prod.fst).Nodup := by
  obtain ⟨⟨T', harq', log⟩, hsweep, h⟩ := bind_ok_iff.mp h
  cases pure_ok_iff.mp h
  exact ⟨sweepTable_ok hsweep, fun e he => hs.dest e.1 e.2 (mem_order_iff.mp he),
    order_nodup env s.grantInfo⟩

theorem transmissionPhase_turn {s s' : UeMac} {sent : List Transmission} (hs : MacSound s)
    (h : transmissionPhase cfg env sfn s = .ok (s', sent)) {d : Nat} {g : NrSlGrantInfo}
    (hg : s.grantInfo.find? d = some g) :
    ∃ g' h₁ h₂ own, useGrant cfg env.rlc sfn d g h₁ = .ok (g', h₂, own) ∧
      h₁.Sound ∧ Keeps d s.harq h₁ ∧ Keeps d h₂ s'.harq ∧ s'.grantInfo.find? d = some g' ∧
      sent.filter (fun t => t.dstL2Id = d) = own.toList := by
  obtain ⟨hsweep, hdst, hnodup⟩ := transmissionPhase_entries hs h
  have hin : (d, g) ∈ (env.order s.grantInfo).1 := mem_order_iff.mpr hg
  obtain ⟨g', h₁, h₂, own, huse, hs₁, hk₁, hk₂, hresult, l₁, l₂, hlog, hd₁, hd₂⟩ :=
    useEntries_turn hnodup hs.harq hdst hsweep hin
  refine ⟨g', h₁, h₂, own, huse, hs₁, hk₁, hk₂, Table.find?_eq_some_iff.mpr hresult, ?_⟩
  have hno : ∀ l : List Transmission, (∀ t ∈ l, t.dstL2Id ≠ d) →
      l.filter (fun t => t.dstL2Id = d) = [] := by
    intro l hl
    apply List.filter_eq_nil_iff.mpr
    intro t ht
    simpa using hl t ht
  have hown := (useGrant_confined (hdst (d, g) hin) huse).2
  have hyes : own.toList.filter (fun t => t.dstL2Id = d) = own.toList := by
    apply List.filter_eq_self.mpr
    intro t ht
    simpa using hown t (Option.mem_toList.mp ht)
  have hall : sent = l₁ ++ own.toList ++ l₂ := by simpa using hlog
  rw [hall, List.filter_append, List.filter_append, hno l₁ hd₁, hno l₂ hd₂, hyes]
  simp

theorem transmissionPhase_none {s s' : UeMac} {sent : List Transmission}
    (h : transmissionPhase cfg env sfn s = .ok (s', sent)) {d : Nat} :
    s'.grantInfo.find? d = none ↔ s.grantInfo.find? d = none := by
  obtain ⟨⟨T', harq', sent'⟩, hsweep, h⟩ := bind_ok_iff.mp h
  cases pure_ok_iff.mp h
  rw [← Table.find?_reorder (env.order s.grantInfo).2 d]
  exact sweepTable_find?_none hsweep

/-- Every grant after the transmission loop holds the last slots of the one before. -/
theorem transmissionPhase_slots {s s' : UeMac} {sent : List Transmission} (hs : MacSound s)
    (h : transmissionPhase cfg env sfn s = .ok (s', sent)) {d : Nat} {g' : NrSlGrantInfo}
    (hg' : s'.grantInfo.find? d = some g') :
    ∃ g, s.grantInfo.find? d = some g ∧ g'.slotAllocations.elems <:+ g.slotAllocations.elems := by
  cases hg : s.grantInfo.find? d with
  | none =>
    rw [(transmissionPhase_none h).mpr hg] at hg'
    cases hg'
  | some g =>
    obtain ⟨g₁, h₁, h₂, own, huse, _, _, _, hfind, _⟩ := transmissionPhase_turn hs h hg
    obtain rfl := Option.some.inj (hg'.symm.trans hfind)
    exact ⟨g, rfl, useGrant_slots huse⟩

theorem transmissionPhase_sound {s s' : UeMac} {sent : List Transmission} (hs : MacSound s)
    (h : transmissionPhase cfg env sfn s = .ok (s', sent)) :
    MacSound s' ∧ s'.harq.nrSlHarqPktBuffer.length = s.harq.nrSlHarqPktBuffer.length := by
  obtain ⟨hsweep, hdst, _⟩ := transmissionPhase_entries hs h
  obtain ⟨hsound, hsize⟩ := useEntries_frame hdst hsweep
  refine ⟨⟨hsound hs.harq, fun d g' hg' => ?_⟩, hsize⟩
  obtain ⟨g, hg, hslots⟩ := transmissionPhase_slots hs h hg'
  exact fun a ha => hs.dest d g hg a (hslots.subset ha)

end Frames

end SidelinkORe
