import SidelinkORe.DoubleBooking
import SidelinkORe.SchedulerAnswer
import SidelinkORe.SlTransmission

namespace SidelinkORe

section OneTransmission

variable {W : Type} {cfg : UeMacConfig} {env : SlotEnv W} {sfn : Nat}

/-- Every transmission uses a slot of the grant of its destination, at its time. -/
theorem transmissionPhase_sent {s s' : UeMac} {sent : List Transmission} (hs : MacSound s)
    (h : transmissionPhase cfg env sfn s = .ok (s', sent)) :
    ∀ t ∈ sent, ∃ g, s.grantInfo.find? t.dstL2Id = some g ∧
      t.alloc ∈ g.slotAllocations.elems ∧ t.alloc.sfn = sfn := by
  obtain ⟨hsweep, hdst, _⟩ := transmissionPhase_entries hs h
  intro t ht
  cases hg : s.grantInfo.find? t.dstL2Id with
  | none =>
    have haside : Aside t.dstL2Id (s.harq, []) (s'.harq, sent) := by
      apply useEntries_aside _ hsweep
      intro e he
      refine ⟨fun hed => ?_, hdst e he⟩
      apply Table.find?_eq_none_iff.mp hg
      rw [← hed]
      exact List.mem_map_of_mem ((env.order s.grantInfo).2.mem_iff.mp he)
    obtain ⟨_, _, others, hlog, hothers⟩ := haside hs.harq
    have hall : sent = others := by simpa using hlog
    exact absurd rfl (hothers t (hall ▸ ht))
  | some g =>
    obtain ⟨g', h₁, h₂, own, huse, _, _, _, _, hown⟩ := transmissionPhase_turn hs h hg
    have hmem : t ∈ own.toList := by
      rw [← hown]
      exact List.mem_filter.mpr ⟨ht, by simp⟩
    have hsome := Option.mem_toList.mp hmem
    rcases useGrant_ok huse with ⟨_, _, rfl, _⟩ | ⟨_, a, rest, helems, hnow, hconsume⟩
    · cases hsome
    · obtain ⟨_, _, _, _, ⟨_, _, _, hnone⟩ | ⟨_, _, _, _, hsent⟩⟩ := consumeSlot_ok hconsume
      · rw [hnone] at hsome
        cases hsome
      · rw [hsent] at hsome
        have halloc : t.alloc = a := by rw [← Option.some.inj hsome]
        rw [halloc]
        refine ⟨g, rfl, ?_, hnow⟩
        rw [helems]
        exact List.mem_cons_self

/-- With disjoint grants a slot has one transmission at most. -/
theorem transmissionPhase_single {s s' : UeMac} {sent : List Transmission} (hs : MacSound s)
    (hdisjoint : GrantsDisjoint s.grantInfo)
    (h : transmissionPhase cfg env sfn s = .ok (s', sent)) : sent = [] ∨ ∃ t, sent = [t] := by
  match sent, h with
  | [], _ => exact Or.inl rfl
  | [t], _ => exact Or.inr ⟨t, rfl⟩
  | t :: u :: rest, h =>
    obtain ⟨g, hg, ht, htn⟩ := transmissionPhase_sent hs h t (by simp)
    obtain ⟨g', hg', hu, hun⟩ := transmissionPhase_sent hs h u (by simp)
    by_cases hdst : t.dstL2Id = u.dstL2Id
    · -- both would be the one transmission of the destination
      obtain ⟨_, _, _, own, _, _, _, _, _, hown⟩ := transmissionPhase_turn hs h hg
      have hlength : 2 ≤ own.toList.length := by
        rw [← hown]
        simp [hdst]
      cases own <;> simp at hlength
    · exact absurd (htn.trans hun.symm) (hdisjoint _ _ g g' hdst hg hg' _ ht _ hu)

end OneTransmission

section Shapes

variable {W : Type} {S : RsrpScale} {cfg : UeMacConfig} {env : SlotEnv W} {sfn d : Nat}

/-- Where all offered slots have the layout of the pool, so have the slots of the answer. -/
def CopiesShape (cfg : UeMacConfig) (env : SlotEnv W) : Prop :=
  ∀ d offered w w' (A : Allocation d offered), (∀ c ∈ offered, c.shape = cfg.pool.shape) →
    env.schedule d offered w = .ok (w', some A) → ∀ a ∈ A.slots.elems, a.shape = cfg.pool.shape

def Shaped (cfg : UeMacConfig) (T : GrantTable) : Prop :=
  ∀ d g, T.find? d = some g → ∀ a ∈ g.slotAllocations.elems, a.shape = cfg.pool.shape

theorem Shaped.put {T : GrantTable} {g : NrSlGrantInfo} (hs : Shaped cfg T)
    (hg : ∀ a ∈ g.slotAllocations.elems, a.shape = cfg.pool.shape) : Shaped cfg (T.put d g) := by
  intro d' g' hg'
  by_cases hd : d' = d
  · subst hd
    rw [Table.find?_put_self] at hg'
    obtain rfl := Option.some.inj hg'
    exact hg
  · rw [Table.find?_put_ne _ _ hd] at hg'
    exact hs d' g' hg'

theorem requestResources_shaped {st st' : UeMac × W} (hcopies : CopiesShape cfg env)
    (hs : Shaped cfg st.1.grantInfo) (h : requestResources S cfg env sfn d st = .ok st') :
    Shaped cfg st'.1.grantInfo := by
  obtain ⟨R, _, h⟩ := bind_ok_iff.mp h
  obtain ⟨⟨cands, message⟩, hcands, h⟩ := bind_ok_iff.mp h
  obtain ⟨w, _, h⟩ := bind_ok_iff.mp h
  have hoffered : ∀ c ∈ filterTxOpportunities st.1.grantInfo cands, c.shape = cfg.pool.shape :=
    fun c hc => getNrSlTxOpportunities_shape hcands c (mem_filterTxOpportunities.mp hc).1
  unfold grantFresh at h
  split at h
  next =>
    rw [← pure_ok_iff.mp h]
    exact hs
  next =>
    obtain ⟨⟨w', answer⟩, hanswer, h⟩ := bind_ok_iff.mp h
    cases answer with
    | none =>
      rw [← pure_ok_iff.mp h]
      exact hs
    | some A =>
      obtain ⟨T, hT, h⟩ := bind_ok_iff.mp h
      rw [← pure_ok_iff.mp h]
      obtain ⟨first, g, _, hg, rfl⟩ := doSchedUeNrSlConfigInd_ok hT
      apply hs.put
      intro x hx
      obtain ⟨i, _, a, ha, rfl⟩ := (createGrantInfo_slots hg).1 x hx
      exact hcopies d _ _ _ A hoffered hanswer a ha

theorem reselectDst_shaped {st st' : UeMac × W} (hcopies : CopiesShape cfg env)
    (hs : Shaped cfg st.1.grantInfo) (h : reselectDst S cfg env sfn d st = .ok st') :
    Shaped cfg st'.1.grantInfo := by
  unfold reselectDst at h
  split at h
  next => exact requestResources_shaped hcopies hs h
  next g hg =>
    split at h
    next =>
      rw [← pure_ok_iff.mp h]
      exact hs
    next =>
      split at h
      next =>
        obtain ⟨_, _, h⟩ := bind_ok_iff.mp h
        rw [← pure_ok_iff.mp h]
        apply hs.put
        exact hs d g hg
      next =>
        refine requestResources_shaped hcopies ?_ h
        apply hs.put
        simp

theorem selectionPhase_shaped {st st' : UeMac × W} (hcopies : CopiesShape cfg env)
    (hs : Shaped cfg st.1.grantInfo) (h : selectionPhase S cfg env sfn st = .ok st') :
    Shaped cfg st'.1.grantInfo := by
  obtain ⟨sensingData, _, h⟩ := bind_ok_iff.mp h
  unfold reselectionPhase at h
  split at h
  next => cases h
  next =>
    rw [← pure_ok_iff.mp h]
    exact hs
  next =>
    split at h
    next =>
      rw [← pure_ok_iff.mp h]
      exact hs
    next =>
      refine foldlM_invariant (P := fun st : UeMac × W => Shaped cfg st.1.grantInfo) ?_ h hs
      intro st itDst st' _ hst hstep
      exact reselectDst_shaped hcopies hst hstep

theorem transmissionPhase_shaped {s s' : UeMac} {sent : List Transmission} (hsound : MacSound s)
    (hs : Shaped cfg s.grantInfo) (h : transmissionPhase cfg env sfn s = .ok (s', sent)) :
    Shaped cfg s'.grantInfo := by
  intro d g' hg' a ha
  obtain ⟨g, hg, hslots⟩ := transmissionPhase_slots hsound h hg'
  exact hs d g hg a (hslots.subset ha)

end Shapes

section SchedulerShapes

variable {W V : Type} {cfg : UeMacConfig} {env : SlotEnv W} {sched : SchedulerConfig}
  {dst : SchedulerDstInfo} {shape : SlotShape} {choice : Choice} {draws rest : Draws}
  {txOpps : List NrSlSlotInfo} {getResourceSelections : V → Except Fault (Text × V)}

theorem sizeOfSelected_symbols {bufferSize : Nat} {selected : List NrSlSlotInfo} {info : SbChInfo}
    (hshape : ∀ it ∈ selected, it.shape = shape)
    (h : sizeOfSelected sched dst bufferSize selected = .ok (info, choice)) :
    choice.availableSymbols = shape.slPsschSymLength := by
  obtain ⟨first, hfirst, h⟩ := bind_ok_iff.mp h
  obtain ⟨_, _, h⟩ := bind_ok_iff.mp h
  obtain ⟨_, rfl⟩ := Prod.mk.inj (pure_ok_iff.mp h)
  show first.shape.slPsschSymLength = _
  rw [hshape first (List.mem_of_head? (orFault_ok_iff.mp hfirst))]

theorem drawResources_symbols {bufferSize totalTx : Nat} (hshape : ∀ it ∈ txOpps, it.shape = shape)
    (h : drawResources sched dst bufferSize txOpps totalTx draws = .ok (choice, rest)) :
    choice.availableSymbols = shape.slPsschSymLength := by
  obtain ⟨⟨selected, _⟩, hselect, h⟩ := bind_ok_iff.mp h
  obtain ⟨⟨_, size⟩, hsize, h⟩ := bind_ok_iff.mp h
  obtain ⟨_, _, h⟩ := bind_ok_iff.mp h
  obtain ⟨rfl, -⟩ := Prod.mk.inj (pure_ok_iff.mp h)
  have hmem := (randomlySelectSlots_ok hselect).1
  show size.availableSymbols = _
  exact sizeOfSelected_symbols (fun it hit => hshape it (hmem it hit)) hsize

theorem overwriteResources_symbols {bufferSize totalTx : Nat} {chosen : List (Nat × Nat)}
    (hchosen : ∀ p ∈ chosen, p.2 < 10) (hshape : ∀ it ∈ txOpps, it.shape = shape)
    (h : overwriteResources sched dst bufferSize txOpps totalTx chosen draws = .ok (choice, rest)) :
    choice.availableSymbols = shape.slPsschSymLength := by
  have hdrawn := (overwriteResources_sound hchosen h).drawn
  obtain ⟨⟨_, _, _⟩, _, h⟩ := bind_ok_iff.mp h
  obtain ⟨pairs, _, h⟩ := bind_ok_iff.mp h
  obtain ⟨⟨_, size⟩, hsize, h⟩ := bind_ok_iff.mp h
  obtain ⟨rfl, -⟩ := Prod.mk.inj (pure_ok_iff.mp h)
  show size.availableSymbols = _
  refine sizeOfSelected_symbols (fun it hit => ?_) hsize
  obtain ⟨p, hp, rfl⟩ := List.mem_map.mp hit
  exact hshape p.1 (hdrawn p hp)

theorem chooseResources_symbols {bufferSize : Nat} {v v' : V}
    (hshape : ∀ it ∈ txOpps, it.shape = shape)
    (h : chooseResources sched getResourceSelections dst bufferSize txOpps draws v =
      .ok (choice, rest, v')) : choice.availableSymbols = shape.slPsschSymLength := by
  unfold chooseResources at h
  split at h
  next =>
    obtain ⟨⟨text, _⟩, _, h⟩ := bind_ok_iff.mp h
    obtain ⟨instruction, hread, h⟩ := bind_ok_iff.mp h
    obtain ⟨⟨_, _⟩, hfollow, h⟩ := bind_ok_iff.mp h
    cases pure_ok_iff.mp h
    cases instruction with
    | overwrite totalTx chosen =>
      exact overwriteResources_symbols (readInstruction_digits hread) hshape hfollow
    | draw nSe => exact drawResources_symbols hshape hfollow
  next =>
    obtain ⟨⟨_, _⟩, hdraw, h⟩ := bind_ok_iff.mp h
    cases pure_ok_iff.mp h
    exact drawResources_symbols hshape hdraw

/-- The scheduler writes the layout of the offered slots into its allocations. -/
theorem doNrSlAllocation_shape {v : V} {r : Scheduled V} {A : SlotAllocSet}
    (hshape : ∀ it ∈ txOpps, it.shape = shape)
    (h : doNrSlAllocation sched getResourceSelections txOpps dst draws v = .ok r)
    (hA : r.slotAllocList = some A) : ∀ a ∈ A.elems, a.shape = shape := by
  obtain ⟨lc, _, ⟨_, rfl⟩ | ⟨_, choice, hsound, hchoose, hset⟩⟩ := doNrSlAllocation_ok h
  · cases hA
  · obtain rfl := Option.some.inj (hA.symm.trans hset)
    intro a ha
    obtain ⟨k, hk⟩ := List.mem_iff_getElem?.mp ha
    obtain ⟨p, hp, rfl⟩ := (hsound.allocated lc).numbered k a hk
    show { p.1.shape with slPsschSymLength := choice.availableSymbols } = shape
    rw [chooseResources_symbols hshape hchoose, hshape p.1 (hsound.drawn p hp)]

/-- The answers of the environment are those of `DoNrSlAllocation`. -/
def AllocatesBy (sched : SchedulerConfig) (getResourceSelections : V → Except Fault (Text × V))
    (env : SlotEnv W) : Prop :=
  ∀ d offered w w' (A : Allocation d offered), env.schedule d offered w = .ok (w', some A) →
    ∃ dst draws v r, doNrSlAllocation sched getResourceSelections offered dst draws v = .ok r ∧
      r.slotAllocList = some A.slots

theorem AllocatesBy.copiesShape (h : AllocatesBy sched getResourceSelections env) :
    CopiesShape cfg env := by
  intro d offered w w' A hoffered hanswer
  obtain ⟨dst, draws, v, r, hr, hset⟩ := h d offered w w' A hanswer
  exact doNrSlAllocation_shape hoffered hr hset

end SchedulerShapes

section Runs

variable {W : Type} (S : RsrpScale) (cfg : UeMacConfig) (symbolsPerSlot : Nat)

/-- The transmissions of a slot with the sizes of the data packets of each; a transmission is made
only when there is data. -/
structure HandedOver (sent : List Transmission) (handed : List (Transmission × List Nat)) :
    Prop where
  sent : handed.map Prod.fst = sent
  data : ∀ h ∈ handed, h.2 ≠ []

def slotCalls (sfn : Nat) (handed : List (Transmission × List Nat)) : List SlPhyCall :=
  handed.flatMap fun h => handOver cfg.pool.shape.slSubchannelSize sfn h.1 h.2

/-- A slot as MAC and channel saw it. -/
structure PlayedSlot where
  slot : Nat
  handed : List (Transmission × List Nat)
  frames : List SlTxFrame
  deriving DecidableEq

/-- Slot indications with the PHY: after each one it plays out what the MAC handed over. -/
inductive TxRun (C : SlotEnv W → UeState W → Prop) (x : UeState W) :
    UeState W → NrSlTxPhy → List PlayedSlot → Prop
  | start : TxRun C x x NrSlTxPhy.reset []
  | next (env : SlotEnv W) (y : UeState W) (phy phy' : NrSlTxPhy) (mid : UeMac)
      (sent : List Transmission) (handed : List (Transmission × List Nat))
      (frames : List SlTxFrame) (log : List PlayedSlot) (z : UeState W)
      (before : TxRun C x y phy log) (meets : C env y) (step : SlotStep S cfg env y mid sent z)
      (calls : HandedOver sent handed)
      (played : NrSlTxPhy.startSlot symbolsPerSlot y.slot (slotCalls cfg y.slot handed) phy =
        .ok (frames, phy')) :
      TxRun C x z phy' (log ++ [⟨y.slot, handed, frames⟩])

variable {S cfg symbolsPerSlot} {C : SlotEnv W → UeState W → Prop} {x y z : UeState W}
  {phy : NrSlTxPhy} {log : List PlayedSlot}

/-- Nothing was handed over and nothing sent, or one transmission left as it was handed over. -/
def PlayedSlot.Exact (cfg : UeMacConfig) (e : PlayedSlot) : Prop :=
  (e.handed = [] ∧ e.frames = []) ∨
    ∃ t pdus, e.handed = [(t, pdus)] ∧ t.alloc.sfn = e.slot ∧ t.alloc.shape = cfg.pool.shape ∧
      e.frames = framesOf cfg.pool.shape.slSubchannelSize t pdus

/-- What holds of the MAC between two slots so that a slot has one transmission of its layout. -/
structure TxReady (cfg : UeMacConfig) (y : UeState W) : Prop where
  sound : MacSound y.mac
  unshared : Unshared cfg y.slot y.mac.grantInfo
  shaped : Shaped cfg y.mac.grantInfo

theorem Initial.txReady (h : Initial cfg x) : TxReady cfg x := by
  refine ⟨h.sound, h.unshared, ?_⟩
  obtain ⟨_, n, _, hmac⟩ := h
  rw [hmac]
  intro d g hg
  cases Table.find?_eq_some_iff.mp hg

theorem SlotStep.txReady {env : SlotEnv W} {mid : UeMac} {sent : List Transmission}
    (hwindow : cfg.t2 + 1 ≤ cfg.t1 + cfg.period) (hcopies : CopiesShape cfg env)
    (hy : TxReady cfg y) (step : SlotStep S cfg env y mid sent z) : TxReady cfg z := by
  have hsound := step.sound hy.sound
  have hunshared := selectionPhase_unshared hwindow hy.unshared step.selected
  have hshaped := selectionPhase_shaped hcopies hy.shaped step.selected
  exact ⟨hsound.2, transmissionPhase_unshared hsound.1 hunshared step.next.later step.transmitted,
    transmissionPhase_shaped hsound.1 hshaped step.transmitted⟩

/-- The next slot plays without a fault, whatever data there is, and leaves nothing behind. -/
theorem SlotStep.plays {env : SlotEnv W} {mid : UeMac} {sent : List Transmission}
    {handed : List (Transmission × List Nat)} (hwindow : cfg.t2 + 1 ≤ cfg.t1 + cfg.period)
    (layout : SymbolLayout symbolsPerSlot cfg.pool.shape) (hcopies : CopiesShape cfg env)
    (hy : TxReady cfg y) (step : SlotStep S cfg env y mid sent z) (calls : HandedOver sent handed) :
    ∃ frames, PlayedSlot.Exact cfg ⟨y.slot, handed, frames⟩ ∧
      NrSlTxPhy.startSlot symbolsPerSlot y.slot (slotCalls cfg y.slot handed) NrSlTxPhy.reset =
        .ok (frames, NrSlTxPhy.reset) := by
  have hsound := (step.sound hy.sound).1
  have hunshared := selectionPhase_unshared hwindow hy.unshared step.selected
  have hshaped := selectionPhase_shaped hcopies hy.shaped step.selected
  rcases transmissionPhase_single hsound hunshared.disjoint step.transmitted with rfl | ⟨t, rfl⟩
  · have hnone : handed = [] := List.map_eq_nil_iff.mp calls.sent
    subst hnone
    exact ⟨[], Or.inl ⟨rfl, rfl⟩, startSlot_nothing⟩
  · obtain ⟨⟨t', pdus⟩, hone, ht⟩ := List.map_eq_singleton_iff.mp calls.sent
    have hte : t' = t := ht
    subst hte hone
    have hdata : pdus ≠ [] := calls.data (t', pdus) (by simp)
    obtain ⟨g, hg, hmem, hnow⟩ := transmissionPhase_sent hsound step.transmitted t' (by simp)
    have hshape := hshaped _ g hg _ hmem
    have hplay : NrSlTxPhy.startSlot symbolsPerSlot y.slot
        (handOver cfg.pool.shape.slSubchannelSize y.slot t' pdus) NrSlTxPhy.reset =
          .ok (framesOf cfg.pool.shape.slSubchannelSize t' pdus, NrSlTxPhy.reset) :=
      startSlot_transmission hdata (hshape ▸ layout)
    refine ⟨_, Or.inr ⟨t', pdus, rfl, hnow, hshape, rfl⟩, ?_⟩
    unfold slotCalls
    rw [List.flatMap_singleton]
    exact hplay

theorem TxRun.ready (hinit : Initial cfg x) (hwindow : cfg.t2 + 1 ≤ cfg.t1 + cfg.period)
    (layout : SymbolLayout symbolsPerSlot cfg.pool.shape)
    (hcopies : ∀ env y, C env y → CopiesShape cfg env)
    (run : TxRun S cfg symbolsPerSlot C x y phy log) :
    phy = NrSlTxPhy.reset ∧ TxReady cfg y ∧ ∀ e ∈ log, e.Exact cfg := by
  induction run with
  | start => exact ⟨rfl, hinit.txReady, by simp⟩
  | next env y phy phy' mid sent handed frames log z _ meets step calls played ih =>
    obtain ⟨rfl, hready, hlog⟩ := ih
    have hcopy := hcopies env y meets
    obtain ⟨frames', hexact, hplay⟩ := step.plays hwindow layout hcopy hready calls
    obtain ⟨rfl, rfl⟩ := Prod.mk.inj (Except.ok.inj (played.symm.trans hplay))
    refine ⟨rfl, step.txReady hwindow hcopy hready, fun e he => ?_⟩
    rcases List.mem_append.mp he with he | he
    · exact hlog e he
    · rw [List.mem_singleton.mp he]
      exact hexact

theorem PlayedSlot.Exact.frames_eq {e : PlayedSlot} (h : e.Exact cfg) :
    e.frames = e.handed.flatMap fun p => framesOf cfg.pool.shape.slSubchannelSize p.1 p.2 := by
  rcases h with ⟨hhanded, hframes⟩ | ⟨t, pdus, hhanded, _, _, hframes⟩
  · rw [hhanded, hframes]
    rfl
  · rw [hhanded, hframes, List.flatMap_singleton]

/-- The times, in symbols, at which the frames of a slot start and end. -/
def PlayedSlot.onAir (symbolsPerSlot : Nat) (e : PlayedSlot) : List (Nat × Nat) :=
  e.frames.map fun f => (e.slot * symbolsPerSlot + f.varTti.symStart,
    e.slot * symbolsPerSlot + f.varTti.symStart + f.varTti.symLength)

/-- The frames of a slot follow one another within the slot. -/
theorem PlayedSlot.Exact.inTime {e : PlayedSlot} (h : e.Exact cfg)
    (layout : SymbolLayout symbolsPerSlot cfg.pool.shape) :
    (e.onAir symbolsPerSlot).Pairwise (fun f f' => f.2 ≤ f'.1) ∧
      ∀ f ∈ e.onAir symbolsPerSlot, e.slot * symbolsPerSlot ≤ f.1 ∧
        f.2 ≤ (e.slot + 1) * symbolsPerSlot := by
  have hctrl := layout.ctrlEnds
  have hdata := layout.dataEnds
  have hslot : (e.slot + 1) * symbolsPerSlot = e.slot * symbolsPerSlot + symbolsPerSlot :=
    Nat.succ_mul _ _
  rcases h with ⟨_, hframes⟩ | ⟨t, pdus, _, _, hshape, hframes⟩
  · unfold PlayedSlot.onAir
    rw [hframes]
    exact ⟨.nil, by simp⟩
  · rw [← hshape] at hctrl hdata
    unfold PlayedSlot.onAir
    rw [hframes]
    unfold framesOf
    cases t.sciF1a with
    | none =>
      refine ⟨List.pairwise_singleton _ _, fun f hf => ?_⟩
      obtain rfl := List.mem_singleton.mp hf
      simp only [dataVarTti]
      omega
    | some sci =>
      constructor
      · apply List.pairwise_pair.mpr
        simp only [dataVarTti, ctrlVarTti]
        omega
      · intro f hf
        rcases List.mem_pair.mp hf with rfl | rfl
        · simp only [ctrlVarTti]
          omega
        · simp only [dataVarTti]
          omega

/-- The frames of a run follow one another: the antenna never sends two at once. -/
theorem TxRun.inTime (hinit : Initial cfg x) (hwindow : cfg.t2 + 1 ≤ cfg.t1 + cfg.period)
    (layout : SymbolLayout symbolsPerSlot cfg.pool.shape)
    (hcopies : ∀ env y, C env y → CopiesShape cfg env)
    (run : TxRun S cfg symbolsPerSlot C x y phy log) :
    (log.flatMap (·.onAir symbolsPerSlot)).Pairwise (fun f f' => f.2 ≤ f'.1) ∧
      ∀ f ∈ log.flatMap (·.onAir symbolsPerSlot), f.2 ≤ y.slot * symbolsPerSlot := by
  have hexact := (run.ready hinit hwindow layout hcopies).2.2
  induction run with
  | start => exact ⟨.nil, by simp⟩
  | next env y phy phy' mid sent handed frames log z before meets step calls played ih =>
    obtain ⟨hpast, hends⟩ := ih fun e he => hexact e (List.mem_append_left _ he)
    obtain ⟨hown, hwithin⟩ := (hexact _ (List.mem_append_right _ List.mem_cons_self)).inTime layout
    have hnext : (y.slot + 1) * symbolsPerSlot ≤ z.slot * symbolsPerSlot :=
      Nat.mul_le_mul_right _ step.next.later
    rw [List.flatMap_append, List.flatMap_singleton]
    constructor
    · apply List.pairwise_append.mpr
      refine ⟨hpast, hown, fun f hf f' hf' => ?_⟩
      exact (hends f hf).trans (hwithin f' hf').1
    · intro f hf
      rcases List.mem_append.mp hf with hf | hf
      · have hearlier := hends f hf
        rw [Nat.succ_mul] at hnext
        omega
      · exact (hwithin f hf).2.trans hnext

/-- Every run of the MAC plays: the channel sees its transmissions in their order. -/
theorem Run.plays {sentLog : List Transmission} (data : Transmission → List Nat)
    (hinit : Initial cfg x) (hwindow : cfg.t2 + 1 ≤ cfg.t1 + cfg.period)
    (layout : SymbolLayout symbolsPerSlot cfg.pool.shape)
    (hcopies : ∀ env y, C env y → CopiesShape cfg env) (hdata : ∀ t, data t ≠ [])
    (run : Run S cfg C x sentLog y) :
    ∃ log, TxRun S cfg symbolsPerSlot C x y NrSlTxPhy.reset log ∧
      log.flatMap (·.frames) =
        sentLog.flatMap fun t => framesOf cfg.pool.shape.slSubchannelSize t (data t) := by
  induction run with
  | start => exact ⟨[], .start, rfl⟩
  | next env y mid sent sentLog z _ meets step ih =>
    obtain ⟨log, hrun, hframes⟩ := ih
    have hready := (hrun.ready hinit hwindow layout hcopies).2.1
    have calls : HandedOver sent (sent.map fun t => (t, data t)) := by
      refine ⟨by simp [Function.comp_def], fun h hh => ?_⟩
      obtain ⟨t, _, rfl⟩ := List.mem_map.mp hh
      exact hdata t
    obtain ⟨frames, hexact, hplay⟩ := step.plays hwindow layout (hcopies env y meets) hready calls
    refine ⟨_, .next env y _ _ mid sent _ frames log z hrun meets step calls hplay, ?_⟩
    rw [List.flatMap_append, hframes, List.flatMap_singleton, List.flatMap_append,
      hexact.frames_eq, List.flatMap_map]

end Runs

section LayoutExample

/-- Two destinations in a pool whose slots have three symbols of control and ten of data. -/
def layoutConfig : UeMacConfig :=
  { pairConfig with pool := { experimentPool with shape := slotShapeOf 10 0 14 3 10 1 } }

theorem layoutConfig_layout : SymbolLayout 14 layoutConfig.pool.shape :=
  (slotShapeOf_layout_iff (by decide) (by decide)).mpr (by decide)

theorem quietEnv_copiesShape (cfg : UeMacConfig) (rlc : Bool) : CopiesShape cfg (quietEnv rlc) := by
  intro d offered w w' A hoffered h a ha
  match offered, A, h with
  | c :: rest, A, h =>
    obtain rfl := Option.some.inj (Prod.mk.inj (Except.ok.inj h)).2
    obtain rfl := List.mem_singleton.mp ha
    exact hoffered c List.mem_cons_self

/-- The MAC of the example and its transmissions after `k` slots. -/
def layoutRun (S : RsrpScale) : Nat → Except Fault ((UeMac × Unit) × List Transmission)
  | 0 => .ok ((initUeMac 4, ()), [])
  | k + 1 => do
    let r ← layoutRun S k
    let next ← doNrSlSlotIndication S layoutConfig (quietEnv true) k r.1
    pure (next.1, r.2 ++ next.2)

theorem layoutPool_isSidelinkSlot (m : Nat) : layoutConfig.pool.isSidelinkSlot m = true := by
  have hall : ∀ i < 20, (List.replicate 20 true).getD i false = true := by decide
  exact hall (m % 20) (Nat.mod_lt m (by decide))

theorem layout_initial : Initial layoutConfig (⟨0, initUeMac 4, ()⟩ : UeState Unit) :=
  ⟨layoutPool_isSidelinkSlot 0, 4, by decide, rfl⟩

theorem layoutRun_run {k : Nat} {r : (UeMac × Unit) × List Transmission}
    (h : layoutRun realScale k = .ok r) :
    Run realScale layoutConfig (fun env _ => CopiesShape layoutConfig env)
      (⟨0, initUeMac 4, ()⟩ : UeState Unit) r.2 ⟨k, r.1.1, r.1.2⟩ := by
  induction k generalizing r with
  | zero =>
    obtain rfl := Except.ok.inj h
    exact .start
  | succ k ih =>
    obtain ⟨r₁, h₁, h⟩ := bind_ok_iff.mp h
    obtain ⟨next, hnext, h⟩ := bind_ok_iff.mp h
    obtain rfl := pure_ok_iff.mp h
    have hslot : NextSlot layoutConfig.pool k (k + 1) :=
      ⟨by omega, layoutPool_isSidelinkSlot _, fun m hlow hhigh => by omega⟩
    obtain ⟨mid, step⟩ := (slotStep_iff (x := ⟨k, r₁.1.1, r₁.1.2⟩)
      (y := ⟨k + 1, next.1.1, next.1.2⟩) hslot).mp hnext
    exact .next (quietEnv true) _ mid next.2 r₁.2 _ (ih h₁) (quietEnv_copiesShape _ _) step

theorem layoutRun_four : ∃ r, layoutRun realScale 4 = .ok r ∧
    r.2.map (fun t => (t.dstL2Id, t.alloc.sfn)) = [(255, 2), (254, 3)] := by
  have hview : (layoutRun realScale 4).toOption.map
      (fun r => r.2.map fun t => (t.dstL2Id, t.alloc.sfn)) = some [(255, 2), (254, 3)] := by
    decide +kernel
  cases hr : layoutRun realScale 4 with
  | error e =>
    rw [hr] at hview
    cases hview
  | ok r =>
    rw [hr] at hview
    exact ⟨r, rfl, Option.some.inj hview⟩

end LayoutExample

end SidelinkORe
