import SidelinkORe.Grant
import SidelinkORe.Harq

namespace SidelinkORe

/-- A slot allocation set that a scheduler may answer with: it is not empty, it belongs to the
destination it was asked for and its slots are offered ones. -/
structure Allocation (dstL2Id : Nat) (offered : List NrSlSlotInfo) where
  slots : SlotAllocSet
  nonempty : slots.elems ≠ []
  dest : ∀ a ∈ slots.elems, a.dstL2Id = dstL2Id
  drawn : ∀ a ∈ slots.elems, a.sfn ∈ offered.map (·.sfn)

/-- What one slot indication meets outside of the MAC: sensed messages, random draws, the O-Re
environment, the scheduler, the RLC and the order in which the grant table is traversed. -/
structure SlotEnv (W : Type) where
  received : List SensingData
  now : Nat
  randProb : Nat → Nat
  reselDraw : Nat → Nat
  passSensingData : SensingMessage → W → Except Fault W
  schedule : (dstL2Id : Nat) → (offered : List NrSlSlotInfo) → W →
    Except Fault (W × Option (Allocation dstL2Id offered))
  rlc : Nat → Nat → Bool
  order : (T : GrantTable) → {l : List (Nat × NrSlGrantInfo) // l.Perm T.entries}

/-- The table in the order in which it is stored. -/
def storedOrder (T : GrantTable) : {l : List (Nat × NrSlGrantInfo) // l.Perm T.entries} :=
  ⟨T.entries, List.Perm.refl _⟩

structure UeMac where
  sensingData : List SensingData
  grantInfo : GrantTable
  harq : NrSlUeMacHarq

def initUeMac (numSidelinkProcess : Nat) : UeMac where
  sensingData := []
  grantInfo := Table.empty
  harq := NrSlUeMacHarq.initHarqBuffer numSidelinkProcess

section Reselection

variable {W : Type} (S : RsrpScale) (cfg : UeMacConfig) (env : SlotEnv W) (sfn : Nat)

/-- Whether the draw of this slot keeps the resources of a grant whose counter has run out. -/
def keepsResource (dstL2Id : Nat) (g : NrSlGrantInfo) : Bool :=
  decide (g.slotAllocations.elems ≠ [] ∧
    (getInteger 0 1 (env.randProb dstL2Id) : ℚ) < cfg.slProbResourceKeep)

def deliver (message : Option SensingMessage) (w : W) : Except Fault W :=
  match message with
  | none => pure w
  | some m => env.passSensingData m w

def grantFresh (dstL2Id reselCounter : Nat) (st : UeMac × W) (filteredReso : List NrSlSlotInfo) :
    Except Fault (UeMac × W) :=
  if filteredReso = [] then pure st
  else do
    let (w, slotAllocList) ← env.schedule dstL2Id filteredReso st.2
    match slotAllocList with
    | none => pure (st.1, w)
    | some A => do
      let grantInfo ← doSchedUeNrSlConfigInd cfg reselCounter (reselCounter * 10 % 65536)
        st.1.grantInfo A.slots
      pure ({ st.1 with grantInfo := grantInfo }, w)

/-- The request for new resources of one destination. -/
def requestResources (dstL2Id : Nat) (st : UeMac × W) : Except Fault (UeMac × W) := do
  let reselCounter ← getRndmReselectionCounter cfg (env.reselDraw dstL2Id)
  let (availbleReso, message) ← getNrSlTxOpportunities S cfg.toSelectionConfig env.now
    st.1.sensingData sfn
  let w ← deliver env message st.2
  grantFresh cfg env dstL2Id reselCounter (st.1, w)
    (filterTxOpportunities st.1.grantInfo availbleReso)

/-- The body of the re-selection loop for one destination. -/
def reselectDst (dstL2Id : Nat) (st : UeMac × W) : Except Fault (UeMac × W) :=
  match st.1.grantInfo.find? dstL2Id with
  | none => requestResources S cfg env sfn dstL2Id st
  | some g =>
    if 0 ≤ g.slResoReselCounter then pure st
    else if keepsResource cfg env dstL2Id g = true then do
      require (cfg.assertsEnabled = true → 0 ≤ g.slResoReselCounter) Fault.keepCounterNegative
      let grantInfo := st.1.grantInfo.put dstL2Id
        { g with slResoReselCounter := g.prevSlResoReselCounter }
      pure ({ st.1 with grantInfo := grantInfo }, st.2)
    else
      let grantInfo := st.1.grantInfo.put dstL2Id { g with slotAllocations := KeyedSet.empty }
      requestResources S cfg env sfn dstL2Id ({ st.1 with grantInfo := grantInfo }, st.2)

def reselectionPhase (st : UeMac × W) : Except Fault (UeMac × W) :=
  match cfg.schedulingType with
  | .unknown => .error Fault.unknownSchedulingType
  | .scheduled => pure st
  | .ueSelected =>
    if st.1.harq.getNumAvailableHarqIds = 0 then pure st
    else cfg.sidelinkTxDestinations.foldlM
      (fun st itDst => reselectDst S cfg env sfn itDst.1 st) st

/-- A grant made at slot `sfn` from an answer of the scheduler. -/
structure FreshGrant (dstL2Id : Nat) (offered : List NrSlSlotInfo) (g : NrSlGrantInfo) where
  reselCounter : Nat
  counter_pos : 5 ≤ reselCounter
  counter_le : reselCounter ≤ 75
  answer : Allocation dstL2Id offered
  answered : ∃ w w', env.schedule dstL2Id offered w = .ok (w', some answer)
  created : createGrantInfo cfg reselCounter (reselCounter * 10) answer.slots = .ok g
  window : ∀ c ∈ offered, sfn + cfg.t1 ≤ c.sfn ∧ c.sfn ≤ sfn + cfg.t2 ∧
    cfg.pool.isSidelinkSlot c.sfn = true

/-- What the re-selection can do to the entry of one destination. -/
inductive Reselected (dstL2Id : Nat) : Option NrSlGrantInfo → Option NrSlGrantInfo → Prop
  | untouched (old : Option NrSlGrantInfo) : Reselected dstL2Id old old
  | kept (g : NrSlGrantInfo) (neg : g.slResoReselCounter < 0)
      (keep : keepsResource cfg env dstL2Id g = true) :
      Reselected dstL2Id (some g) (some { g with slResoReselCounter := g.prevSlResoReselCounter })
  | cleared (g : NrSlGrantInfo) (neg : g.slResoReselCounter < 0) :
      Reselected dstL2Id (some g) (some { g with slotAllocations := KeyedSet.empty })
  | fresh (old : Option NrSlGrantInfo) (neg : ∀ g ∈ old, g.slResoReselCounter < 0)
      (offered : List NrSlSlotInfo) (g : NrSlGrantInfo) (made : FreshGrant cfg env sfn dstL2Id offered g) :
      Reselected dstL2Id old (some g)

section Outcome

variable {S cfg env sfn} {dst : Nat} {st st' : UeMac × W}

theorem doSchedUeNrSlConfigInd_ok {reselCounter cResel : Nat} {T T' : GrantTable} {A : SlotAllocSet}
    (h : doSchedUeNrSlConfigInd cfg reselCounter cResel T A = .ok T') :
    ∃ first g, A.elems.head? = some first ∧ createGrantInfo cfg reselCounter cResel A = .ok g ∧
      T' = T.put first.dstL2Id g := by
  obtain ⟨first, hfirst, h⟩ := bind_ok_iff.mp h
  obtain ⟨_, _, h⟩ := bind_ok_iff.mp h
  obtain ⟨g, hg, h⟩ := bind_ok_iff.mp h
  obtain ⟨_, _, h⟩ := bind_ok_iff.mp h
  exact ⟨first, g, orFault_ok_iff.mp hfirst, hg, (pure_ok_iff.mp h).symm⟩

/-- The outcome of a request: the table as it was, or a fresh grant for the destination. -/
def Requested (cfg : UeMacConfig) (env : SlotEnv W) (sfn dst : Nat) (s s' : UeMac) : Prop :=
  s'.sensingData = s.sensingData ∧ s'.harq = s.harq ∧
    (s'.grantInfo = s.grantInfo ∨ ∃ offered g, Nonempty (FreshGrant cfg env sfn dst offered g) ∧
      s'.grantInfo = s.grantInfo.put dst g)

/-- A request that the scheduler answers makes one grant, for the slots that were offered. -/
theorem grantFresh_made {R : Nat} {offered : List NrSlSlotInfo} (hlow : 5 ≤ R) (hhigh : R ≤ 75)
    (hwindow : ∀ c ∈ offered, sfn + cfg.t1 ≤ c.sfn ∧ c.sfn ≤ sfn + cfg.t2 ∧
      cfg.pool.isSidelinkSlot c.sfn = true)
    (h : grantFresh cfg env dst R st offered = .ok st') :
    st'.1 = st.1 ∨ ∃ g, Nonempty (FreshGrant cfg env sfn dst offered g) ∧
      st'.1 = { st.1 with grantInfo := st.1.grantInfo.put dst g } := by
  unfold grantFresh at h
  split at h
  next =>
    rw [← pure_ok_iff.mp h]
    exact Or.inl rfl
  next =>
    obtain ⟨⟨w, answer⟩, hanswer, h⟩ := bind_ok_iff.mp h
    cases answer with
    | none =>
      rw [← pure_ok_iff.mp h]
      exact Or.inl rfl
    | some A =>
      obtain ⟨T, hT, h⟩ := bind_ok_iff.mp h
      rw [← pure_ok_iff.mp h]
      obtain ⟨first, g, hfirst, hg, hput⟩ := doSchedUeNrSlConfigInd_ok hT
      have hdst := A.dest first (List.mem_of_head? hfirst)
      have hresel : R * 10 % 65536 = R * 10 := by omega
      rw [hresel] at hg
      have made : FreshGrant cfg env sfn dst offered g := ⟨R, hlow, hhigh, A, ⟨_, _, hanswer⟩, hg, hwindow⟩
      refine Or.inr ⟨g, ⟨made⟩, ?_⟩
      rw [hput, hdst]

theorem requestResources_made (h : requestResources S cfg env sfn dst st = .ok st') :
    st'.1 = st.1 ∨ ∃ availbleReso g,
      Nonempty (FreshGrant cfg env sfn dst (filterTxOpportunities st.1.grantInfo availbleReso) g) ∧
      st'.1 = { st.1 with grantInfo := st.1.grantInfo.put dst g } := by
  obtain ⟨R, hR, h⟩ := bind_ok_iff.mp h
  obtain ⟨⟨cands, message⟩, hcands, h⟩ := bind_ok_iff.mp h
  obtain ⟨w, _, h⟩ := bind_ok_iff.mp h
  obtain ⟨hlow, hhigh⟩ := getRndmReselectionCounter_ok hR
  have hwindow := (getNrSlTxOpportunities_window hcands).2
  rcases grantFresh_made hlow hhigh (fun c hc => hwindow c (mem_filterTxOpportunities.mp hc).1) h with
    hsame | ⟨g, made, hput⟩
  · exact Or.inl hsame
  · exact Or.inr ⟨cands, g, made, hput⟩

theorem requestResources_ok (h : requestResources S cfg env sfn dst st = .ok st') :
    Requested cfg env sfn dst st.1 st'.1 := by
  rcases requestResources_made h with hsame | ⟨availbleReso, g, made, hput⟩
  · rw [hsame]
    exact ⟨rfl, rfl, Or.inl rfl⟩
  · rw [hput]
    exact ⟨rfl, rfl, Or.inr ⟨_, g, made, rfl⟩⟩

theorem reselectDst_ok (h : reselectDst S cfg env sfn dst st = .ok st') :
    st'.1.sensingData = st.1.sensingData ∧ st'.1.harq = st.1.harq ∧
      (∀ d, d ≠ dst → st'.1.grantInfo.find? d = st.1.grantInfo.find? d) ∧
      Reselected cfg env sfn dst (st.1.grantInfo.find? dst) (st'.1.grantInfo.find? dst) := by
  unfold reselectDst at h
  split at h
  next hnone =>
    obtain ⟨hsensing, hharq, htable⟩ := requestResources_ok h
    refine ⟨hsensing, hharq, ?_⟩
    rcases htable with hsame | ⟨offered, g, ⟨made⟩, hput⟩
    · rw [hsame]
      exact ⟨fun _ _ => rfl, .untouched _⟩
    · rw [hput, Table.find?_put_self]
      exact ⟨fun d hd => Table.find?_put_ne _ _ hd, .fresh _ (by simp [hnone]) offered g made⟩
  next g hg =>
    split at h
    next =>
      rw [← pure_ok_iff.mp h]
      exact ⟨rfl, rfl, fun _ _ => rfl, .untouched _⟩
    next hneg =>
      split at h
      next hkeep =>
        obtain ⟨_, _, h⟩ := bind_ok_iff.mp h
        rw [← pure_ok_iff.mp h, hg]
        refine ⟨rfl, rfl, fun d hd => Table.find?_put_ne _ _ hd, ?_⟩
        rw [Table.find?_put_self]
        exact .kept g (by omega) hkeep
      next =>
        obtain ⟨hsensing, hharq, htable⟩ := requestResources_ok h
        refine ⟨hsensing, hharq, ?_⟩
        rw [hg]
        rcases htable with hsame | ⟨offered, g', ⟨made⟩, hput⟩
        · rw [hsame, Table.find?_put_self]
          exact ⟨fun d hd => Table.find?_put_ne _ _ hd, .cleared g (by omega)⟩
        · rw [hput, Table.find?_put_self]
          refine ⟨fun d hd => ?_, .fresh _ ?_ offered g' made⟩
          · rw [Table.find?_put_ne _ _ hd]
            exact Table.find?_put_ne _ _ hd
          · intro old hold
            obtain rfl := Option.some.inj hold
            omega

/-- The entry of one destination after the loop over some of the destinations. -/
theorem reselectLoop_ok {l : List (Nat × Nat)} (hnodup : (l.map Prod.fst).Nodup)
    (h : l.foldlM (fun st itDst => reselectDst S cfg env sfn itDst.1 st) st = .ok st') :
    st'.1.sensingData = st.1.sensingData ∧ st'.1.harq = st.1.harq ∧ ∀ d,
      (d ∉ l.map Prod.fst → st'.1.grantInfo.find? d = st.1.grantInfo.find? d) ∧
      (d ∈ l.map Prod.fst →
        Reselected cfg env sfn d (st.1.grantInfo.find? d) (st'.1.grantInfo.find? d)) := by
  induction l generalizing st with
  | nil =>
    rw [← pure_ok_iff.mp h]
    exact ⟨rfl, rfl, fun d => ⟨fun _ => rfl, fun hd => by simp at hd⟩⟩
  | cons itDst l ih =>
    obtain ⟨st₁, h₁, hl⟩ := foldlM_cons_ok_iff.mp h
    obtain ⟨hhead, htail⟩ := List.nodup_cons.mp hnodup
    obtain ⟨hs₁, hh₁, hothers, hown⟩ := reselectDst_ok h₁
    obtain ⟨hs, hh, hrest⟩ := ih htail hl
    refine ⟨hs.trans hs₁, hh.trans hh₁, fun d => ?_⟩
    rw [List.map_cons, List.mem_cons]
    by_cases hd : d = itDst.1
    · subst hd
      refine ⟨fun hnot => absurd (Or.inl rfl) hnot, fun _ => ?_⟩
      rw [(hrest itDst.1).1 hhead]
      exact hown
    · rw [← hothers d hd]
      refine ⟨fun hnot => (hrest d).1 fun hin => hnot (Or.inr hin), fun hin => ?_⟩
      exact (hrest d).2 (hin.resolve_left hd)

/-- The re-selection keeps the HARQ processes; it changes the entry of a destination that it asks
for, and only while a HARQ id is available. -/
theorem reselectionPhase_ok (h : reselectionPhase S cfg env sfn st = .ok st') :
    st'.1.sensingData = st.1.sensingData ∧ st'.1.harq = st.1.harq ∧
      ∀ d, st'.1.grantInfo.find? d = st.1.grantInfo.find? d ∨
        (st.1.harq.getNumAvailableHarqIds ≠ 0 ∧ d ∈ cfg.sidelinkTxDestinations.map Prod.fst ∧
          Reselected cfg env sfn d (st.1.grantInfo.find? d) (st'.1.grantInfo.find? d)) := by
  unfold reselectionPhase at h
  split at h
  next => cases h
  next =>
    rw [← pure_ok_iff.mp h]
    exact ⟨rfl, rfl, fun _ => Or.inl rfl⟩
  next =>
    split at h
    next =>
      rw [← pure_ok_iff.mp h]
      exact ⟨rfl, rfl, fun _ => Or.inl rfl⟩
    next havail =>
      obtain ⟨hs, hh, hd⟩ := reselectLoop_ok cfg.destinations_nodup h
      refine ⟨hs, hh, fun d => ?_⟩
      by_cases hin : d ∈ cfg.sidelinkTxDestinations.map Prod.fst
      · exact Or.inr ⟨havail, hin, (hd d).2 hin⟩
      · exact Or.inl ((hd d).1 hin)

end Outcome

end Reselection

end SidelinkORe
