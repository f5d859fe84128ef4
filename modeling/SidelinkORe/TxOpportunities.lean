import SidelinkORe.ThresholdLoop

namespace SidelinkORe

/-- The fields that `passSensingData` sends and the packets that go with it as text. -/
structure SensingMessage where
  imsi : Nat
  time : Nat
  rsrpThreshold : Int
  occupiedResources : Int
  packets : List Packet
  deriving DecidableEq

/-- The message that is passed after the exclusion loop. -/
def sensingMessage (imsi now : Nat) (r : LoopResult) : SensingMessage :=
  ⟨imsi, now, r.rsrpThreshold, r.eliminatedResources, r.reported⟩

/-- The input of the exclusion loop for the non-empty list of sidelink slots of the window and the
trimmed sensing buffer. -/
def sensingInput (cfg : SelectionConfig) (sfn : Nat) (allTxOpps : List SlotInfo)
    (hopps : allTxOpps ≠ []) (sensedData : List SensingData) : ExclusionInput where
  pPrimeRsvpTx := cfg.pool.resvPeriodInSlots cfg.pRsvpTx
  allSensingData := sensedData.map (getFutSlotsBasedOnSens cfg)
  candidates := getNrSupportedList sfn allTxOpps
  candidates_ne_nil := by simpa [getNrSupportedList] using hopps
  free := by
    intro c hc
    obtain ⟨it, _, rfl⟩ := List.mem_map.mp hc
    rfl
  totalSubCh := cfg.totalSubCh
  resPercentage := cfg.resPercentage

/-- The resource pool of the experiments: every slot is a sidelink slot. -/
def experimentPool : NrSlCommResourcePool where
  phyPool := List.replicate 20 true
  phyPool_ne_nil := by decide
  shape := { slMaxNumPerReserve := 1 }
  slSelectionWindow := 5
  numerology := 0
  resvPeriodInSlots := fun ms => ms
  sensWindInSlots := 100

def experimentConfig (imsi : Nat) : SelectionConfig where
  pool := experimentPool
  t1 := 2
  t2 := 33
  totalSubCh := 4
  pRsvpTx := 100
  tproc0 := 1
  enableSensing := true
  slThresPsschRsrp := -110
  resPercentage := 20
  oReExp := true
  imsi := imsi

section TxOpportunities

variable (S : RsrpScale) (cfg : SelectionConfig)

/-- The candidate slots for a re-selection and the message to O-Re; three exits send none. -/
def getNrSlTxOpportunities (now : Nat) (sensingData : List SensingData) (sfn : Nat) :
    Except Fault (List NrSlSlotInfo × Option SensingMessage) := do
  let allTxOpps ← cfg.pool.getNrSlCommOpportunities sfn cfg.t1 cfg.t2
  if hopps : allTxOpps = [] then pure (getNrSupportedList sfn allTxOpps, none)
  else if cfg.enableSensing = true then
    if sensingData = [] then pure (getNrSupportedList sfn allTxOpps, none)
    else do
      let sensedData ← trimTproc0 cfg sfn sensingData
      let r := excludeResources S (sensingInput cfg sfn allTxOpps hopps sensedData)
        cfg.slThresPsschRsrp
      pure (r.nrCandSsResoA,
        if cfg.oReExp = true then some (sensingMessage cfg.imsi now r) else none)
  else pure (getNrSupportedList sfn allTxOpps, none)

variable {S cfg} {now sfn : Nat} {sensingData : List SensingData} {cands : List NrSlSlotInfo}
  {message : Option SensingMessage}

theorem candidatesAt_sfn (input : ExclusionInput) (t : Int) :
    (candidatesAt S input t).map (·.sfn) = input.candidates.map (·.sfn) := by
  unfold candidatesAt occupiedCandidates
  rw [List.map_map]
  rfl

theorem candidatesAt_shape (input : ExclusionInput) (t : Int) :
    (candidatesAt S input t).map (·.shape) = input.candidates.map (·.shape) := by
  unfold candidatesAt occupiedCandidates
  rw [List.map_map]
  rfl

theorem excludeResources_cands (input : ExclusionInput) (t : Int) :
    (excludeResources S input t).nrCandSsResoA = [] ∨
      ∃ u, (excludeResources S input t).nrCandSsResoA = candidatesAt S input u := by
  obtain ⟨n, _, hend⟩ := excludeResources_stops S input t
  rw [hend.cands]
  split
  · exact Or.inl rfl
  · exact Or.inr ⟨_, rfl⟩

theorem getNrSlTxOpportunities_offers
    (h : getNrSlTxOpportunities S cfg now sensingData sfn = .ok (cands, message)) :
    ∃ opps, cfg.pool.getNrSlCommOpportunities sfn cfg.t1 cfg.t2 = .ok opps ∧
      (cands = [] ∨
        cands.map (·.sfn) = (getNrSupportedList sfn opps).map (·.sfn) ∧
        cands.map (·.shape) = (getNrSupportedList sfn opps).map (·.shape)) := by
  obtain ⟨opps, hopps, h⟩ := bind_ok_iff.mp h
  refine ⟨opps, hopps, ?_⟩
  split at h
  next =>
    obtain ⟨rfl, rfl⟩ := Prod.mk.inj (pure_ok_iff.mp h)
    exact Or.inr ⟨rfl, rfl⟩
  next hne =>
    split at h
    next =>
      split at h
      next =>
        obtain ⟨rfl, rfl⟩ := Prod.mk.inj (pure_ok_iff.mp h)
        exact Or.inr ⟨rfl, rfl⟩
      next =>
        obtain ⟨sensed, _, h⟩ := bind_ok_iff.mp h
        obtain ⟨rfl, _⟩ := Prod.mk.inj (pure_ok_iff.mp h)
        refine (excludeResources_cands _ _).imp_right ?_
        rintro ⟨u, hu⟩
        rw [hu]
        exact ⟨candidatesAt_sfn _ u, candidatesAt_shape _ u⟩
    next =>
      obtain ⟨rfl, rfl⟩ := Prod.mk.inj (pure_ok_iff.mp h)
      exact Or.inr ⟨rfl, rfl⟩

/-- Offered slots rise, lie in the selection window and are sidelink slots of the pool's layout. -/
theorem getNrSlTxOpportunities_window
    (h : getNrSlTxOpportunities S cfg now sensingData sfn = .ok (cands, message)) :
    (cands.map (·.sfn)).Pairwise (· < ·) ∧ ∀ c ∈ cands,
      sfn + cfg.t1 ≤ c.sfn ∧ c.sfn ≤ sfn + cfg.t2 ∧ cfg.pool.isSidelinkSlot c.sfn = true := by
  obtain ⟨opps, hopps, rfl | ⟨hsfn, _⟩⟩ := getNrSlTxOpportunities_offers h
  · exact ⟨.nil, by simp⟩
  · refine ⟨hsfn ▸ NrSlCommResourcePool.getNrSupportedList_sorted hopps, fun c hc => ?_⟩
    have hmem := List.mem_map_of_mem (f := (·.sfn)) hc
    rw [hsfn] at hmem
    obtain ⟨c', hc', he⟩ := List.mem_map.mp hmem
    obtain ⟨hlow, hhigh, hsl, _, _⟩ := NrSlCommResourcePool.mem_getNrSupportedList hopps hc'
    rw [← he]
    exact ⟨hlow, hhigh, hsl⟩

theorem getNrSlTxOpportunities_shape
    (h : getNrSlTxOpportunities S cfg now sensingData sfn = .ok (cands, message)) :
    ∀ c ∈ cands, c.shape = cfg.pool.shape := by
  obtain ⟨opps, hopps, rfl | ⟨_, hshape⟩⟩ := getNrSlTxOpportunities_offers h
  · simp
  · intro c hc
    have hmem := List.mem_map_of_mem (f := (·.shape)) hc
    rw [hshape] at hmem
    obtain ⟨c', hc', he⟩ := List.mem_map.mp hmem
    rw [← he]
    exact (NrSlCommResourcePool.mem_getNrSupportedList hopps hc').2.2.2.1

/-- A message is sent only with sensing enabled and a buffer that is not empty, and it comes from the
exclusion loop. -/
theorem getNrSlTxOpportunities_sends {m : SensingMessage}
    (h : getNrSlTxOpportunities S cfg now sensingData sfn = .ok (cands, some m)) :
    cfg.enableSensing = true ∧ sensingData ≠ [] ∧ cfg.oReExp = true ∧
      ∃ allTxOpps sensedData, ∃ hopps : allTxOpps ≠ [],
        cfg.pool.getNrSlCommOpportunities sfn cfg.t1 cfg.t2 = .ok allTxOpps ∧
        trimTproc0 cfg sfn sensingData = .ok sensedData ∧
        m = sensingMessage cfg.imsi now (excludeResources S
          (sensingInput cfg sfn allTxOpps hopps sensedData) cfg.slThresPsschRsrp) := by
  obtain ⟨opps, hopps, h⟩ := bind_ok_iff.mp h
  split at h
  next => cases (Prod.mk.inj (pure_ok_iff.mp h)).2
  next hsome =>
    split at h
    next hsensing =>
      split at h
      next => cases (Prod.mk.inj (pure_ok_iff.mp h)).2
      next hne =>
        obtain ⟨sensed, hsensed, h⟩ := bind_ok_iff.mp h
        have hmessage := (Prod.mk.inj (pure_ok_iff.mp h)).2
        split at hmessage
        next hore =>
          exact ⟨hsensing, hne, hore, opps, sensed, hsome, hopps, hsensed,
            (Option.some.inj hmessage).symm⟩
        next => cases hmessage
    next => cases (Prod.mk.inj (pure_ok_iff.mp h)).2

theorem getNrSlTxOpportunities_message {m : SensingMessage}
    (h : getNrSlTxOpportunities S cfg now sensingData sfn = .ok (cands, some m)) :
    cfg.enableSensing = true ∧ sensingData ≠ [] ∧ cfg.oReExp = true ∧ m.imsi = cfg.imsi := by
  obtain ⟨hsensing, hne, hore, _, _, _, _, _, rfl⟩ := getNrSlTxOpportunities_sends h
  exact ⟨hsensing, hne, hore, rfl⟩

end TxOpportunities

end SidelinkORe
