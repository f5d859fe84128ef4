import SidelinkORe.ExclusionContract
import SidelinkORe.PythonLoop
import SidelinkORe.ReportContract

namespace SidelinkORe

/-- A table `NExGammaX2NSe`: a row for each number of exclusions and a column for each threshold. -/
structure EstimatorTable where
  rows : List (List ℚ)
  height : rows.length = 104
  width : ∀ row ∈ rows, row.length = 37

/-- `NExGammaX2NSe1` to `NExGammaX2NSe4`. -/
structure EstimatorTables where
  nSe1 : EstimatorTable
  nSe2 : EstimatorTable
  nSe3 : EstimatorTable
  nSe4 : EstimatorTable

/-- `int(lastRsrpThreshold / 3)`. -/
def thresholdStep (rsrpThreshold : Int) : Int := rsrpThreshold.tdiv 3

def EstimatorTable.entry (table : EstimatorTable) (record : SensingRecord) : Except Fault ℚ := do
  let row ← pyGet table.rows record.numExclusions
  pyGet row (thresholdStep record.rsrpThreshold)

def EstimatorTables.forNSe (tables : EstimatorTables) : Nat → Option EstimatorTable
  | 1 => some tables.nSe1
  | 2 => some tables.nSe2
  | 3 => some tables.nSe3
  | 4 => some tables.nSe4
  | _ => none

theorem EstimatorTables.forNSe_some (tables : EstimatorTables) {currentNSe : Nat} :
    (∃ table, tables.forNSe currentNSe = some table) ↔ 1 ≤ currentNSe ∧ currentNSe ≤ 4 := by
  unfold forNSe
  split
  next => simp
  next => simp
  next => simp
  next => simp
  next hone htwo hthree hfour =>
    constructor
    · rintro ⟨table, htable⟩
      cases htable
    · rintro ⟨hlow, hhigh⟩
      have hone' : currentNSe ≠ 1 := hone
      have htwo' : currentNSe ≠ 2 := htwo
      have hthree' : currentNSe ≠ 3 := hthree
      have hfour' : currentNSe ≠ 4 := hfour
      omega

/-- The constants of the scripts that the estimate uses. -/
structure EstimatorSettings where
  alpha : ℚ
  numLanes : Nat
  dV : ℚ

/-- The UEs away from both ends of their lane. -/
def Inner (dV : ℚ) (lastImsi : Int) : Prop :=
  150 / dV - 1 < lastImsi ∧ (lastImsi : ℚ) < 750 / dV - 150 / dV - 1 ∨
    900 / dV - 1 < lastImsi ∧ (lastImsi : ℚ) < 1500 / dV - 150 / dV - 1

instance (dV : ℚ) (lastImsi : Int) : Decidable (Inner dV lastImsi) :=
  inferInstanceAs (Decidable (_ ∨ _))

/-- The new value of `currentRhoUeEstimate`; at the ends of the road it is the true density. -/
def estimateRhoUe (settings : EstimatorSettings) (tables : EstimatorTables) (currentNSe : Nat)
    (currentRhoUeEstimate : ℚ) (record : SensingRecord) : Except Fault ℚ :=
  if Inner settings.dV record.index then
    match tables.forNSe currentNSe with
    | some table => do
      let entry ← table.entry record
      pure (settings.alpha * entry + (1 - settings.alpha) * currentRhoUeEstimate)
    | none => .ok currentRhoUeEstimate
  else .ok (settings.numLanes / settings.dV)

/-- The selection reads an entry of the table: the UE is an inner one and the table is the one of
its `currentNSe`. -/
def LooksUp (settings : EstimatorSettings) (tables : EstimatorTables) (currentNSe : Nat)
    (record : SensingRecord) (table : EstimatorTable) : Prop :=
  Inner settings.dV record.index ∧ tables.forNSe currentNSe = some table

/-- The entry that a record reads is inside the table, in the row of the eliminated resources and
the column of the threshold at which they were counted. -/
structure EntryRead (S : RsrpScale) (input : ExclusionInput) (table : EstimatorTable)
    (record : SensingRecord) : Prop where
  row : 0 ≤ record.numExclusions ∧ record.numExclusions < 104
  column : 0 ≤ thresholdStep record.rsrpThreshold ∧ thresholdStep record.rsrpThreshold < 37
  step : record.rsrpThreshold = 3 * thresholdStep record.rsrpThreshold
  measured : record.numExclusions =
    countAt S input (-110 + 3 * thresholdStep record.rsrpThreshold)
  found : ∃ row entry, table.rows[record.numExclusions.toNat]? = some row ∧
    row[(thresholdStep record.rsrpThreshold).toNat]? = some entry ∧
    table.entry record = .ok entry

/-- Every entry that the estimate reads is the right one, and the estimate is made. -/
structure EstimatorSafe (S : RsrpScale) (input : ExclusionInput) (settings : EstimatorSettings)
    (tables : EstimatorTables) (currentNSe : Nat) (currentRhoUeEstimate : ℚ)
    (record : SensingRecord) : Prop where
  read : ∀ table, LooksUp settings tables currentNSe record table →
    EntryRead S input table record
  returns : ∃ rhoUe,
    estimateRhoUe settings tables currentNSe currentRhoUeEstimate record = .ok rhoUe

section Lookup

variable {S : RsrpScale} {input : ExclusionInput} {record : SensingRecord}

theorem EstimatorTable.entry_found (table : EstimatorTable)
    (hrow : 0 ≤ record.numExclusions ∧ record.numExclusions < 104)
    (hcolumn : 0 ≤ thresholdStep record.rsrpThreshold ∧ thresholdStep record.rsrpThreshold < 37) :
    ∃ row entry, table.rows[record.numExclusions.toNat]? = some row ∧
      row[(thresholdStep record.rsrpThreshold).toNat]? = some entry ∧
      table.entry record = .ok entry := by
  obtain ⟨row, hat, hget⟩ := pyGet_of_lt (l := table.rows) hrow.1 (by rw [table.height]; exact hrow.2)
  have hwidth := table.width row (List.mem_of_getElem? hat)
  obtain ⟨entry, hentry, hgetEntry⟩ := pyGet_of_lt (l := row) hcolumn.1
    (by rw [hwidth]; exact hcolumn.2)
  refine ⟨row, entry, hat, hentry, ?_⟩
  rw [EstimatorTable.entry, bind_of_ok hget, hgetEntry]

theorem estimateRhoUe_ok {settings : EstimatorSettings} {tables : EstimatorTables}
    {currentNSe : Nat} {current : ℚ}
    (h : ∀ table, LooksUp settings tables currentNSe record table →
      EntryRead S input table record) :
    ∃ rhoUe, estimateRhoUe settings tables currentNSe current record = .ok rhoUe := by
  unfold estimateRhoUe
  split
  next hinner =>
    split
    next table htable =>
      obtain ⟨_, entry, _, _, hentry⟩ := (h table ⟨hinner, htable⟩).found
      exact ⟨_, bind_ok_iff.mpr ⟨entry, hentry, rfl⟩⟩
    next => exact ⟨_, rfl⟩
  next => exact ⟨_, rfl⟩

theorem overBudget_experiment : ∀ n : Fin 129,
    (1 - Float.ofNat 20 / 100.0) * Float.ofNat 128 < Float.ofInt n.val ↔ 102 < n.val := by
  decide +kernel

theorem overBudget_iff (within : WithinPool input) (hTotal : input.mTotal = 128)
    (hres : input.resPercentage = 20) (t : Int) :
    input.OverBudget (countAt S input t) ↔ 102 < countAt S input t := by
  have hle := countAt_le_mTotal (S := S) within t
  unfold ExclusionInput.OverBudget
  rw [hTotal, hres]
  exact overBudget_experiment ⟨countAt S input t, by omega⟩

/-- A start at −110 dBm leaves 37 thresholds up to the limit. -/
theorem StopsAt.le_last {n : Nat} (h : StopsAt S input (-110) n) : n ≤ 36 := by
  by_contra hlate
  have hlimit := (h.earlier 36 (by omega)).2
  omega

/-- Only the last threshold, −2 dBm, may end the loop over budget. -/
theorem StopsAt.within_or_last {n : Nat} (h : StopsAt S input (-110) n) (within : WithinPool input)
    (hTotal : input.mTotal = 128) (hres : input.resPercentage = 20) :
    countAt S input (-110 + 3 * n) ≤ 102 ∨ n = 36 := by
  rcases h.last with hin | hlimit
  · rw [overBudget_iff within hTotal hres] at hin
    exact Or.inl (not_lt.mp hin)
  · have := h.le_last
    exact Or.inr (by omega)

theorem thresholdStep_three (n : Nat) : thresholdStep (3 * n) = n :=
  Int.mul_tdiv_cancel_left n (by omega)

/-- The last pass counts at most 103 resources exactly when at most 103 are occupied at −2 dBm: any
other last pass is within the budget. -/
theorem StopsAt.row_iff {n : Nat} (h : StopsAt S input (-110) n) (within : WithinPool input)
    (hTotal : input.mTotal = 128) (hres : input.resPercentage = 20) :
    countAt S input (-110 + 3 * n) ≤ 103 ↔ countAt S input (-2) ≤ 103 := by
  have hle := h.le_last
  rcases h.within_or_last within hTotal hres with hin | rfl
  · have hanti := occupiedCount_anti (S := S) (show -110 + 3 * (n : Int) ≤ -2 by omega)
      input.pPrimeRsvpTx input.allSensingData input.candidates
    change countAt S input (-2) ≤ countAt S input (-110 + 3 * n) at hanti
    omega
  · norm_num

/-- What Python keeps of the last pass. -/
theorem record_of_pass {imsi now : Nat}
    (hrecord : RecordOf (sensingMessage imsi now (excludeResources S input (-110))) record) :
    ∃ n, StopsAt S input (-110) n ∧ record.numExclusions = countAt S input (-110 + 3 * n) ∧
      record.rsrpThreshold = 3 * n := by
  obtain ⟨n, hstop, hend⟩ := excludeResources_stops S input (-110)
  refine ⟨n, hstop, hrecord.numExclusions.trans hend.eliminated, ?_⟩
  have hpassed := hrecord.rsrpThreshold
  change _ = (excludeResources S input (-110)).rsrpThreshold + 110 - 3 at hpassed
  rw [hend.threshold] at hpassed
  omega

/-- The entry read is right exactly when at most 103 resources are occupied at −2 dBm: the limit
ends the loop with any number of them. -/
theorem entryRead_iff (table : EstimatorTable) {imsi now : Nat} (within : WithinPool input)
    (hTotal : input.mTotal = 128) (hres : input.resPercentage = 20)
    (hrecord : RecordOf (sensingMessage imsi now (excludeResources S input (-110))) record) :
    EntryRead S input table record ↔ countAt S input (-2) ≤ 103 := by
  obtain ⟨n, hstop, hcount, hthreshold⟩ := record_of_pass hrecord
  have hstep : thresholdStep record.rsrpThreshold = n := by
    rw [hthreshold, thresholdStep_three]
  rw [← hstop.row_iff within hTotal hres]
  constructor
  · intro right
    have hrow := right.row.2
    rw [hcount] at hrow
    omega
  · intro hfew
    have hrow : 0 ≤ record.numExclusions ∧ record.numExclusions < 104 := by
      rw [hcount]
      omega
    have hcolumn : 0 ≤ thresholdStep record.rsrpThreshold ∧
        thresholdStep record.rsrpThreshold < 37 := by
      have hle := hstop.le_last
      rw [hstep]
      omega
    exact ⟨hrow, hcolumn, by rw [hstep, hthreshold], by rw [hstep, hcount],
      table.entry_found hrow hcolumn⟩

/-- The estimate is safe exactly when its UE reads no table or at most 103 resources are occupied at
−2 dBm. -/
theorem estimatorSafe_iff (settings : EstimatorSettings) (tables : EstimatorTables)
    (currentNSe : Nat) (currentRhoUeEstimate : ℚ) {imsi now : Nat} (within : WithinPool input)
    (hTotal : input.mTotal = 128) (hres : input.resPercentage = 20)
    (hrecord : RecordOf (sensingMessage imsi now (excludeResources S input (-110))) record) :
    EstimatorSafe S input settings tables currentNSe currentRhoUeEstimate record ↔
      ((Inner settings.dV (ueIndex imsi) ∧ 1 ≤ currentNSe ∧ currentNSe ≤ 4) →
        countAt S input (-2) ≤ 103) := by
  have hindex : record.index = ueIndex imsi := hrecord.index
  constructor
  · rintro safe ⟨hinner, hnse⟩
    obtain ⟨table, htable⟩ := tables.forNSe_some.mpr hnse
    have hread := safe.read table ⟨hindex ▸ hinner, htable⟩
    exact (entryRead_iff table within hTotal hres hrecord).mp hread
  · intro hfew
    have hread : ∀ table, LooksUp settings tables currentNSe record table →
        EntryRead S input table record := by
      rintro table ⟨hinner, htable⟩
      refine (entryRead_iff table within hTotal hres hrecord).mpr (hfew ⟨hindex ▸ hinner, ?_⟩)
      exact tables.forNSe_some.mp ⟨table, htable⟩
    exact ⟨hread, estimateRhoUe_ok hread⟩

end Lookup

section Crowd

/-- A reservation at 0 dBm in a packet that was received corrupt. -/
def loudTx (sfn sbChStart : Nat) : SlotSensingData where
  sfn := sfn
  rsvp := 100
  sbChLength := 1
  sbChStart := sbChStart
  prio := 0
  slRsrp := 0
  corrupt := true
  rc := 0
  srcRnti := 1

def loudTxs : List SlotSensingData :=
  (List.range 32).flatMap fun sfn => (List.range 4).map (loudTx sfn)

/-- 32 slots with four subchannels, all of them reserved by transmitters close by. -/
def crowd : ExclusionInput where
  pPrimeRsvpTx := 100
  allSensingData := [loudTxs]
  candidates := (List.range 32).map fun sfn => { shape := {}, sfn := sfn, occupiedSbCh := ∅ }
  candidates_ne_nil := by simp
  free := by simp
  totalSubCh := 4
  resPercentage := 20

def blankTable : EstimatorTable where
  rows := List.replicate 104 (List.replicate 37 0)
  height := List.length_replicate
  width := by
    intro row hrow
    rw [List.eq_of_mem_replicate hrow, List.length_replicate]

def blankTables : EstimatorTables := ⟨blankTable, blankTable, blankTable, blankTable⟩

/-- Three lanes with a UE every ten metres. -/
def crowdSettings : EstimatorSettings where
  alpha := 1 / 10
  numLanes := 3
  dV := 10

/-- What Python keeps of the message of a UE in the middle of its lane about the crowd. -/
noncomputable def crowdRecord : SensingRecord :=
  let r := excludeResources realScale crowd (-110)
  ⟨30, r.eliminatedResources, r.rsrpThreshold + 110 - 3, []⟩

theorem crowd_reported (S : RsrpScale) (t : Int) : (excludeResources S crowd t).reported = [] := by
  have hcorrupt : ∀ tx ∈ loudTxs, tx.corrupt = true := by
    intro tx htx
    obtain ⟨sfn, _, htx⟩ := List.mem_flatMap.mp htx
    obtain ⟨sbChStart, _, rfl⟩ := List.mem_map.mp htx
    rfl
  rw [excludeResources_reported, List.flatMap_eq_nil_iff]
  intro c _
  simp [crowd, turnsFrom, turnReport_corrupt hcorrupt]

theorem crowd_withinPool : WithinPool crowd := by
  intro txs htxs tx htx
  obtain rfl := List.mem_singleton.mp htxs
  obtain ⟨sfn, _, htx⟩ := List.mem_flatMap.mp htx
  obtain ⟨sbChStart, hstart, rfl⟩ := List.mem_map.mp htx
  exact List.mem_range.mp hstart

theorem crowdRecord_of :
    RecordOf (sensingMessage 31 5000 (excludeResources realScale crowd (-110))) crowdRecord where
  index := rfl
  numExclusions := rfl
  rsrpThreshold := rfl
  recievedPackets := by
    rw [sensingMessage, crowd_reported]
    rfl

theorem crowd_occupied {S : RsrpScale} (exact : S.Exact) : 128 ≤ countAt S crowd (-2) := by
  have hslot : ∀ n ∈ crowd.candidates.map fun c =>
      (occupancy S (-2) crowd.pPrimeRsvpTx crowd.allSensingData c.sfn).card, 4 ≤ n := by
    intro n hn
    obtain ⟨c, hc, rfl⟩ := List.mem_map.mp hn
    obtain ⟨sfn, hsfn, rfl⟩ := List.mem_map.mp hc
    have hall : Finset.range 4 ⊆ occupancy S (-2) crowd.pPrimeRsvpTx crowd.allSensingData sfn := by
      intro b hb
      have hmem : loudTx sfn b ∈ loudTxs :=
        List.mem_flatMap.mpr ⟨sfn, hsfn, List.mem_map_of_mem (by simpa using hb)⟩
      have hover := overThreshold_of_mem exact (t := -2) hmem (by norm_num [loudTx])
      exact mem_occupancy.mpr ⟨loudTxs, List.mem_singleton_self _, sfn,
        List.mem_map.mpr ⟨0, by simp, by simp⟩, hover⟩
    simpa using Finset.card_le_card hall
  have hsum := List.card_nsmul_le_sum _ 4 hslot
  have hlength : crowd.candidates.length = 32 := by simp [crowd]
  rw [List.length_map, hlength, smul_eq_mul] at hsum
  exact hsum

theorem crowd_mTotal : crowd.mTotal = 128 := by simp [ExclusionInput.mTotal, crowd]

/-- The first UE of its lane takes the true density and is safe in the same crowd. -/
theorem estimatorSafe_iff_crowd : EstimatorSafe realScale crowd crowdSettings blankTables 1 0
    { crowdRecord with index := 0 } := by
  have hrecord : RecordOf (sensingMessage 1 5000 (excludeResources realScale crowd (-110)))
      { crowdRecord with index := 0 } :=
    ⟨rfl, rfl, rfl, crowdRecord_of.recievedPackets⟩
  refine (estimatorSafe_iff crowdSettings blankTables 1 0 crowd_withinPool crowd_mTotal rfl
    hrecord).mpr ?_
  rintro ⟨hinner, _⟩
  exact absurd hinner (by decide +kernel)

/-- With all 128 resources occupied at −2 dBm the row is past the end of the table. -/
theorem estimatorSafe_fails_crowd :
    ¬∀ (input : ExclusionInput) (settings : EstimatorSettings) (tables : EstimatorTables)
      (currentNSe : Nat) (currentRhoUeEstimate : ℚ) (imsi now : Nat) (record : SensingRecord),
      WithinPool input → input.mTotal = 128 → input.resPercentage = 20 →
        RecordOf (sensingMessage imsi now (excludeResources realScale input (-110))) record →
          EstimatorSafe realScale input settings tables currentNSe currentRhoUeEstimate record := by
  intro claimed
  have safe := claimed crowd crowdSettings blankTables 1 0 31 5000 crowdRecord crowd_withinPool
    crowd_mTotal rfl crowdRecord_of
  have hinner : Inner crowdSettings.dV crowdRecord.index := by
    change Inner 10 30
    decide +kernel
  have hread := safe.read blankTable ⟨hinner, rfl⟩
  obtain ⟨n, hstop, hend⟩ := excludeResources_stops realScale crowd (-110)
  have hle := hstop.le_last
  have hanti := occupiedCount_anti (S := realScale) (show -110 + 3 * (n : Int) ≤ -2 by omega)
    crowd.pPrimeRsvpTx crowd.allSensingData crowd.candidates
  have hmany : 128 ≤ countAt realScale crowd (-110 + 3 * n) :=
    (crowd_occupied realScale_exact).trans hanti
  have hrow : crowdRecord.numExclusions = countAt realScale crowd (-110 + 3 * n) := hend.eliminated
  have hbound := hread.row.2
  omega

end Crowd

end SidelinkORe
