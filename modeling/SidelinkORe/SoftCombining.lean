import SidelinkORe.PsschReception

namespace SidelinkORe

namespace NrHarqPhy

variable {ω : Type} {harq : NrHarqPhy ω} {rnti harqProcId r i : Nat}

theorem history_modify (f : List ω → List ω) :
    ({ harq with slDataHistory := modifyHarqProcess harq.slDataHistory rnti harqProcId f }).history r i =
      if r = rnti ∧ i = harqProcId then f (harq.history rnti harqProcId) else harq.history r i := by
  unfold history modifyHarqProcess
  dsimp only
  by_cases hr : r = rnti
  · subst hr
    rw [Table.find?_put_self]
    show ((((harq.slDataHistory.find? r).getD Table.empty).put harqProcId _).find? i).getD [] = _
    by_cases hi : i = harqProcId
    · subst hi
      rw [Table.find?_put_self, if_pos ⟨rfl, rfl⟩]
      rfl
    · rw [Table.find?_put_ne _ _ hi, if_neg (fun h => hi h.2)]
  · rw [Table.find?_put_ne _ _ hr, if_neg (fun h => hr h.1)]

@[simp] theorem getHarqProcessInfoSlData_fst :
    (harq.getHarqProcessInfoSlData rnti harqProcId).1 = harq.history rnti harqProcId := rfl

@[simp] theorem history_getHarqProcessInfoSlData :
    (harq.getHarqProcessInfoSlData rnti harqProcId).2.history r i = harq.history r i := by
  refine (history_modify id).trans ?_
  split
  next h =>
    rw [h.1, h.2]
    rfl
  next => rfl

@[simp] theorem history_updateSlDataHarqProcessStatus (output : ω) :
    (harq.updateSlDataHarqProcessStatus rnti harqProcId output).history r i =
      if r = rnti ∧ i = harqProcId then harq.history rnti harqProcId ++ [output] else harq.history r i :=
  history_modify (· ++ [output])

@[simp] theorem history_resetSlDataHarqProcessStatus :
    (harq.resetSlDataHarqProcessStatus rnti harqProcId).history r i =
      if r = rnti ∧ i = harqProcId then [] else harq.history r i :=
  history_modify fun _ => []

@[simp] theorem history_indicatePrevDecoded :
    (harq.indicatePrevDecoded rnti harqProcId).history r i = harq.history r i := rfl

@[simp] theorem history_removePrevDecoded :
    (harq.removePrevDecoded rnti harqProcId).history r i = harq.history r i := rfl

theorem decodedId_inj (h : harqProcId < 256) (hi : i < 256) :
    decodedId rnti harqProcId = decodedId r i ↔ rnti = r ∧ harqProcId = i := by
  unfold decodedId
  rw [Nat.shiftLeft_eq, Nat.shiftLeft_eq]
  omega

theorem isPrevDecoded_indicatePrevDecoded (h : harqProcId < 256) (hi : i < 256) :
    (harq.indicatePrevDecoded rnti harqProcId).isPrevDecoded r i = true ↔
      (r = rnti ∧ i = harqProcId) ∨ harq.isPrevDecoded r i = true := by
  unfold isPrevDecoded indicatePrevDecoded
  rw [decide_eq_true_eq, decide_eq_true_eq, Finset.mem_insert, decodedId_inj hi h]

theorem isPrevDecoded_removePrevDecoded (h : harqProcId < 256) (hi : i < 256) :
    (harq.removePrevDecoded rnti harqProcId).isPrevDecoded r i = true ↔
      ¬(r = rnti ∧ i = harqProcId) ∧ harq.isPrevDecoded r i = true := by
  unfold isPrevDecoded removePrevDecoded
  rw [decide_eq_true_eq, decide_eq_true_eq, Finset.mem_erase, Ne, decodedId_inj hi h]

variable {sciF2a : NrSlSciF2aHeader}

theorem harqInfoList_fst : (harq.harqInfoList rnti sciF2a).1 =
    if sciF2a.ndi ≠ 0 then [] else harq.history rnti sciF2a.harqId.toNat := by
  unfold harqInfoList
  dsimp only
  split
  next h =>
    rw [if_pos h.1]
    simp
  next h =>
    show harq.history rnti sciF2a.harqId.toNat = _
    by_cases hndi : sciF2a.ndi ≠ 0
    · rw [if_pos hndi]
      exact List.length_eq_zero_iff.mp (Nat.eq_zero_of_not_pos fun hlen => h ⟨hndi, hlen⟩)
    · rw [if_neg hndi]

theorem history_harqInfoList : (harq.harqInfoList rnti sciF2a).2.history r i =
    if r = rnti ∧ i = sciF2a.harqId.toNat then (harq.harqInfoList rnti sciF2a).1 else harq.history r i := by
  unfold harqInfoList
  dsimp only
  split
  next => simp
  next =>
    show (harq.getHarqProcessInfoSlData rnti sciF2a.harqId.toNat).2.history r i =
      if r = rnti ∧ i = sciF2a.harqId.toNat then harq.history rnti sciF2a.harqId.toNat else harq.history r i
    rw [history_getHarqProcessInfoSlData]
    split
    next h => rw [h.1, h.2]
    next => rfl

theorem slDecodedTb_harqInfoList : (harq.harqInfoList rnti sciF2a).2.slDecodedTb = harq.slDecodedTb := by
  unfold harqInfoList
  dsimp only
  split <;> rfl

end NrHarqPhy

/-- Nothing has been evaluated for the block yet. -/
structure SlTransportBlockInfo.Fresh {numRbs : Nat} {ω : Type} (tb : SlTransportBlockInfo numRbs ω) : Prop where
  notCorrupted : tb.isDataCorrupted = false
  noData : tb.outputEmForData = none
  noSci2 : tb.outputEmForSci2 = none

section SoftInfo

variable {numRbs : Nat} {ω : Type}

/-- The attempts that are combined: new data starts again before it is added, a decoded block
afterwards; what collided adds nothing. -/
def softInfo (numRbs : Nat) (ω : Type) : Collecting (PsschAttempt numRbs ω) (PsschAttempt numRbs ω) where
  opens := fun a => decide (a.sciF2a.ndi ≠ 0)
  closes := fun a => !a.tb.isDataCorrupted
  item := fun a => if a.rbCollided = true then none else some a

def outputsOf (attempts : List (PsschAttempt numRbs ω)) : List ω :=
  attempts.filterMap fun a => a.tb.outputEmForData

/-- The attempts of one process of one transmitter. -/
def ownAttempts (rnti harqId : Nat) (log : List (PsschAttempt numRbs ω)) : List (PsschAttempt numRbs ω) :=
  log.filter fun a => decide (a.rnti = rnti ∧ a.sciF2a.harqId.toNat = harqId)

/-- The earlier attempts that an attempt is combined with. -/
def combinedWith (past : List (PsschAttempt numRbs ω)) (a : PsschAttempt numRbs ω) :
    List (PsschAttempt numRbs ω) :=
  (softInfo numRbs ω).before ((softInfo numRbs ω).collect (ownAttempts a.rnti a.sciF2a.harqId.toNat past)) a

variable (em : NrErrorModel numRbs ω) (random : Nat → ℚ)

/-- One attempt after those of `past`: it is evaluated with what it is combined with, and it fails by
a collision or by one of its two draws. -/
structure Evaluated (past : List (PsschAttempt numRbs ω)) (a : PsschAttempt numRbs ω) : Prop where
  data : a.tb.outputEmForData = some (em.getTbDecodificationStats a.tb.sinrPerceived
    a.tb.expectedTb.rbBitmap a.tb.expectedTb.tbSize a.tb.expectedTb.mcs (outputsOf (combinedWith past a)))
  sci2 : a.tb.outputEmForSci2 = some (em.getTbDecodificationStats a.tb.sinrPerceived
    a.tb.expectedTb.rbBitmap 5 0 [])
  corrupted : a.tb.isDataCorrupted = true ↔ a.rbCollided = true ∨
    (∃ output ∈ a.tb.outputEmForSci2, random a.drawn ≤ em.tbler output) ∨
      ∃ output ∈ a.tb.outputEmForData, random (a.drawn + 1) ≤ em.tbler output
  fresh : ∀ b ∈ past, b.rbCollided = false → b.drawn + 2 ≤ a.drawn

/-- The state of the PHY after the attempts of the log. -/
structure Reflects (log : List (PsschAttempt numRbs ω)) (harq : NrHarqPhy ω) (drawn : Nat) : Prop where
  history : ∀ r i, harq.history r i = outputsOf ((softInfo numRbs ω).collect (ownAttempts r i log))
  drawn : ∀ a ∈ log, a.rbCollided = false → a.drawn + 2 ≤ drawn
  decoded : ∀ r i, i < 256 → (harq.isPrevDecoded r i = true ↔
    ∃ past a rest, ownAttempts r i log = past ++ a :: rest ∧ a.tb.isDataCorrupted = false ∧
      ∀ b ∈ rest, b.sciF2a.ndi = 0)

/-- What one attempt does to the HARQ module. -/
structure HarqStep (harq harq' : NrHarqPhy ω) (a : PsschAttempt numRbs ω) : Prop where
  own : harq'.history a.rnti a.sciF2a.harqId.toNat =
    if a.tb.isDataCorrupted = true then
      (if a.sciF2a.ndi ≠ 0 then [] else harq.history a.rnti a.sciF2a.harqId.toNat) ++
        if a.rbCollided = true then [] else outputsOf [a]
    else []
  others : ∀ r i, ¬(r = a.rnti ∧ i = a.sciF2a.harqId.toNat) → harq'.history r i = harq.history r i
  flags : ∀ r i, i < 256 → (harq'.isPrevDecoded r i = true ↔
    if r = a.rnti ∧ i = a.sciF2a.harqId.toNat then
      a.tb.isDataCorrupted = false ∨ a.sciF2a.ndi = 0 ∧ harq.isPrevDecoded r i = true
    else harq.isPrevDecoded r i = true)

end SoftInfo

section Steps

variable {numRbs : Nat} {ω : Type} {cfg : PsschConfig} {em : NrErrorModel numRbs ω} {random : Nat → ℚ}
  {harq harq' : NrHarqPhy ω} {drawn later rnti : Nat} {sciF2a : NrSlSciF2aHeader} {rbCollided : Bool}
  {tb : SlTransportBlockInfo numRbs ω} {log : List (PsschAttempt numRbs ω)} {a : PsschAttempt numRbs ω}

theorem ownAttempts_append (r i : Nat) (a : PsschAttempt numRbs ω) :
    ownAttempts r i (log ++ [a]) = ownAttempts r i log ++
      if r = a.rnti ∧ i = a.sciF2a.harqId.toNat then [a] else [] := by
  unfold ownAttempts
  rw [List.filter_append]
  congr 1
  split
  next h => simp [h.1, h.2]
  next h =>
    refine List.filter_cons_of_neg fun hown => h ?_
    have hboth := of_decide_eq_true hown
    exact ⟨hboth.1.symm, hboth.2.symm⟩

/-- A block is evaluated for the SCI and for the data, and then collided, failed or decoded. -/
theorem decodeTb_cases {y : SlTransportBlockInfo numRbs ω × NrHarqPhy ω × Nat} {sci2 data : ω}
    (hsci2 : sci2 = em.getTbDecodificationStats tb.sinrPerceived tb.expectedTb.rbBitmap 5 0 [])
    (hdata : data = em.getTbDecodificationStats tb.sinrPerceived tb.expectedTb.rbBitmap
      tb.expectedTb.tbSize tb.expectedTb.mcs (harq.harqInfoList rnti sciF2a).1)
    (hy : PsschRx.decodeTb em random harq drawn rnti sciF2a rbCollided tb = y) :
    ∃ sci2Corrupted dataCorrupted, y.1 = { tb with
        outputEmForSci2 := some sci2
        outputEmForData := some data
        isSci2Corrupted := sci2Corrupted
        isDataCorrupted := dataCorrupted } ∧
      (rbCollided = true ∧ dataCorrupted = tb.isDataCorrupted ∧ y.2 = ((harq.harqInfoList rnti sciF2a).2, drawn) ∨
      rbCollided = false ∧ dataCorrupted = true ∧
        (random drawn ≤ em.tbler sci2 ∨ random (drawn + 1) ≤ em.tbler data) ∧
        y.2 = ((harq.harqInfoList rnti sciF2a).2.updateSlDataHarqProcessStatus rnti sciF2a.harqId.toNat data,
          drawn + 2) ∨
      rbCollided = false ∧ dataCorrupted = false ∧
        ¬(random drawn ≤ em.tbler sci2 ∨ random (drawn + 1) ≤ em.tbler data) ∧
        y.2 = (((harq.harqInfoList rnti sciF2a).2.indicatePrevDecoded rnti
          sciF2a.harqId.toNat).resetSlDataHarqProcessStatus rnti sciF2a.harqId.toNat, drawn + 2)) := by
  subst hy hsci2 hdata
  unfold PsschRx.decodeTb
  dsimp only
  split
  next h => exact ⟨_, _, rfl, Or.inl ⟨h, rfl, rfl⟩⟩
  next h =>
    have hnot : rbCollided = false := by simpa using h
    split
    next hfails =>
      refine ⟨_, _, rfl, Or.inr (Or.inl ⟨hnot, hfails, ?_, rfl⟩)⟩
      simp only [Bool.or_eq_true, Bool.not_eq_true', decide_eq_false_iff_not, not_lt] at hfails
      exact hfails.symm
    next hdecodes =>
      refine ⟨_, _, rfl, Or.inr (Or.inr ⟨hnot, by simpa using hdecodes, ?_, rfl⟩)⟩
      simp only [Bool.or_eq_true, Bool.not_eq_true', decide_eq_false_iff_not, not_lt] at hdecodes
      exact fun h => hdecodes h.symm

theorem decodeTb_corrupted {y : SlTransportBlockInfo numRbs ω × NrHarqPhy ω × Nat}
    (hy : PsschRx.decodeTb em random harq drawn rnti sciF2a rbCollided tb = y)
    (hmarked : tb.isDataCorrupted = rbCollided) :
    y.1.isDataCorrupted = true ↔ rbCollided = true ∨
      (∃ output ∈ y.1.outputEmForSci2, random drawn ≤ em.tbler output) ∨
        ∃ output ∈ y.1.outputEmForData, random (drawn + 1) ≤ em.tbler output := by
  obtain ⟨_, corrupted, hblock, hcases⟩ := decodeTb_cases rfl rfl hy
  rw [hblock]
  simp only [Option.mem_some_iff, exists_eq_left']
  rcases hcases with ⟨h, hsame, _⟩ | ⟨h, hfails, hdraws, _⟩ | ⟨h, hdecodes, hdraws, _⟩
  · simp [hsame, hmarked, h]
  · simp [hfails, hdraws]
  · simp [hdecodes, hdraws, h]

/-- What the evaluation does to the HARQ module, as one attempt. -/
theorem decodeTb_harqStep {y : SlTransportBlockInfo numRbs ω × NrHarqPhy ω × Nat}
    (hy : PsschRx.decodeTb em random (if sciF2a.ndi ≠ 0 then harq.removePrevDecoded rnti sciF2a.harqId.toNat
      else harq) drawn rnti sciF2a rbCollided tb = y)
    (hmarked : tb.isDataCorrupted = rbCollided) (burst : List SlRxPacket) :
    HarqStep harq y.2.1 ⟨rnti, y.1, sciF2a, rbCollided, burst, drawn⟩ := by
  generalize hremoved : (if sciF2a.ndi ≠ 0 then harq.removePrevDecoded rnti sciF2a.harqId.toNat else harq) =
    removed at hy
  have hid := sciF2a.harqId.toNat_lt
  have hhistory : ∀ r i, removed.history r i = harq.history r i := by
    intro r i
    rw [← hremoved]
    split <;> rfl
  have hflags : ∀ r i, i < 256 → ((removed.harqInfoList rnti sciF2a).2.isPrevDecoded r i = true ↔
      if r = rnti ∧ i = sciF2a.harqId.toNat then sciF2a.ndi = 0 ∧ harq.isPrevDecoded r i = true
      else harq.isPrevDecoded r i = true) := by
    intro r i hi
    have hsame : (removed.harqInfoList rnti sciF2a).2.isPrevDecoded r i = removed.isPrevDecoded r i := by
      rw [NrHarqPhy.isPrevDecoded, NrHarqPhy.slDecodedTb_harqInfoList]
      rfl
    rw [hsame, ← hremoved]
    by_cases hndi : sciF2a.ndi = 0
    · rw [if_neg (not_not_intro hndi)]
      simp [hndi]
    · rw [if_pos hndi, NrHarqPhy.isPrevDecoded_removePrevDecoded hid hi]
      by_cases hown : r = rnti ∧ i = sciF2a.harqId.toNat <;> simp [hown, hndi]
  have hfetched : ∀ r i, (removed.harqInfoList rnti sciF2a).2.history r i =
      if r = rnti ∧ i = sciF2a.harqId.toNat then
        if sciF2a.ndi ≠ 0 then [] else harq.history rnti sciF2a.harqId.toNat
      else harq.history r i := by
    intro r i
    rw [NrHarqPhy.history_harqInfoList, NrHarqPhy.harqInfoList_fst, hhistory, hhistory]
  obtain ⟨_, corrupted, hblock, hcases⟩ := decodeTb_cases rfl rfl hy
  rcases hcases with ⟨hcollided, hsame, hharq⟩ | ⟨hfree, hfails, _, hharq⟩ | ⟨hfree, hdecodes, _, hharq⟩
  · have hcorrupted : y.1.isDataCorrupted = true := by
      rw [hblock]
      exact hsame.trans (hmarked.trans hcollided)
    refine ⟨?_, fun r i hother => ?_, fun r i hi => ?_⟩
    · rw [hharq, hfetched, if_pos ⟨rfl, rfl⟩, if_pos hcorrupted, if_pos hcollided,
        List.append_nil]
    · rw [hharq, hfetched, if_neg hother]
    · rw [hharq, hflags r i hi]
      simp [hcorrupted]
  · have hcorrupted : y.1.isDataCorrupted = true := by
      rw [hblock]
      exact hfails
    have hnot : ¬rbCollided = true := by simp [hfree]
    refine ⟨?_, fun r i hother => ?_, fun r i hi => ?_⟩
    · rw [hharq, NrHarqPhy.history_updateSlDataHarqProcessStatus, hfetched, if_pos ⟨rfl, rfl⟩,
        if_pos ⟨rfl, rfl⟩, if_pos hcorrupted, if_neg hnot, hblock]
      rfl
    · rw [hharq, NrHarqPhy.history_updateSlDataHarqProcessStatus, if_neg hother, hfetched, if_neg hother]
    · rw [hharq]
      refine (hflags r i hi).trans ?_
      simp [hcorrupted]
  · have hdecoded : y.1.isDataCorrupted = false := by
      rw [hblock]
      exact hdecodes
    refine ⟨?_, fun r i hother => ?_, fun r i hi => ?_⟩
    · rw [hharq, NrHarqPhy.history_resetSlDataHarqProcessStatus, if_pos ⟨rfl, rfl⟩,
        if_neg (by simp [hdecoded])]
    · rw [hharq, NrHarqPhy.history_resetSlDataHarqProcessStatus, if_neg hother,
        NrHarqPhy.history_indicatePrevDecoded, hfetched, if_neg hother]
    · rw [hharq]
      refine (NrHarqPhy.isPrevDecoded_indicatePrevDecoded hid hi).trans ?_
      rw [hflags r i hi]
      by_cases hown : r = rnti ∧ i = sciF2a.harqId.toNat <;> simp [hown, hdecoded]

theorem softInfo_step (collected : List (PsschAttempt numRbs ω)) (a : PsschAttempt numRbs ω) :
    (softInfo numRbs ω).step collected a = if a.tb.isDataCorrupted = true then
      (if a.sciF2a.ndi ≠ 0 then [] else collected) ++ (if a.rbCollided = true then [] else [a]) else [] := by
  show (if (!a.tb.isDataCorrupted) = true then [] else
    (if decide (a.sciF2a.ndi ≠ 0) = true then [] else collected) ++
      (if a.rbCollided = true then none else some a).toList) = _
  by_cases hcorrupted : a.tb.isDataCorrupted = true
  · rw [if_neg (by simp [hcorrupted]), if_pos hcorrupted]
    congr 1
    · simp only [decide_eq_true_eq]
    · split <;> rfl
  · rw [if_pos (by simpa using hcorrupted), if_neg hcorrupted]

theorem outputsOf_append (l l' : List (PsschAttempt numRbs ω)) :
    outputsOf (l ++ l') = outputsOf l ++ outputsOf l' := List.filterMap_append

/-- An own attempt that is appended keeps the flag unless it is new data, and sets it when decoded. -/
theorem decodedSince_append {own : List (PsschAttempt numRbs ω)} :
    (∃ past b rest, own ++ [a] = past ++ b :: rest ∧ b.tb.isDataCorrupted = false ∧
      ∀ x ∈ rest, x.sciF2a.ndi = 0) ↔
    a.tb.isDataCorrupted = false ∨ a.sciF2a.ndi = 0 ∧ ∃ past b rest, own = past ++ b :: rest ∧
      b.tb.isDataCorrupted = false ∧ ∀ x ∈ rest, x.sciF2a.ndi = 0 := by
  constructor
  · intro ⟨past, b, rest, hlog, hdecoded, hrest⟩
    rcases List.eq_nil_or_concat rest with rfl | ⟨rest, last, rfl⟩
    · obtain ⟨_, hlast⟩ := List.append_inj' hlog rfl
      rw [List.singleton_inj.mp hlast]
      exact Or.inl hdecoded
    · rw [List.concat_eq_append] at hlog hrest
      rw [← List.cons_append, ← List.append_assoc] at hlog
      obtain ⟨hown, hlast⟩ := List.append_inj' hlog rfl
      rw [List.singleton_inj.mp hlast]
      refine Or.inr ⟨hrest last (by simp), past, b, rest, hown, hdecoded, fun x hx => hrest x (by simp [hx])⟩
  · intro h
    rcases h with h | ⟨hndi, past, b, rest, rfl, hdecoded, hrest⟩
    · exact ⟨own, a, [], rfl, h, by simp⟩
    · refine ⟨past, b, rest ++ [a], by simp, hdecoded, fun x hx => ?_⟩
      rcases List.mem_append.mp hx with hx | hx
      · exact hrest x hx
      · rw [List.mem_singleton.mp hx]
        exact hndi

theorem Reflects.next (h : Reflects log harq drawn) (hstep : HarqStep harq harq' a)
    (hlater : drawn ≤ later)
    (hdrawn : a.rbCollided = false → a.drawn + 2 ≤ later) : Reflects (log ++ [a]) harq' later where
  history := by
    intro r i
    rw [ownAttempts_append]
    by_cases hown : r = a.rnti ∧ i = a.sciF2a.harqId.toNat
    · obtain ⟨rfl, rfl⟩ := hown
      rw [if_pos ⟨rfl, rfl⟩, Collecting.collect_append_singleton, hstep.own, h.history]
      rw [softInfo_step]
      by_cases hcorrupted : a.tb.isDataCorrupted = true
      · rw [if_pos hcorrupted, if_pos hcorrupted, outputsOf_append]
        congr 1
        · split <;> rfl
        · split <;> rfl
      · rw [if_neg hcorrupted, if_neg hcorrupted]
        rfl
    · rw [if_neg hown, List.append_nil, hstep.others r i hown, h.history]
  drawn := by
    intro b hb hfree
    rcases List.mem_append.mp hb with hb | hb
    · exact (h.drawn b hb hfree).trans hlater
    · rw [List.mem_singleton.mp hb] at hfree ⊢
      exact hdrawn hfree
  decoded := by
    intro r i hi
    rw [hstep.flags r i hi, ownAttempts_append]
    split
    next => rw [decodedSince_append, h.decoded r i hi]
    next => rw [List.append_nil, h.decoded r i hi]

theorem Reflects.outputsOf_combinedWith (h : Reflects log harq drawn) :
    outputsOf (combinedWith log a) =
      if a.sciF2a.ndi ≠ 0 then [] else harq.history a.rnti a.sciF2a.harqId.toNat := by
  unfold combinedWith Collecting.before
  rw [h.history]
  by_cases hndi : a.sciF2a.ndi ≠ 0
  · have hopens : (softInfo numRbs ω).opens a = true := decide_eq_true hndi
    rw [if_pos hndi, if_pos hopens]
    rfl
  · rw [if_neg hndi, if_neg (by simpa [softInfo] using hndi)]

theorem markCollision_block (cfg : PsschConfig) (collided : Finset Nat) (hfresh : tb.Fresh) :
    (PsschRx.markCollision cfg collided tb).2.isDataCorrupted = (PsschRx.markCollision cfg collided tb).1 ∧
      (PsschRx.markCollision cfg collided tb).2.expectedTb = tb.expectedTb := by
  unfold PsschRx.markCollision
  split
  next => exact ⟨rfl, rfl⟩
  next => exact ⟨hfresh.notCorrupted, rfl⟩

/-- One pass of the loop under the error model. -/
theorem receiveTb_ok {frames : List SlRxFrame} {collided : Finset Nat} {attempts : List (PsschAttempt numRbs ω)}
    {x : List (PsschAttempt numRbs ω) × NrHarqPhy ω × Nat} (hmodel : cfg.slDataErrorModelEnabled = true)
    (hfresh : tb.Fresh) (href : Reflects log harq drawn)
    (h : PsschRx.receiveTb cfg em random frames collided (attempts, harq, drawn) (rnti, tb) = .ok x) :
    ∃ a, x.1 = attempts ++ [a] ∧ Evaluated em random log a ∧ Reflects (log ++ [a]) x.2.1 x.2.2 := by
  obtain ⟨_, _, h⟩ := bind_ok_iff.mp h
  obtain ⟨frame, _, h⟩ := bind_ok_iff.mp h
  obtain ⟨sciF2a, _, h⟩ := bind_ok_iff.mp h
  dsimp only at h
  rw [if_pos hmodel] at h
  obtain ⟨_, _, h⟩ := bind_ok_iff.mp h
  obtain rfl := pure_ok_iff.mp h
  have hmarked := (markCollision_block cfg collided hfresh).1
  generalize PsschRx.markCollision cfg collided tb = marked at hmarked
  generalize hy : PsschRx.decodeTb em random _ drawn rnti sciF2a _ _ = y
  obtain ⟨_, corrupted, hblock, hcases⟩ := decodeTb_cases rfl rfl hy
  refine ⟨⟨rnti, y.1, sciF2a, marked.1, frame.packetBurst, drawn⟩, rfl,
    ⟨?_, ?_, decodeTb_corrupted hy hmarked, href.drawn⟩, ?_⟩
  · rw [href.outputsOf_combinedWith]
    show y.1.outputEmForData = _
    rw [hblock]
    rw [NrHarqPhy.harqInfoList_fst]
    split <;> rfl
  · show y.1.outputEmForSci2 = _
    rw [hblock]
  · apply href.next (decodeTb_harqStep hy hmarked frame.packetBurst)
    · rcases hcases with ⟨_, _, hlater⟩ | ⟨_, _, _, hlater⟩ | ⟨_, _, _, hlater⟩ <;> rw [hlater] <;> simp
    · intro hfree
      rcases hcases with ⟨hcollided, _⟩ | ⟨_, _, _, hlater⟩ | ⟨_, _, _, hlater⟩
      · rw [hcollided] at hfree
        cases hfree
      · rw [hlater]
      · rw [hlater]

/-- Every block that is waited for is fresh. -/
def FreshBlocks (tbs : Table Nat (SlTransportBlockInfo numRbs ω)) : Prop :=
  ∀ rnti tb, tbs.find? rnti = some tb → tb.Fresh

theorem freshBlocks_empty : FreshBlocks (Table.empty : Table Nat (SlTransportBlockInfo numRbs ω)) := by
  intro r tb htb
  cases htb

theorem FreshBlocks.put {tbs : Table Nat (SlTransportBlockInfo numRbs ω)} (h : FreshBlocks tbs)
    (htb : tb.Fresh) (rnti : Nat) : FreshBlocks (tbs.put rnti tb) := by
  intro r old hold
  by_cases hr : r = rnti
  · rw [hr, Table.find?_put_self] at hold
    rw [← Option.some.inj hold]
    exact htb
  · rw [Table.find?_put_ne _ _ hr] at hold
    exact h r old hold

theorem mapPacket_fresh {frames : List SlRxFrame} {sinr : List (SpectrumValue numRbs)} {indexes : List Nat}
    {tbs tbs' : Table Nat (SlTransportBlockInfo numRbs ω)} {i : Nat} (hfresh : FreshBlocks tbs)
    (h : PsschRx.mapPacket frames sinr indexes tbs i = .ok tbs') : FreshBlocks tbs' := by
  obtain ⟨pktIndex, _, h⟩ := bind_ok_iff.mp h
  obtain ⟨frame, _, h⟩ := bind_ok_iff.mp h
  obtain ⟨rnti, _, h⟩ := bind_ok_iff.mp h
  split at h
  next =>
    obtain rfl := pure_ok_iff.mp h
    exact hfresh
  next tb hfind =>
    obtain ⟨_, _, h⟩ := bind_ok_iff.mp h
    obtain ⟨_, _, h⟩ := bind_ok_iff.mp h
    obtain rfl := pure_ok_iff.mp h
    have htb := hfresh rnti tb hfind
    refine hfresh.put ?_ rnti
    exact ⟨htb.notCorrupted, htb.noData, htb.noSci2⟩

/-- The log is evaluated attempt by attempt. -/
def EvaluatedLog (em : NrErrorModel numRbs ω) (random : Nat → ℚ) (log : List (PsschAttempt numRbs ω)) : Prop :=
  ∀ past a rest, log = past ++ a :: rest → Evaluated em random past a

theorem EvaluatedLog.append_singleton (h : EvaluatedLog em random log) (ha : Evaluated em random log a) :
    EvaluatedLog em random (log ++ [a]) := by
  intro past b rest hsplit
  rcases List.eq_nil_or_concat rest with rfl | ⟨rest, last, rfl⟩
  · obtain ⟨rfl, hlast⟩ := List.append_inj' hsplit rfl
    rw [← List.singleton_inj.mp hlast]
    exact ha
  · rw [List.concat_eq_append, ← List.cons_append, ← List.append_assoc] at hsplit
    exact h past b rest (List.append_inj' hsplit rfl).1

end Steps

section Runs

variable {numRbs : Nat} {ω : Type} {cfg : PsschConfig} {em : NrErrorModel numRbs ω} {random : Nat → ℚ}

variable (cfg em random) in
/-- A block is announced or the announced ones are dropped, the table is traversed in another order,
the stream is drawn from elsewhere, or a reception ends. -/
inductive PsschStep (rx : PsschRx numRbs ω) : List (PsschAttempt numRbs ω) → PsschRx numRbs ω → Prop
  | addSlExpectedTb (rnti : Nat) (expectedTb : SlExpectedTb) (rx' : PsschRx numRbs ω)
      (h : rx.addSlExpectedTb rnti expectedTb = .ok rx') : PsschStep rx [] rx'
  | clearExpectedSlTb : PsschStep rx [] rx.clearExpectedSlTb
  | traverse (l : List (Nat × SlTransportBlockInfo numRbs ω)) (h : l.Perm rx.slTransportBlocks.entries) :
      PsschStep rx [] { rx with slTransportBlocks := rx.slTransportBlocks.reorder l h }
  | draw (count : Nat) : PsschStep rx [] { rx with drawn := rx.drawn + count }
  | endRxSlFrame (frames : List SlRxFrame) (sinr : List (SpectrumValue numRbs))
      (attempts : List (PsschAttempt numRbs ω)) (rx' : PsschRx numRbs ω)
      (h : rx.endRxSlFrame cfg em random frames sinr = .ok (attempts, rx')) : PsschStep rx attempts rx'

variable (cfg em random) in
/-- The attempts of a run from a receiver that has received nothing. -/
inductive PsschRun : List (PsschAttempt numRbs ω) → PsschRx numRbs ω → Prop
  | start (drawn : Nat) : PsschRun [] ⟨Table.empty, ⟨Table.empty, ∅⟩, drawn⟩
  | next (log attempts : List (PsschAttempt numRbs ω)) (rx rx' : PsschRx numRbs ω) (run : PsschRun log rx)
      (step : PsschStep cfg em random rx attempts rx') : PsschRun (log ++ attempts) rx'

variable {log attempts : List (PsschAttempt numRbs ω)} {rx rx' : PsschRx numRbs ω}

theorem rxSlPssch_reflects {frames : List SlRxFrame} {sinr : List (SpectrumValue numRbs)} {indexes : List Nat}
    (hmodel : cfg.slDataErrorModelEnabled = true) (hfresh : FreshBlocks rx.slTransportBlocks)
    (href : Reflects log rx.harqPhyModule rx.drawn) (hlog : EvaluatedLog em random log)
    (h : rx.rxSlPssch cfg em random frames sinr indexes = .ok (attempts, rx')) :
    FreshBlocks rx'.slTransportBlocks ∧ Reflects (log ++ attempts) rx'.harqPhyModule rx'.drawn ∧
      EvaluatedLog em random (log ++ attempts) := by
  obtain ⟨tbs, hmap, h⟩ := bind_ok_iff.mp h
  obtain ⟨⟨_, harq, drawn⟩, hloop, h⟩ := bind_ok_iff.mp h
  obtain ⟨rfl, rfl⟩ := Prod.mk.inj (pure_ok_iff.mp h)
  have hblocks : FreshBlocks tbs :=
    foldlM_invariant (fun _ _ _ _ hb hstep => mapPacket_fresh hb hstep) hmap hfresh
  have hall : ∀ e ∈ tbs.entries, e.2.Fresh :=
    fun e he => hblocks e.1 e.2 (Table.find?_eq_some_iff.mpr he)
  have hinv := foldlM_invariant (P := fun x : List (PsschAttempt numRbs ω) × NrHarqPhy ω × Nat =>
      Reflects (log ++ x.1) x.2.1 x.2.2 ∧ EvaluatedLog em random (log ++ x.1))
    (fun x e x' he hx hstep => ?_) hloop ⟨by simpa using href, by simpa using hlog⟩
  · exact ⟨freshBlocks_empty, hinv⟩
  · obtain ⟨a, hattempts, heval, hreflects⟩ := receiveTb_ok hmodel (hall e he) hx.1 hstep
    rw [hattempts, ← List.append_assoc]
    exact ⟨hreflects, hx.2.append_singleton heval⟩

theorem PsschRun.reflects (hmodel : cfg.slDataErrorModelEnabled = true) (hrun : PsschRun cfg em random log rx) :
    FreshBlocks rx.slTransportBlocks ∧ Reflects log rx.harqPhyModule rx.drawn ∧ EvaluatedLog em random log := by
  induction hrun with
  | start drawn =>
    refine ⟨freshBlocks_empty, ⟨fun r i => rfl, by simp, fun r i _ => ?_⟩, fun past a rest h => ?_⟩
    · simp [NrHarqPhy.isPrevDecoded, ownAttempts]
    · simp at h
  | next log attempts rx rx' run step ih =>
    obtain ⟨hfresh, href, hlog⟩ := ih
    cases step with
    | addSlExpectedTb rnti expectedTb rx' h =>
      obtain ⟨_, _, h⟩ := bind_ok_iff.mp h
      obtain rfl := pure_ok_iff.mp h
      rw [List.append_nil]
      exact ⟨hfresh.put ⟨rfl, rfl, rfl⟩ rnti, href, hlog⟩
    | clearExpectedSlTb =>
      rw [List.append_nil]
      exact ⟨freshBlocks_empty, href, hlog⟩
    | traverse l h =>
      rw [List.append_nil]
      refine ⟨fun r tb htb => hfresh r tb ?_, href, hlog⟩
      rw [← htb]
      exact (Table.find?_reorder h r).symm
    | draw count =>
      rw [List.append_nil]
      exact ⟨hfresh, ⟨href.history, fun a ha hfree => (href.drawn a ha hfree).trans (Nat.le_add_right _ _),
        href.decoded⟩, hlog⟩
    | endRxSlFrame frames sinr attempts rx' h =>
      unfold PsschRx.endRxSlFrame at h
      split at h
      next => exact rxSlPssch_reflects hmodel hfresh href hlog h
      next =>
        obtain ⟨rfl, rfl⟩ := Prod.mk.inj (pure_ok_iff.mp h)
        rw [List.append_nil]
        exact ⟨hfresh, href, hlog⟩

/-- What a block is combined with: the failed attempts of its process, those without a collision, since
the last new data or the last decoded block. -/
structure SoftCombined (em : NrErrorModel numRbs ω) (random : Nat → ℚ) (past : List (PsschAttempt numRbs ω))
    (a : PsschAttempt numRbs ω) : Prop where
  evaluated : Evaluated em random past a
  combined : ∃ older recent, ownAttempts a.rnti a.sciF2a.harqId.toNat past = older ++ recent ∧
    combinedWith past a = recent.filter (fun b => !b.rbCollided) ∧
    (∀ b ∈ recent, b.tb.isDataCorrupted = true) ∧ (∀ b ∈ recent.tail, b.sciF2a.ndi = 0) ∧
    (a.sciF2a.ndi ≠ 0 → recent = []) ∧
    (older = [] ∨ a.sciF2a.ndi ≠ 0 ∨ (∃ b, recent.head? = some b ∧ b.sciF2a.ndi ≠ 0) ∨
      ∃ b, older.getLast? = some b ∧ b.tb.isDataCorrupted = false)

theorem filterMap_item (l : List (PsschAttempt numRbs ω)) :
    l.filterMap (softInfo numRbs ω).item = l.filter fun b => !b.rbCollided := by
  rw [← List.filterMap_eq_filter]
  apply List.filterMap_congr
  intro b _
  show (if b.rbCollided = true then none else some b) = Option.guard _ b
  cases hb : b.rbCollided <;> simp [Option.guard, hb]

theorem Evaluated.combinesOwn {past : List (PsschAttempt numRbs ω)} {a : PsschAttempt numRbs ω}
    (h : Evaluated em random past a) : SoftCombined em random past a where
  evaluated := h
  combined := by
    by_cases hndi : a.sciF2a.ndi ≠ 0
    · refine ⟨ownAttempts a.rnti a.sciF2a.harqId.toNat past, [], by simp, ?_, by simp, by simp, by simp,
        Or.inr (Or.inl hndi)⟩
      exact if_pos (decide_eq_true hndi)
    · obtain ⟨older, recent, hown, hcollect, hopen, hplain, hstart⟩ := (softInfo numRbs ω).collect_eq
        (ownAttempts a.rnti a.sciF2a.harqId.toNat past)
      refine ⟨older, recent, hown, ?_, fun b hb => by simpa [softInfo] using hopen b hb,
        fun b hb => by simpa [softInfo] using (hplain b hb).1, fun h => absurd h hndi, ?_⟩
      · rw [← filterMap_item, ← hcollect]
        exact if_neg (by simpa [softInfo] using hndi)
      · rcases hstart with hnil | ⟨b, hb, hopens⟩ | ⟨b, hb, hcloses⟩
        · exact Or.inl hnil
        · exact Or.inr (Or.inr (Or.inl ⟨b, hb, by simpa [softInfo] using hopens⟩))
        · exact Or.inr (Or.inr (Or.inr ⟨b, hb, by simpa [softInfo] using hcloses⟩))

/-- Under the error model every block is decoded with the failed attempts of its own process since the
last restart; a process is marked as decoded by the attempts since its last new data. -/
theorem PsschRun.softCombined (hmodel : cfg.slDataErrorModelEnabled = true)
    (hrun : PsschRun cfg em random log rx) :
    (∀ past a rest, log = past ++ a :: rest → SoftCombined em random past a) ∧
      ∀ r i, i < 256 → (rx.harqPhyModule.isPrevDecoded r i = true ↔
        ∃ past a rest, ownAttempts r i log = past ++ a :: rest ∧ a.tb.isDataCorrupted = false ∧
          ∀ b ∈ rest, b.sciF2a.ndi = 0) := by
  obtain ⟨_, href, hlog⟩ := hrun.reflects hmodel
  exact ⟨fun past a rest hsplit => (hlog past a rest hsplit).combinesOwn, href.decoded⟩

theorem plain_iff {b : PsschAttempt numRbs ω} :
    (softInfo numRbs ω).opens b = false ∧ (softInfo numRbs ω).closes b = false ↔
      b.sciF2a.ndi = 0 ∧ b.tb.isDataCorrupted = true := by
  simp [softInfo]

/-- A block is combined with attempts of another block exactly when its new data was missed, none of
its attempts was decoded, and the attempts of earlier blocks left something. -/
theorem PsschRun.mixesBlocks_iff (hmodel : cfg.slDataErrorModelEnabled = true)
    (hrun : PsschRun cfg em random log rx) (tbOf : List SlRxPacket → Nat)
    {past rest : List (PsschAttempt numRbs ω)} {a : PsschAttempt numRbs ω} (hlog : log = past ++ a :: rest)
    (hrising : (ownAttempts a.rnti a.sciF2a.harqId.toNat (past ++ [a])).Pairwise
      fun b c => tbOf b.packetBurst ≤ tbOf c.packetBurst) :
    let own := ownAttempts a.rnti a.sciF2a.harqId.toNat past
    a.tb.outputEmForData = some (em.getTbDecodificationStats a.tb.sinrPerceived a.tb.expectedTb.rbBitmap
      a.tb.expectedTb.tbSize a.tb.expectedTb.mcs (outputsOf (combinedWith past a))) ∧
    ((∃ b ∈ combinedWith past a, tbOf b.packetBurst ≠ tbOf a.packetBurst) ↔
      a.sciF2a.ndi = 0 ∧
      (∀ b ∈ own, tbOf b.packetBurst = tbOf a.packetBurst → b.sciF2a.ndi = 0 ∧ b.tb.isDataCorrupted = true) ∧
      ∃ before b after, own.filter (fun b => decide (tbOf b.packetBurst < tbOf a.packetBurst)) =
        before ++ b :: after ∧ b.rbCollided = false ∧ b.tb.isDataCorrupted = true ∧
        ∀ c ∈ after, c.sciF2a.ndi = 0 ∧ c.tb.isDataCorrupted = true) := by
  intro own
  refine ⟨((hrun.reflects hmodel).2.2 past a rest hlog).data, ?_⟩
  rw [ownAttempts_append, if_pos ⟨rfl, rfl⟩] at hrising
  have hmark : ∀ a b, (softInfo numRbs ω).item a = some b → tbOf b.packetBurst = tbOf a.packetBurst := by
    intro a b hitem
    by_cases hfree : a.rbCollided = true
    · simp [softInfo, hfree] at hitem
    · obtain rfl : a = b := by simpa [softInfo, hfree] using hitem
      rfl
  refine (Collecting.mixes_iff hmark hrising).trans (Iff.and ?_ (Iff.and ?_ ?_))
  · simp [softInfo]
  · constructor
    · intro hplain b hb htb
      exact plain_iff.mp (hplain b (List.mem_filter.mpr ⟨hb, decide_eq_true htb⟩))
    · intro hall b hb
      obtain ⟨hown, htb⟩ := List.mem_filter.mp hb
      exact plain_iff.mpr (hall b hown (of_decide_eq_true htb))
  · constructor
    · intro hleft
      obtain ⟨b, hb⟩ := List.exists_mem_of_ne_nil _ hleft
      obtain ⟨before, b', after, hsplit, hitem, hcloses, hplain⟩ := Collecting.mem_collect_iff.mp hb
      have hfree : b'.rbCollided = false := by
        by_contra hcollided
        simp [softInfo, hcollided] at hitem
      exact ⟨before, b', after, hsplit, hfree, by simpa [softInfo] using hcloses,
        fun c hc => plain_iff.mp (hplain c hc)⟩
    · intro ⟨before, b, after, hsplit, hfree, hcorrupted, hafter⟩
      apply List.ne_nil_of_mem (a := b)
      exact Collecting.mem_collect_iff.mpr ⟨before, b, after, hsplit, by simp [softInfo, hfree],
        by simp [softInfo, hcorrupted], fun c hc => plain_iff.mpr (hafter c hc)⟩

end Runs

/-- Two packet bursts of UE 7 on process 3, the first with the flag of new data. -/
def newDataBurst : List SlRxPacket := [.tagged 7, .untagged [56, 14, 1, 254, 0]]

def reTxBurst : List SlRxPacket := [.tagged 7, .untagged [50, 14, 1, 254, 0]]

/-- Data is decoded when it is combined with anything. -/
def combiningModel : NrErrorModel 1 Nat where
  getTbDecodificationStats := fun _ _ size _ history => if size = 5 then 1 else history.length
  tbler := fun combined => if combined = 0 then 1 else 0

def ones : Nat → ℚ := fun _ => 1

def receiveOnce (rx : PsschRx 1 Nat) (sfn : Nat) (burst : List SlRxPacket) :
    Except PsschFault (List (PsschAttempt 1 Nat) × PsschRx 1 Nat) := do
  let rx ← rx.addSlExpectedTb 7 ⟨255, 300, 14, [0], 2, 11, sfn⟩
  rx.endRxSlFrame ⟨true, true⟩ combiningModel ones [⟨true, burst⟩] [1]

def receiveTwice : Except PsschFault (List (PsschAttempt 1 Nat) × PsschRx 1 Nat) := do
  let (first, rx) ← receiveOnce ⟨Table.empty, ⟨Table.empty, ∅⟩, 0⟩ 5 newDataBurst
  let (second, rx) ← receiveOnce rx 8 reTxBurst
  pure (first ++ second, rx)

structure PsschOutcome where
  rnti : Nat
  harqId : Nat
  ndi : UInt8
  rbCollided : Bool
  isDataCorrupted : Bool
  packetBurst : List SlRxPacket
  deriving DecidableEq

def outcome (a : PsschAttempt 1 Nat) : PsschOutcome :=
  ⟨a.rnti, a.sciF2a.harqId.toNat, a.sciF2a.ndi, a.rbCollided, a.tb.isDataCorrupted, a.packetBurst⟩

theorem receiveOnce_run {log attempts : List (PsschAttempt 1 Nat)} {rx rx' : PsschRx 1 Nat} {sfn : Nat}
    {burst : List SlRxPacket} (hrun : PsschRun ⟨true, true⟩ combiningModel ones log rx)
    (h : receiveOnce rx sfn burst = .ok (attempts, rx')) :
    PsschRun ⟨true, true⟩ combiningModel ones (log ++ attempts) rx' := by
  obtain ⟨waiting, hadd, hend⟩ := bind_ok_iff.mp h
  have hwaiting := hrun.next _ _ _ _ (.addSlExpectedTb _ _ _ hadd)
  rw [List.append_nil] at hwaiting
  exact hwaiting.next _ _ _ _ (.endRxSlFrame _ _ _ _ hend)

theorem receiveTwice_run : ∃ first second rx, PsschRun ⟨true, true⟩ combiningModel ones [first, second] rx ∧
    outcome first = ⟨7, 3, 1, false, true, newDataBurst⟩ ∧ outcome second = ⟨7, 3, 0, false, false, reTxBurst⟩ := by
  have houtcomes : receiveTwice.toOption.map (fun x => x.1.map outcome) =
      some [⟨7, 3, 1, false, true, newDataBurst⟩, ⟨7, 3, 0, false, false, reTxBurst⟩] := by decide
  cases hrx : receiveTwice with
  | error e =>
    rw [hrx] at houtcomes
    cases houtcomes
  | ok x =>
    obtain ⟨⟨l₁, rx₁⟩, h₁, hrest⟩ := bind_ok_iff.mp hrx
    obtain ⟨⟨l₂, rx₂⟩, h₂, hrest⟩ := bind_ok_iff.mp hrest
    obtain rfl := pure_ok_iff.mp hrest
    have hrun := receiveOnce_run (receiveOnce_run (.start 0) h₁) h₂
    rw [List.nil_append] at hrun
    rw [hrx] at houtcomes
    have hmap := Option.some.inj houtcomes
    dsimp only at hmap
    obtain ⟨first, tail, hlog, hfirst, htail⟩ := List.map_eq_cons_iff.mp hmap
    obtain ⟨second, last, rfl, hsecond, hlast⟩ := List.map_eq_cons_iff.mp htail
    rw [hlog, List.map_eq_nil_iff.mp hlast] at hrun
    exact ⟨first, second, rx₂, hrun, hfirst, hsecond⟩

/-- The second block is decoded with what the first has left. -/
theorem PsschRun.softCombined_twice : ∃ first second rx,
    PsschRun ⟨true, true⟩ combiningModel ones [first, second] rx ∧
      SoftCombined combiningModel ones [first] second ∧ second.tb.isDataCorrupted = false := by
  obtain ⟨first, second, rx, hrun, _, hsecond⟩ := receiveTwice_run
  exact ⟨first, second, rx, hrun, (PsschRun.softCombined rfl hrun).1 [first] second [] rfl,
    congrArg PsschOutcome.isDataCorrupted hsecond⟩

/-- The bursts are of two blocks: the new data of the second was missed, and its retransmission is
combined with the first. -/
theorem PsschRun.mixesBlocks_iff_missed : ∃ first second rx,
    PsschRun ⟨true, true⟩ combiningModel ones [first, second] rx ∧
      ∃ b ∈ combinedWith [first] second, b.packetBurst = newDataBurst ∧ second.packetBurst = reTxBurst := by
  obtain ⟨first, second, rx, hrun, hfirst, hsecond⟩ := receiveTwice_run
  have hrnti := congrArg PsschOutcome.rnti hfirst
  have hharq := congrArg PsschOutcome.harqId hfirst
  have hburst : first.packetBurst = newDataBurst := congrArg PsschOutcome.packetBurst hfirst
  have hburst' : second.packetBurst = reTxBurst := congrArg PsschOutcome.packetBurst hsecond
  have hrnti' := congrArg PsschOutcome.rnti hsecond
  have hharq' := congrArg PsschOutcome.harqId hsecond
  dsimp only [outcome] at hrnti hharq hrnti' hharq'
  have hown : ownAttempts second.rnti second.sciF2a.harqId.toNat [first] = [first] := by
    rw [hrnti', hharq']
    exact List.filter_cons_of_pos (decide_eq_true ⟨hrnti, hharq⟩)
  have hown' : ownAttempts second.rnti second.sciF2a.harqId.toNat ([first] ++ [second]) = [first, second] := by
    rw [ownAttempts_append, hown, if_pos ⟨rfl, rfl⟩]
    rfl
  let tbOf : List SlRxPacket → Nat := fun burst => if burst = newDataBurst then 0 else 1
  have hfirstTb : tbOf first.packetBurst = 0 := if_pos hburst
  have hsecondTb : tbOf second.packetBurst = 1 := if_neg (hburst' ▸ by decide)
  have hmixes := (PsschRun.mixesBlocks_iff rfl hrun tbOf (show [first, second] = [first] ++ second :: [] from rfl)
    (by rw [hown']; simp [hfirstTb])).2.mpr ?_
  · obtain ⟨b, hb, hother⟩ := hmixes
    refine ⟨first, second, rx, hrun, b, hb, ?_, hburst'⟩
    rw [hsecondTb] at hother
    by_contra hnot
    exact hother (if_neg hnot)
  · rw [hown]
    refine ⟨congrArg PsschOutcome.ndi hsecond, ?_, [], first, [], ?_, congrArg PsschOutcome.rbCollided hfirst,
      congrArg PsschOutcome.isDataCorrupted hfirst, by simp⟩
    · intro b hb htb
      rw [List.mem_singleton.mp hb, hfirstTb, hsecondTb] at htb
      omega
    · exact List.filter_cons_of_pos (decide_eq_true (by omega))

end SidelinkORe
