import SidelinkORe.SoftCombining

namespace SidelinkORe

section Matching

variable {numRbs : Nat} {ω : Type} {cfg : PsschConfig} {em : NrErrorModel numRbs ω} {random : Nat → ℚ}
  {frames : List SlRxFrame} {sinr : List (SpectrumValue numRbs)} {tags : List Nat}
  {log attempts : List (PsschAttempt numRbs ω)} {rx rx' : PsschRx numRbs ω}
  {tbs tbs' : Table Nat (SlTransportBlockInfo numRbs ω)}

/-- The frames of a reception are of the PSSCH, each with a tag in front, a SCI of stage 2 and a SINR. -/
structure PsschArrivals (frames : List SlRxFrame) (sinr : List (SpectrumValue numRbs)) (tags : List Nat) :
    Prop where
  data : ∀ frame ∈ frames, frame.isData = true
  tagged : frames.map (fun frame => PsschRx.tagRnti frame.packetBurst) = tags.map .ok
  sci2 : ∀ frame ∈ frames, ∃ sciF2a, PsschRx.retrieveSci2FromPktBurst frame.packetBurst = .ok sciF2a
  measured : frames.length ≤ sinr.length

/-- The blocks that are waited for lie in the bandwidth. -/
def InBandwidth (tbs : Table Nat (SlTransportBlockInfo numRbs ω)) : Prop :=
  ∀ rnti tb, tbs.find? rnti = some tb → tb.expectedTb.rbBitmap ≠ [] ∧ ∀ rb ∈ tb.expectedTb.rbBitmap, rb < numRbs

/-- Nothing has been received for the blocks. -/
def Waiting (tbs : Table Nat (SlTransportBlockInfo numRbs ω)) : Prop :=
  ∀ rnti tb, tbs.find? rnti = some tb → tb = { expectedTb := tb.expectedTb }

/-- Frame `i` is the last one before frame `k` with the tag of the RNTI. -/
def LastTagged (tags : List Nat) (k rnti i : Nat) : Prop :=
  i < k ∧ tags[i]? = some rnti ∧ ∀ j, i < j → j < k → tags[j]? ≠ some rnti

/-- A block after the first `k` frames: the last frame of its RNTI has updated it. -/
structure MappedBlock (sinr : List (SpectrumValue numRbs)) (tags : List Nat) (k rnti : Nat)
    (tb : SlTransportBlockInfo numRbs ω) : Prop where
  notCorrupted : tb.isDataCorrupted = false
  missed : tb.sinrUpdated = false → rnti ∉ tags.take k
  updated : tb.sinrUpdated = true → LastTagged tags k rnti tb.pktIndex ∧ sinr[tb.pktIndex]? = some tb.sinrPerceived

/-- The table after the first `k` frames. -/
structure Mapped (sinr : List (SpectrumValue numRbs)) (tags : List Nat) (k : Nat)
    (before tbs : Table Nat (SlTransportBlockInfo numRbs ω)) : Prop where
  blocks : tbs.entries.map (fun e => (e.1, e.2.expectedTb)) = before.entries.map fun e => (e.1, e.2.expectedTb)
  mapped : ∀ rnti tb, tbs.find? rnti = some tb → MappedBlock sinr tags k rnti tb

theorem getSinrStats_ok {v : SpectrumValue numRbs} {rbBitmap : List Nat} (h : ∀ rb ∈ rbBitmap, rb < numRbs) :
    ∃ stats, PsschRx.getSinrStats v rbBitmap = .ok stats := by
  have hvalues : ∃ values, rbBitmap.mapM (PsschRx.valuesAt v) = .ok values := by
    induction rbBitmap with
    | nil => exact ⟨[], rfl⟩
    | cons rb rest ih =>
      obtain ⟨hrb, hrest⟩ := List.forall_mem_cons.mp h
      obtain ⟨values, hmap⟩ := ih hrest
      refine ⟨v ⟨rb, hrb⟩ :: values, ?_⟩
      rw [List.mapM_cons, bind_of_ok (show PsschRx.valuesAt v rb = .ok (v ⟨rb, hrb⟩) from dif_pos hrb),
        bind_of_ok hmap]
      rfl
  obtain ⟨values, hmap⟩ := hvalues
  exact ⟨_, bind_of_ok hmap⟩

theorem psschIndexes_data (h : ∀ frame ∈ frames, frame.isData = true) :
    PsschRx.psschIndexes frames = List.range frames.length := by
  have hsome : ∀ p ∈ frames.zipIdx, (if p.1.isData = true then some p.2 else none) = some p.2 :=
    fun p hp => if_pos (h p.1 (List.fst_mem_of_mem_zipIdx hp))
  unfold PsschRx.psschIndexes
  rw [List.filterMap_congr hsome, List.filterMap_eq_map', List.zipIdx_map_snd, List.range_eq_range']

theorem PsschArrivals.tag (harr : PsschArrivals frames sinr tags) {i : Nat} (hi : i < frames.length) :
    ∃ frame rnti, frames[i]? = some frame ∧ tags[i]? = some rnti ∧
      PsschRx.tagRnti frame.packetBurst = .ok rnti := by
  have hlength : frames.length = tags.length := by simpa using congrArg List.length harr.tagged
  have hget := congrArg (fun l => l[i]?) harr.tagged
  simp only [List.getElem?_map, List.getElem?_eq_getElem hi, List.getElem?_eq_getElem (hlength ▸ hi),
    Option.map_some] at hget
  exact ⟨_, _, List.getElem?_eq_getElem hi, List.getElem?_eq_getElem (hlength ▸ hi), Option.some.inj hget⟩

/-- A frame is mapped to the block of its tag, when there is one. -/
theorem mapPacket_eq (harr : PsschArrivals frames sinr tags) (hrbs : InBandwidth tbs) {i : Nat}
    (hi : i < frames.length) : ∃ rnti v sinrAvg sinrMin, tags[i]? = some rnti ∧ sinr[i]? = some v ∧
      PsschRx.mapPacket frames sinr (PsschRx.psschIndexes frames) tbs i = .ok (match tbs.find? rnti with
        | none => tbs
        | some tb => tbs.put rnti { tb with
            sinrPerceived := v
            pktIndex := i
            sinrUpdated := true
            sinrAvg := sinrAvg
            sinrMin := sinrMin }) := by
  obtain ⟨frame, rnti, hframe, htag, hrnti⟩ := harr.tag hi
  have hmeasured := harr.measured
  have hsinr : sinr[i]? = some sinr[i] := List.getElem?_eq_getElem (by omega)
  have hindex : (PsschRx.psschIndexes frames)[i]? = some i := by
    rw [psschIndexes_data harr.data, List.getElem?_range hi]
  cases hfind : tbs.find? rnti with
  | none =>
    refine ⟨rnti, sinr[i], 0, 0, htag, hsinr, ?_⟩
    unfold PsschRx.mapPacket
    rw [bind_of_ok (orFault_ok_iff.mpr hindex), bind_of_ok (orFault_ok_iff.mpr hframe), bind_of_ok hrnti,
      hfind]
    rfl
  | some tb =>
    obtain ⟨⟨sinrAvg, sinrMin⟩, hstats⟩ := getSinrStats_ok (v := sinr[i]) (hrbs rnti tb hfind).2
    refine ⟨rnti, sinr[i], sinrAvg, sinrMin, htag, hsinr, ?_⟩
    unfold PsschRx.mapPacket
    rw [bind_of_ok (orFault_ok_iff.mpr hindex), bind_of_ok (orFault_ok_iff.mpr hframe), bind_of_ok hrnti,
      hfind]
    dsimp only
    rw [bind_of_ok (orFault_ok_iff.mpr hsinr), bind_of_ok hstats]
    rfl

theorem Waiting.mapped (h : Waiting tbs) : Mapped sinr tags 0 tbs tbs where
  blocks := rfl
  mapped := by
    intro rnti tb hfind
    rw [h rnti tb hfind]
    refine ⟨rfl, fun _ => ?_, fun hupdated => ?_⟩
    · simp
    · cases hupdated

theorem MappedBlock.other {k rnti other : Nat} {tb : SlTransportBlockInfo numRbs ω}
    (h : MappedBlock sinr tags k rnti tb) (hk : tags[k]? = some other) (hne : rnti ≠ other) :
    MappedBlock sinr tags (k + 1) rnti tb where
  notCorrupted := h.notCorrupted
  missed := by
    intro hmissed hin
    rw [List.take_add_one, hk] at hin
    rcases List.mem_append.mp hin with hin | hin
    · exact h.missed hmissed hin
    · exact hne (by simpa using hin)
  updated := by
    intro hupdated
    obtain ⟨⟨hlt, htag, hlater⟩, hsinr⟩ := h.updated hupdated
    refine ⟨⟨by omega, htag, fun j hij hjk => ?_⟩, hsinr⟩
    by_cases hj : j = k
    · rw [hj, hk]
      exact fun heq => hne (Option.some.inj heq).symm
    · exact hlater j hij (by omega)

theorem Mapped.next {k : Nat} (h : Mapped sinr tags k tbs tbs') (harr : PsschArrivals frames sinr tags)
    (hrbs : InBandwidth tbs') (hk : k < frames.length) : ∃ next,
    PsschRx.mapPacket frames sinr (PsschRx.psschIndexes frames) tbs' k = .ok next ∧
      Mapped sinr tags (k + 1) tbs next := by
  obtain ⟨rnti, v, sinrAvg, sinrMin, htag, hsinr, hmap⟩ := mapPacket_eq harr hrbs hk
  refine ⟨_, hmap, ?_⟩
  cases hfind : tbs'.find? rnti with
  | none =>
    refine ⟨h.blocks, fun r tb hr => (h.mapped r tb hr).other htag fun heq => ?_⟩
    rw [heq, hfind] at hr
    cases hr
  | some tb =>
    refine ⟨Eq.trans (Table.map_entries_put hfind rfl) h.blocks, fun r old hold => ?_⟩
    by_cases hr : r = rnti
    · rw [hr] at hold ⊢
      rw [Table.find?_put_self] at hold
      rw [← Option.some.inj hold]
      refine ⟨(h.mapped rnti tb hfind).notCorrupted, fun hmissed => ?_, fun _ => ⟨⟨?_, htag, ?_⟩, hsinr⟩⟩
      · cases hmissed
      · show k < k + 1
        omega
      · intro j hkj hjk
        have hlt : k < j := hkj
        omega
    · rw [Table.find?_put_ne _ _ hr] at hold
      exact (h.mapped r old hold).other htag hr

theorem Mapped.inBandwidth {k : Nat} (h : Mapped sinr tags k tbs tbs') (hrbs : InBandwidth tbs) :
    InBandwidth tbs' := by
  intro rnti tb hfind
  have hmem := List.mem_map_of_mem (f := fun e => (e.1, e.2.expectedTb)) (Table.find?_eq_some_iff.mp hfind)
  rw [h.blocks] at hmem
  obtain ⟨⟨r, old⟩, hold, heq⟩ := List.mem_map.mp hmem
  obtain ⟨rfl, hsame⟩ := Prod.mk.inj heq
  rw [← hsame]
  exact hrbs r old (Table.find?_eq_some_iff.mpr hold)

/-- The first loop of `RxSlPssch` always ends. -/
theorem mapPackets (hwaiting : Waiting tbs) (harr : PsschArrivals frames sinr tags) (hrbs : InBandwidth tbs)
    {k : Nat} (hk : k ≤ frames.length) : ∃ next,
    (List.range k).foldlM (PsschRx.mapPacket frames sinr (PsschRx.psschIndexes frames)) tbs = .ok next ∧
      Mapped sinr tags k tbs next := by
  induction k with
  | zero => exact ⟨tbs, rfl, hwaiting.mapped⟩
  | succ k ih =>
    obtain ⟨mid, hmid, hmapped⟩ := ih (by omega)
    obtain ⟨next, hnext, hdone⟩ := hmapped.next harr (hmapped.inBandwidth hrbs) (by omega)
    refine ⟨next, ?_, hdone⟩
    rw [List.range_succ, List.foldlM_append, bind_of_ok hmid, List.foldlM_cons, bind_of_ok hnext]
    rfl

end Matching

section Collisions

variable {numRbs : Nat} {ω : Type}

/-- The RBs that collide are those that occur twice. -/
theorem mem_foldl_collideRb (rbs : List Nat) (rb : Nat) :
    (rb ∈ (rbs.foldl PsschRx.collideRb (∅, ∅)).1 ↔ rb ∈ rbs) ∧
      (rb ∈ (rbs.foldl PsschRx.collideRb (∅, ∅)).2 ↔ 2 ≤ rbs.count rb) := by
  induction rbs using List.reverseRecOn generalizing rb with
  | nil => simp
  | append_singleton rbs last ih =>
    obtain ⟨hseen, hcollided⟩ := ih rb
    have hlast := (ih last).1
    rw [List.foldl_append, List.count_append, List.mem_append, List.mem_singleton]
    generalize rbs.foldl PsschRx.collideRb (∅, ∅) = acc at hseen hcollided hlast
    show (rb ∈ (PsschRx.collideRb acc last).1 ↔ _) ∧ (rb ∈ (PsschRx.collideRb acc last).2 ↔ _)
    unfold PsschRx.collideRb
    simp only [hlast]
    by_cases hrb : rb = last
    · subst hrb
      have hcount : rb ∈ rbs ↔ 0 < rbs.count rb := List.count_pos_iff.symm
      have hone : [rb].count rb = 1 := List.count_singleton_self
      split
      next hin =>
        have hpos := hcount.mp hin
        simp only [hseen, Finset.mem_insert, true_or, true_iff, hin, hone]
        exact ⟨trivial, by omega⟩
      next hnot =>
        have hzero : ¬0 < rbs.count rb := fun h => hnot (hcount.mpr h)
        simp only [Finset.mem_insert, true_or, or_true, hcollided, hone, true_and]
        omega
    · have hzero : [last].count rb = 0 := List.count_eq_zero.mpr (by simpa using hrb)
      split <;> simp only [Finset.mem_insert, hrb, false_or, or_false, hseen, hcollided, hzero,
        Nat.add_zero, and_self]

theorem mem_psschCollidedRbs {cfg : PsschConfig} {tbs : List (Nat × SlTransportBlockInfo numRbs ω)} {rb : Nat} :
    rb ∈ PsschRx.psschCollidedRbs cfg tbs ↔ cfg.dropTbOnRbCollisionEnabled = true ∧
      2 ≤ (tbs.flatMap fun e => e.2.expectedTb.rbBitmap).count rb := by
  unfold PsschRx.psschCollidedRbs
  split
  next h => rw [(mem_foldl_collideRb _ rb).2, and_iff_right h]
  next h => simp [h]

end Collisions

section Reception

variable {numRbs : Nat} {ω : Type} {cfg : PsschConfig} {em : NrErrorModel numRbs ω} {random : Nat → ℚ}
  {frames : List SlRxFrame} {sinr : List (SpectrumValue numRbs)} {tags : List Nat}
  {log attempts : List (PsschAttempt numRbs ω)} {rx rx' : PsschRx numRbs ω}
  {tbs : Table Nat (SlTransportBlockInfo numRbs ω)}

/-- An attempt is on the last frame of its RNTI and with the SINR of that frame; a collision loses the
block, and without the error model nothing else does. -/
structure Attempted (cfg : PsschConfig) (frames : List SlRxFrame) (sinr : List (SpectrumValue numRbs))
    (tags : List Nat) (a : PsschAttempt numRbs ω) : Prop where
  frame : ∃ i, LastTagged tags frames.length a.rnti i ∧ sinr[i]? = some a.tb.sinrPerceived ∧
    ∃ frame, frames[i]? = some frame ∧ a.packetBurst = frame.packetBurst ∧
      PsschRx.retrieveSci2FromPktBurst frame.packetBurst = .ok a.sciF2a
  lost : a.rbCollided = true → a.tb.isDataCorrupted = true
  ideal : cfg.slDataErrorModelEnabled = false → a.tb.isDataCorrupted = a.rbCollided

/-- The attempt at a block collides when it shares an RB with another block of the reception. -/
structure AttemptOf (cfg : PsschConfig) (frames : List SlRxFrame) (sinr : List (SpectrumValue numRbs))
    (tags : List Nat) (blocks : List (Nat × SlExpectedTb)) (block : Nat × SlExpectedTb)
    (a : PsschAttempt numRbs ω) : Prop where
  same : (a.rnti, a.tb.expectedTb) = block
  attempted : Attempted cfg frames sinr tags a
  collided : a.rbCollided = true ↔ cfg.dropTbOnRbCollisionEnabled = true ∧
    ∃ rb ∈ block.2.rbBitmap, 2 ≤ (blocks.flatMap fun b => b.2.rbBitmap).count rb

theorem decodeTb_keeps {harq : NrHarqPhy ω} {drawn rnti : Nat} {sciF2a : NrSlSciF2aHeader} {rbCollided : Bool}
    {tb : SlTransportBlockInfo numRbs ω} (y : SlTransportBlockInfo numRbs ω × NrHarqPhy ω × Nat)
    (hy : (if cfg.slDataErrorModelEnabled = true then
      PsschRx.decodeTb em random harq drawn rnti sciF2a rbCollided tb else (tb, harq, drawn)) = y) :
    y.1.expectedTb = tb.expectedTb ∧ y.1.sinrPerceived = tb.sinrPerceived ∧
      (rbCollided = true ∨ cfg.slDataErrorModelEnabled = false → y.1.isDataCorrupted = tb.isDataCorrupted) := by
  split at hy
  next hmodel =>
    obtain ⟨_, _, hblock, hcases⟩ := decodeTb_cases rfl rfl hy
    rw [hblock]
    refine ⟨rfl, rfl, fun h => ?_⟩
    rcases hcases with ⟨_, hsame, _⟩ | ⟨hfree, _⟩ | ⟨hfree, _⟩
    · exact hsame
    · simp [hfree, hmodel] at h
    · simp [hfree, hmodel] at h
  next =>
    rw [← hy]
    exact ⟨rfl, rfl, fun _ => rfl⟩

theorem receiveTb_updated (harr : PsschArrivals frames sinr tags) {collided : Finset Nat}
    {tb : SlTransportBlockInfo numRbs ω} {rnti : Nat} (hmapped : MappedBlock sinr tags frames.length rnti tb)
    (hupdated : tb.sinrUpdated = true) (hrbs : tb.expectedTb.rbBitmap ≠ [])
    (x : List (PsschAttempt numRbs ω) × NrHarqPhy ω × Nat) : ∃ a harq drawn,
    PsschRx.receiveTb cfg em random frames collided x (rnti, tb) = .ok (x.1 ++ [a], harq, drawn) ∧
      (a.rnti, a.tb.expectedTb) = (rnti, tb.expectedTb) ∧ Attempted cfg frames sinr tags a ∧
      (a.rbCollided = true ↔ cfg.dropTbOnRbCollisionEnabled = true ∧ ∃ rb ∈ tb.expectedTb.rbBitmap, rb ∈ collided) := by
  obtain ⟨hlast, hsinr⟩ := hmapped.updated hupdated
  obtain ⟨frame, _, hframe, _⟩ := harr.tag hlast.1
  obtain ⟨sciF2a, hsci⟩ := harr.sci2 frame (List.mem_of_getElem? hframe)
  obtain ⟨attempts, harq, drawn⟩ := x
  unfold PsschRx.receiveTb
  dsimp only
  rw [bind_of_ok (a := ()) (require_ok_iff.mpr hupdated), bind_of_ok (orFault_ok_iff.mpr hframe),
    bind_of_ok hsci]
  have hmarked : (PsschRx.markCollision cfg collided tb).2.expectedTb = tb.expectedTb ∧
      (PsschRx.markCollision cfg collided tb).2.sinrPerceived = tb.sinrPerceived ∧
      (PsschRx.markCollision cfg collided tb).2.isDataCorrupted = (PsschRx.markCollision cfg collided tb).1 ∧
      ((PsschRx.markCollision cfg collided tb).1 = true ↔
        cfg.dropTbOnRbCollisionEnabled = true ∧ ∃ rb ∈ tb.expectedTb.rbBitmap, rb ∈ collided) := by
    unfold PsschRx.markCollision
    split
    next h => exact ⟨rfl, rfl, rfl, by simp [h]⟩
    next h => exact ⟨rfl, rfl, hmapped.notCorrupted, by simp [h]⟩
  generalize PsschRx.markCollision cfg collided tb = marked at hmarked
  generalize hy : (if cfg.slDataErrorModelEnabled = true then _ else _) = y
  obtain ⟨hblock, hperceived, hcorrupted⟩ := decodeTb_keeps y hy
  rw [hmarked.1] at hblock
  rw [hmarked.2.1] at hperceived
  rw [hmarked.2.2.1] at hcorrupted
  rw [bind_of_ok (a := ()) (require_ok_iff.mpr (hblock ▸ hrbs))]
  refine ⟨⟨rnti, y.1, sciF2a, marked.1, frame.packetBurst, drawn⟩, y.2.1, y.2.2, rfl, ?_,
    ⟨⟨tb.pktIndex, hlast, ?_, frame, hframe, rfl, hsci⟩, fun h => ?_, fun h => hcorrupted (Or.inr h)⟩,
    hmarked.2.2.2⟩
  · rw [hblock]
  · rw [hperceived]
    exact hsinr
  · exact (hcorrupted (Or.inl h)).trans h

/-- Every block is attempted when a frame has come for each of them. -/
theorem receiveTbs_updated (harr : PsschArrivals frames sinr tags) {collided : Finset Nat}
    {entries : List (Nat × SlTransportBlockInfo numRbs ω)}
    (hmapped : ∀ e ∈ entries, MappedBlock sinr tags frames.length e.1 e.2)
    (hupdated : ∀ e ∈ entries, e.2.sinrUpdated = true) (hrbs : ∀ e ∈ entries, e.2.expectedTb.rbBitmap ≠ [])
    (x : List (PsschAttempt numRbs ω) × NrHarqPhy ω × Nat) : ∃ new harq drawn,
    entries.foldlM (PsschRx.receiveTb cfg em random frames collided) x = .ok (x.1 ++ new, harq, drawn) ∧
      List.Forall₂ (fun e a => (a.rnti, a.tb.expectedTb) = (e.1, e.2.expectedTb) ∧
        Attempted cfg frames sinr tags a ∧ (a.rbCollided = true ↔ cfg.dropTbOnRbCollisionEnabled = true ∧
          ∃ rb ∈ e.2.expectedTb.rbBitmap, rb ∈ collided)) entries new := by
  induction entries generalizing x with
  | nil => exact ⟨[], x.2.1, x.2.2, by simp, .nil⟩
  | cons e entries ih =>
    obtain ⟨hm, hmapped⟩ := List.forall_mem_cons.mp hmapped
    obtain ⟨hu, hupdated⟩ := List.forall_mem_cons.mp hupdated
    obtain ⟨hr, hrbs⟩ := List.forall_mem_cons.mp hrbs
    obtain ⟨a, harq, drawn, hstep, hattempt⟩ := receiveTb_updated harr hm hu hr x
    obtain ⟨new, harq', drawn', hloop, hall⟩ := ih hmapped hupdated hrbs (x.1 ++ [a], harq, drawn)
    refine ⟨a :: new, harq', drawn', foldlM_cons_ok_iff.mpr ⟨_, hstep, ?_⟩, .cons hattempt hall⟩
    rw [hloop]
    simp

theorem updated_of_receiveTbs {collided : Finset Nat} {entries : List (Nat × SlTransportBlockInfo numRbs ω)}
    {x y : List (PsschAttempt numRbs ω) × NrHarqPhy ω × Nat}
    (h : entries.foldlM (PsschRx.receiveTb cfg em random frames collided) x = .ok y) :
    ∀ e ∈ entries, e.2.sinrUpdated = true := by
  induction entries generalizing x with
  | nil => simp
  | cons e entries ih =>
    obtain ⟨x', hstep, hloop⟩ := foldlM_cons_ok_iff.mp h
    obtain ⟨_, hupdated, _⟩ := bind_ok_iff.mp hstep
    exact List.forall_mem_cons.mpr ⟨require_ok_iff.mp hupdated, ih hloop⟩

theorem PsschRun.waiting (hrun : PsschRun cfg em random log rx) : Waiting rx.slTransportBlocks := by
  have hempty : Waiting (Table.empty : Table Nat (SlTransportBlockInfo numRbs ω)) := by
    intro rnti tb hfind
    cases hfind
  induction hrun with
  | start drawn => exact hempty
  | next log attempts rx rx' run step ih =>
    cases step with
    | addSlExpectedTb rnti expectedTb rx' h =>
      obtain ⟨_, _, h⟩ := bind_ok_iff.mp h
      obtain rfl := pure_ok_iff.mp h
      intro r tb hfind
      by_cases hr : r = rnti
      · rw [hr] at hfind
        have hself := (Table.find?_put_self _ _ _).symm.trans hfind
        rw [← Option.some.inj hself]
      · exact ih r tb ((Table.find?_put_ne _ _ hr).symm.trans hfind)
    | clearExpectedSlTb => exact hempty
    | traverse l h => exact fun r tb hfind => ih r tb ((Table.find?_reorder h r).symm.trans hfind)
    | draw count => exact ih
    | endRxSlFrame frames sinr attempts rx' h =>
      unfold PsschRx.endRxSlFrame at h
      split at h
      next =>
        obtain ⟨tbs, _, h⟩ := bind_ok_iff.mp h
        obtain ⟨x, _, h⟩ := bind_ok_iff.mp h
        obtain ⟨_, rfl⟩ := Prod.mk.inj (pure_ok_iff.mp h)
        exact hempty
      next =>
        obtain ⟨_, rfl⟩ := Prod.mk.inj (pure_ok_iff.mp h)
        exact ih

theorem PsschArrivals.length_eq (harr : PsschArrivals frames sinr tags) : frames.length = tags.length := by
  simpa using congrArg List.length harr.tagged

theorem MappedBlock.updated_iff {rnti : Nat} {tb : SlTransportBlockInfo numRbs ω}
    (h : MappedBlock sinr tags tags.length rnti tb) : tb.sinrUpdated = true ↔ rnti ∈ tags := by
  constructor
  · intro hupdated
    exact List.mem_of_getElem? (h.updated hupdated).1.2.1
  · intro hin
    by_contra hnot
    have hmissed := h.missed (by simpa using hnot)
    rw [List.take_length] at hmissed
    exact hmissed hin

/-- The reception ends, instead of being aborted, exactly when a frame has come for every block that is
waited for, and then every block is attempted once. -/
theorem PsschRun.receives (hrun : PsschRun cfg em random log rx) (harr : PsschArrivals frames sinr tags)
    (hframes : frames ≠ []) (hrbs : InBandwidth rx.slTransportBlocks) :
    let blocks := rx.slTransportBlocks.entries.map fun e => (e.1, e.2.expectedTb)
    ((∃ attempts rx', rx.endRxSlFrame cfg em random frames sinr = .ok (attempts, rx')) ↔
      ∀ block ∈ blocks, block.1 ∈ tags) ∧
    ∀ attempts rx', rx.endRxSlFrame cfg em random frames sinr = .ok (attempts, rx') →
      List.Forall₂ (AttemptOf cfg frames sinr tags blocks) blocks attempts := by
  intro blocks
  obtain ⟨tbs, hmap, hmapped⟩ := mapPackets hrun.waiting harr hrbs le_rfl
  have hblocks : tbs.entries.map (fun e => (e.1, e.2.expectedTb)) = blocks := hmapped.blocks
  have hend : rx.endRxSlFrame cfg em random frames sinr = tbs.entries.foldlM
      (PsschRx.receiveTb cfg em random frames (PsschRx.psschCollidedRbs cfg tbs.entries))
      ([], rx.harqPhyModule, rx.drawn) >>= fun x => pure (x.1, ⟨Table.empty, x.2.1, x.2.2⟩) := by
    have hindexes : 0 < (PsschRx.psschIndexes frames).length := by
      rw [psschIndexes_data harr.data, List.length_range]
      exact List.length_pos_iff.mpr hframes
    unfold PsschRx.endRxSlFrame
    rw [if_pos hindexes]
    exact bind_of_ok hmap
  have hentries : ∀ e ∈ tbs.entries, MappedBlock sinr tags frames.length e.1 e.2 :=
    fun e he => hmapped.mapped e.1 e.2 (Table.find?_eq_some_iff.mpr he)
  have hnonempty : ∀ e ∈ tbs.entries, e.2.expectedTb.rbBitmap ≠ [] :=
    fun e he => (hmapped.inBandwidth hrbs e.1 e.2 (Table.find?_eq_some_iff.mpr he)).1
  have hall : (∀ e ∈ tbs.entries, e.2.sinrUpdated = true) ↔ ∀ block ∈ blocks, block.1 ∈ tags := by
    rw [← hblocks, List.forall_mem_map]
    rw [harr.length_eq] at hentries
    exact forall₂_congr fun e he => (hentries e he).updated_iff
  have hcount : blocks.flatMap (fun b => b.2.rbBitmap) = tbs.entries.flatMap fun e => e.2.expectedTb.rbBitmap := by
    rw [← hblocks, List.flatMap_map]
  rw [hend]
  refine ⟨⟨fun hends => ?_, fun htags => ?_⟩, fun attempts rx' hok => ?_⟩
  · obtain ⟨attempts, rx', hok⟩ := hends
    obtain ⟨x, hloop, _⟩ := bind_ok_iff.mp hok
    exact hall.mp (updated_of_receiveTbs hloop)
  · obtain ⟨new, harq, drawn, hloop, _⟩ := receiveTbs_updated harr hentries (hall.mpr htags) hnonempty
      ([], rx.harqPhyModule, rx.drawn)
    exact ⟨_, _, bind_of_ok hloop⟩
  · obtain ⟨x, hloop, hpure⟩ := bind_ok_iff.mp hok
    obtain ⟨new, harq, drawn, hloop', hforall⟩ := receiveTbs_updated harr hentries
      (updated_of_receiveTbs hloop) hnonempty ([], rx.harqPhyModule, rx.drawn)
    obtain rfl := Except.ok.inj (hloop'.symm.trans hloop)
    obtain ⟨rfl, _⟩ := Prod.mk.inj (pure_ok_iff.mp hpure)
    rw [← hblocks, List.forall₂_map_left_iff]
    refine hforall.imp fun e a hattempt => ⟨hattempt.1, hattempt.2.1, hattempt.2.2.trans ?_⟩
    refine and_congr_right fun hdrop => exists_congr fun rb => and_congr_right fun _ => ?_
    rw [mem_psschCollidedRbs, hblocks, hcount, and_iff_right hdrop]

end Reception

/-- Two UEs that were announced in the same RB. -/
def sharedRb : List SlRxFrame :=
  [⟨true, newDataBurst⟩, ⟨true, [.tagged 8, .untagged [56, 16, 1, 254, 0]]⟩]

def blockOf (rnti : Nat) : Nat × SlExpectedTb := (rnti, ⟨255, 300, 14, [0], 2, 11, 5⟩)

def waitingForBoth : PsschRx 1 Nat :=
  ⟨(Table.empty.put 7 { expectedTb := (blockOf 7).2 }).put 8 { expectedTb := (blockOf 8).2 },
    ⟨Table.empty, ∅⟩, 0⟩

theorem waitingForBoth_run : PsschRun ⟨true, true⟩ combiningModel ones [] waitingForBoth :=
  ((PsschRun.start 0).next [] [] _ _ (.addSlExpectedTb 7 (blockOf 7).2 _ rfl)).next [] [] _ _
    (.addSlExpectedTb 8 (blockOf 8).2 _ rfl)

theorem PsschRun.receives_sharedRb : ∃ attempts rx',
    waitingForBoth.endRxSlFrame ⟨true, true⟩ combiningModel ones sharedRb [1, 1] = .ok (attempts, rx') ∧
      List.Forall₂ (AttemptOf ⟨true, true⟩ sharedRb [1, 1] [7, 8] [blockOf 7, blockOf 8])
        [blockOf 7, blockOf 8] attempts := by
  have harr : PsschArrivals sharedRb ([1, 1] : List (SpectrumValue 1)) [7, 8] := by
    refine ⟨by decide, rfl, fun frame hframe => ?_, by decide⟩
    fin_cases hframe <;> exact ⟨_, rfl⟩
  have hrbs : InBandwidth waitingForBoth.slTransportBlocks := by
    intro rnti tb hfind
    have hentry : (rnti, tb) ∈ [(7, { expectedTb := (blockOf 7).2 }), (8, { expectedTb := (blockOf 8).2 })] :=
      Table.find?_eq_some_iff.mp hfind
    rcases List.mem_pair.mp hentry with h | h <;> rw [(Prod.mk.inj h).2] <;> decide
  have hreceives := PsschRun.receives waitingForBoth_run harr (by decide) hrbs
  obtain ⟨attempts, rx', hok⟩ := hreceives.1.mpr (by decide)
  exact ⟨attempts, rx', hok, hreceives.2 attempts rx' hok⟩

end SidelinkORe
