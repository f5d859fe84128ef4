import SidelinkORe.TxOpportunities

namespace SidelinkORe

section Turns

variable (S : RsrpScale) (t : Int)

/-- The packets that an entry adds in its turn, when the subchannels in `occupied` are marked. -/
def turnReport (futureCands : List Nat) (occupied : Finset Nat) (txs : List SlotSensingData) :
    List Packet :=
  (hearEntry S t true futureCands ⟨occupied, 0, []⟩ txs).reported

/-- The marked subchannels after the entries of a list had their turns. -/
def occupiedAfter (futureCands : List Nat) (entries : List (List SlotSensingData)) : Finset Nat :=
  (entries.foldl (hearEntry S t true futureCands) ⟨∅, 0, []⟩).occupiedSbCh

def Marking.after (eliminated : Int) (reported : List Packet) (m : Marking) : Marking :=
  ⟨m.occupiedSbCh, eliminated + m.eliminatedResources, reported ++ m.reported⟩

variable {S t} {first : Bool} {futureCands : List Nat}

theorem hearTx_after (e : Int) (r : List Packet) (f : Nat) (acc : Marking × (Nat → S.Power))
    (tx : SlotSensingData) :
    hearTx S t first f (acc.1.after e r, acc.2) tx =
      ((hearTx S t first f acc tx).1.after e r, (hearTx S t first f acc tx).2) := by
  unfold hearTx Marking.after
  simp only
  split
  · split <;> split <;> simp [Int.add_assoc]
  · rfl

theorem hearFutureCand_after (e : Int) (r : List Packet) (txs : List SlotSensingData) (m : Marking)
    (f : Nat) :
    hearFutureCand S t first txs (m.after e r) f = (hearFutureCand S t first txs m f).after e r := by
  have hfold : ∀ acc : Marking × (Nat → S.Power),
      (txs.foldl (hearTx S t first f) (acc.1.after e r, acc.2)).1 =
        (txs.foldl (hearTx S t first f) acc).1.after e r := by
    induction txs with
    | nil => exact fun acc => rfl
    | cons tx txs ih =>
      intro acc
      rw [List.foldl_cons, hearTx_after, ih, List.foldl_cons]
  exact hfold (m, fun _ => S.zero)

theorem hearEntry_after (e : Int) (r : List Packet) (m : Marking) (txs : List SlotSensingData) :
    hearEntry S t first futureCands (m.after e r) txs =
      (hearEntry S t first futureCands m txs).after e r :=
  List.foldl_hom (Marking.after e r) (hearFutureCand_after e r txs)

theorem marking_eq_after (m : Marking) :
    m = Marking.after m.eliminatedResources m.reported ⟨m.occupiedSbCh, 0, []⟩ := by
  simp [Marking.after]

theorem hearEntry_reported (m : Marking) (txs : List SlotSensingData) :
    (hearEntry S t true futureCands m txs).reported =
      m.reported ++ turnReport S t futureCands m.occupiedSbCh txs := by
  conv_lhs => rw [marking_eq_after m, hearEntry_after]
  rfl

/-- A step of the loops marks and reports more, and reports nothing on a marked subchannel. -/
structure Grows (m m' : Marking) : Prop where
  occupied : m.occupiedSbCh ⊆ m'.occupiedSbCh
  reported : ∃ more, m'.reported = m.reported ++ more ∧
    ∀ packet ∈ more, packet.subChannel ∉ m.occupiedSbCh

theorem grows_refl (m : Marking) : Grows m m := ⟨Finset.Subset.refl _, [], by simp, by simp⟩

theorem grows_trans {m m' m'' : Marking} (h : Grows m m') (h' : Grows m' m'') : Grows m m'' where
  occupied := h.occupied.trans h'.occupied
  reported := by
    obtain ⟨more, hmore, hfree⟩ := h.reported
    obtain ⟨more', hmore', hfree'⟩ := h'.reported
    refine ⟨more ++ more', by rw [hmore', hmore, List.append_assoc], fun packet hpacket => ?_⟩
    rcases List.mem_append.mp hpacket with hin | hin
    · exact hfree packet hin
    · exact fun hc => hfree' packet hin (h.occupied hc)

theorem hearTx_grows (f : Nat) (acc : Marking × (Nat → S.Power)) (tx : SlotSensingData) :
    Grows acc.1 (hearTx S t first f acc tx).1 := by
  have hreport : ∃ more, (if tx.corrupt = false ∧ first = true then
      acc.1.reported ++ [packetOf tx f] else acc.1.reported) = acc.1.reported ++ more ∧
      ∀ packet ∈ more, packet.subChannel = tx.sbChStart := by
    split
    · exact ⟨[packetOf tx f], rfl, by simp [packetOf]⟩
    · exact ⟨[], by simp, by simp⟩
  unfold hearTx
  split
  next hit =>
    obtain ⟨more, hmore, hsub⟩ := hreport
    have hfree : ∀ packet ∈ more, packet.subChannel ∉ acc.1.occupiedSbCh := by
      intro packet hpacket
      rw [hsub packet hpacket]
      exact hit.2
    simp only
    split
    · exact ⟨Finset.subset_insert _ _, more, hmore, hfree⟩
    · exact ⟨Finset.Subset.refl _, more, hmore, hfree⟩
  next => exact grows_refl _

theorem hearTxs_grows (f : Nat) (acc : Marking × (Nat → S.Power)) (txs : List SlotSensingData) :
    Grows acc.1 (txs.foldl (hearTx S t first f) acc).1 := by
  induction txs generalizing acc with
  | nil => exact grows_refl acc.1
  | cons tx txs ih => exact grows_trans (hearTx_grows f acc tx) (ih _)

theorem hearFutureCand_grows (txs : List SlotSensingData) (m : Marking) (f : Nat) :
    Grows m (hearFutureCand S t first txs m f) :=
  hearTxs_grows f (m, fun _ => S.zero) txs

theorem hearEntry_grows (m : Marking) (txs : List SlotSensingData) :
    Grows m (hearEntry S t first futureCands m txs) := by
  induction futureCands generalizing m with
  | nil => exact grows_refl m
  | cons f futureCands ih => exact grows_trans (hearFutureCand_grows txs m f) (ih _)

theorem turnReport_free {occupied : Finset Nat} {txs : List SlotSensingData} {packet : Packet}
    (h : packet ∈ turnReport S t futureCands occupied txs) : packet.subChannel ∉ occupied := by
  have hgrows : Grows ⟨occupied, 0, []⟩ (hearEntry S t true futureCands ⟨occupied, 0, []⟩ txs) :=
    hearEntry_grows _ txs
  obtain ⟨more, hmore, hfree⟩ := hgrows.reported
  unfold turnReport at h
  rw [hmore, List.nil_append] at h
  exact hfree packet h

theorem mem_reported_of_grows {m m' : Marking} (h : Grows m m') {packet : Packet}
    (hp : packet ∈ m.reported) : packet ∈ m'.reported := by
  obtain ⟨more, hmore, _⟩ := h.reported
  rw [hmore]
  exact List.mem_append_left more hp

/-- The first transmission of an entry that meets a future candidate on a free subchannel is
reported. -/
theorem hearFutureCand_reports {txs : List SlotSensingData} {c f : Nat} {packet : Packet}
    {m : Marking} (free : c ∉ m.occupiedSbCh)
    (same : ∀ tx ∈ txs, tx.corrupt = false ∧ (tx.sbChStart = c → packetOf tx f = packet))
    (hit : ∃ tx ∈ txs, tx.sfn = f ∧ tx.sbChStart = c) :
    packet ∈ (hearFutureCand S t true txs m f).reported := by
  have hall : ∀ acc : Marking × (Nat → S.Power), c ∉ acc.1.occupiedSbCh →
      packet ∈ (txs.foldl (hearTx S t true f) acc).1.reported := by
    induction txs with
    | nil => simp at hit
    | cons tx txs ih =>
      intro acc hfree
      rw [List.foldl_cons]
      obtain ⟨hclean, hpacket⟩ := same tx List.mem_cons_self
      by_cases here : f = tx.sfn ∧ tx.sbChStart = c
      · have hreported : packet ∈ (hearTx S t true f acc tx).1.reported := by
          have hfree' : tx.sbChStart ∉ acc.1.occupiedSbCh := here.2 ▸ hfree
          unfold hearTx
          rw [if_pos ⟨here.1, hfree'⟩, ← hpacket here.2]
          simp only [hclean, and_self, if_true]
          split <;> simp
        exact mem_reported_of_grows (hearTxs_grows f _ txs) hreported
      · refine ih (fun x hx => same x (List.mem_cons_of_mem tx hx)) ?_ _ ?_
        · obtain ⟨x, hx, hxf, hxc⟩ := hit
          rcases List.mem_cons.mp hx with rfl | hx
          · exact absurd ⟨hxf.symm, hxc⟩ here
          · exact ⟨x, hx, hxf, hxc⟩
        · unfold hearTx
          split
          next hmet =>
            have hne : c ≠ tx.sbChStart := fun hc => here ⟨hmet.1, hc.symm⟩
            simp only
            split
            · simp [hne, hfree]
            · exact hfree
          next => exact hfree
  exact hall _ free

theorem hearEntry_reports {txs : List SlotSensingData} {c f : Nat} {packet : Nat → Packet}
    {m : Marking} (rising : futureCands.Pairwise (· ≤ ·)) (free : c ∉ m.occupiedSbCh)
    (same : ∀ tx ∈ txs, tx.corrupt = false ∧
      ∀ f, tx.sbChStart = c → packetOf tx f = packet f)
    (hf : f ∈ futureCands) (hit : ∃ tx ∈ txs, tx.sfn = f ∧ tx.sbChStart = c) :
    ∃ f' ∈ futureCands, f' ≤ f ∧
      packet f' ∈ (hearEntry S t true futureCands m txs).reported := by
  induction futureCands generalizing m with
  | nil => simp at hf
  | cons g futureCands ih =>
    obtain ⟨hg, hrest⟩ := List.pairwise_cons.mp rising
    by_cases here : ∃ tx ∈ txs, tx.sfn = g ∧ tx.sbChStart = c
    · have hreported := hearFutureCand_reports (S := S) (t := t) free
        (fun tx htx => ⟨(same tx htx).1, (same tx htx).2 g⟩) here
      have hle : g ≤ f := by
        rcases List.mem_cons.mp hf with rfl | hf
        · exact le_rfl
        · exact hg f hf
      have hgrows : Grows (hearFutureCand S t true txs m g)
          (hearEntry S t true (g :: futureCands) m txs) := hearEntry_grows _ txs
      exact ⟨g, List.mem_cons_self, hle, mem_reported_of_grows hgrows hreported⟩
    · have hf' : f ∈ futureCands := by
        rcases List.mem_cons.mp hf with rfl | hf
        · exact absurd hit here
        · exact hf
      have hfree : c ∉ (hearFutureCand S t true txs m g).occupiedSbCh := by
        rw [(hearFutureCand_heard true txs m g).occupied c]
        rintro (hin | hover)
        · exact free hin
        · exact here (exists_of_overThreshold hover)
      obtain ⟨f', hmem, hle, hreported⟩ := ih hrest hfree hf'
      exact ⟨f', List.mem_cons_of_mem g hmem, hle, hreported⟩

/-- Two loop states that differ only in marked subchannels outside of `relevant`. -/
structure AgreesOn (relevant : Nat → Prop) (acc acc' : Marking × (Nat → S.Power)) : Prop where
  occupied : ∀ c, relevant c → (c ∈ acc.1.occupiedSbCh ↔ c ∈ acc'.1.occupiedSbCh)
  power : ∀ c, relevant c → acc.2 c = acc'.2 c
  reported : acc.1.reported = acc'.1.reported

theorem hearTx_agreesOn {relevant : Nat → Prop} {f : Nat} {acc acc' : Marking × (Nat → S.Power)}
    {tx : SlotSensingData} (h : AgreesOn relevant acc acc')
    (htx : tx.sfn = f → relevant tx.sbChStart) :
    AgreesOn relevant (hearTx S t first f acc tx) (hearTx S t first f acc' tx) := by
  by_cases here : f = tx.sfn ∧ tx.sbChStart ∉ acc.1.occupiedSbCh
  · have hrel := htx here.1.symm
    have here' : f = tx.sfn ∧ tx.sbChStart ∉ acc'.1.occupiedSbCh :=
      ⟨here.1, fun hin => here.2 ((h.occupied _ hrel).mpr hin)⟩
    have hpower : ∀ c, relevant c →
        Function.update acc.2 tx.sbChStart (S.addDbm (acc.2 tx.sbChStart) tx.slRsrp) c =
          Function.update acc'.2 tx.sbChStart (S.addDbm (acc'.2 tx.sbChStart) tx.slRsrp) c := by
      intro c hc
      rw [h.power _ hrel]
      by_cases hcs : c = tx.sbChStart
      · rw [hcs, Function.update_self, Function.update_self]
      · rw [Function.update_of_ne hcs, Function.update_of_ne hcs, h.power c hc]
    unfold hearTx
    rw [if_pos here, if_pos here']
    simp only [h.reported]
    rw [← h.power _ hrel] at hpower ⊢
    split
    · refine ⟨fun c hc => ?_, hpower, rfl⟩
      rw [Finset.mem_insert, Finset.mem_insert, h.occupied c hc]
    · exact ⟨h.occupied, hpower, rfl⟩
  · have here' : ¬(f = tx.sfn ∧ tx.sbChStart ∉ acc'.1.occupiedSbCh) := by
      rintro ⟨hf, hfree⟩
      exact here ⟨hf, fun hin => hfree ((h.occupied _ (htx hf.symm)).mp hin)⟩
    unfold hearTx
    rw [if_neg here, if_neg here']
    exact h

theorem hearTxs_agreesOn {relevant : Nat → Prop} {f : Nat} {txs : List SlotSensingData}
    {acc acc' : Marking × (Nat → S.Power)} (h : AgreesOn relevant acc acc')
    (htxs : ∀ tx ∈ txs, tx.sfn = f → relevant tx.sbChStart) :
    AgreesOn relevant (txs.foldl (hearTx S t first f) acc)
      (txs.foldl (hearTx S t first f) acc') := by
  induction txs generalizing acc acc' with
  | nil => exact h
  | cons tx txs ih =>
    exact ih (hearTx_agreesOn h (htxs tx List.mem_cons_self))
      fun x hx => htxs x (List.mem_cons_of_mem tx hx)

/-- What an entry reports depends on the marks of its own subchannels only. -/
theorem hearEntry_agree {relevant : Nat → Prop} {txs : List SlotSensingData} {m m' : Marking}
    (hocc : ∀ c, relevant c → (c ∈ m.occupiedSbCh ↔ c ∈ m'.occupiedSbCh))
    (hrep : m.reported = m'.reported)
    (htxs : ∀ tx ∈ txs, tx.sfn ∈ futureCands → relevant tx.sbChStart) :
    (hearEntry S t first futureCands m txs).reported =
      (hearEntry S t first futureCands m' txs).reported := by
  induction futureCands generalizing m m' with
  | nil => exact hrep
  | cons f futureCands ih =>
    have hstart : AgreesOn relevant (m, fun _ => S.zero) (m', fun _ => S.zero) :=
      ⟨hocc, fun _ _ => rfl, hrep⟩
    have hagree : AgreesOn relevant (txs.foldl (hearTx S t first f) (m, fun _ => S.zero))
        (txs.foldl (hearTx S t first f) (m', fun _ => S.zero)) :=
      hearTxs_agreesOn hstart fun tx htx hsfn => htxs tx htx (hsfn ▸ List.mem_cons_self)
    exact ih hagree.occupied hagree.reported
      fun tx htx hsfn => htxs tx htx (List.mem_cons_of_mem f hsfn)

end Turns

end SidelinkORe
