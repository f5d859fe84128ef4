import SidelinkORe.SettingsTable

namespace SidelinkORe

section Sides

variable {D : Type}

/-- The packets of a side that are overwritten: position `i / 2` of the sorted choices, for half of
the transmissions. -/
def overwritten (row : SettingsRow) (side : List (SidePacket D)) : List (SidePacket D) :=
  (sortedChoices (choicesOf row side)).take (row.transmissions / 2)

/-- The qualifying packets that are not chosen. -/
def spared (row : SettingsRow) (side : List (SidePacket D)) : List (SidePacket D) :=
  (sortedChoices (choicesOf row side)).drop (row.transmissions / 2)

/-- Two sides that differ in the subchannels only. -/
def SameButSubChannels (side side' : List (SidePacket D)) : Prop :=
  List.Forall₂ (fun p p' => p' = { p with subChannel := p'.subChannel }) side side'

/-- None or all of the qualifying packets are overwritten, or all of them are of one sender. -/
def SenderSettled (row : SettingsRow) (side : List (SidePacket D)) : Prop :=
  row.transmissions / 2 = 0 ∨ (choicesOf row side).length ≤ row.transmissions / 2 ∨
    ∀ p ∈ choicesOf row side, ∀ q ∈ choicesOf row side, p.srcIndex = q.srcIndex

variable {row : SettingsRow} {side side' L R : List (SidePacket D)}

theorem sortedChoices_eq (choices : List (SidePacket D)) : sortedChoices choices =
    (risingPlaces (fun p : SidePacket D => p.subChannel) choices).map Prod.fst :=
  (map_risingPlaces choices).symm

theorem sortedChoices_length (choices : List (SidePacket D)) :
    (sortedChoices choices).length = choices.length := (sortedChoices_perm choices).length_eq

theorem overwritten_append_spared (row : SettingsRow) (side : List (SidePacket D)) :
    (overwritten row side ++ spared row side).Perm (choicesOf row side) := by
  rw [overwritten, spared, List.take_append_drop]
  exact sortedChoices_perm _

theorem overwritten_length (row : SettingsRow) (side : List (SidePacket D)) :
    (overwritten row side).length = min (row.transmissions / 2) (choicesOf row side).length := by
  rw [overwritten, List.length_take, sortedChoices_length]

theorem spared_length (row : SettingsRow) (side : List (SidePacket D)) :
    (spared row side).length = (choicesOf row side).length - row.transmissions / 2 := by
  rw [spared, List.length_drop, sortedChoices_length]

theorem overwritten_all (h : (choicesOf row side).length ≤ row.transmissions / 2) :
    (overwritten row side).Perm (choicesOf row side) := by
  have hall : (sortedChoices (choicesOf row side)).length ≤ row.transmissions / 2 := by
    rw [sortedChoices_length]
    exact h
  rw [overwritten, List.take_of_length_le hall]
  exact sortedChoices_perm _

theorem overwritten_senders {s : Int} (hs : s ∈ (overwritten row side).map (·.srcIndex)) :
    s ∈ (choicesOf row side).map (·.srcIndex) := by
  obtain ⟨p, hp, rfl⟩ := List.mem_map.mp hs
  exact List.mem_map_of_mem ((sortedChoices_perm _).mem_iff.mp (List.mem_of_mem_take hp))

/-- The loop over the transmissions takes the packets from the two sides in turn. -/
theorem chosenPackets_take {l r : List ReceivedPacket} {n : Nat} (hl : n ≤ l.length)
    (hr : n ≤ r.length) :
    ((List.range (2 * n)).mapM fun i => orFault Fault.pythonIndexError
      (if i % 2 = 0 then l[i / 2]? else r[i / 2]?)) =
      .ok (((l.take n).zip (r.take n)).flatMap fun p => [p.1, p.2]) := by
  induction n with
  | zero => simp [pure, Except.pure]
  | succ n ih =>
    have hlast : l[n]? = some l[n] := List.getElem?_eq_getElem (by omega)
    have hlast' : r[n]? = some r[n] := List.getElem?_eq_getElem (by omega)
    have hodd : (2 * n + 1) / 2 = n := by omega
    rw [show 2 * (n + 1) = 2 * n + 1 + 1 from by omega, List.range_succ, List.range_succ,
      List.mapM_append, List.mapM_append, ih (by omega) (by omega),
      List.take_add_one, List.take_add_one, hlast, hlast', List.zip_append (by simp; omega), List.flatMap_append]
    simp [hodd, hlast, hlast', orFault, bind, Except.bind, pure, Except.pure]

/-- The packets that Python overwrites with a row that both sides offer enough packets for. -/
theorem chosenPackets_sides (h : Offers L R row) :
    chosenPackets row.transmissions
      ((sortedChoices (choicesOf row L)).map SidePacket.toReceivedPacket)
      ((sortedChoices (choicesOf row R)).map SidePacket.toReceivedPacket) =
      .ok (((overwritten row L).zip (overwritten row R)).flatMap
        fun p => [p.1.toReceivedPacket, p.2.toReceivedPacket]) := by
  have heven : row.transmissions - row.transmissions % 2 = 2 * (row.transmissions / 2) := by omega
  have hl : row.transmissions / 2 ≤ (sortedChoices (choicesOf row L)).length := by
    rw [sortedChoices_length]
    exact h.1
  have hr : row.transmissions / 2 ≤ (sortedChoices (choicesOf row R)).length := by
    rw [sortedChoices_length]
    exact h.2
  rw [chosenPackets, heven, chosenPackets_take (by simpa using hl) (by simpa using hr),
    ← List.map_take, ← List.map_take, List.zip_map, List.flatMap_map]
  rfl

/-- The subchannels are not looked at when packets qualify. -/
theorem SameButSubChannels.choices_senders (h : SameButSubChannels side side') :
    (choicesOf row side').map (·.srcIndex) = (choicesOf row side).map (·.srcIndex) := by
  induction h with
  | nil => rfl
  | @cons p p' side side' hp _ ih =>
    have hrc : p'.rc = p.rc := by rw [hp]
    have hsrc : p'.srcIndex = p.srcIndex := by rw [hp]
    unfold choicesOf at ih ⊢
    by_cases hlimit : (p.rc : ℚ) ≤ row.rcLimit
    · rw [List.filter_cons_of_pos (by simpa [hrc] using hlimit),
        List.filter_cons_of_pos (by simpa using hlimit), List.map_cons, List.map_cons, ih, hsrc]
    · rw [List.filter_cons_of_neg (by simpa [hrc] using hlimit),
        List.filter_cons_of_neg (by simpa using hlimit), ih]

theorem SameButSubChannels.choices_length (h : SameButSubChannels side side') :
    (choicesOf row side').length = (choicesOf row side).length := by
  have hsenders : (choicesOf row side').map (·.srcIndex) = (choicesOf row side).map (·.srcIndex) :=
    h.choices_senders
  simpa using congrArg List.length hsenders

/-- Without a choice between senders the subchannels have no say in it. -/
theorem SenderSettled.senders (hsettled : SenderSettled row side)
    (h : SameButSubChannels side side') :
    ((overwritten row side').map (·.srcIndex)).Perm ((overwritten row side).map (·.srcIndex)) := by
  rcases hsettled with hnone | hall | hone
  · simp [overwritten, hnone]
  · have hall' : (choicesOf row side').length ≤ row.transmissions / 2 := by
      rw [h.choices_length]
      exact hall
    refine ((overwritten_all hall').map _).trans ?_
    rw [h.choices_senders]
    exact ((overwritten_all hall).map _).symm
  · have hlength : (overwritten row side').length = (overwritten row side).length := by
      rw [overwritten_length, overwritten_length, h.choices_length]
    have hsame : ∀ s ∈ (overwritten row side').map (·.srcIndex),
        ∀ t ∈ (overwritten row side).map (·.srcIndex), s = t := by
      intro s hs t ht
      have hs := overwritten_senders hs
      rw [h.choices_senders] at hs
      obtain ⟨p, hp, rfl⟩ := List.mem_map.mp hs
      obtain ⟨q, hq, rfl⟩ := List.mem_map.mp (overwritten_senders ht)
      exact hone p hp q hq
    refine List.Perm.of_eq (List.ext_getElem (by simpa using hlength) fun i hi hi' => ?_)
    exact hsame _ (List.getElem_mem hi) _ (List.getElem_mem hi')

end Sides

section Ranking

variable {D : Type} [LinearOrder D]

/-- A segment at one end of the distances. -/
def Extreme (chosen others : List (SidePacket D)) : Prop :=
  (∀ p ∈ chosen, ∀ q ∈ others, q.distFromRx ≤ p.distFromRx) ∨
    ∀ p ∈ chosen, ∀ q ∈ others, p.distFromRx ≤ q.distFromRx

/-- The packets that come first by subchannel, of equal ones the last received, are at one end of
the distances. -/
def PlacedExtreme (row : SettingsRow) (side : List (SidePacket D)) : Prop :=
  (∀ x ∈ (choicesOf row side).zipIdx, ∀ y ∈ (choicesOf row side).zipIdx,
    place (fun p : SidePacket D => p.subChannel) (choicesOf row side) x < row.transmissions / 2 →
    row.transmissions / 2 ≤ place (fun p : SidePacket D => p.subChannel) (choicesOf row side) y →
      y.1.distFromRx ≤ x.1.distFromRx) ∨
  ∀ x ∈ (choicesOf row side).zipIdx, ∀ y ∈ (choicesOf row side).zipIdx,
    place (fun p : SidePacket D => p.subChannel) (choicesOf row side) x < row.transmissions / 2 →
    row.transmissions / 2 ≤ place (fun p : SidePacket D => p.subChannel) (choicesOf row side) y →
      x.1.distFromRx ≤ y.1.distFromRx

/-- Both sides are ranked by distance, with the same senders for all subchannels. -/
structure RanksByDistance (row : SettingsRow) (L R : List (SidePacket D)) : Prop where
  extreme_left : Extreme (overwritten row L) (spared row L)
  extreme_right : Extreme (overwritten row R) (spared row R)
  senders : ((L ++ R).map (·.distFromRx)).Nodup → ∀ L' R', SameButSubChannels L L' →
    SameButSubChannels R R' →
      ((overwritten row L').map (·.srcIndex)).Perm ((overwritten row L).map (·.srcIndex)) ∧
      ((overwritten row R').map (·.srcIndex)).Perm ((overwritten row R).map (·.srcIndex))

variable {row : SettingsRow} {side L R : List (SidePacket D)}

theorem extreme_iff_placed :
    Extreme (overwritten row side) (spared row side) ↔ PlacedExtreme row side := by
  unfold Extreme PlacedExtreme overwritten spared
  rw [sortedChoices_eq, ← List.map_take, ← List.map_drop]
  simp only [List.forall_mem_map, mem_take_risingPlaces, mem_drop_risingPlaces]
  constructor
  · rintro (hfar | hnear)
    · exact Or.inl fun x hx y hy hchosen hspared => hfar x ⟨hx, hchosen⟩ y ⟨hy, hspared⟩
    · exact Or.inr fun x hx y hy hchosen hspared => hnear x ⟨hx, hchosen⟩ y ⟨hy, hspared⟩
  · rintro (hfar | hnear)
    · exact Or.inl fun x hx y hy => hfar x hx.1 y hy.1 hx.2 hy.2
    · exact Or.inr fun x hx y hy => hnear x hx.1 y hy.1 hx.2 hy.2

/-- Subchannels that put the packets at the distances of `front` before the others. -/
def promote (front : List (SidePacket D)) (p : SidePacket D) : SidePacket D :=
  { p with subChannel := if p.distFromRx ∈ front.map (·.distFromRx) then 0 else 1 }

theorem sameButSubChannels_promote (front : List (SidePacket D)) (side : List (SidePacket D)) :
    SameButSubChannels side (side.map (promote front)) := by
  refine List.forall₂_map_right_iff.mpr (List.forall₂_same.mpr fun p _ => ?_)
  simp [promote]

theorem choicesOf_promote (front : List (SidePacket D)) :
    choicesOf row (side.map (promote front)) = (choicesOf row side).map (promote front) := by
  rw [choicesOf, List.filter_map]
  rfl

/-- With all distances different the promoted packets are exactly those that are overwritten. -/
theorem overwritten_promote {front back : List (SidePacket D)}
    (hperm : (front ++ back).Perm (choicesOf row side))
    (hdist : ((front ++ back).map (·.distFromRx)).Nodup)
    (hlength : front.length = row.transmissions / 2) :
    (overwritten row (side.map (promote front))).Perm (front.map (promote front)) := by
  let low := fun p : SidePacket D => decide (p.subChannel ≤ 0)
  rw [List.map_append] at hdist
  have hfront : (front.map (promote front)).filter low = front.map (promote front) := by
    refine List.filter_eq_self.mpr fun q hq => ?_
    obtain ⟨p, hp, rfl⟩ := List.mem_map.mp hq
    have hmem : p.distFromRx ∈ front.map (·.distFromRx) := List.mem_map_of_mem hp
    simp only [low, promote, if_pos hmem]
    simp
  have hback : (back.map (promote front)).filter low = [] := by
    refine List.filter_eq_nil_iff.mpr fun q hq => ?_
    obtain ⟨p, hp, rfl⟩ := List.mem_map.mp hq
    have hnot : p.distFromRx ∉ front.map (·.distFromRx) := fun hmem =>
      (List.disjoint_of_nodup_append hdist) hmem (List.mem_map_of_mem hp)
    simp only [low, promote, if_neg hnot]
    simp
  have hsorted : ((sortedChoices (choicesOf row (side.map (promote front)))).filter low).Perm
      (front.map (promote front)) := by
    refine ((sortedChoices_perm _).filter low).trans ?_
    rw [choicesOf_promote]
    refine ((hperm.symm.map (promote front)).filter low).trans ?_
    rw [List.map_append, List.filter_append, hfront, hback, List.append_nil]
  have hcount : (sortedChoices (choicesOf row (side.map (promote front)))).countP low =
      row.transmissions / 2 := by
    rw [List.countP_eq_length_filter, hsorted.length_eq, List.length_map, hlength]
  have hrising : (sortedChoices (choicesOf row (side.map (promote front)))).Pairwise
      fun a b => low b = true → low a = true := by
    refine (rising_reverse_sortFalling _).imp fun hle hlow => ?_
    exact decide_eq_true (le_trans hle (of_decide_eq_true hlow))
  rw [overwritten, ← hcount, take_countP hrising]
  exact hsorted

/-- Some change of the subchannels swaps an overwritten packet for a spared one. -/
theorem swapped_sender (hdist : (side.map (·.distFromRx)).Nodup)
    (hsame : ∀ side', SameButSubChannels side side' →
      ((overwritten row side').map (·.srcIndex)).Perm ((overwritten row side).map (·.srcIndex)))
    {p q : SidePacket D} (hp : p ∈ overwritten row side) (hq : q ∈ spared row side) :
    p.srcIndex = q.srcIndex := by
  obtain ⟨chosen, chosen', hchosen⟩ := List.append_of_mem hp
  obtain ⟨rest, rest', hrest⟩ := List.append_of_mem hq
  have hperm : (q :: (chosen ++ chosen') ++ p :: (rest ++ rest')).Perm (choicesOf row side) := by
    have hall := overwritten_append_spared row side
    rw [hchosen, hrest] at hall
    refine List.Perm.trans (List.perm_iff_count.mpr fun a => ?_) hall
    simp only [List.count_append, List.count_cons]
    omega
  have hnodup : ((q :: (chosen ++ chosen') ++ p :: (rest ++ rest')).map (·.distFromRx)).Nodup := by
    rw [(hperm.map _).nodup_iff]
    exact hdist.sublist (List.filter_sublist.map _)
  have hlength : (q :: (chosen ++ chosen')).length = row.transmissions / 2 := by
    have hsplit := congrArg List.length hchosen
    have hspared := List.length_pos_of_mem hq
    rw [overwritten_length, List.length_append, List.length_cons] at hsplit
    rw [spared_length] at hspared
    rw [List.length_cons, List.length_append]
    omega
  have hswap := ((overwritten_promote hperm hnodup hlength).map (·.srcIndex)).symm.trans
    (hsame _ (sameButSubChannels_promote _ side))
  have hsrc : ∀ l : List (SidePacket D),
      (l.map (promote (q :: (chosen ++ chosen')))).map (·.srcIndex) = l.map (·.srcIndex) :=
    fun l => by simp [promote]
  rw [hsrc, hchosen, List.map_cons, List.map_append, List.map_append, List.map_cons] at hswap
  have hcons := hswap.trans List.perm_middle
  by_contra hne
  have hcount := hcons.count_eq q.srcIndex
  rw [List.count_cons_self, List.count_cons_of_ne hne] at hcount
  omega

theorem senderSettled_iff (hdist : (side.map (·.distFromRx)).Nodup) :
    SenderSettled row side ↔ ∀ side', SameButSubChannels side side' →
      ((overwritten row side').map (·.srcIndex)).Perm ((overwritten row side).map (·.srcIndex)) := by
  constructor
  · intro hsettled side' h
    exact hsettled.senders h
  · intro hsame
    by_cases hnone : row.transmissions / 2 = 0
    · exact Or.inl hnone
    by_cases hall : (choicesOf row side).length ≤ row.transmissions / 2
    · exact Or.inr (Or.inl hall)
    refine Or.inr (Or.inr ?_)
    -- both kinds are there, and every packet has the sender of one of the other kind
    obtain ⟨c, hc⟩ := List.exists_mem_of_length_pos (l := overwritten row side) (by
      rw [overwritten_length]
      omega)
    obtain ⟨s, hs⟩ := List.exists_mem_of_length_pos (l := spared row side) (by
      rw [spared_length]
      omega)
    have hone : ∀ p ∈ choicesOf row side, p.srcIndex = c.srcIndex := by
      intro p hp
      rw [← (overwritten_append_spared row side).mem_iff, List.mem_append] at hp
      rcases hp with hp | hp
      · exact (swapped_sender hdist hsame hp hs).trans (swapped_sender hdist hsame hc hs).symm
      · exact (swapped_sender hdist hsame hc hp).symm
    intro p hp q hq
    rw [hone p hp, hone q hq]

/-- The packets are ranked by distance exactly when the ones at the front of the subchannels happen
to be at one end of the distances and, if these all differ, no subchannels can change the senders:
the sort is by the subchannel, not by the appended distance. -/
theorem ranksByDistance_iff (row : SettingsRow) (L R : List (SidePacket D)) :
    RanksByDistance row L R ↔ PlacedExtreme row L ∧ PlacedExtreme row R ∧
      (((L ++ R).map (·.distFromRx)).Nodup → SenderSettled row L ∧ SenderSettled row R) := by
  constructor
  · intro h
    refine ⟨extreme_iff_placed.mp h.extreme_left, extreme_iff_placed.mp h.extreme_right, ?_⟩
    intro hdist
    have hsides := hdist
    rw [List.map_append] at hsides
    obtain ⟨hL, hR, _⟩ := List.nodup_append.mp hsides
    have hself : ∀ side : List (SidePacket D), SameButSubChannels side side :=
      fun side => List.forall₂_same.mpr fun _ _ => rfl
    refine ⟨(senderSettled_iff hL).mpr fun L' hL' => ?_, (senderSettled_iff hR).mpr fun R' hR' => ?_⟩
    · exact (h.senders hdist L' R hL' (hself R)).1
    · exact (h.senders hdist L R' (hself L) hR').2
  · rintro ⟨hleft, hright, hsettled⟩
    refine ⟨extreme_iff_placed.mpr hleft, extreme_iff_placed.mpr hright, ?_⟩
    intro hdist L' R' hL hR
    exact ⟨(hsettled hdist).1.senders hL, (hsettled hdist).2.senders hR⟩

/-- With a row of two transmissions the packet in the middle of three is overwritten. -/
theorem ranksByDistance_fails_middle :
    ¬∀ (row : SettingsRow) (L R : List (SidePacket Int)), Offers L R row →
      RanksByDistance row L R := by
  intro claimed
  have ranks := claimed ⟨2, 0, 0⟩ [freshPacket 20 1 90, freshPacket 21 0 80, freshPacket 22 2 70]
    [freshPacket 60 0 95] ⟨by decide +kernel, by decide +kernel⟩
  have hchosen : freshPacket 21 0 80 ∈ overwritten ⟨2, 0, 0⟩
    [freshPacket 20 1 90, freshPacket 21 0 80, freshPacket 22 2 70] := by decide +kernel
  have hfar : freshPacket 20 1 90 ∈ spared ⟨2, 0, 0⟩
    [freshPacket 20 1 90, freshPacket 21 0 80, freshPacket 22 2 70] := by decide +kernel
  have hnear : freshPacket 22 2 70 ∈ spared ⟨2, 0, 0⟩
    [freshPacket 20 1 90, freshPacket 21 0 80, freshPacket 22 2 70] := by decide +kernel
  rcases ranks.extreme_left with hall | hall
  · exact absurd (hall _ hchosen _ hfar) (by decide)
  · exact absurd (hall _ hchosen _ hnear) (by decide)

end Ranking

end SidelinkORe
