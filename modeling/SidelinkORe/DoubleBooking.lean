import SidelinkORe.GrantProgress

namespace SidelinkORe

/-- The slots `b + j * P` of a grant of the slots `base`, drawn in the window of slot `drawnAt`, as
they stand before slot `n`: none of a slot to come is missing. -/
structure Booking (cfg : UeMacConfig) (n : Nat) (slots : List NrSlSlotAlloc) (drawnAt periods : Nat)
    (base : List Nat) : Prop where
  drawn : drawnAt ≤ n
  window : ∀ b ∈ base, drawnAt + cfg.t1 ≤ b ∧ b ≤ drawnAt + cfg.t2
  expanded : ∀ a ∈ slots, ∃ j < periods, ∃ b ∈ base, a.sfn = b + j * cfg.period
  ahead : ∀ j < periods, ∀ b ∈ base, n ≤ b + j * cfg.period →
    ∃ a ∈ slots, a.sfn = b + j * cfg.period

/-- A grant without slots, or one that still has all of its slots to come. -/
def Booked (cfg : UeMacConfig) (n : Nat) (g : NrSlGrantInfo) : Prop :=
  g.slotAllocations.elems = [] ∨
    ∃ drawnAt periods base, Booking cfg n g.slotAllocations.elems drawnAt periods base

/-- No slot is granted to two destinations. -/
def GrantsDisjoint (T : GrantTable) : Prop :=
  ∀ d d' g g', d ≠ d' → T.find? d = some g → T.find? d' = some g' →
    ∀ a ∈ g.slotAllocations.elems, ∀ b ∈ g'.slotAllocations.elems, a.sfn ≠ b.sfn

structure Unshared (cfg : UeMacConfig) (n : Nat) (T : GrantTable) : Prop where
  disjoint : GrantsDisjoint T
  booked : ∀ d g, T.find? d = some g → Booked cfg n g

section Slots

variable {cfg : UeMacConfig} {n : Nat}

theorem Booking.later {slots : List NrSlSlotAlloc} {drawnAt periods m : Nat} {base : List Nat}
    (h : Booking cfg n slots drawnAt periods base) (hle : n ≤ m) :
    Booking cfg m slots drawnAt periods base where
  drawn := h.drawn.trans hle
  window := h.window
  expanded := h.expanded
  ahead := fun j hj b hb hm => h.ahead j hj b hb (hle.trans hm)

/-- A slot of now is used up. -/
theorem Booking.consumed {a : NrSlSlotAlloc} {rest : List NrSlSlotAlloc} {drawnAt periods m : Nat}
    {base : List Nat} (h : Booking cfg n (a :: rest) drawnAt periods base) (hnow : a.sfn = n)
    (hlt : n < m) : Booking cfg m rest drawnAt periods base where
  drawn := h.drawn.trans hlt.le
  window := h.window
  expanded := fun x hx => h.expanded x (List.mem_cons_of_mem a hx)
  ahead := by
    intro j hj b hb hm
    obtain ⟨x, hx, hsfn⟩ := h.ahead j hj b hb (by omega)
    rcases List.mem_cons.mp hx with rfl | hx
    · omega
    · exact ⟨x, hx, hsfn⟩

theorem Booked.later {g : NrSlGrantInfo} {m : Nat} (h : Booked cfg n g) (hle : n ≤ m) :
    Booked cfg m g := by
  rcases h with hnil | ⟨drawnAt, periods, base, hbooking⟩
  · exact Or.inl hnil
  · exact Or.inr ⟨drawnAt, periods, base, hbooking.later hle⟩

/-- A slot of the window of now, shifted by whole periods, meets no slot of a booking that lacks the
slot itself: the windows are too short for a slot of the booking to lie a period after it. -/
theorem Booking.avoids {slots : List NrSlSlotAlloc} {drawnAt periods s : Nat} {base : List Nat}
    (h : Booking cfg n slots drawnAt periods base) (hwindow : cfg.t2 + 1 ≤ cfg.t1 + cfg.period)
    (hlow : n + cfg.t1 ≤ s) (hfree : ∀ b ∈ slots, b.sfn ≠ s) (i : Nat) :
    ∀ b ∈ slots, b.sfn ≠ s + i * cfg.period := by
  intro x hx hsame
  obtain ⟨j, hj, b, hb, hsfn⟩ := h.expanded x hx
  have hwin := h.window b hb
  have hdrawn := h.drawn
  rcases Nat.lt_or_ge j i with hji | hij
  · obtain ⟨k, rfl⟩ := Nat.exists_eq_add_of_lt hji
    have hk : (j + k + 1) * cfg.period = j * cfg.period + k * cfg.period + cfg.period := by
      rw [Nat.add_mul, Nat.add_mul, Nat.one_mul]
    omega
  · obtain ⟨k, rfl⟩ := Nat.exists_eq_add_of_le hij
    have hk : (i + k) * cfg.period = i * cfg.period + k * cfg.period := Nat.add_mul i k cfg.period
    -- the slot itself belongs to period k of the booking
    obtain ⟨y, hy, hys⟩ := h.ahead k (by omega) b hb (by omega)
    exact hfree y hy (by omega)

end Slots

section Tables

variable {cfg : UeMacConfig} {n d : Nat} {T : GrantTable} {g : NrSlGrantInfo}

theorem Unshared.put (h : Unshared cfg n T) (hbooked : Booked cfg n g)
    (hnew : ∀ d' g', d' ≠ d → T.find? d' = some g' →
      ∀ a ∈ g.slotAllocations.elems, ∀ b ∈ g'.slotAllocations.elems, a.sfn ≠ b.sfn) :
    Unshared cfg n (T.put d g) where
  disjoint := by
    intro d₁ d₂ g₁ g₂ hne h₁ h₂ a ha b hb
    by_cases hd₁ : d₁ = d
    · subst hd₁
      have hg₁ : g = g₁ := Option.some.inj ((Table.find?_put_self T d₁ g).symm.trans h₁)
      subst hg₁
      rw [Table.find?_put_ne T g (Ne.symm hne)] at h₂
      exact hnew d₂ g₂ (Ne.symm hne) h₂ a ha b hb
    · rw [Table.find?_put_ne T g hd₁] at h₁
      by_cases hd₂ : d₂ = d
      · subst hd₂
        have hg₂ : g = g₂ := Option.some.inj ((Table.find?_put_self T d₂ g).symm.trans h₂)
        subst hg₂
        exact (hnew d₁ g₁ hne h₁ b hb a ha).symm
      · rw [Table.find?_put_ne T g hd₂] at h₂
        exact h.disjoint d₁ d₂ g₁ g₂ hne h₁ h₂ a ha b hb
  booked := by
    intro d₁ g₁ h₁
    by_cases hd₁ : d₁ = d
    · subst hd₁
      have hg₁ : g = g₁ := Option.some.inj ((Table.find?_put_self T d₁ g).symm.trans h₁)
      exact hg₁ ▸ hbooked
    · rw [Table.find?_put_ne T g hd₁] at h₁
      exact h.booked d₁ g₁ h₁

theorem Unshared.cleared (h : Unshared cfg n T) (hg : g.slotAllocations.elems = []) :
    Unshared cfg n (T.put d g) := by
  apply h.put (Or.inl hg)
  intro d' g' _ _ a ha
  rw [hg] at ha
  simp at ha

theorem Unshared.same (h : Unshared cfg n T) {old : NrSlGrantInfo} (hold : T.find? d = some old)
    (hg : g.slotAllocations = old.slotAllocations) : Unshared cfg n (T.put d g) := by
  have hbooked : Booked cfg n g := by
    unfold Booked
    rw [hg]
    exact h.booked d old hold
  apply h.put hbooked
  intro d' g' hne hg' a ha b hb
  rw [hg] at ha
  exact h.disjoint d d' old g' (Ne.symm hne) hold hg' a ha b hb

/-- Slots drawn in a window no longer than a period can be expanded in rising order. -/
theorem expandAllocs_window (hwindow : cfg.t2 + 1 ≤ cfg.t1 + cfg.period) (cResel : Nat)
    {A : SlotAllocSet} (hdrawn : ∀ a ∈ A.elems, n + cfg.t1 ≤ a.sfn ∧ a.sfn ≤ n + cfg.t2) :
    (expandAllocs cResel cfg.period A.elems).Pairwise fun a b => a.sfn < b.sfn := by
  have hspan : ∀ a ∈ A.elems, a.sfn < n + cfg.t1 + cfg.period := by
    intro a ha
    have hhigh := (hdrawn a ha).2
    omega
  exact expandAllocs_sorted (fun a ha => (hdrawn a ha).1) hspan

theorem createGrantInfo_window (hwindow : cfg.t2 + 1 ≤ cfg.t1 + cfg.period) {R cResel : Nat}
    {A : SlotAllocSet} (hdrawn : ∀ a ∈ A.elems, n + cfg.t1 ≤ a.sfn ∧ a.sfn ≤ n + cfg.t2)
    (h : createGrantInfo cfg R cResel A = .ok g) :
    g.slotAllocations.elems = expandAllocs cResel cfg.period A.elems := by
  have hspan : ∀ a ∈ A.elems, a.sfn < n + cfg.t1 + cfg.pool.resvPeriodInSlots cfg.pRsvpTx := by
    intro a ha
    have hhigh := (hdrawn a ha).2
    change a.sfn < n + cfg.t1 + cfg.period
    omega
  exact createGrantInfo_elems h (fun a ha => (hdrawn a ha).1) hspan

variable {W : Type} {env : SlotEnv W} {availbleReso : List NrSlSlotInfo}

theorem Unshared.fresh (h : Unshared cfg n T) (hwindow : cfg.t2 + 1 ≤ cfg.t1 + cfg.period)
    (made : FreshGrant cfg env n d (filterTxOpportunities T availbleReso) g) :
    Unshared cfg n (T.put d g) := by
  have hdrawn : ∀ a ∈ made.answer.slots.elems, (n + cfg.t1 ≤ a.sfn ∧ a.sfn ≤ n + cfg.t2) ∧
      ∀ e ∈ T.entries, e.2.slotAllocations.hasKey a.sfn = false := by
    intro a ha
    obtain ⟨c, hc, hsfn⟩ := List.mem_map.mp (made.answer.drawn a ha)
    obtain ⟨hlow, hhigh, _⟩ := made.window c hc
    rw [← hsfn]
    exact ⟨⟨hlow, hhigh⟩, (mem_filterTxOpportunities.mp hc).2⟩
  have helems := createGrantInfo_window hwindow (fun a ha => (hdrawn a ha).1) made.created
  apply h.put
  · right
    refine ⟨n, made.reselCounter * 10, made.answer.slots.elems.map (·.sfn), le_rfl, ?_, ?_, ?_⟩
    · intro b hb
      obtain ⟨a, ha, rfl⟩ := List.mem_map.mp hb
      exact (hdrawn a ha).1
    · intro x hx
      rw [helems] at hx
      obtain ⟨j, hj, a, ha, rfl⟩ := mem_expandAllocs.mp hx
      exact ⟨j, hj, a.sfn, List.mem_map_of_mem ha, rfl⟩
    · intro j hj b hb _
      obtain ⟨a, ha, rfl⟩ := List.mem_map.mp hb
      refine ⟨shiftAlloc (j * cfg.period) a, ?_, rfl⟩
      rw [helems]
      exact mem_expandAllocs.mpr ⟨j, hj, a, ha, rfl⟩
  · intro d' g' _ hg' x hx b hb hsame
    rw [helems] at hx
    obtain ⟨i, _, a, ha, rfl⟩ := mem_expandAllocs.mp hx
    have hfree : ∀ b ∈ g'.slotAllocations.elems, b.sfn ≠ a.sfn := by
      intro b hb hba
      have hnot := (hdrawn a ha).2 (d', g') (Table.find?_eq_some_iff.mp hg')
      have hyes := KeyedSet.hasKey_iff.mpr ⟨b, hb, hba⟩
      rw [hnot] at hyes
      cases hyes
    rcases h.booked d' g' hg' with hnil | ⟨drawnAt, periods, base, hbooking⟩
    · rw [hnil] at hb
      simp at hb
    · exact hbooking.avoids hwindow (hdrawn a ha).1.1 hfree i b hb hsame.symm

end Tables

section Steps

variable {W : Type} {S : RsrpScale} {cfg : UeMacConfig} {env : SlotEnv W} {n d : Nat}

theorem requestResources_unshared {st st' : UeMac × W}
    (hwindow : cfg.t2 + 1 ≤ cfg.t1 + cfg.period) (hs : Unshared cfg n st.1.grantInfo)
    (h : requestResources S cfg env n d st = .ok st') : Unshared cfg n st'.1.grantInfo := by
  rcases requestResources_made h with hsame | ⟨availbleReso, g, ⟨made⟩, hput⟩
  · rw [hsame]
    exact hs
  · rw [hput]
    exact hs.fresh hwindow made

theorem reselectDst_unshared {st st' : UeMac × W} (hwindow : cfg.t2 + 1 ≤ cfg.t1 + cfg.period)
    (hs : Unshared cfg n st.1.grantInfo) (h : reselectDst S cfg env n d st = .ok st') :
    Unshared cfg n st'.1.grantInfo := by
  unfold reselectDst at h
  split at h
  next => exact requestResources_unshared hwindow hs h
  next g hg =>
    split at h
    next =>
      rw [← pure_ok_iff.mp h]
      exact hs
    next =>
      split at h
      next =>
        obtain ⟨_, _, h⟩ := bind_ok_iff.mp h
        rw [← pure_ok_iff.mp h]
        exact hs.same hg rfl
      next =>
        have hcleared : Unshared cfg n
            (st.1.grantInfo.put d { g with slotAllocations := KeyedSet.empty }) := hs.cleared rfl
        exact requestResources_unshared hwindow (by exact hcleared) h

theorem selectionPhase_unshared {st st' : UeMac × W} (hwindow : cfg.t2 + 1 ≤ cfg.t1 + cfg.period)
    (hs : Unshared cfg n st.1.grantInfo) (h : selectionPhase S cfg env n st = .ok st') :
    Unshared cfg n st'.1.grantInfo := by
  obtain ⟨sensingData, _, h⟩ := bind_ok_iff.mp h
  unfold reselectionPhase at h
  split at h
  next => cases h
  next =>
    rw [← pure_ok_iff.mp h]
    exact hs
  next =>
    split at h
    next =>
      rw [← pure_ok_iff.mp h]
      exact hs
    next =>
      refine foldlM_invariant (P := fun st : UeMac × W => Unshared cfg n st.1.grantInfo) ?_ h hs
      intro st itDst st' _ hst hstep
      exact reselectDst_unshared hwindow hst hstep

/-- The transmission loop uses up slots of now only. -/
theorem transmissionPhase_unshared {s s' : UeMac} {sent : List Transmission} {m : Nat}
    (hsound : MacSound s) (hs : Unshared cfg n s.grantInfo) (hlt : n < m)
    (h : transmissionPhase cfg env n s = .ok (s', sent)) : Unshared cfg m s'.grantInfo where
  disjoint := by
    intro d d' g g' hne hg hg' a ha b hb
    obtain ⟨old, hold, hslots⟩ := transmissionPhase_slots hsound h hg
    obtain ⟨old', hold', hslots'⟩ := transmissionPhase_slots hsound h hg'
    exact hs.disjoint d d' old old' hne hold hold' a (hslots.subset ha) b (hslots'.subset hb)
  booked := by
    intro d g' hg'
    obtain ⟨g, hg, _⟩ := transmissionPhase_slots hsound h hg'
    obtain ⟨g₁, h₁, h₂, own, huse, _, _, _, hfind, _⟩ := transmissionPhase_turn hsound h hg
    obtain rfl := Option.some.inj (hg'.symm.trans hfind)
    have hbooked := hs.booked d g hg
    rcases useGrant_ok huse with ⟨rfl, _⟩ | ⟨_, a, rest, helems, hnow, hconsume⟩
    · exact hbooked.later hlt.le
    · have hrest : g'.slotAllocations.elems = rest := by
        rw [(consumeSlot_grant hconsume).1, KeyedSet.elems_eraseBegin, helems, List.tail_cons]
      rcases hbooked with hnil | ⟨drawnAt, periods, base, hbooking⟩
      · rw [hnil] at helems
        cases helems
      · rw [helems] at hbooking
        right
        rw [hrest]
        exact ⟨drawnAt, periods, base, hbooking.consumed hnow hlt⟩

end Steps

theorem Initial.unshared {W : Type} {cfg : UeMacConfig} {x : UeState W} (h : Initial cfg x) :
    Unshared cfg x.slot x.mac.grantInfo := by
  obtain ⟨_, k, _, hmac⟩ := h
  rw [hmac]
  have hnone : ∀ d g, (initUeMac k).grantInfo.find? d ≠ some g := by
    intro d g hg
    cases Table.find?_eq_some_iff.mp hg
  exact ⟨fun d _ g _ _ hg => absurd hg (hnone d g), fun d g hg => absurd hg (hnone d g)⟩

theorem Reachable.unshared {W : Type} {S : RsrpScale} {cfg : UeMacConfig}
    {C : SlotEnv W → UeState W → Prop} {y : UeState W} (hwindow : cfg.t2 + 1 ≤ cfg.t1 + cfg.period)
    (h : Reachable S cfg C y) : Unshared cfg y.slot y.mac.grantInfo := by
  obtain ⟨x, log, hinit, hrun⟩ := h
  refine (hrun.invariant (P := fun z => MacSound z.mac ∧ Unshared cfg z.slot z.mac.grantInfo)
    (fun env z mid sent z' hz _ step => ?_) ⟨hinit.sound, hinit.unshared⟩).2
  have hsound := step.sound hz.1
  exact ⟨hsound.2, transmissionPhase_unshared hsound.1
    (selectionPhase_unshared hwindow hz.2 step.selected) step.next.later step.transmitted⟩

theorem createGrantInfo_noDuplicate {cfg : UeMacConfig} {R cResel : Nat} {A : SlotAllocSet}
    (hsorted : (expandAllocs cResel cfg.period A.elems).Pairwise fun a b => a.sfn < b.sfn) :
    createGrantInfo cfg R cResel A ≠ .error Fault.duplicateSlotAllocation := by
  have hfails : Fails (· ≠ Fault.duplicateSlotAllocation) (createGrantInfo cfg R cResel A) := by
    refine fails_bind (fails_require (by decide)) fun _ _ =>
      fails_bind (fails_require (by decide)) fun _ _ => fails_bind ?_ fun _ _ => fails_ok _
    intro e he
    cases (emplaceAsserted_foldlM_empty cfg.assertsEnabled hsorted).symm.trans he
  intro hduplicate
  exact hfails _ hduplicate rfl

/-- In every reachable state no slot is granted twice, also in the middle of a slot indication; and
in each of them a new grant has all the slots of its periods, so that no insertion fails. -/
theorem grants_disjoint {W : Type} {S : RsrpScale} {cfg : UeMacConfig}
    {C : SlotEnv W → UeState W → Prop} {y : UeState W} (hwindow : cfg.t2 + 1 ≤ cfg.t1 + cfg.period)
    (h : Reachable S cfg C y) :
    GrantsDisjoint y.mac.grantInfo ∧
    (∀ env mid w, selectionPhase S cfg env y.slot (y.mac, y.world) = .ok (mid, w) →
      GrantsDisjoint mid.grantInfo) ∧
    ∀ now sensingData cands message (T : GrantTable) d
      (A : Allocation d (filterTxOpportunities T cands)) R cResel,
      getNrSlTxOpportunities S cfg.toSelectionConfig now sensingData y.slot = .ok (cands, message) →
      A.slots.elems.length ≤ 255 →
      createGrantInfo cfg R cResel A.slots ≠ .error Fault.duplicateSlotAllocation ∧
      ∀ g, createGrantInfo cfg R cResel A.slots = .ok g →
        g.slotAllocations.elems.length = g.nSelected * g.cReselCounter ∧
        (g.slotAllocations.elems.map (·.sfn)).Nodup := by
  have hinv := h.unshared hwindow
  refine ⟨hinv.disjoint, fun env mid w hselect => ?_, ?_⟩
  · exact (selectionPhase_unshared hwindow hinv hselect).disjoint
  · intro now sensingData cands message T d A R cResel hcands hsmall
    have hdrawn : ∀ a ∈ A.slots.elems, y.slot + cfg.t1 ≤ a.sfn ∧ a.sfn ≤ y.slot + cfg.t2 := by
      intro a ha
      obtain ⟨c, hc, hsfn⟩ := List.mem_map.mp (A.drawn a ha)
      obtain ⟨hlow, hhigh, _⟩ :=
        (getNrSlTxOpportunities_window hcands).2 c (mem_filterTxOpportunities.mp hc).1
      rw [← hsfn]
      exact ⟨hlow, hhigh⟩
    refine ⟨createGrantInfo_noDuplicate (expandAllocs_window hwindow cResel hdrawn), fun g hg => ?_⟩
    have hlength : g.slotAllocations.elems.length = cResel * A.slots.elems.length := by
      rw [createGrantInfo_window hwindow hdrawn hg]
      exact rounds_length cResel
    have hcounters : g.nSelected = A.slots.elems.length ∧ g.cReselCounter = cResel := by
      rw [createGrantInfo_ok hg]
      exact ⟨Nat.mod_eq_of_lt (by omega), rfl⟩
    constructor
    · rw [hlength, hcounters.1, hcounters.2, Nat.mul_comm]
    · exact (List.pairwise_map.mpr g.slotAllocations.sorted).imp fun hlt => hlt.ne

theorem pairDestinations_nodup : (([(255, 1), (254, 1)] : List (Nat × Nat)).map Prod.fst).Nodup := by
  decide

/-- A UE with two destinations in a pool of sidelink slots only. -/
def pairConfig : UeMacConfig :=
  { sparseConfig with
    pool := experimentPool
    sidelinkTxDestinations := [(255, 1), (254, 1)]
    nrSlLcInfoMap := [(1, 255), (1, 254)]
    destinations_nodup := pairDestinations_nodup }

theorem grants_disjoint_pair : ∃ y : UeState Unit, y.slot = 1 ∧
    firstSlots y.mac = [some 2, some 3] ∧ GrantsDisjoint y.mac.grantInfo := by
  have hview : (doNrSlSlotIndication realScale pairConfig (quietEnv true) 0
      (initUeMac 4, ())).toOption.map (fun r => firstSlots r.1.1) = some [some 2, some 3] := by
    decide +kernel
  cases hr : doNrSlSlotIndication realScale pairConfig (quietEnv true) 0 (initUeMac 4, ()) with
  | error e =>
    rw [hr] at hview
    cases hview
  | ok r =>
    rw [hr] at hview
    have hsidelink : ∀ m, pairConfig.pool.isSidelinkSlot m = true := by
      intro m
      have hall : ∀ i < 20, (List.replicate 20 true).getD i false = true := by decide
      exact hall (m % 20) (Nat.mod_lt m (by decide))
    have hnext : NextSlot pairConfig.pool 0 1 :=
      ⟨by decide, hsidelink 1, fun m hlow hhigh => by omega⟩
    obtain ⟨mid, step⟩ := (slotStep_iff (x := ⟨0, initUeMac 4, ()⟩)
      (y := (⟨1, r.1.1, r.1.2⟩ : UeState Unit)) hnext).mp hr
    have hreach : Reachable realScale pairConfig (fun _ _ => True)
        (⟨1, r.1.1, r.1.2⟩ : UeState Unit) :=
      ⟨_, _, ⟨hsidelink 0, 4, by decide, rfl⟩, .next _ _ mid r.2 [] _ .start trivial step⟩
    exact ⟨⟨1, r.1.1, r.1.2⟩, rfl, Option.some.inj hview, (grants_disjoint (by decide) hreach).1⟩

end SidelinkORe
