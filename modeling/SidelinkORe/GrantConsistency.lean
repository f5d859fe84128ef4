import SidelinkORe.SlotFaults
import SidelinkORe.SlotRun

namespace SidelinkORe

open NrSlUeMacHarq

/-- Each grant whose counter has not run out has a slot left, and its first one is not earlier than
the next slot indication. -/
def GrantsReady (n : Nat) (s : UeMac) : Prop :=
  ∀ d g, s.grantInfo.find? d = some g → 0 ≤ g.slResoReselCounter →
    ∃ a rest, g.slotAllocations.elems = a :: rest ∧ n ≤ a.sfn

section Conditions

variable {W : Type} (S : RsrpScale) (cfg : UeMacConfig) (env : SlotEnv W)

/-- The resources that the draw keeps are not partly in the past. -/
def KeepsFuture (x : UeState W) : Prop :=
  x.mac.harq.getNumAvailableHarqIds ≠ 0 →
    ∀ d g a rest, d ∈ cfg.sidelinkTxDestinations.map Prod.fst →
      x.mac.grantInfo.find? d = some g → g.slResoReselCounter < 0 →
      keepsResource cfg env d g = true → g.slotAllocations.elems = a :: rest → x.slot ≤ a.sfn

/-- The transmission in the slot `a` is sent, is the last one of its period and finds the counter at
zero. -/
def EndsGrant (harq : NrSlUeMacHarq) (g : NrSlGrantInfo) (a : NrSlSlotAlloc) : Prop :=
  g.slResoReselCounter = 0 ∧
    ((a.ndi ≠ 0 ∧ g.nSelected = 1 ∧ ∃ lc ∈ a.slRlcPduInfo, env.rlc a.dstL2Id lc.lcid = true) ∨
     (a.ndi = 0 ∧ (g.tbTxCounter + 1) % 256 = g.nSelected ∧
        ∃ p, harq.Owned a.dstL2Id g.nrSlHarqId p ∧ 0 < p.pktBurst))

/-- The first slot of a live grant after this indication falls on a sidelink slot; a grant whose last
slot is used up ends with it. -/
def UsesFuture (n : Nat) (mid : UeMac) : Prop :=
  ∀ d g a rest, mid.grantInfo.find? d = some g → 0 ≤ g.slResoReselCounter →
    g.slotAllocations.elems = a :: rest →
    (a.sfn ≠ n → cfg.pool.isSidelinkSlot a.sfn = true) ∧
    (a.sfn = n → EndsGrant env mid.harq g a ∨
      ∃ b later, rest = b :: later ∧ cfg.pool.isSidelinkSlot b.sfn = true)

/-- The condition on one slot indication under which no grant is left without a slot to come. -/
def SlotsAhead (env : SlotEnv W) (x : UeState W) : Prop :=
  KeepsFuture cfg env x ∧ ∀ mid w,
    selectionPhase S cfg env x.slot (x.mac, x.world) = .ok (mid, w) →
    UsesFuture cfg env x.slot mid

end Conditions

section Steps

variable {W : Type} {S : RsrpScale} {cfg : UeMacConfig} {env : SlotEnv W}

theorem reselected_ready {sfn d : Nat} {old new : Option NrSlGrantInfo}
    (hresel : Reselected cfg env sfn d old new)
    (hready : ∀ g ∈ old, 0 ≤ g.slResoReselCounter →
      ∃ a rest, g.slotAllocations.elems = a :: rest ∧ sfn ≤ a.sfn)
    (hkeep : ∀ g ∈ old, ∀ a rest, g.slResoReselCounter < 0 → keepsResource cfg env d g = true →
      g.slotAllocations.elems = a :: rest → sfn ≤ a.sfn) :
    ∀ g ∈ new, 0 ≤ g.slResoReselCounter →
      ∃ a rest, g.slotAllocations.elems = a :: rest ∧ sfn ≤ a.sfn := by
  cases hresel with
  | untouched => exact hready
  | kept g neg keep =>
    intro g' hg' _
    obtain rfl := Option.some.inj hg'
    have hne : g.slotAllocations.elems ≠ [] := (of_decide_eq_true keep).1
    obtain ⟨a, rest, helems⟩ := List.exists_cons_of_ne_nil hne
    exact ⟨a, rest, helems, hkeep g rfl a rest neg keep helems⟩
  | cleared g neg =>
    intro g' hg' hlive
    obtain rfl := Option.some.inj hg'
    have hcounter : 0 ≤ g.slResoReselCounter := hlive
    omega
  | fresh _ _ offered g made =>
    intro g' hg' _
    obtain rfl := Option.some.inj hg'
    obtain ⟨hne, hslots⟩ := freshGrant_slots made
    obtain ⟨a, rest, helems⟩ := List.exists_cons_of_ne_nil hne
    have hlow := (hslots a (helems ▸ List.mem_cons_self)).2
    exact ⟨a, rest, helems, by omega⟩

theorem selectionPhase_ready {x : UeState W} {mid : UeMac} {w : W}
    (hready : GrantsReady x.slot x.mac) (hkeep : KeepsFuture cfg env x)
    (h : selectionPhase S cfg env x.slot (x.mac, x.world) = .ok (mid, w)) :
    GrantsReady x.slot mid := by
  intro d g hg hlive
  obtain ⟨_, hentries⟩ := selectionPhase_ok h
  rcases hentries d with hsame | ⟨havail, hin, hresel⟩
  · exact hready d g (hsame ▸ hg) hlive
  · exact reselected_ready hresel (fun g hg => hready d g hg)
      (fun g hg a rest => hkeep havail d g a rest hin hg) g hg hlive

/-- A transmission that ends the grant brings the counter below zero. -/
theorem consumeSlot_ends {d : Nat} {harq h h' : NrSlUeMacHarq} {g g' : NrSlGrantInfo}
    {a : NrSlSlotAlloc} {sent : Option Transmission} (hends : EndsGrant env harq g a)
    (hkeep : Keeps a.dstL2Id harq h)
    (h1 : consumeSlot cfg env.rlc d { g with slotAllocations := g.slotAllocations.eraseBegin } a h =
      .ok (g', h', sent)) : g'.slResoReselCounter < 0 := by
  obtain ⟨hzero, hends⟩ := hends
  obtain ⟨g₁, h₁, txed, htransmit, hcases⟩ := consumeSlot_ok h1
  have hlast : txed = true ∧ g₁.tbTxCounter = g₁.nSelected ∧ g₁.slResoReselCounter = 0 := by
    unfold transmit at htransmit
    rcases hends with ⟨hndi, hsel, hrlc⟩ | ⟨hndi, hsel, p, hown, hburst⟩
    · rw [if_pos hndi] at htransmit
      obtain ⟨hg₁, _, hsome, _⟩ := transmitNewData_ok htransmit
      refine ⟨hsome hrlc, ?_, ?_⟩
      · rw [hg₁]
        exact hsel.symm
      · rw [hg₁]
        exact hzero
    · rw [if_neg (not_not.mpr hndi)] at htransmit
      obtain ⟨hg₁, _, q, hownq, htxed⟩ := retransmit_ok htransmit
      have hsame : q = p := by
        have hownp := ((hkeep g.nrSlHarqId p).mp hown).1
        exact Option.some.inj (hownq.1.symm.trans hownp)
      refine ⟨htxed.mpr (hsame ▸ hburst), ?_, ?_⟩
      · rw [hg₁]
        exact hsel
      · rw [hg₁]
        exact hzero
  obtain ⟨htrue, hcount, hcounter⟩ := hlast
  rcases hcases with ⟨hfalse, _⟩ | ⟨_, hclose, _⟩
  · rw [htrue] at hfalse
    cases hfalse
  · rcases closePeriod_ok hclose with ⟨hnot, _⟩ | ⟨_, hg', _⟩
    · exact absurd hcount hnot
    · rw [hg']
      change g₁.slResoReselCounter - 1 < 0
      omega

/-- One slot indication under the condition keeps every live grant ready for the next one. -/
theorem slotStep_ready {x y : UeState W} {mid : UeMac} {sent : List Transmission}
    (hsound : MacSound x.mac) (hready : GrantsReady x.slot x.mac) (hahead : SlotsAhead S cfg env x)
    (step : SlotStep S cfg env x mid sent y) : GrantsReady y.slot y.mac := by
  have hmid := (step.sound hsound).1
  have hmidReady := selectionPhase_ready hready hahead.1 step.selected
  have huses := hahead.2 mid y.world step.selected
  intro d g' hg' hlive'
  cases hg : mid.grantInfo.find? d with
  | none =>
    rw [(transmissionPhase_none step.transmitted).mpr hg] at hg'
    cases hg'
  | some g =>
    obtain ⟨g₁, h₁, h₂, own, huse, _, hkeep, _, hfind, _⟩ :=
      transmissionPhase_turn hmid step.transmitted hg
    obtain rfl := Option.some.inj (hg'.symm.trans hfind)
    rcases useGrant_ok huse with ⟨rfl, _, _, hidle⟩ | ⟨hlive, a, rest, helems, hnow, hconsume⟩
    · obtain ⟨a, rest, helems, hlow⟩ := hmidReady d g' hg hlive'
      have hlater : a.sfn ≠ x.slot := by
        rcases hidle with hdead | ⟨b, later, helems', hb⟩
        · omega
        · rw [helems] at helems'
          obtain ⟨rfl, _⟩ := List.cons.inj helems'
          exact hb
      have hsl := (huses d g' a rest hg hlive' helems).1 hlater
      exact ⟨a, rest, helems, nextSlot_le step.next (by omega) hsl⟩
    · have hdst : a.dstL2Id = d := hmid.dest d g hg a (helems ▸ List.mem_cons_self)
      rcases (huses d g a rest hg hlive helems).2 hnow with hends | ⟨b, later, hrest, hsl⟩
      · have hdead := consumeSlot_ends hends (hdst ▸ hkeep) hconsume
        omega
      · have hslots : g'.slotAllocations.elems = b :: later := by
          rw [(consumeSlot_grant hconsume).1, KeyedSet.elems_eraseBegin, helems, hrest]
          rfl
        have hsorted := KeyedSet.lt_of_mem_tail helems (hrest ▸ List.mem_cons_self : b ∈ rest)
        exact ⟨b, later, hslots, nextSlot_le step.next (by omega) hsl⟩

/-- From ready grants the transmission loop reads no empty set. -/
theorem transmissionPhase_reads {n : Nat} {mid : UeMac} (hready : GrantsReady n mid) :
    Fails (· ≠ Fault.emptySlotAllocations) (transmissionPhase cfg env n mid) := by
  refine transmissionPhase_fails ?_
  intro before d g after hsplit l st _
  have hg := (order_split hsplit).1
  have hfaults : ∀ e ∈ slotUseFaults, e ≠ Fault.emptySlotAllocations := by decide
  refine useGrant_fails hfaults (fun hlive hnil => ?_) (fun a rest _ _ _ _ => ?_)
  · obtain ⟨a, rest, helems, _⟩ := hready d g hg hlive
    rw [hnil] at helems
    cases helems
  · exact transmitNewData_fails hfaults (by decide) _ a

end Steps

/-- In a run whose slot indications all meet the condition every live grant has a slot to come, and
the transmission loop never reads an empty set. -/
theorem grantsReady_of_slotsAhead {W : Type} {S : RsrpScale} {cfg : UeMacConfig} {y : UeState W}
    (h : Reachable S cfg (SlotsAhead S cfg) y) :
    GrantsReady y.slot y.mac ∧ ∀ env mid w, SlotsAhead S cfg env y →
      selectionPhase S cfg env y.slot (y.mac, y.world) = .ok (mid, w) →
      transmissionPhase cfg env y.slot mid ≠ .error Fault.emptySlotAllocations := by
  obtain ⟨x, log, hinit, hrun⟩ := h
  have hinv := hrun.invariant (P := fun z => MacSound z.mac ∧ GrantsReady z.slot z.mac)
    (fun env z mid sent z' hz hahead step =>
      ⟨(step.sound hz.1).2, slotStep_ready hz.1 hz.2 hahead step⟩)
    ⟨hinit.sound, fun d g hg => by
      obtain ⟨_, n, _, hmac⟩ := hinit
      rw [hmac] at hg
      cases Table.find?_eq_some_iff.mp hg⟩
  refine ⟨hinv.2, fun env mid w hahead hselect herror => ?_⟩
  have hmid := selectionPhase_ready hinv.2 hahead.1 hselect
  exact transmissionPhase_reads hmid _ herror rfl

theorem grantsReady_of_slotsAhead_firstGrant :
    ∃ y : UeState Unit, y.slot = 100 ∧ firstSlots y.mac = [some 100] ∧ GrantsReady y.slot y.mac := by
  obtain ⟨mid, y, sent, step, hslot, hmid, hy⟩ := sparse_firstStep
  have hkeeps : KeepsFuture sparseConfig (quietEnv true)
      (⟨0, initUeMac 4, ()⟩ : UeState Unit) := by
    intro _ d g a rest _ hg
    cases Table.find?_eq_some_iff.mp hg
  have hahead : SlotsAhead realScale sparseConfig (quietEnv true)
      (⟨0, initUeMac 4, ()⟩ : UeState Unit) := by
    refine ⟨hkeeps, fun mid' w' hmid' d g a rest hg _ helems => ?_⟩
    obtain ⟨rfl, _⟩ := Prod.mk.inj (Except.ok.inj (step.selected.symm.trans hmid'))
    have hsfn := firstSlots_head hmid hg helems
    refine ⟨fun _ => (sparsePool_isSidelinkSlot _).mpr (by omega), fun hnow => ?_⟩
    change a.sfn = 0 at hnow
    omega
  have hreach : Reachable realScale sparseConfig (SlotsAhead realScale sparseConfig) y :=
    ⟨_, _, sparse_initial, .next _ _ mid sent [] _ .start hahead step⟩
  exact ⟨y, hslot, hy, (grantsReady_of_slotsAhead hreach).1⟩

/-- The slots of the grant of destination 255 with its counter, or the fault that stopped the run. -/
def sparseGrant (r : Except Fault (UeMac × Unit)) : Fault ⊕ Option (Int × List Nat) :=
  match r with
  | .error e => .inl e
  | .ok st => .inr ((st.1.grantInfo.find? 255).map fun g =>
      (g.slResoReselCounter, g.slotAllocations.elems.map (·.sfn)))

/-- With an empty RLC buffer the slots of all periods are used up and the counter never falls; the
next slot indication then reads the empty set. -/
theorem grantsReady_fails_emptyBuffer :
    ∃ y : UeState Unit, Reachable realScale sparseConfig (fun _ _ => True) y ∧
      ¬GrantsReady y.slot y.mac ∧
      doNrSlSlotIndication realScale sparseConfig (quietEnv false) y.slot (y.mac, y.world) =
        .error Fault.emptySlotAllocations := by
  have hend : sparseGrant (sparseRun realScale 255 (fun _ => false) 51) = .inr (some (5, [])) := by
    decide +kernel
  have hfault : faultOf (sparseRun realScale 255 (fun _ => false) 52) =
      some Fault.emptySlotAllocations := by
    decide +kernel
  cases hrun : sparseRun realScale 255 (fun _ => false) 51 with
  | error e =>
    rw [hrun] at hend
    cases hend
  | ok st =>
    rw [hrun] at hend
    obtain ⟨g, hg, hview⟩ := Option.map_eq_some_iff.mp (Sum.inr.inj hend)
    obtain ⟨hcounter, hslots⟩ := Prod.mk.inj hview
    refine ⟨⟨5100, st.1, st.2⟩, sparseRun_reachable (by decide) hrun, fun hready => ?_, ?_⟩
    · obtain ⟨a, rest, helems, _⟩ := hready 255 g hg (by omega)
      rw [helems] at hslots
      cases hslots
    · exact sparseRun_stops hrun rfl rfl (eq_error_of_faultOf hfault)

end SidelinkORe
