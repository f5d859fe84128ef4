import SidelinkORe.GrantProgress

namespace SidelinkORe

section CountDown

variable {W : Type} {S : RsrpScale} {cfg : UeMacConfig} {d R : Nat} {A : SlotAllocSet}

/-- The transmissions of one destination. -/
def usesOf (d : Nat) (log : List Transmission) : List PlannedUse :=
  (log.filter fun t => t.dstL2Id = d).map Transmission.use

/-- A planned use is still to come. -/
def UsesAhead (cfg : UeMacConfig) (R : Nat) (A : SlotAllocSet) (y : UeState W) : Prop :=
  ∃ u ∈ plannedUses R cfg.period A.elems, y.slot ≤ u.alloc.sfn

/-- The state of the grant of `d` once the run has come to the slot of `y`: it has made the planned
transmissions of the past and no other, its counter stands at `R` minus the completed periods, its
remaining slots are those still to come, and it is over exactly after the last planned one. -/
structure CountsDown (cfg : UeMacConfig) (d R : Nat) (A : SlotAllocSet) (log : List Transmission)
    (y : UeState W) : Prop where
  sent : usesOf d log =
    (plannedUses R cfg.period A.elems).filter fun u => u.alloc.sfn < y.slot
  entry : ∃ g, y.mac.grantInfo.find? d = some g ∧
    g.slResoReselCounter = (R : Int) - ((usesOf d log).length / A.elems.length : Nat) ∧
    g.slotAllocations.elems =
      (expandAllocs (R * 10) cfg.period A.elems).drop (usesOf d log).length ∧
    g.slotAllocations.elems ≠ [] ∧
    (0 ≤ g.slResoReselCounter ↔ UsesAhead cfg R A y) ∧
    ∀ env : SlotEnv W, keepsResource cfg env d g = false

/-- A slot indication of a run that follows the grant of `d` until its counter has run out. -/
def UsedUntilEnd (cfg : UeMacConfig) (d : Nat) (A : SlotAllocSet) (env : SlotEnv W) (z : UeState W) :
    Prop :=
  (∃ g, z.mac.grantInfo.find? d = some g ∧ 0 ≤ g.slResoReselCounter) ∧ RlcReady cfg d A env z.slot

/-- A slot indication that the grant of `d` is not kept from: the RLC has data for it, the
re-selection returns and nothing hinders the turn of `d`. -/
structure GrantServed (S : RsrpScale) (cfg : UeMacConfig) (d : Nat) (A : SlotAllocSet) (env : SlotEnv W)
    (y : UeState W) : Prop where
  rlc : RlcReady cfg d A env y.slot
  selected : ∃ mid w, selectionPhase S cfg env y.slot (y.mac, y.world) = .ok (mid, w) ∧
    Unhindered cfg env d y.slot mid

/-- The announced periods from `y₀` on: the counter of every run counts them, no indication that
serves the grant stops the program before the last one, and indications that all serve it come to
the end of the plan. -/
structure KeepsWord (S : RsrpScale) (cfg : UeMacConfig) (d R : Nat) (A : SlotAllocSet)
    (sent₀ : List Transmission) (y₀ : UeState W) : Prop where
  countsDown : ∀ log y, Run S cfg (UsedUntilEnd cfg d A) y₀ log y →
    CountsDown cfg d R A (sent₀ ++ log) y
  returns : ∀ log y env, Run S cfg (UsedUntilEnd cfg d A) y₀ log y → UsesAhead cfg R A y →
    GrantServed S cfg d A env y → ∃ mid sent z, SlotStep S cfg env y mid sent z
  usedUp : ∀ envAt : Nat → SlotEnv W,
    (∀ log y, Run S cfg (fun env z => env = envAt z.slot ∧ UsedUntilEnd cfg d A env z) y₀ log y →
      UsesAhead cfg R A y → GrantServed S cfg d A (envAt y.slot) y) →
    ∃ log y, Run S cfg (fun env z => env = envAt z.slot ∧ UsedUntilEnd cfg d A env z) y₀ log y ∧
      usesOf d (sent₀ ++ log) = plannedUses R cfg.period A.elems

theorem progress_transmission {n₀ n n' j : Nat} {env : SlotEnv W} {mid s' : UeMac}
    {sent : List Transmission} {g : NrSlGrantInfo} (plan : CountableGrant cfg d R n₀ A)
    (hs : MacSound mid) (hg : mid.grantInfo.find? d = some g)
    (prog : Progress cfg d R A n g mid.harq j) (hj : j < (R + 1) * A.elems.length)
    (hnext : NextSlot cfg.pool n n') (hrlc : RlcReady cfg d A env n)
    (h : transmissionPhase cfg env n mid = .ok (s', sent)) :
    ∃ g' j', s'.grantInfo.find? d = some g' ∧ Progress cfg d R A n' g' s'.harq j' ∧
      (plannedUses R cfg.period A.elems).take j' =
        (plannedUses R cfg.period A.elems).take j ++ usesOf d sent := by
  obtain ⟨g', h₁, h₂, own, huse, hsound, hk₁, hk₂, hfind, hown⟩ := transmissionPhase_turn hs h hg
  obtain ⟨j', hprog, htake⟩ :=
    progress_turn plan (prog.keeps hk₁) hj hsound hnext hrlc huse
  refine ⟨g', j', hfind, hprog.keeps hk₂, ?_⟩
  rw [htake, usesOf, hown]

/-- An indication of a slot of the grant returns when the other destinations leave it alone. -/
theorem transmissionPhase_returns {n₀ n j : Nat} {env : SlotEnv W} {mid : UeMac} {g : NrSlGrantInfo}
    (plan : CountableGrant cfg d R n₀ A) (usable : UsableGrant cfg d A) (hs : MacSound mid)
    (hsize : mid.harq.nrSlHarqPktBuffer.length < 256) (hg : mid.grantInfo.find? d = some g)
    (prog : Progress cfg d R A n g mid.harq j) (hj : j < (R + 1) * A.elems.length)
    (hrlc : RlcReady cfg d A env n) (free : Unhindered cfg env d n mid) :
    ∃ r, transmissionPhase cfg env n mid = .ok r := by
  apply exists_ok_of_fails
  apply transmissionPhase_fails
  intro before d' g' after hsplit l st hbefore e herror
  have hcomes : ComesTo cfg env n mid d' g' st.1 := ⟨before, after, l, st.2, hsplit, hbefore⟩
  obtain ⟨hown, hearlier⟩ := order_split hsplit
  by_cases hd : d' = d
  · subst hd
    obtain rfl := Option.some.inj (hown.symm.trans hg)
    have hdst : ∀ e ∈ before, e.1 ≠ d' ∧ ∀ x ∈ e.2.slotAllocations.elems, x.dstL2Id = e.1 :=
      fun e he => ⟨(hearlier e he).1, hs.dest e.1 e.2 (hearlier e he).2⟩
    obtain ⟨hsound, hkeep, _⟩ := useEntries_aside hdst hbefore hs.harq
    have hsame := (useEntries_frame (fun e he => (hdst e he).2) hbefore).2
    obtain ⟨r, hr⟩ := (prog.keeps hkeep).returns plan usable hj hsound (by rw [hsame]; exact hsize)
      hrlc fun a rest => free.idsLeft g' st.1 a rest hcomes
    rw [hr] at herror
    cases herror
  · obtain ⟨r, hr⟩ := free.others d' g' st.1 hd hcomes
    rw [hr] at herror
    cases herror

theorem plannedUses_length (R P : Nat) (l : List NrSlSlotAlloc) :
    (plannedUses R P l).length = (R + 1) * l.length := rounds_length (R + 1)

theorem Progress.split {n₀ n j : Nat} {g : NrSlGrantInfo} {h : NrSlUeMacHarq}
    (plan : CountableGrant cfg d R n₀ A) (prog : Progress cfg d R A n g h j) :
    (∀ u ∈ (plannedUses R cfg.period A.elems).take j, u.alloc.sfn < n) ∧
      ∀ u ∈ (plannedUses R cfg.period A.elems).drop j, n ≤ u.alloc.sfn := by
  have hlength := plannedUses_length R cfg.period A.elems
  have hle := prog.le
  constructor
  · intro u hu
    obtain ⟨i, hi, hget⟩ := List.mem_take_iff_getElem.mp hu
    have hi' : i < (R + 1) * A.elems.length := by omega
    obtain ⟨a, _, _, hx, hplanned, _⟩ := plan.nth hi'
    have hu' := (List.getElem?_eq_some_iff.mpr ⟨_, hget⟩).symm.trans hplanned
    obtain rfl := Option.some.inj hu'
    exact prog.done i _ (by omega) hx
  · intro u hu
    obtain ⟨i, hi, hget⟩ := List.mem_drop_iff_getElem.mp hu
    have hi' : j + i < (R + 1) * A.elems.length := by omega
    obtain ⟨a, _, _, hx, hplanned, _⟩ := plan.nth hi'
    have hu' := (List.getElem?_eq_some_iff.mpr ⟨_, hget⟩).symm.trans hplanned
    obtain rfl := Option.some.inj hu'
    obtain ⟨b, _, _, hxj, _⟩ := plan.nth (show j < (R + 1) * A.elems.length by omega)
    have hlow := prog.ahead _ (by omega) hxj
    by_cases hzero : i = 0
    · subst hzero
      have hsame := Option.some.inj (hxj.symm.trans hx)
      change n ≤ (shiftAlloc ((j + 0) / A.elems.length * cfg.period) a).sfn
      rw [← hsame]
      exact hlow
    · have hrise := sorted_getElem? plan.sorted (show j < j + i by omega) hxj hx
      change n ≤ (shiftAlloc ((j + i) / A.elems.length * cfg.period) a).sfn
      omega

theorem keepsResource_never (hprob : cfg.slProbResourceKeep = 0) (env : SlotEnv W)
    (g : NrSlGrantInfo) : keepsResource cfg env d g = false := by
  unfold keepsResource
  apply decide_eq_false
  intro hkeep
  have hdraw : (0 : ℚ) ≤ (getInteger 0 1 (env.randProb d) : ℚ) := Nat.cast_nonneg _
  have hlt := hkeep.2
  rw [hprob] at hlt
  exact absurd hlt (not_lt.mpr hdraw)

theorem countsDown_of_progress {n₀ j : Nat} {y : UeState W} {log : List Transmission}
    {g : NrSlGrantInfo} (plan : CountableGrant cfg d R n₀ A) (hprob : cfg.slProbResourceKeep = 0)
    (hg : y.mac.grantInfo.find? d = some g) (prog : Progress cfg d R A y.slot g y.mac.harq j)
    (huses : usesOf d log = (plannedUses R cfg.period A.elems).take j) :
    CountsDown cfg d R A log y := by
  obtain ⟨hbehind, hahead⟩ := prog.split plan
  have hlength := plannedUses_length R cfg.period A.elems
  have hle := prog.le
  have hcount : (usesOf d log).length = j := by
    rw [huses, List.length_take]
    omega
  have hsplit := List.take_append_drop j (plannedUses R cfg.period A.elems)
  have hlong := plan.expanded_le
  refine ⟨?_, g, hg, ?_, ?_, ?_, ?_, fun env => keepsResource_never hprob env g⟩
  · rw [huses]
    symm
    apply filter_eq_take
    · intro u hu
      exact decide_eq_true (hbehind u hu)
    · intro u hu
      have hlow := hahead u hu
      exact decide_eq_false (by omega)
  · rw [hcount]
    exact prog.counter
  · rw [hcount]
    exact prog.slots
  · intro hnil
    have hdropped := congrArg List.length (prog.slots.symm.trans hnil)
    rw [List.length_drop, expandAllocs, ← rounds, rounds_length] at hdropped
    simp only [List.length_nil] at hdropped
    omega
  · have hcounter := prog.counter
    have hdiv : j / A.elems.length < R + 1 ↔ j < (R + 1) * A.elems.length :=
      Nat.div_lt_iff_lt_mul plan.size_pos
    constructor
    · intro hlive
      have hj : j < (R + 1) * A.elems.length := hdiv.mp (by omega)
      obtain ⟨a, _, _, _, hplanned, _⟩ := plan.nth hj
      refine ⟨_, List.mem_of_getElem? hplanned, hahead _ ?_⟩
      apply List.mem_drop_iff_getElem.mpr
      obtain ⟨hlt, hget⟩ := List.getElem?_eq_some_iff.mp hplanned
      exact ⟨0, by omega, hget⟩
    · intro hmore
      obtain ⟨u, hu, hlow⟩ := hmore
      rw [← hsplit] at hu
      rcases List.mem_append.mp hu with htake | hdrop
      · have hhigh := hbehind u htake
        omega
      · have hpos := List.length_pos_of_mem hdrop
        rw [List.length_drop] at hpos
        have hj := hdiv.mpr (by omega)
        omega

/-- What the runs that follow the grant of `d` keep. -/
structure Following (cfg : UeMacConfig) (d R : Nat) (A : SlotAllocSet) (sent : List Transmission)
    (y : UeState W) : Prop where
  sound : MacSound y.mac
  size : y.mac.harq.nrSlHarqPktBuffer.length < 256
  progress : ∃ g j, y.mac.grantInfo.find? d = some g ∧
    Progress cfg d R A y.slot g y.mac.harq j ∧
    usesOf d sent = (plannedUses R cfg.period A.elems).take j

theorem Following.countsDown {n₀ : Nat} {y : UeState W} {sent : List Transmission}
    (plan : CountableGrant cfg d R n₀ A) (hprob : cfg.slProbResourceKeep = 0)
    (following : Following cfg d R A sent y) : CountsDown cfg d R A sent y := by
  obtain ⟨g, j, hg, hprog, huses⟩ := following.progress
  exact countsDown_of_progress plan hprob hg hprog huses

/-- A live grant has a planned use left. -/
theorem Progress.left {n : Nat} {g : NrSlGrantInfo} {h : NrSlUeMacHarq} {n₀ j : Nat}
    (plan : CountableGrant cfg d R n₀ A) (prog : Progress cfg d R A n g h j)
    (hlive : 0 ≤ g.slResoReselCounter) : j < (R + 1) * A.elems.length := by
  apply (Nat.div_lt_iff_lt_mul plan.size_pos).mp
  have hcounter := prog.counter
  omega

/-- The slot indication that creates the grant starts its plan. -/
theorem following_created {x y₀ : UeState W} {env₀ : SlotEnv W} {mid : UeMac}
    {sent₀ : List Transmission} {g : NrSlGrantInfo} (hreach : Reachable S cfg (fun _ _ => True) x)
    (step : SlotStep S cfg env₀ x mid sent₀ y₀) (hg : mid.grantInfo.find? d = some g)
    (created : createGrantInfo cfg R (R * 10) A = .ok g) (plan : CountableGrant cfg d R x.slot A)
    (hrlc : RlcReady cfg d A env₀ x.slot) : Following cfg d R A sent₀ y₀ := by
  obtain ⟨hmid, hsound⟩ := step.sound hreach.sound
  obtain ⟨g', j', hg', hprog, htake⟩ := progress_transmission plan hmid hg
    (progress_created plan created) (Nat.mul_pos (Nat.succ_pos R) plan.size_pos) step.next hrlc
    step.transmitted
  refine ⟨hsound, by rw [step.size hreach.sound]; exact hreach.size, g', j', hg', hprog, ?_⟩
  rw [htake, List.take_zero, List.nil_append]

theorem Following.next {n₀ : Nat} {env : SlotEnv W} {y z : UeState W} {mid : UeMac}
    {log sent : List Transmission} (plan : CountableGrant cfg d R n₀ A)
    (following : Following cfg d R A log y) (meets : UsedUntilEnd cfg d A env y)
    (step : SlotStep S cfg env y mid sent z) : Following cfg d R A (log ++ sent) z := by
  obtain ⟨g, j, hg, hprog, huses⟩ := following.progress
  obtain ⟨⟨g', hg', hlive⟩, hready⟩ := meets
  obtain rfl := Option.some.inj (hg.symm.trans hg')
  have hsound := step.sound following.sound
  have hharq : mid.harq = y.mac.harq := (selectionPhase_ok step.selected).1
  obtain ⟨g', j', hg', hprog', htake⟩ := progress_transmission plan hsound.1
    (selectionPhase_live step.selected hg hlive) (hharq ▸ hprog) (hprog.left plan hlive) step.next
    hready step.transmitted
  refine ⟨hsound.2, by rw [step.size following.sound]; exact following.size, g', j', hg', hprog', ?_⟩
  rw [htake, ← huses, usesOf, usesOf, usesOf, List.filter_append, List.map_append]

theorem Following.run {n₀ : Nat} {y₀ y : UeState W} {sent₀ log : List Transmission}
    (plan : CountableGrant cfg d R n₀ A) (following : Following cfg d R A sent₀ y₀)
    (run : Run S cfg (UsedUntilEnd cfg d A) y₀ log y) : Following cfg d R A (sent₀ ++ log) y := by
  induction run with
  | start =>
    rw [List.append_nil]
    exact following
  | next env y mid sent log z _ meets step ih =>
    rw [← List.append_assoc]
    exact ih.next plan meets step

/-- The grant is live while a planned use is to come. -/
theorem Following.live {n₀ : Nat} {y : UeState W} {log : List Transmission}
    (plan : CountableGrant cfg d R n₀ A) (hprob : cfg.slProbResourceKeep = 0)
    (following : Following cfg d R A log y) (hahead : UsesAhead cfg R A y) :
    ∃ g, y.mac.grantInfo.find? d = some g ∧ 0 ≤ g.slResoReselCounter := by
  obtain ⟨g, hg, _, _, _, hlive, _⟩ := (following.countsDown plan hprob).entry
  exact ⟨g, hg, hlive.mpr hahead⟩

/-- While a planned use is to come, an indication that serves the grant returns. -/
theorem Following.returns {n₀ : Nat} {env : SlotEnv W} {y : UeState W} {log : List Transmission}
    (plan : CountableGrant cfg d R n₀ A) (usable : UsableGrant cfg d A)
    (hprob : cfg.slProbResourceKeep = 0) (following : Following cfg d R A log y)
    (hahead : UsesAhead cfg R A y) (served : GrantServed S cfg d A env y) :
    UsedUntilEnd cfg d A env y ∧ ∃ mid sent z, SlotStep S cfg env y mid sent z := by
  obtain ⟨g, hg, hpos⟩ := following.live plan hprob hahead
  obtain ⟨mid, w, hselect, free⟩ := served.selected
  obtain ⟨g', j, hg', hprog, _⟩ := following.progress
  obtain rfl := Option.some.inj (hg.symm.trans hg')
  have hharq : mid.harq = y.mac.harq := (selectionPhase_ok hselect).1
  obtain ⟨⟨mac, sent⟩, htransmit⟩ := transmissionPhase_returns plan usable
    (selectionPhase_sound following.sound hselect) (by rw [hharq]; exact following.size)
    (selectionPhase_live hselect hg hpos) (hharq ▸ hprog) (hprog.left plan hpos) served.rlc free
  obtain ⟨a, rest, hA, _⟩ := plan.onlyFirst
  obtain ⟨n', hnext⟩ := exists_nextSlot (plan.sidelink 0 (Nat.zero_le R) a
    (hA ▸ List.mem_cons_self)) y.slot
  exact ⟨⟨⟨g, hg, hpos⟩, served.rlc⟩, mid, sent, ⟨n', mac, w⟩, hselect, htransmit, hnext⟩

/-- No planned use lies beyond the last period. -/
theorem UsesAhead.before {n₀ : Nat} {y : UeState W} (plan : CountableGrant cfg d R n₀ A)
    (hahead : UsesAhead cfg R A y) : y.slot ≤ n₀ + cfg.t2 + R * cfg.period := by
  obtain ⟨u, hu, hle⟩ := hahead
  obtain ⟨p, hp, hin⟩ := List.mem_flatMap.mp hu
  obtain ⟨a, ha, rfl⟩ := List.mem_map.mp hin
  have hhigh := (plan.window a ha).2
  have hperiods := Nat.mul_le_mul_right cfg.period (Nat.le_of_lt_succ (List.mem_range.mp hp))
  change y.slot ≤ a.sfn + p * cfg.period at hle
  omega

/-- Indications that all serve the grant lead past its last planned use: each one brings the run
closer to the end of the last period. -/
theorem Following.ends {n₀ : Nat} {C : SlotEnv W → UeState W → Prop} {x y : UeState W}
    {sent₀ log : List Transmission} (plan : CountableGrant cfg d R n₀ A)
    (usable : UsableGrant cfg d A) (hprob : cfg.slProbResourceKeep = 0)
    (hserved : ∀ log y, Run S cfg C x log y → UsesAhead cfg R A y →
      ∃ env, GrantServed S cfg d A env y ∧ (UsedUntilEnd cfg d A env y → C env y))
    (run : Run S cfg C x log y) (following : Following cfg d R A (sent₀ ++ log) y) :
    ∃ log' y', Run S cfg C x log' y' ∧ Following cfg d R A (sent₀ ++ log') y' ∧
      ¬UsesAhead cfg R A y' := by
  generalize hleft : n₀ + cfg.t2 + R * cfg.period + 1 - y.slot = left
  induction left using Nat.strongRecOn generalizing log y with
  | ind left ih =>
    by_cases hahead : UsesAhead cfg R A y
    · obtain ⟨env, served, hmeets⟩ := hserved log y run hahead
      obtain ⟨meets, mid, sent, z, step⟩ := following.returns plan usable hprob hahead served
      have hlater := step.next.later
      have hbefore := hahead.before plan
      refine ih _ ?_ (.next env y mid sent log z run (hmeets meets) step) ?_ rfl
      · omega
      · rw [← List.append_assoc]
        exact following.next plan meets step
    · exact ⟨log, y, run, following, hahead⟩

end CountDown

/-- A destination that is alone in the table is hindered only by a lack of HARQ ids. -/
theorem unhindered_of_sole {W : Type} {cfg : UeMacConfig} {env : SlotEnv W} {d n : Nat} {mid : UeMac}
    (hsole : ∀ e ∈ mid.grantInfo.entries, e.1 = d)
    (hleft : ∀ e ∈ mid.grantInfo.entries, ∀ a ∈ e.2.slotAllocations.elems,
      a.slRlcPduInfo.length ≤ mid.harq.nrSlHarqIdBuffer.length) : Unhindered cfg env d n mid := by
  constructor
  · rintro d' g h hd ⟨before, after, _, _, hsplit, _⟩
    exact absurd (hsole (d', g) (Table.find?_eq_some_iff.mp (order_split hsplit).1)) hd
  · rintro g h a rest ⟨before, after, l, log, hsplit, hsweep⟩ helems _ _
    obtain ⟨hg, hearlier⟩ := order_split hsplit
    cases before with
    | nil =>
      cases hsweep
      exact hleft (d, g) (Table.find?_eq_some_iff.mp hg) a (helems ▸ List.mem_cons_self)
    | cons e before =>
      obtain ⟨hne, he⟩ := hearlier e List.mem_cons_self
      exact absurd (hsole e (Table.find?_eq_some_iff.mp he)) hne

section Single

/-- One transmission per period, from slot 100 on. -/
def singleAllocation : SlotAllocSet :=
  KeyedSet.empty.emplace (firstSlotAlloc 255 ⟨{}, 100, ∅⟩)

theorem singleAllocation_countable : CountableGrant sparseConfig 255 5 0 singleAllocation where
  counter_pos := by decide
  counter_le := by decide
  size_le := by decide
  dest := by decide
  window := by decide
  period := by decide
  onlyFirst := ⟨_, [], rfl, by decide, by decide, by simp⟩
  sidelink := by
    intro p _ a ha
    obtain rfl := List.mem_singleton.mp ha
    apply (sparsePool_isSidelinkSlot _).mpr
    change (100 + p * 100) % 100 = 0
    omega
  noWrap := by decide

theorem singleAllocation_usable : UsableGrant sparseConfig 255 singleAllocation where
  channels := by decide
  blind := by decide
  announces := by
    intro i a ha _
    obtain rfl := List.mem_singleton.mp (List.mem_of_getElem? ha)
    exact announces_alone ⟨by decide, by decide, by decide, by decide, by decide, by decide, by decide⟩
      le_rfl

/-- Whether destination 255 is alone in the table and a HARQ id is left for its channel. -/
def soleSparse (s : UeMac) : Bool :=
  s.grantInfo.entries.all (fun e => e.1 == 255 && e.2.slotAllocations.elems.all fun a =>
    decide (a.slRlcPduInfo.length ≤ 1)) && decide (1 ≤ s.harq.nrSlHarqIdBuffer.length)

theorem soleSparse_unhindered {s : UeMac} (h : soleSparse s = true) (n : Nat) :
    Unhindered sparseConfig (quietEnv true) 255 n s := by
  simp only [soleSparse, Bool.and_eq_true, List.all_eq_true, beq_iff_eq, decide_eq_true_eq] at h
  exact unhindered_of_sole (fun e he => (h.1 e he).1) fun e he a ha =>
    ((h.1 e he).2 a ha).trans h.2

/-- Whether the re-selection of the sparse run returns in slot `100 * k` and hinders nothing. -/
def servesSparse (S : RsrpScale) (k : Nat) : Bool :=
  match sparseRun S 4 (fun _ => true) k with
  | .error _ => false
  | .ok st => (selectionPhase S sparseConfig (quietEnv true) (100 * k) st).toOption.any
      fun r => soleSparse r.1

theorem servesSparse_selected {S : RsrpScale} {k : Nat} {st : UeMac × Unit}
    (h : servesSparse S k = true) (hrun : sparseRun S 4 (fun _ => true) k = .ok st) :
    ∃ mid w, selectionPhase S sparseConfig (quietEnv true) (100 * k) st = .ok (mid, w) ∧
      Unhindered sparseConfig (quietEnv true) 255 (100 * k) mid := by
  unfold servesSparse at h
  rw [hrun] at h
  dsimp only at h
  cases hselect : selectionPhase S sparseConfig (quietEnv true) (100 * k) st with
  | error e =>
    rw [hselect] at h
    cases h
  | ok r =>
    rw [hselect] at h
    exact ⟨r.1, r.2, rfl, soleSparse_unhindered h _⟩

end Single

section Contended

/-- A pool in which every slot is a sidelink slot. -/
def contendedPool : NrSlCommResourcePool :=
  { sparsePool with
    phyPool := [true]
    phyPool_ne_nil := by decide }

/-- Five destinations that share the selection window of ten slots. -/
def contendedConfig : UeMacConfig :=
  { sparseConfig with
    pool := contendedPool
    t2 := 11
    sidelinkTxDestinations := [(1, 1), (2, 1), (3, 1), (4, 1), (5, 1)]
    nrSlLcInfoMap := [(1, 1), (1, 2), (1, 3), (1, 4), (1, 5)]
    destinations_nodup := by decide }

/-- New data in one slot, and its retransmission in another. -/
def pairAlloc (dstL2Id : Nat) (c last : NrSlSlotInfo) : SlotAllocSet :=
  (KeyedSet.empty.emplace (firstSlotAlloc dstL2Id c)).emplace
    { firstSlotAlloc dstL2Id last with ndi := 0 }

theorem mem_pairAlloc {dstL2Id : Nat} {c last : NrSlSlotInfo} {a : NrSlSlotAlloc}
    (h : a ∈ (pairAlloc dstL2Id c last).elems) :
    a.dstL2Id = dstL2Id ∧ (a.sfn = c.sfn ∨ a.sfn = last.sfn) := by
  rcases mem_insertByKey h with rfl | h
  · exact ⟨rfl, Or.inr rfl⟩
  · rcases mem_insertByKey h with rfl | h
    · exact ⟨rfl, Or.inl rfl⟩
    · simp at h

/-- The first and the last of the offered slots. -/
def pairAllocation (dstL2Id : Nat) (c : NrSlSlotInfo) (rest : List NrSlSlotInfo) :
    Allocation dstL2Id (c :: rest) where
  slots := pairAlloc dstL2Id c ((c :: rest).getLast (List.cons_ne_nil _ _))
  nonempty := by
    obtain ⟨a, ha, _⟩ := @exists_key_insertByKey NrSlSlotAlloc Nat _ NrSlSlotAlloc.sfn
      { firstSlotAlloc dstL2Id ((c :: rest).getLast (List.cons_ne_nil _ _)) with ndi := 0 }
      ((KeyedSet.empty : SlotAllocSet).emplace (firstSlotAlloc dstL2Id c)).elems
    exact List.ne_nil_of_mem ha
  dest := fun _ ha => (mem_pairAlloc ha).1
  drawn := by
    intro a ha
    rcases (mem_pairAlloc ha).2 with hfirst | hlast
    · rw [hfirst]
      exact List.mem_map_of_mem List.mem_cons_self
    · rw [hlast]
      exact List.mem_map_of_mem (List.getLast_mem _)

def pairScheduler (dstL2Id : Nat) : (offered : List NrSlSlotInfo) → Unit →
    Except Fault (Unit × Option (Allocation dstL2Id offered))
  | [], w => .ok (w, none)
  | c :: rest, w => .ok (w, some (pairAllocation dstL2Id c rest))

/-- The RLC has data in every slot. -/
def contendedEnv : SlotEnv Unit := { quietEnv true with schedule := pairScheduler }

def contendedRun (S : RsrpScale) : Nat → Except Fault (UeMac × Unit) :=
  slotRun S contendedConfig id (fun _ => contendedEnv) (initUeMac 4, ())

theorem contendedPool_next (k : Nat) : NextSlot contendedPool k (k + 1) where
  later := Nat.lt_succ_self k
  sidelink := by simp [NrSlCommResourcePool.isSidelinkSlot, contendedPool, Nat.mod_one]
  between := fun m hlow hhigh => by omega

/-- What is left for the last destination: the slots 6 and 7. -/
def innermostPair : SlotAllocSet := pairAlloc 5 ⟨{}, 6, ∅⟩ ⟨{}, 7, ∅⟩

theorem innermostPair_countable : CountableGrant contendedConfig 5 5 0 innermostPair where
  counter_pos := by decide
  counter_le := by decide
  size_le := by decide
  dest := by decide
  window := by decide
  period := by decide
  onlyFirst := ⟨_, _, rfl, by decide, by decide, by decide⟩
  sidelink := by
    intro p _ a _
    simp [NrSlCommResourcePool.isSidelinkSlot, contendedConfig, contendedPool, Nat.mod_one]
  noWrap := by decide

theorem innermostPair_usable : UsableGrant contendedConfig 5 innermostPair where
  channels := by decide
  blind := by decide
  announces := by
    intro i a ha _
    have hin := List.mem_of_getElem? ha
    have hpriority : ∀ b ∈ innermostPair.elems, b.priority < 255 := by decide
    have hmcs : ∀ b ∈ innermostPair.elems, b.mcs < 255 := by decide
    have hstart : ∀ b ∈ innermostPair.elems, b.slPsschSubChStart < 255 := by decide
    have hlength : ∀ b ∈ innermostPair.elems, b.slPsschSubChLength < 255 := by decide
    have hreserve : ∀ b ∈ innermostPair.elems, b.maxNumPerReserve = 1 := by decide
    have hindicated : ∀ b ∈ innermostPair.elems, b.slotNumInd ≤ 1 := by decide
    exact announces_alone ⟨hpriority a hin, hmcs a hin, by decide, by decide, hstart a hin,
      hlength a hin, Or.inl (hreserve a hin)⟩ (hindicated a hin)

/-- Whether the indication of slot `k` is reached and finds no HARQ id left. -/
def contendedStops (S : RsrpScale) (k : Nat) : Bool :=
  match contendedRun S k with
  | .error _ => false
  | .ok st => faultOf (doNrSlSlotIndication S contendedConfig contendedEnv k st) ==
      some Fault.harqAllBusy

end Contended

end SidelinkORe
