import SidelinkORe.SlotFaults
import SidelinkORe.SlotRun

namespace SidelinkORe

/-- The faults other than the two assertions on the re-selection counter. -/
def CounterHolds (e : Fault) : Prop := e ≠ .keepCounterNegative ∧ e ≠ .replacedCounterNegative

instance : DecidablePred CounterHolds := fun e =>
  inferInstanceAs (Decidable (e ≠ .keepCounterNegative ∧ e ≠ .replacedCounterNegative))

section Conditions

variable {W : Type} (S : RsrpScale) (cfg : UeMacConfig) (env : SlotEnv W)

/-- What the MAC calls raises none of the assertions of the MAC. -/
structure QuietCallbacks (env : SlotEnv W) : Prop where
  passSensingData : ∀ m w, Fails CounterHolds (env.passSensingData m w)
  schedule : ∀ d offered w, Fails CounterHolds (env.schedule d offered w)

/-- The request of `d` in slot `n` gets to the scheduler, which answers with an allocation. -/
def Answered (n d : Nat) (st : UeMac × W) : Prop :=
  ∃ R cands message w w' A, getRndmReselectionCounter cfg (env.reselDraw d) = .ok R ∧
    getNrSlTxOpportunities S cfg.toSelectionConfig env.now st.1.sensingData n = .ok (cands, message) ∧
    deliver env message st.2 = .ok w ∧ filterTxOpportunities st.1.grantInfo cands ≠ [] ∧
    env.schedule d (filterTxOpportunities st.1.grantInfo cands) w = .ok (w', some A)

/-- The state at the turn of `d` in which its old allocations are erased. -/
def clearSlots (d : Nat) (g : NrSlGrantInfo) (st : UeMac × W) : UeMac × W :=
  ({ st.1 with grantInfo := st.1.grantInfo.put d { g with slotAllocations := KeyedSet.empty } }, st.2)

/-- The grant of `d` has run out, and its resources are kept or replaced. -/
def RenewsExpired (n d : Nat) (st : UeMac × W) : Prop :=
  ∃ g, st.1.grantInfo.find? d = some g ∧ g.slResoReselCounter < 0 ∧
    (keepsResource cfg env d g = true ∨ Answered S cfg env n d (clearSlots d g st))

/-- Slot indications one after the other, each with its slot and what it meets. -/
def indications (inputs : List (Nat × SlotEnv W)) (st : UeMac × W) : Except Fault (UeMac × W) :=
  inputs.foldlM (fun st input => do
    let r ← doNrSlSlotIndication S cfg input.2 input.1 st
    pure r.1) st

/-- In the run the re-selection of slot `n` comes to the turn of `d` in the state `st`. -/
structure ReselectionTurn (inputs : List (Nat × SlotEnv W)) (start : UeMac × W) (env : SlotEnv W) (n d : Nat)
    (st : UeMac × W) : Prop where
  ueSelected : cfg.schedulingType = .ueSelected
  reached : ∃ before after st₀ sensingData pre post p,
    inputs = before ++ (n, env) :: after ∧ indications S cfg before start = .ok st₀ ∧
    updateSensingWindow cfg.toSelectionConfig (receiveSensingData cfg env st₀.1.sensingData) n =
      .ok sensingData ∧
    st₀.1.harq.getNumAvailableHarqIds ≠ 0 ∧ cfg.sidelinkTxDestinations = pre ++ (d, p) :: post ∧
    pre.foldlM (fun st itDst => reselectDst S cfg env n itDst.1 st)
      ({ st₀.1 with sensingData := sensingData }, st₀.2) = .ok st

end Conditions

section Selection

variable {W : Type} {S : RsrpScale} {cfg : UeMacConfig} {env : SlotEnv W} {n d : Nat}

theorem eraseOutdated_fails (oldest : Nat) (l : List SensingData) :
    Fails CounterHolds (eraseOutdated oldest l) := by
  induction l using eraseOutdated.induct oldest with
  | case1 => exact fails_ok _
  | case2 it hold =>
    rw [eraseOutdated, if_pos hold]
    exact fails_error (by decide)
  | case3 it hnew =>
    rw [eraseOutdated, if_neg hnew]
    exact fails_ok _
  | case4 it skipped rest hold ih =>
    rw [eraseOutdated, if_pos hold]
    exact fails_bind ih fun _ _ => fails_ok _
  | case5 it skipped rest hnew =>
    rw [eraseOutdated, if_neg hnew]
    exact fails_ok _

theorem getRndmReselectionCounter_fails (draw : Nat) :
    Fails CounterHolds (getRndmReselectionCounter cfg draw) :=
  fails_ite (fun _ => fails_ok _) fun _ =>
    fails_ite (fun _ => fails_ok _) fun _ => fails_error (by decide)

theorem trimTproc0_fails (cfg : SelectionConfig) (sfn : Nat) (l : List SensingData) :
    Fails CounterHolds (trimTproc0 cfg sfn l) := by
  have hpop : ∀ l, Fails CounterHolds (popLatest cfg sfn l) := by
    intro l
    induction l with
    | nil => exact fails_error (by decide)
    | cons it rest ih => exact fails_ite (fun _ => ih) fun _ => fails_ok _
  exact fails_bind (hpop _) fun _ _ => fails_ok _

theorem getNrSlTxOpportunities_fails (now : Nat) (sensingData : List SensingData) :
    Fails CounterHolds (getNrSlTxOpportunities S cfg.toSelectionConfig now sensingData n) := by
  unfold getNrSlTxOpportunities
  refine fails_bind (fails_bind (fails_require (by decide)) fun _ _ => fails_ok _) fun opps _ => ?_
  split
  next => exact fails_ok _
  next =>
    refine fails_ite (fun _ => fails_ite (fun _ => fails_ok _) fun _ => ?_) fun _ => fails_ok _
    exact fails_bind (trimTproc0_fails _ _ _) fun _ _ => fails_ok _

theorem createGrantInfo_fails (R cResel : Nat) (A : SlotAllocSet) :
    Fails CounterHolds (createGrantInfo cfg R cResel A) := by
  refine fails_bind (fails_require (by decide)) fun _ _ =>
    fails_bind (fails_require (by decide)) fun _ _ => fails_bind ?_ fun _ _ => fails_ok _
  exact fails_foldlM (fun _ _ _ => fails_bind (fails_require (by decide)) fun _ _ => fails_ok _) _

theorem requestResources_fails {st : UeMac × W} (quiet : QuietCallbacks env)
    (hlive : Answered S cfg env n d st → ∀ old ∈ st.1.grantInfo.find? d, 0 ≤ old.slResoReselCounter) :
    Fails CounterHolds (requestResources S cfg env n d st) := by
  refine fails_bind (getRndmReselectionCounter_fails _) fun R hR =>
    fails_bind (getNrSlTxOpportunities_fails _ _) fun p hp => ?_
  obtain ⟨cands, message⟩ := p
  have hdeliver : Fails CounterHolds (deliver env message st.2) := by
    unfold deliver
    split
    next => exact fails_ok _
    next m => exact quiet.passSensingData m _
  refine fails_bind hdeliver fun w hw => fails_ite (fun _ => fails_ok _) fun hsome => ?_
  refine fails_bind (quiet.schedule d _ w) fun r hr => ?_
  obtain ⟨w', answer⟩ := r
  cases answer with
  | none => exact fails_ok _
  | some A =>
    have hold := hlive ⟨R, cands, message, w, w', A, hR, hp, hw, hsome, hr⟩
    refine fails_bind (fails_bind (fails_orFault (by decide)) fun first hfirst => ?_)
      fun _ _ => fails_ok _
    have hdst : first.dstL2Id = d := A.dest first (List.mem_of_head? (orFault_ok_iff.mp hfirst))
    refine fails_bind ?_ fun _ _ => fails_bind (createGrantInfo_fails _ _ _) fun _ _ =>
      fails_bind (fails_require (by decide)) fun _ _ => fails_ok _
    intro e he
    obtain ⟨hnot, _⟩ := require_error_iff.mp he
    rw [hdst] at hnot
    exact absurd (fun _ => hold) hnot

/-- A turn that renews no grant that has run out meets both assertions. -/
theorem reselectDst_fails {st : UeMac × W} (quiet : QuietCallbacks env)
    (hturn : ¬RenewsExpired S cfg env n d st) : Fails CounterHolds (reselectDst S cfg env n d st) := by
  unfold reselectDst
  split
  next hnone =>
    apply requestResources_fails quiet
    intro _ old hold
    rw [hnone] at hold
    cases hold
  next g hg =>
    refine fails_ite (fun _ => fails_ok _) fun hneg => fails_ite (fun hkeep => ?_) fun _ => ?_
    · exact absurd ⟨g, hg, by omega, Or.inl hkeep⟩ hturn
    · apply requestResources_fails quiet
      intro hanswer
      exact absurd ⟨g, hg, by omega, Or.inr hanswer⟩ hturn

/-- With assertions, a turn that renews a grant that has run out stops at one of the two. -/
theorem reselectDst_stops {st : UeMac × W} (hasserts : cfg.assertsEnabled = true)
    (hturn : RenewsExpired S cfg env n d st) :
    ∃ e, ¬CounterHolds e ∧ reselectDst S cfg env n d st = .error e := by
  obtain ⟨g, hg, hneg, hrenewed⟩ := hturn
  have hdead : ¬0 ≤ g.slResoReselCounter := by omega
  unfold reselectDst
  rw [hg]
  dsimp only
  rw [if_neg hdead]
  by_cases hkeep : keepsResource cfg env d g = true
  · refine ⟨.keepCounterNegative, by decide, ?_⟩
    rw [if_pos hkeep]
    exact bind_of_error (require_error_iff.mpr ⟨fun hall => hdead (hall hasserts), rfl⟩)
  · obtain ⟨R, cands, message, w, w', A, hR, hcands, hw, hsome, hanswer⟩ := hrenewed.resolve_left hkeep
    obtain ⟨first, hfirst⟩ := Option.isSome_iff_exists.mp (List.isSome_head?.mpr A.nonempty)
    have hdst : first.dstL2Id = d := A.dest first (List.mem_of_head? hfirst)
    have hrefused : doSchedUeNrSlConfigInd cfg R (R * 10 % 65536) (clearSlots d g st).1.grantInfo
        A.slots = .error .replacedCounterNegative := by
      refine (bind_of_ok (orFault_ok_iff.mpr hfirst)).trans (bind_of_error ?_)
      refine require_error_iff.mpr ⟨fun hall => hdead ?_, rfl⟩
      apply hall hasserts { g with slotAllocations := KeyedSet.empty }
      rw [hdst]
      exact Table.find?_put_self _ _ _
    refine ⟨.replacedCounterNegative, by decide, ?_⟩
    rw [if_neg hkeep]
    refine (bind_of_ok hR).trans ((bind_of_ok hcands).trans ((bind_of_ok hw).trans ?_))
    refine (if_neg hsome).trans ((bind_of_ok hanswer).trans ?_)
    exact bind_of_error hrefused

theorem transmissionPhase_counterHolds (s : UeMac) :
    Fails CounterHolds (transmissionPhase cfg env n s) := by
  have hfaults : ∀ e ∈ slotUseFaults, CounterHolds e := by decide
  refine transmissionPhase_fails fun _ d g _ _ _ st _ => ?_
  exact useGrant_fails hfaults (fun _ _ => by decide) fun a _ _ _ _ _ =>
    transmitNewData_fails hfaults (by decide) _ a

theorem selectionPhase_counterHolds {st₀ : UeMac × W}
    (hturns : cfg.schedulingType = .ueSelected → ∀ sensingData,
      updateSensingWindow cfg.toSelectionConfig (receiveSensingData cfg env st₀.1.sensingData) n =
        .ok sensingData → st₀.1.harq.getNumAvailableHarqIds ≠ 0 →
      ∀ pre d p post st, cfg.sidelinkTxDestinations = pre ++ (d, p) :: post →
        pre.foldlM (fun st itDst => reselectDst S cfg env n itDst.1 st)
          ({ st₀.1 with sensingData := sensingData }, st₀.2) = .ok st →
        Fails CounterHolds (reselectDst S cfg env n d st)) :
    Fails CounterHolds (selectionPhase S cfg env n st₀) := by
  refine fails_bind (eraseOutdated_fails _ _) fun sensingData hsensing => ?_
  unfold reselectionPhase
  cases htype : cfg.schedulingType with
  | unknown => exact fails_error (by decide)
  | scheduled => exact fails_ok _
  | ueSelected =>
    refine fails_ite (fun _ => fails_ok _) fun havail => ?_
    refine fails_foldlM_at fun pre itDst post st hsplit hpre => ?_
    exact hturns htype sensingData hsensing havail pre itDst.1 itDst.2 post st hsplit hpre

theorem selectionPhase_stops {st₀ st : UeMac × W} {sensingData : List SensingData}
    {pre post : List (Nat × Nat)} {p : Nat} {e : Fault} (htype : cfg.schedulingType = .ueSelected)
    (hsensing : updateSensingWindow cfg.toSelectionConfig
      (receiveSensingData cfg env st₀.1.sensingData) n = .ok sensingData)
    (havail : st₀.1.harq.getNumAvailableHarqIds ≠ 0)
    (hsplit : cfg.sidelinkTxDestinations = pre ++ (d, p) :: post)
    (hpre : pre.foldlM (fun st itDst => reselectDst S cfg env n itDst.1 st)
      ({ st₀.1 with sensingData := sensingData }, st₀.2) = .ok st)
    (hstop : reselectDst S cfg env n d st = .error e) :
    selectionPhase S cfg env n st₀ = .error e := by
  refine (bind_of_ok hsensing).trans ?_
  unfold reselectionPhase
  rw [htype]
  refine (if_neg havail).trans ?_
  rw [hsplit]
  exact foldlM_error_at hpre hstop

end Selection

/-- A run stops at neither assertion exactly when no turn renews a grant that has run out: the
guards before both assertions let only such a grant through. -/
theorem countersHold_iff {W : Type} {S : RsrpScale} {cfg : UeMacConfig}
    {inputs : List (Nat × SlotEnv W)} (hasserts : cfg.assertsEnabled = true)
    (hquiet : ∀ input ∈ inputs, QuietCallbacks input.2) (numSidelinkProcess : Nat) (w : W) :
    Fails CounterHolds (indications S cfg inputs (initUeMac numSidelinkProcess, w)) ↔
      ∀ env n d st, ReselectionTurn S cfg inputs (initUeMac numSidelinkProcess, w) env n d st →
        ¬RenewsExpired S cfg env n d st := by
  constructor
  · intro hholds env n d st hturn hrenews
    obtain ⟨htype, before, after, st₀, sensingData, pre, post, p, hinputs, hbefore, hsensing, havail,
      hsplit, hpre⟩ := hturn
    obtain ⟨e, he, hstop⟩ := reselectDst_stops hasserts hrenews
    have hselect : selectionPhase S cfg env n st₀ = .error e :=
      selectionPhase_stops htype hsensing havail hsplit hpre hstop
    apply he
    apply hholds e
    rw [hinputs]
    exact foldlM_error_at hbefore (bind_of_error (bind_of_error hselect))
  · intro hturns
    refine fails_foldlM_at fun before input after st₀ hinputs hbefore => ?_
    refine fails_bind (fails_bind ?_ fun _ _ => fails_bind (transmissionPhase_counterHolds _)
      fun _ _ => fails_ok _) fun _ _ => fails_ok _
    refine selectionPhase_counterHolds fun htype sensingData hsensing havail pre d p post st hsplit
      hpre => ?_
    apply reselectDst_fails (hquiet input (hinputs ▸ by simp))
    exact hturns input.2 input.1 d st ⟨htype, before, after, st₀, sensingData, pre, post, p, hinputs,
      hbefore, hsensing, havail, hsplit, hpre⟩

theorem quietEnv_quiet (rlc : Bool) : QuietCallbacks (quietEnv rlc) where
  passSensingData := fun _ w => fails_ok w
  schedule := by
    intro d offered w
    cases offered with
    | nil => exact fails_ok _
    | cons c rest => exact fails_ok _

theorem countersHold_iff_firstIndication : Fails CounterHolds
    (indications realScale sparseConfig [(0, quietEnv true)] (initUeMac 4, ())) := by
  refine (countersHold_iff rfl (fun input hin => ?_) 4 ()).mpr ?_
  · obtain rfl := List.mem_singleton.mp hin
    exact quietEnv_quiet true
  · intro env n d st hturn hrenews
    obtain ⟨_, before, after, st₀, sensingData, pre, post, p, hinputs, hbefore, _, _, hsplit, hpre⟩ :=
      hturn
    have hbefore_nil : before = [] := (List.append_eq_singleton_iff.mp hinputs.symm).elim
      (fun h => h.1) fun h => absurd h.2 (List.cons_ne_nil _ _)
    have hpre_nil : pre = [] := (List.append_eq_singleton_iff.mp hsplit.symm).elim
      (fun h => h.1) fun h => absurd h.2 (List.cons_ne_nil _ _)
    subst hbefore_nil hpre_nil
    obtain rfl := pure_ok_iff.mp hbefore
    obtain rfl := pure_ok_iff.mp hpre
    obtain ⟨g, hg, _⟩ := hrenews
    cases Table.find?_eq_some_iff.mp hg

/-- Indications in slots 0, 100 and so on up to 700, each with data to send. -/
def eightIndications : List (Nat × SlotEnv Unit) :=
  (List.range 8).map fun k => (100 * k, quietEnv true)

/-- The grant made in slot 0 runs out in slot 600; the next answer of the scheduler then replaces
it, with its counter at minus one. -/
theorem countersHold_fails_expired :
    ¬Fails CounterHolds (indications realScale sparseConfig eightIndications (initUeMac 4, ())) := by
  have hfault : faultOf (indications realScale sparseConfig eightIndications (initUeMac 4, ())) =
      some .replacedCounterNegative := by decide +kernel
  intro hholds
  exact (hholds _ (eq_error_of_faultOf hfault)).2 rfl

end SidelinkORe
