import SidelinkORe.PythonLoop
import SidelinkORe.SchedulerAnswer
import SidelinkORe.SlotIndication

namespace SidelinkORe

/-- What passes between the UEs and Python; `k` numbers the slot indications of all UEs. -/
inductive ExchangeEvent (ι : Type) where
  | passed (ue : ι) (k : Nat) (m : SensingMessage)
  | instructed (ue : ι) (k : Nat) (used : Option SensingRecord)
  deriving DecidableEq

/-- The Python loop together with the history of its messages. -/
structure Exchange (ι E : Type) where
  python : PythonState E
  log : List (ExchangeEvent ι)

structure UeNode where
  cfg : UeMacConfig
  sched : SchedulerConfig
  imsi_pos : 0 < cfg.imsi
  numSidelinkProcess : Nat

/-- The UEs of a simulation and the part of Python that is given. -/
structure Simulation (ι E : Type) where
  node : ι → UeNode
  numUe : Nat
  t1 : Nat
  estimates : E
  select : E → SensingRecord → Except Fault (SelectionMode × E)

/-- The slot indication of one UE with all it meets: sensed messages, draws and buffers. -/
structure Indication (ι : Type) where
  ue : ι
  sfn : Nat
  received : List SensingData
  now : Nat
  randProb : Nat → Nat
  reselDraw : Nat → Nat
  dstMcs : Nat → Nat
  lcgs : Nat → List SchedulerLcg
  draws : Nat → Draws
  rlc : Nat → Nat → Bool
  order : (T : GrantTable) → {l : List (Nat × NrSlGrantInfo) // l.Perm T.entries}

structure SimulationState (ι E : Type) where
  count : Nat
  mac : ι → UeMac
  exchange : Exchange ι E

section Simulation

variable {ι E : Type} (sys : Simulation ι E)

def passTo (ue : ι) (k : Nat) (m : SensingMessage) (w : Exchange ι E) :
    Except Fault (Exchange ι E) := do
  let python ← loadSensingData m w.python
  pure ⟨python, w.log ++ [.passed ue k m]⟩

def askPython (ue : ι) (k : Nat) (w : Exchange ι E) : Except Fault (Text × Exchange ι E) := do
  let (used, text, python) ← selectResources sys.select sys.t1 w.python
  pure (text, ⟨python, w.log ++ [.instructed ue k used]⟩)

/-- The scheduler's reply as the MAC gets it. -/
def Scheduled.reply {W : Type} {sched : SchedulerConfig} {ask : W → Except Fault (Text × W)}
    {txOpps : List NrSlSlotInfo} {dst : SchedulerDstInfo} {draws : Draws} {w : W} (r : Scheduled W)
    (h : doNrSlAllocation sched ask txOpps dst draws w = .ok r) :
    Option (Allocation dst.dstL2Id txOpps) :=
  match hA : r.slotAllocList with
  | none => none
  | some _ => some (allocationOf h hA)

def askScheduler (sched : SchedulerConfig) (k : Nat) (ind : Indication ι) (dstL2Id : Nat)
    (offered : List NrSlSlotInfo) (w : Exchange ι E) :
    Except Fault (Exchange ι E × Option (Allocation dstL2Id offered)) :=
  match h : doNrSlAllocation sched (askPython sys ind.ue k) offered
      ⟨dstL2Id, ind.dstMcs dstL2Id, ind.lcgs dstL2Id⟩ (ind.draws dstL2Id) w with
  | .error e => .error e
  | .ok r => .ok (r.world, r.reply h)

def slotEnv (k : Nat) (ind : Indication ι) : SlotEnv (Exchange ι E) where
  received := ind.received
  now := ind.now
  randProb := ind.randProb
  reselDraw := ind.reselDraw
  passSensingData := passTo ind.ue k
  schedule := askScheduler sys (sys.node ind.ue).sched k ind
  rlc := ind.rlc
  order := ind.order

variable (S : RsrpScale) [DecidableEq ι]

def indicate (st : SimulationState ι E) (ind : Indication ι) :
    Except Fault (SimulationState ι E) := do
  let (result, _) ← doNrSlSlotIndication S (sys.node ind.ue).cfg (slotEnv sys st.count ind) ind.sfn
    (st.mac ind.ue, st.exchange)
  pure ⟨st.count + 1, Function.update st.mac ind.ue result.1, result.2⟩

def initSimulation : SimulationState ι E where
  count := 0
  mac := fun i => initUeMac (sys.node i).numSidelinkProcess
  exchange := ⟨initPython sys.numUe sys.estimates, []⟩

/-- The slot indications of the UEs one after the other, in any order. -/
def simulate (inds : List (Indication ι)) : Except Fault (SimulationState ι E) :=
  inds.foldlM (indicate sys S) (initSimulation sys)

end Simulation

section Log

variable {ι : Type}

namespace ExchangeEvent

def ue : ExchangeEvent ι → ι
  | .passed ue _ _ => ue
  | .instructed ue _ _ => ue

def number : ExchangeEvent ι → Nat
  | .passed _ k _ => k
  | .instructed _ k _ => k

def message : ExchangeEvent ι → Option (ι × Nat × SensingMessage)
  | .passed ue k m => some (ue, k, m)
  | .instructed _ _ _ => none

end ExchangeEvent

open ExchangeEvent

def lastPassed (log : List (ExchangeEvent ι)) : Option (ι × Nat × SensingMessage) :=
  (log.filterMap message).getLast?

/-- The instruction number `k` comes from the record that the same UE passed in the same slot
indication. -/
def FreshAfter (before : List (ExchangeEvent ι)) (ue : ι) (k : Nat) (used : Option SensingRecord) :
    Prop :=
  ∃ m r, .passed ue k m ∈ before ∧ used = some r ∧ RecordOf m r

def SomePassed (before : List (ExchangeEvent ι)) : Prop := ∃ ue k m, .passed ue k m ∈ before

/-- Every instruction after the first message is fresh. -/
def SelectionsFresh (log : List (ExchangeEvent ι)) : Prop :=
  ∀ before after ue k used, log = before ++ .instructed ue k used :: after → SomePassed before →
    FreshAfter before ue k used

theorem lastPassed_append (log log' : List (ExchangeEvent ι)) :
    lastPassed (log ++ log') = (lastPassed log').or (lastPassed log) := by
  unfold lastPassed
  rw [List.filterMap_append, List.getLast?_append]

theorem lastPassed_mem {log : List (ExchangeEvent ι)} {ue : ι} {k : Nat} {m : SensingMessage}
    (h : lastPassed log = some (ue, k, m)) : .passed ue k m ∈ log := by
  obtain ⟨e, he, hmessage⟩ := List.mem_filterMap.mp (List.mem_of_getLast? h)
  cases e with
  | passed ue' k' m' =>
    cases hmessage
    exact he
  | instructed => cases hmessage

theorem lastPassed_isSome {log : List (ExchangeEvent ι)} (h : SomePassed log) :
    ∃ ue k m, lastPassed log = some (ue, k, m) := by
  obtain ⟨ue, k, m, hm⟩ := h
  have hne : log.filterMap message ≠ [] :=
    List.ne_nil_of_mem (List.mem_filterMap.mpr ⟨_, hm, rfl⟩)
  exact ⟨_, _, _, List.getLast?_eq_some_getLast hne⟩

/-- The record that an answer after the last message `p` comes from. -/
inductive Serves : Option (ι × Nat × SensingMessage) → Option SensingRecord → Prop where
  | nobody : Serves none none
  | last (ue : ι) (k : Nat) (m : SensingMessage) (r : SensingRecord) (hr : RecordOf m r) :
      Serves (some (ue, k, m)) (some r)

/-- The record that the loop has at hand. -/
def Remembers {E : Type} (py : PythonState E) : Option SensingRecord → Prop
  | none => py.lastImsi = -1
  | some r => -1 < py.lastImsi ∧ lastRecord py = .ok r

/-- Every answer so far came from the message before it, and so will the next one. -/
structure ExchangeSound {E : Type} (w : Exchange ι E) : Prop where
  served : ∀ before after ue k used, w.log = before ++ .instructed ue k used :: after →
    Serves (lastPassed before) used
  remembers : ∃ used, Serves (lastPassed w.log) used ∧ Remembers w.python used

end Log

section Exchanges

open ExchangeEvent

variable {ι E : Type} {sys : Simulation ι E} {ue : ι} {k : Nat} {w w' : Exchange ι E}

theorem passTo_ok {m : SensingMessage} (h : passTo ue k m w = .ok w') (hpos : 0 < m.imsi)
    (hw : ExchangeSound w) : ExchangeSound w' := by
  obtain ⟨python, hload, h⟩ := bind_ok_iff.mp h
  obtain rfl := pure_ok_iff.mp h
  obtain ⟨hlast, r, hr, hrecord⟩ := loadSensingData_ok hload
  constructor
  · intro before after ue' k' used hlog
    rcases append_split hlog with ⟨after', hold⟩ | ⟨before', _, hnew⟩
    · exact hw.served before after' ue' k' used hold
    · obtain ⟨_, hhead⟩ | ⟨_, hnone⟩ := snoc_split (l := []) hnew
      · cases hhead
      · simp at hnone
  · refine ⟨some r, ?_, ?_, hr⟩
    · rw [lastPassed_append]
      exact .last ue k m r hrecord
    · have hindex : 0 ≤ ueIndex m.imsi := ueIndex_nonneg (by omega)
      rw [hlast]
      omega

theorem askPython_ok {text : Text} (h : askPython sys ue k w = .ok (text, w')) :
    ∃ used, w'.log = w.log ++ [.instructed ue k used] ∧ (ExchangeSound w → ExchangeSound w') := by
  obtain ⟨⟨used, text', python⟩, hselect, h⟩ := bind_ok_iff.mp h
  cases pure_ok_iff.mp h
  refine ⟨used, rfl, fun hw => ?_⟩
  obtain ⟨hlast, hrecord, hused⟩ := selectResources_ok hselect
  obtain ⟨at_hand, hserves, hremembers⟩ := hw.remembers
  have hsame : used = at_hand := by
    cases at_hand with
    | none =>
      have hminus : w.python.lastImsi = -1 := hremembers
      rcases hused with ⟨hpos, _⟩ | ⟨_, hnone⟩
      · omega
      · exact hnone
    | some r =>
      obtain ⟨hpos, hr⟩ := hremembers
      rcases hused with ⟨_, r', hused, hr'⟩ | ⟨hneg, _⟩
      · rw [hused, Except.ok.inj (hr'.symm.trans hr)]
      · exact absurd hpos hneg
  subst hsame
  have hlog : lastPassed (w.log ++ [.instructed ue k used]) = lastPassed w.log := by
    rw [lastPassed_append]
    rfl
  constructor
  · intro before after ue' k' used' hsplit
    rcases snoc_split hsplit with ⟨hbefore, heq⟩ | ⟨after', hold⟩
    · cases heq
      rw [← hbefore]
      exact hserves
    · exact hw.served before after' ue' k' used' hold
  · refine ⟨used, ?_, ?_⟩
    · change Serves (lastPassed (w.log ++ [.instructed ue k used])) used
      rw [hlog]
      exact hserves
    · cases used with
      | none => exact hlast.trans hremembers
      | some r => exact ⟨hlast ▸ hremembers.1, hrecord.trans hremembers.2⟩

end Exchanges

section Steps

open ExchangeEvent

variable {ι E : Type} {S : RsrpScale} {sys : Simulation ι E} {ue : ι} {k : Nat} {senses : Prop}

/-- What a part of slot indication `k` of a UE adds to the history. -/
structure Adds (ue : ι) (k : Nat) (senses : Prop) (w w' : Exchange ι E) : Prop where
  sound : ExchangeSound w → ExchangeSound w'
  events : ∃ events, w'.log = w.log ++ events ∧
    (∀ e ∈ events, e.ue = ue ∧ e.number = k) ∧
    (senses → ∀ before after ue' k' used, events = before ++ .instructed ue' k' used :: after →
      SomePassed before) ∧
    (¬senses → ¬SomePassed events)

theorem adds_refl (w : Exchange ι E) : Adds ue k senses w w where
  sound := id
  events := by
    refine ⟨[], by simp, by simp, fun _ before after ue' k' used h => ?_, fun _ => ?_⟩
    · simp at h
    · rintro ⟨ue', k', m, hm⟩
      simp at hm

theorem adds_trans {w₁ w₂ w₃ : Exchange ι E} (h12 : Adds ue k senses w₁ w₂)
    (h23 : Adds ue k senses w₂ w₃) : Adds ue k senses w₁ w₃ where
  sound := fun hw => h23.sound (h12.sound hw)
  events := by
    obtain ⟨l₁, hlog₁, hstamp₁, hafter₁, hnone₁⟩ := h12.events
    obtain ⟨l₂, hlog₂, hstamp₂, hafter₂, hnone₂⟩ := h23.events
    refine ⟨l₁ ++ l₂, by rw [hlog₂, hlog₁, List.append_assoc], fun e he => ?_, ?_, ?_⟩
    · rcases List.mem_append.mp he with he | he
      · exact hstamp₁ e he
      · exact hstamp₂ e he
    · intro hsenses before after ue' k' used hsplit
      rcases append_split hsplit with ⟨after', hl₁⟩ | ⟨before', hbefore, hl₂⟩
      · exact hafter₁ hsenses before after' ue' k' used hl₁
      · obtain ⟨ue'', k'', m, hm⟩ := hafter₂ hsenses before' after ue' k' used hl₂
        exact ⟨ue'', k'', m, hbefore ▸ List.mem_append_right _ hm⟩
    · rintro hsenses ⟨ue', k', m, hm⟩
      rcases List.mem_append.mp hm with hm | hm
      · exact hnone₁ hsenses ⟨ue', k', m, hm⟩
      · exact hnone₂ hsenses ⟨ue', k', m, hm⟩

/-- With sensing and O-Re on and something sensed, only an empty window sends no message. -/
theorem getNrSlTxOpportunities_silent {cfg : SelectionConfig} {now sfn : Nat}
    {sensingData : List SensingData} {cands : List NrSlSlotInfo}
    (h : getNrSlTxOpportunities S cfg now sensingData sfn = .ok (cands, none))
    (hsensing : cfg.enableSensing = true) (hore : cfg.oReExp = true) (hne : sensingData ≠ []) :
    cands = [] := by
  obtain ⟨opps, _, h⟩ := bind_ok_iff.mp h
  split at h
  next hnil =>
    obtain ⟨rfl, _⟩ := Prod.mk.inj (pure_ok_iff.mp h)
    rw [hnil]
    rfl
  next hopps =>
    simp only [] at h
    obtain ⟨sensed, _, h⟩ := bind_ok_iff.mp h
    cases (Prod.mk.inj (pure_ok_iff.mp h)).2

theorem askScheduler_ok {sched : SchedulerConfig} {ind : Indication ι} {dstL2Id : Nat}
    {offered : List NrSlSlotInfo} {w w' : Exchange ι E} {A : Option (Allocation dstL2Id offered)}
    (h : askScheduler sys sched k ind dstL2Id offered w = .ok (w', A)) :
    (ExchangeSound w → ExchangeSound w') ∧
      (w'.log = w.log ∨ ∃ used, w'.log = w.log ++ [.instructed ind.ue k used]) := by
  unfold askScheduler at h
  split at h
  next => cases h
  next r hr =>
    cases Except.ok.inj h
    obtain ⟨lc, _, ⟨_, rfl⟩ | ⟨_, choice, _, hchoose, _⟩⟩ := doNrSlAllocation_ok hr
    · exact ⟨id, Or.inl rfl⟩
    · unfold chooseResources at hchoose
      split at hchoose
      next =>
        obtain ⟨⟨text, w₁⟩, hask, hchoose⟩ := bind_ok_iff.mp hchoose
        obtain ⟨instruction, _, hchoose⟩ := bind_ok_iff.mp hchoose
        obtain ⟨⟨choice', rest⟩, _, hchoose⟩ := bind_ok_iff.mp hchoose
        obtain ⟨_, hrest⟩ := Prod.mk.inj (pure_ok_iff.mp hchoose)
        obtain ⟨_, rfl⟩ := Prod.mk.inj hrest
        obtain ⟨used, hlog, hsound⟩ := askPython_ok hask
        exact ⟨hsound, Or.inr ⟨used, hlog⟩⟩
      next =>
        obtain ⟨⟨choice', rest⟩, _, hchoose⟩ := bind_ok_iff.mp hchoose
        obtain ⟨_, hrest⟩ := Prod.mk.inj (pure_ok_iff.mp hchoose)
        obtain ⟨_, hw⟩ := Prod.mk.inj hrest
        rw [← hw]
        exact ⟨id, Or.inl rfl⟩

variable {node : UeNode} {ind : Indication ι} {sfn dst : Nat} {st st' : UeMac × Exchange ι E}
  {mac mac' : UeMac} {w w' : Exchange ι E}

theorem grantFresh_exchange {reselCounter : Nat} {offered : List NrSlSlotInfo} {cfg : UeMacConfig}
    (h : grantFresh cfg (slotEnv sys k ind) dst reselCounter st offered = .ok st') :
    (ExchangeSound st.2 → ExchangeSound st'.2) ∧ (st'.2.log = st.2.log ∨
      offered ≠ [] ∧ ∃ used, st'.2.log = st.2.log ++ [.instructed ind.ue k used]) := by
  unfold grantFresh at h
  split at h
  next =>
    rw [← pure_ok_iff.mp h]
    exact ⟨id, Or.inl rfl⟩
  next hoffered =>
    obtain ⟨⟨w, answer⟩, hanswer, h⟩ := bind_ok_iff.mp h
    obtain ⟨hsound, hlog⟩ := askScheduler_ok hanswer
    have hw : st'.2 = w := by
      cases answer with
      | none => rw [← pure_ok_iff.mp h]
      | some A =>
        obtain ⟨T, _, h⟩ := bind_ok_iff.mp h
        rw [← pure_ok_iff.mp h]
    rw [hw]
    exact ⟨hsound, hlog.imp_right fun hused => ⟨hoffered, hused⟩⟩

theorem requestResources_adds
    (hsenses : senses ↔ (sys.node ind.ue).cfg.enableSensing = true ∧
      (sys.node ind.ue).cfg.oReExp = true ∧ mac.sensingData ≠ [])
    (h : requestResources S (sys.node ind.ue).cfg (slotEnv sys k ind) sfn dst (mac, w) = .ok (mac', w')) :
    Adds ind.ue k senses w w' := by
  obtain ⟨R, _, h⟩ := bind_ok_iff.mp h
  obtain ⟨⟨cands, message⟩, hcands, h⟩ := bind_ok_iff.mp h
  obtain ⟨w₁, hdeliver, h⟩ := bind_ok_iff.mp h
  obtain ⟨hsound, hlog⟩ := grantFresh_exchange h
  cases message with
  | none =>
    obtain rfl := pure_ok_iff.mp hdeliver
    rcases hlog with hsame | ⟨hoffered, used, hused⟩
    · have hrefl : Adds ind.ue k senses w w := adds_refl _
      exact ⟨hsound, hsame ▸ hrefl.events⟩
    · refine ⟨hsound, [.instructed ind.ue k used], hused, by simp [ExchangeEvent.ue, number], ?_, ?_⟩
      · intro hyes
        obtain ⟨hsensing, hore, hne⟩ := hsenses.mp hyes
        have hnil := getNrSlTxOpportunities_silent hcands hsensing hore hne
        rw [hnil] at hoffered
        exact absurd (List.sublist_nil.mp (filterTxOpportunities_sublist _ _)) hoffered
      · rintro _ ⟨ue', k', m, hm⟩
        simp at hm
  | some m =>
    obtain ⟨hsensing, hne, hore, himsi⟩ := getNrSlTxOpportunities_message hcands
    have hyes : senses := hsenses.mpr ⟨hsensing, hore, hne⟩
    have hpass : passTo ind.ue k m w = .ok w₁ := hdeliver
    have hpassed := passTo_ok hpass (himsi ▸ (sys.node ind.ue).imsi_pos)
    have hwlog : w₁.log = w.log ++ [.passed ind.ue k m] := by
      obtain ⟨python, _, hw⟩ := bind_ok_iff.mp hpass
      rw [← pure_ok_iff.mp hw]
    rcases hlog with hsame | ⟨_, used, hused⟩
    · refine ⟨fun hw => hsound (hpassed hw), [.passed ind.ue k m], hsame.trans hwlog,
        by simp [ExchangeEvent.ue, number], fun _ before after ue' k' used hsplit => ?_,
        fun hno => absurd hyes hno⟩
      rcases snoc_split (l := []) hsplit with ⟨_, heq⟩ | ⟨_, hnil⟩
      · cases heq
      · simp at hnil
    · refine ⟨fun hw => hsound (hpassed hw), [.passed ind.ue k m, .instructed ind.ue k used], ?_,
        by simp [ExchangeEvent.ue, number], fun _ before after ue' k' used' hsplit => ?_,
        fun hno => absurd hyes hno⟩
      · change _ = w₁.log ++ [_] at hused
        rw [hused, hwlog, List.append_assoc]
        rfl
      · refine ⟨ind.ue, k, m, ?_⟩
        cases before with
        | nil => cases (List.cons.inj hsplit).1
        | cons e before =>
          obtain ⟨rfl, _⟩ := List.cons.inj hsplit
          exact List.mem_cons_self

theorem reselectDst_adds
    (hsenses : senses ↔ (sys.node ind.ue).cfg.enableSensing = true ∧
      (sys.node ind.ue).cfg.oReExp = true ∧ mac.sensingData ≠ [])
    (h : reselectDst S (sys.node ind.ue).cfg (slotEnv sys k ind) sfn dst (mac, w) = .ok (mac', w')) :
    Adds ind.ue k senses w w' := by
  unfold reselectDst at h
  split at h
  next => exact requestResources_adds (by exact hsenses) h
  next g hg =>
    split at h
    next =>
      cases pure_ok_iff.mp h
      exact adds_refl _
    next =>
      split at h
      next =>
        obtain ⟨_, _, h⟩ := bind_ok_iff.mp h
        cases pure_ok_iff.mp h
        exact adds_refl _
      next => exact requestResources_adds (by exact hsenses) h

theorem reselectLoop_adds {l : List (Nat × Nat)}
    (hsenses : senses ↔ (sys.node ind.ue).cfg.enableSensing = true ∧
      (sys.node ind.ue).cfg.oReExp = true ∧ mac.sensingData ≠ [])
    (h : l.foldlM (fun st itDst => reselectDst S (sys.node ind.ue).cfg (slotEnv sys k ind) sfn
      itDst.1 st) (mac, w) = .ok (mac', w')) : Adds ind.ue k senses w w' := by
  induction l generalizing mac w with
  | nil =>
    cases pure_ok_iff.mp h
    exact adds_refl _
  | cons itDst l ih =>
    obtain ⟨⟨mac₁, w₁⟩, h₁, hl⟩ := foldlM_cons_ok_iff.mp h
    have hsame : mac₁.sensingData = mac.sensingData := (reselectDst_ok h₁).1
    exact adds_trans (reselectDst_adds hsenses h₁) (ih (hsame ▸ hsenses) hl)

/-- The sensing window of the indication is not empty, with sensing and O-Re on. -/
def Senses (cfg : UeMacConfig) (mac : UeMac) (ind : Indication ι) : Prop :=
  cfg.enableSensing = true ∧ cfg.oReExp = true ∧
    updateSensingWindow cfg.toSelectionConfig (mac.sensingData ++ ind.received) ind.sfn ≠ .ok []

theorem indication_adds {sent : List Transmission}
    (hsenses : senses ↔ Senses (sys.node ind.ue).cfg mac ind)
    (h : doNrSlSlotIndication S (sys.node ind.ue).cfg (slotEnv sys k ind) ind.sfn (mac, w) =
      .ok ((mac', w'), sent)) : Adds ind.ue k senses w w' := by
  obtain ⟨mid, hselect, _⟩ := doNrSlSlotIndication_iff.mp h
  obtain ⟨sensingData, hwindow, hselect⟩ := bind_ok_iff.mp hselect
  have hiff : senses ↔ (sys.node ind.ue).cfg.enableSensing = true ∧
      (sys.node ind.ue).cfg.oReExp = true ∧ sensingData ≠ [] := by
    rw [hsenses]
    unfold Senses
    refine and_congr_right fun hsensing => and_congr_right fun _ => not_congr ?_
    unfold receiveSensingData at hwindow
    rw [if_pos hsensing] at hwindow
    change updateSensingWindow _ (mac.sensingData ++ ind.received) ind.sfn = _ at hwindow
    rw [hwindow, Except.ok.injEq]
  unfold reselectionPhase at hselect
  split at hselect
  next => cases hselect
  next =>
    cases pure_ok_iff.mp hselect
    exact adds_refl _
  next =>
    split at hselect
    next =>
      cases pure_ok_iff.mp hselect
      exact adds_refl _
    next =>
      exact reselectLoop_adds hiff hselect

end Steps

section Runs

open ExchangeEvent

variable {ι E : Type} [DecidableEq ι] (sys : Simulation ι E) (S : RsrpScale)

/-- Whoever obtained an instruction after the first message had something in the sensing window. -/
def AskersSense (inds : List (Indication ι)) (log : List (ExchangeEvent ι)) : Prop :=
  ∀ before after ue k used, log = before ++ .instructed ue k used :: after → SomePassed before →
    ∀ ind st, inds[k]? = some ind → simulate sys S (inds.take k) = .ok st →
      Senses (sys.node ind.ue).cfg (st.mac ind.ue) ind

/-- What the history says of the slot indications so far. -/
structure History (inds : List (Indication ι)) (st : SimulationState ι E) : Prop where
  count : st.count = inds.length
  sound : ExchangeSound st.exchange
  numbers : ∀ e ∈ st.exchange.log, e.number < inds.length
  instructed : ∀ before after ue k used,
    st.exchange.log = before ++ .instructed ue k used :: after →
      ∃ ind pre, inds[k]? = some ind ∧ simulate sys S (inds.take k) = .ok pre ∧
        (Senses (sys.node ind.ue).cfg (pre.mac ind.ue) ind →
          ∃ m, lastPassed before = some (ue, k, m)) ∧
        (¬Senses (sys.node ind.ue).cfg (pre.mac ind.ue) ind → ∀ m, .passed ue k m ∉ before)

variable {sys S}

theorem history_start : History sys S [] (initSimulation sys) where
  count := rfl
  sound := by
    refine ⟨fun before after ue k used h => ?_, none, .nobody, rfl⟩
    change [] = _ at h
    simp at h
  numbers := fun e he => absurd he List.not_mem_nil
  instructed := by
    intro before after ue k used h
    change [] = _ at h
    simp at h

theorem history_next {inds : List (Indication ι)} {ind : Indication ι}
    {st st' : SimulationState ι E} (hrun : simulate sys S inds = .ok st) (h : History sys S inds st)
    (hstep : indicate sys S st ind = .ok st') : History sys S (inds ++ [ind]) st' := by
  obtain ⟨⟨⟨mac, w⟩, sent⟩, hslot, hstep⟩ := bind_ok_iff.mp hstep
  obtain rfl := pure_ok_iff.mp hstep
  obtain ⟨hsound, events, hlog, hstamp, hwith, hwithout⟩ := indication_adds Iff.rfl hslot
  have hlog' : w.log = st.exchange.log ++ events := hlog
  refine ⟨?_, hsound h.sound, fun e he => ?_, fun before after ue k used hsplit => ?_⟩
  · change st.count + 1 = _
    rw [h.count, List.length_append, List.length_singleton]
  · change e ∈ w.log at he
    rw [hlog'] at he
    rw [List.length_append, List.length_singleton]
    rcases List.mem_append.mp he with hold | hnew
    · exact Nat.lt_succ_of_lt (h.numbers e hold)
    · rw [(hstamp e hnew).2, h.count]
      exact Nat.lt_succ_self _
  · change w.log = _ at hsplit
    rw [hlog'] at hsplit
    rcases append_split hsplit with ⟨after', hold⟩ | ⟨before', hbefore, hnew⟩
    · obtain ⟨ind', pre, hind, hpre, hsenses, hblind⟩ := h.instructed before after' ue k used hold
      have hk : k < inds.length := h.numbers (.instructed ue k used) (by rw [hold]; simp)
      refine ⟨ind', pre, ?_, ?_, hsenses, hblind⟩
      · rw [List.getElem?_append_left hk]
        exact hind
      · rw [List.take_append_of_le_length hk.le]
        exact hpre
    · obtain ⟨hue, hk⟩ := hstamp (.instructed ue k used) (by rw [hnew]; simp)
      have hk' : k = inds.length := hk.trans h.count
      have hue' : ue = ind.ue := hue
      refine ⟨ind, st, by rw [hk']; simp, ?_, fun hsenses => ?_, fun hblind m hm => ?_⟩
      · rw [hk', List.take_left']
        · exact hrun
        · rfl
      · obtain ⟨ue₁, k₁, m, hlast⟩ := lastPassed_isSome (hwith hsenses before' after ue k used hnew)
        obtain ⟨hue₁, hk₁⟩ := hstamp (.passed ue₁ k₁ m) (by
          rw [hnew]
          exact List.mem_append_left _ (lastPassed_mem hlast))
        refine ⟨m, ?_⟩
        have hue₂ : ue₁ = ue := hue₁.trans hue'.symm
        have hk₂ : k₁ = k := hk₁.trans hk.symm
        rw [hbefore, lastPassed_append, hlast, hue₂, hk₂]
        rfl
      · rw [hbefore] at hm
        rcases List.mem_append.mp hm with hold | hin
        · have hlt : k < inds.length := h.numbers _ hold
          omega
        · refine hwithout hblind ⟨ue, k, m, ?_⟩
          rw [hnew]
          exact List.mem_append_left _ hin

theorem simulate_history {inds : List (Indication ι)} {st : SimulationState ι E}
    (h : simulate sys S inds = .ok st) : History sys S inds st := by
  induction inds using List.reverseRecOn generalizing st with
  | nil =>
    obtain rfl := pure_ok_iff.mp h
    exact history_start
  | append_singleton inds ind ih =>
    have hstep := h
    unfold simulate at hstep
    rw [List.foldlM_append] at hstep
    obtain ⟨st₁, hrun, hstep⟩ := bind_ok_iff.mp hstep
    obtain ⟨st₂, hind, hnil⟩ := foldlM_cons_ok_iff.mp hstep
    obtain rfl := pure_ok_iff.mp hnil
    exact history_next hrun (ih hrun) hind

/-- In every run the instructions are fresh exactly when whoever obtains one has sensed. -/
theorem selectionsFresh_iff_askersSense (inds : List (Indication ι)) (st : SimulationState ι E)
    (h : simulate sys S inds = .ok st) :
    SelectionsFresh st.exchange.log ↔ AskersSense sys S inds st.exchange.log := by
  have hist := simulate_history h
  constructor
  · intro hfresh before after ue k used hsplit hpassed ind pre hind hpre
    obtain ⟨m, r, hm, _⟩ := hfresh before after ue k used hsplit hpassed
    obtain ⟨ind', pre', hind', hpre', _, hblind⟩ := hist.instructed before after ue k used hsplit
    obtain rfl := Option.some.inj (hind.symm.trans hind')
    obtain rfl := Except.ok.inj (hpre.symm.trans hpre')
    by_contra hno
    exact hblind hno m hm
  · intro hsense before after ue k used hsplit hpassed
    obtain ⟨ind, pre, hind, hpre, hsees, _⟩ := hist.instructed before after ue k used hsplit
    obtain ⟨m, hlast⟩ := hsees (hsense before after ue k used hsplit hpassed ind pre hind hpre)
    have hserves := hist.sound.served before after ue k used hsplit
    rw [hlast] at hserves
    cases hserves with
    | last _ _ _ r hr => exact ⟨m, r, lastPassed_mem hlast, rfl, hr⟩

end Runs

section TwoUes

def pairNode (imsi : Nat) (hpos : 0 < imsi) : UeNode where
  cfg := { experimentConfig imsi with
    schedulingType := .ueSelected
    assertsEnabled := false
    slProbResourceKeep := 0
    enableBlindReTx := true
    srcL2Id := imsi
    sidelinkTxDestinations := [(255, 1)]
    nrSlLcInfoMap := [(1, 255)]
    destinations_nodup := soleDestination_nodup }
  sched :=
    { assertsEnabled := false
      totalSubCh := 4
      slMaxTxTransNumPssch := 1
      fixedNrSlMcs := true
      oReExp := true
      calculateTbSize := fun _ nprb => nprb + 100 }
  imsi_pos := hpos
  numSidelinkProcess := 4

/-- Two UEs at the edge of the road. Without a packet their choice is to draw three slots. -/
def pairSimulation : Simulation Bool Unit where
  node := fun i => if i = true then pairNode 1 (by decide) else pairNode 2 (by decide)
  numUe := 300
  t1 := 2
  estimates := ()
  select := fun _ r =>
    if r.recievedPackets = [] then .ok (.draw 3, ()) else .error Fault.pythonValueError

/-- A slot indication in slot 110 with data to send. -/
def pairIndication (ue : Bool) (received : List SensingData) : Indication Bool where
  ue := ue
  sfn := 110
  received := received
  now := 110
  randProb := fun _ => 0
  reselDraw := fun _ => 0
  dstMcs := fun _ => 14
  lcgs := fun _ => [⟨[⟨1, 1, 50, 0, 0⟩], 50⟩]
  draws := fun _ => [0, 0, 0, 0, 0, 0]
  rlc := fun _ _ => false
  order := storedOrder

def sensedOnce : List SensingData := [{ sfn := 108, rsvp := 100, sbChStart := 0, slRsrp := -120 }]

def recordOfFirst : SensingRecord := ⟨0, 0, 0, []⟩

theorem pairSimulation_first : (simulate pairSimulation realScale
    [pairIndication true sensedOnce]).toOption.map (fun st => st.exchange.log) =
      some [.passed true 0 ⟨1, 110, -107, 0, []⟩, .instructed true 0 (some recordOfFirst)] := by
  decide +kernel

theorem pairSimulation_both : (simulate pairSimulation realScale
    [pairIndication true sensedOnce, pairIndication false []]).toOption.map
      (fun st => st.exchange.log) =
      some [.passed true 0 ⟨1, 110, -107, 0, []⟩, .instructed true 0 (some recordOfFirst),
        .instructed false 1 (some recordOfFirst)] := by
  decide +kernel

theorem selectionsFresh_iff_askersSense_first : ∃ st,
    simulate pairSimulation realScale [pairIndication true sensedOnce] = .ok st ∧
      .instructed true 0 (some recordOfFirst) ∈ st.exchange.log ∧
      SelectionsFresh st.exchange.log := by
  have hrun := pairSimulation_first
  cases hst : simulate pairSimulation realScale [pairIndication true sensedOnce] with
  | error e =>
    rw [hst] at hrun
    cases hrun
  | ok st =>
    rw [hst] at hrun
    have hlog : st.exchange.log = _ := Option.some.inj hrun
    refine ⟨st, rfl, by rw [hlog]; simp, ?_⟩
    refine (selectionsFresh_iff_askersSense _ st hst).mpr ?_
    intro before after ue k used hsplit _ ind pre hind hpre
    have hk : k < 1 := by
      have hlt := (List.getElem?_eq_some_iff.mp hind).1
      simpa using hlt
    obtain rfl : k = 0 := by omega
    obtain rfl := Option.some.inj hind
    obtain rfl := pure_ok_iff.mp hpre
    exact ⟨rfl, rfl, by decide +kernel⟩

/-- The second UE has sensed nothing and gets the instruction that Python computes from the record
of the first. -/
theorem selectionsFresh_fails_otherUe : ∃ inds st,
    simulate pairSimulation realScale inds = .ok st ∧ ¬SelectionsFresh st.exchange.log := by
  have hrun := pairSimulation_both
  cases hst : simulate pairSimulation realScale
      [pairIndication true sensedOnce, pairIndication false []] with
  | error e =>
    rw [hst] at hrun
    cases hrun
  | ok st =>
    rw [hst] at hrun
    have hlog : st.exchange.log = _ := Option.some.inj hrun
    refine ⟨_, st, hst, fun hfresh => ?_⟩
    obtain ⟨m, r, hm, _⟩ := hfresh
      [.passed true 0 ⟨1, 110, -107, 0, []⟩, .instructed true 0 (some recordOfFirst)] [] false 1
      (some recordOfFirst) hlog ⟨true, 0, _, List.mem_cons_self⟩
    simp at hm

end TwoUes

end SidelinkORe
