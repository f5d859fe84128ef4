import SidelinkORe.SchedulerBuffers
import SidelinkORe.SchedulerAnswer
import Mathlib.Tactic.Linarith

namespace SidelinkORe

/-- What a destination's data see of the scheduler. -/
inductive BufferEntry where
  | configured (dstL2Id : Nat)
  | reported (dstL2Id size : Nat)
  | assigned (dstL2Id size : Nat)

namespace BufferEntry

def dstL2Id : BufferEntry → Nat
  | configured dstL2Id => dstL2Id
  | reported dstL2Id _ => dstL2Id
  | assigned dstL2Id _ => dstL2Id

/-- The data that wait after an entry, from those that waited before. -/
def after (waiting : Nat) : BufferEntry → Nat
  | configured _ => 0
  | reported _ size => size
  | assigned _ size => waiting - size

end BufferEntry

/-- The data of a destination that wait for a grant: the last report less what was assigned since. -/
def backlog (dstL2Id : Nat) (log : List BufferEntry) : Nat :=
  log.foldl (fun waiting e => if e.dstL2Id = dstL2Id then e.after waiting else waiting) 0

section Backlog

variable {d : Nat} {log : List BufferEntry} {e : BufferEntry}

theorem backlog_concat :
    backlog d (log ++ [e]) = if e.dstL2Id = d then e.after (backlog d log) else backlog d log := by
  unfold backlog
  rw [List.foldl_append]
  rfl

theorem backlog_concat_self (he : e.dstL2Id = d) : backlog d (log ++ [e]) = e.after (backlog d log) := by
  rw [backlog_concat, if_pos he]

theorem backlog_concat_ne (he : e.dstL2Id ≠ d) : backlog d (log ++ [e]) = backlog d log := by
  rw [backlog_concat, if_neg he]

end Backlog

/-- A report of an unacknowledged bearer, which has data in its transmission queue only. -/
structure BufferStatusReport.OfUm (params : BufferStatusReport) : Prop where
  tx : params.txQueueSize < 2 ^ 32
  retx : params.retxQueueSize = 0
  status : params.statusPduSize = 0

/-- The sizes that an answer of the scheduler gives to the destination's channels. -/
def Scheduled.assignments {W : Type} (scheduled : Scheduled W) (dstL2Id : Nat) : List BufferEntry :=
  match scheduled.slotAllocList with
  | none => []
  | some allocList =>
    allocList.elems.head?.toList.flatMap fun a => a.slRlcPduInfo.map fun info => .assigned dstL2Id info.size

section Runs

variable {W : Type} (cfg : SchedulerConfig) (getResourceSelections : W → Except Fault (Text × W))

/-- The runs of a scheduler under RRC, which configures a destination once, and the RLC entities. -/
inductive BufferRun : NrSlUeMacSchedulerNs3 → List BufferEntry → Prop where
  | start (initialNrSlMcs : Nat) : BufferRun ⟨Table.empty, initialNrSlMcs⟩ []
  | configure {scheduler next log} (params : SidelinkLogicalChannelInfo) :
      BufferRun scheduler log → scheduler.dstMap.find? params.dstL2Id = none →
      scheduler.doCschedUeNrSlLcConfigReq params = .ok next →
      BufferRun next (log ++ [.configured params.dstL2Id])
  | report {scheduler next log} (params : BufferStatusReport) :
      BufferRun scheduler log → params.OfUm → scheduler.doSchedUeNrSlRlcBufferReq params = .ok next →
      BufferRun next (log ++ [.reported params.dstL2Id params.txQueueSize])
  | trigger {scheduler next log} (dstL2Id : Nat) (txOpps : List NrSlSlotInfo) (draws : Draws) (w : W)
      (scheduled : Scheduled W) :
      BufferRun scheduler log →
      scheduler.doSchedUeNrSlTriggerReq cfg getResourceSelections dstL2Id txOpps draws w =
        .ok (scheduled, next) →
      BufferRun next (log ++ scheduled.assignments dstL2Id)

end Runs

/-- One channel in one group, whose size and that of the group are the data that wait. -/
structure SoleQueue (dst : NrSlUeMacSchedulerDstInfo) (waiting : Nat) (lc : SchedulerLc) : Prop where
  lcgs : dst.info.lcgs = [⟨[lc], waiting⟩]
  tx : lc.txQueueSize = waiting
  retx : lc.retxQueueSize = 0
  status : lc.statusPduSize = 0
  bound : waiting < 2 ^ 32

section Queue

variable {dst : NrSlUeMacSchedulerDstInfo} {waiting : Nat} {lc : SchedulerLc}

theorem SoleQueue.totalQueueSize (h : SoleQueue dst waiting lc) : lc.totalQueueSize = waiting := by
  have := h.bound
  unfold SchedulerLc.totalQueueSize
  rw [h.tx, h.retx, h.status]
  omega

theorem SoleQueue.assigned (h : SoleQueue dst waiting lc) (size : Nat) :
    SoleQueue { dst with info := dst.info.assignedData size } (waiting - size) (lc.assigned size) := by
  have hretx := h.retx
  have hstatus := h.status
  have hlc : lc.assigned size = { lc with txQueueSize := lc.txQueueSize - size } := by
    unfold SchedulerLc.assigned
    rw [if_neg (by omega), if_neg (by omega)]
  have htx := h.tx
  have hbound := h.bound
  rw [hlc]
  constructor
  · show (dst.info.assignedData size).lcgs = _
    unfold SchedulerDstInfo.assignedData
    rw [h.lcgs]
    show [(⟨[lc.assigned size], waiting - size⟩ : SchedulerLcg)] = _
    rw [hlc]
  · show lc.txQueueSize - size = waiting - size
    rw [htx]
  · exact hretx
  · exact hstatus
  · omega

variable {params : BufferStatusReport}

/-- The change that a report makes, read as a signed number, is a loss that the total covers unless
the report exceeds the queue by `2 ^ 31`. -/
theorem change_covered_iff {size : Nat} (hsize : size < 2 ^ 32) (hwaiting : waiting < 2 ^ 32) :
    (2 ^ 31 ≤ subU32 size waiting → 2 ^ 32 - subU32 size waiting ≤ waiting) ↔
      size < waiting + 2 ^ 31 := by
  unfold subU32
  omega

theorem SoleQueue.updateLC (h : SoleQueue dst waiting lc) (hum : params.OfUm) :
    (lc.updateLC params).2 = subU32 params.txQueueSize waiting := by
  show (subU32 params.txQueueSize lc.txQueueSize + subU32 params.retxQueueSize lc.retxQueueSize +
    subU32 params.statusPduSize lc.statusPduSize) % 2 ^ 32 = _
  rw [h.tx, h.retx, h.status, hum.retx, hum.status]
  unfold subU32
  omega

theorem SoleQueue.updateInfo (h : SoleQueue dst waiting lc) (hum : params.OfUm)
    (hlc : lc.lcid = params.lcid) :
    SchedulerLcg.updateInfo ⟨[lc], waiting⟩ params =
      if params.txQueueSize < waiting + 2 ^ 31 then
        .ok ⟨[(lc.updateLC params).1], params.txQueueSize⟩
      else .error .totalSizeBelowChange := by
  have hlcs : updateLcs params [lc] =
      .ok ([(lc.updateLC params).1], subU32 params.txQueueSize waiting) := by
    rw [← h.updateLC hum]
    unfold updateLcs
    rw [if_pos hlc]
    rfl
  have hbound := h.bound
  have htx := hum.tx
  have hsum : (waiting + subU32 params.txQueueSize waiting) % 2 ^ 32 = params.txQueueSize := by
    unfold subU32
    omega
  unfold SchedulerLcg.updateInfo
  refine (bind_of_ok hlcs).trans ?_
  by_cases hlt : params.txQueueSize < waiting + 2 ^ 31
  · have hcovered := (change_covered_iff htx hbound).mpr hlt
    rw [if_pos hlt]
    refine (bind_of_ok (a := ()) (require_ok_iff.mpr hcovered)).trans ?_
    show Except.ok (⟨_, (waiting + subU32 params.txQueueSize waiting) % 2 ^ 32⟩ : SchedulerLcg) = _
    rw [hsum]
  · rw [if_neg hlt]
    apply bind_of_error
    exact require_error_iff.mpr ⟨fun hcovered => hlt ((change_covered_iff htx hbound).mp hcovered), rfl⟩

/-- What a report does to the groups of a destination: it is refused for another channel and when it
exceeds the queue by `2 ^ 31`. -/
theorem SoleQueue.updateLcgs (h : SoleQueue dst waiting lc) (hum : params.OfUm) :
    updateLcgs params dst.info.lcgs =
      if lc.lcid = params.lcid then
        if params.txQueueSize < waiting + 2 ^ 31 then
          .ok [⟨[(lc.updateLC params).1], params.txQueueSize⟩]
        else .error .totalSizeBelowChange
      else .error .unknownLc := by
  have hcontains : SchedulerLcg.contains ⟨[lc], waiting⟩ params.lcid = decide (lc.lcid = params.lcid) := by
    simp [SchedulerLcg.contains]
  rw [h.lcgs]
  unfold SidelinkORe.updateLcgs
  rw [hcontains]
  by_cases hlc : lc.lcid = params.lcid
  · rw [if_pos (decide_eq_true hlc), if_pos hlc, h.updateInfo hum hlc]
    split
    · rfl
    · rfl
  · rw [if_neg (by simpa using hlc), if_neg hlc]
    rfl

theorem SoleQueue.reported (h : SoleQueue dst waiting lc) (hum : params.OfUm)
    {lcgs : List SchedulerLcg} (hlcgs : SidelinkORe.updateLcgs params dst.info.lcgs = .ok lcgs) :
    SoleQueue { dst with info := { dst.info with lcgs := lcgs } } params.txQueueSize
      (lc.updateLC params).1 := by
  rw [h.updateLcgs hum] at hlcgs
  split at hlcgs
  next =>
    split at hlcgs
    next =>
      obtain rfl := Except.ok.inj hlcgs
      exact ⟨rfl, rfl, hum.retx, hum.status, hum.tx⟩
    next => cases hlcgs
  next => cases hlcgs

end Queue

section Steps

variable {W : Type} {cfg : SchedulerConfig} {getResourceSelections : W → Except Fault (Text × W)}
  {scheduler next : NrSlUeMacSchedulerNs3}

theorem doSchedUeNrSlRlcBufferReq_ok {params : BufferStatusReport}
    (h : scheduler.doSchedUeNrSlRlcBufferReq params = .ok next) :
    ∃ dst lcgs, scheduler.dstMap.find? params.dstL2Id = some dst ∧
      updateLcgs params dst.info.lcgs = .ok lcgs ∧
      next.dstMap = scheduler.dstMap.put params.dstL2Id { dst with info := { dst.info with lcgs := lcgs } } := by
  obtain ⟨dst, hdst, h⟩ := bind_ok_iff.mp h
  obtain ⟨lcgs, hlcgs, h⟩ := bind_ok_iff.mp h
  rw [← pure_ok_iff.mp h]
  exact ⟨dst, lcgs, orFault_ok_iff.mp hdst, hlcgs, rfl⟩

theorem doSchedUeNrSlTriggerReq_ok {dstL2Id : Nat} {txOpps : List NrSlSlotInfo} {draws : Draws} {w : W}
    {scheduled : Scheduled W}
    (h : scheduler.doSchedUeNrSlTriggerReq cfg getResourceSelections dstL2Id txOpps draws w =
      .ok (scheduled, next)) :
    ∃ dst, scheduler.dstMap.find? dstL2Id = some dst ∧
      doNrSlAllocation cfg getResourceSelections txOpps dst.info draws w = .ok scheduled ∧
      next.dstMap = scheduler.dstMap.put dstL2Id { dst with info := scheduled.dstInfo } := by
  obtain ⟨dst, hdst, h⟩ := bind_ok_iff.mp h
  refine ⟨dst, orFault_ok_iff.mp hdst, ?_⟩
  cases halloc : doNrSlAllocation cfg getResourceSelections txOpps dst.info draws w with
  | error fault =>
    rw [halloc] at h
    cases h
  | ok r =>
    rw [halloc] at h
    obtain ⟨rfl, rfl⟩ := Prod.mk.inj (pure_ok_iff.mp h)
    exact ⟨rfl, rfl⟩

/-- The sizes in the allocations are what the destination's queue is reduced by. -/
theorem doNrSlAllocation_assigns {txOpps : List NrSlSlotInfo} {dst : SchedulerDstInfo} {lc : SchedulerLc}
    {draws : Draws} {w : W} {r : Scheduled W} (hlc : soleLogicalChannel cfg dst = .ok lc)
    (h : doNrSlAllocation cfg getResourceSelections txOpps dst draws w = .ok r) :
    (lc.totalQueueSize = 0 ∧ r.slotAllocList = none ∧ r.dstInfo = dst) ∨
      (lc.totalQueueSize ≠ 0 ∧ r.slotAllocList.isSome = true ∧ ∃ size,
        (∀ d, r.assignments d = [.assigned d size]) ∧ r.dstInfo = dst.assignedData size) := by
  obtain ⟨_, _, h⟩ := bind_ok_iff.mp h
  obtain ⟨lc', hlc', h⟩ := bind_ok_iff.mp h
  obtain rfl := Except.ok.inj (hlc.symm.trans hlc')
  split at h
  next hempty =>
    rw [← pure_ok_iff.mp h]
    exact Or.inl ⟨hempty, rfl, rfl⟩
  next hdata =>
    obtain ⟨_, _, h⟩ := bind_ok_iff.mp h
    obtain ⟨⟨choice, rest, w'⟩, hchoose, h⟩ := bind_ok_iff.mp h
    have hsound := chooseResources_sound hchoose
    have hallocated : Allocated dst lc choice choice.slots _ := hsound.allocated lc
    have hne : (allocateSlots dst lc choice).elems ≠ [] := (hsound.answer lc).nonempty
    obtain ⟨a, hhead⟩ := Option.isSome_iff_exists.mp (List.isSome_head?.mpr hne)
    obtain ⟨p, _, ha⟩ := hallocated.numbered 0 a (by rw [← List.head?_eq_getElem?, hhead])
    rw [← pure_ok_iff.mp h]
    refine Or.inr ⟨hdata, rfl, choice.tbs, fun d => ?_, rfl⟩
    show (allocateSlots dst lc choice).elems.head?.toList.flatMap _ = _
    rw [hhead, ha]
    rfl

end Steps

section Accounting

variable {W : Type} {cfg : SchedulerConfig} {getResourceSelections : W → Except Fault (Text × W)}
  {scheduler next : NrSlUeMacSchedulerNs3} {log : List BufferEntry} {d : Nat}
  {dst : NrSlUeMacSchedulerDstInfo}

/-- Every known destination has one queue, which holds what the log says. -/
def Accounted (scheduler : NrSlUeMacSchedulerNs3) (log : List BufferEntry) : Prop :=
  ∀ d dst, scheduler.dstMap.find? d = some dst → ∃ lc, SoleQueue dst (backlog d log) lc

/-- A step that changes one destination, in the way its entry says. -/
theorem Accounted.put {e : BufferEntry} {lc : SchedulerLc} (h : Accounted scheduler log)
    (hnext : next.dstMap = scheduler.dstMap.put e.dstL2Id dst)
    (hqueue : SoleQueue dst (e.after (backlog e.dstL2Id log)) lc) : Accounted next (log ++ [e]) := by
  intro d dst' hd
  rw [hnext] at hd
  by_cases hde : e.dstL2Id = d
  · subst hde
    rw [Table.find?_put_self] at hd
    obtain rfl := Option.some.inj hd
    rw [backlog_concat_self rfl]
    exact ⟨lc, hqueue⟩
  · rw [Table.find?_put_ne _ _ (Ne.symm hde)] at hd
    rw [backlog_concat_ne hde]
    exact h d dst' hd

theorem BufferRun.accounted (h : BufferRun cfg getResourceSelections scheduler log) :
    Accounted scheduler log := by
  induction h with
  | start initialNrSlMcs =>
    intro d dst hd
    cases hd
  | configure params _ hfresh hnext ih =>
    rw [doCschedUeNrSlLcConfigReq_fresh hfresh] at hnext
    obtain rfl := Except.ok.inj hnext
    exact ih.put (e := .configured params.dstL2Id) rfl ⟨rfl, rfl, rfl, rfl, Nat.two_pow_pos 32⟩
  | report params _ hum hnext ih =>
    obtain ⟨dst, lcgs, hdst, hlcgs, hmap⟩ := doSchedUeNrSlRlcBufferReq_ok hnext
    obtain ⟨lc, hqueue⟩ := ih _ _ hdst
    exact ih.put (e := .reported params.dstL2Id params.txQueueSize) hmap (hqueue.reported hum hlcgs)
  | trigger dstL2Id txOpps draws w scheduled _ hnext ih =>
    obtain ⟨dst, hdst, halloc, hmap⟩ := doSchedUeNrSlTriggerReq_ok hnext
    obtain ⟨lc, hqueue⟩ := ih _ _ hdst
    rcases doNrSlAllocation_assigns (soleLogicalChannel_of_lcgs hqueue.lcgs) halloc with
      ⟨_, hnone, hsame⟩ | ⟨_, _, size, hassigned, hinfo⟩
    · have hlog : scheduled.assignments dstL2Id = [] := by
        unfold Scheduled.assignments
        rw [hnone]
      rw [hlog, List.append_nil]
      intro d' dst' hd'
      rw [hmap, hsame] at hd'
      by_cases hdd : d' = dstL2Id
      · subst hdd
        rw [Table.find?_put_self] at hd'
        obtain rfl := Option.some.inj hd'
        exact ⟨lc, hqueue⟩
      · rw [Table.find?_put_ne _ _ hdd] at hd'
        exact ih d' dst' hd'
    · rw [hassigned]
      rw [hinfo] at hmap
      exact ih.put (e := .assigned dstL2Id size) hmap (hqueue.assigned size)

/-- In every run a destination's queue and the total of its group are the data that wait. A report is
refused only for another channel or when it exceeds them by `2 ^ 31`, and a trigger leads to
allocations exactly when there are any. -/
theorem BufferRun.keepsAccounts (h : BufferRun cfg getResourceSelections scheduler log)
    (hdst : scheduler.dstMap.find? d = some dst) :
    ∃ lc, SoleQueue dst (backlog d log) lc ∧
      (∀ params : BufferStatusReport, params.OfUm → params.dstL2Id = d →
        ((∃ next, scheduler.doSchedUeNrSlRlcBufferReq params = .ok next) ↔
          lc.lcid = params.lcid ∧ params.txQueueSize < backlog d log + 2 ^ 31)) ∧
      ∀ txOpps draws w scheduled next,
        scheduler.doSchedUeNrSlTriggerReq cfg getResourceSelections d txOpps draws w =
          .ok (scheduled, next) →
        (scheduled.slotAllocList.isSome = true ↔ 0 < backlog d log) := by
  obtain ⟨lc, hqueue⟩ := h.accounted d dst hdst
  refine ⟨lc, hqueue, fun params hum hd => ?_, fun txOpps draws w scheduled next hnext => ?_⟩
  · subst hd
    have hlcgs := hqueue.updateLcgs hum
    constructor
    · rintro ⟨next, hnext⟩
      obtain ⟨dst', lcgs, hdst', hok, _⟩ := doSchedUeNrSlRlcBufferReq_ok hnext
      obtain rfl := Option.some.inj (hdst.symm.trans hdst')
      rw [hlcgs] at hok
      split at hok
      next hid =>
        split at hok
        next hlt => exact ⟨hid, hlt⟩
        next => cases hok
      next => cases hok
    · rintro ⟨hid, hlt⟩
      rw [if_pos hid, if_pos hlt] at hlcgs
      exact ⟨_, (bind_of_ok (orFault_ok_iff.mpr hdst)).trans (bind_of_ok hlcgs)⟩
  · obtain ⟨dst', hdst', halloc, _⟩ := doSchedUeNrSlTriggerReq_ok hnext
    obtain rfl := Option.some.inj (hdst.symm.trans hdst')
    have htotal := hqueue.totalQueueSize
    rcases doNrSlAllocation_assigns (soleLogicalChannel_of_lcgs hqueue.lcgs) halloc with
      ⟨hempty, hnone, _⟩ | ⟨hdata, hsome, _⟩
    · rw [hnone]
      constructor
      · intro hsome
        cases hsome
      · intro hpos
        omega
    · refine ⟨fun _ => ?_, fun _ => hsome⟩
      omega

/-- A UE that serves one bearer and draws its resources in a pool of two subchannels. -/
def drawingConfig : SchedulerConfig where
  assertsEnabled := true
  totalSubCh := 2
  slMaxTxTransNumPssch := 1
  fixedNrSlMcs := true
  oReExp := false
  calculateTbSize := fun _ n => n

/-- Its scheduler when `waiting` bytes wait for destination 255. -/
def drawingScheduler (waiting : Nat) : NrSlUeMacSchedulerNs3 :=
  ⟨Table.empty.put 255 ⟨⟨255, 14, [⟨[⟨4, 7, waiting, 0, 0⟩], waiting⟩]⟩, [3]⟩, 14⟩

/-- A report of 300 bytes that a grant of 175 bytes follows. -/
theorem drawingScheduler_run :
    BufferRun drawingConfig (fun _ : Unit => .error .emptyTxOpps) (drawingScheduler 125)
      [.configured 255, .reported 255 300, .assigned 255 175] := by
  have configured : BufferRun drawingConfig (fun _ : Unit => .error .emptyTxOpps) (drawingScheduler 0)
      [.configured 255] := .configure ⟨4, 1, 255, 3, 65, 7, true, 65535, 65535⟩ (.start 14) rfl rfl
  have hsize : 300 < 2 ^ 32 := by omega
  have reported : BufferRun drawingConfig (fun _ : Unit => .error .emptyTxOpps) (drawingScheduler 300)
      [.configured 255, .reported 255 300] := .report ⟨4, 300, 0, 0, 1, 255⟩ configured ⟨hsize, rfl, rfl⟩ rfl
  exact .trigger 255 [⟨{ slPsschSymLength := 9, slSubchannelSize := 10 }, 40, ∅⟩] [0, 0] () _ reported rfl

theorem BufferRun.keepsAccounts_granted :
    ∃ dst lc, (drawingScheduler 125).dstMap.find? 255 = some dst ∧ SoleQueue dst 125 lc := by
  have hdst : (drawingScheduler 125).dstMap.find? 255 =
      some ⟨⟨255, 14, [⟨[⟨4, 7, 125, 0, 0⟩], 125⟩]⟩, [3]⟩ := rfl
  obtain ⟨lc, hqueue, _⟩ := BufferRun.keepsAccounts drawingScheduler_run hdst
  exact ⟨_, lc, hdst, hqueue⟩

end Accounting

end SidelinkORe
