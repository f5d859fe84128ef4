import SidelinkORe.BearerSetup
import SidelinkORe.BufferAccounting

namespace SidelinkORe

/-- What a UE sees of its bearers. -/
inductive BearerEvent (P : Type) where
  | activated (dstL2Id : Nat) (isTransmit isReceive : Bool)
  | received (id : SidelinkLcIdentifier) (pdu : P)

namespace BearerEvent

variable {P : Type}

/-- The channels that an event needs. -/
def channels (own : Nat) : BearerEvent P → List SidelinkLcIdentifier
  | activated dstL2Id isTransmit _ => if isTransmit = true then [⟨4, own, dstL2Id⟩] else []
  | received id _ => [id]

def pdus : BearerEvent P → List (SidelinkLcIdentifier × P)
  | activated _ _ _ => []
  | received id pdu => [(id, pdu)]

end BearerEvent

/-- A PSSCH burst in the air. -/
structure SlBurst (υ P : Type) where
  sender : υ
  dstL2Id : Nat
  pdu : P
  packets : List (MacPacket P)

/-- The UEs and the bursts that were sent so far; a burst may reach any number of UEs, late or never. -/
structure SlNetwork (υ P : Type) where
  ues : υ → SlBearers P
  air : List (SlBurst υ P)

inductive NetworkEvent (υ P : Type) where
  | activated (ue : υ) (dstL2Id : Nat) (isTransmit isReceive : Bool)
  | sent (ue : υ) (dstL2Id : Nat) (pdu : P)
  | received (ue sender : υ) (dstL2Id : Nat) (pdu : P)

section Network

variable {υ P : Type} [DecidableEq υ]

/-- The channel of a burst at its receivers: the SCI format 2-A carries 8 bits of the source and 16
of the destination. -/
def heardOn (srcL2Id : υ → Nat) (sender : υ) (dstL2Id : Nat) : SidelinkLcIdentifier :=
  ⟨4, srcL2Id sender % 256, dstL2Id % 65536⟩

/-- What one UE sees of an event of the network. -/
def NetworkEvent.seenBy (srcL2Id : υ → Nat) (v : υ) : NetworkEvent υ P → List (BearerEvent P)
  | activated u d isTransmit isReceive => if u = v then [.activated d isTransmit isReceive] else []
  | sent _ _ _ => []
  | received u sender d pdu => if u = v then [.received (heardOn srcL2Id sender d) pdu] else []

variable {W : Type} (cfg : SchedulerConfig) (getResourceSelections : W → Except Fault (Text × W))
  (srcL2Id : υ → Nat)

/-- The runs of the network: in any order the UEs activate bearers, send bursts, receive the bursts
of others that their PHY lets through, and their schedulers take reports and triggers. -/
inductive NetworkRun : SlNetwork υ P → List (NetworkEvent υ P) → Prop where
  | start (initialNrSlMcs : Nat) : NetworkRun ⟨fun u => .unconfigured (srcL2Id u) initialNrSlMcs, []⟩ []
  | activate {net log next} (u : υ) (d : Nat) (isTransmit isReceive : Bool) :
      NetworkRun net log → (net.ues u).activateNrSlDrb d isTransmit isReceive = .ok next →
      NetworkRun { net with ues := Function.update net.ues u next }
        (log ++ [.activated u d isTransmit isReceive])
  | send {net log packets} (u : υ) (d : Nat) (pdu : P) (harqId ndi rv : UInt8) :
      NetworkRun net log → (net.ues u).transmitPssch harqId ndi rv d pdu = .ok packets →
      NetworkRun { net with air := ⟨u, d, pdu, packets⟩ :: net.air } (log ++ [.sent u d pdu])
  | receive {net log next} (v : υ) (burst : SlBurst υ P) :
      NetworkRun net log → burst ∈ net.air → burst.sender ≠ v →
      burst.dstL2Id ∈ (net.ues v).sidelinkRxDestinations →
      (net.ues v).doReceivePsschPhyPdu burst.packets = .ok next →
      NetworkRun { net with ues := Function.update net.ues v next }
        (log ++ [.received v burst.sender burst.dstL2Id burst.pdu])
  | report {net log next} (u : υ) (params : BufferStatusReport) :
      NetworkRun net log → (net.ues u).scheduler.doSchedUeNrSlRlcBufferReq params = .ok next →
      NetworkRun { net with ues := Function.update net.ues u { net.ues u with scheduler := next } } log
  | trigger {net log next} (u : υ) (d : Nat) (txOpps : List NrSlSlotInfo) (draws : Draws) (w : W)
      (scheduled : Scheduled W) :
      NetworkRun net log →
      (net.ues u).scheduler.doSchedUeNrSlTriggerReq cfg getResourceSelections d txOpps draws w =
        .ok (scheduled, next) →
      NetworkRun { net with ues := Function.update net.ues u { net.ues u with scheduler := next } } log

end Network

section Scheduling

variable {P : Type} {own : Nat} {ids : List SidelinkLcIdentifier}
  {pdus : List (SidelinkLcIdentifier × P)} {subscribed : Nat → Prop} {ue : SlBearers P}
  {W : Type} {cfg : SchedulerConfig} {getResourceSelections : W → Except Fault (Text × W)}
  {next : NrSlUeMacSchedulerNs3}

/-- A scheduler that changed the queues of one destination serves the same channels. -/
theorem Configured.reschedule (C : Configured own ids pdus subscribed ue) {d : Nat}
    {dst dst' : NrSlUeMacSchedulerDstInfo} (hd : ue.scheduler.dstMap.find? d = some dst)
    (hnext : next.dstMap = ue.scheduler.dstMap.put d dst') (hsole : ∀ l, SoleLc dst l → SoleLc dst' l) :
    Configured own ids pdus subscribed { ue with scheduler := next } := by
  refine { C with scheduled := fun d' info hinfo => ?_, served := fun l d' hl => ?_ }
  · rw [hnext] at hinfo
    by_cases hdd : d' = d
    · subst hdd
      rw [Table.find?_put_self] at hinfo
      obtain rfl := Option.some.inj hinfo
      obtain ⟨l, hdst, hl⟩ := C.scheduled d' dst hd
      exact ⟨l, hsole l hdst, hl⟩
    · rw [Table.find?_put_ne _ _ hdd] at hinfo
      exact C.scheduled d' info hinfo
  · rw [hnext]
    by_cases hdd : d' = d
    · subst hdd
      rw [Table.find?_put_self]
      simp
    · rw [Table.find?_put_ne _ _ hdd]
      exact C.served l d' hl

theorem soleLc_updateLcgs {dst : NrSlUeMacSchedulerDstInfo} {params : BufferStatusReport}
    {lcgs : List SchedulerLcg} (h : updateLcgs params dst.info.lcgs = .ok lcgs) (l : Nat)
    (hsole : SoleLc dst l) : SoleLc { dst with info := { dst.info with lcgs := lcgs } } l := by
  obtain ⟨lc, totalSize, hlcgs, hlcid⟩ := hsole
  rw [hlcgs] at h
  unfold updateLcgs at h
  split at h
  next =>
    obtain ⟨lcg, hupdate, h⟩ := bind_ok_iff.mp h
    obtain ⟨⟨lcs, ret⟩, hlcs, hupdate⟩ := bind_ok_iff.mp hupdate
    obtain ⟨_, _, hupdate⟩ := bind_ok_iff.mp hupdate
    obtain rfl := pure_ok_iff.mp h
    obtain rfl := pure_ok_iff.mp hupdate
    unfold updateLcs at hlcs
    split at hlcs
    next =>
      obtain ⟨rfl, -⟩ := Prod.mk.inj (pure_ok_iff.mp hlcs)
      exact ⟨_, _, rfl, hlcid⟩
    next =>
      obtain ⟨_, herror, _⟩ := bind_ok_iff.mp hlcs
      cases herror
  next =>
    obtain ⟨_, herror, _⟩ := bind_ok_iff.mp h
    cases herror

theorem assigned_lcid (lc : SchedulerLc) (size : Nat) : (lc.assigned size).lcid = lc.lcid := by
  unfold SchedulerLc.assigned
  split
  · rfl
  · split <;> rfl

theorem Configured.report (C : Configured own ids pdus subscribed ue) {params : BufferStatusReport}
    (h : ue.scheduler.doSchedUeNrSlRlcBufferReq params = .ok next) :
    Configured own ids pdus subscribed { ue with scheduler := next } := by
  obtain ⟨dst, lcgs, hdst, hlcgs, hnext⟩ := doSchedUeNrSlRlcBufferReq_ok h
  exact C.reschedule hdst hnext (soleLc_updateLcgs hlcgs)

theorem Configured.trigger (C : Configured own ids pdus subscribed ue) {d : Nat}
    {txOpps : List NrSlSlotInfo} {draws : Draws} {w : W} {scheduled : Scheduled W}
    (h : ue.scheduler.doSchedUeNrSlTriggerReq cfg getResourceSelections d txOpps draws w =
      .ok (scheduled, next)) : Configured own ids pdus subscribed { ue with scheduler := next } := by
  obtain ⟨dst, hdst, halloc, hnext⟩ := doSchedUeNrSlTriggerReq_ok h
  refine C.reschedule hdst hnext fun l hsole => ?_
  obtain ⟨lc, totalSize, hlcgs, hlcid⟩ := hsole
  rcases doNrSlAllocation_assigns (soleLogicalChannel_of_lcgs hlcgs) halloc with ⟨_, _, hsame⟩ | ⟨_, _, size, _, hinfo⟩
  · rw [hsame]
    exact ⟨lc, totalSize, hlcgs, hlcid⟩
  · rw [hinfo]
    refine ⟨lc.assigned size, totalSize - size, ?_, (assigned_lcid lc size).trans hlcid⟩
    show (dst.info.assignedData size).lcgs = _
    unfold SchedulerDstInfo.assignedData
    rw [hlcgs]

end Scheduling

section Bursts

variable {υ P : Type} {own : Nat} {ids : List SidelinkLcIdentifier}
  {pdus : List (SidelinkLcIdentifier × P)} {subscribed : Nat → Prop} {ue : SlBearers P}
  {harqId ndi rv : UInt8} {d : Nat} {pdu : P} {packets : List (MacPacket P)}

/-- A burst goes out for the destinations with an own channel, in the channel that was set up. -/
theorem Configured.transmitPssch_ok_iff (C : Configured own ids pdus subscribed ue)
    (hlcid : ∀ id ∈ ids, id.lcId = 4) :
    ue.transmitPssch harqId ndi rv d pdu = .ok packets ↔ ⟨4, own, d⟩ ∈ ids ∧
      ∃ bytes, (SlBearers.sciF2aOf harqId ndi rv own d).serialize = some bytes ∧
        packets = [.tagged 4 pdu, .untagged bytes] := by
  unfold SlBearers.transmitPssch
  rw [C.srcL2Id]
  constructor
  · intro h
    obtain ⟨dst, hdst, h⟩ := bind_ok_iff.mp h
    obtain ⟨lc, hlc, h⟩ := bind_ok_iff.mp h
    obtain ⟨_, _, h⟩ := bind_ok_iff.mp h
    obtain ⟨_, _, h⟩ := bind_ok_iff.mp h
    obtain ⟨bytes, hbytes, h⟩ := bind_ok_iff.mp h
    obtain ⟨l, ⟨lc', totalSize, hlcgs, rfl⟩, hl⟩ := C.scheduled d dst (orFault_ok_iff.mp hdst)
    rw [hlcgs] at hlc
    obtain rfl := Option.some.inj (orFault_ok_iff.mp hlc)
    have h4 := hlcid _ hl
    dsimp only at h4
    rw [h4] at hl h
    exact ⟨hl, bytes, orFault_ok_iff.mp hbytes, (pure_ok_iff.mp h).symm⟩
  · rintro ⟨hid, bytes, hbytes, rfl⟩
    obtain ⟨dst, hdst⟩ := Option.ne_none_iff_exists'.mp (C.served 4 d hid)
    obtain ⟨l, ⟨lc, totalSize, hlcgs, rfl⟩, hl⟩ := C.scheduled d dst hdst
    have h4 := hlcid _ hl
    dsimp only at h4
    have hlc : dst.info.lcgs.head?.bind (fun lcg => lcg.lcs.head?) = some lc := by
      rw [hlcgs]
      rfl
    have hmac := C.mac ⟨lc.lcid, own, d⟩
    have hrlc := C.rlc ⟨lc.lcid, own, d⟩
    rw [if_pos hl] at hmac hrlc
    refine (bind_of_ok (orFault_ok_iff.mpr hdst)).trans ?_
    refine (bind_of_ok (orFault_ok_iff.mpr hlc)).trans ?_
    refine (bind_of_ok (orFault_ok_iff.mpr hmac)).trans ?_
    refine (bind_of_ok (orFault_ok_iff.mpr hrlc)).trans ?_
    refine (bind_of_ok (orFault_ok_iff.mpr hbytes)).trans ?_
    rw [h4]
    rfl

/-- What any UE does with the packets of a burst that carries a PDU in the channel `id`. -/
def Carries (packets : List (MacPacket P)) (id : SidelinkLcIdentifier) (pdu : P) : Prop :=
  ∀ ue : SlBearers P, ue.doReceivePsschPhyPdu packets =
    (require (id.dstL2Id ∈ ue.sidelinkRxDestinations) .unknownDestination >>= fun _ =>
      ue.receivePacket id pdu)

/-- The receivers find the id of the source modulo 256 and the destination modulo `2 ^ 16`. -/
theorem carries_serialize {bytes : List UInt8} (h : (SlBearers.sciF2aOf harqId ndi rv own d).serialize = some bytes) :
    Carries [.tagged 4 pdu, .untagged bytes] ⟨4, own % 256, d % 65536⟩ pdu := by
  intro ue
  obtain ⟨-, rfl⟩ := NrSlSciF2aHeader.serialize_eq_some.mp h
  have hread := NrSlSciF2aHeader.reads_deserialize {} (SlBearers.sciF2aOf harqId ndi rv own d).scif2
    (UInt8.ofNat (SlBearers.sciF2aOf harqId ndi rv own d).scif02a) []
  rw [List.append_nil, Nat.mod_eq_of_lt (NrSlSciF2aHeader.scif2_lt _)] at hread
  have hfound : SlBearers.separate [.tagged 4 pdu, .untagged _] (none, []) = .ok _ :=
    bind_of_ok (orFault_ok_iff.mpr hread)
  have hword := NrSlSciF2aHeader.scif2_eq (SlBearers.sciF2aOf harqId ndi rv own d)
  have hown : (SlBearers.sciF2aOf harqId ndi rv own d).srcId.toNat = own % 2 ^ 32 := UInt32.toNat_ofNat'
  have hdst : (SlBearers.sciF2aOf harqId ndi rv own d).dstId.toNat = d % 2 ^ 32 := UInt32.toNat_ofNat'
  rw [hown, hdst] at hword
  generalize (SlBearers.sciF2aOf harqId ndi rv own d).scif2 = word at hfound hword
  have hsrcId : ∀ byte, (NrSlSciF2aHeader.ofWords word byte).srcId.toNat = own % 256 := by
    intro byte
    simp only [NrSlSciF2aHeader.ofWords, UInt32.toNat_ofNat']
    omega
  have hdstId : ∀ byte, (NrSlSciF2aHeader.ofWords word byte).dstId.toNat = d % 65536 := by
    intro byte
    simp only [NrSlSciF2aHeader.ofWords, UInt32.toNat_ofNat']
    omega
  unfold SlBearers.doReceivePsschPhyPdu
  refine (bind_of_ok hfound).trans ?_
  refine (bind_of_ok rfl).trans ?_
  refine (bind_of_ok (a := ()) (require_ok_iff.mpr (List.cons_ne_nil _ _))).trans ?_
  dsimp only
  rw [hdstId, hsrcId, List.nil_append, List.foldlM_cons]
  simp only [List.foldlM_nil, bind_pure]

end Bursts

section Histories

variable {υ P : Type} [DecidableEq υ] (srcL2Id : υ → Nat) (v : υ) (log : List (NetworkEvent υ P))

/-- The channels that a UE needed so far, in their order. -/
def channelsSeen : List SidelinkLcIdentifier :=
  (log.flatMap fun e => e.seenBy srcL2Id v).flatMap fun e => e.channels (srcL2Id v)

/-- The PDUs that came to a UE, each with its channel. -/
def pdusSeen : List (SidelinkLcIdentifier × P) :=
  (log.flatMap fun e => e.seenBy srcL2Id v).flatMap fun e => e.pdus

def SubscribedTo (d : Nat) : Prop := ∃ isTransmit, NetworkEvent.activated v d isTransmit true ∈ log

/-- The state of a UE is what its channels, its PDUs and its subscriptions make of it. -/
def ConfiguredBy (ue : SlBearers P) : Prop :=
  Configured (srcL2Id v) (channelsSeen srcL2Id v log) (pdusSeen srcL2Id v log) (SubscribedTo v log) ue

variable {srcL2Id v log} {e : NetworkEvent υ P} {ue : SlBearers P}

theorem channelsSeen_concat : channelsSeen srcL2Id v (log ++ [e]) =
    channelsSeen srcL2Id v log ++ (e.seenBy srcL2Id v).flatMap fun e => e.channels (srcL2Id v) := by
  unfold channelsSeen
  rw [List.flatMap_append, List.flatMap_append, List.flatMap_singleton]

theorem pdusSeen_concat : pdusSeen srcL2Id v (log ++ [e]) =
    pdusSeen srcL2Id v log ++ (e.seenBy srcL2Id v).flatMap fun e => e.pdus := by
  unfold pdusSeen
  rw [List.flatMap_append, List.flatMap_append, List.flatMap_singleton]

theorem mem_onlyIf {α : Type} {c : Prop} [Decidable c] {x a : α} :
    x ∈ (if c then [a] else []) ↔ c ∧ x = a := by
  by_cases hc : c
  · rw [if_pos hc, List.mem_singleton]
    exact (and_iff_right hc).symm
  · rw [if_neg hc]
    simp [hc]

/-- Every channel is an own one of an activation or one of a received burst. -/
theorem mem_channelsSeen_iff {id : SidelinkLcIdentifier} : id ∈ channelsSeen srcL2Id v log ↔
    (∃ d isReceive, .activated v d true isReceive ∈ log ∧ id = ⟨4, srcL2Id v, d⟩) ∨
      ∃ w d pdu, .received v w d pdu ∈ log ∧ id = heardOn srcL2Id w d := by
  unfold channelsSeen
  simp only [List.mem_flatMap]
  constructor
  · rintro ⟨seen, ⟨e, he, hseen⟩, hid⟩
    cases e with
    | activated u d isTransmit isReceive =>
      obtain ⟨rfl, rfl⟩ := mem_onlyIf.mp hseen
      cases isTransmit with
      | true => exact Or.inl ⟨d, isReceive, he, List.mem_singleton.mp hid⟩
      | false => cases hid
    | sent u d pdu => cases hseen
    | received u w d pdu =>
      obtain ⟨rfl, rfl⟩ := mem_onlyIf.mp hseen
      exact Or.inr ⟨w, d, pdu, he, List.mem_singleton.mp hid⟩
  · rintro (⟨d, isReceive, he, rfl⟩ | ⟨w, d, pdu, he, rfl⟩)
    · exact ⟨.activated d true isReceive, ⟨_, he, mem_onlyIf.mpr ⟨rfl, rfl⟩⟩, List.mem_singleton_self _⟩
    · exact ⟨.received (heardOn srcL2Id w d) pdu, ⟨_, he, mem_onlyIf.mpr ⟨rfl, rfl⟩⟩,
        List.mem_singleton_self _⟩

theorem channelsSeen_lcId : ∀ id ∈ channelsSeen srcL2Id v log, id.lcId = 4 := by
  intro id hid
  rcases mem_channelsSeen_iff.mp hid with ⟨d, _, _, rfl⟩ | ⟨w, d, _, _, rfl⟩
  · rfl
  · rfl

theorem ConfiguredBy.unseen (h : ConfiguredBy srcL2Id v log ue) (he : e.seenBy srcL2Id v = [])
    (hsubscribe : ∀ d isTransmit, e ≠ .activated v d isTransmit true) :
    ConfiguredBy srcL2Id v (log ++ [e]) ue := by
  have hsubscribed : SubscribedTo v (log ++ [e]) = SubscribedTo v log := by
    funext d
    unfold SubscribedTo
    simp only [List.mem_append, List.mem_singleton, (hsubscribe d _).symm, or_false]
  unfold ConfiguredBy
  rw [channelsSeen_concat, pdusSeen_concat, he, hsubscribed, List.flatMap_nil, List.flatMap_nil,
    List.append_nil, List.append_nil]
  exact h

end Histories

section Invariant

variable {υ P : Type} [DecidableEq υ] {srcL2Id : υ → Nat} {W : Type} {cfg : SchedulerConfig}
  {getResourceSelections : W → Except Fault (Text × W)} {net : SlNetwork υ P}
  {log : List (NetworkEvent υ P)}

/-- Every UE is what its history makes of it, and the bursts in the air are what was sent. -/
structure NetworkSound (srcL2Id : υ → Nat) (net : SlNetwork υ P) (log : List (NetworkEvent υ P)) :
    Prop where
  ues : ∀ v, ConfiguredBy srcL2Id v log (net.ues v)
  air : ∀ b ∈ net.air, Carries b.packets (heardOn srcL2Id b.sender b.dstL2Id) b.pdu

/-- An event at one UE. -/
theorem NetworkSound.update (S : NetworkSound srcL2Id net log) {u : υ} {next : SlBearers P}
    {log' : List (NetworkEvent υ P)} (hself : ConfiguredBy srcL2Id u log' next)
    (hothers : ∀ v ≠ u, ConfiguredBy srcL2Id v log' (net.ues v)) :
    NetworkSound srcL2Id { net with ues := Function.update net.ues u next } log' where
  ues := by
    intro v
    show ConfiguredBy srcL2Id v log' (Function.update net.ues u next v)
    by_cases hv : v = u
    · subst hv
      rw [Function.update_self]
      exact hself
    · rw [Function.update_of_ne hv]
      exact hothers v hv
  air := S.air

theorem NetworkSound.activated (S : NetworkSound srcL2Id net log) {u : υ} {d : Nat}
    {isTransmit isReceive : Bool} {next : SlBearers P}
    (h : (net.ues u).activateNrSlDrb d isTransmit isReceive = .ok next) :
    NetworkSound srcL2Id { net with ues := Function.update net.ues u next }
      (log ++ [.activated u d isTransmit isReceive]) := by
  have hseen : (NetworkEvent.activated u d isTransmit isReceive : NetworkEvent υ P).seenBy srcL2Id u =
      [.activated d isTransmit isReceive] := if_pos rfl
  refine S.update ?_ fun v hv => ?_
  · have hsubscribed : SubscribedTo u (log ++ [.activated u d isTransmit isReceive]) =
        fun d' => SubscribedTo u log d' ∨ isReceive = true ∧ d' = d := by
      funext d'
      apply propext
      unfold SubscribedTo
      simp only [List.mem_append, List.mem_singleton, NetworkEvent.activated.injEq, true_and, exists_or]
      refine or_congr Iff.rfl ⟨?_, ?_⟩
      · rintro ⟨_, rfl, _, rfl⟩
        exact ⟨rfl, rfl⟩
      · rintro ⟨rfl, rfl⟩
        exact ⟨isTransmit, rfl, rfl, rfl⟩
    have hconfigured := ((S.ues u).activate d isTransmit isReceive).2 next h
    unfold ConfiguredBy
    rw [channelsSeen_concat, pdusSeen_concat, hseen, hsubscribed]
    simpa [BearerEvent.channels, BearerEvent.pdus] using hconfigured
  · have hne : u ≠ v := Ne.symm hv
    refine (S.ues v).unseen (if_neg hne) fun d' t' heq => hne ?_
    injection heq

theorem NetworkSound.received (S : NetworkSound srcL2Id net log) {v : υ} {b : SlBurst υ P}
    (hb : b ∈ net.air) {next : SlBearers P} (h : (net.ues v).doReceivePsschPhyPdu b.packets = .ok next) :
    NetworkSound srcL2Id { net with ues := Function.update net.ues v next }
      (log ++ [.received v b.sender b.dstL2Id b.pdu]) := by
  have hseen : (NetworkEvent.received v b.sender b.dstL2Id b.pdu).seenBy srcL2Id v =
      [.received (heardOn srcL2Id b.sender b.dstL2Id) b.pdu] := if_pos rfl
  refine S.update ?_ fun v' hv' => ?_
  · rw [S.air b hb] at h
    obtain ⟨_, _, h⟩ := bind_ok_iff.mp h
    have hconfigured := ((S.ues v).receivePacket _ _).2 next h
    have hsubscribed : SubscribedTo v (log ++ [.received v b.sender b.dstL2Id b.pdu]) =
        SubscribedTo v log := by
      funext d
      unfold SubscribedTo
      simp
    unfold ConfiguredBy
    rw [channelsSeen_concat, pdusSeen_concat, hseen, hsubscribed]
    simpa [BearerEvent.channels, BearerEvent.pdus] using hconfigured
  · exact (S.ues v').unseen (if_neg (Ne.symm hv')) fun d t => by simp

theorem NetworkSound.sent (S : NetworkSound srcL2Id net log) {u : υ} {d : Nat} {pdu : P}
    {harqId ndi rv : UInt8} {packets : List (MacPacket P)}
    (h : (net.ues u).transmitPssch harqId ndi rv d pdu = .ok packets) :
    NetworkSound srcL2Id { net with air := ⟨u, d, pdu, packets⟩ :: net.air } (log ++ [.sent u d pdu]) where
  ues := fun v => (S.ues v).unseen rfl fun d' t => by simp
  air := by
    intro b hb
    rcases List.mem_cons.mp hb with rfl | hb
    · obtain ⟨_, bytes, hbytes, rfl⟩ := ((S.ues u).transmitPssch_ok_iff channelsSeen_lcId).mp h
      exact carries_serialize hbytes
    · exact S.air b hb

theorem NetworkSound.rescheduled (S : NetworkSound srcL2Id net log) {u : υ} {next : NrSlUeMacSchedulerNs3}
    (h : ConfiguredBy srcL2Id u log { net.ues u with scheduler := next }) :
    NetworkSound srcL2Id { net with ues := Function.update net.ues u { net.ues u with scheduler := next } }
      log := S.update h fun v _ => S.ues v

theorem NetworkRun.sound (h : NetworkRun cfg getResourceSelections srcL2Id net log) :
    NetworkSound srcL2Id net log := by
  induction h with
  | start initialNrSlMcs =>
    refine ⟨fun v => ?_, fun b hb => ?_⟩
    · have hsubscribed : SubscribedTo v ([] : List (NetworkEvent υ P)) = fun _ => False := by
        funext d
        unfold SubscribedTo
        simp
      unfold ConfiguredBy
      rw [hsubscribed]
      exact configured_unconfigured (srcL2Id v) initialNrSlMcs
    · cases hb
  | activate u d isTransmit isReceive _ hnext ih => exact ih.activated hnext
  | send u d pdu harqId ndi rv _ hpackets ih => exact ih.sent hpackets
  | receive v burst _ hburst _ _ hnext ih => exact ih.received hburst hnext
  | report u params _ hnext ih => exact ih.rescheduled ((ih.ues u).report hnext)
  | trigger u d txOpps draws w scheduled _ hnext ih =>
    exact ih.rescheduled ((ih.ues u).trigger hnext)

end Invariant

end SidelinkORe
