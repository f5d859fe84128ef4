import SidelinkORe.BearerNetwork

namespace SidelinkORe

section Outcomes

variable {υ P : Type} [DecidableEq υ] {srcL2Id : υ → Nat} {W : Type} {cfg : SchedulerConfig}
  {getResourceSelections : W → Except Fault (Text × W)} {net : SlNetwork υ P}
  {log : List (NetworkEvent υ P)} {v : υ}

/-- The UE activated a transmitting bearer for the destination. -/
def TransmitsTo (v : υ) (log : List (NetworkEvent υ P)) (d : Nat) : Prop :=
  ∃ isReceive, .activated v d true isReceive ∈ log

/-- The UE received a burst of another one for the destination. -/
def ReceivedFrom (v : υ) (log : List (NetworkEvent υ P)) (w : υ) (d : Nat) : Prop :=
  ∃ pdu, .received v w d pdu ∈ log

/-- A source whose id looks like the UE's own one at the receivers. -/
def Alias (srcL2Id : υ → Nat) (v w : υ) : Prop := srcL2Id w % 256 = srcL2Id v

instance (v w : υ) : Decidable (Alias srcL2Id v w) := inferInstanceAs (Decidable (_ = _))

/-- The key under which the RRC files what it hears. -/
def heardKey (srcL2Id : υ → Nat) (v w : υ) (d : Nat) : Nat :=
  if Alias srcL2Id v w then d % 65536 else srcL2Id w % 256

theorem mem_channelsSeen {id : SidelinkLcIdentifier} : id ∈ channelsSeen srcL2Id v log ↔
    (∃ d, TransmitsTo v log d ∧ id = ⟨4, srcL2Id v, d⟩) ∨
      ∃ w d, ReceivedFrom v log w d ∧ id = heardOn srcL2Id w d := by
  rw [mem_channelsSeen_iff]
  refine or_congr ⟨?_, ?_⟩ ⟨?_, ?_⟩
  · rintro ⟨d, isReceive, he, hid⟩
    exact ⟨d, ⟨isReceive, he⟩, hid⟩
  · rintro ⟨d, ⟨isReceive, he⟩, hid⟩
    exact ⟨d, isReceive, he, hid⟩
  · rintro ⟨w, d, pdu, he, hid⟩
    exact ⟨w, d, ⟨pdu, he⟩, hid⟩
  · rintro ⟨w, d, ⟨pdu, he⟩, hid⟩
    exact ⟨w, d, pdu, he, hid⟩

/-- The map of the RRC has the destinations of the activations and what was heard as keys. -/
theorem key_free_iff {d : Nat} :
    (∀ id ∈ channelsSeen srcL2Id v log, id.drbKey (srcL2Id v) ≠ d) ↔
      ¬TransmitsTo v log d ∧ ∀ w d', ReceivedFrom v log w d' → heardKey srcL2Id v w d' ≠ d := by
  constructor
  · intro h
    refine ⟨fun hd => ?_, fun w d' hw => ?_⟩
    · exact h _ (mem_channelsSeen.mpr (Or.inl ⟨d, hd, rfl⟩)) (SidelinkLcIdentifier.drbKey_own _ 4 d)
    · exact h _ (mem_channelsSeen.mpr (Or.inr ⟨w, d', hw, rfl⟩))
  · rintro ⟨htransmits, hheard⟩ id hid
    rcases mem_channelsSeen.mp hid with ⟨d', hd', rfl⟩ | ⟨w, d', hw, rfl⟩
    · rw [SidelinkLcIdentifier.drbKey_own]
      rintro rfl
      exact htransmits hd'
    · exact hheard w d' hw

theorem own_mem_channelsSeen {d : Nat} : (⟨4, srcL2Id v, d⟩ : SidelinkLcIdentifier) ∈ channelsSeen srcL2Id v log ↔
    TransmitsTo v log d ∨ ∃ w d', ReceivedFrom v log w d' ∧ Alias srcL2Id v w ∧ d' % 65536 = d := by
  rw [mem_channelsSeen]
  refine or_congr ⟨?_, fun h => ⟨d, h, rfl⟩⟩ ⟨?_, ?_⟩
  · rintro ⟨d', hd', heq⟩
    injection heq with _ _ hd
    exact hd ▸ hd'
  · rintro ⟨w, d', hw, heq⟩
    injection heq with _ hsrc hd
    exact ⟨w, d', hw, hsrc.symm, hd.symm⟩
  · rintro ⟨w, d', hw, halias, hd⟩
    refine ⟨w, d', hw, ?_⟩
    unfold heardOn
    rw [halias, hd]

theorem exists_require_bind_iff {ε α : Type} {c : Prop} [Decidable c] {e : ε} {x : Except ε α} :
    (∃ a, (require c e >>= fun _ => x) = .ok a) ↔ c ∧ ∃ a, x = .ok a := by
  constructor
  · rintro ⟨a, h⟩
    obtain ⟨_, hc, hx⟩ := bind_ok_iff.mp h
    exact ⟨require_ok_iff.mp hc, a, hx⟩
  · rintro ⟨hc, a, hx⟩
    exact ⟨a, (bind_of_ok (a := ()) (require_ok_iff.mpr hc)).trans hx⟩

/-- The channel of a burst is there already or can be set up. -/
theorem mem_or_key_free_iff {w : υ} {d : Nat} :
    (heardOn srcL2Id w d ∈ channelsSeen srcL2Id v log ∨ 3 < (heardOn srcL2Id w d).lcId ∧
      ((heardOn srcL2Id w d).srcL2Id = srcL2Id v →
        ∀ id ∈ channelsSeen srcL2Id v log, id.drbKey (srcL2Id v) ≠ (heardOn srcL2Id w d).dstL2Id)) ↔
      (Alias srcL2Id v w → TransmitsTo v log (d % 65536) ∨
        (∃ w' d', ReceivedFrom v log w' d' ∧ Alias srcL2Id v w' ∧ d' % 65536 = d % 65536) ∨
        ∀ w' d', ReceivedFrom v log w' d' → ¬Alias srcL2Id v w' → srcL2Id w' % 256 ≠ d % 65536) := by
  by_cases halias : Alias srcL2Id v w
  · have hown : heardOn srcL2Id w d = ⟨4, srcL2Id v, d % 65536⟩ := by
      unfold heardOn
      rw [halias]
    rw [hown, own_mem_channelsSeen, forall_prop_of_true halias, forall_prop_of_true rfl, key_free_iff]
    constructor
    · rintro ((htransmits | hheard) | ⟨_, _, hfree⟩)
      · exact Or.inl htransmits
      · exact Or.inr (Or.inl hheard)
      · refine Or.inr (Or.inr fun w' d' hw hother => ?_)
        have hkey := hfree w' d' hw
        unfold heardKey at hkey
        rw [if_neg hother] at hkey
        exact hkey
    · rintro (htransmits | hheard | hfree)
      · exact Or.inl (Or.inl htransmits)
      · exact Or.inl (Or.inr hheard)
      · by_cases htransmits : TransmitsTo v log (d % 65536)
        · exact Or.inl (Or.inl htransmits)
        by_cases hheard : ∃ w' d', ReceivedFrom v log w' d' ∧ Alias srcL2Id v w' ∧ d' % 65536 = d % 65536
        · exact Or.inl (Or.inr hheard)
        have hlcid : 3 < 4 := by omega
        refine Or.inr ⟨hlcid, htransmits, fun w' d' hw => ?_⟩
        unfold heardKey
        by_cases hw' : Alias srcL2Id v w'
        · rw [if_pos hw']
          exact fun heq => hheard ⟨w', d', hw, hw', heq⟩
        · rw [if_neg hw']
          exact hfree w' d' hw hw'
  · refine ⟨fun _ h => absurd h halias, fun _ => Or.inr ⟨?_, fun h => absurd h halias⟩⟩
    show 3 < 4
    omega

theorem NetworkRun.activate_iff (h : NetworkRun cfg getResourceSelections srcL2Id net log) (v : υ) (d : Nat)
    (isReceive : Bool) : (∃ next, (net.ues v).activateNrSlDrb d true isReceive = .ok next) ↔
      ¬TransmitsTo v log d ∧ ∀ w d', ReceivedFrom v log w d' → heardKey srcL2Id v w d' ≠ d := by
  rw [((h.sound.ues v).activate d true isReceive).1, ← key_free_iff]
  exact forall_prop_of_true rfl

theorem NetworkRun.activate_rx (h : NetworkRun cfg getResourceSelections srcL2Id net log) (v : υ) (d : Nat)
    (isReceive : Bool) : ∃ next, (net.ues v).activateNrSlDrb d false isReceive = .ok next :=
  ((h.sound.ues v).activate d false isReceive).1.mpr fun hfalse => by cases hfalse

theorem NetworkRun.receive_iff (h : NetworkRun cfg getResourceSelections srcL2Id net log) (v : υ)
    {b : SlBurst υ P} (hb : b ∈ net.air) :
    (∃ next, (net.ues v).doReceivePsschPhyPdu b.packets = .ok next) ↔
      SubscribedTo v log (b.dstL2Id % 65536) ∧
        (Alias srcL2Id v b.sender → TransmitsTo v log (b.dstL2Id % 65536) ∨
          (∃ w d', ReceivedFrom v log w d' ∧ Alias srcL2Id v w ∧ d' % 65536 = b.dstL2Id % 65536) ∨
          ∀ w d', ReceivedFrom v log w d' → ¬Alias srcL2Id v w →
            srcL2Id w % 256 ≠ b.dstL2Id % 65536) := by
  have C := h.sound.ues v
  have hreceive := (C.receivePacket (heardOn srcL2Id b.sender b.dstL2Id) b.pdu).1
  rw [h.sound.air b hb, exists_require_bind_iff, C.rxDestinations, hreceive, mem_or_key_free_iff]
  rfl

theorem NetworkRun.transmit_iff (h : NetworkRun cfg getResourceSelections srcL2Id net log) (v : υ) (d : Nat)
    {harqId ndi rv : UInt8} (pdu : P)
    (hmand : (SlBearers.sciF2aOf harqId ndi rv (srcL2Id v) d).ensureMandConfig = true) :
    (∃ packets, (net.ues v).transmitPssch harqId ndi rv d pdu = .ok packets) ↔
      TransmitsTo v log d ∨
        ∃ w d', ReceivedFrom v log w d' ∧ Alias srcL2Id v w ∧ d' % 65536 = d := by
  have C := h.sound.ues v
  have hbytes : (SlBearers.sciF2aOf harqId ndi rv (srcL2Id v) d).serialize = some _ :=
    NrSlSciF2aHeader.serialize_eq_some.mpr ⟨hmand, rfl⟩
  rw [← own_mem_channelsSeen]
  constructor
  · rintro ⟨packets, hpackets⟩
    exact ((C.transmitPssch_ok_iff channelsSeen_lcId).mp hpackets).1
  · intro hid
    exact ⟨_, (C.transmitPssch_ok_iff channelsSeen_lcId).mpr ⟨hid, _, hbytes, rfl⟩⟩

theorem NetworkRun.subscribed_iff (h : NetworkRun cfg getResourceSelections srcL2Id net log) (v : υ)
    (d : Nat) : d ∈ (net.ues v).sidelinkRxDestinations ↔ SubscribedTo v log d :=
  (h.sound.ues v).rxDestinations d

/-- A UE that subscribed to a destination can hear another one that transmits to it. -/
theorem exists_receivedRun (cfg : SchedulerConfig)
    (getResourceSelections : W → Except Fault (Text × W)) (srcL2Id : υ → Nat) {v w : υ} (hvw : w ≠ v)
    {d : Nat} (hd : d < 65536) (pdu : P)
    (hmand : (SlBearers.sciF2aOf 0 1 0 (srcL2Id w) d).ensureMandConfig = true) :
    ∃ net, NetworkRun cfg getResourceSelections srcL2Id net
      [.activated v d false true, .activated w d true false, .sent w d pdu, .received v w d pdu] := by
  obtain ⟨net₁, h₁⟩ : ∃ net : SlNetwork υ P,
      NetworkRun cfg getResourceSelections srcL2Id net [.activated v d false true] := by
    have h₀ : NetworkRun cfg getResourceSelections srcL2Id _ ([] : List (NetworkEvent υ P)) := .start 14
    obtain ⟨next, hnext⟩ := h₀.activate_rx v d true
    exact ⟨_, .activate v d false true h₀ hnext⟩
  obtain ⟨net₂, h₂⟩ : ∃ net : SlNetwork υ P, NetworkRun cfg getResourceSelections srcL2Id net
      [.activated v d false true, .activated w d true false] := by
    obtain ⟨next, hnext⟩ := (h₁.activate_iff w d false).mpr (by simp [TransmitsTo, ReceivedFrom])
    exact ⟨_, .activate w d true false h₁ hnext⟩
  obtain ⟨net₃, b, h₃, hb, rfl, rfl, rfl⟩ : ∃ (net : SlNetwork υ P) (b : SlBurst υ P),
      NetworkRun cfg getResourceSelections srcL2Id net
        [.activated v d false true, .activated w d true false, .sent w d pdu] ∧
      b ∈ net.air ∧ b.sender = w ∧ b.dstL2Id = d ∧ b.pdu = pdu := by
    obtain ⟨packets, hpackets⟩ := (h₂.transmit_iff w d pdu hmand).mpr (Or.inl ⟨false, by simp⟩)
    exact ⟨_, ⟨w, d, pdu, packets⟩, .send w d pdu 0 1 0 h₂ hpackets, List.mem_cons_self, rfl, rfl, rfl⟩
  have hsubscribed : SubscribedTo v [.activated v b.dstL2Id false true,
      .activated b.sender b.dstL2Id true false, .sent b.sender b.dstL2Id b.pdu] b.dstL2Id :=
    ⟨false, by simp⟩
  have hcut : b.dstL2Id % 65536 = b.dstL2Id := Nat.mod_eq_of_lt hd
  have htaken := (h₃.receive_iff v hb).mpr
  rw [hcut] at htaken
  obtain ⟨next, hnext⟩ := htaken ⟨hsubscribed, fun _ => Or.inr (Or.inr (by simp [ReceivedFrom]))⟩
  exact ⟨_, .receive v b h₃ hb hvw ((h₃.subscribed_iff v _).mpr hsubscribed) hnext⟩

/-- Where a network stops. A transmitting bearer stops at a destination that the UE transmits to or
that is the key of something it heard. A burst is taken unless its destination, cut to 16 bits, is
not subscribed to, or its source looks like the UE itself, which neither transmits to the destination
nor heard such a source there, but heard another one whose id is the destination. -/
theorem NetworkRun.bearerOutcomes (h : NetworkRun cfg getResourceSelections srcL2Id net log) (v : υ) :
    (∀ d isReceive, (∃ next, (net.ues v).activateNrSlDrb d true isReceive = .ok next) ↔
      ¬TransmitsTo v log d ∧ ∀ w d', ReceivedFrom v log w d' → heardKey srcL2Id v w d' ≠ d) ∧
    (∀ d isReceive, ∃ next, (net.ues v).activateNrSlDrb d false isReceive = .ok next) ∧
    (∀ b ∈ net.air, (∃ next, (net.ues v).doReceivePsschPhyPdu b.packets = .ok next) ↔
      SubscribedTo v log (b.dstL2Id % 65536) ∧
        (Alias srcL2Id v b.sender → TransmitsTo v log (b.dstL2Id % 65536) ∨
          (∃ w d', ReceivedFrom v log w d' ∧ Alias srcL2Id v w ∧ d' % 65536 = b.dstL2Id % 65536) ∨
          ∀ w d', ReceivedFrom v log w d' → ¬Alias srcL2Id v w →
            srcL2Id w % 256 ≠ b.dstL2Id % 65536)) ∧
    (∀ d harqId ndi rv pdu, (SlBearers.sciF2aOf harqId ndi rv (srcL2Id v) d).ensureMandConfig = true →
      ((∃ packets, (net.ues v).transmitPssch harqId ndi rv d pdu = .ok packets) ↔
        TransmitsTo v log d ∨
          ∃ w d', ReceivedFrom v log w d' ∧ Alias srcL2Id v w ∧ d' % 65536 = d)) :=
  ⟨fun d isReceive => h.activate_iff v d isReceive, fun d isReceive => h.activate_rx v d isReceive,
    fun _ hb => h.receive_iff v hb, fun d _ _ _ pdu hmand => h.transmit_iff v d pdu hmand⟩

/-- A UE whose id another one has modulo 256 cannot transmit to the destination after it heard it. -/
theorem NetworkRun.bearerOutcomes_alias :
    ∃ net : SlNetwork Bool Unit,
      NetworkRun drawingConfig (fun _ : Unit => .error .emptyTxOpps) (fun far => cond far 257 1) net
        [.activated false 255 false true, .activated true 255 true false, .sent true 255 (),
          .received false true 255 ()] ∧
      ¬∃ next, (net.ues false).activateNrSlDrb 255 true false = .ok next := by
  have hmand : (SlBearers.sciF2aOf 0 1 0 257 255).ensureMandConfig = true := by decide
  have hvw : true ≠ false := by simp
  have hd : 255 < 65536 := by omega
  obtain ⟨net, h⟩ := exists_receivedRun drawingConfig (fun _ : Unit => .error .emptyTxOpps)
    (fun far => cond far 257 1) hvw hd () hmand
  refine ⟨net, h, fun hnext => ?_⟩
  exact (((h.bearerOutcomes false).1 255 false).mp hnext).2 true 255 ⟨(), by simp⟩ rfl

/-- The PDU of an event, if it came to a UE in a channel. -/
def pduOn (srcL2Id : υ → Nat) (v : υ) (id : SidelinkLcIdentifier) : NetworkEvent υ P → Option P
  | .activated _ _ _ _ => none
  | .sent _ _ _ => none
  | .received u w d pdu => if u = v ∧ heardOn srcL2Id w d = id then some pdu else none

theorem pdusOf_pdusSeen (id : SidelinkLcIdentifier) :
    pdusOf id (pdusSeen srcL2Id v log) = log.filterMap (pduOn srcL2Id v id) := by
  induction log with
  | nil => rfl
  | cons e log ih =>
    have hcons : pdusSeen srcL2Id v (e :: log) =
        ((e.seenBy srcL2Id v).flatMap fun e => e.pdus) ++ pdusSeen srcL2Id v log := by
      unfold pdusSeen
      rw [List.flatMap_cons, List.flatMap_append]
    have hsplit : ∀ pdus : List (SidelinkLcIdentifier × P),
        pdusOf id (pdus ++ pdusSeen srcL2Id v log) =
          pdusOf id pdus ++ log.filterMap (pduOn srcL2Id v id) := by
      intro pdus
      rw [← ih]
      unfold pdusOf
      rw [List.filter_append, List.map_append]
    rw [hcons, hsplit]
    cases e with
    | activated u d isTransmit isReceive =>
      rw [List.filterMap_cons_none rfl]
      show pdusOf id ((if u = v then _ else _ : List _).flatMap _) ++ _ = _
      split <;> rfl
    | sent u d pdu => rfl
    | received u w d pdu =>
      by_cases hu : u = v
      · have hseen : (NetworkEvent.received u w d pdu).seenBy srcL2Id v =
            [.received (heardOn srcL2Id w d) pdu] := if_pos hu
        rw [hseen]
        by_cases hid : heardOn srcL2Id w d = id
        · have hpdu : pduOn srcL2Id v id (.received u w d pdu) = some pdu := if_pos ⟨hu, hid⟩
          rw [List.filterMap_cons_some hpdu]
          unfold pdusOf
          simp [BearerEvent.pdus, hid]
        · have hpdu : pduOn srcL2Id v id (.received u w d pdu) = none := if_neg fun h => hid h.2
          rw [List.filterMap_cons_none hpdu]
          unfold pdusOf
          simp [BearerEvent.pdus, hid]
      · have hseen : (NetworkEvent.received u w d pdu).seenBy srcL2Id v = [] := if_neg hu
        have hpdu : pduOn srcL2Id v id (.received u w d pdu) = none := if_neg fun h => hu h.1
        rw [hseen, List.filterMap_cons_none hpdu]
        rfl

/-- Every UE's maps agree in every run. The RLC of a channel has got exactly the PDUs that came in it,
in their order; the MAC knows the same channels; the destinations for transmission are those of the
scheduler, each once, and the channel of each is known; and no bearer is filed as a receiving one. -/
theorem NetworkRun.mapsAgree (h : NetworkRun cfg getResourceSelections srcL2Id net log) (v : υ) :
    (∀ id, (net.ues v).nrSlDrbLcInfoMap.find? id =
      if id ∈ channelsSeen srcL2Id v log then some (log.filterMap (pduOn srcL2Id v id)) else none) ∧
    (∀ id, (net.ues v).nrSlLcInfoMap.find? id = none ↔ (net.ues v).nrSlDrbLcInfoMap.find? id = none) ∧
    ((net.ues v).sidelinkTxDestinations.map Prod.fst).Nodup ∧
    (∀ d p, (d, p) ∈ (net.ues v).sidelinkTxDestinations ↔
      p = 7 ∧ (net.ues v).scheduler.dstMap.find? d ≠ none) ∧
    (∀ d dst, (net.ues v).scheduler.dstMap.find? d = some dst →
      ∃ lc totalSize, dst.info.lcgs = [⟨[lc], totalSize⟩] ∧
        (net.ues v).nrSlLcInfoMap.find? ⟨lc.lcid, srcL2Id v, d⟩ ≠ none) ∧
    (net.ues v).slRxDrbMap = Table.empty := by
  have C := h.sound.ues v
  refine ⟨fun id => ?_, fun id => ?_, C.once, fun d p => ?_, fun d dst hd => ?_, C.rxDrbs⟩
  · rw [C.rlc, pdusOf_pdusSeen]
  · rw [C.rlc, C.mac]
    split <;> simp
  · rw [C.destinations]
    refine and_congr Iff.rfl ⟨?_, fun hne => ?_⟩
    · rintro ⟨l, hl⟩
      exact C.served l d hl
    · obtain ⟨dst, hdst⟩ := Option.ne_none_iff_exists'.mp hne
      obtain ⟨l, _, hl⟩ := C.scheduled d dst hdst
      exact ⟨l, hl⟩
  · obtain ⟨l, ⟨lc, totalSize, hlcgs, rfl⟩, hl⟩ := C.scheduled d dst hd
    refine ⟨lc, totalSize, hlcgs, ?_⟩
    rw [C.mac, if_pos hl]
    simp

/-- The first burst that a UE hears sets up its channel and is given to the RLC of it. -/
theorem NetworkRun.mapsAgree_firstHeard :
    ∃ net : SlNetwork Bool Nat,
      NetworkRun drawingConfig (fun _ : Unit => .error .emptyTxOpps) (fun far => cond far 2 1) net
        [.activated false 255 false true, .activated true 255 true false, .sent true 255 7,
          .received false true 255 7] ∧
      (net.ues false).nrSlDrbLcInfoMap.find? ⟨4, 2, 255⟩ = some [7] ∧
      (net.ues true).nrSlDrbLcInfoMap.find? ⟨4, 2, 255⟩ = some [] ∧
      (net.ues false).nrSlLcInfoMap.find? ⟨4, 2, 255⟩ ≠ none := by
  have hmand : (SlBearers.sciF2aOf 0 1 0 2 255).ensureMandConfig = true := by decide
  have hvw : true ≠ false := by simp
  have hd : 255 < 65536 := by omega
  obtain ⟨net, h⟩ := exists_receivedRun drawingConfig (fun _ : Unit => .error .emptyTxOpps)
    (fun far => cond far 2 1) hvw hd 7 hmand
  obtain ⟨hrlc, hmac, _⟩ := h.mapsAgree false
  have hheard : (net.ues false).nrSlDrbLcInfoMap.find? ⟨4, 2, 255⟩ = some [7] :=
    (hrlc _).trans (by decide)
  refine ⟨net, h, hheard, ((h.mapsAgree true).1 _).trans (by decide), fun hnone => ?_⟩
  rw [(hmac _).mp hnone] at hheard
  cases hheard

end Outcomes

end SidelinkORe
