import SidelinkORe.SlBearers

namespace SidelinkORe

namespace SidelinkLcIdentifier

/-- Where the RRC keeps the bearer of a channel: under its destination if the UE is the source, else
under its source. -/
def drbKey (own : Nat) (id : SidelinkLcIdentifier) : Nat := if id.srcL2Id = own then id.dstL2Id else id.srcL2Id

def drb (id : SidelinkLcIdentifier) : Table Nat NrSlDataRadioBearerInfo :=
  Table.empty.insert id.lcId ⟨id.srcL2Id, id.dstL2Id, id.lcId⟩

def lcInfo (id : SidelinkLcIdentifier) : SidelinkLogicalChannelInfo :=
  SlBearers.lcInfoOf id.srcL2Id id.dstL2Id id.lcId

theorem drbKey_own (own l d : Nat) : drbKey own ⟨l, own, d⟩ = d := if_pos rfl

end SidelinkLcIdentifier

section Setup

variable {P : Type}

/-- The PDUs that came for a channel, in their order. -/
def pdusOf (id : SidelinkLcIdentifier) (pdus : List (SidelinkLcIdentifier × P)) : List P :=
  (pdus.filter fun e => e.1 = id).map Prod.snd

/-- A scheduler's destination has one channel. -/
def SoleLc (dst : NrSlUeMacSchedulerDstInfo) (lcid : Nat) : Prop :=
  ∃ lc totalSize, dst.info.lcgs = [⟨[lc], totalSize⟩] ∧ lc.lcid = lcid

/-- The maps of a UE after the channels `ids` were set up in this order and the PDUs `pdus` came. -/
structure Configured (own : Nat) (ids : List SidelinkLcIdentifier) (pdus : List (SidelinkLcIdentifier × P))
    (subscribed : Nat → Prop) (ue : SlBearers P) : Prop where
  srcL2Id : ue.srcL2Id = own
  drbs : ∀ k, ue.slDrbMap.find? k = (ids.find? fun id => id.drbKey own = k).map SidelinkLcIdentifier.drb
  rxDrbs : ue.slRxDrbMap = Table.empty
  rlc : ∀ id, ue.nrSlDrbLcInfoMap.find? id = if id ∈ ids then some (pdusOf id pdus) else none
  mac : ∀ id, ue.nrSlLcInfoMap.find? id = if id ∈ ids then some id.lcInfo else none
  scheduled : ∀ d dst, ue.scheduler.dstMap.find? d = some dst → ∃ l, SoleLc dst l ∧ ⟨l, own, d⟩ ∈ ids
  served : ∀ l d, ⟨l, own, d⟩ ∈ ids → ue.scheduler.dstMap.find? d ≠ none
  destinations : ∀ d p, (d, p) ∈ ue.sidelinkTxDestinations ↔ p = 7 ∧ ∃ l, ⟨l, own, d⟩ ∈ ids
  once : (ue.sidelinkTxDestinations.map Prod.fst).Nodup
  rxDestinations : ∀ d, d ∈ ue.sidelinkRxDestinations ↔ subscribed d
  known : ∀ e ∈ pdus, e.1 ∈ ids

variable {own : Nat} {ids : List SidelinkLcIdentifier} {pdus : List (SidelinkLcIdentifier × P)}
  {subscribed : Nat → Prop} {ue : SlBearers P}

theorem configured_unconfigured (own initialNrSlMcs : Nat) :
    Configured own [] ([] : List (SidelinkLcIdentifier × P)) (fun _ => False)
      (SlBearers.unconfigured own initialNrSlMcs) where
  srcL2Id := rfl
  drbs := fun _ => rfl
  rxDrbs := rfl
  rlc := fun _ => rfl
  mac := fun _ => rfl
  scheduled := by
    intro d dst h
    cases h
  served := by simp
  destinations := by simp [SlBearers.unconfigured]
  once := List.nodup_nil
  rxDestinations := by simp [SlBearers.unconfigured]
  known := by simp

theorem lowerPriority_of_notMem {destinations : List (Nat × Nat)} {d p : Nat}
    (h : d ∉ destinations.map Prod.fst) : lowerPriority d p destinations = destinations ++ [(d, p)] := by
  induction destinations with
  | nil => rfl
  | cons e destinations ih =>
    rw [List.map_cons, List.mem_cons, not_or] at h
    unfold lowerPriority
    rw [if_neg (Ne.symm h.1), ih h.2]
    rfl

theorem perm_sortBySecond (destinations : List (Nat × Nat)) :
    (sortBySecond destinations).Perm destinations := List.perm_insertionSort _ destinations

section Extension

variable {id : SidelinkLcIdentifier}

/-- A key that no channel has yet is free in the map of the RRC. -/
theorem Configured.drb_free (C : Configured own ids pdus subscribed ue) {k : Nat}
    (hfree : ∀ id' ∈ ids, id'.drbKey own ≠ k) : ue.slDrbMap.find? k = none := by
  rw [C.drbs, List.find?_eq_none.mpr fun id' hid' => by simpa using hfree id' hid']
  rfl

theorem Configured.drb_taken (C : Configured own ids pdus subscribed ue) {k : Nat}
    (htaken : ∃ id' ∈ ids, id'.drbKey own = k) : ue.slDrbMap.find? k ≠ none := by
  obtain ⟨id', hid', hk⟩ := htaken
  intro hnone
  rw [C.drbs, Option.map_eq_none_iff] at hnone
  exact List.find?_eq_none.mp hnone id' hid' (decide_eq_true hk)

/-- The UE whose RRC has taken the bearer. -/
def withDrb (ue : SlBearers P) (own : Nat) (id : SidelinkLcIdentifier) : SlBearers P :=
  { ue with slDrbMap := ue.slDrbMap.insert (id.drbKey own) id.drb }

theorem Configured.addDataRadioBearer (C : Configured own ids pdus subscribed ue)
    (hfree : id.srcL2Id = own → ∀ id' ∈ ids, id'.drbKey own ≠ id.dstL2Id) :
    (if ue.srcL2Id = id.srcL2Id then
        ue.doAddNrSlDataRadioBearer ⟨id.srcL2Id, id.dstL2Id, id.lcId⟩
      else ue.doAddNrSlRxDataRadioBearer ⟨id.srcL2Id, id.dstL2Id, id.lcId⟩) = .ok (withDrb ue own id) := by
  rw [C.srcL2Id]
  unfold withDrb SidelinkLcIdentifier.drbKey
  by_cases hsrc : id.srcL2Id = own
  · rw [if_pos hsrc.symm, if_pos hsrc]
    exact bind_of_ok (a := ()) (require_ok_iff.mpr (C.drb_free (hfree hsrc)))
  · rw [if_neg (Ne.symm hsrc), if_neg hsrc]
    have hrx : ue.slRxDrbMap.find? id.srcL2Id = none := by
      rw [C.rxDrbs]
      rfl
    exact bind_of_ok (a := ()) (require_ok_iff.mpr hrx)

/-- The UE whose BWP manager and MAC know the channel as well. -/
def withLc (ue : SlBearers P) (id : SidelinkLcIdentifier) : SlBearers P :=
  { ue with
    nrSlDrbLcInfoMap := ue.nrSlDrbLcInfoMap.insert id []
    nrSlLcInfoMap := ue.nrSlLcInfoMap.insert id id.lcInfo }

/-- A fresh channel of another source passes all checks; of an own one the scheduler learns too. -/
theorem Configured.addNrSlDrb_eq (C : Configured own ids pdus subscribed ue) (hid : id ∉ ids)
    (hlcid : 3 < id.lcId) (hfree : id.srcL2Id = own → ∀ id' ∈ ids, id'.drbKey own ≠ id.dstL2Id) :
    ue.addNrSlDrb id.srcL2Id id.dstL2Id id.lcId =
      if id.srcL2Id = own then
        match ue.scheduler.doCschedUeNrSlLcConfigReq id.lcInfo with
        | .error fault => .error (.scheduler fault)
        | .ok scheduler =>
          .ok ({ withLc (withDrb ue own id) id with scheduler := scheduler }.addNrSlDstL2Id id.dstL2Id 7)
      else .ok (withLc (withDrb ue own id) id) := by
  have hrlc := C.rlc id
  have hmac := C.mac id
  rw [if_neg hid] at hrlc hmac
  unfold SlBearers.addNrSlDrb
  refine (bind_of_ok (C.addDataRadioBearer hfree)).trans ?_
  have hadded : (withDrb ue own id).doAddNrSlDrbLc id.lcInfo =
      .ok { withDrb ue own id with nrSlDrbLcInfoMap := ue.nrSlDrbLcInfoMap.insert id [] } :=
    (bind_of_ok (a := ()) (require_ok_iff.mpr hlcid)).trans
      (bind_of_ok (a := ()) (require_ok_iff.mpr hrlc))
  refine (bind_of_ok hadded).trans ?_
  refine (bind_of_ok (a := ()) (require_ok_iff.mpr hmac)).trans ?_
  show (if id.srcL2Id = ue.srcL2Id then _ else _) = _
  rw [C.srcL2Id]
  rfl

theorem Configured.no_pdus (C : Configured own ids pdus subscribed ue) (hid : id ∉ ids) :
    pdusOf id pdus = [] := by
  have hnone : pdus.filter (fun e => e.1 = id) = [] := by
    apply List.filter_eq_nil_iff.mpr
    intro e he
    have hmem := C.known e he
    simp only [decide_eq_true_eq]
    intro heq
    exact hid (heq ▸ hmem)
  unfold pdusOf
  rw [hnone]
  rfl

theorem find?_insert_channel {α : Type} {T : Table SidelinkLcIdentifier α} {value : SidelinkLcIdentifier → α}
    (h : ∀ id, T.find? id = if id ∈ ids then some (value id) else none) (hid : id ∉ ids) (a : α)
    (ha : a = value id) (id' : SidelinkLcIdentifier) :
    (T.insert id a).find? id' = if id' ∈ ids ++ [id] then some (value id') else none := by
  rw [Table.find?_insert, h]
  by_cases hin : id' ∈ ids
  · rw [if_pos hin, if_pos (List.mem_append_left _ hin)]
    rfl
  · by_cases heq : id' = id
    · subst heq
      rw [if_neg hin, if_pos rfl, if_pos (by simp), ha]
      rfl
    · rw [if_neg hin, if_neg heq, if_neg (by simp [hin, heq])]
      rfl

/-- What the maps hold after a fresh channel, once the scheduler and the destinations are right. -/
theorem Configured.extend (C : Configured own ids pdus subscribed ue) (hid : id ∉ ids)
    {scheduler : NrSlUeMacSchedulerNs3} {destinations : List (Nat × Nat)}
    (hscheduled : ∀ d dst, scheduler.dstMap.find? d = some dst → ∃ l, SoleLc dst l ∧ ⟨l, own, d⟩ ∈ ids ++ [id])
    (hserved : ∀ l d, ⟨l, own, d⟩ ∈ ids ++ [id] → scheduler.dstMap.find? d ≠ none)
    (hdestinations : ∀ d p, (d, p) ∈ destinations ↔ p = 7 ∧ ∃ l, ⟨l, own, d⟩ ∈ ids ++ [id])
    (honce : (destinations.map Prod.fst).Nodup) :
    Configured own (ids ++ [id]) pdus subscribed
      { withLc (withDrb ue own id) id with
        scheduler := scheduler
        sidelinkTxDestinations := destinations } where
  srcL2Id := C.srcL2Id
  drbs := by
    intro k
    show (ue.slDrbMap.insert (id.drbKey own) id.drb).find? k = _
    rw [Table.find?_insert, C.drbs, List.find?_append]
    cases hfirst : ids.find? fun id' => id'.drbKey own = k with
    | some id' => rfl
    | none =>
      by_cases hk : id.drbKey own = k
      · have hfound : [id].find? (fun id' => id'.drbKey own = k) = some id :=
          List.find?_cons_of_pos (decide_eq_true hk)
        rw [if_pos hk.symm, hfound]
        rfl
      · have hmissed : [id].find? (fun id' => id'.drbKey own = k) = none := by simpa using hk
        rw [if_neg (Ne.symm hk), hmissed]
        rfl
  rxDrbs := C.rxDrbs
  rlc := find?_insert_channel C.rlc hid [] (C.no_pdus hid).symm
  mac := find?_insert_channel C.mac hid id.lcInfo rfl
  scheduled := hscheduled
  served := hserved
  destinations := hdestinations
  once := honce
  rxDestinations := C.rxDestinations
  known := fun e he => List.mem_append_left _ (C.known e he)

/-- A channel of another source leaves the scheduler and the destinations as they are. -/
theorem Configured.extend_rx (C : Configured own ids pdus subscribed ue) (hid : id ∉ ids)
    (hsrc : id.srcL2Id ≠ own) :
    Configured own (ids ++ [id]) pdus subscribed (withLc (withDrb ue own id) id) := by
  have hmem : ∀ l d, (⟨l, own, d⟩ : SidelinkLcIdentifier) ∈ ids ++ [id] ↔ ⟨l, own, d⟩ ∈ ids := by
    intro l d
    rw [List.mem_append, List.mem_singleton]
    refine or_iff_left fun heq => hsrc ?_
    rw [← heq]
  refine C.extend hid ?_ ?_ ?_ C.once
  · intro d dst hdst
    obtain ⟨l, hsole, hin⟩ := C.scheduled d dst hdst
    exact ⟨l, hsole, (hmem l d).mpr hin⟩
  · intro l d hin
    exact C.served l d ((hmem l d).mp hin)
  · intro d p
    simp only [hmem]
    exact C.destinations d p

/-- An own channel for a new destination starts at the scheduler and joins the destinations. -/
theorem Configured.extend_tx (C : Configured own ids pdus subscribed ue) (hid : id ∉ ids)
    (hsrc : id.srcL2Id = own) (hnew : ∀ l, (⟨l, own, id.dstL2Id⟩ : SidelinkLcIdentifier) ∉ ids)
    {entry : NrSlUeMacSchedulerDstInfo} (hentry : SoleLc entry id.lcId) :
    Configured own (ids ++ [id]) pdus subscribed
      ({ withLc (withDrb ue own id) id with
        scheduler := { ue.scheduler with
          dstMap := ue.scheduler.dstMap.put id.dstL2Id entry } }.addNrSlDstL2Id id.dstL2Id 7) := by
  have hlast : (⟨id.lcId, own, id.dstL2Id⟩ : SidelinkLcIdentifier) = id := by rw [← hsrc]
  have hin : (⟨id.lcId, own, id.dstL2Id⟩ : SidelinkLcIdentifier) ∈ ids ++ [id] := by
    rw [hlast]
    simp
  have hscheduled : ∀ d dst, (ue.scheduler.dstMap.put id.dstL2Id entry).find? d = some dst →
      ∃ l, SoleLc dst l ∧ ⟨l, own, d⟩ ∈ ids ++ [id] := by
    intro d dst hd
    by_cases hdd : d = id.dstL2Id
    · subst hdd
      rw [Table.find?_put_self] at hd
      obtain rfl := Option.some.inj hd
      exact ⟨id.lcId, hentry, hin⟩
    · rw [Table.find?_put_ne _ _ hdd] at hd
      obtain ⟨l, hsole, hl⟩ := C.scheduled d dst hd
      exact ⟨l, hsole, List.mem_append_left _ hl⟩
  have hserved : ∀ l d, ⟨l, own, d⟩ ∈ ids ++ [id] →
      (ue.scheduler.dstMap.put id.dstL2Id entry).find? d ≠ none := by
    intro l d hl
    by_cases hdd : d = id.dstL2Id
    · subst hdd
      rw [Table.find?_put_self]
      simp
    · rw [Table.find?_put_ne _ _ hdd]
      rcases List.mem_append.mp hl with hl | hl
      · exact C.served l d hl
      · rw [← List.mem_singleton.mp hl] at hdd
        exact absurd rfl hdd
  have hdst : id.dstL2Id ∉ ue.sidelinkTxDestinations.map Prod.fst := by
    intro hmem
    obtain ⟨⟨d, p⟩, hdp, rfl⟩ := List.mem_map.mp hmem
    obtain ⟨_, l, hl⟩ := (C.destinations _ p).mp hdp
    exact hnew l hl
  have hperm := perm_sortBySecond (lowerPriority id.dstL2Id 7 ue.sidelinkTxDestinations)
  rw [lowerPriority_of_notMem hdst] at hperm
  refine C.extend hid hscheduled hserved ?_ ?_
  · intro d p
    show (d, p) ∈ sortBySecond (lowerPriority id.dstL2Id 7 ue.sidelinkTxDestinations) ↔ _
    rw [lowerPriority_of_notMem hdst, hperm.mem_iff, List.mem_append, List.mem_singleton, C.destinations]
    constructor
    · rintro (⟨rfl, l, hl⟩ | heq)
      · exact ⟨rfl, l, List.mem_append_left _ hl⟩
      · obtain ⟨rfl, rfl⟩ := Prod.mk.inj heq
        exact ⟨rfl, id.lcId, hin⟩
    · rintro ⟨rfl, l, hl⟩
      rcases List.mem_append.mp hl with hl | hl
      · exact Or.inl ⟨rfl, l, hl⟩
      · rw [← List.mem_singleton.mp hl]
        exact Or.inr rfl
  · show ((sortBySecond (lowerPriority id.dstL2Id 7 ue.sidelinkTxDestinations)).map Prod.fst).Nodup
    rw [lowerPriority_of_notMem hdst, (hperm.map Prod.fst).nodup_iff, List.map_append]
    refine List.nodup_append.mpr ⟨C.once, by simp, fun d hd d' hd' heq => hdst ?_⟩
    obtain rfl := List.mem_singleton.mp hd'
    rw [heq] at hd
    exact hd

theorem Configured.configReq_ok (C : Configured own ids pdus subscribed ue)
    (hnew : ∀ l, (⟨l, own, id.dstL2Id⟩ : SidelinkLcIdentifier) ∉ ids) :
    ∃ entry, SoleLc entry id.lcId ∧ ue.scheduler.doCschedUeNrSlLcConfigReq id.lcInfo =
      .ok { ue.scheduler with dstMap := ue.scheduler.dstMap.put id.dstL2Id entry } := by
  have hfresh : ue.scheduler.dstMap.find? id.lcInfo.dstL2Id = none := by
    cases hfind : ue.scheduler.dstMap.find? id.lcInfo.dstL2Id with
    | none => rfl
    | some dst =>
      obtain ⟨l, _, hin⟩ := C.scheduled _ dst hfind
      exact absurd hin (hnew l)
  exact ⟨_, ⟨_, _, rfl, rfl⟩, doCschedUeNrSlLcConfigReq_fresh hfresh⟩

/-- A fresh channel is set up exactly when it is one of a data bearer and, if it is an own one, its
destination is not taken in the map of the RRC. -/
theorem Configured.addNrSlDrb (C : Configured own ids pdus subscribed ue) (hid : id ∉ ids)
    (hlcid : 3 < id.lcId) :
    (id.srcL2Id = own ∧ (∃ id' ∈ ids, id'.drbKey own = id.dstL2Id) ∧
        ue.addNrSlDrb id.srcL2Id id.dstL2Id id.lcId = .error .secondSlDrb) ∨
      ((id.srcL2Id = own → ∀ id' ∈ ids, id'.drbKey own ≠ id.dstL2Id) ∧
        ∃ next, ue.addNrSlDrb id.srcL2Id id.dstL2Id id.lcId = .ok next ∧
          Configured own (ids ++ [id]) pdus subscribed next) := by
  by_cases hfree : id.srcL2Id = own → ∀ id' ∈ ids, id'.drbKey own ≠ id.dstL2Id
  · right
    refine ⟨hfree, ?_⟩
    rw [C.addNrSlDrb_eq hid hlcid hfree]
    by_cases hsrc : id.srcL2Id = own
    · have hnew : ∀ l, (⟨l, own, id.dstL2Id⟩ : SidelinkLcIdentifier) ∉ ids := fun l hin =>
        hfree hsrc _ hin (SidelinkLcIdentifier.drbKey_own own l id.dstL2Id)
      obtain ⟨entry, hentry, hconfig⟩ := C.configReq_ok hnew
      rw [if_pos hsrc, hconfig]
      exact ⟨_, rfl, C.extend_tx hid hsrc hnew hentry⟩
    · rw [if_neg hsrc]
      exact ⟨_, rfl, C.extend_rx hid hsrc⟩
  · left
    push Not at hfree
    obtain ⟨hsrc, htaken⟩ := hfree
    refine ⟨hsrc, htaken, ?_⟩
    unfold SlBearers.addNrSlDrb
    apply bind_of_error
    rw [if_pos (C.srcL2Id.trans hsrc.symm)]
    apply bind_of_error
    exact require_error_iff.mpr ⟨C.drb_taken htaken, rfl⟩

end Extension

theorem addNrSlDrb_notData {s d lcid : Nat} (hlcid : ¬3 < lcid) (next : SlBearers P) :
    ue.addNrSlDrb s d lcid ≠ .ok next := by
  intro h
  obtain ⟨ue₁, _, h⟩ := bind_ok_iff.mp h
  obtain ⟨ue₂, hadded, _⟩ := bind_ok_iff.mp h
  obtain ⟨_, hrequire, _⟩ := bind_ok_iff.mp hadded
  exact hlcid (require_ok_iff.mp hrequire)

/-- A channel that is there already changes nothing by being named again. -/
theorem Configured.again (C : Configured own ids pdus subscribed ue) {id : SidelinkLcIdentifier}
    (hid : id ∈ ids) : Configured own (ids ++ [id]) pdus subscribed ue := by
  have hmem : ∀ id', id' ∈ ids ++ [id] ↔ id' ∈ ids := by
    intro id'
    rw [List.mem_append, List.mem_singleton]
    exact or_iff_left_of_imp fun heq => heq ▸ hid
  refine ⟨C.srcL2Id, fun k => ?_, C.rxDrbs, fun id' => ?_, fun id' => ?_, fun d dst hd => ?_,
    fun l d hl => ?_, fun d p => ?_, C.once, C.rxDestinations, fun e he => ?_⟩
  · rw [C.drbs, List.find?_append]
    cases hfirst : ids.find? fun id' => id'.drbKey own = k with
    | some id' => rfl
    | none =>
      have hne := List.find?_eq_none.mp hfirst id hid
      have hmissed : [id].find? (fun id' => id'.drbKey own = k) = none := List.find?_cons_of_neg hne
      rw [hmissed]
      rfl
  · rw [C.rlc, if_congr (hmem id').symm rfl rfl]
  · rw [C.mac, if_congr (hmem id').symm rfl rfl]
  · obtain ⟨l, hsole, hl⟩ := C.scheduled d dst hd
    exact ⟨l, hsole, (hmem _).mpr hl⟩
  · exact C.served l d ((hmem _).mp hl)
  · simp only [hmem]
    exact C.destinations d p
  · exact (hmem _).mpr (C.known e he)

/-- A PDU for a known channel goes to the RLC of the channel and to no other. -/
theorem Configured.deliver (C : Configured own ids pdus subscribed ue) {id : SidelinkLcIdentifier}
    (hid : id ∈ ids) (pdu : P) : ∃ next, ue.doReceiveNrSlRlcPdu id pdu = .ok next ∧
      Configured own ids (pdus ++ [(id, pdu)]) subscribed next := by
  have hrlc := C.rlc id
  rw [if_pos hid] at hrlc
  refine ⟨_, bind_of_ok (orFault_ok_iff.mpr hrlc), C.srcL2Id, C.drbs, C.rxDrbs, fun id' => ?_, C.mac,
    C.scheduled, C.served, C.destinations, C.once, C.rxDestinations, fun e he => ?_⟩
  · show (ue.nrSlDrbLcInfoMap.put id (pdusOf id pdus ++ [pdu])).find? id' = _
    unfold pdusOf
    rw [List.filter_append, List.map_append]
    by_cases heq : id' = id
    · subst heq
      rw [Table.find?_put_self, if_pos hid, List.filter_cons_of_pos (by simp)]
      rfl
    · rw [Table.find?_put_ne _ _ heq, C.rlc, List.filter_cons_of_neg (by simpa using Ne.symm heq),
        List.filter_nil, List.map_nil, List.append_nil]
      rfl
  · rcases List.mem_append.mp he with he | he
    · exact C.known e he
    · rw [List.mem_singleton.mp he]
      exact hid

/-- What a packet does: one of a known channel always arrives, one of a fresh channel after the set-up. -/
theorem Configured.receivePacket (C : Configured own ids pdus subscribed ue) (id : SidelinkLcIdentifier)
    (pdu : P) :
    ((∃ next, ue.receivePacket id pdu = .ok next) ↔ id ∈ ids ∨
      3 < id.lcId ∧ (id.srcL2Id = own → ∀ id' ∈ ids, id'.drbKey own ≠ id.dstL2Id)) ∧
    ∀ next, ue.receivePacket id pdu = .ok next →
      Configured own (ids ++ [id]) (pdus ++ [(id, pdu)]) subscribed next := by
  have hmac := C.mac id
  unfold SlBearers.receivePacket
  by_cases hid : id ∈ ids
  · rw [if_pos hid] at hmac
    obtain ⟨next, hnext, hconfigured⟩ := C.deliver hid pdu
    have hknown : ue.nrSlLcInfoMap.find? id ≠ none := by simp [hmac]
    have hok : (pure ue >>= fun ue => (do
        require (ue.nrSlLcInfoMap.find? id ≠ none) .bearerNotSetUp
        ue.doReceiveNrSlRlcPdu id pdu : Except BearerFault (SlBearers P))) = .ok next :=
      (bind_of_ok (a := ()) (require_ok_iff.mpr hknown)).trans hnext
    rw [if_neg hknown, hok]
    refine ⟨⟨fun _ => Or.inl hid, fun _ => ⟨next, rfl⟩⟩, fun next' heq => ?_⟩
    obtain rfl := Except.ok.inj heq
    exact hconfigured.again (by simpa using hid)
  · rw [if_neg hid] at hmac
    rw [if_pos hmac]
    by_cases hlcid : 3 < id.lcId
    · rcases C.addNrSlDrb hid hlcid with ⟨hsrc, ⟨id', hid', hkey⟩, herror⟩ | ⟨hfree, ue', hadded, C'⟩
      · have hstop : ue.doNotifySidelinkReception id.lcId id.srcL2Id id.dstL2Id =
          .error .secondSlDrb := herror
        rw [bind_of_error hstop]
        refine ⟨⟨?_, ?_⟩, fun next h => ?_⟩
        · rintro ⟨next, h⟩
          cases h
        · rintro (h | ⟨_, h⟩)
          · exact absurd h hid
          · exact absurd hkey (h hsrc id' hid')
        · cases h
      · have hlast : id ∈ ids ++ [id] := by simp
        obtain ⟨next, hnext, hconfigured⟩ := C'.deliver hlast pdu
        have hmac' := C'.mac id
        rw [if_pos hlast] at hmac'
        have hknown : ue'.nrSlLcInfoMap.find? id ≠ none := by simp [hmac']
        have hnotified : ue.doNotifySidelinkReception id.lcId id.srcL2Id id.dstL2Id = .ok ue' := hadded
        rw [bind_of_ok hnotified, bind_of_ok (a := ()) (require_ok_iff.mpr hknown), hnext]
        refine ⟨⟨fun _ => Or.inr ⟨hlcid, hfree⟩, fun _ => ⟨next, rfl⟩⟩, fun next' heq => ?_⟩
        obtain rfl := Except.ok.inj heq
        exact hconfigured
    · have hnever : ∀ next, (ue.doNotifySidelinkReception id.lcId id.srcL2Id id.dstL2Id >>= fun ue => (do
          require (ue.nrSlLcInfoMap.find? id ≠ none) .bearerNotSetUp
          ue.doReceiveNrSlRlcPdu id pdu : Except BearerFault (SlBearers P))) ≠ .ok next := by
        intro next h
        obtain ⟨ue', hadded, _⟩ := bind_ok_iff.mp h
        exact addNrSlDrb_notData hlcid ue' hadded
      refine ⟨⟨?_, ?_⟩, fun next h => absurd h (hnever next)⟩
      · rintro ⟨next, h⟩
        exact absurd h (hnever next)
      · rintro (h | ⟨h, _⟩)
        · exact absurd h hid
        · exact absurd h hlcid

theorem Configured.addTxSlrb (C : Configured own ids pdus subscribed ue) (d : Nat) :
    ((∃ next, ue.addTxSlrb d = .ok next) ↔ ∀ id' ∈ ids, id'.drbKey own ≠ d) ∧
    ∀ next, ue.addTxSlrb d = .ok next → Configured own (ids ++ [⟨4, own, d⟩]) pdus subscribed next := by
  by_cases hfree : ∀ id' ∈ ids, id'.drbKey own ≠ d
  · have hlcid : ue.doGetNextLcid d = .ok 4 := by
      unfold SlBearers.doGetNextLcid
      rw [C.drb_free hfree]
      rfl
    have hid : (⟨4, own, d⟩ : SidelinkLcIdentifier) ∉ ids := fun hin =>
      hfree _ hin (SidelinkLcIdentifier.drbKey_own own 4 d)
    have hlc : 3 < (⟨4, own, d⟩ : SidelinkLcIdentifier).lcId := by
      show 3 < 4
      omega
    rcases C.addNrSlDrb hid hlc with ⟨_, ⟨id', hid', hkey⟩, _⟩ | ⟨_, ue', hadded, C'⟩
    · exact absurd hkey (hfree id' hid')
    · have hok : ue.addTxSlrb d = .ok ue' := by
        refine (bind_of_ok hlcid).trans ?_
        rw [C.srcL2Id]
        exact hadded
      rw [hok]
      refine ⟨⟨fun _ => hfree, fun _ => ⟨ue', rfl⟩⟩, fun next heq => ?_⟩
      rw [← Except.ok.inj heq]
      exact C'
  · push Not at hfree
    have hnever : ∀ next, ue.addTxSlrb d ≠ .ok next := by
      intro next h
      obtain ⟨lcid, _, h⟩ := bind_ok_iff.mp h
      obtain ⟨ue', hadded, _⟩ := bind_ok_iff.mp h
      rw [if_pos rfl] at hadded
      obtain ⟨_, hrequire, _⟩ := bind_ok_iff.mp hadded
      exact C.drb_taken hfree (require_ok_iff.mp hrequire)
    obtain ⟨id', hid', hkey⟩ := hfree
    refine ⟨⟨?_, fun h => absurd hkey (h id' hid')⟩, fun next h => absurd h (hnever next)⟩
    rintro ⟨next, h⟩
    exact absurd h (hnever next)

/-- The subscription of a receiving bearer. -/
theorem Configured.subscribe (C : Configured own ids pdus subscribed ue) (d : Nat) :
    Configured own ids pdus (fun d' => subscribed d' ∨ d' = d) (ue.doAddNrSlRxDstL2Id d) where
  srcL2Id := C.srcL2Id
  drbs := C.drbs
  rxDrbs := C.rxDrbs
  rlc := C.rlc
  mac := C.mac
  scheduled := C.scheduled
  served := C.served
  destinations := C.destinations
  once := C.once
  rxDestinations := by
    intro d'
    show d' ∈ ue.sidelinkRxDestinations.insert d ↔ _
    rw [List.mem_insert_iff, C.rxDestinations]
    exact or_comm
  known := C.known

/-- An activation stops only for transmission, when the map of the RRC has the destination as a key. -/
theorem Configured.activate (C : Configured own ids pdus subscribed ue) (d : Nat)
    (isTransmit isReceive : Bool) :
    ((∃ next, ue.activateNrSlDrb d isTransmit isReceive = .ok next) ↔
      (isTransmit = true → ∀ id' ∈ ids, id'.drbKey own ≠ d)) ∧
    ∀ next, ue.activateNrSlDrb d isTransmit isReceive = .ok next →
      Configured own (ids ++ if isTransmit = true then [⟨4, own, d⟩] else []) pdus
        (fun d' => subscribed d' ∨ isReceive = true ∧ d' = d) next := by
  have hsubscribe : ∀ {ids' : List SidelinkLcIdentifier} {ue' : SlBearers P},
      Configured own ids' pdus subscribed ue' → Configured own ids' pdus
        (fun d' => subscribed d' ∨ isReceive = true ∧ d' = d)
        (if isReceive = true then ue'.doAddNrSlRxDstL2Id d else ue') := by
    intro ids' ue' C'
    cases isReceive with
    | true => simpa using C'.subscribe d
    | false => simpa using C'
  cases isTransmit with
  | true =>
    obtain ⟨hiff, hnext⟩ := C.addTxSlrb d
    constructor
    · rw [forall_prop_of_true rfl, ← hiff]
      constructor
      · rintro ⟨next, h⟩
        obtain ⟨ue', hadded, _⟩ := bind_ok_iff.mp h
        exact ⟨ue', hadded⟩
      · rintro ⟨ue', hadded⟩
        exact ⟨_, bind_of_ok hadded⟩
    · intro next h
      obtain ⟨ue', hadded, h⟩ := bind_ok_iff.mp h
      rw [← pure_ok_iff.mp h]
      exact hsubscribe (hnext ue' hadded)
  | false =>
    refine ⟨⟨fun _ h => (by cases h), fun _ => ⟨_, rfl⟩⟩, fun next h => ?_⟩
    rw [← Except.ok.inj h]
    simpa using hsubscribe C

end Setup

end SidelinkORe
