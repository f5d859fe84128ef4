import SidelinkORe.ResourcePool
import Mathlib.Data.List.Perm.Subperm

namespace SidelinkORe

/-- One HARQ process. A packet burst is known by its number of packets, and `none` stands for the
largest 32-bit number, which no destination has. -/
structure HarqProcess where
  pktBurst : Nat := 0
  lcidList : Finset Nat := ∅
  dstL2Id : Option Nat := none
  deriving DecidableEq

structure NrSlUeMacHarq where
  nrSlHarqIdBuffer : List Nat
  nrSlHarqPktBuffer : List HarqProcess
  deriving DecidableEq

namespace NrSlUeMacHarq

def initHarqBuffer (maxSlProcesses : Nat) : NrSlUeMacHarq where
  nrSlHarqIdBuffer := List.range maxSlProcesses
  nrSlHarqPktBuffer := List.replicate maxSlProcesses {}

variable (h : NrSlUeMacHarq)

def getNumAvailableHarqIds : Nat := h.nrSlHarqIdBuffer.length % 256

/-- Access by `at`, which throws outside of the buffer. -/
def process (id : Nat) : Except Fault HarqProcess :=
  orFault Fault.harqIdOutOfRange h.nrSlHarqPktBuffer[id]?

def setProcess (id : Nat) (p : HarqProcess) : NrSlUeMacHarq :=
  { h with nrSlHarqPktBuffer := h.nrSlHarqPktBuffer.set id p }

def assignNrSlHarqProcessId (dstL2Id : Nat) : Except Fault (Nat × NrSlUeMacHarq) := do
  require (h.getNumAvailableHarqIds ≠ 0) Fault.harqAllBusy
  match h.nrSlHarqIdBuffer with
  | [] => .error Fault.harqAllBusy
  | availableHarqId :: rest => do
    let p ← h.process availableHarqId
    let h' := h.setProcess availableHarqId { p with dstL2Id := some dstL2Id }
    pure (availableHarqId, { h' with nrSlHarqIdBuffer := rest })

def addPacket (dstL2Id lcId harqId : Nat) : Except Fault NrSlUeMacHarq := do
  let p ← h.process harqId
  require (p.dstL2Id = some dstL2Id) Fault.harqForeignDestination
  let p' : HarqProcess :=
    { p with lcidList := insert lcId p.lcidList, pktBurst := p.pktBurst + 1 }
  require (p'.lcidList.card = p'.pktBurst) Fault.lcPacketMismatch
  pure (h.setProcess harqId p')

def recvNrSlHarqFeedback (assertsEnabled : Bool) (dstL2Id harqId : Nat) :
    Except Fault NrSlUeMacHarq := do
  let p ← h.process harqId
  require (p.dstL2Id = some dstL2Id) Fault.harqForeignDestination
  require (assertsEnabled = true → harqId ∉ h.nrSlHarqIdBuffer) Fault.feedbackForAvailableId
  pure { h.setProcess harqId {} with nrSlHarqIdBuffer := h.nrSlHarqIdBuffer ++ [harqId] }

def getPacketBurst (dstL2Id harqId : Nat) : Except Fault Nat := do
  let p ← h.process harqId
  require (p.dstL2Id = some dstL2Id) Fault.harqForeignDestination
  pure p.pktBurst

/-- The process with this id and content belongs to the destination. -/
def Owned (d id : Nat) (p : HarqProcess) : Prop :=
  h.nrSlHarqPktBuffer[id]? = some p ∧ p.dstL2Id = some d

/-- An id is available exactly while its process belongs to no destination. -/
structure Sound : Prop where
  nodup : h.nrSlHarqIdBuffer.Nodup
  available : ∀ id : Nat, id ∈ h.nrSlHarqIdBuffer ↔ h.nrSlHarqPktBuffer[id]? = some {}
  taken : ∀ (id : Nat) (p : HarqProcess), h.nrSlHarqPktBuffer[id]? = some p → p.dstL2Id = none → p = {}

theorem initHarqBuffer_sound (maxSlProcesses : Nat) : Sound (initHarqBuffer maxSlProcesses) where
  nodup := List.nodup_range
  available := by
    intro id
    simp [initHarqBuffer, List.getElem?_replicate]
  taken := by
    intro id p hp _
    simp only [initHarqBuffer, List.getElem?_replicate] at hp
    split at hp
    next => exact (Option.some.inj hp).symm
    next => cases hp

variable {h} {d id lcId : Nat} {h' : NrSlUeMacHarq}

theorem getElem_setProcess {p q : HarqProcess} (hq : h.nrSlHarqPktBuffer[id]? = some q) (i : Nat) :
    (h.setProcess id p).nrSlHarqPktBuffer[i]? =
      if i = id then some p else h.nrSlHarqPktBuffer[i]? := by
  have hlt : id < h.nrSlHarqPktBuffer.length := (List.getElem?_eq_some_iff.mp hq).1
  change (h.nrSlHarqPktBuffer.set id p)[i]? = _
  rw [List.getElem?_set]
  by_cases hi : i = id
  · rw [if_pos hi.symm, if_pos hlt, if_pos hi]
  · rw [if_neg (fun he => hi he.symm), if_neg hi]

theorem assign_ok (h1 : h.assignNrSlHarqProcessId d = .ok (id, h')) :
    ∃ rest q, h.nrSlHarqIdBuffer = id :: rest ∧ h'.nrSlHarqIdBuffer = rest ∧
      h.nrSlHarqPktBuffer[id]? = some q ∧
      ∀ i, h'.nrSlHarqPktBuffer[i]? =
        if i = id then some { q with dstL2Id := some d } else h.nrSlHarqPktBuffer[i]? := by
  obtain ⟨_, _, h1⟩ := bind_ok_iff.mp h1
  split at h1
  next => cases h1
  next availableHarqId rest hbuffer =>
    obtain ⟨q, hq, h1⟩ := bind_ok_iff.mp h1
    obtain ⟨rfl, rfl⟩ := Prod.mk.inj (pure_ok_iff.mp h1)
    have hq' := orFault_ok_iff.mp hq
    exact ⟨rest, q, hbuffer, rfl, hq', getElem_setProcess hq'⟩

theorem addPacket_ok (h1 : h.addPacket d lcId id = .ok h') :
    ∃ q, h.Owned d id q ∧ h'.nrSlHarqIdBuffer = h.nrSlHarqIdBuffer ∧
      ∀ i, h'.nrSlHarqPktBuffer[i]? = if i = id then
        some { q with lcidList := insert lcId q.lcidList, pktBurst := q.pktBurst + 1 }
        else h.nrSlHarqPktBuffer[i]? := by
  obtain ⟨q, hq, h1⟩ := bind_ok_iff.mp h1
  obtain ⟨_, hown, h1⟩ := bind_ok_iff.mp h1
  obtain ⟨_, _, h1⟩ := bind_ok_iff.mp h1
  obtain rfl := pure_ok_iff.mp h1
  have hq' := orFault_ok_iff.mp hq
  exact ⟨q, ⟨hq', require_ok_iff.mp hown⟩, rfl, getElem_setProcess hq'⟩

theorem recvFeedback_ok {asserts : Bool} (h1 : h.recvNrSlHarqFeedback asserts d id = .ok h') :
    ∃ q, h.Owned d id q ∧ h'.nrSlHarqIdBuffer = h.nrSlHarqIdBuffer ++ [id] ∧
      ∀ i, h'.nrSlHarqPktBuffer[i]? = if i = id then some {} else h.nrSlHarqPktBuffer[i]? := by
  obtain ⟨q, hq, h1⟩ := bind_ok_iff.mp h1
  obtain ⟨_, hown, h1⟩ := bind_ok_iff.mp h1
  obtain ⟨_, _, h1⟩ := bind_ok_iff.mp h1
  obtain rfl := pure_ok_iff.mp h1
  have hq' := orFault_ok_iff.mp hq
  exact ⟨q, ⟨hq', require_ok_iff.mp hown⟩, rfl, getElem_setProcess hq'⟩

theorem getPacketBurst_ok {burst : Nat} (h1 : h.getPacketBurst d id = .ok burst) :
    ∃ q, h.Owned d id q ∧ burst = q.pktBurst := by
  obtain ⟨q, hq, h1⟩ := bind_ok_iff.mp h1
  obtain ⟨_, hown, h1⟩ := bind_ok_iff.mp h1
  exact ⟨q, ⟨orFault_ok_iff.mp hq, require_ok_iff.mp hown⟩, (pure_ok_iff.mp h1).symm⟩

/-- Nothing that belongs to `d` changes between the two states. -/
def Keeps (d : Nat) (h h' : NrSlUeMacHarq) : Prop := ∀ id p, h.Owned d id p ↔ h'.Owned d id p

theorem keeps_refl (h : NrSlUeMacHarq) : Keeps d h h := fun _ _ => Iff.rfl

theorem keeps_trans {h₁ h₂ h₃ : NrSlUeMacHarq} (h12 : Keeps d h₁ h₂) (h23 : Keeps d h₂ h₃) :
    Keeps d h₁ h₃ := fun id p => (h12 id p).trans (h23 id p)

/-- Replacing a process that was not `d`'s by one that is not `d`'s keeps what is `d`'s. -/
theorem keeps_of_update {q p : HarqProcess} (hq : h.nrSlHarqPktBuffer[id]? = some q)
    (hqd : q.dstL2Id ≠ some d) (hpd : p.dstL2Id ≠ some d)
    (hupd : ∀ i, h'.nrSlHarqPktBuffer[i]? = if i = id then some p else h.nrSlHarqPktBuffer[i]?) :
    Keeps d h h' := by
  intro i r
  unfold Owned
  rw [hupd i]
  split
  next hi =>
    subst hi
    constructor
    · rintro ⟨hr, hd⟩
      obtain rfl := Option.some.inj (hq.symm.trans hr)
      exact absurd hd hqd
    · rintro ⟨hr, hd⟩
      obtain rfl := Option.some.inj hr
      exact absurd hd hpd
  next => exact Iff.rfl

theorem assign_sound (sound : h.Sound) (h1 : h.assignNrSlHarqProcessId d = .ok (id, h')) :
    h'.Sound ∧ h'.Owned d id { dstL2Id := some d } ∧ ∀ d', d' ≠ d → Keeps d' h h' := by
  obtain ⟨rest, q, hbuffer, hbuffer', hq, hupd⟩ := assign_ok h1
  have hnodup := sound.nodup
  rw [hbuffer] at hnodup
  obtain ⟨hid, hrest⟩ := List.nodup_cons.mp hnodup
  have hfree := (sound.available id).mp (hbuffer ▸ List.mem_cons_self)
  obtain rfl := Option.some.inj (hq.symm.trans hfree)
  refine ⟨⟨hbuffer' ▸ hrest, fun i => ?_, fun i p hp hnone => ?_⟩, ?_, fun d' hd' => ?_⟩
  · rw [hbuffer', hupd i]
    split
    next hi =>
      subst hi
      simp [hid]
    next hi =>
      rw [← sound.available i, hbuffer]
      simp [hi]
  · rw [hupd i] at hp
    split at hp
    next =>
      obtain rfl := Option.some.inj hp
      cases hnone
    next => exact sound.taken i p hp hnone
  · exact ⟨by rw [hupd id, if_pos rfl], rfl⟩
  · exact keeps_of_update hq (by simp) (by simpa using hd'.symm) hupd

theorem addPacket_sound (sound : h.Sound) (h1 : h.addPacket d lcId id = .ok h') :
    h'.Sound ∧ (∃ p, h'.Owned d id p ∧ 0 < p.pktBurst) ∧ ∀ d', d' ≠ d → Keeps d' h h' := by
  obtain ⟨q, ⟨hq, hown⟩, hbuffer, hupd⟩ := addPacket_ok h1
  refine ⟨⟨hbuffer ▸ sound.nodup, fun i => ?_, fun i p hp hnone => ?_⟩, ?_, fun d' hd' => ?_⟩
  · rw [hbuffer, sound.available i, hupd i]
    split
    next hi =>
      subst hi
      rw [hq]
      constructor
      · intro he
        obtain rfl := Option.some.inj he
        cases hown
      · intro he
        have := congrArg HarqProcess.dstL2Id (Option.some.inj he)
        rw [hown] at this
        cases this
    next => exact Iff.rfl
  · rw [hupd i] at hp
    split at hp
    next =>
      obtain rfl := Option.some.inj hp
      rw [hown] at hnone
      cases hnone
    next => exact sound.taken i p hp hnone
  · have hid := hupd id
    rw [if_pos rfl] at hid
    exact ⟨_, ⟨hid, hown⟩, Nat.succ_pos q.pktBurst⟩
  · have hne : q.dstL2Id ≠ some d' := by
      rw [hown]
      simpa using hd'.symm
    exact keeps_of_update hq hne (p := { q with
      lcidList := insert lcId q.lcidList, pktBurst := q.pktBurst + 1 }) hne hupd

theorem recvFeedback_sound {asserts : Bool} (sound : h.Sound)
    (h1 : h.recvNrSlHarqFeedback asserts d id = .ok h') :
    h'.Sound ∧ ∀ d', d' ≠ d → Keeps d' h h' := by
  obtain ⟨q, ⟨hq, hown⟩, hbuffer, hupd⟩ := recvFeedback_ok h1
  have hid : id ∉ h.nrSlHarqIdBuffer := by
    intro hin
    have hfree := (sound.available id).mp hin
    obtain rfl := Option.some.inj (hq.symm.trans hfree)
    cases hown
  refine ⟨⟨?_, fun i => ?_, fun i p hp hnone => ?_⟩, fun d' hd' => ?_⟩
  · rw [hbuffer]
    exact List.nodup_append.mpr ⟨sound.nodup, by simp, by
      intro a ha b hb
      obtain rfl := List.mem_singleton.mp hb
      exact fun hab => hid (hab ▸ ha)⟩
  · rw [hbuffer, hupd i]
    split
    next hi => simp [hi]
    next hi =>
      rw [← sound.available i]
      simp [hi]
  · rw [hupd i] at hp
    split at hp
    next => exact (Option.some.inj hp).symm
    next => exact sound.taken i p hp hnone
  · have hne : q.dstL2Id ≠ some d' := by
      rw [hown]
      simpa using hd'.symm
    exact keeps_of_update hq hne (by simp) hupd

/-- The id is in use by the destination. -/
def Owns (h : NrSlUeMacHarq) (d id : Nat) : Prop := ∃ p, h.Owned d id p

theorem keeps_owns {h₁ h₂ : NrSlUeMacHarq} (hkeep : Keeps d h₁ h₂) (i : Nat) :
    h₁.Owns d i ↔ h₂.Owns d i := exists_congr fun p => hkeep i p

theorem assign_owns (h1 : h.assignNrSlHarqProcessId d = .ok (id, h')) (i : Nat) :
    h'.Owns d i ↔ i = id ∨ h.Owns d i := by
  obtain ⟨_, q, _, _, _, hupd⟩ := assign_ok h1
  unfold Owns Owned
  rw [hupd i]
  by_cases hi : i = id
  · rw [if_pos hi]
    exact ⟨fun _ => Or.inl hi, fun _ => ⟨_, rfl, rfl⟩⟩
  · rw [if_neg hi]
    exact ⟨Or.inr, fun hor => hor.resolve_left hi⟩

theorem addPacket_owns (h1 : h.addPacket d lcId id = .ok h') (i : Nat) :
    h'.Owns d i ↔ h.Owns d i := by
  obtain ⟨q, hown, _, hupd⟩ := addPacket_ok h1
  unfold Owns Owned
  rw [hupd i]
  by_cases hi : i = id
  · rw [if_pos hi]
    exact ⟨fun _ => ⟨q, hi ▸ hown.1, hown.2⟩, fun _ => ⟨_, rfl, hown.2⟩⟩
  · rw [if_neg hi]

theorem recvFeedback_owns {asserts : Bool} (h1 : h.recvNrSlHarqFeedback asserts d id = .ok h')
    (i : Nat) : h'.Owns d i ↔ i ≠ id ∧ h.Owns d i := by
  obtain ⟨q, _, _, hupd⟩ := recvFeedback_ok h1
  unfold Owns Owned
  rw [hupd i]
  by_cases hi : i = id
  · rw [if_pos hi]
    constructor
    · rintro ⟨p, hp, hd⟩
      obtain rfl := Option.some.inj hp
      cases hd
    · intro hand
      exact absurd hi hand.1
  · rw [if_neg hi]
    exact ⟨fun hown => ⟨hi, hown⟩, fun hand => hand.2⟩

theorem available_not_owned (hs : h.Sound) {id d : Nat} (hin : id ∈ h.nrSlHarqIdBuffer) :
    ¬h.Owns d id := by
  rintro ⟨p, hp, hd⟩
  have hfree := (hs.available id).mp hin
  obtain rfl := Option.some.inj (hp.symm.trans hfree)
  cases hd

theorem available_lt (hs : h.Sound) (hsize : h.nrSlHarqPktBuffer.length < 256) :
    h.nrSlHarqIdBuffer.length < 256 := by
  have hsub : h.nrSlHarqIdBuffer ⊆ List.range h.nrSlHarqPktBuffer.length := by
    intro id hin
    have hfree := (hs.available id).mp hin
    exact List.mem_range.mpr (List.getElem?_eq_some_iff.mp hfree).1
  have hle := (List.subperm_of_subset hs.nodup hsub).length_le
  rw [List.length_range] at hle
  omega

theorem size_of_update {q p : HarqProcess} (hq : h.nrSlHarqPktBuffer[id]? = some q)
    (hupd : ∀ i, h'.nrSlHarqPktBuffer[i]? = if i = id then some p else h.nrSlHarqPktBuffer[i]?) :
    h'.nrSlHarqPktBuffer.length = h.nrSlHarqPktBuffer.length := by
  have hnone : ∀ i : Nat, h'.nrSlHarqPktBuffer[i]? = none ↔ h.nrSlHarqPktBuffer[i]? = none := by
    intro i
    rw [hupd i]
    by_cases hi : i = id
    · rw [if_pos hi, hi, hq]
      simp
    · rw [if_neg hi]
  simp only [List.getElem?_eq_none_iff] at hnone
  have hle := (hnone h.nrSlHarqPktBuffer.length).mpr (Nat.le_refl _)
  have hge := (hnone h'.nrSlHarqPktBuffer.length).mp (Nat.le_refl _)
  omega

/-- The change concerns the processes of one destination only. -/
structure Confined (d : Nat) (h h' : NrSlUeMacHarq) : Prop where
  sound : h.Sound → h'.Sound
  keeps : h.Sound → ∀ d', d' ≠ d → Keeps d' h h'
  size : h'.nrSlHarqPktBuffer.length = h.nrSlHarqPktBuffer.length

theorem confined_refl (d : Nat) (h : NrSlUeMacHarq) : Confined d h h :=
  ⟨id, fun _ _ _ => keeps_refl h, rfl⟩

theorem confined_trans {h₁ h₂ h₃ : NrSlUeMacHarq} (h12 : Confined d h₁ h₂)
    (h23 : Confined d h₂ h₃) : Confined d h₁ h₃ where
  sound := fun hs => h23.sound (h12.sound hs)
  keeps := fun hs d' hd => keeps_trans (h12.keeps hs d' hd) (h23.keeps (h12.sound hs) d' hd)
  size := h23.size.trans h12.size

theorem assign_confined (h1 : h.assignNrSlHarqProcessId d = .ok (id, h')) : Confined d h h' where
  sound := fun hs => (assign_sound hs h1).1
  keeps := fun hs => (assign_sound hs h1).2.2
  size := by
    obtain ⟨_, _, _, _, hq, hupd⟩ := assign_ok h1
    exact size_of_update hq hupd

theorem addPacket_confined (h1 : h.addPacket d lcId id = .ok h') : Confined d h h' where
  sound := fun hs => (addPacket_sound hs h1).1
  keeps := fun hs => (addPacket_sound hs h1).2.2
  size := by
    obtain ⟨q, hq, _, hupd⟩ := addPacket_ok h1
    exact size_of_update (p := { q with
      lcidList := insert lcId q.lcidList, pktBurst := q.pktBurst + 1 }) hq.1 hupd

theorem recvFeedback_confined {asserts : Bool}
    (h1 : h.recvNrSlHarqFeedback asserts d id = .ok h') : Confined d h h' where
  sound := fun hs => (recvFeedback_sound hs h1).1
  keeps := fun hs => (recvFeedback_sound hs h1).2
  size := by
    obtain ⟨_, hq, _, hupd⟩ := recvFeedback_ok h1
    exact size_of_update hq.1 hupd

end NrSlUeMacHarq

end SidelinkORe
