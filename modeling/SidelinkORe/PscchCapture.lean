import SidelinkORe.StableSort
import Mathlib.Data.Finset.Basic
import Mathlib.Algebra.Order.Field.Rat

namespace SidelinkORe

/-- A PSCCH signal as received: its SINR, its RBs, the perceived power in each RB, and whether the
random draw is above the error rate of its transport block. -/
structure PscchSignal (R : Type) where
  sinrAvg : R
  sinrMin : R
  rbBitmap : List Nat
  slSigPerceived : List ℚ
  aboveTbler : Bool

inductive SlRxSigParamInfo (R : Type) where
  | ctrl (signal : PscchSignal R)
  | data

/-- A message of `sortedControlMessages` with its index in the reception buffer. -/
structure SlCtrlSigParamInfo (R : Type) extends PscchSignal R where
  index : Nat

structure PscchConfig where
  slCtrlErrorModelEnabled : Bool
  dropTbOnRbCollisionEnabled : Bool
  sensingEnabled : Bool
  sensingThreshold : ℚ

/-- The variables of the decoding loop. -/
structure PscchLists (R : Type) where
  rbDecodedBitmap : Finset Nat
  rxControlMessageOkList : List (SlCtrlSigParamInfo R)
  rxControlMessageFailList : List (SlCtrlSigParamInfo R)

section Messages

/-- The RBs of one message: those used so far and those that collide. -/
def collideRbs : Finset Nat × Finset Nat → List Nat → Finset Nat × Finset Nat
  | acc, [] => acc
  | acc, rb :: rbs =>
    if rb ∈ acc.1 then (acc.1, insert rb acc.2) else collideRbs (insert rb acc.1, acc.2) rbs

variable {R : Type}

/-- The total power in each RB. -/
def totalPerceived : List (SlCtrlSigParamInfo R) → List ℚ
  | [] => []
  | m :: ms => ms.foldl (fun total m => total.zipWith (· + ·) m.slSigPerceived) m.slSigPerceived

def collidedRbBitmap (cfg : PscchConfig) (sorted : List (SlCtrlSigParamInfo R)) : Finset Nat :=
  let collided := if cfg.dropTbOnRbCollisionEnabled = true then
    (sorted.foldl (fun acc m => collideRbs acc m.rbBitmap) (∅, ∅)).2 else ∅
  if cfg.sensingEnabled = true then
    collided ∪ (((totalPerceived sorted).zipIdx.filter fun p =>
      decide (p.1 < cfg.sensingThreshold)).map Prod.snd).toFinset
  else collided

/-- The PSCCH messages of the reception buffer, as `EndRxSlFrame` collects them. -/
def pscchMessages (buffer : List (SlRxSigParamInfo R)) : List (SlCtrlSigParamInfo R) :=
  buffer.zipIdx.filterMap fun p =>
    match p.1 with
    | .ctrl signal => some { signal with index := p.2 }
    | .data => none

/-- Corrupt by a collision, by an overlap with a decoded message or by its own decoding. -/
def corrupt (cfg : PscchConfig) (collided rbDecodedBitmap : Finset Nat)
    (m : SlCtrlSigParamInfo R) : Bool :=
  if cfg.slCtrlErrorModelEnabled = true then
    (m.rbBitmap.any fun rb => decide (rb ∈ collided) || decide (rb ∈ rbDecodedBitmap)) || !m.aboveTbler
  else if cfg.dropTbOnRbCollisionEnabled = true then m.rbBitmap.any fun rb => decide (rb ∈ collided)
  else false

def decodeMessage (cfg : PscchConfig) (collided : Finset Nat) (lists : PscchLists R)
    (m : SlCtrlSigParamInfo R) : PscchLists R :=
  if corrupt cfg collided lists.rbDecodedBitmap m = true then
    { lists with rxControlMessageFailList := lists.rxControlMessageFailList ++ [m] }
  else
    { lists with
      rbDecodedBitmap := lists.rbDecodedBitmap ∪ m.rbBitmap.toFinset
      rxControlMessageOkList := lists.rxControlMessageOkList ++ [m] }

/-- The error model is on, collision dropping and sensing are off. -/
def captureConfig (sensingThreshold : ℚ) : PscchConfig := ⟨true, false, false, sensingThreshold⟩

theorem corrupt_eq_false {decoded : Finset Nat}
    {m : SlCtrlSigParamInfo R} {threshold : ℚ} :
    corrupt (captureConfig threshold) ∅ decoded m = false ↔
      m.aboveTbler = true ∧ ∀ rb ∈ m.rbBitmap, rb ∉ decoded := by
  simp [corrupt, captureConfig, and_comm]

theorem pscchMessages_rising (buffer : List (SlRxSigParamInfo R)) :
    (pscchMessages buffer).Pairwise fun a b => a.index < b.index := by
  refine List.pairwise_filterMap.mpr ((pairwise_zipIdx buffer 0).imp ?_)
  intro p q hpq a ha b hb
  have hindex : ∀ (p : SlRxSigParamInfo R × Nat) (a : SlCtrlSigParamInfo R),
      (match p.1 with
        | .ctrl signal => some { signal with index := p.2 }
        | .data => none) = some a → a.index = p.2 := by
    intro p a ha
    split at ha
    next => cases Option.some.inj ha; rfl
    next => cases ha
  rw [hindex p a ha, hindex q b hb]
  exact hpq

end Messages

section Reception

variable {R : Type} [LinearOrder R]

/-- `operator <` of two messages. -/
def SlCtrlSigParamInfo.Less (a b : SlCtrlSigParamInfo R) : Prop :=
  b.sinrAvg < a.sinrAvg ∨ a.index < b.index

instance (a b : SlCtrlSigParamInfo R) : Decidable (a.Less b) :=
  inferInstanceAs (Decidable (_ ∨ _))

/-- The multiset inserts a message in front of the first one that it is less than. -/
def insertMessage (new : SlCtrlSigParamInfo R) :
    List (SlCtrlSigParamInfo R) → List (SlCtrlSigParamInfo R)
  | [] => [new]
  | m :: sorted => if new.Less m then new :: m :: sorted else m :: insertMessage new sorted

def sortedControlMessages (messages : List (SlCtrlSigParamInfo R)) : List (SlCtrlSigParamInfo R) :=
  messages.foldl (fun sorted new => insertMessage new sorted) []

def rxSlPscch (cfg : PscchConfig) (messages : List (SlCtrlSigParamInfo R)) : PscchLists R :=
  let sorted := sortedControlMessages messages
  sorted.foldl (decodeMessage cfg (collidedRbBitmap cfg sorted)) ⟨∅, [], []⟩

/-- The order in which the strongest message captures the receiver. -/
def Stronger (a b : SlCtrlSigParamInfo R) : Prop :=
  b.sinrAvg < a.sinrAvg ∨ a.sinrAvg = b.sinrAvg ∧ a.index < b.index

/-- The messages of a reception are ordered, visited by falling SINR, and decoded exactly when no
stronger decoded message is in their RBs. -/
structure CapturesInOrder (sensingThreshold : ℚ) (buffer : List (SlRxSigParamInfo R)) : Prop where
  ordered : IsStrictWeakOrder { m // m ∈ pscchMessages buffer } fun a b => a.1.Less b.1
  visits : (sortedControlMessages (pscchMessages buffer)).Perm (pscchMessages buffer) ∧
    (sortedControlMessages (pscchMessages buffer)).Pairwise fun a b => b.sinrAvg ≤ a.sinrAvg
  decodes : ∀ m ∈ pscchMessages buffer,
    let decoded := (rxSlPscch (captureConfig sensingThreshold) (pscchMessages buffer)).rxControlMessageOkList
    m ∈ decoded ↔ m.aboveTbler = true ∧
      ∀ m' ∈ decoded, Stronger m' m → m.rbBitmap.Disjoint m'.rbBitmap

variable {buffer : List (SlRxSigParamInfo R)} {messages sorted done : List (SlCtrlSigParamInfo R)}
  {a b c m new : SlCtrlSigParamInfo R} {threshold : ℚ}

theorem Stronger.trans (hab : Stronger a b) (hbc : Stronger b c) : Stronger a c := by
  rcases hab with hab | ⟨hab, hindex⟩
  · rcases hbc with hbc | ⟨hbc, _⟩
    · exact Or.inl (hbc.trans hab)
    · exact Or.inl (hbc ▸ hab)
  · rcases hbc with hbc | ⟨hbc, hindex'⟩
    · exact Or.inl (hab ▸ hbc)
    · exact Or.inr ⟨hab.trans hbc, hindex.trans hindex'⟩

theorem Stronger.irrefl (a : SlCtrlSigParamInfo R) : ¬Stronger a a := by
  rintro (hlt | ⟨_, hlt⟩)
  · exact lt_irrefl _ hlt
  · exact Nat.lt_irrefl _ hlt

theorem insertMessage_perm (new : SlCtrlSigParamInfo R) (sorted : List (SlCtrlSigParamInfo R)) :
    (insertMessage new sorted).Perm (new :: sorted) := by
  induction sorted with
  | nil => exact List.Perm.refl _
  | cons m sorted ih =>
    rw [insertMessage]
    split
    next => exact List.Perm.refl _
    next => exact (ih.cons m).trans (List.Perm.swap new m sorted)

/-- A message with a higher index is put behind all that are at least as strong. -/
theorem insertMessage_stronger (hs : sorted.Pairwise Stronger) (hnew : ∀ m ∈ sorted, m.index < new.index) :
    (insertMessage new sorted).Pairwise Stronger := by
  induction sorted with
  | nil => exact List.pairwise_singleton _ new
  | cons m sorted ih =>
    obtain ⟨hhead, htail⟩ := List.pairwise_cons.mp hs
    have hindex := hnew m List.mem_cons_self
    rw [insertMessage]
    split
    next hless =>
      -- the second comparison is never true for a message that comes later
      have hstronger : Stronger new m := Or.inl (hless.resolve_right (by omega))
      refine List.pairwise_cons.mpr ⟨fun x hx => ?_, hs⟩
      rcases List.mem_cons.mp hx with rfl | hx
      · exact hstronger
      · exact hstronger.trans (hhead x hx)
    next hnot =>
      have hbehind : Stronger m new := by
        rcases lt_or_eq_of_le (not_lt.mp fun hlt => hnot (Or.inl hlt)) with hlt | heq
        · exact Or.inl hlt
        · exact Or.inr ⟨heq.symm, hindex⟩
      refine List.pairwise_cons.mpr ⟨fun x hx => ?_, ih htail fun x hx => hnew x (List.mem_cons_of_mem m hx)⟩
      rcases List.mem_cons.mp ((insertMessage_perm new sorted).mem_iff.mp hx) with rfl | hx
      · exact hbehind
      · exact hhead x hx

theorem sortedControlMessages_perm (messages : List (SlCtrlSigParamInfo R)) :
    (sortedControlMessages messages).Perm messages := by
  induction messages using List.reverseRecOn with
  | nil => exact List.Perm.refl _
  | append_singleton messages new ih =>
    unfold sortedControlMessages at ih ⊢
    rw [List.foldl_append, List.foldl_cons, List.foldl_nil]
    refine (insertMessage_perm new _).trans ((ih.cons new).trans ?_)
    exact (List.perm_append_singleton new messages).symm

theorem sortedControlMessages_stronger (hrising : messages.Pairwise fun a b => a.index < b.index) :
    (sortedControlMessages messages).Perm messages ∧
      (sortedControlMessages messages).Pairwise Stronger := by
  refine ⟨sortedControlMessages_perm messages, ?_⟩
  induction messages using List.reverseRecOn with
  | nil => exact List.Pairwise.nil
  | append_singleton messages new ih =>
    obtain ⟨hbefore, _, hcross⟩ := List.pairwise_append.mp hrising
    have hs := ih hbefore
    have hperm := sortedControlMessages_perm messages
    unfold sortedControlMessages at hperm hs ⊢
    rw [List.foldl_append, List.foldl_cons, List.foldl_nil]
    refine insertMessage_stronger hs fun m hm => ?_
    exact hcross m (hperm.mem_iff.mp hm) new (List.mem_singleton_self new)

/-- The lists after the messages in `done`: the decoded ones are those that capture the receiver. -/
structure Captured (done : List (SlCtrlSigParamInfo R)) (lists : PscchLists R) : Prop where
  rbs : ∀ rb, rb ∈ lists.rbDecodedBitmap ↔ ∃ m ∈ lists.rxControlMessageOkList, rb ∈ m.rbBitmap
  visited : ∀ m ∈ lists.rxControlMessageOkList, m ∈ done
  decodes : ∀ m ∈ done, m ∈ lists.rxControlMessageOkList ↔ m.aboveTbler = true ∧
    ∀ m' ∈ lists.rxControlMessageOkList, Stronger m' m → m.rbBitmap.Disjoint m'.rbBitmap

/-- A message weaker than all visited ones leaves their decoding as it is. -/
theorem captured_step {lists : PscchLists R} (h : Captured done lists)
    (hweaker : ∀ x ∈ done, Stronger x m) :
    Captured (done ++ [m]) (decodeMessage (captureConfig threshold) ∅ lists m) := by
  have hnew : m ∉ lists.rxControlMessageOkList := fun hm =>
    Stronger.irrefl m (hweaker m (h.visited m hm))
  have hfree : (∀ rb ∈ m.rbBitmap, rb ∉ lists.rbDecodedBitmap) ↔
      ∀ m' ∈ lists.rxControlMessageOkList, m.rbBitmap.Disjoint m'.rbBitmap := by
    constructor
    · intro hfree m' hm' rb hrb hrb'
      exact hfree rb hrb ((h.rbs rb).mpr ⟨m', hm', hrb'⟩)
    · intro hdisjoint rb hrb hdecoded
      obtain ⟨m', hm', hrb'⟩ := (h.rbs rb).mp hdecoded
      exact hdisjoint m' hm' hrb hrb'
  unfold decodeMessage
  by_cases hcorrupt : corrupt (captureConfig threshold) ∅ lists.rbDecodedBitmap m = true
  · rw [if_pos hcorrupt]
    refine ⟨h.rbs, fun x hx => List.mem_append_left _ (h.visited x hx), fun x hx => ?_⟩
    rcases List.mem_append.mp hx with hx | hx
    · exact h.decodes x hx
    · obtain rfl := List.mem_singleton.mp hx
      refine ⟨fun hin => absurd hin hnew, fun ⟨hown, hdisjoint⟩ => ?_⟩
      have hclean : corrupt (captureConfig threshold) ∅ lists.rbDecodedBitmap x = false :=
        corrupt_eq_false.mpr ⟨hown, hfree.mpr fun m' hm' =>
          hdisjoint m' hm' (hweaker m' (h.visited m' hm'))⟩
      rw [hclean] at hcorrupt
      cases hcorrupt
  · obtain ⟨hown, hclear⟩ := corrupt_eq_false.mp (Bool.not_eq_true _ ▸ hcorrupt)
    rw [if_neg hcorrupt]
    constructor
    · intro rb
      simp only [Finset.mem_union, List.mem_toFinset, List.mem_append, List.mem_singleton, h.rbs rb]
      constructor
      · rintro (⟨m', hm', hrb⟩ | hrb)
        · exact ⟨m', Or.inl hm', hrb⟩
        · exact ⟨m, Or.inr rfl, hrb⟩
      · rintro ⟨m', hm' | rfl, hrb⟩
        · exact Or.inl ⟨m', hm', hrb⟩
        · exact Or.inr hrb
    · intro x hx
      rcases List.mem_append.mp hx with hx | hx
      · exact List.mem_append_left _ (h.visited x hx)
      · exact List.mem_append_right _ hx
    · intro x hx
      simp only [List.mem_append, List.mem_singleton]
      rcases List.mem_append.mp hx with hx | hx
      · have hother : x ≠ m := by
          intro heq
          have hself := hweaker x hx
          rw [heq] at hself
          exact Stronger.irrefl m hself
        have hnotStronger : ¬Stronger m x := fun hmx =>
          Stronger.irrefl m (hmx.trans (hweaker x hx))
        rw [or_iff_left hother, h.decodes x hx]
        refine and_congr_right fun _ => ⟨fun hall m' hm' hstronger => ?_, fun hall m' hm' => ?_⟩
        · rcases hm' with hm' | rfl
          · exact hall m' hm' hstronger
          · exact absurd hstronger hnotStronger
        · exact hall m' (Or.inl hm')
      · obtain rfl := List.mem_singleton.mp hx
        refine ⟨fun _ => ⟨hown, fun m' hm' hstronger => ?_⟩, fun _ => Or.inr rfl⟩
        rcases hm' with hm' | rfl
        · exact hfree.mp hclear m' hm'
        · exact absurd hstronger (Stronger.irrefl _)

theorem captured_foldl (hs : sorted.Pairwise Stronger) :
    Captured sorted (sorted.foldl (decodeMessage (captureConfig threshold) ∅) ⟨∅, [], []⟩) := by
  induction sorted using List.reverseRecOn with
  | nil => exact ⟨by simp, by simp, by simp⟩
  | append_singleton sorted m ih =>
    obtain ⟨hbefore, _, hcross⟩ := List.pairwise_append.mp hs
    rw [List.foldl_append, List.foldl_cons, List.foldl_nil]
    exact captured_step (ih hbefore) fun x hx => hcross x hx m (List.mem_singleton_self m)

/-- The strongest messages capture the receiver in every reception, whatever the comparison is
worth: a message that is inserted comes later than all that it is compared with. -/
theorem rxSlPscch_captured (threshold : ℚ) (buffer : List (SlRxSigParamInfo R)) :
    Captured (sortedControlMessages (pscchMessages buffer))
      (rxSlPscch (captureConfig threshold) (pscchMessages buffer)) :=
  captured_foldl (sortedControlMessages_stronger (pscchMessages_rising buffer)).2

/-- Among messages whose SINR does not rise with the index the comparison is that of the indices. -/
theorem less_iff_index (hfalling : messages.Pairwise fun a b => b.sinrAvg ≤ a.sinrAvg)
    (hrising : messages.Pairwise fun a b => a.index < b.index) (ha : a ∈ messages)
    (hb : b ∈ messages) : a.Less b ↔ a.index < b.index := by
  obtain ⟨i, hi, rfl⟩ := List.mem_iff_getElem.mp ha
  obtain ⟨j, hj, rfl⟩ := List.mem_iff_getElem.mp hb
  refine ⟨fun hless => ?_, Or.inr⟩
  rcases Nat.lt_trichotomy i j with hij | rfl | hij
  · exact List.pairwise_iff_getElem.mp hrising i j hi hj hij
  · exact hless.resolve_left (lt_irrefl _)
  · exact hless.resolve_left (not_lt.mpr (List.pairwise_iff_getElem.mp hfalling j i hj hi hij))

theorem isStrictWeakOrder_iff (hrising : messages.Pairwise fun a b => a.index < b.index) :
    (IsStrictWeakOrder { m // m ∈ messages } fun a b => a.1.Less b.1) ↔
      messages.Pairwise fun a b => b.sinrAvg ≤ a.sinrAvg := by
  constructor
  · intro hweak
    refine List.pairwise_iff_getElem.mpr fun i j hi hj hij => not_lt.mp fun hlt => ?_
    have hindex := List.pairwise_iff_getElem.mp hrising i j hi hj hij
    have hthere : messages[i].Less messages[j] := Or.inr hindex
    have hback : messages[j].Less messages[i] := Or.inl hlt
    -- both are less than the other
    exact hweak.irrefl ⟨messages[i], List.getElem_mem hi⟩
      (hweak.trans _ ⟨messages[j], List.getElem_mem hj⟩ _ hthere hback)
  · intro hfalling
    have hless : ∀ a b : { m // m ∈ messages }, a.1.Less b.1 ↔ a.1.index < b.1.index :=
      fun a b => less_iff_index hfalling hrising a.2 b.2
    exact {
      irrefl := fun a h => Nat.lt_irrefl _ ((hless a a).mp h)
      trans := fun a b c hab hbc =>
        (hless a c).mpr (((hless a b).mp hab).trans ((hless b c).mp hbc))
      incomp_trans := by
        intro a b c hab hbc
        simp only [hless] at hab hbc ⊢
        omega }

/-- PSCCH messages are captured as intended exactly when their SINR does not rise with the index:
the decoding is right in any case, but the comparison contradicts itself on two messages of which
the later one is the stronger. -/
theorem capturesInOrder_iff (threshold : ℚ) (buffer : List (SlRxSigParamInfo R)) :
    CapturesInOrder threshold buffer ↔
      (pscchMessages buffer).Pairwise fun a b => b.sinrAvg ≤ a.sinrAvg := by
  have hrising := pscchMessages_rising buffer
  rw [← isStrictWeakOrder_iff hrising]
  refine ⟨fun h => h.ordered, fun hordered => ⟨hordered, ?_, ?_⟩⟩
  · obtain ⟨hperm, hs⟩ := sortedControlMessages_stronger hrising
    refine ⟨hperm, hs.imp fun hstronger => ?_⟩
    rcases hstronger with hlt | ⟨heq, _⟩
    · exact hlt.le
    · exact heq.ge
  · intro m hm
    have hperm := (sortedControlMessages_stronger hrising).1
    exact (rxSlPscch_captured threshold buffer).decodes m (hperm.mem_iff.mpr hm)

end Reception

/-- A signal on RBs 0 to 9 that is decoded unless another one captures them. -/
def controlSignal (sinrAvg : Int) : SlRxSigParamInfo Int :=
  .ctrl { sinrAvg := sinrAvg, sinrMin := sinrAvg, rbBitmap := List.range 10, slSigPerceived := []
          aboveTbler := true }

/-- A message at 20 dB that is received after one at 5 dB is less than it and not less. -/
theorem capturesInOrder_fails_laterStronger :
    ¬∀ (threshold : ℚ) (buffer : List (SlRxSigParamInfo Int)), CapturesInOrder threshold buffer := by
  intro claimed
  have hordered := (claimed 0 [controlSignal 5, controlSignal 20]).ordered
  have hfalling := (isStrictWeakOrder_iff (pscchMessages_rising _)).mp hordered
  simp [pscchMessages, controlSignal] at hfalling

end SidelinkORe
