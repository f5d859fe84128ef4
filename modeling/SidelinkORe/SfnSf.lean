import Mathlib.Order.Defs.LinearOrder
import Mathlib.Tactic.Linarith

namespace SidelinkORe

/-- Frame, subframe and slot numbers; `frameNum` is a 16-bit counter. The other modules name a slot
by its normalized number. -/
structure SfnSf where
  frameNum : Nat
  subframeNum : Nat
  slotNum : Nat
  numerology : Nat
  deriving DecidableEq

namespace SfnSf

def slotPerSubframe (s : SfnSf) : Nat := 2 ^ s.numerology

def normalize (s : SfnSf) : Nat :=
  s.slotNum + s.subframeNum * s.slotPerSubframe + s.frameNum * 10 * s.slotPerSubframe

def add (s : SfnSf) (slotN : Nat) : SfnSf :=
  let subframes := s.subframeNum + (s.slotNum + slotN) / s.slotPerSubframe
  { s with
    frameNum := (s.frameNum + subframes / 10) % 65536
    subframeNum := subframes % 10
    slotNum := (s.slotNum + slotN) % s.slotPerSubframe }

/-- `operator <` compares frame, subframe and slot in this order. -/
def lt (a b : SfnSf) : Bool :=
  if a.frameNum < b.frameNum then true
  else if a.frameNum = b.frameNum ∧ a.subframeNum < b.subframeNum then true
  else a.frameNum = b.frameNum ∧ a.subframeNum = b.subframeNum ∧ a.slotNum < b.slotNum

/-- The ranges every slot number keeps. -/
structure WellFormed (s : SfnSf) : Prop where
  frame : s.frameNum < 65536
  subframe : s.subframeNum < 10
  slot : s.slotNum < s.slotPerSubframe

theorem slotPerSubframe_pos (s : SfnSf) : 0 < s.slotPerSubframe := Nat.two_pow_pos _

theorem add_wellFormed {s : SfnSf} (slotN : Nat) : WellFormed (s.add slotN) where
  frame := Nat.mod_lt _ (by decide)
  subframe := Nat.mod_lt _ (by decide)
  slot := Nat.mod_lt _ s.slotPerSubframe_pos

/-- The number of slots after which the frame counter restarts. -/
def cycle (numerology : Nat) : Nat := 655360 * 2 ^ numerology

/-- As long as the frame counter does not restart, `Add` adds to the normalized slot number. -/
theorem normalize_add {s : SfnSf} {slotN : Nat} (noWrap : s.normalize + slotN < cycle s.numerology) :
    (s.add slotN).normalize = s.normalize + slotN := by
  have hslot := Nat.div_add_mod (s.slotNum + slotN) s.slotPerSubframe
  have hframe : s.frameNum + (s.subframeNum + (s.slotNum + slotN) / s.slotPerSubframe) / 10 < 65536 := by
    have hsplit : s.normalize + slotN =
        (s.frameNum * 10 + s.subframeNum) * s.slotPerSubframe + (s.slotNum + slotN) := by
      unfold normalize
      linarith
    have hwhole : s.frameNum * 10 + s.subframeNum + (s.slotNum + slotN) / s.slotPerSubframe < 655360 := by
      rw [Nat.add_comm, ← Nat.add_mul_div_right _ _ s.slotPerSubframe_pos,
        Nat.div_lt_iff_lt_mul s.slotPerSubframe_pos]
      rw [hsplit] at noWrap
      change _ < 655360 * s.slotPerSubframe at noWrap
      omega
    omega
  have hsub := Nat.div_add_mod (s.subframeNum + (s.slotNum + slotN) / s.slotPerSubframe) 10
  unfold normalize add
  simp only [Nat.mod_eq_of_lt hframe]
  change _ % s.slotPerSubframe + _ * s.slotPerSubframe + _ * 10 * s.slotPerSubframe = _
  generalize (s.slotNum + slotN) / s.slotPerSubframe = q at *
  generalize (s.slotNum + slotN) % s.slotPerSubframe = r at *
  generalize (s.subframeNum + q) / 10 = f at *
  generalize (s.subframeNum + q) % 10 = u at *
  generalize s.slotPerSubframe = p at *
  have hq : q = 10 * f + u - s.subframeNum := by omega
  have hu : (s.subframeNum + q) * p = (10 * f + u) * p := by rw [hsub]
  nlinarith

theorem digits_lt_iff {p lo lo' hi hi' : Nat} (hlo : lo < p) (hlo' : lo' < p) :
    lo + hi * p < lo' + hi' * p ↔ hi < hi' ∨ hi = hi' ∧ lo < lo' := by
  rcases Nat.lt_trichotomy hi hi' with h | rfl | h
  · have := Nat.mul_le_mul_right p (Nat.succ_le_of_lt h)
    rw [Nat.succ_mul] at this
    omega
  · omega
  · have := Nat.mul_le_mul_right p (Nat.succ_le_of_lt h)
    rw [Nat.succ_mul] at this
    omega

theorem normalize_eq (s : SfnSf) :
    s.normalize = s.slotNum + (s.subframeNum + s.frameNum * 10) * s.slotPerSubframe := by
  rw [normalize, Nat.add_mul, Nat.add_assoc]

theorem lt_iff_normalize_lt {a b : SfnSf} (ha : WellFormed a) (hb : WellFormed b)
    (same : a.numerology = b.numerology) : lt a b = true ↔ a.normalize < b.normalize := by
  have hp : b.slotPerSubframe = a.slotPerSubframe := by rw [slotPerSubframe, slotPerSubframe, same]
  have hslot := hb.slot
  rw [hp] at hslot
  rw [normalize_eq, normalize_eq, hp, digits_lt_iff ha.slot hslot,
    digits_lt_iff ha.subframe hb.subframe]
  have hsa := ha.subframe
  have hsb := hb.subframe
  unfold lt
  split_ifs with hframe hsub
  · simp only [true_iff]
    omega
  · simp only [true_iff]
    omega
  · rw [decide_eq_true_iff]
    omega

end SfnSf

end SidelinkORe
