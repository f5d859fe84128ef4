import Mathlib.Data.List.Basic
import Mathlib.Tactic.Linarith

namespace SidelinkORe

/-- A reader takes bytes from the front of a buffer and leaves the rest. -/
abbrev Reader (α : Type) := StateT (List UInt8) Option α

def readU8 : Reader UInt8
  | [] => none
  | b :: rest => some (b, rest)

/-- Two bytes in network order. -/
def readNtohU16 : Reader UInt16 := do
  let hi ← readU8
  let lo ← readU8
  pure ((hi.toUInt16 <<< 8) ||| lo.toUInt16)

def writeHtonU16 (x : UInt16) : List UInt8 := [(x >>> 8).toUInt8, x.toUInt8]

/-- The reader takes exactly the written bytes, whatever follows them, and returns the value. -/
def Reads {α : Type} (r : Reader α) (written : List UInt8) (a : α) : Prop :=
  ∀ rest, r (written ++ rest) = some (a, rest)

theorem reads_pure {α : Type} (a : α) : Reads (pure a) [] a := fun _ => rfl

/-- Formats in sequence: the second reader starts where the first one stopped. -/
theorem Reads.bind {α β : Type} {r : Reader α} {f : α → Reader β} {w w' : List UInt8} {a : α} {b : β}
    (h : Reads r w a) (h' : Reads (f a) w' b) : Reads (r >>= f) (w ++ w') b := by
  intro rest
  have hr := h (w' ++ rest)
  rw [← List.append_assoc] at hr
  change (r ((w ++ w') ++ rest)).bind (fun p => f p.1 p.2) = some (b, rest)
  rw [hr]
  exact h' rest

theorem reads_u8 (b : UInt8) : Reads readU8 [b] b := fun _ => rfl

theorem u16_of_bytes (x : UInt16) :
    (((x >>> 8).toUInt8.toUInt16 <<< 8) ||| x.toUInt8.toUInt16) = x := by
  apply UInt16.toNat_inj.mp
  have hx : x.toNat < 65536 := x.toNat_lt
  have hq : x.toNat / 256 < 256 := by omega
  have hor := Nat.shiftLeft_add_eq_or_of_lt (show x.toNat % 256 < 2 ^ 8 by omega) (x.toNat / 256)
  simp only [UInt16.toNat_or, UInt16.toNat_shiftLeft, UInt8.toNat_toUInt16, UInt16.toNat_toUInt8,
    UInt16.toNat_shiftRight, UInt16.reduceToNat, Nat.shiftRight_eq_div_pow, Nat.reduceMod,
    Nat.reducePow, Nat.mod_eq_of_lt hq]
  rw [Nat.shiftLeft_eq] at hor ⊢
  rw [Nat.mod_eq_of_lt (show x.toNat / 256 * 2 ^ 8 < 65536 by omega), ← hor]
  omega

theorem reads_ntohU16 (x : UInt16) : Reads readNtohU16 (writeHtonU16 x) x := by
  intro rest
  change some (((x >>> 8).toUInt8.toUInt16 <<< 8) ||| x.toUInt8.toUInt16, rest) = some (x, rest)
  rw [u16_of_bytes]

/-- A field of `w` bits pushes the fields above it up. -/
theorem or_shiftLeft (v x w : Nat) : (v % 2 ^ w ||| x <<< w) = v % 2 ^ w + x * 2 ^ w := by
  have hv : v % 2 ^ w < 2 ^ w := Nat.mod_lt v (Nat.two_pow_pos w)
  rw [Nat.or_comm, ← Nat.shiftLeft_add_eq_or_of_lt hv, Nat.shiftLeft_eq, Nat.add_comm]

/-- `n` bytes, the highest first. -/
def writeHton : Nat → Nat → List UInt8
  | 0, _ => []
  | n + 1, x => UInt8.ofNat (x >>> (8 * n)) :: writeHton n x

/-- `n` bytes in network order, below what was read before them. -/
def readNtoh : Nat → Nat → Reader Nat
  | 0, x => pure x
  | n + 1, x => do
    let b ← readU8
    readNtoh n (b.toNat ||| x <<< 8)

/-- `n` bytes, the lowest first. -/
def writeLe : Nat → Nat → List UInt8
  | 0, _ => []
  | n + 1, x => UInt8.ofNat x :: writeLe n (x >>> 8)

def readLe : Nat → Reader Nat
  | 0 => pure 0
  | n + 1 => do
    let b ← readU8
    let x ← readLe n
    pure (b.toNat ||| x <<< 8)

theorem writeHton_length (n x : Nat) : (writeHton n x).length = n := by
  induction n with
  | zero => rfl
  | succ n ih => simp [writeHton, ih]

theorem writeLe_length (n x : Nat) : (writeLe n x).length = n := by
  induction n generalizing x with
  | zero => rfl
  | succ n ih => simp [writeLe, ih]

theorem byte_or_shiftLeft (b : UInt8) (x : Nat) : (b.toNat ||| x <<< 8) = b.toNat + x * 256 := by
  have hb : b.toNat % 2 ^ 8 = b.toNat := Nat.mod_eq_of_lt b.toNat_lt
  have hor := or_shiftLeft b.toNat x 8
  rw [hb] at hor
  exact hor

theorem reads_readNtoh (n x y : Nat) :
    Reads (readNtoh n y) (writeHton n x) (y * 256 ^ n + x % 256 ^ n) := by
  induction n generalizing y with
  | zero =>
    rw [Nat.pow_zero, Nat.mod_one, Nat.mul_one]
    exact reads_pure y
  | succ n ih =>
    have hread := ih (y * 256 + x / 256 ^ n % 256)
    -- the byte in front is the digit above the remaining ones
    have hdigit : x % 256 ^ (n + 1) = x / 256 ^ n % 256 * 256 ^ n + x % 256 ^ n := by
      rw [Nat.pow_succ, Nat.mod_mul, Nat.mul_comm, Nat.add_comm]
    have hvalue : y * 256 ^ (n + 1) + x % 256 ^ (n + 1) =
        (y * 256 + x / 256 ^ n % 256) * 256 ^ n + x % 256 ^ n := by
      rw [hdigit, Nat.pow_succ, Nat.add_mul, Nat.mul_assoc, Nat.mul_comm 256, Nat.add_assoc]
    have hbyte : (UInt8.ofNat (x >>> (8 * n))).toNat = x / 256 ^ n % 256 := by
      rw [UInt8.toNat_ofNat', Nat.shiftRight_eq_div_pow, Nat.pow_mul]
    rw [hvalue]
    refine Reads.bind (w := [UInt8.ofNat (x >>> (8 * n))]) (reads_u8 _) ?_
    rw [byte_or_shiftLeft, hbyte, Nat.add_comm]
    exact hread

theorem reads_readLe (n x : Nat) : Reads (readLe n) (writeLe n x) (x % 256 ^ n) := by
  induction n generalizing x with
  | zero =>
    rw [Nat.pow_zero, Nat.mod_one]
    exact reads_pure 0
  | succ n ih =>
    have hvalue : x % 256 ^ (n + 1) = x % 256 + x / 256 % 256 ^ n * 256 := by
      rw [Nat.pow_succ', Nat.mod_mul, Nat.mul_comm 256]
    refine Reads.bind (w := [UInt8.ofNat x]) (reads_u8 _) ?_
    rw [← List.append_nil (writeLe n (x >>> 8)), hvalue]
    refine Reads.bind (ih (x >>> 8)) ?_
    rw [byte_or_shiftLeft, UInt8.toNat_ofNat', Nat.shiftRight_eq_div_pow]
    exact reads_pure _

end SidelinkORe
