import SidelinkORe.Exclusion
import Mathlib.Data.List.TakeWhile

namespace SidelinkORe

abbrev Text := List Char

section Numbers

/-- `str` and `std::to_string`. -/
def decimal : Int → Text
  | .ofNat n => Nat.toDigits 10 n
  | .negSucc n => '-' :: Nat.toDigits 10 (n + 1)

/-- An optional sign and the text after it. -/
def splitSign : Text → Bool × Text
  | '-' :: rest => (true, rest)
  | '+' :: rest => (false, rest)
  | s => (false, s)

def signed (s : Bool × Text) : Int :=
  if s.1 = true then -(Nat.ofDigitChars 10 s.2 0 : Int) else Nat.ofDigitChars 10 s.2 0

/-- `std::stoi` reads as many digits as there are. -/
def stoi (s : Text) : Except Fault Int :=
  let s := splitSign (s.dropWhile Char.isWhitespace)
  let digits := s.2.takeWhile Char.isDigit
  if digits = [] then .error Fault.invalidInstruction else .ok (signed (s.1, digits))

/-- `int` wants nothing but digits. -/
def pyInt (s : Text) : Except Fault Int :=
  let s := splitSign s
  if s.2 ≠ [] ∧ s.2.all Char.isDigit = true then .ok (signed s) else .error Fault.pythonValueError

def castU8 (n : Int) : Nat := (n % 256).toNat

def pad2 (n : Int) : Text := if n < 10 then '0' :: decimal n else decimal n

def pad3 (n : Int) : Text :=
  if n < 10 then '0' :: '0' :: decimal n else if n < 100 then '0' :: decimal n else decimal n

/-- A text of `width` digits that spell `n`. -/
structure Column (width n : Nat) (s : Text) : Prop where
  length : s.length = width
  digits : ∀ c ∈ s, c.isDigit = true
  value : Nat.ofDigitChars 10 s 0 = n

theorem splitSign_digit {c : Char} {s : Text} (h : c.isDigit = true) :
    splitSign (c :: s) = (false, c :: s) := by
  have hminus : c ≠ '-' := by
    intro hc
    rw [hc] at h
    exact absurd h (by decide)
  have hplus : c ≠ '+' := by
    intro hc
    rw [hc] at h
    exact absurd h (by decide)
  unfold splitSign
  split
  next heq => exact absurd (List.cons.inj heq).1 hminus
  next heq => exact absurd (List.cons.inj heq).1 hplus
  next => rfl

theorem isWhitespace_digit {c : Char} (h : c.isDigit = true) : c.isWhitespace = false := by
  by_contra hspace
  rw [Bool.not_eq_false, Char.isWhitespace] at hspace
  simp only [Bool.or_eq_true, decide_eq_true_iff] at hspace
  rcases hspace with ((rfl | rfl) | rfl) | rfl <;> exact absurd h (by decide)

/-- Both sides read a column of digits as the number it spells. -/
theorem Column.reads {width n : Nat} {s : Text} (h : Column width n s) (hpos : 0 < width) :
    stoi s = .ok (n : Int) ∧ pyInt s = .ok (n : Int) := by
  cases s with
  | nil =>
    have := h.length
    simp at this
    omega
  | cons c rest =>
    have hc := h.digits c List.mem_cons_self
    have hsign : splitSign (c :: rest) = (false, c :: rest) := splitSign_digit hc
    have hdrop : (c :: rest).dropWhile Char.isWhitespace = c :: rest :=
      List.dropWhile_cons_of_neg (by simp [isWhitespace_digit hc])
    have htake : (c :: rest).takeWhile Char.isDigit = c :: rest :=
      List.takeWhile_eq_self_iff.mpr h.digits
    have hvalue : signed (false, c :: rest) = n := by simp [signed, h.value]
    unfold stoi pyInt
    simp only [hdrop, hsign, htake, hvalue]
    exact ⟨by simp, if_pos ⟨List.cons_ne_nil c rest, List.all_eq_true.mpr h.digits⟩⟩

theorem toDigits_column {width n : Nat} (hlow : width = 0 ∨ 10 ^ width ≤ n) (hhigh : n < 10 ^ (width + 1)) :
    Column (width + 1) n (decimal n) where
  length := by
    have hle := (Nat.length_toDigits_le_iff (b := 10) (by decide) (Nat.succ_pos width)).mpr hhigh
    have hpos : 0 < (Nat.toDigits 10 n).length := Nat.length_toDigits_pos
    change (Nat.toDigits 10 n).length = width + 1
    rcases Nat.eq_zero_or_pos width with h0 | hwidth
    · omega
    · have hmore : ¬(Nat.toDigits 10 n).length ≤ width := by
        rw [Nat.length_toDigits_le_iff (by decide) hwidth]
        omega
      omega
  digits := fun c hc => Nat.isDigit_of_mem_toDigits (by decide) (by decide) hc
  value := Nat.ofDigitChars_toDigits (by decide) (by decide)

theorem Column.pad {width n : Nat} {s : Text} (h : Column width n s) :
    Column (width + 1) n ('0' :: s) where
  length := by rw [List.length_cons, h.length]
  digits := by
    intro c hc
    rcases List.mem_cons.mp hc with rfl | hc
    · decide
    · exact h.digits c hc
  value := h.value

theorem decimal_column {n : Nat} (h : n < 10) : Column 1 n (decimal n) :=
  toDigits_column (Or.inl rfl) h

theorem pad2_column {n : Nat} (h : n < 100) : Column 2 n (pad2 n) := by
  unfold pad2
  split
  next hn => exact (decimal_column (by omega)).pad
  next hn => exact (toDigits_column (Or.inr (by omega)) (by omega) : Column (1 + 1) n (decimal n))

theorem pad3_column {n : Nat} (h : n < 1000) : Column 3 n (pad3 n) := by
  unfold pad3
  split
  next hn => exact (decimal_column (by omega)).pad.pad
  next hn =>
    split
    next hn' =>
      have htwo : Column (1 + 1) n (decimal n) := toDigits_column (Or.inr (by omega)) (by omega)
      exact htwo.pad
    next hn' => exact (toDigits_column (Or.inr (by omega)) (by omega) : Column (2 + 1) n (decimal n))

theorem decimal_digit {n : Nat} (h : n < 10) : ∃ a, decimal n = [a] ∧
    stoi [a] = .ok (n : Int) ∧ pyInt [a] = .ok (n : Int) := by
  obtain ⟨a, ha⟩ := List.length_eq_one_iff.mp (decimal_column h).length
  exact ⟨a, ha, ha ▸ (decimal_column h).reads (by decide)⟩

theorem pad2_digits {n : Nat} (h : n < 100) : ∃ a b, pad2 n = [a, b] ∧
    stoi [a, b] = .ok (n : Int) ∧ pyInt [a, b] = .ok (n : Int) := by
  obtain ⟨a, b, hab⟩ := List.length_eq_two.mp (pad2_column h).length
  exact ⟨a, b, hab, hab ▸ (pad2_column h).reads (by decide)⟩

theorem pad3_digits {n : Nat} (h : n < 1000) : ∃ a b c, pad3 n = [a, b, c] ∧
    pyInt [a, b, c] = .ok (n : Int) := by
  obtain ⟨a, b, c, habc⟩ := List.length_eq_three.mp (pad3_column h).length
  exact ⟨a, b, c, habc, habc ▸ ((pad3_column h).reads (by decide)).2⟩

end Numbers

section SensedPackets

/-- The index of a UE in the Python lists; the helper hands out no IMSI that is 255 modulo 256. -/
def ueIndex (imsi : Int) : Int := imsi - 1 - imsi / 256

/-- The four texts that go with `passSensingData`; the junk digit in front keeps leading zeros and
the line end marks a complete file. -/
structure PacketTexts where
  encodedSrcRnti : Text
  encodedRc : Text
  encodedSrcSlot : Text
  encodedSrcSc : Text

def encodePackets (packets : List Packet) : PacketTexts where
  encodedSrcRnti := '1' :: packets.flatMap (fun p => pad3 p.srcRnti) ++ ['\n']
  encodedRc := '1' :: packets.flatMap (fun p => pad2 p.rc) ++ ['\n']
  encodedSrcSlot := '1' :: packets.flatMap (fun p => pad2 p.slot) ++ ['\n']
  encodedSrcSc := '1' :: packets.flatMap (fun p => decimal p.subChannel) ++ ['\n']

/-- The first value beyond the range of `long double`: it is half way from the largest number, with
64 bits of mantissa and 15 of exponent, to the next power of two. -/
def longDoubleLimit : Nat := (2 ^ 65 - 1) * 2 ^ 16319

/-- `std::stold` of digits. Only whether it throws matters: Python takes the packets from files. -/
def stold (digits : Text) : Except Fault Unit :=
  require (Nat.ofDigitChars 10 digits 0 < longDoubleLimit) Fault.textOutOfRange

/-- The texts that Python finds when `passSensingData` is reached. They are written first, and
converted without their line ends. -/
def passedTexts (packets : List Packet) : Except Fault PacketTexts := do
  let texts := encodePackets packets
  stold texts.encodedSrcRnti.dropLast
  stold texts.encodedRc.dropLast
  stold texts.encodedSrcSlot.dropLast
  stold texts.encodedSrcSc.dropLast
  pure texts

/-- One entry of `lastRecievedPackets`. -/
structure ReceivedPacket where
  srcIndex : Int
  rc : Int
  slot : Int
  subChannel : Int
  deriving DecidableEq

/-- The while loop runs as long as the subchannel text lasts. -/
def decodeFrom (rnti rc slot : Text) : Text → Except Fault (List ReceivedPacket)
  | [] => .ok []
  | sc :: rest => do
    let srcRnti ← pyInt (rnti.take 3)
    let rcValue ← pyInt (rc.take 2)
    let slotValue ← pyInt (slot.take 2)
    let subChannel ← pyInt [sc]
    let more ← decodeFrom (rnti.drop 3) (rc.drop 2) (slot.drop 2) rest
    pure (⟨ueIndex srcRnti, rcValue, slotValue, subChannel⟩ :: more)

/-- A file without its first and last character. -/
def payload (s : Text) : Text := s.tail.dropLast

def decodePackets (t : PacketTexts) : Except Fault (List ReceivedPacket) :=
  decodeFrom (payload t.encodedSrcRnti) (payload t.encodedRc) (payload t.encodedSrcSlot)
    (payload t.encodedSrcSc)

/-- A packet whose fields fit into the columns of the texts. -/
structure FitsColumns (p : Packet) : Prop where
  srcRnti : ∃ n < 1000, p.srcRnti = (n : Nat)
  rc : p.rc < 100
  slot : p.slot < 100
  subChannel : p.subChannel < 10

def receivedOf (p : Packet) : ReceivedPacket := ⟨ueIndex p.srcRnti, p.rc, p.slot, p.subChannel⟩

theorem payload_text (a b : Char) (s : Text) : payload (a :: s ++ [b]) = s := by
  rw [payload, List.cons_append, List.tail_cons, List.dropLast_concat]

/-- A packet is written in three, two, two and one characters that Python reads back. -/
theorem FitsColumns.columns {p : Packet} (h : FitsColumns p) : ∃ r₁ r₂ r₃ c₁ c₂ s₁ s₂ b,
    (pad3 p.srcRnti = [r₁, r₂, r₃] ∧ pad2 p.rc = [c₁, c₂] ∧ pad2 p.slot = [s₁, s₂] ∧
      decimal p.subChannel = [b]) ∧
    pyInt [r₁, r₂, r₃] = .ok p.srcRnti ∧ pyInt [c₁, c₂] = .ok (p.rc : Int) ∧
      pyInt [s₁, s₂] = .ok (p.slot : Int) ∧ pyInt [b] = .ok (p.subChannel : Int) := by
  obtain ⟨n, hn, hsrc⟩ := h.srcRnti
  obtain ⟨r₁, r₂, r₃, hrnti, hrntiInt⟩ := pad3_digits hn
  obtain ⟨c₁, c₂, hrc, -, hrcInt⟩ := pad2_digits h.rc
  obtain ⟨s₁, s₂, hslot, -, hslotInt⟩ := pad2_digits h.slot
  obtain ⟨b, hsub, -, hsubInt⟩ := decimal_digit h.subChannel
  rw [hsrc]
  exact ⟨r₁, r₂, r₃, c₁, c₂, s₁, s₂, b, ⟨hrnti, hrc, hslot, hsub⟩, hrntiInt, hrcInt, hslotInt, hsubInt⟩

theorem decodeFrom_encoded {packets : List Packet} (h : ∀ p ∈ packets, FitsColumns p) :
    decodeFrom (packets.flatMap fun p => pad3 p.srcRnti) (packets.flatMap fun p => pad2 p.rc)
      (packets.flatMap fun p => pad2 p.slot) (packets.flatMap fun p => decimal p.subChannel) =
      .ok (packets.map receivedOf) := by
  induction packets with
  | nil => rfl
  | cons p packets ih =>
    have hrest := ih fun q hq => h q (List.mem_cons_of_mem p hq)
    obtain ⟨r₁, r₂, r₃, c₁, c₂, s₁, s₂, b, ⟨hrnti, hrc, hslot, hsub⟩, hrntiInt, hrcInt, hslotInt,
      hsubInt⟩ := (h p List.mem_cons_self).columns
    simp only [List.flatMap_cons, List.map_cons, hrnti, hrc, hslot, hsub, List.cons_append,
      List.nil_append]
    unfold decodeFrom
    simp only [List.take_succ_cons, List.take_zero, List.drop_succ_cons, List.drop_zero]
    rw [hrntiInt, hrcInt, hslotInt, hsubInt, hrest]
    rfl

/-- What Python reads is what the MAC reported, as long as every field fits its column. -/
theorem decodePackets_encodePackets {packets : List Packet} (h : ∀ p ∈ packets, FitsColumns p) :
    decodePackets (encodePackets packets) = .ok (packets.map receivedOf) := by
  unfold decodePackets encodePackets
  simp only [payload_text]
  exact decodeFrom_encoded h

end SensedPackets

section Instructions

/-- The distance of a chosen packet's slot from the first slot of the selection window, counted
from the last digits of the time. -/
def chosenSlot (t1 time : Nat) (packet : ReceivedPacket) : Int :=
  if (time % 100 : Nat) < packet.slot then packet.slot - (time % 100 : Nat) - t1
  else 100 + packet.slot - (time % 100 : Nat) - t1

/-- The packets to overwrite, alternately from the two sides of the sender. -/
def chosenPackets (totalTx : Nat) (sortedLChoices sortedRChoices : List ReceivedPacket) :
    Except Fault (List ReceivedPacket) :=
  (List.range (totalTx - totalTx % 2)).mapM fun i =>
    orFault Fault.pythonIndexError
      (if i % 2 = 0 then sortedLChoices[i / 2]? else sortedRChoices[i / 2]?)

def overwriteText (t1 time totalTx : Nat) (chosen : List ReceivedPacket) : Text :=
  decimal 1 ++ decimal totalTx ++
    chosen.flatMap fun packet => pad2 (chosenSlot t1 time packet) ++ decimal packet.subChannel

def drawText (nSe : Nat) : Text := decimal 2 ++ decimal nSe

/-- The instructions as the scheduler reads them. -/
inductive SelectionInstruction where
  | overwrite (totalTx : Nat) (chosen : List (Nat × Nat))
  | draw (nSe : Nat)
  deriving DecidableEq

/-- Two characters for each slot and one for its subchannel; `stoi` of a missing one throws. -/
def readChosen : Text → Except Fault (List (Nat × Nat))
  | [] => .ok []
  | a :: b :: c :: rest => do
    let slot ← stoi [a, b]
    let subChannel ← stoi [c]
    let more ← readChosen rest
    pure ((castU8 slot, castU8 subChannel) :: more)
  | _ => .error Fault.invalidInstruction

def readInstruction (s : Text) : Except Fault SelectionInstruction := do
  let selectionMode ← stoi (s.take 1)
  if selectionMode = 1 then do
    let totalTx ← stoi ((s.drop 1).take 1)
    let chosen ← readChosen (s.drop 2)
    pure (.overwrite (castU8 totalTx) chosen)
  else do
    let nSe ← stoi ((s.drop 1).take 1)
    pure (.draw (castU8 nSe))

theorem castU8_of_lt {n : Nat} (h : n < 256) : castU8 n = n := by
  unfold castU8
  omega

theorem chosenPackets_length {totalTx : Nat} {l r chosen : List ReceivedPacket}
    (h : chosenPackets totalTx l r = .ok chosen) : chosen.length = totalTx - totalTx % 2 := by
  have hmapM : ∀ (is : List Nat) (f : Nat → Except Fault ReceivedPacket) (out : List ReceivedPacket),
      is.mapM f = .ok out → out.length = is.length := by
    intro is f
    induction is with
    | nil =>
      intro out hout
      obtain rfl := pure_ok_iff.mp hout
      rfl
    | cons i is ih =>
      intro out hout
      rw [List.mapM_cons] at hout
      obtain ⟨b, _, hout⟩ := bind_ok_iff.mp hout
      obtain ⟨bs, hbs, hout⟩ := bind_ok_iff.mp hout
      obtain rfl := pure_ok_iff.mp hout
      rw [List.length_cons, ih bs hbs, List.length_cons]
  rw [hmapM _ _ _ h, List.length_range]

/-- A packet of a slot `d` ahead is chosen at the distance of that slot from the window's start, at
any time with the last digits of the current slot. -/
theorem chosenSlot_ahead {t1 time n d : Nat} {packet : ReceivedPacket} (hclock : time % 100 = n % 100)
    (hlow : t1 ≤ d) (hpos : 0 < d) (hhigh : d < 100)
    (hslot : packet.slot = ((n + d) % 100 : Nat)) :
    chosenSlot t1 time packet = (d - t1 : Nat) := by
  unfold chosenSlot
  rw [hslot]
  split <;> omega

theorem readChosen_written {t1 time : Nat} {chosen : List ReceivedPacket} {read : List (Nat × Nat)}
    (h : List.Forall₂ (fun packet p => chosenSlot t1 time packet = (p.1 : Nat) ∧ p.1 < 100 ∧
      packet.subChannel = (p.2 : Nat) ∧ p.2 < 10) chosen read) :
    readChosen (chosen.flatMap fun packet =>
      pad2 (chosenSlot t1 time packet) ++ decimal packet.subChannel) = .ok read := by
  induction h with
  | nil => rfl
  | @cons packet p chosen read hp _ ih =>
    obtain ⟨hslot, hslotLt, hsub, hsubLt⟩ := hp
    obtain ⟨a, b, hpad, hstoi, -⟩ := pad2_digits hslotLt
    obtain ⟨c, hdec, hstoiSub, -⟩ := decimal_digit hsubLt
    rw [List.flatMap_cons, hslot, hsub, hpad, hdec]
    simp only [List.cons_append, List.nil_append]
    unfold readChosen
    rw [hstoi, hstoiSub, ih]
    change Except.ok ((castU8 (p.1 : Nat), castU8 (p.2 : Nat)) :: read) = _
    rw [castU8_of_lt (by omega), castU8_of_lt (by omega)]

theorem readInstruction_overwriteText {t1 time totalTx : Nat} {chosen : List ReceivedPacket}
    {read : List (Nat × Nat)} (htotal : totalTx < 10)
    (h : List.Forall₂ (fun packet p => chosenSlot t1 time packet = (p.1 : Nat) ∧ p.1 < 100 ∧
      packet.subChannel = (p.2 : Nat) ∧ p.2 < 10) chosen read) :
    readInstruction (overwriteText t1 time totalTx chosen) = .ok (.overwrite totalTx read) := by
  obtain ⟨a, hdec, hstoi, -⟩ := decimal_digit htotal
  have hmode : decimal 1 = ['1'] := rfl
  have hone : stoi ['1'] = .ok 1 := rfl
  unfold readInstruction overwriteText
  rw [hmode, hdec]
  simp only [List.cons_append, List.nil_append, List.take_succ_cons, List.take_zero,
    List.drop_succ_cons, List.drop_zero]
  rw [hone, hstoi, readChosen_written h]
  change Except.ok (SelectionInstruction.overwrite (castU8 (totalTx : Nat)) read) = _
  rw [castU8_of_lt (by omega)]

/-- The MAC reads the instruction to draw from all resources as it is meant. -/
theorem readInstruction_drawText {nSe : Nat} (h : nSe < 10) :
    readInstruction (drawText nSe) = .ok (.draw nSe) := by
  obtain ⟨a, hdec, hstoi, -⟩ := decimal_digit h
  have hmode : decimal 2 = ['2'] := rfl
  have htwo : stoi ['2'] = .ok 2 := rfl
  unfold readInstruction drawText
  rw [hmode, hdec]
  simp only [List.cons_append, List.nil_append, List.take_succ_cons, List.take_zero,
    List.drop_succ_cons, List.drop_zero]
  rw [htwo, hstoi]
  change Except.ok (SelectionInstruction.draw (castU8 (nSe : Nat))) = _
  rw [castU8_of_lt (by omega)]

end Instructions

end SidelinkORe
