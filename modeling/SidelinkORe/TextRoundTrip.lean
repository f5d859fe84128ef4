import SidelinkORe.TextExchange

namespace SidelinkORe

section SensingTexts

/-- What the decoding loop leaves of the four strings; it stops with the subchannels. -/
def leftFrom (rnti rc slot : Text) : Text → Text × Text × Text × Text
  | [] => (rnti, rc, slot, [])
  | _ :: rest => leftFrom (rnti.drop 3) (rc.drop 2) (slot.drop 2) rest

def leftover (t : PacketTexts) : Text × Text × Text × Text :=
  leftFrom (payload t.encodedSrcRnti) (payload t.encodedRc) (payload t.encodedSrcSlot)
    (payload t.encodedSrcSc)

/-- A packet within the widths of the texts. -/
structure InRange (p : Packet) : Prop where
  srcRnti : 1 ≤ p.srcRnti ∧ p.srcRnti ≤ 999
  rc : p.rc ≤ 99
  slot : p.slot ≤ 99
  subChannel : p.subChannel ≤ 9

theorem InRange.fits {p : Packet} (h : InRange p) : FitsColumns p := by
  obtain ⟨hlow, hhigh⟩ := h.srcRnti
  have hrc := h.rc
  have hslot := h.slot
  have hsub := h.subChannel
  refine ⟨⟨p.srcRnti.toNat, by omega, by omega⟩, by omega, by omega, by omega⟩

theorem leftFrom_encoded {packets : List Packet} (h : ∀ p ∈ packets, FitsColumns p) :
    leftFrom (packets.flatMap fun p => pad3 p.srcRnti) (packets.flatMap fun p => pad2 p.rc)
      (packets.flatMap fun p => pad2 p.slot) (packets.flatMap fun p => decimal p.subChannel) =
      ([], [], [], []) := by
  induction packets with
  | nil => rfl
  | cons p packets ih =>
    have hrest := ih fun q hq => h q (List.mem_cons_of_mem p hq)
    obtain ⟨_, _, _, _, _, _, _, _, ⟨hrnti, hrc, hslot, hsub⟩, _⟩ := (h p List.mem_cons_self).columns
    simp only [List.flatMap_cons, hrnti, hrc, hslot, hsub, List.cons_append, List.nil_append]
    exact hrest

theorem leftover_encodePackets {packets : List Packet} (h : ∀ p ∈ packets, FitsColumns p) :
    leftover (encodePackets packets) = ([], [], [], []) := by
  unfold leftover encodePackets
  simp only [payload_text]
  exact leftFrom_encoded h

theorem ueIndex_inj {a b : Int} (ha : a % 256 ≠ 255) (hb : b % 256 ≠ 255)
    (h : ueIndex a = ueIndex b) : a = b := by
  unfold ueIndex at h
  omega

theorem receivedOf_inj {p q : Packet} (hp : p.srcRnti % 256 ≠ 255) (hq : q.srcRnti % 256 ≠ 255)
    (h : receivedOf p = receivedOf q) : p = q := by
  obtain ⟨rnti, rc, slot, sub⟩ := p
  obtain ⟨rnti', rc', slot', sub'⟩ := q
  unfold receivedOf at h
  simp only [ReceivedPacket.mk.injEq] at h
  obtain ⟨hindex, hrc, hslot, hsub⟩ := h
  have hrnti : rnti = rnti' := ueIndex_inj hp hq hindex
  simp only [Packet.mk.injEq]
  omega

theorem map_receivedOf_inj {packets packets' : List Packet}
    (h : ∀ p ∈ packets, p.srcRnti % 256 ≠ 255) (h' : ∀ p ∈ packets', p.srcRnti % 256 ≠ 255)
    (heq : packets.map receivedOf = packets'.map receivedOf) : packets = packets' := by
  induction packets generalizing packets' with
  | nil => simpa using heq.symm
  | cons p packets ih =>
    cases packets' with
    | nil => simp at heq
    | cons q packets' =>
      rw [List.map_cons, List.map_cons] at heq
      obtain ⟨hhead, htail⟩ := List.cons.inj heq
      have hpq := receivedOf_inj (h p List.mem_cons_self) (h' q List.mem_cons_self) hhead
      have hrest := ih (fun x hx => h x (List.mem_cons_of_mem p hx))
        (fun x hx => h' x (List.mem_cons_of_mem q hx)) htail
      rw [hpq, hrest]

end SensingTexts

section Conversion

/-- The number that the sender text spells. -/
def senderValue (packets : List Packet) : Nat :=
  Nat.ofDigitChars 10 ('1' :: packets.flatMap fun p => pad3 p.srcRnti) 0

theorem ofDigitChars_lt {s : Text} (h : ∀ c ∈ s, c.isDigit = true) :
    Nat.ofDigitChars 10 s 0 < 10 ^ s.length := by
  induction s with
  | nil => exact Nat.one_pos
  | cons c s ih =>
    obtain ⟨hc, hs⟩ := List.forall_mem_cons.mp h
    have hdigit : c.toNat - '0'.toNat ≤ 9 := by
      obtain ⟨_, hhigh⟩ := Char.isDigit_iff_toNat.mp hc
      change c.toNat ≤ 57 at hhigh
      change c.toNat - 48 ≤ 9
      omega
    have hrest := ih hs
    have hhead := Nat.mul_le_mul_left (10 ^ s.length) hdigit
    rw [Nat.ofDigitChars_cons, Nat.ofDigitChars_eq_ofDigitChars_zero, Nat.mul_zero, Nat.zero_add,
      List.length_cons, Nat.pow_succ]
    omega

/-- The junk digit stands in front of all others. -/
theorem ofDigitChars_one {s : Text} (h : ∀ c ∈ s, c.isDigit = true) :
    10 ^ s.length ≤ Nat.ofDigitChars 10 ('1' :: s) 0 ∧
      Nat.ofDigitChars 10 ('1' :: s) 0 < 2 * 10 ^ s.length := by
  have hlt := ofDigitChars_lt h
  rw [Nat.ofDigitChars_cons, Nat.ofDigitChars_eq_ofDigitChars_zero]
  change 10 ^ s.length ≤ 10 ^ s.length * 1 + _ ∧ 10 ^ s.length * 1 + _ < _
  omega

theorem flatMap_columns {width : Nat} {f : Packet → Text} {packets : List Packet}
    (h : ∀ p ∈ packets, ∃ n, Column width n (f p)) :
    (packets.flatMap f).length = packets.length * width ∧
      ∀ c ∈ packets.flatMap f, c.isDigit = true := by
  constructor
  · induction packets with
    | nil => rw [List.flatMap_nil, List.length_nil, List.length_nil, Nat.zero_mul]
    | cons p packets ih =>
      obtain ⟨hp, hpackets⟩ := List.forall_mem_cons.mp h
      obtain ⟨n, hcolumn⟩ := hp
      rw [List.flatMap_cons, List.length_append, hcolumn.length, ih hpackets, List.length_cons,
        Nat.succ_mul, Nat.add_comm]
  · intro c hc
    obtain ⟨p, hp, hc⟩ := List.mem_flatMap.mp hc
    obtain ⟨n, hcolumn⟩ := h p hp
    exact hcolumn.digits c hc

theorem stold_columns {width : Nat} {f : Packet → Text} {packets : List Packet}
    (h : ∀ p ∈ packets, ∃ n, Column width n (f p))
    (hlimit : 2 * 10 ^ (packets.length * width) ≤ longDoubleLimit) :
    stold ('1' :: packets.flatMap f) = .ok () := by
  obtain ⟨hlength, hdigits⟩ := flatMap_columns h
  have hvalue := (ofDigitChars_one hdigits).2
  rw [hlength] at hvalue
  exact require_ok_iff.mpr (lt_of_lt_of_le hvalue hlimit)

variable {packets : List Packet}

theorem senderValue_bounds (h : ∀ p ∈ packets, InRange p) :
    10 ^ (packets.length * 3) ≤ senderValue packets ∧
      senderValue packets < 2 * 10 ^ (packets.length * 3) := by
  have hcolumns : ∀ p ∈ packets, ∃ n, Column 3 n (pad3 p.srcRnti) := by
    intro p hp
    obtain ⟨n, hn, hsrc⟩ := (h p hp).fits.srcRnti
    exact ⟨n, hsrc ▸ pad3_column hn⟩
  obtain ⟨hlength, hdigits⟩ := flatMap_columns hcolumns
  rw [← hlength]
  exact ofDigitChars_one hdigits

/-- Where the sender text can be converted, the narrower columns can be. -/
theorem columns_below (h : ∀ p ∈ packets, InRange p) (hlt : senderValue packets < longDoubleLimit)
    {width : Nat} (hwidth : width ≤ 2) : 2 * 10 ^ (packets.length * width) ≤ longDoubleLimit := by
  have hlow := (senderValue_bounds h).1
  rcases Nat.eq_zero_or_pos packets.length with hzero | hpos
  · rw [hzero, Nat.zero_mul]
    have hone : 2 * 10 ^ 0 ≤ longDoubleLimit := by decide +kernel
    exact hone
  · have hstep : 10 ^ (packets.length * width + 1) ≤ 10 ^ (packets.length * 3) := by
      apply Nat.pow_le_pow_right (by decide)
      have hmul := Nat.mul_le_mul_left packets.length hwidth
      omega
    rw [Nat.pow_succ] at hstep
    omega

/-- The sender text is the longest one and decides whether the texts can be converted. -/
theorem passedTexts_ok_iff (h : ∀ p ∈ packets, InRange p) :
    passedTexts packets = .ok (encodePackets packets) ↔ senderValue packets < longDoubleLimit := by
  have hcut : ∀ s : Text, ('1' :: s ++ ['\n']).dropLast = '1' :: s := fun s => List.dropLast_concat
  unfold passedTexts encodePackets
  simp only [hcut]
  constructor
  · intro hok
    obtain ⟨_, hsender, _⟩ := bind_ok_iff.mp hok
    exact require_ok_iff.mp hsender
  · intro hlt
    have hbelow {width : Nat} (hwidth : width ≤ 2) := columns_below h hlt hwidth
    refine bind_ok_iff.mpr ⟨(), require_ok_iff.mpr hlt, bind_ok_iff.mpr ⟨(), ?_,
      bind_ok_iff.mpr ⟨(), ?_, bind_ok_iff.mpr ⟨(), ?_, rfl⟩⟩⟩⟩
    · refine stold_columns (fun p hp => ⟨p.rc, pad2_column ?_⟩) (hbelow le_rfl)
      exact (h p hp).fits.rc
    · refine stold_columns (fun p hp => ⟨p.slot, pad2_column ?_⟩) (hbelow le_rfl)
      exact (h p hp).fits.slot
    · refine stold_columns (fun p hp => ⟨p.subChannel, decimal_column ?_⟩) (hbelow (by decide))
      exact (h p hp).fits.subChannel

theorem pow_columns_le {a b : Nat} (h : a ≤ b) : 10 ^ (a * 3) ≤ 10 ^ (b * 3) :=
  Nat.pow_le_pow_right (by decide) (Nat.mul_le_mul_right 3 h)

theorem senderValue_lt_limit (h : ∀ p ∈ packets, InRange p) (hshort : packets.length ≤ 1643) :
    senderValue packets < longDoubleLimit := by
  have hlimit : 2 * 10 ^ (1643 * 3) ≤ longDoubleLimit := by decide +kernel
  have hpow := Nat.mul_le_mul_left 2 (pow_columns_le hshort)
  exact lt_of_lt_of_le (senderValue_bounds h).2 (hpow.trans hlimit)

theorem limit_le_senderValue (h : ∀ p ∈ packets, InRange p) (hlong : 1645 ≤ packets.length) :
    longDoubleLimit ≤ senderValue packets := by
  have hlimit : longDoubleLimit ≤ 10 ^ (1645 * 3) := by decide +kernel
  exact hlimit.trans ((pow_columns_le hlong).trans (senderValue_bounds h).1)

theorem passedTexts_eq {t : PacketTexts} (h : passedTexts packets = .ok t) :
    t = encodePackets packets := by
  obtain ⟨_, _, h⟩ := bind_ok_iff.mp h
  obtain ⟨_, _, h⟩ := bind_ok_iff.mp h
  obtain ⟨_, _, h⟩ := bind_ok_iff.mp h
  obtain ⟨_, _, h⟩ := bind_ok_iff.mp h
  exact (pure_ok_iff.mp h).symm

end Conversion

/-- Both directions of the text exchange. The packets reach Python as long as `std::stold` can
convert the sender text. -/
theorem textExchange_lossless :
    (∀ packets : List Packet, (∀ p ∈ packets, InRange p) →
      (passedTexts packets = .ok (encodePackets packets) ↔ senderValue packets < longDoubleLimit) ∧
      (packets.length ≤ 1643 → senderValue packets < longDoubleLimit) ∧
      (1645 ≤ packets.length → longDoubleLimit ≤ senderValue packets)) ∧
    (∀ (packets : List Packet) (t : PacketTexts), (∀ p ∈ packets, InRange p) →
      passedTexts packets = .ok t →
      decodePackets t = .ok (packets.map receivedOf) ∧ leftover t = ([], [], [], [])) ∧
    (∀ (packets packets' : List Packet) (t t' : PacketTexts),
      (∀ p ∈ packets, InRange p ∧ p.srcRnti % 256 ≠ 255) →
      (∀ p ∈ packets', InRange p ∧ p.srcRnti % 256 ≠ 255) →
      passedTexts packets = .ok t → passedTexts packets' = .ok t' →
      decodePackets t = decodePackets t' → packets = packets') ∧
    (∀ (t1 time : Nat) (chosen : List ReceivedPacket) (read : List (Nat × Nat)), read.length ≤ 9 →
      List.Forall₂ (fun packet p => chosenSlot t1 time packet = (p.1 : Nat) ∧ p.1 ≤ 99 ∧
        packet.subChannel = (p.2 : Nat) ∧ p.2 ≤ 9) chosen read →
      readInstruction (overwriteText t1 time read.length chosen) =
        .ok (.overwrite read.length read)) := by
  refine ⟨fun packets h => ⟨passedTexts_ok_iff h, senderValue_lt_limit h, limit_le_senderValue h⟩,
    fun packets t h hpassed => ?_, fun packets packets' t t' h h' hpassed hpassed' heq => ?_,
    fun t1 time chosen read hlen h => ?_⟩
  · obtain rfl := passedTexts_eq hpassed
    have hfits : ∀ p ∈ packets, FitsColumns p := fun p hp => (h p hp).fits
    exact ⟨decodePackets_encodePackets hfits, leftover_encodePackets hfits⟩
  · obtain rfl := passedTexts_eq hpassed
    obtain rfl := passedTexts_eq hpassed'
    have hleft := decodePackets_encodePackets fun p hp => (h p hp).1.fits
    have hright := decodePackets_encodePackets fun p hp => (h' p hp).1.fits
    have hmap := Except.ok.inj (hleft.symm.trans (heq.trans hright))
    exact map_receivedOf_inj (fun p hp => (h p hp).2) (fun p hp => (h' p hp).2) hmap
  · have hlt : read.length < 10 := by omega
    apply readInstruction_overwriteText hlt
    apply h.imp
    intro packet p hp
    obtain ⟨hslot, hslotLe, hsub, hsubLe⟩ := hp
    exact ⟨hslot, by omega, hsub, by omega⟩

theorem textExchange_lossless_digits :
    passedTexts [⟨9, 9, 10, 0⟩, ⟨100, 99, 9, 9⟩] =
        .ok (encodePackets [⟨9, 9, 10, 0⟩, ⟨100, 99, 9, 9⟩]) ∧
      decodePackets (encodePackets [⟨9, 9, 10, 0⟩, ⟨100, 99, 9, 9⟩]) =
        .ok [⟨8, 9, 10, 0⟩, ⟨99, 99, 9, 9⟩] ∧
      readInstruction (overwriteText 2 7 2 [⟨8, 9, 18, 0⟩, ⟨99, 99, 19, 9⟩]) =
        .ok (.overwrite 2 [(9, 0), (10, 9)]) := by
  have hrange : ∀ p ∈ [(⟨9, 9, 10, 0⟩ : Packet), ⟨100, 99, 9, 9⟩], InRange p := by
    intro p hp
    simp only [List.mem_cons, List.not_mem_nil, or_false] at hp
    rcases hp with rfl | rfl
    · exact ⟨by decide, by decide, by decide, by decide⟩
    · exact ⟨by decide, by decide, by decide, by decide⟩
  obtain ⟨hpassed, hshort, _⟩ := textExchange_lossless.1 _ hrange
  have hok := hpassed.mpr (hshort (by decide))
  refine ⟨hok, (textExchange_lossless.2.1 _ _ hrange hok).1, ?_⟩
  have hread := textExchange_lossless.2.2.2 2 7 [⟨8, 9, 18, 0⟩, ⟨99, 99, 19, 9⟩] [(9, 0), (10, 9)]
    (by decide)
  apply hread
  apply List.Forall₂.cons (by decide)
  exact List.Forall₂.cons (by decide) List.Forall₂.nil

/-- Two RNTIs share an index, so the decoded packets do not tell them apart. -/
theorem decodePackets_fails_sharedIndex : ∃ packets packets' : List Packet,
    (∀ p ∈ packets ++ packets', InRange p) ∧ packets ≠ packets' ∧
      decodePackets (encodePackets packets) = decodePackets (encodePackets packets') := by
  refine ⟨[⟨255, 9, 10, 0⟩], [⟨256, 9, 10, 0⟩], fun p hp => ?_, by decide, by decide +kernel⟩
  simp only [List.cons_append, List.nil_append, List.mem_cons, List.not_mem_nil, or_false] at hp
  rcases hp with rfl | rfl
  · exact ⟨by decide, by decide, by decide, by decide⟩
  · exact ⟨by decide, by decide, by decide, by decide⟩

end SidelinkORe
