import SidelinkORe.ResourcePool
import SidelinkORe.WhileLoop
import SidelinkORe.PeriodicCount

namespace SidelinkORe

inductive LteNrTddSlotType where
  | dl
  | ul
  | s
  | f
  deriving DecidableEq

inductive TddFault where
  | invalidPatternType
  | noUplinkSlot
  | bitmapNotMultiple
  | bitmapTooShort
  | iteratorPastEnd
  | outOfFuel
  deriving DecidableEq

section Pattern

/-- The tokens that `std::getline` with delimiter `|` extracts; `token` is the one being read. At the
end of the text there is no token without characters. -/
def getlineTokens (token : List Char) : List Char → List (List Char)
  | [] => if token = [] then [] else [token]
  | c :: cs => if c = '|' then token :: getlineTokens [] cs else getlineTokens (token ++ [c]) cs

def lookupTable : List Char → Option LteNrTddSlotType
  | ['D', 'L'] => some .dl
  | ['U', 'L'] => some .ul
  | ['S'] => some .s
  | ['F'] => some .f
  | _ => none

def setTddPattern (tddPattern : List Char) : Except TddFault (List LteNrTddSlotType) :=
  (getlineTokens [] tddPattern).mapM fun v => orFault .invalidPatternType (lookupTable v)

/-- The tokens with a delimiter between them. -/
def joinTokens : List (List Char) → List Char
  | [] => []
  | [token] => token
  | token :: next :: tokens => token ++ '|' :: joinTokens (next :: tokens)

def LteNrTddSlotType.name : LteNrTddSlotType → List Char
  | .dl => ['D', 'L']
  | .ul => ['U', 'L']
  | .s => ['S']
  | .f => ['F']

theorem lookupTable_iff {v : List Char} {slot : LteNrTddSlotType} :
    lookupTable v = some slot ↔ v = slot.name := by
  constructor
  · intro h
    unfold lookupTable at h
    split at h
    case h_5 => cases h
    all_goals
      obtain rfl := Option.some.inj h
      rfl
  · rintro rfl
    cases slot <;> rfl

theorem joinTokens_cons (token : List Char) {tokens : List (List Char)} (hne : tokens ≠ []) :
    joinTokens (token :: tokens) = token ++ '|' :: joinTokens tokens := by
  cases tokens with
  | nil => exact absurd rfl hne
  | cons next tokens => rfl

/-- The extracted tokens give back the text, up to one delimiter at its end. -/
theorem joinTokens_getlineTokens (token text : List Char) :
    token ++ text = joinTokens (getlineTokens token text) ∨
      (getlineTokens token text ≠ [] ∧ token ++ text = joinTokens (getlineTokens token text) ++ ['|']) := by
  induction text generalizing token with
  | nil =>
    rw [getlineTokens, List.append_nil]
    by_cases htoken : token = []
    · rw [if_pos htoken, htoken]
      exact Or.inl rfl
    · rw [if_neg htoken]
      exact Or.inl rfl
  | cons c cs ih =>
    rw [getlineTokens]
    by_cases hc : c = '|'
    · rw [if_pos hc, hc]
      by_cases hnone : getlineTokens [] cs = []
      · have hcs : cs = [] := by
          rcases ih [] with hjoin | ⟨hne, _⟩
          · rw [hnone] at hjoin
            exact hjoin
          · exact absurd hnone hne
        rw [hcs]
        exact Or.inr ⟨by simp, rfl⟩
      · rw [joinTokens_cons token hnone]
        rcases ih [] with hjoin | ⟨_, hjoin⟩
        · rw [List.nil_append] at hjoin
          rw [← hjoin]
          exact Or.inl rfl
        · rw [List.nil_append] at hjoin
          refine Or.inr ⟨by simp, ?_⟩
          conv_lhs => rw [hjoin]
          simp
    · rw [if_neg hc]
      have hmore := ih (token ++ [c])
      rw [List.append_assoc, List.singleton_append] at hmore
      exact hmore

theorem getlineTokens_append {name : List Char} (hname : '|' ∉ name) (token text : List Char) :
    getlineTokens token (name ++ text) = getlineTokens (token ++ name) text := by
  induction name generalizing token with
  | nil => rw [List.nil_append, List.append_nil]
  | cons c name ih =>
    obtain ⟨hc, hrest⟩ := not_or.mp (mt List.mem_cons.mpr hname)
    rw [List.cons_append, getlineTokens, if_neg (Ne.symm hc), ih hrest, List.append_assoc]
    rfl

/-- Tokens without a delimiter are extracted as they were joined, also with a delimiter at the end. -/
theorem getlineTokens_joinTokens {tokens : List (List Char)} (hplain : ∀ v ∈ tokens, v ≠ [] ∧ '|' ∉ v) :
    getlineTokens [] (joinTokens tokens) = tokens ∧
      (tokens ≠ [] → getlineTokens [] (joinTokens tokens ++ ['|']) = tokens) := by
  induction tokens with
  | nil => exact ⟨rfl, fun hne => absurd rfl hne⟩
  | cons token tokens ih =>
    obtain ⟨⟨hne, hbar⟩, hrest⟩ := List.forall_mem_cons.mp hplain
    obtain ⟨hjoin, hended⟩ := ih hrest
    cases tokens with
    | nil =>
      have hone := getlineTokens_append hbar [] []
      rw [List.append_nil, List.nil_append] at hone
      refine ⟨?_, fun _ => ?_⟩
      · rw [joinTokens, hone, getlineTokens, if_neg hne]
      · rw [joinTokens, getlineTokens_append hbar, List.nil_append, getlineTokens, if_pos rfl]
        rfl
    | cons next tokens =>
      have hnext : next :: tokens ≠ [] := by simp
      rw [joinTokens_cons token hnext]
      refine ⟨?_, fun _ => ?_⟩
      · rw [getlineTokens_append hbar, List.nil_append, getlineTokens, if_pos rfl, hjoin]
      · rw [List.append_assoc, List.cons_append, getlineTokens_append hbar, List.nil_append, getlineTokens,
          if_pos rfl, hended hnext]

theorem mapM_lookupTable_iff {tokens : List (List Char)} {pattern : List LteNrTddSlotType} :
    (tokens.mapM fun v => orFault TddFault.invalidPatternType (lookupTable v)) = .ok pattern ↔
      tokens = pattern.map LteNrTddSlotType.name := by
  induction tokens generalizing pattern with
  | nil =>
    rw [List.mapM_nil, pure_ok_iff]
    cases pattern <;> simp
  | cons v tokens ih =>
    rw [List.mapM_cons]
    constructor
    · intro h
      obtain ⟨slot, hslot, h⟩ := bind_ok_iff.mp h
      obtain ⟨rest, hrest, h⟩ := bind_ok_iff.mp h
      obtain rfl := pure_ok_iff.mp h
      rw [List.map_cons, ← ih.mp hrest, lookupTable_iff.mp (orFault_ok_iff.mp hslot)]
    · intro h
      cases pattern with
      | nil => cases h
      | cons slot pattern =>
        obtain ⟨rfl, hrest⟩ := List.cons_eq_cons.mp h
        refine bind_ok_iff.mpr ⟨slot, orFault_ok_iff.mpr (lookupTable_iff.mpr rfl), ?_⟩
        exact bind_ok_iff.mpr ⟨pattern, ih.mpr hrest, rfl⟩

/-- The parser accepts exactly the names of the slot types with a delimiter between them, and with one
more delimiter at the end of a pattern that is not empty; it reads the pattern that is written. -/
theorem setTddPattern_ok_iff (tddPattern : List Char) (pattern : List LteNrTddSlotType) :
    setTddPattern tddPattern = .ok pattern ↔
      tddPattern = joinTokens (pattern.map LteNrTddSlotType.name) ∨
        (pattern ≠ [] ∧ tddPattern = joinTokens (pattern.map LteNrTddSlotType.name) ++ ['|']) := by
  have hplain : ∀ v ∈ pattern.map LteNrTddSlotType.name, v ≠ [] ∧ '|' ∉ v := by
    intro v hv
    obtain ⟨slot, _, rfl⟩ := List.mem_map.mp hv
    cases slot <;> decide
  obtain ⟨hjoin, hended⟩ := getlineTokens_joinTokens hplain
  unfold setTddPattern
  rw [mapM_lookupTable_iff]
  constructor
  · intro htokens
    have htext := joinTokens_getlineTokens [] tddPattern
    rw [htokens, List.nil_append] at htext
    refine htext.imp_right fun h => ⟨fun hnil => h.1 ?_, h.2⟩
    rw [hnil, List.map_nil]
  · rintro (rfl | ⟨hne, rfl⟩)
    · exact hjoin
    · exact hended (by simpa using hne)

end Pattern

section PhysicalPool

inductive PoolStatus where
  | running
  | covered
  | pastEnd
  deriving DecidableEq

/-- The two iterators and the bitmap built so far. -/
structure PoolLoop where
  patternIt : Nat
  slBitMapIt : Nat
  finalSlPool : List Bool
  status : PoolStatus
  deriving DecidableEq

variable (tddPattern : List LteNrTddSlotType) (slBitMap : List Bool)

/-- The end of a round: the pattern is applied again until the bitmap is covered. -/
def PoolLoop.advance (s : PoolLoop) (slBitMapIt : Nat) (bit : Bool) : PoolLoop :=
  let s := { s with slBitMapIt := slBitMapIt, finalSlPool := s.finalSlPool ++ [bit] }
  if s.patternIt + 1 = tddPattern.length then
    if slBitMapIt = slBitMap.length then { s with status := .covered } else { s with patternIt := 0 }
  else { s with patternIt := s.patternIt + 1 }

def PoolLoop.round (s : PoolLoop) : PoolLoop :=
  match tddPattern[s.patternIt]? with
  | none => { s with status := .pastEnd }
  | some slot =>
    if slot ≠ .ul then s.advance tddPattern slBitMap s.slBitMapIt false
    else
      match slBitMap[s.slBitMapIt]? with
      | none => { s with status := .pastEnd }
      | some bit => s.advance tddPattern slBitMap (s.slBitMapIt + 1) bit

def PoolLoop.Goes (s : PoolLoop) : Prop := s.status = .running ∧ s.patternIt ≠ tddPattern.length

instance : DecidablePred (PoolLoop.Goes tddPattern) := fun _ => inferInstanceAs (Decidable (_ ∧ _))

/-- The do-while loop of `DoGetPhysicalSlPool` after the checks of the two sizes. -/
def doGetPhysicalSlPool (fuel : Nat) : Except TddFault (List Bool) := do
  let countUl := tddPattern.count .ul
  require (0 < countUl) .noUplinkSlot
  require (slBitMap.length % countUl = 0) .bitmapNotMultiple
  require (tddPattern.length ≤ slBitMap.length) .bitmapTooShort
  let first := PoolLoop.round tddPattern slBitMap ⟨0, 0, [], .running⟩
  let s ← orFault .outOfFuel
    (whileLoop (PoolLoop.Goes tddPattern) (PoolLoop.round tddPattern slBitMap) fuel first)
  require (s.status ≠ .pastEnd) .iteratorPastEnd
  pure s.finalSlPool

/-- The pattern is repeated over all slots. -/
def IsUplink (n : Nat) : Prop := tddPattern[n % tddPattern.length]? = some .ul

instance : DecidablePred (IsUplink tddPattern) := fun _ => inferInstanceAs (Decidable (_ = _))

/-- The bit of a slot: of the uplink slots the `i`-th has the `i`-th bit of the bitmap. -/
def poolBit (n : Nat) : Bool :=
  decide (IsUplink tddPattern n) && slBitMap.getD (Nat.count (IsUplink tddPattern) n) false

end PhysicalPool

section Covered

variable {tddPattern : List LteNrTddSlotType} {slBitMap : List Bool}

theorem isUplink_periodic (n : Nat) :
    IsUplink tddPattern (n + tddPattern.length) ↔ IsUplink tddPattern n := by
  unfold IsUplink
  rw [Nat.add_mod_right]

theorem count_isUplink_pattern :
    Nat.count (IsUplink tddPattern) tddPattern.length = tddPattern.count .ul := by
  rw [← count_getElem?, Nat.count_eq_card_filter_range, Nat.count_eq_card_filter_range]
  refine congrArg Finset.card (Finset.filter_congr fun n hn => ?_)
  unfold IsUplink
  rw [Nat.mod_eq_of_lt (Finset.mem_range.mp hn)]

theorem count_isUplink (q r : Nat) : Nat.count (IsUplink tddPattern) (q * tddPattern.length + r) =
    q * tddPattern.count .ul + Nat.count (IsUplink tddPattern) r := by
  rw [count_periodic isUplink_periodic, count_isUplink_pattern]

/-- The loop after `n` rounds: the first iterator is at the slot of the pattern, the second one has
passed the uplink slots so far. -/
structure RoundsDone (tddPattern : List LteNrTddSlotType) (slBitMap : List Bool) (periods n : Nat)
    (s : PoolLoop) : Prop where
  written : s.finalSlPool = (List.range n).map (poolBit tddPattern slBitMap)
  within : n ≤ periods * tddPattern.length
  going : s.status = .running → s.patternIt = n % tddPattern.length ∧
    s.slBitMapIt = Nat.count (IsUplink tddPattern) n ∧ n < periods * tddPattern.length
  ended : s.status ≠ .running → s.status = .covered ∧ n = periods * tddPattern.length

theorem RoundsDone.advance {periods n : Nat} {s : PoolLoop}
    (h : RoundsDone tddPattern slBitMap periods n s) (hrunning : s.status = .running)
    (hcountUl : 0 < tddPattern.count .ul) (hperiods : slBitMap.length = periods * tddPattern.count .ul) :
    RoundsDone tddPattern slBitMap periods (n + 1)
      (s.advance tddPattern slBitMap (Nat.count (IsUplink tddPattern) (n + 1)) (poolBit tddPattern slBitMap n)) := by
  obtain ⟨hpattern, _, hlt⟩ := h.going hrunning
  have hlength : 0 < tddPattern.length := lt_of_lt_of_le hcountUl List.count_le_length
  have hwritten : s.finalSlPool ++ [poolBit tddPattern slBitMap n] =
      (List.range (n + 1)).map (poolBit tddPattern slBitMap) := by
    rw [h.written, List.range_succ, List.map_append]
    rfl
  have hdivision := Nat.div_add_mod n tddPattern.length
  unfold PoolLoop.advance
  dsimp only
  by_cases hlast : s.patternIt + 1 = tddPattern.length
  · -- the slot after the last one of the pattern starts a new period
    rw [if_pos hlast]
    have hnext : n + 1 = (n / tddPattern.length + 1) * tddPattern.length := by
      rw [Nat.add_mul, Nat.one_mul, Nat.mul_comm]
      omega
    have hcount : Nat.count (IsUplink tddPattern) (n + 1) =
        (n / tddPattern.length + 1) * tddPattern.count .ul := by
      have hwhole := @count_isUplink tddPattern (n / tddPattern.length + 1) 0
      simpa only [Nat.add_zero, Nat.count_zero, ← hnext] using hwhole
    by_cases hcovered : Nat.count (IsUplink tddPattern) (n + 1) = slBitMap.length
    · rw [if_pos hcovered]
      have hall : n / tddPattern.length + 1 = periods :=
        Nat.eq_of_mul_eq_mul_right hcountUl ((hcount.symm.trans hcovered).trans hperiods)
      refine ⟨hwritten, ?_, (fun hno => by cases hno), fun _ => ⟨rfl, ?_⟩⟩
      · rw [hnext, hall]
      · rw [hnext, hall]
    · rw [if_neg hcovered]
      have hmore : n + 1 < periods * tddPattern.length := by
        refine lt_of_le_of_ne hlt fun hend => hcovered ?_
        have hall : n / tddPattern.length + 1 = periods :=
          Nat.eq_of_mul_eq_mul_right hlength (hnext.symm.trans hend)
        rw [hcount, hall, hperiods]
      refine ⟨hwritten, hmore.le, fun _ => ⟨?_, rfl, hmore⟩, fun hno => absurd hrunning hno⟩
      rw [hnext, Nat.mul_mod_left]
  · rw [if_neg hlast]
    have hroom : n % tddPattern.length + 1 < tddPattern.length := by
      have hmod := Nat.mod_lt n hlength
      omega
    have hsame : (n + 1) % tddPattern.length = n % tddPattern.length + 1 := by
      rw [Nat.add_mod, Nat.mod_eq_of_lt (show 1 < tddPattern.length by omega), Nat.mod_eq_of_lt hroom]
    have hmore : n + 1 < periods * tddPattern.length := by
      refine lt_of_le_of_ne hlt fun hend => ?_
      have hzero := Nat.mul_mod_left periods tddPattern.length
      rw [← hend] at hzero
      omega
    refine ⟨hwritten, hmore.le, fun _ => ⟨?_, rfl, hmore⟩, fun hno => absurd hrunning hno⟩
    rw [hsame, hpattern]

/-- A round never reads behind the bitmap: its length is a multiple of the uplink slots of the
pattern. -/
theorem RoundsDone.round {periods n : Nat} {s : PoolLoop}
    (h : RoundsDone tddPattern slBitMap periods n s) (hrunning : s.status = .running)
    (hcountUl : 0 < tddPattern.count .ul) (hperiods : slBitMap.length = periods * tddPattern.count .ul) :
    RoundsDone tddPattern slBitMap periods (n + 1) (s.round tddPattern slBitMap) := by
  obtain ⟨hpattern, hbitMap, hlt⟩ := h.going hrunning
  have hnext := h.advance hrunning hcountUl hperiods
  have hlength : 0 < tddPattern.length := lt_of_lt_of_le hcountUl List.count_le_length
  obtain ⟨slot, hslot⟩ : ∃ slot, tddPattern[n % tddPattern.length]? = some slot :=
    ⟨_, List.getElem?_eq_getElem (Nat.mod_lt n hlength)⟩
  have huplink : IsUplink tddPattern n ↔ slot = .ul := by
    unfold IsUplink
    rw [hslot, Option.some.injEq]
  unfold PoolLoop.round
  rw [hpattern, hslot]
  dsimp only
  by_cases hul : slot = .ul
  · have hread : Nat.count (IsUplink tddPattern) n < slBitMap.length := by
      have hmono : Nat.count (IsUplink tddPattern) (n + 1) ≤
          Nat.count (IsUplink tddPattern) (periods * tddPattern.length + 0) := Nat.count_monotone _ hlt
      rw [count_isUplink, Nat.count_zero, Nat.count_succ, if_pos (huplink.mpr hul), ← hperiods] at hmono
      omega
    obtain ⟨bit, hbit⟩ : ∃ bit, slBitMap[Nat.count (IsUplink tddPattern) n]? = some bit :=
      ⟨_, List.getElem?_eq_getElem hread⟩
    rw [Nat.count_succ, if_pos (huplink.mpr hul)] at hnext
    have hsame : poolBit tddPattern slBitMap n = bit := by
      unfold poolBit
      rw [decide_eq_true (huplink.mpr hul), Bool.true_and, List.getD_eq_getElem?_getD, hbit]
      rfl
    rw [if_neg (not_not.mpr hul), hbitMap, hbit]
    rw [hsame] at hnext
    exact hnext
  · rw [Nat.count_succ, if_neg (mt huplink.mp hul), Nat.add_zero] at hnext
    have hsame : poolBit tddPattern slBitMap n = false := by
      unfold poolBit
      rw [decide_eq_false (mt huplink.mp hul), Bool.false_and]
    rw [if_pos hul, hbitMap]
    rw [hsame] at hnext
    exact hnext

/-- The loop ends with the bits of all slots in which the pattern covers the bitmap once. -/
theorem poolLoop_returns {periods : Nat} (hcountUl : 0 < tddPattern.count .ul) (hpos : 0 < periods)
    (hperiods : slBitMap.length = periods * tddPattern.count .ul) :
    ∃ s, Returns (PoolLoop.Goes tddPattern) (PoolLoop.round tddPattern slBitMap)
      (PoolLoop.round tddPattern slBitMap ⟨0, 0, [], .running⟩) s ∧ s.status = .covered ∧
      s.finalSlPool = (List.range (periods * tddPattern.length)).map (poolBit tddPattern slBitMap) := by
  have hlength : 0 < tddPattern.length := lt_of_lt_of_le hcountUl List.count_le_length
  have hstart : RoundsDone tddPattern slBitMap periods 0 ⟨0, 0, [], .running⟩ :=
    ⟨rfl, Nat.zero_le _, fun _ => ⟨(Nat.zero_mod _).symm, (Nat.count_zero _).symm, Nat.mul_pos hpos hlength⟩,
      fun hno => absurd rfl hno⟩
  have hfirst := hstart.round rfl hcountUl hperiods
  have hbody : ∀ s : PoolLoop, (∃ n, RoundsDone tddPattern slBitMap periods n s) →
      PoolLoop.Goes tddPattern s → (∃ n, RoundsDone tddPattern slBitMap periods n (s.round tddPattern slBitMap)) ∧
        periods * tddPattern.length - (s.round tddPattern slBitMap).finalSlPool.length <
          periods * tddPattern.length - s.finalSlPool.length := by
    rintro s ⟨n, hdone⟩ hgoes
    have hround := hdone.round hgoes.1 hcountUl hperiods
    refine ⟨⟨n + 1, hround⟩, ?_⟩
    have hlt := (hdone.going hgoes.1).2.2
    rw [hround.written, hdone.written]
    simp only [List.length_map, List.length_range]
    omega
  obtain ⟨s, hreturns, ⟨n, hdone⟩, hends⟩ := returns_of_variant (c := PoolLoop.Goes tddPattern)
    (fun s => ∃ n, RoundsDone tddPattern slBitMap periods n s)
    (fun s => periods * tddPattern.length - s.finalSlPool.length) hbody ⟨1, hfirst⟩
  have hstopped : s.status ≠ .running := by
    intro hrunning
    refine hends ⟨hrunning, ?_⟩
    rw [(hdone.going hrunning).1]
    exact (Nat.mod_lt n hlength).ne
  obtain ⟨hcovered, rfl⟩ := hdone.ended hstopped
  exact ⟨s, hreturns, hcovered, hdone.written⟩

/-- The checks in front of the loop. -/
structure AcceptsBitmap (tddPattern : List LteNrTddSlotType) (slBitMap : List Bool) : Prop where
  uplink : 0 < tddPattern.count .ul
  multiple : slBitMap.length % tddPattern.count .ul = 0
  long : tddPattern.length ≤ slBitMap.length

theorem acceptsBitmap_of_ok {fuel : Nat} {finalSlPool : List Bool}
    (h : doGetPhysicalSlPool tddPattern slBitMap fuel = .ok finalSlPool) :
    AcceptsBitmap tddPattern slBitMap ∧ ∃ s, whileLoop (PoolLoop.Goes tddPattern)
      (PoolLoop.round tddPattern slBitMap) fuel (PoolLoop.round tddPattern slBitMap ⟨0, 0, [], .running⟩) =
        some s ∧ finalSlPool = s.finalSlPool := by
  obtain ⟨_, huplink, h⟩ := bind_ok_iff.mp h
  obtain ⟨_, hmultiple, h⟩ := bind_ok_iff.mp h
  obtain ⟨_, hlong, h⟩ := bind_ok_iff.mp h
  obtain ⟨s, hloop, h⟩ := bind_ok_iff.mp h
  obtain ⟨_, _, h⟩ := bind_ok_iff.mp h
  exact ⟨⟨require_ok_iff.mp huplink, require_ok_iff.mp hmultiple, require_ok_iff.mp hlong⟩, s,
    orFault_ok_iff.mp hloop, (pure_ok_iff.mp h).symm⟩

/-- An accepted bitmap covers whole patterns. -/
theorem AcceptsBitmap.periods (h : AcceptsBitmap tddPattern slBitMap) : ∃ periods, 0 < periods ∧
    slBitMap.length = periods * tddPattern.count .ul := by
  obtain ⟨periods, hperiods⟩ := Nat.dvd_of_mod_eq_zero h.multiple
  have hlong := h.long
  have hle : tddPattern.count .ul ≤ tddPattern.length := List.count_le_length
  have huplink := h.uplink
  rw [Nat.mul_comm] at hperiods
  refine ⟨periods, Nat.pos_of_ne_zero fun hzero => ?_, hperiods⟩
  rw [hzero, Nat.zero_mul] at hperiods
  omega

/-- The bit of a slot in the pool, which is repeated over all slots. -/
theorem poolBit_repeated {periods : Nat} (hcountUl : 0 < tddPattern.count .ul) (hpos : 0 < periods)
    (hperiods : slBitMap.length = periods * tddPattern.count .ul) (n : Nat) :
    poolBit tddPattern slBitMap (n % (periods * tddPattern.length)) = true ↔
      IsUplink tddPattern n ∧
        slBitMap.getD (Nat.count (IsUplink tddPattern) n % slBitMap.length) false = true := by
  have hlength : 0 < tddPattern.length := lt_of_lt_of_le hcountUl List.count_le_length
  let r := n % (periods * tddPattern.length)
  have hsplit : n = n / (periods * tddPattern.length) * periods * tddPattern.length + r := by
    have hdivision := Nat.div_add_mod n (periods * tddPattern.length)
    rw [Nat.mul_assoc, Nat.mul_comm]
    exact hdivision.symm
  have huplink : IsUplink tddPattern r ↔ IsUplink tddPattern n := by
    conv_rhs => rw [hsplit]
    exact (periodic_mul isUplink_periodic _ r).symm
  have hcount : Nat.count (IsUplink tddPattern) n =
      n / (periods * tddPattern.length) * slBitMap.length + Nat.count (IsUplink tddPattern) r := by
    conv_lhs => rw [hsplit]
    rw [count_isUplink, hperiods, Nat.mul_assoc]
  unfold poolBit
  rw [Bool.and_eq_true, decide_eq_true_iff, huplink]
  refine and_congr_right fun hul => ?_
  have hread : Nat.count (IsUplink tddPattern) r < slBitMap.length := by
    have hlt : r < periods * tddPattern.length := Nat.mod_lt n (Nat.mul_pos hpos hlength)
    have hmono : Nat.count (IsUplink tddPattern) (r + 1) ≤
        Nat.count (IsUplink tddPattern) (periods * tddPattern.length + 0) := Nat.count_monotone _ hlt
    rw [count_isUplink, Nat.count_zero, Nat.count_succ, if_pos (huplink.mpr hul), ← hperiods] at hmono
    omega
  rw [hcount, Nat.add_comm, Nat.add_mul_mod_self_right, Nat.mod_eq_of_lt hread]

theorem doGetPhysicalSlPool_returns (h : AcceptsBitmap tddPattern slBitMap) :
    ∃ n, ∀ fuel, n ≤ fuel → ∃ finalSlPool, doGetPhysicalSlPool tddPattern slBitMap fuel = .ok finalSlPool := by
  obtain ⟨periods, hpos, hperiods⟩ := h.periods
  obtain ⟨s, ⟨n, hn⟩, hcovered, _⟩ := poolLoop_returns h.uplink hpos hperiods
  refine ⟨n, fun fuel hfuel => ⟨s.finalSlPool, ?_⟩⟩
  unfold doGetPhysicalSlPool
  rw [bind_of_ok (a := ()) (require_ok_iff.mpr h.uplink), bind_of_ok (a := ()) (require_ok_iff.mpr h.multiple),
    bind_of_ok (a := ()) (require_ok_iff.mpr h.long)]
  dsimp only
  rw [hn fuel hfuel]
  have hnot : s.status ≠ .pastEnd := by
    rw [hcovered]
    decide
  exact bind_of_ok (a := ()) (require_ok_iff.mpr hnot)

example : doGetPhysicalSlPool [.dl, .ul, .ul, .f] [true, false, true, true] 7 =
    .ok [false, true, false, false, false, true, true, false] := by decide

end Covered

end SidelinkORe
