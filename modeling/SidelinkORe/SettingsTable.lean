import SidelinkORe.StableSort
import SidelinkORe.TextExchange

namespace SidelinkORe

/-- An entry of `L` or `R`: a received packet with its distance, the column that is appended. -/
structure SidePacket (D : Type) extends ReceivedPacket where
  distFromRx : D
  deriving DecidableEq

/-- The three columns of a settings table: the number of transmissions, the highest Rc of a packet
to overwrite, and NSe. -/
structure SettingsRow where
  transmissions : Nat
  rcLimit : ℚ
  nSe : Nat
  deriving DecidableEq

/-- A settings table; its last row is the one for D-Re. -/
structure SettingsTable where
  rows : List SettingsRow
  rows_ne_nil : rows ≠ []

/-- `settingsChoicesRhoUEp1`, `settingsChoicesRhoUEp2` and `settingsChoicesRhoUEp4`. -/
structure SettingsTables where
  rhoUEp1 : SettingsTable
  rhoUEp2 : SettingsTable
  rhoUEp4 : SettingsTable

/-- The variables that the choice of a row sets. -/
structure ModeChoice (D : Type) where
  selectionMode : Nat
  settingsChoice : Int
  sortedLChoices : List (SidePacket D)
  sortedRChoices : List (SidePacket D)
  deriving DecidableEq

section Choice

variable {D : Type}

/-- The packets of a side that a row allows to overwrite. -/
def choicesOf (row : SettingsRow) (side : List (SidePacket D)) : List (SidePacket D) :=
  side.filter fun p => decide ((p.rc : ℚ) ≤ row.rcLimit)

/-- The test of `lCounter` and of `rCounter`, for even and for odd numbers of transmissions. -/
def Enough (row : SettingsRow) (counter : Nat) : Prop :=
  if row.transmissions % 2 = 0 then (row.transmissions : ℚ) / 2 ≤ counter
  else ((row.transmissions : ℚ) - 1) / 2 ≤ counter

instance (row : SettingsRow) (counter : Nat) : Decidable (Enough row counter) :=
  inferInstanceAs (Decidable (ite _ _ _))

/-- `Sort` by column 3, then `reverse`. -/
def sortedChoices (choices : List (SidePacket D)) : List (SidePacket D) :=
  (sortFalling (fun p : SidePacket D => p.subChannel) choices).reverse

/-- The loop over the rows of a table with `size` rows, from row `i` on. -/
def searchRows (size : Nat) (L R : List (SidePacket D)) :
    Nat → List SettingsRow → ModeChoice D → ModeChoice D
  | _, [], m => m
  | i, row :: rows, m =>
    if (i : Int) < size - 2 then
      let lChoices := choicesOf row L
      let rChoices := choicesOf row R
      if Enough row lChoices.length ∧ Enough row rChoices.length then
        ⟨1, i, sortedChoices lChoices, sortedChoices rChoices⟩
      else searchRows size L R (i + 1) rows { m with settingsChoice := -1 }
    else searchRows size L R (i + 1) rows { m with selectionMode := 2, settingsChoice := i }

/-- The choice from one table; without packets on both sides it is D-Re. -/
def chooseRow (table : SettingsTable) (L R : List (SidePacket D)) (m : ModeChoice D) :
    ModeChoice D :=
  if L = [] ∨ R = [] then
    { m with selectionMode := 2, settingsChoice := table.rows.length - 1 }
  else searchRows table.rows.length L R 0 table.rows m

/-- The three density branches. -/
def getSelectionMode (tables : SettingsTables) (rhoUE : ℚ) (L R : List (SidePacket D))
    (m : ModeChoice D) : ModeChoice D :=
  if rhoUE ≤ 15 / 100 then chooseRow tables.rhoUEp1 L R m
  else if 15 / 100 < rhoUE ∧ rhoUE ≤ 3 / 10 then chooseRow tables.rhoUEp2 L R m
  else if 3 / 10 < rhoUE then chooseRow tables.rhoUEp4 L R m
  else m

/-- The table of the density. -/
def SettingsTables.tableFor (tables : SettingsTables) (rhoUE : ℚ) : SettingsTable :=
  if rhoUE ≤ 15 / 100 then tables.rhoUEp1
  else if rhoUE ≤ 3 / 10 then tables.rhoUEp2
  else tables.rhoUEp4

/-- Both sides have half of the row's transmissions, rounded down, to overwrite. -/
def Offers (L R : List (SidePacket D)) (row : SettingsRow) : Prop :=
  row.transmissions / 2 ≤ (choicesOf row L).length ∧
    row.transmissions / 2 ≤ (choicesOf row R).length

/-- Row `i` stands before the last one and is the first that both sides offer enough packets for. -/
structure FirstOffered (rows : List SettingsRow) (L R : List (SidePacket D)) (i : Nat)
    (row : SettingsRow) : Prop where
  at_row : rows[i]? = some row
  before_last : i + 1 < rows.length
  offers : Offers L R row
  first : ∀ j row', j < i → rows[j]? = some row' → ¬Offers L R row'

/-- The first offered row is picked with its packets, and the last one exactly without any. -/
structure PicksFirst (rows : List SettingsRow) (L R : List (SidePacket D)) (m : ModeChoice D) :
    Prop where
  overwrite : ∀ i row, FirstOffered rows L R i row → m.selectionMode = 1 ∧ m.settingsChoice = i ∧
    m.sortedLChoices.Perm (choicesOf row L) ∧ m.sortedRChoices.Perm (choicesOf row R)
  draw : m.selectionMode = 2 ∧ m.settingsChoice = (rows.length - 1 : Nat) ↔
    ∀ i row, ¬FirstOffered rows L R i row

variable {L R : List (SidePacket D)} {m : ModeChoice D} {rows : List SettingsRow} {size i : Nat}

theorem enough_iff {row : SettingsRow} {counter : Nat} :
    Enough row counter ↔ row.transmissions / 2 ≤ counter := by
  unfold Enough
  split
  next heven =>
    rw [div_le_iff₀ (by norm_num)]
    have hcast : (row.transmissions : ℚ) ≤ counter * 2 ↔ row.transmissions ≤ counter * 2 := by
      exact_mod_cast Iff.rfl
    rw [hcast]
    omega
  next hodd =>
    rw [div_le_iff₀ (by norm_num), sub_le_iff_le_add]
    have hcast : (row.transmissions : ℚ) ≤ counter * 2 + 1 ↔ row.transmissions ≤ counter * 2 + 1 := by
      exact_mod_cast Iff.rfl
    rw [hcast]
    omega

theorem sortedChoices_perm (choices : List (SidePacket D)) :
    (sortedChoices choices).Perm choices :=
  (List.reverse_perm _).trans (perm_sortFalling choices)

/-- The ends of a search from row `i` on: the first offered row that has two rows behind it, or the
last row when there is none. -/
inductive SearchEnds (size i : Nat) (L R : List (SidePacket D)) (rows : List SettingsRow)
    (m : ModeChoice D) : Prop where
  | offered (j : Nat) (row : SettingsRow) (at_row : rows[j]? = some row) (behind : i + j + 2 < size)
      (offers : Offers L R row)
      (first : ∀ k row', k < j → rows[k]? = some row' → ¬Offers L R row')
      (result : m = ⟨1, (i + j : Nat), sortedChoices (choicesOf row L),
        sortedChoices (choicesOf row R)⟩)
  | last (none : ∀ j row, rows[j]? = some row → i + j + 2 < size → ¬Offers L R row)
      (mode : m.selectionMode = 2) (choice : m.settingsChoice = (size - 1 : Nat))

theorem SearchEnds.cons {row : SettingsRow} (h : SearchEnds size (i + 1) L R rows m)
    (hrow : i + 2 < size → ¬Offers L R row) : SearchEnds size i L R (row :: rows) m := by
  cases h with
  | offered j row' at_row behind offers first result =>
    refine .offered (j + 1) row' at_row (by omega) offers (fun k row'' hk hat => ?_) ?_
    · cases k with
      | zero =>
        cases hat
        exact hrow (by omega)
      | succ k => exact first k row'' (by omega) hat
    · rw [result, Nat.add_right_comm, Nat.add_assoc]
  | last none mode choice =>
    refine .last (fun j row' hat hj => ?_) mode choice
    cases j with
    | zero =>
      cases hat
      exact hrow (by omega)
    | succ j => exact none j row' hat (by omega)

theorem searchRows_ends (hsize : i + rows.length = size) (hne : rows ≠ []) (m : ModeChoice D) :
    SearchEnds size i L R rows (searchRows size L R i rows m) := by
  induction rows generalizing i m with
  | nil => exact absurd rfl hne
  | cons row rows ih =>
    rw [List.length_cons] at hsize
    have hrest : ∀ m, rows ≠ [] → SearchEnds size (i + 1) L R rows (searchRows size L R (i + 1) rows m) :=
      fun m hne => ih (by omega) hne m
    rw [searchRows]
    split
    next hbehind =>
      have htwo : rows ≠ [] := List.ne_nil_of_length_pos (by omega)
      dsimp only
      split
      next henough =>
        have hoffers : Offers L R row := ⟨enough_iff.mp henough.1, enough_iff.mp henough.2⟩
        exact .offered 0 row rfl (by omega) hoffers (fun k _ hk => absurd hk (Nat.not_lt_zero k)) rfl
      next hshort =>
        refine (hrest _ htwo).cons fun _ hoffers => hshort ?_
        exact ⟨enough_iff.mpr hoffers.1, enough_iff.mpr hoffers.2⟩
    next hend =>
      cases rows with
      | nil =>
        rw [List.length_nil] at hsize
        refine .last (fun j _ _ hj => ?_) rfl ?_
        · omega
        · change (i : Int) = (size - 1 : Nat)
          omega
      | cons next rows => exact (hrest _ (List.cons_ne_nil next rows)).cons fun h => by omega

theorem FirstOffered.unique {j : Nat} {row row' : SettingsRow} (h : FirstOffered rows L R i row)
    (h' : FirstOffered rows L R j row') : i = j := by
  rcases Nat.lt_trichotomy i j with hlt | heq | hlt
  · exact absurd h.offers (h'.first i row hlt h.at_row)
  · exact heq
  · exact absurd h'.offers (h.first j row' hlt h'.at_row)

theorem searchRows_picksFirst (hne : rows ≠ [])
    (hends : SearchEnds rows.length 0 L R rows m) :
    PicksFirst rows L R m ↔ ∀ i row, i + 2 = rows.length → ¬FirstOffered rows L R i row := by
  have hlength := List.length_pos_of_ne_nil hne
  cases hends with
  | offered j row at_row behind offers first result =>
    have hfirst : FirstOffered rows L R j row := ⟨at_row, by omega, offers, first⟩
    have hnext : ∀ i row, i + 2 = rows.length → ¬FirstOffered rows L R i row := by
      intro i row' hi h
      have := h.unique hfirst
      omega
    refine ⟨fun _ => hnext, fun _ => ⟨fun i row' h => ?_, ?_⟩⟩
    · obtain rfl := h.unique hfirst
      obtain rfl := Option.some.inj (h.at_row.symm.trans at_row)
      rw [result, Nat.zero_add]
      exact ⟨rfl, rfl, sortedChoices_perm _, sortedChoices_perm _⟩
    · rw [result]
      exact ⟨fun h => by simp at h, fun h => absurd hfirst (h j row)⟩
  | last none mode choice =>
    constructor
    · intro h i row _ hfirst
      have hone := (h.overwrite i row hfirst).1
      omega
    · intro hnext
      have hnever : ∀ i row, ¬FirstOffered rows L R i row := by
        intro i row h
        by_cases hi : i + 2 = rows.length
        · exact hnext i row hi h
        · have := h.before_last
          exact none i row h.at_row (by omega) h.offers
      exact ⟨fun i row h => absurd h (hnever i row), fun _ => hnever, fun _ => ⟨mode, choice⟩⟩

theorem getSelectionMode_eq (tables : SettingsTables) (rhoUE : ℚ) (m : ModeChoice D) :
    getSelectionMode tables rhoUE L R m = chooseRow (tables.tableFor rhoUE) L R m := by
  unfold getSelectionMode SettingsTables.tableFor
  split
  next => rfl
  next hlow =>
    by_cases hmid : rhoUE ≤ 3 / 10
    · rw [if_pos ⟨not_le.mp hlow, hmid⟩, if_pos hmid]
    · rw [if_neg fun h => hmid h.2, if_pos (not_le.mp hmid), if_neg hmid]

/-- Python picks the first offered row unless that is the one right before the last row, which the
search leaves out as well. -/
theorem picksFirst_iff (tables : SettingsTables) (rhoUE : ℚ) (m : ModeChoice D) (hL : L ≠ [])
    (hR : R ≠ []) :
    PicksFirst (tables.tableFor rhoUE).rows L R (getSelectionMode tables rhoUE L R m) ↔
      ∀ i row, i + 2 = (tables.tableFor rhoUE).rows.length →
        ¬FirstOffered (tables.tableFor rhoUE).rows L R i row := by
  have hne := (tables.tableFor rhoUE).rows_ne_nil
  rw [getSelectionMode_eq, chooseRow, if_neg (not_or.mpr ⟨hL, hR⟩)]
  exact searchRows_picksFirst hne (searchRows_ends (Nat.zero_add _) hne m)

/-- The tables of the experiments. -/
def experimentTables : SettingsTables where
  rhoUEp1 := ⟨[⟨4, 0, 0⟩, ⟨0, 0, 4⟩], List.cons_ne_nil _ _⟩
  rhoUEp2 := ⟨[⟨4, 0, 0⟩, ⟨4, 1, 0⟩, ⟨4, 2, 0⟩, ⟨3, 0, 0⟩, ⟨0, 0, 3⟩], List.cons_ne_nil _ _⟩
  rhoUEp4 := ⟨[⟨4, 0, 0⟩, ⟨2, 0, 0⟩, ⟨4, 1, 0⟩, ⟨2, 1, 0⟩, ⟨4, 2, 0⟩, ⟨2, 2, 0⟩, ⟨0, 0, 2⟩],
    List.cons_ne_nil _ _⟩

/-- A packet without repetitions at a distance. -/
def freshPacket (srcIndex subChannel distFromRx : Int) : SidePacket Int where
  srcIndex := srcIndex
  rc := 0
  slot := 50
  subChannel := subChannel
  distFromRx := distFromRx

/-- At high density the second row is the first one offered. -/
theorem picksFirst_iff_single :
    PicksFirst (experimentTables.tableFor (1 / 2)).rows [freshPacket 20 0 90] [freshPacket 60 1 95]
      (getSelectionMode experimentTables (1 / 2) [freshPacket 20 0 90] [freshPacket 60 1 95]
        ⟨2, 4, [], []⟩) := by
  refine (picksFirst_iff experimentTables (1 / 2) ⟨2, 4, [], []⟩ (List.cons_ne_nil _ _)
    (List.cons_ne_nil _ _)).mpr ?_
  have hrows : (experimentTables.tableFor (1 / 2)).rows = experimentTables.rhoUEp4.rows := by
    decide +kernel
  have hoffers : Offers [freshPacket 20 0 90] [freshPacket 60 1 95] ⟨2, 0, 0⟩ := by
    unfold Offers
    decide +kernel
  rw [hrows]
  intro i row hi h
  have hlength : experimentTables.rhoUEp4.rows.length = 7 := rfl
  exact h.first 1 _ (by omega) rfl hoffers

/-- At low density the only row for O-Re is never picked. -/
theorem picksFirst_fails_lowDensity :
    ¬∀ (tables : SettingsTables) (rhoUE : ℚ) (L R : List (SidePacket Int)) (m : ModeChoice Int),
      L ≠ [] → R ≠ [] →
        PicksFirst (tables.tableFor rhoUE).rows L R (getSelectionMode tables rhoUE L R m) := by
  intro claimed
  have picks := claimed experimentTables (1 / 10) [freshPacket 20 0 90, freshPacket 21 1 80]
    [freshPacket 60 1 95, freshPacket 59 2 85] ⟨2, 1, [], []⟩ (List.cons_ne_nil _ _)
    (List.cons_ne_nil _ _)
  have hfirst : FirstOffered (experimentTables.tableFor (1 / 10)).rows
      [freshPacket 20 0 90, freshPacket 21 1 80] [freshPacket 60 1 95, freshPacket 59 2 85] 0
      ⟨4, 0, 0⟩ := by
    refine ⟨by decide +kernel, by decide +kernel, ?_, fun j _ hj => absurd hj (Nat.not_lt_zero j)⟩
    exact ⟨by decide +kernel, by decide +kernel⟩
  have hmode := (picks.overwrite 0 ⟨4, 0, 0⟩ hfirst).1
  exact absurd hmode (by decide +kernel)

end Choice

end SidelinkORe
