import SidelinkORe.DensityTable

namespace SidelinkORe

/-- A table of histogram numbers, 0 for a blank. The rows are thresholds, the columns numbers of
eliminations. -/
abbrev CellTable := Nat → Nat → Nat

section Fill

variable (R C : Nat)

/-- A blank takes the value of another cell of its row; an empty result of `find` is an error. -/
def copyFrom (M : CellTable) (i j : Nat) (source : Option Nat) : Option CellTable :=
  source.map fun p => setEntry M i j (M i p)

/-- `maxLikelyhood(find(maxLikelyhood(:,end)>0,1,'last'),end)` -/
def copyFromEnd (M : CellTable) (i j : Nat) : Option CellTable :=
  (findLast R fun i => M i C).map fun p => setEntry M i j (M p C)

/-- The first table does not reach the last column: its rows end with their last filled cell.
`temp1` is the first filled cell of the row before any of it was filled. -/
def fillFirstTable (temp1 : Option Nat) (M : CellTable) (i j : Nat) : Option CellTable := do
  let M ← if M i j = 0 ∧ temp1.any (fun p => decide (j < p)) = true then
    copyFrom M i j (findFirst C (M i)) else some M
  let M ← if M i j = 0 ∧ temp1.any (fun p => decide (p < j)) = true then
    copyFrom M i j (findLast C (M i)) else some M
  if M i j = 0 ∧ temp1 = none then copyFromEnd R C M i j else some M

def fillOtherTable (M : CellTable) (i j : Nat) : Option CellTable := do
  let M ← if M i j = 0 ∧ findFirst C (M i) ≠ none then
    copyFrom M i j (findFirst C (M i)) else some M
  if M i j = 0 ∧ findFirst C (M i) = none then copyFromEnd R C M i j else some M

/-- The four tables `maxLikelyhood{1}` to `maxLikelyhood{4}`. -/
structure CellTables where
  nse1 : CellTable
  nse2 : CellTable
  nse3 : CellTable
  nse4 : CellTable

def fillCell (temp1 : Option Nat) (i : Nat) (t : CellTables) (j : Nat) : Option CellTables := do
  let nse1 ← fillFirstTable R C temp1 t.nse1 i j
  let nse2 ← fillOtherTable R C t.nse2 i j
  let nse3 ← fillOtherTable R C t.nse3 i j
  let nse4 ← fillOtherTable R C t.nse4 i j
  pure ⟨nse1, nse2, nse3, nse4⟩

def fillRow (t : CellTables) (i : Nat) : Option CellTables :=
  let temp1 := findFirst C (t.nse1 i)
  (List.range' 1 C).foldlM (fillCell R C temp1 i) t

def fillBlanks (t : CellTables) : Option CellTables := (List.range' 1 R).foldlM (fillRow R C) t

/-- A cell of the table. -/
def InTable (i j : Nat) : Prop := (1 ≤ i ∧ i ≤ R) ∧ 1 ≤ j ∧ j ≤ C

/-- Filled cells stay, and new ones are copies of them. -/
structure Extends (M M' : CellTable) : Prop where
  keeps : ∀ i j, M i j ≠ 0 → M' i j = M i j
  source : ∀ i j, InTable R C i j → M' i j ≠ 0 → ∃ a b, InTable R C a b ∧ M a b ≠ 0 ∧ M' i j = M a b

variable {R C} {M M' M'' : CellTable} {i j p : Nat}

theorem Extends.refl (M : CellTable) : Extends R C M M :=
  ⟨fun _ _ _ => rfl, fun i j hin hne => ⟨i, j, hin, hne, rfl⟩⟩

theorem Extends.trans (h : Extends R C M M') (h' : Extends R C M' M'') : Extends R C M M'' := by
  refine ⟨fun i j hne => ?_, fun i j hin hne => ?_⟩
  · have hsame := h.keeps i j hne
    rw [h'.keeps i j (by rwa [hsame]), hsame]
  · obtain ⟨a, b, hab, hne', heq⟩ := h'.source i j hin hne
    obtain ⟨c, d, hcd, hne'', heq'⟩ := h.source a b hab hne'
    exact ⟨c, d, hcd, hne'', heq.trans heq'⟩

theorem Extends.filled (h : Extends R C M M') (hne : M i j ≠ 0) : M' i j ≠ 0 := by
  rwa [h.keeps i j hne]

theorem extends_setEntry {a b : Nat} (hblank : M i j = 0) (hab : InTable R C a b) (hne : M a b ≠ 0) :
    Extends R C M (setEntry M i j (M a b)) := by
  refine ⟨fun i' j' hne' => setEntry_of_ne _ _ ?_, fun i' j' hin hne' => ?_⟩
  · rintro ⟨rfl, rfl⟩
    exact hne' hblank
  · by_cases hcell : i' = i ∧ j' = j
    · obtain ⟨rfl, rfl⟩ := hcell
      exact ⟨a, b, hab, hne, setEntry_same _ _ _ _⟩
    · rw [setEntry_of_ne _ _ hcell] at hne' ⊢
      exact ⟨i', j', hin, hne', rfl⟩

/-- A step of the filling: the cell is filled, with a copy. -/
def Fills (R C : Nat) (M : CellTable) (i j : Nat) (M' : CellTable) : Prop :=
  Extends R C M M' ∧ M' i j ≠ 0

theorem fills_of_filled (h : M i j ≠ 0) : Fills R C M i j M := ⟨Extends.refl M, h⟩

theorem copyFrom_fills (hblank : M i j = 0) (hi : 1 ≤ i ∧ i ≤ R) (hp : 1 ≤ p ∧ p ≤ C ∧ M i p ≠ 0) :
    Fills R C M i j (setEntry M i j (M i p)) :=
  ⟨extends_setEntry hblank ⟨hi, hp.1, hp.2.1⟩ hp.2.2, by rw [setEntry_same]; exact hp.2.2⟩

/-- Some row ends with a filled cell. -/
def EndFilled (R C : Nat) (M : CellTable) : Prop := ∃ a, 1 ≤ a ∧ a ≤ R ∧ M a C ≠ 0

theorem copyFromEnd_fills (hblank : M i j = 0) (hC : 1 ≤ C) (h : EndFilled R C M) :
    ∃ M', copyFromEnd R C M i j = some M' ∧ Fills R C M i j M' := by
  obtain ⟨a, ha, hle, hne⟩ := h
  obtain ⟨p, hp⟩ := findLast_exists (v := fun i => M i C) ha hle hne
  obtain ⟨hp1, hpR, hpne⟩ := findLast_some hp
  refine ⟨setEntry M i j (M p C), by rw [copyFromEnd, hp]; rfl, ?_, by rwa [setEntry_same]⟩
  exact extends_setEntry hblank ⟨⟨hp1, hpR⟩, hC, le_rfl⟩ hpne

theorem fillOtherTable_fills (hi : 1 ≤ i ∧ i ≤ R) (hC : 1 ≤ C)
    (h : (∃ b, 1 ≤ b ∧ b ≤ C ∧ M i b ≠ 0) ∨ EndFilled R C M) :
    ∃ M', fillOtherTable R C M i j = some M' ∧ Fills R C M i j M' := by
  unfold fillOtherTable
  by_cases hblank : M i j = 0
  · cases hfirst : findFirst C (M i) with
    | none =>
      have hend : EndFilled R C M := by
        refine h.resolve_left ?_
        rintro ⟨b, hb, hle, hne⟩
        obtain ⟨p, hp⟩ := findFirst_exists hb hle hne
        rw [hfirst] at hp
        cases hp
      obtain ⟨M', hM', hfills⟩ := copyFromEnd_fills (i := i) (j := j) hblank hC hend
      exact ⟨M', by simp [hblank, hfirst, hM'], hfills⟩
    | some p =>
      have hfills := copyFrom_fills hblank hi (findFirst_some hfirst)
      exact ⟨_, by simp [hblank, copyFrom, hfills.2], hfills⟩
  · exact ⟨M, by simp [hblank], fills_of_filled hblank⟩

theorem fillFirstTable_fills {temp1 : Option Nat} (hi : 1 ≤ i ∧ i ≤ R) (hC : 1 ≤ C)
    (hsome : ∀ p, temp1 = some p → 1 ≤ p ∧ p ≤ C ∧ M i p ≠ 0) (hnone : temp1 = none → EndFilled R C M) :
    ∃ M', fillFirstTable R C temp1 M i j = some M' ∧ Fills R C M i j M' := by
  unfold fillFirstTable
  by_cases hblank : M i j = 0
  · cases temp1 with
    | none =>
      obtain ⟨M', hM', hfills⟩ := copyFromEnd_fills (i := i) (j := j) hblank hC (hnone rfl)
      exact ⟨M', by simp [hblank, hM'], hfills⟩
    | some p =>
      obtain ⟨hp, hpC, hpne⟩ := hsome p rfl
      rcases Nat.lt_trichotomy j p with hlt | rfl | hgt
      · obtain ⟨q, hq⟩ := findFirst_exists hp hpC hpne
        have hfills := copyFrom_fills hblank hi (findFirst_some hq)
        exact ⟨_, by simp [hblank, hlt, hq, copyFrom, hfills.2], hfills⟩
      · exact absurd hblank hpne
      · obtain ⟨q, hq⟩ := findLast_exists hp hpC hpne
        have hfills := copyFrom_fills hblank hi (findLast_some hq)
        exact ⟨_, by simp [hblank, hgt, not_lt.mpr hgt.le, hq, copyFrom], hfills⟩
  · exact ⟨M, by simp [hblank], fills_of_filled hblank⟩

/-- The table of one `NSe`. -/
def CellTables.get (t : CellTables) : Nat → CellTable
  | 1 => t.nse1
  | 2 => t.nse2
  | 3 => t.nse3
  | _ => t.nse4

variable {t t' : CellTables} {temp1 : Option Nat}

variable (R C) in
/-- Each table has a filled cell for the blanks of row `i`. -/
def RowOpen (t : CellTables) (i : Nat) : Prop :=
  ∀ n, (∃ b, 1 ≤ b ∧ b ≤ C ∧ t.get n i b ≠ 0) ∨ EndFilled R C (t.get n)

variable (R C) in
/-- The same, with the first filled cell of the first table. -/
structure RowReady (temp1 : Option Nat) (t : CellTables) (i : Nat) : Prop where
  someFilled : ∀ p, temp1 = some p → 1 ≤ p ∧ p ≤ C ∧ t.nse1 i p ≠ 0
  noneFilled : temp1 = none → EndFilled R C t.nse1
  rowOpen : RowOpen R C t i

theorem EndFilled.extends (h : EndFilled R C M) (hM : Extends R C M M') : EndFilled R C M' := by
  obtain ⟨a, ha, hle, hne⟩ := h
  exact ⟨a, ha, hle, hM.filled hne⟩

theorem RowReady.extends (h : RowReady R C temp1 t i) (ht : ∀ n, Extends R C (t.get n) (t'.get n)) :
    RowReady R C temp1 t' i := by
  refine ⟨fun p hp => ?_, fun hnone => (h.noneFilled hnone).extends (ht 1), fun n => ?_⟩
  · obtain ⟨hp1, hpC, hne⟩ := h.someFilled p hp
    exact ⟨hp1, hpC, (ht 1).filled hne⟩
  · rcases h.rowOpen n with ⟨b, hb, hle, hne⟩ | hend
    · exact Or.inl ⟨b, hb, hle, (ht n).filled hne⟩
    · exact Or.inr (hend.extends (ht n))

theorem fillCell_fills (hi : 1 ≤ i ∧ i ≤ R) (hC : 1 ≤ C) (h : RowReady R C temp1 t i) (j : Nat) :
    ∃ t', fillCell R C temp1 i t j = some t' ∧ ∀ n, Fills R C (t.get n) i j (t'.get n) := by
  obtain ⟨m1, h1, hfills1⟩ := fillFirstTable_fills (j := j) hi hC h.someFilled h.noneFilled
  obtain ⟨m2, h2, hfills2⟩ := fillOtherTable_fills (M := t.nse2) (j := j) hi hC (h.rowOpen 2)
  obtain ⟨m3, h3, hfills3⟩ := fillOtherTable_fills (M := t.nse3) (j := j) hi hC (h.rowOpen 3)
  obtain ⟨m4, h4, hfills4⟩ := fillOtherTable_fills (M := t.nse4) (j := j) hi hC (h.rowOpen 4)
  refine ⟨⟨m1, m2, m3, m4⟩, by simp [fillCell, h1, h2, h3, h4], fun n => ?_⟩
  match n with
  | 1 => exact hfills1
  | 2 => exact hfills2
  | 3 => exact hfills3
  | 0 => exact hfills4
  | n + 4 => exact hfills4

theorem fillCell_foldlM (hi : 1 ≤ i ∧ i ≤ R) (hC : 1 ≤ C) (h : RowReady R C temp1 t i) (js : List Nat) :
    ∃ t', js.foldlM (fillCell R C temp1 i) t = some t' ∧
      ∀ n, Extends R C (t.get n) (t'.get n) ∧ ∀ j ∈ js, t'.get n i j ≠ 0 := by
  induction js generalizing t with
  | nil => exact ⟨t, rfl, fun n => ⟨Extends.refl _, by simp⟩⟩
  | cons j js ih =>
    obtain ⟨mid, hmid, hfills⟩ := fillCell_fills hi hC h j
    obtain ⟨t', ht', hrest⟩ := ih (h.extends fun n => (hfills n).1)
    refine ⟨t', by rw [List.foldlM_cons, hmid]; exact ht', fun n => ?_⟩
    obtain ⟨hext, hall⟩ := hrest n
    exact ⟨(hfills n).1.trans hext, List.forall_mem_cons.mpr ⟨hext.filled (hfills n).2, hall⟩⟩

theorem fillRow_fills (hi : 1 ≤ i ∧ i ≤ R) (hC : 1 ≤ C) (h : RowOpen R C t i) :
    ∃ t', fillRow R C t i = some t' ∧
      ∀ n, Extends R C (t.get n) (t'.get n) ∧ ∀ j, 1 ≤ j → j ≤ C → t'.get n i j ≠ 0 := by
  have hready : RowReady R C (findFirst C (t.nse1 i)) t i := by
    refine ⟨fun p hp => findFirst_some hp, fun hnone => (h 1).resolve_left ?_, h⟩
    rintro ⟨b, hb, hle, hne⟩
    obtain ⟨p, hp⟩ : ∃ p, findFirst C (t.nse1 i) = some p := findFirst_exists hb hle hne
    rw [hnone] at hp
    cases hp
  obtain ⟨t', ht', hall⟩ := fillCell_foldlM hi hC hready (List.range' 1 C)
  refine ⟨t', ht', fun n => ⟨(hall n).1, fun j hj hle => (hall n).2 j ?_⟩⟩
  exact List.mem_range'_1.mpr ⟨hj, by omega⟩

/-- A filled row ends with a filled cell, so the next row has one to copy. -/
theorem fillRow_foldlM (len : Nat) (hC : 1 ≤ C) (hi : 1 ≤ i) (hR : i + len ≤ R + 1)
    (h : RowOpen R C t i) :
    ∃ t', (List.range' i len).foldlM (fillRow R C) t = some t' ∧
      ∀ n, Extends R C (t.get n) (t'.get n) ∧
        ∀ i' ∈ List.range' i len, ∀ j, 1 ≤ j → j ≤ C → t'.get n i' j ≠ 0 := by
  induction len generalizing i t with
  | zero => exact ⟨t, rfl, fun n => ⟨Extends.refl _, by simp⟩⟩
  | succ len ih =>
    obtain ⟨mid, hmid, hrow⟩ := fillRow_fills ⟨hi, by omega⟩ hC h
    have hnext : RowOpen R C mid (i + 1) := fun n =>
      Or.inr ⟨i, hi, by omega, (hrow n).2 C hC le_rfl⟩
    obtain ⟨t', ht', hrest⟩ := ih (by omega) (by omega) hnext
    refine ⟨t', by rw [List.range'_succ, List.foldlM_cons, hmid]; exact ht', fun n => ?_⟩
    obtain ⟨hext, hall⟩ := hrest n
    refine ⟨(hrow n).1.trans hext, ?_⟩
    rw [List.range'_succ]
    exact List.forall_mem_cons.mpr ⟨fun j hj hle => hext.filled ((hrow n).2 j hj hle), hall⟩

theorem fillBlanks_fills (hC : 1 ≤ C) (h : RowOpen R C t 1) :
    ∃ t', fillBlanks R C t = some t' ∧
      ∀ n, Extends R C (t.get n) (t'.get n) ∧ ∀ i j, InTable R C i j → t'.get n i j ≠ 0 := by
  obtain ⟨t', ht', hall⟩ := fillRow_foldlM R hC le_rfl (by omega) h
  refine ⟨t', ht', fun n => ⟨(hall n).1, fun i j hin => (hall n).2 i ?_ j hin.2.1 hin.2.2⟩⟩
  exact List.mem_range'_1.mpr ⟨hin.1.1, by have := hin.1.2; omega⟩

end Fill

section Passes

variable {K : Type} [Field K] [LinearOrder K] {R C : Nat}

def likelyhoodTables (hist : Histograms K) : CellTables :=
  ⟨maxLikelyhood hist 1, maxLikelyhood hist 2, maxLikelyhood hist 3, maxLikelyhood hist 4⟩

/-- The passes over the tables, with the density of each cell in the end. -/
def threshElimProcessing (R C : Nat) (hist : Histograms K) : Option (Nat → Nat → Nat → ℚ) :=
  (fillBlanks R C (likelyhoodTables hist)).map fun t n i j => interpretation (t.get n i j)

theorem likelyhoodTables_get (hist : Histograms K) {n : Nat} (hn : 1 ≤ n) (hn' : n ≤ 4) :
    (likelyhoodTables hist).get n = maxLikelyhood hist n := by
  rcases (show n = 1 ∨ n = 2 ∨ n = 3 ∨ n = 4 by omega) with rfl | rfl | rfl | rfl <;> rfl

/-- All passes succeed when the first threshold was observed, and give every cell the density that
is most likely there or at an observed cell of the same table. -/
theorem threshElimProcessing_densities (hist : Histograms K)
    (hfirst : ∀ n, 1 ≤ n → n ≤ 4 → ∃ j, 1 ≤ j ∧ j ≤ C ∧ Observed hist n 1 j) :
    ∃ t, fillBlanks R C (likelyhoodTables hist) = some t ∧
      threshElimProcessing R C hist = some (fun n i j => interpretation (t.get n i j)) ∧
      ∀ n, 1 ≤ n → n ≤ 4 → ∀ i j, InTable R C i j →
        t.get n i j ≠ 0 ∧
        (Observed hist n i j → t.get n i j = maxLikelyhood hist n i j ∧
          ∃ d < 6, MostLikely hist n i j (n + 4 * d) ∧ interpretation (t.get n i j) = density d) ∧
        (¬Observed hist n i j → ∃ a b, InTable R C a b ∧ Observed hist n a b ∧
          interpretation (t.get n i j) = interpretation (t.get n a b)) := by
  have hC : 1 ≤ C := by
    obtain ⟨j, hj, hle, _⟩ := hfirst 1 le_rfl (by decide)
    omega
  have hfilled : ∀ n, 1 ≤ n → n ≤ 4 →
      ∃ b, 1 ≤ b ∧ b ≤ C ∧ (likelyhoodTables hist).get n 1 b ≠ 0 := by
    intro n hn hn'
    obtain ⟨j, hj, hle, hobserved⟩ := hfirst n hn hn'
    refine ⟨j, hj, hle, ?_⟩
    rw [likelyhoodTables_get hist hn hn']
    exact (maxLikelyhood_spec hn).1.mpr hobserved
  have hopen : RowOpen R C (likelyhoodTables hist) 1 := by
    intro n
    match n with
    | 1 => exact Or.inl (hfilled 1 le_rfl (by decide))
    | 2 => exact Or.inl (hfilled 2 (by decide) (by decide))
    | 3 => exact Or.inl (hfilled 3 (by decide) (by decide))
    | 0 => exact Or.inl (hfilled 4 (by decide) le_rfl)
    | n + 4 => exact Or.inl (hfilled 4 (by decide) le_rfl)
  obtain ⟨t, ht, hall⟩ := fillBlanks_fills hC hopen
  refine ⟨t, ht, by rw [threshElimProcessing, ht]; rfl, fun n hn hn' i j hin => ?_⟩
  obtain ⟨hext, hne⟩ := hall n
  rw [likelyhoodTables_get hist hn hn'] at hext
  refine ⟨hne i j hin, fun hobserved => ?_, fun _ => ?_⟩
  · have hvalue := (maxLikelyhood_spec hn).1.mpr hobserved
    have hlikely := (maxLikelyhood_spec hn).2 hvalue
    have hsame := hext.keeps i j hvalue
    obtain ⟨d, hd, hindex⟩ := List.mem_range'.mp hlikely.1
    rw [hindex] at hlikely
    refine ⟨hsame, d, hd, hlikely, ?_⟩
    rw [hsame, hindex, interpretation_eq hn hn' hd]
  · obtain ⟨a, b, hab, hvalue, heq⟩ := hext.source i j hin (hne i j hin)
    refine ⟨a, b, hab, (maxLikelyhood_spec hn).1.mp hvalue, ?_⟩
    rw [heq, hext.keeps a b hvalue]

end Passes

/-- Every density has its only observation in the corner of the table. -/
def cornerHistograms : Histograms ℚ where
  freq := fun _ i j => if i = 1 ∧ j = 1 then some 1 else none
  mem_unit := by
    intro k i j x hx
    split at hx
    next =>
      obtain rfl := Option.some.inj hx
      exact ⟨zero_le_one, le_rfl⟩
    next => cases hx

theorem threshElimProcessing_densities_corner :
    ∃ t, fillBlanks 37 104 (likelyhoodTables cornerHistograms) = some t ∧
      threshElimProcessing 37 104 cornerHistograms = some (fun n i j => interpretation (t.get n i j)) ∧
      ∀ n, 1 ≤ n → n ≤ 4 → ∀ i j, InTable 37 104 i j →
        t.get n i j ≠ 0 ∧
        (Observed cornerHistograms n i j → t.get n i j = maxLikelyhood cornerHistograms n i j ∧
          ∃ d < 6, MostLikely cornerHistograms n i j (n + 4 * d) ∧
            interpretation (t.get n i j) = density d) ∧
        (¬Observed cornerHistograms n i j → ∃ a b, InTable 37 104 a b ∧
          Observed cornerHistograms n a b ∧
          interpretation (t.get n i j) = interpretation (t.get n a b)) :=
  threshElimProcessing_densities cornerHistograms fun n _ _ =>
    ⟨1, le_rfl, by decide, n, List.mem_range'.mpr ⟨0, by decide, rfl⟩, 1, rfl, one_pos⟩

end SidelinkORe
