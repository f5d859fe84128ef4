import SidelinkORe.MatlabArray
import SidelinkORe.MixedRadix
import Mathlib.Algebra.GroupWithZero.Nat

namespace SidelinkORe

/-- Increments the index at position `n`. An index beyond its maximum starts again and the next
position is incremented; a position without an index is an error. -/
def itterIndex (indexes : List Nat) (n : Nat) (max : List Nat) : Option (List Nat) :=
  match hi : entryAt indexes n, entryAt max n with
  | some i, some m =>
    if m < i + 1 then itterIndex (indexes.set (n - 1) 1) (n + 1) max
    else some (indexes.set (n - 1) (i + 1))
  | _, _ => none
termination_by indexes.length + 1 - n
decreasing_by
  cases n with
  | zero => cases hi
  | succ n =>
    obtain ⟨hlt, _⟩ := List.getElem?_eq_some_iff.mp hi
    simp only [List.length_set]
    omega

/-- The columns of one parameter matrix. -/
structure ParameterColumns (α : Type) where
  height : Nat
  columns : List (List α)
  height_eq : ∀ column ∈ columns, column.length = height

section Maker

variable {α : Type}

/-- One row of the result: the chosen columns of all parameters side by side. -/
def currentParams : List (ParameterColumns α) → List Nat → Option (List α)
  | [], _ => some []
  | p :: ps, i :: index => do
    let column ← entryAt p.columns i
    let rest ← currentParams ps index
    pure (column ++ rest)
  | _ :: _, [] => none

def paramsLoop (varArgIn : List (ParameterColumns α)) (max : List Nat) :
    Nat → List Nat → List (List α) → Option (List (List α))
  | 0, _, params => some params
  | rounds + 1, index, params => do
    let index ← itterIndex index 1 max
    let row ← currentParams varArgIn index
    paramsLoop varArgIn max rounds index (params ++ [row])

def parameterSizes (varArgIn : List (ParameterColumns α)) : List Nat :=
  varArgIn.map fun p => p.columns.length

/-- `[0,ones(1,L-1)]` -/
def startIndex (L : Nat) : List Nat := 0 :: List.replicate (L - 1) 1

def parameterVariableMaker (varArgIn : List (ParameterColumns α)) : Option (List (List α)) :=
  let max := parameterSizes varArgIn
  paramsLoop varArgIn max max.prod (startIndex varArgIn.length) []

end Maker

/-- The index vectors after each of the first calls of `itterIndex`. -/
def callsFrom (max : List Nat) : Nat → List Nat → Option (List (List Nat))
  | 0, _ => some []
  | rounds + 1, index => do
    let next ← itterIndex index 1 max
    let rest ← callsFrom max rounds next
    pure (next :: rest)

/-- Every component is within `1..max(j)`. -/
def IndexInRange (max index : List Nat) : Prop := List.Forall₂ (fun m i => 1 ≤ i ∧ i ≤ m) max index

/-- The row is made of the columns that the index vector names, one of each parameter. -/
def IsRow {α : Type} (varArgIn : List (ParameterColumns α)) (index : List Nat) (row : List α) : Prop :=
  ∃ columns : List (List α), row = columns.flatten ∧ columns.length = varArgIn.length ∧
    ∀ (j i : Nat) (p : ParameterColumns α), varArgIn[j]? = some p → index[j]? = some i →
      1 ≤ i ∧ ∃ column, p.columns[i - 1]? = some column ∧ columns[j]? = some column

section Counting

variable {max pre preMax ds index : List Nat} {i m n : Nat}

theorem entryAt_append (h : pre.length = n) : entryAt (pre ++ i :: index) (n + 1) = some i := by
  subst h
  simp [entryAt]

theorem itterIndex_cons (hpre : pre.length = n) (hmax : preMax.length = n) :
    itterIndex (pre ++ i :: index) (n + 1) (preMax ++ m :: max) =
      if m < i + 1 then itterIndex (pre ++ 1 :: index) (n + 2) (preMax ++ m :: max)
      else some (pre ++ (i + 1) :: index) := by
  have hset : ∀ k, (pre ++ i :: index).set n k = pre ++ k :: index := by
    intro k
    simp [hpre]
  rw [itterIndex, entryAt_append hpre, entryAt_append hmax]
  simp only [Nat.add_sub_cancel, hset]

theorem itterIndex_end (hmax : preMax.length = n) : itterIndex pre (n + 1) preMax = none := by
  have hend : entryAt preMax (n + 1) = none := by simp [entryAt, hmax]
  rw [itterIndex]
  split
  next _ _ _ hm =>
    rw [hend] at hm
    cases hm
  next => rfl

/-- On indices that count from 1, `itterIndex` is the next number in the bases `max`. -/
theorem itterIndex_eq (h : IsDigits max ds) (hpre : pre.length = n) (hmax : preMax.length = n) :
    itterIndex (pre ++ ds.map (· + 1)) (n + 1) (preMax ++ max) =
      (radixSucc max ds).map fun es => pre ++ es.map (· + 1) := by
  induction h generalizing pre preMax n with
  | nil =>
    rw [List.append_nil, itterIndex_end hmax]
    rfl
  | @cons m d max ds hd hds ih =>
    rw [List.map_cons, itterIndex_cons hpre hmax, radixSucc]
    by_cases hnext : d + 1 < m
    · rw [if_neg (by omega), if_pos hnext]
      rfl
    · have ih' := @ih (pre ++ [1]) (preMax ++ [m]) (n + 1) (by simp [hpre]) (by simp [hmax])
      simp only [List.append_assoc, List.cons_append, List.nil_append] at ih'
      rw [if_pos (by omega), if_neg hnext, ih', Option.map_map]
      rfl

theorem callsFrom_counts (rounds : Nat) (h : IsDigits max ds)
    (hlt : radixValue max ds + rounds < max.prod) :
    ∃ runs : List (List Nat),
      callsFrom max rounds (ds.map (· + 1)) = some (runs.map (List.map (· + 1))) ∧
      (∀ es ∈ runs, IsDigits max es) ∧
      runs.map (radixValue max) = List.range' (radixValue max ds + 1) rounds := by
  induction rounds generalizing ds with
  | zero => exact ⟨[], rfl, by simp, rfl⟩
  | succ rounds ih =>
    obtain ⟨es, hes, hdigits, hvalue⟩ := radixSucc_exists h (by omega)
    have hcall : itterIndex (ds.map (· + 1)) 1 max = some (es.map (· + 1)) := by
      have heq := @itterIndex_eq max [] [] ds 0 h rfl rfl
      rwa [hes] at heq
    obtain ⟨runs, hruns, hall, hvalues⟩ := ih hdigits (by omega)
    refine ⟨es :: runs, ?_, ?_, ?_⟩
    · simp only [callsFrom, hcall, Option.bind_eq_bind, Option.bind_some, hruns]
      rfl
    · exact List.forall_mem_cons.mpr ⟨hdigits, hall⟩
    · rw [List.map_cons, hvalues, hvalue, List.range'_succ]

/-- The first call only raises the 0 to 1. -/
theorem itterIndex_start (hne : max ≠ []) (hpos : ∀ m ∈ max, 0 < m) :
    itterIndex (startIndex max.length) 1 max =
      some ((List.replicate max.length 0).map (· + 1)) := by
  obtain ⟨m, max, rfl⟩ := List.exists_cons_of_ne_nil hne
  have hm := hpos m List.mem_cons_self
  have hcons := @itterIndex_cons max [] [] (List.replicate max.length 1) 0 m 0 rfl rfl
  rw [if_neg (by omega)] at hcons
  simpa [startIndex, List.replicate_succ] using hcons

theorem indexInRange_iff : IndexInRange max index ↔ ∃ ds, IsDigits max ds ∧ index = ds.map (· + 1) := by
  constructor
  · intro h
    induction h with
    | nil => exact ⟨[], List.Forall₂.nil, rfl⟩
    | @cons m i max index hi _ ih =>
      obtain ⟨ds, hds, rfl⟩ := ih
      refine ⟨(i - 1) :: ds, isDigits_cons.mpr ⟨by omega, hds⟩, ?_⟩
      rw [List.map_cons, Nat.sub_add_cancel hi.1]
  · rintro ⟨ds, hds, rfl⟩
    induction hds with
    | nil => exact List.Forall₂.nil
    | cons hd _ ih => exact List.Forall₂.cons ⟨Nat.succ_pos _, hd⟩ ih

theorem callsFrom_complete (hne : max ≠ []) (hpos : ∀ m ∈ max, 0 < m) :
    ∃ calls, callsFrom max max.prod (startIndex max.length) = some calls ∧ calls.Nodup ∧
      ∀ index, index ∈ calls ↔ IndexInRange max index := by
  have hprod := radixValue_lt (isDigits_zero hpos)
  obtain ⟨rounds, hrounds⟩ := Nat.exists_eq_add_of_lt hprod
  rw [radixValue_zero, Nat.zero_add] at hrounds
  obtain ⟨runs, hruns, hall, hvalues⟩ :=
    callsFrom_counts rounds (isDigits_zero hpos) (by rw [radixValue_zero]; omega)
  have hdigits : ∀ ds ∈ List.replicate max.length 0 :: runs, IsDigits max ds :=
    List.forall_mem_cons.mpr ⟨isDigits_zero hpos, hall⟩
  have hcount : (List.replicate max.length 0 :: runs).map (radixValue max) = List.range max.prod := by
    rw [List.map_cons, hvalues, radixValue_zero, hrounds, List.range_eq_range', List.range'_succ]
  obtain ⟨hnodup, hmem⟩ := counting_complete hdigits hcount
  have hinj : Function.Injective (List.map (· + 1) : List Nat → List Nat) :=
    List.map_injective_iff.mpr (add_left_injective 1)
  refine ⟨(List.replicate max.length 0 :: runs).map (List.map (· + 1)), ?_, hnodup.map hinj, ?_⟩
  · simp only [hrounds, callsFrom, itterIndex_start hne hpos, Option.bind_eq_bind,
      Option.bind_some, hruns]
    rfl
  · intro index
    rw [indexInRange_iff, List.mem_map]
    constructor
    · rintro ⟨ds, hds, rfl⟩
      exact ⟨ds, (hmem ds).mp hds, rfl⟩
    · rintro ⟨ds, hds, rfl⟩
      exact ⟨ds, (hmem ds).mpr hds, rfl⟩

end Counting

section Rows

variable {α : Type} {varArgIn : List (ParameterColumns α)} {index : List Nat}

theorem isRow_nil : IsRow ([] : List (ParameterColumns α)) [] [] := by
  refine ⟨[], rfl, rfl, fun j i p hp _ => ?_⟩
  simp at hp

theorem IsRow.cons {p : ParameterColumns α} {ps : List (ParameterColumns α)} {row : List α}
    (h : IsRow ps index row) {k : Nat} (hk : k < p.columns.length) :
    IsRow (p :: ps) ((k + 1) :: index) (p.columns[k] ++ row) := by
  obtain ⟨columns, rfl, hlength, hnamed⟩ := h
  refine ⟨p.columns[k] :: columns, rfl, by simp [hlength], fun j i q hq hi => ?_⟩
  cases j with
  | zero =>
    obtain rfl := Option.some.inj hq
    obtain rfl := Option.some.inj hi
    exact ⟨by omega, p.columns[k], List.getElem?_eq_getElem hk, rfl⟩
  | succ j => exact hnamed j i q hq hi

theorem currentParams_exists (h : IndexInRange (parameterSizes varArgIn) index) :
    ∃ row, currentParams varArgIn index = some row ∧ row.length = (varArgIn.map (·.height)).sum ∧
      IsRow varArgIn index row := by
  induction varArgIn generalizing index with
  | nil =>
    cases h
    exact ⟨[], rfl, rfl, isRow_nil⟩
  | cons p ps ih =>
    cases h with
    | @cons _ i _ index hi hindex =>
      obtain ⟨rest, hrest, hlength, hrow⟩ := ih hindex
      obtain ⟨k, rfl⟩ := Nat.exists_eq_add_of_le' hi.1
      have hk : k < p.columns.length := hi.2
      have hheight := p.height_eq p.columns[k] (List.getElem_mem hk)
      exact ⟨p.columns[k] ++ rest, by simp [currentParams, entryAt, hk, hrest],
        by simp [hheight, hlength], hrow.cons hk⟩

theorem currentParams_rows {calls : List (List Nat)}
    (h : ∀ index ∈ calls, IndexInRange (parameterSizes varArgIn) index) :
    ∃ rows, calls.mapM (currentParams varArgIn) = some rows ∧
      (∀ row ∈ rows, row.length = (varArgIn.map (·.height)).sum) ∧
      List.Forall₂ (IsRow varArgIn) calls rows := by
  induction calls with
  | nil => exact ⟨[], rfl, by simp, List.Forall₂.nil⟩
  | cons index calls ih =>
    obtain ⟨hindex, hcalls⟩ := List.forall_mem_cons.mp h
    obtain ⟨row, hrow, hlength, hnamed⟩ := currentParams_exists hindex
    obtain ⟨rows, hrows, hlengths, hall⟩ := ih hcalls
    refine ⟨row :: rows, ?_, List.forall_mem_cons.mpr ⟨hlength, hlengths⟩,
      List.Forall₂.cons hnamed hall⟩
    simp [List.mapM_cons, hrow, hrows]

/-- The loop adds the row of the index vector of each call. -/
theorem paramsLoop_eq {max : List Nat} {rounds : Nat} {calls : List (List Nat)}
    {params rows : List (List α)} (hcalls : callsFrom max rounds index = some calls)
    (hrows : calls.mapM (currentParams varArgIn) = some rows) :
    paramsLoop varArgIn max rounds index params = some (params ++ rows) := by
  induction rounds generalizing index calls params rows with
  | zero =>
    cases Option.some.inj hcalls
    cases Option.some.inj hrows
    simp [paramsLoop]
  | succ rounds ih =>
    obtain ⟨next, hnext, hcalls⟩ := Option.bind_eq_some_iff.mp hcalls
    obtain ⟨rest, hrest, hcalls⟩ := Option.bind_eq_some_iff.mp hcalls
    cases Option.some.inj hcalls
    rw [List.mapM_cons] at hrows
    obtain ⟨row, hrow, hrows⟩ := Option.bind_eq_some_iff.mp hrows
    obtain ⟨rowsRest, hrowsRest, hrows⟩ := Option.bind_eq_some_iff.mp hrows
    cases Option.some.inj hrows
    simp only [paramsLoop, hnext, hrow, Option.bind_eq_bind, Option.bind_some, ih hrest hrowsRest,
      List.append_assoc, List.cons_append, List.nil_append]

/-- The calls of `itterIndex` meet every combination of columns once, and the matrix has one row
for each call, which holds the columns of its combination. -/
theorem parameterVariableMaker_rows (hne : varArgIn ≠ [])
    (hpos : ∀ p ∈ varArgIn, p.columns ≠ []) :
    ∃ calls rows,
      callsFrom (parameterSizes varArgIn) (parameterSizes varArgIn).prod
        (startIndex varArgIn.length) = some calls ∧
      calls.Nodup ∧ (∀ index, index ∈ calls ↔ IndexInRange (parameterSizes varArgIn) index) ∧
      calls.mapM (currentParams varArgIn) = some rows ∧
      (∀ row ∈ rows, row.length = (varArgIn.map (·.height)).sum) ∧
      List.Forall₂ (IsRow varArgIn) calls rows ∧
      parameterVariableMaker varArgIn = some rows := by
  have hsizes : ∀ m ∈ parameterSizes varArgIn, 0 < m := by
    intro m hm
    obtain ⟨p, hp, rfl⟩ := List.mem_map.mp hm
    exact List.length_pos_of_ne_nil (hpos p hp)
  have hlength : (parameterSizes varArgIn).length = varArgIn.length := List.length_map _
  have hsizesNe : parameterSizes varArgIn ≠ [] := by simpa [parameterSizes] using hne
  obtain ⟨calls, hcalls, hnodup, hmem⟩ := callsFrom_complete hsizesNe hsizes
  rw [hlength] at hcalls
  obtain ⟨rows, hrows, hlengths, hall⟩ :=
    currentParams_rows fun index hindex => (hmem index).mp hindex
  exact ⟨calls, rows, hcalls, hnodup, hmem, hrows, hlengths, hall, paramsLoop_eq hcalls hrows⟩

/-- Two distances and three densities give six rows. -/
theorem parameterVariableMaker_rows_six :
    let varArgIn : List (ParameterColumns Nat) :=
      [⟨1, [[25], [50]], by decide⟩, ⟨2, [[1, 2], [3, 4], [5, 6]], by decide⟩]
    ∃ calls rows,
      callsFrom (parameterSizes varArgIn) (parameterSizes varArgIn).prod
        (startIndex varArgIn.length) = some calls ∧
      calls.Nodup ∧ (∀ index, index ∈ calls ↔ IndexInRange (parameterSizes varArgIn) index) ∧
      calls.mapM (currentParams varArgIn) = some rows ∧
      (∀ row ∈ rows, row.length = (varArgIn.map (·.height)).sum) ∧
      List.Forall₂ (IsRow varArgIn) calls rows ∧
      parameterVariableMaker varArgIn = some rows :=
  parameterVariableMaker_rows (List.cons_ne_nil _ _) (by simp)

end Rows

end SidelinkORe
