import Mathlib.Data.List.Basic

namespace SidelinkORe

/-- The entry at a position counted from 1. -/
def entryAt {α : Type} (l : List α) : Nat → Option α
  | 0 => none
  | n + 1 => l[n]?

section Matrix

variable {α : Type}

/-- `temp(i,j) = v` -/
def setEntry (temp : Nat → Nat → α) (i j : Nat) (v : α) : Nat → Nat → α :=
  fun i' j' => if i' = i ∧ j' = j then v else temp i' j'

theorem setEntry_same (temp : Nat → Nat → α) (i j : Nat) (v : α) : setEntry temp i j v i j = v :=
  if_pos ⟨rfl, rfl⟩

theorem setEntry_of_ne {i j i' j' : Nat} (temp : Nat → Nat → α) (v : α) (h : ¬(i' = i ∧ j' = j)) :
    setEntry temp i j v i' j' = temp i' j' :=
  if_neg h

end Matrix

section Find

variable {n k : Nat} {v : Nat → Nat}

/-- `find(v>0,1,'first')` for a vector of length `n`. -/
def findFirst (n : Nat) (v : Nat → Nat) : Option Nat :=
  (List.range' 1 n).find? fun k => decide (0 < v k)

/-- `find(v>0,1,'last')` -/
def findLast (n : Nat) (v : Nat → Nat) : Option Nat :=
  (List.range' 1 n).reverse.find? fun k => decide (0 < v k)

theorem findFirst_some (h : findFirst n v = some k) : 1 ≤ k ∧ k ≤ n ∧ v k ≠ 0 := by
  have hmem := List.mem_range'_1.mp (List.mem_of_find?_eq_some h)
  have hpos := of_decide_eq_true (List.find?_some (p := fun k => decide (0 < v k)) h)
  omega

theorem findLast_some (h : findLast n v = some k) : 1 ≤ k ∧ k ≤ n ∧ v k ≠ 0 := by
  have hmem := List.mem_range'_1.mp (List.mem_reverse.mp (List.mem_of_find?_eq_some h))
  have hpos := of_decide_eq_true (List.find?_some (p := fun k => decide (0 < v k)) h)
  omega

theorem findFirst_exists (hk : 1 ≤ k) (hle : k ≤ n) (h : v k ≠ 0) : ∃ p, findFirst n v = some p := by
  refine Option.isSome_iff_exists.mp (List.find?_isSome.mpr ⟨k, ?_, ?_⟩)
  · exact List.mem_range'_1.mpr ⟨hk, by omega⟩
  · exact decide_eq_true (Nat.pos_of_ne_zero h)

theorem findLast_exists (hk : 1 ≤ k) (hle : k ≤ n) (h : v k ≠ 0) : ∃ p, findLast n v = some p := by
  refine Option.isSome_iff_exists.mp (List.find?_isSome.mpr ⟨k, ?_, ?_⟩)
  · exact List.mem_reverse.mpr (List.mem_range'_1.mpr ⟨hk, by omega⟩)
  · exact decide_eq_true (Nat.pos_of_ne_zero h)

end Find

end SidelinkORe
