import Mathlib.Data.List.Basic
import Mathlib.Tactic.Linarith

namespace SidelinkORe

section Rising

variable {l : List Nat} {a i x : Nat}

theorem rising_lt {j y : Nat} (hl : l.Pairwise (· < ·)) (hx : l[i]? = some x) (hy : l[j]? = some y)
    (hij : i < j) : x < y := by
  obtain ⟨hi, rfl⟩ := List.getElem?_eq_some_iff.mp hx
  obtain ⟨hj, rfl⟩ := List.getElem?_eq_some_iff.mp hy
  exact List.pairwise_iff_getElem.mp hl i j hi hj hij

/-- A rising list of numbers from `a` on has passed `a + i` at position `i`. -/
theorem rising_le (hl : l.Pairwise (· < ·)) (hlow : ∀ y ∈ l, a ≤ y) (hx : l[i]? = some x) :
    a + i ≤ x := by
  induction i generalizing x with
  | zero => exact hlow x (List.mem_of_getElem? hx)
  | succ i ih =>
    obtain ⟨hi, _⟩ := List.getElem?_eq_some_iff.mp hx
    have hprev : l[i]? = some l[i] := List.getElem?_eq_getElem (by omega)
    have hle := ih hprev
    have hlt := rising_lt hl hprev hx (Nat.lt_succ_self i)
    omega

/-- Position `i` holds `a + i` exactly when no number up to it is left out. -/
theorem rising_at_iff (hl : l.Pairwise (· < ·)) (hlow : ∀ y ∈ l, a ≤ y) :
    l[i]? = some (a + i) ↔ ∀ m, a ≤ m → m ≤ a + i → m ∈ l := by
  constructor
  · intro hat m hm hmi
    induction i with
    | zero =>
      obtain rfl : m = a := by omega
      exact List.mem_of_getElem? hat
    | succ i ih =>
      by_cases hlast : m = a + (i + 1)
      · rw [hlast]
        exact List.mem_of_getElem? hat
      · obtain ⟨hi, _⟩ := List.getElem?_eq_some_iff.mp hat
        have hprev : l[i]? = some l[i] := List.getElem?_eq_getElem (by omega)
        have hle := rising_le hl hlow hprev
        have hlt := rising_lt hl hprev hat (Nat.lt_succ_self i)
        have heq : l[i] = a + i := by omega
        rw [heq] at hprev
        exact ih hprev (by omega)
  · intro hall
    induction i using Nat.strong_induction_on with
    | _ i ih =>
      obtain ⟨p, hp⟩ := List.mem_iff_getElem?.mp (hall (a + i) (by omega) le_rfl)
      have hle := rising_le hl hlow hp
      rcases Nat.lt_or_ge p i with hlt | hge
      · have hat := ih p hlt fun m hm hmp => hall m hm (by omega)
        have hval := Option.some.inj (hat.symm.trans hp)
        omega
      · obtain rfl : p = i := by omega
        exact hp

theorem rising_of_nodup {α : Type} {key : α → Nat} {l : List α}
    (hsorted : l.Pairwise fun a b => key a ≤ key b) (hnodup : (l.map key).Nodup) :
    l.Pairwise fun a b => key a < key b := by
  have hne : l.Pairwise fun a b => key a ≠ key b := List.pairwise_map.mp hnodup
  refine (hsorted.and hne).imp fun hab => ?_
  exact Nat.lt_of_le_of_ne hab.1 hab.2

end Rising

end SidelinkORe
