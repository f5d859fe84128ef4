import Mathlib.Algebra.BigOperators.Group.List.Basic
import Mathlib.Data.List.Forall2
import Mathlib.Data.List.Nodup

namespace SidelinkORe

/-- The number with the digits `ds` in the bases `bs`, the lowest digit first. -/
def radixValue : List Nat → List Nat → Nat
  | b :: bs, d :: ds => d + b * radixValue bs ds
  | _, _ => 0

/-- One digit for each base, and below it. -/
def IsDigits (bs ds : List Nat) : Prop := List.Forall₂ (fun b d => d < b) bs ds

/-- The next number. A digit at its base starts again and carries. -/
def radixSucc : List Nat → List Nat → Option (List Nat)
  | b :: bs, d :: ds => if d + 1 < b then some ((d + 1) :: ds) else (radixSucc bs ds).map (0 :: ·)
  | _, _ => none

variable {b d : Nat} {bs ds es : List Nat} {runs : List (List Nat)}

theorem isDigits_cons : IsDigits (b :: bs) (d :: ds) ↔ d < b ∧ IsDigits bs ds :=
  List.forall₂_cons

theorem radixValue_lt (h : IsDigits bs ds) : radixValue bs ds < bs.prod := by
  induction h with
  | nil => simp [radixValue]
  | @cons b d bs ds hd hds ih =>
    have hstep : b * (radixValue bs ds + 1) ≤ b * bs.prod := Nat.mul_le_mul_left b ih
    rw [Nat.mul_succ] at hstep
    simp only [radixValue, List.prod_cons]
    omega

theorem radixValue_injective (hds : IsDigits bs ds) (hes : IsDigits bs es)
    (h : radixValue bs ds = radixValue bs es) : ds = es := by
  induction hds generalizing es with
  | nil => cases hes; rfl
  | @cons b d bs ds hd hds ih =>
    cases hes with
    | @cons _ e _ es he hes =>
      have hb : 0 < b := by omega
      simp only [radixValue] at h
      have hlow := congrArg (· % b) h
      have hhigh := congrArg (· / b) h
      simp only [Nat.add_mul_mod_self_left, Nat.mod_eq_of_lt hd, Nat.mod_eq_of_lt he] at hlow
      simp only [Nat.add_mul_div_left _ _ hb, Nat.div_eq_of_lt hd, Nat.div_eq_of_lt he,
        Nat.zero_add] at hhigh
      rw [hlow, ih hes hhigh]

theorem radixSucc_exists (h : IsDigits bs ds) (hlt : radixValue bs ds + 1 < bs.prod) :
    ∃ es, radixSucc bs ds = some es ∧ IsDigits bs es ∧ radixValue bs es = radixValue bs ds + 1 := by
  induction h with
  | nil => simp [radixValue] at hlt
  | @cons b d bs ds hd hds ih =>
    simp only [radixValue, List.prod_cons] at hlt
    by_cases hnext : d + 1 < b
    · refine ⟨(d + 1) :: ds, by rw [radixSucc, if_pos hnext], isDigits_cons.mpr ⟨hnext, hds⟩, ?_⟩
      simp only [radixValue]
      omega
    · have hlast : d + 1 = b := by omega
      have hcarry : b * (radixValue bs ds + 1) < b * bs.prod := by
        rw [Nat.mul_succ]
        omega
      obtain ⟨es, hes, hdigits, hvalue⟩ := ih (Nat.lt_of_mul_lt_mul_left hcarry)
      refine ⟨0 :: es, by rw [radixSucc, if_neg hnext, hes]; rfl,
        isDigits_cons.mpr ⟨by omega, hdigits⟩, ?_⟩
      simp only [radixValue, hvalue, Nat.mul_succ]
      omega

theorem isDigits_zero (hpos : ∀ b ∈ bs, 0 < b) : IsDigits bs (List.replicate bs.length 0) := by
  induction bs with
  | nil => exact List.Forall₂.nil
  | cons b bs ih =>
    obtain ⟨hb, hbs⟩ := List.forall_mem_cons.mp hpos
    exact isDigits_cons.mpr ⟨hb, ih hbs⟩

theorem radixValue_zero (bs : List Nat) : radixValue bs (List.replicate bs.length 0) = 0 := by
  induction bs with
  | nil => rfl
  | cons b bs ih => simp [radixValue, List.replicate_succ, ih]

/-- Counting from 0 to the largest number meets every combination of digits once. -/
theorem counting_complete (hdigits : ∀ ds ∈ runs, IsDigits bs ds)
    (hvalues : runs.map (radixValue bs) = List.range bs.prod) :
    runs.Nodup ∧ ∀ ds, ds ∈ runs ↔ IsDigits bs ds := by
  constructor
  · apply List.Nodup.of_map (radixValue bs)
    rw [hvalues]
    exact List.nodup_range
  · intro ds
    refine ⟨hdigits ds, fun hds => ?_⟩
    have hmem : radixValue bs ds ∈ runs.map (radixValue bs) := by
      rw [hvalues, List.mem_range]
      exact radixValue_lt hds
    obtain ⟨es, hes, heq⟩ := List.mem_map.mp hmem
    rwa [← radixValue_injective (hdigits es hes) hds heq]

end SidelinkORe
