import Mathlib.Data.Nat.Count
import Mathlib.Data.List.Induction

namespace SidelinkORe

section PeriodicCount

variable {p : Nat → Prop} {period : Nat}

theorem periodic_mul (hp : ∀ n, p (n + period) ↔ p n) (q n : Nat) : p (q * period + n) ↔ p n := by
  induction q with
  | zero => rw [Nat.zero_mul, Nat.zero_add]
  | succ q ih =>
    rw [Nat.succ_mul, Nat.add_right_comm, hp, ih]

/-- Whole periods hold the same number of hits each. -/
theorem count_periodic [DecidablePred p] (hp : ∀ n, p (n + period) ↔ p n) (q r : Nat) :
    Nat.count p (q * period + r) = q * Nat.count p period + Nat.count p r := by
  induction q generalizing r with
  | zero => rw [Nat.zero_mul, Nat.zero_mul, Nat.zero_add, Nat.zero_add]
  | succ q ih =>
    have hshift : Nat.count (fun k => p (q * period + k)) (period + r) = Nat.count p (period + r) := by
      simp only [periodic_mul hp q]
    have hone : Nat.count (fun k => p (period + k)) r = Nat.count p r := by
      simp only [Nat.add_comm period, hp]
    rw [Nat.succ_mul, Nat.add_assoc, Nat.count_add, hshift, Nat.count_add, hone, Nat.succ_mul]
    have hwhole := ih 0
    simp only [Nat.add_zero, Nat.count_zero] at hwhole
    omega

theorem count_getElem? {α : Type} [DecidableEq α] (l : List α) (a : α) :
    Nat.count (fun n => l[n]? = some a) l.length = l.count a := by
  induction l using List.reverseRecOn with
  | nil => rfl
  | append_singleton l b ih =>
    have hprefix : Nat.count (fun n => (l ++ [b])[n]? = some a) l.length =
        Nat.count (fun n => l[n]? = some a) l.length := by
      rw [Nat.count_eq_card_filter_range, Nat.count_eq_card_filter_range]
      refine congrArg Finset.card (Finset.filter_congr fun n hn => ?_)
      rw [List.getElem?_append_left (Finset.mem_range.mp hn)]
    rw [List.length_append, List.length_singleton, Nat.count_succ, hprefix, ih, List.count_append]
    by_cases hb : b = a <;> simp [hb]

end PeriodicCount

end SidelinkORe
