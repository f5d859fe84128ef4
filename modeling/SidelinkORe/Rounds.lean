import Mathlib.Data.List.Basic
import Mathlib.Data.List.Flatten
import Mathlib.Tactic.Linarith

namespace SidelinkORe

universe u v

section Rounds

variable {α : Type u} {β : Type v} {f : Nat → α → β} {l : List α}

/-- A filter that keeps the first part of a list and nothing after it. -/
theorem filter_eq_take {p : α → Bool} {j : Nat} (hkeep : ∀ a ∈ l.take j, p a = true)
    (hdrop : ∀ a ∈ l.drop j, p a = false) : l.filter p = l.take j := by
  have hsplit := List.take_append_drop j l
  have htake : (l.take j).filter p = l.take j := List.filter_eq_self.mpr hkeep
  have hnone : (l.drop j).filter p = [] := by
    apply List.filter_eq_nil_iff.mpr
    intro a ha
    simp [hdrop a ha]
  calc l.filter p = (l.take j ++ l.drop j).filter p := by rw [hsplit]
    _ = l.take j := by rw [List.filter_append, htake, hnone, List.append_nil]

/-- A list gone through `k` times, with the number of the round. -/
def rounds (k : Nat) (f : Nat → α → β) (l : List α) : List β :=
  (List.range k).flatMap fun p => l.map (f p)

theorem rounds_succ (k : Nat) : rounds (k + 1) f l = rounds k f l ++ l.map (f k) := by
  simp [rounds, List.range_succ]

theorem rounds_length (k : Nat) : (rounds k f l).length = k * l.length := by
  induction k with
  | zero => simp [rounds]
  | succ k ih => rw [rounds_succ, List.length_append, ih, List.length_map, Nat.succ_mul]

theorem getElem?_rounds {k i : Nat} (h : i < k * l.length) :
    (rounds k f l)[i]? = (l[i % l.length]?).map (f (i / l.length)) := by
  induction k with
  | zero => omega
  | succ k ih =>
    have hlength := rounds_length (f := f) (l := l) k
    rw [rounds_succ]
    by_cases hi : i < k * l.length
    · rw [List.getElem?_append_left (by omega), ih hi]
    · have hdiv : i / l.length = k := Nat.div_eq_of_lt_le (by omega) (by omega)
      have hmod := Nat.div_add_mod i l.length
      rw [hdiv, Nat.mul_comm] at hmod
      have hpos : i - k * l.length = i % l.length := by omega
      rw [List.getElem?_append_right (by omega), hlength, hpos, List.getElem?_map, hdiv]

/-- The first round shows the list, so equal runs of rounds go through equal lists. -/
theorem rounds_injective {k : Nat} {l' : List α} (hk : 0 < k) (hf : Function.Injective (f 0))
    (h : rounds k f l = rounds k f l') : l = l' := by
  have hlen : l.length = l'.length := by
    have hlength := congrArg List.length h
    rw [rounds_length, rounds_length] at hlength
    exact Nat.eq_of_mul_eq_mul_left hk hlength
  apply List.map_injective_iff.mpr hf
  apply List.ext_getElem?
  intro i
  by_cases hi : i < l.length
  · have hk' : i < k * l.length := hi.trans_le (Nat.le_mul_of_pos_left _ hk)
    have hat := congrArg (·[i]?) h
    simp only [getElem?_rounds hk', getElem?_rounds (hlen ▸ hk'), ← hlen, Nat.mod_eq_of_lt hi,
      Nat.div_eq_of_lt hi] at hat
    rw [List.getElem?_map, List.getElem?_map, hat]
  · rw [List.getElem?_eq_none (by simpa using hi), List.getElem?_eq_none (by simpa [← hlen] using hi)]

end Rounds

section RoundNumbers

variable {m i : Nat}

theorem add_in_round {k : Nat} (h : i % m + k < m) :
    (i + k) / m = i / m ∧ (i + k) % m = i % m + k := by
  have hdm := Nat.div_add_mod i m
  have hdiv : (i + k) / m = i / m := by
    apply Nat.div_eq_of_lt_le
    · rw [Nat.mul_comm]
      omega
    · rw [Nat.succ_mul, Nat.mul_comm]
      omega
  have hdm' := Nat.div_add_mod (i + k) m
  rw [hdiv] at hdm'
  exact ⟨hdiv, by omega⟩

theorem next_round (h : i % m + 1 = m) : (i + 1) / m = i / m + 1 ∧ (i + 1) % m = 0 := by
  have hdm := Nat.div_add_mod i m
  have heq : i + 1 = m * (i / m + 1) := by
    rw [Nat.mul_add, Nat.mul_one]
    omega
  have hm : 0 < m := by omega
  rw [heq]
  exact ⟨Nat.mul_div_cancel_left _ hm, Nat.mul_mod_right _ _⟩

end RoundNumbers

end SidelinkORe
