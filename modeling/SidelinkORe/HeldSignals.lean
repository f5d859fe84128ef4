import Mathlib.Algebra.BigOperators.Group.List.Basic
import Mathlib.Algebra.BigOperators.Intervals
import Mathlib.Algebra.Group.Pi.Basic
import Mathlib.Algebra.Order.BigOperators.Group.List
import Mathlib.Data.List.Perm.Basic

namespace SidelinkORe

universe u

/-- A value that is held from an instant on, for a number of instants. -/
structure Held (V : Type u) where
  start : Nat
  duration : Nat
  value : V

namespace Held

variable {V : Type u}

def finish (h : Held V) : Nat := h.start + h.duration

def ActiveAt (h : Held V) (t : Nat) : Prop := h.start ≤ t ∧ t < h.finish

instance (h : Held V) (t : Nat) : Decidable (h.ActiveAt t) := inferInstanceAs (Decidable (_ ∧ _))

end Held

section Outstanding

variable {V : Type u} {log pending : List (Held V)} {h : Held V} {now : Nat}

/-- The entries of a log that have not been taken off yet: the others have finished, and time has
not passed the finish of any of these. -/
structure Outstanding (now : Nat) (log pending : List (Held V)) : Prop where
  split : ∃ done, log.Perm (done ++ pending) ∧ ∀ h ∈ done, h.finish ≤ now
  ahead : ∀ h ∈ pending, now ≤ h.finish
  begun : ∀ h ∈ log, h.start ≤ now

theorem Outstanding.start (now : Nat) : Outstanding now ([] : List (Held V)) [] where
  split := ⟨[], List.Perm.refl _, by simp⟩
  ahead := by simp
  begun := by simp

theorem Outstanding.add (ho : Outstanding now log pending) (hstart : h.start = now) :
    Outstanding now (log ++ [h]) (pending ++ [h]) where
  split := by
    obtain ⟨done, hperm, hdone⟩ := ho.split
    refine ⟨done, ?_, hdone⟩
    rw [← List.append_assoc]
    exact hperm.append_right [h]
  ahead := by
    intro x hx
    rcases List.mem_append.mp hx with hx | hx
    · exact ho.ahead x hx
    · obtain rfl := List.mem_singleton.mp hx
      show now ≤ x.start + x.duration
      omega
  begun := by
    intro x hx
    rcases List.mem_append.mp hx with hx | hx
    · exact ho.begun x hx
    · obtain rfl := List.mem_singleton.mp hx
      omega

theorem Outstanding.remove (ho : Outstanding now log pending) {rest : List (Held V)}
    (hperm : pending.Perm (h :: rest)) (hfinish : h.finish ≤ now) : Outstanding now log rest where
  split := by
    obtain ⟨done, hlog, hdone⟩ := ho.split
    refine ⟨done ++ [h], ?_, ?_⟩
    · rw [List.append_assoc]
      exact hlog.trans (hperm.append_left done)
    · intro x hx
      rcases List.mem_append.mp hx with hx | hx
      · exact hdone x hx
      · obtain rfl := List.mem_singleton.mp hx
        exact hfinish
  ahead := fun x hx => ho.ahead x (hperm.mem_iff.mpr (List.mem_cons_of_mem h hx))
  begun := ho.begun

theorem Outstanding.advance (ho : Outstanding now log pending) {later : Nat} (hlater : now ≤ later)
    (hahead : ∀ h ∈ pending, later ≤ h.finish) : Outstanding later log pending where
  split := by
    obtain ⟨done, hperm, hdone⟩ := ho.split
    exact ⟨done, hperm, fun h hmem => (hdone h hmem).trans hlater⟩
  ahead := hahead
  begun := fun h hmem => (ho.begun h hmem).trans hlater

end Outstanding

section HeldAt

variable {V : Type u} [AddCommMonoid V]

/-- The sum of what a log holds at an instant. -/
def heldAt (log : List (Held V)) (t : Nat) : V :=
  ((log.filter fun h => decide (h.ActiveAt t)).map Held.value).sum

variable {log log' done pending : List (Held V)} {h : Held V} {t now k : Nat}

theorem heldAt_cons_of_active (hactive : h.ActiveAt t) : heldAt (h :: log) t = h.value + heldAt log t := by
  simp [heldAt, hactive]

theorem heldAt_append (log log' : List (Held V)) (t : Nat) :
    heldAt (log ++ log') t = heldAt log t + heldAt log' t := by
  simp [heldAt]

theorem heldAt_perm (hperm : log.Perm log') (t : Nat) : heldAt log t = heldAt log' t :=
  ((hperm.filter _).map _).sum_eq

theorem heldAt_of_none_active (hnone : ∀ h ∈ log, ¬h.ActiveAt t) : heldAt log t = 0 := by
  have hfilter : log.filter (fun h => decide (h.ActiveAt t)) = [] := by
    apply List.filter_eq_nil_iff.mpr
    intro h hmem
    simpa using hnone h hmem
  rw [heldAt, hfilter]
  rfl

theorem heldAt_of_all_active (hall : ∀ h ∈ log, h.ActiveAt t) : heldAt log t = (log.map Held.value).sum := by
  have hfilter : log.filter (fun h => decide (h.ActiveAt t)) = log := by
    apply List.filter_eq_self.mpr
    intro h hmem
    simpa using hall h hmem
  rw [heldAt, hfilter]

/-- What starts after an instant does not count at it. -/
theorem heldAt_append_later (hlater : ∀ h ∈ log', t < h.start) : heldAt (log ++ log') t = heldAt log t := by
  have hzero : heldAt log' t = 0 := heldAt_of_none_active fun h hmem hactive => by
    have hstart := hlater h hmem
    have hbegun := hactive.1
    omega
  rw [heldAt_append, hzero, add_zero]

theorem heldAt_cons (h : Held V) (log : List (Held V)) (t : Nat) :
    heldAt (h :: log) t = (if h.ActiveAt t then h.value else 0) + heldAt log t := by
  by_cases hactive : h.ActiveAt t <;> simp [heldAt, hactive]

theorem heldAt_eraseIdx (hget : log[k]? = some h) (hactive : h.ActiveAt t) :
    heldAt log t = h.value + heldAt (log.eraseIdx k) t := by
  obtain ⟨hlt, rfl⟩ := List.getElem?_eq_some_iff.mp hget
  rw [← heldAt_cons_of_active hactive]
  exact heldAt_perm (List.getElem_cons_eraseIdx_perm hlt).symm t

/-- Until the first of them finishes, what is held is what the outstanding entries hold. -/
theorem Outstanding.heldAt_eq (ho : Outstanding now log pending) (hnow : now ≤ t)
    (hahead : ∀ h ∈ pending, t < h.finish) : heldAt log t = (pending.map Held.value).sum := by
  obtain ⟨done, hperm, hdone⟩ := ho.split
  have hfinished : heldAt done t = 0 := heldAt_of_none_active fun h hmem hactive => by
    have hover := hdone h hmem
    have hbefore := hactive.2
    omega
  have hactive : ∀ h ∈ pending, h.ActiveAt t := fun h hmem =>
    ⟨(ho.begun h (hperm.mem_iff.mpr (List.mem_append_right done hmem))).trans hnow, hahead h hmem⟩
  rw [heldAt_perm hperm, heldAt_append, hfinished, zero_add, heldAt_of_all_active hactive]

/-- What is held in one component of the values. -/
theorem heldAt_apply {ι : Type u} {W : ι → Type u} [∀ i, AddCommMonoid (W i)] (log : List (Held (∀ i, W i)))
    (t : Nat) (i : ι) : heldAt log t i = heldAt (log.map fun h => ⟨h.start, h.duration, h.value i⟩) t := by
  induction log with
  | nil => rfl
  | cons h log ih =>
    rw [heldAt_cons, List.map_cons, heldAt_cons, ← ih]
    have hsame : (⟨h.start, h.duration, h.value i⟩ : Held (W i)).ActiveAt t ↔ h.ActiveAt t := Iff.rfl
    by_cases hactive : h.ActiveAt t
    · rw [if_pos hactive, if_pos (hsame.mpr hactive)]
      rfl
    · rw [if_neg hactive, if_neg (hsame.not.mpr hactive)]
      rfl

end HeldAt

section Nonnegative

variable {V : Type u} [AddCommMonoid V] [PartialOrder V] [IsOrderedAddMonoid V] {log : List (Held V)}

theorem heldAt_nonneg (hlog : ∀ h ∈ log, 0 ≤ h.value) (t : Nat) : 0 ≤ heldAt log t := by
  apply List.sum_nonneg
  intro v hv
  obtain ⟨h, hmem, rfl⟩ := List.mem_map.mp hv
  exact hlog h (List.mem_of_mem_filter hmem)

/-- Values that are not negative hold nothing together only if each of them is zero. -/
theorem heldAt_eq_zero_iff (hlog : ∀ h ∈ log, 0 ≤ h.value) (t : Nat) :
    heldAt log t = 0 ↔ ∀ h ∈ log, h.ActiveAt t → h.value = 0 := by
  induction log with
  | nil => simp [heldAt]
  | cons h log ih =>
    have hrest : ∀ x ∈ log, 0 ≤ x.value := fun x hx => hlog x (List.mem_cons_of_mem h hx)
    have hhead : 0 ≤ if h.ActiveAt t then h.value else 0 := by
      split
      next => exact hlog h List.mem_cons_self
      next => exact le_rfl
    rw [heldAt_cons, add_eq_zero_iff_of_nonneg hhead (heldAt_nonneg hrest t), ih hrest, List.forall_mem_cons]
    simp

end Nonnegative

end SidelinkORe
