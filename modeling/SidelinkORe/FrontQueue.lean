import Mathlib.Data.List.Basic
import Mathlib.Order.Lattice

namespace SidelinkORe

universe u

/-- A queue under a clock; only its front can leave, and only at the time that it is due. It keeps
what was stored and what was served, each with the time. -/
structure FrontQueue (α : Type u) where
  now : Nat
  waiting : List α
  stored : List (Nat × α)
  served : List (Nat × α)

namespace FrontQueue

variable {α : Type u}

def start (now : Nat) : FrontQueue α := ⟨now, [], [], []⟩

def store (q : FrontQueue α) (a : α) : FrontQueue α :=
  { q with waiting := q.waiting ++ [a], stored := q.stored ++ [(q.now, a)] }

def storeAll (q : FrontQueue α) (l : List α) : FrontQueue α := l.foldl store q

/-- The next time; the front is served if it is due now. -/
def tick (due : α → Nat) (q : FrontQueue α) : FrontQueue α :=
  match q.waiting with
  | [] => { q with now := q.now + 1 }
  | a :: rest =>
    if due a = q.now + 1 then
      { q with now := q.now + 1, waiting := rest, served := q.served ++ [(q.now + 1, a)] }
    else { q with now := q.now + 1 }

@[simp] theorem storeAll_now (q : FrontQueue α) (l : List α) : (q.storeAll l).now = q.now := by
  induction l generalizing q with
  | nil => rfl
  | cons a l ih => exact ih _

@[simp] theorem storeAll_waiting (q : FrontQueue α) (l : List α) :
    (q.storeAll l).waiting = q.waiting ++ l := by
  induction l generalizing q with
  | nil => simp [storeAll]
  | cons a l ih =>
    have hnext := ih (q.store a)
    simpa [storeAll, store] using hnext

@[simp] theorem storeAll_stored (q : FrontQueue α) (l : List α) :
    (q.storeAll l).stored = q.stored ++ l.map fun a => (q.now, a) := by
  induction l generalizing q with
  | nil => simp [storeAll]
  | cons a l ih =>
    have hnext := ih (q.store a)
    simpa [storeAll, store] using hnext

@[simp] theorem storeAll_served (q : FrontQueue α) (l : List α) :
    (q.storeAll l).served = q.served := by
  induction l generalizing q with
  | nil => rfl
  | cons a l ih => exact ih _

@[simp] theorem tick_now (due : α → Nat) (q : FrontQueue α) : (q.tick due).now = q.now + 1 := by
  unfold tick
  split
  · rfl
  · split <;> rfl

@[simp] theorem tick_stored (due : α → Nat) (q : FrontQueue α) : (q.tick due).stored = q.stored := by
  unfold tick
  split
  · rfl
  · split <;> rfl

/-- The first `k` stored elements are served, in rising order of their due times; the next one is
still to come or will never be served. -/
structure ServedTo (due : α → Nat) (q : FrontQueue α) (k : Nat) : Prop where
  le : k ≤ q.stored.length
  waiting : q.waiting = (q.stored.drop k).map Prod.snd
  served : q.served = (q.stored.take k).map fun e => (due e.2, e.2)
  past : ∀ e ∈ q.stored, e.1 ≤ q.now
  done : ∀ (i : Nat) e, i < k → q.stored[i]? = some e → e.1 < due e.2 ∧ due e.2 ≤ q.now
  rising : ∀ (i j : Nat) e f, i < j → j < k → q.stored[i]? = some e → q.stored[j]? = some f →
    due e.2 < due f.2
  front : ∀ f, q.stored[k]? = some f → q.now < due f.2 ∨ due f.2 ≤ f.1 ∨
    ∃ (i : Nat) (e : Nat × α), k = i + 1 ∧ q.stored[i]? = some e ∧ due f.2 ≤ due e.2

section Invariant

variable {due : α → Nat} {q : FrontQueue α} {k : Nat}

theorem servedTo_start (due : α → Nat) (now : Nat) : (start now : FrontQueue α).ServedTo due 0 where
  le := le_rfl
  waiting := rfl
  served := rfl
  past := by simp [start]
  done := by simp
  rising := by simp
  front := by simp [start]

theorem ServedTo.store (h : q.ServedTo due k) (a : α) : (q.store a).ServedTo due k where
  le := by
    have hle := h.le
    simp only [FrontQueue.store, List.length_append]
    omega
  waiting := by
    simp [FrontQueue.store, h.waiting, List.drop_append_of_le_length h.le]
  served := by
    simp [FrontQueue.store, h.served, List.take_append_of_le_length h.le]
  past := by
    intro e he
    rcases List.mem_append.mp he with he | he
    · exact h.past e he
    · rw [List.mem_singleton.mp he]
      exact le_rfl
  done := by
    intro i e hi he
    apply h.done i e hi
    have hle := h.le
    simpa [FrontQueue.store, List.getElem?_append_left (show i < q.stored.length by omega)] using he
  rising := by
    intro i j e f hij hj he hf
    have hle := h.le
    apply h.rising i j e f hij hj
    · simpa [FrontQueue.store, List.getElem?_append_left (show i < q.stored.length by omega)] using he
    · simpa [FrontQueue.store, List.getElem?_append_left (show j < q.stored.length by omega)] using hf
  front := by
    intro f hf
    rcases Nat.lt_or_eq_of_le h.le with hlt | heq
    · have hf' : q.stored[k]? = some f := by
        simpa [FrontQueue.store, List.getElem?_append_left hlt] using hf
      rcases h.front f hf' with hlater | hearly | ⟨i, e, hk, he, hle⟩
      · exact Or.inl hlater
      · exact Or.inr (Or.inl hearly)
      · refine Or.inr (Or.inr ⟨i, e, hk, ?_, hle⟩)
        simpa [FrontQueue.store, List.getElem?_append_left (show i < q.stored.length by omega)] using he
    · have hfirst : f = (q.now, a) := by
        simpa [FrontQueue.store, heq] using hf.symm
      subst hfirst
      show q.now < due a ∨ due a ≤ q.now ∨ _
      omega

theorem ServedTo.storeAll (h : q.ServedTo due k) (l : List α) : (q.storeAll l).ServedTo due k := by
  induction l generalizing q with
  | nil => exact h
  | cons a l ih => exact ih (h.store a)

/-- Time goes on without a service when the front is not due. -/
theorem ServedTo.idle (h : q.ServedTo due k) (hfront : ∀ f, q.stored[k]? = some f → due f.2 ≠ q.now + 1) :
    ({ q with now := q.now + 1 } : FrontQueue α).ServedTo due k where
  le := h.le
  waiting := h.waiting
  served := h.served
  past := fun e he => (h.past e he).trans (Nat.le_succ _)
  done := fun i e hi he => ⟨(h.done i e hi he).1, (h.done i e hi he).2.trans (Nat.le_succ _)⟩
  rising := h.rising
  front := by
    intro f hf
    have hne := hfront f hf
    rcases h.front f hf with hlater | hstuck
    · left
      show q.now + 1 < due f.2
      omega
    · exact Or.inr hstuck

theorem ServedTo.tick (h : q.ServedTo due k) : ∃ k', (q.tick due).ServedTo due k' := by
  unfold FrontQueue.tick
  split
  next hnil =>
    refine ⟨k, h.idle fun f hf => ?_⟩
    have hdrop := List.map_eq_nil_iff.mp (h.waiting.symm.trans hnil)
    have hlen := List.drop_eq_nil_iff.mp hdrop
    rw [List.getElem?_eq_none hlen] at hf
    cases hf
  next a rest hcons =>
    obtain ⟨e, l, hdrop, rfl, rfl⟩ := List.map_eq_cons_iff.mp (h.waiting.symm.trans hcons)
    have hk : q.stored[k]? = some e := by
      rw [← Nat.add_zero k, ← List.getElem?_drop, hdrop]
      rfl
    have hlt : k < q.stored.length := (List.getElem?_eq_some_iff.mp hk).1
    split
    next hdue =>
      have htake : q.stored.take (k + 1) = q.stored.take k ++ [e] := by
        rw [List.take_add_one, hk]
        rfl
      have hpast := h.past e (List.mem_of_getElem? hk)
      refine ⟨k + 1, hlt, ?_, ?_, fun e he => (h.past e he).trans (Nat.le_succ _), ?_, ?_, ?_⟩
      · show l.map Prod.snd = (q.stored.drop (k + 1)).map Prod.snd
        rw [← List.tail_drop, hdrop]
        rfl
      · show q.served ++ [(q.now + 1, e.2)] = _
        rw [htake, List.map_append, ← h.served, ← hdue]
        rfl
      · intro i x hi hx
        rcases Nat.lt_or_eq_of_le (Nat.le_of_lt_succ hi) with hik | rfl
        · exact ⟨(h.done i x hik hx).1, (h.done i x hik hx).2.trans (Nat.le_succ _)⟩
        · obtain rfl := Option.some.inj (hk.symm.trans hx)
          exact ⟨by omega, hdue.le⟩
      · intro i j x y hij hj hx hy
        rcases Nat.lt_or_eq_of_le (Nat.le_of_lt_succ hj) with hjk | rfl
        · exact h.rising i j x y hij hjk hx hy
        · obtain rfl := Option.some.inj (hk.symm.trans hy)
          have hdone := (h.done i x hij hx).2
          omega
      · intro f hf
        show q.now + 1 < due f.2 ∨ _
        by_cases hlater : q.now + 1 < due f.2
        · exact Or.inl hlater
        · exact Or.inr (Or.inr ⟨k, e, rfl, hk, by omega⟩)
    next hnot =>
      refine ⟨k, h.idle fun f hf => ?_⟩
      obtain rfl := Option.some.inj (hk.symm.trans hf)
      exact hnot

end Invariant

section Delivery

variable (due : α → Nat) (q : FrontQueue α)

/-- At each time exactly the elements are served that are due then and were stored before. -/
def OnTime : Prop :=
  ∀ t, t ≤ q.now → ((q.served.filter fun e => e.1 = t).map Prod.snd).Perm
    ((q.stored.filter fun e => due e.2 = t ∧ e.1 < t).map Prod.snd)

/-- Whatever has become due was stored after elements that became due earlier only. -/
def RisingDues (now : Nat) (stored : List (Nat × α)) : Prop :=
  ∀ (i j : Nat) e f, stored[i]? = some e → e.1 < due e.2 → due e.2 ≤ now → j < i →
    stored[j]? = some f → f.1 < due f.2 ∧ due f.2 < due e.2

variable {due q} {k : Nat}

theorem ServedTo.served_at (h : q.ServedTo due k) (t : Nat) :
    (q.served.filter fun e => e.1 = t).map Prod.snd =
      ((q.stored.take k).filter fun e => due e.2 = t ∧ e.1 < t).map Prod.snd := by
  have hbefore : ∀ e ∈ q.stored.take k, e.1 < due e.2 := by
    intro e he
    obtain ⟨i, hi⟩ := List.mem_iff_getElem?.mp he
    have hik : i < k := by
      have hlen := (List.getElem?_eq_some_iff.mp hi).1
      rw [List.length_take] at hlen
      omega
    rw [List.getElem?_take_of_lt hik] at hi
    exact (h.done i e hik hi).1
  rw [h.served, List.filter_map, List.map_map]
  congr 1
  refine List.filter_congr fun e he => ?_
  have hlt := hbefore e he
  apply decide_eq_decide.mpr
  constructor
  · intro hdue
    exact ⟨hdue, by simpa [← hdue] using hlt⟩
  · exact fun hboth => hboth.1

/-- The front rule serves everything on time exactly when the due times rise in storing order. -/
theorem ServedTo.onTime_iff (h : q.ServedTo due k) :
    q.OnTime due ↔ RisingDues due q.now q.stored := by
  have hsplit : ∀ t, (q.stored.filter fun e => due e.2 = t ∧ e.1 < t) =
      ((q.stored.take k).filter fun e => due e.2 = t ∧ e.1 < t) ++
        ((q.stored.drop k).filter fun e => due e.2 = t ∧ e.1 < t) := by
    intro t
    rw [← List.filter_append, List.take_append_drop]
  constructor
  · intro hontime i j e f he hbefore hdue hji hf
    have hik : i < k := by
      by_contra hki
      have hperm := (hontime (due e.2) hdue).length_eq
      rw [h.served_at, hsplit, List.map_append, List.length_append, List.length_map, List.length_map]
        at hperm
      have hdrop : e ∈ q.stored.drop k := by
        have hget : (q.stored.drop k)[i - k]? = some e := by
          rw [List.getElem?_drop, Nat.add_sub_cancel' (Nat.le_of_not_lt hki)]
          exact he
        exact List.mem_of_getElem? hget
      have hin : e ∈ (q.stored.drop k).filter fun x => due x.2 = due e.2 ∧ x.1 < due e.2 :=
        List.mem_filter.mpr ⟨hdrop, by simpa using hbefore⟩
      have hpos := List.length_pos_of_mem hin
      omega
    exact ⟨(h.done j f (by omega) hf).1, h.rising j i f e hji hik hf he⟩
  · intro hrising t ht
    -- the front is not among the elements that have become due
    have hfront : ∀ f, q.stored[k]? = some f → f.1 < due f.2 → q.now < due f.2 := by
      intro f hf hbefore
      by_contra hnow
      rcases h.front f hf with hlater | hearly | ⟨i, e, hk, he, hle⟩
      · omega
      · omega
      · have hearlier := (hrising k i f e hf hbefore (by omega) (by omega) he).2
        omega
    have hnone : (q.stored.drop k).filter (fun e => due e.2 = t ∧ e.1 < t) = [] := by
      apply List.filter_eq_nil_iff.mpr
      intro e he hin
      obtain ⟨hdue, hbefore⟩ : due e.2 = t ∧ e.1 < t := by simpa using hin
      obtain ⟨i, hi⟩ := List.mem_iff_getElem?.mp he
      rw [List.getElem?_drop] at hi
      rcases Nat.eq_zero_or_pos i with rfl | hpos
      · have hlater := hfront e hi (by omega)
        omega
      · obtain ⟨f, hf⟩ : ∃ f, q.stored[k]? = some f := by
          have hlen := (List.getElem?_eq_some_iff.mp hi).1
          exact ⟨_, List.getElem?_eq_getElem (by omega)⟩
        obtain ⟨hbefore', hlt⟩ := hrising (k + i) k e f hi (by omega) (by omega) (by omega) hf
        have hlater := hfront f hf hbefore'
        omega
    rw [h.served_at, hsplit, hnone, List.append_nil]

end Delivery

end FrontQueue

end SidelinkORe
