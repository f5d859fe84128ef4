import Mathlib.Logic.Relation

namespace SidelinkORe

section WhileLoop

variable {σ : Type} (c : σ → Prop) [DecidablePred c] (body : σ → σ)

/-- A while loop that gives up when its fuel is used up. -/
def whileLoop : Nat → σ → Option σ
  | 0, s => if c s then none else some s
  | fuel + 1, s => if c s then whileLoop fuel (body s) else some s

/-- The loop ends in `t`, with all fuel that is enough. -/
def Returns (s t : σ) : Prop := ∃ n, ∀ fuel, n ≤ fuel → whileLoop c body fuel s = some t

variable {c body} {s t : σ}

theorem returns_of_not (h : ¬c s) : Returns c body s s := by
  refine ⟨0, fun fuel _ => ?_⟩
  cases fuel <;> simp [whileLoop, h]

theorem returns_of_step (h : c s) (ht : Returns c body (body s) t) : Returns c body s t := by
  obtain ⟨n, hn⟩ := ht
  refine ⟨n + 1, fun fuel hfuel => ?_⟩
  cases fuel with
  | zero => omega
  | succ fuel => rw [whileLoop, if_pos h, hn fuel (by omega)]

theorem whileLoop_more {fuel more : Nat} (h : whileLoop c body fuel s = some t) (hle : fuel ≤ more) :
    whileLoop c body more s = some t := by
  induction fuel generalizing s more with
  | zero =>
    by_cases hc : c s
    · rw [whileLoop, if_pos hc] at h
      cases h
    · rw [whileLoop, if_neg hc] at h
      cases more <;> rw [whileLoop, if_neg hc, h]
  | succ fuel ih =>
    obtain ⟨more, rfl⟩ : ∃ k, more = k + 1 := ⟨more - 1, by omega⟩
    by_cases hc : c s
    · rw [whileLoop, if_pos hc] at h ⊢
      exact ih h (by omega)
    · rw [whileLoop, if_neg hc] at h ⊢
      exact h

/-- What a loop returns does not depend on the fuel. -/
theorem Returns.eq_of_some {u : σ} {fuel : Nat} (h : Returns c body s t)
    (hsome : whileLoop c body fuel s = some u) : u = t := by
  obtain ⟨n, hn⟩ := h
  have hmore := whileLoop_more hsome (Nat.le_max_left fuel n)
  exact Option.some.inj (hmore.symm.trans (hn _ (Nat.le_max_right fuel n)))

/-- A loop that keeps an invariant and lowers a variant ends, with the invariant and without its
condition. -/
theorem returns_of_wellFounded {α : Type} {r : α → α → Prop} (hr : WellFounded r) (inv : σ → Prop)
    (variant : σ → α) (hbody : ∀ s, inv s → c s → inv (body s) ∧ r (variant (body s)) (variant s))
    (hs : inv s) : ∃ t, Returns c body s t ∧ inv t ∧ ¬c t := by
  induction hk : variant s using hr.induction generalizing s with
  | _ k ih =>
    by_cases hc : c s
    · obtain ⟨hinv, hless⟩ := hbody s hs hc
      obtain ⟨t, ht, hinvt, hnot⟩ := ih (variant (body s)) (hk ▸ hless) hinv rfl
      exact ⟨t, returns_of_step hc ht, hinvt, hnot⟩
    · exact ⟨s, returns_of_not hc, hs, hc⟩

theorem returns_of_variant (inv : σ → Prop) (variant : σ → Nat)
    (hbody : ∀ s, inv s → c s → inv (body s) ∧ variant (body s) < variant s) (hs : inv s) :
    ∃ t, Returns c body s t ∧ inv t ∧ ¬c t :=
  returns_of_wellFounded Nat.lt_wfRel.wf inv variant hbody hs

end WhileLoop

section Reaches

variable {σ : Type} {c : σ → Prop} {body : σ → σ} {s t : σ}

variable (c body) in
/-- The states before and after the rounds of the loop. -/
def Reaches : σ → σ → Prop := Relation.ReflTransGen fun s t => c s ∧ t = body s

theorem Reaches.round (h : Reaches c body s t) (hc : c t) : Reaches c body s (body t) :=
  Relation.ReflTransGen.tail h ⟨hc, rfl⟩

theorem inv_of_reaches (inv : σ → Prop) (hbody : ∀ s, inv s → c s → inv (body s)) (hs : inv s)
    (h : Reaches c body s t) : inv t := by
  induction h with
  | refl => exact hs
  | tail _ hround ih =>
    obtain ⟨hc, rfl⟩ := hround
    exact hbody _ ih hc

theorem Reaches.lastRound (h : Reaches c body s t) (hs : c s) (ht : ¬c t) :
    ∃ u, Reaches c body s u ∧ c u ∧ t = body u := by
  cases h with
  | refl => exact absurd hs ht
  | tail hreach hround => exact ⟨_, hreach, hround.1, hround.2⟩

end Reaches

end SidelinkORe
