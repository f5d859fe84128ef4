import Mathlib.Data.List.Basic

namespace SidelinkORe

universe u v

theorem bind_ok_iff {ε : Type u} {α β : Type v} {x : Except ε α} {f : α → Except ε β} {b : β} :
    (x >>= f) = .ok b ↔ ∃ a, x = .ok a ∧ f a = .ok b := by
  cases x with
  | error e =>
    constructor
    · intro h
      cases h
    · rintro ⟨a, h, _⟩
      cases h
  | ok a =>
    constructor
    · intro h
      exact ⟨a, rfl, h⟩
    · rintro ⟨a', h, hf⟩
      cases h
      exact hf

theorem bind_of_ok {ε : Type u} {α β : Type v} {x : Except ε α} {f : α → Except ε β} {a : α}
    (h : x = .ok a) : (x >>= f) = f a := by
  rw [h]
  rfl

theorem bind_of_error {ε : Type u} {α β : Type v} {x : Except ε α} {f : α → Except ε β} {e : ε}
    (h : x = .error e) : (x >>= f) = .error e := by
  rw [h]
  rfl

@[simp] theorem pure_ok_iff {ε : Type u} {α : Type v} {a b : α} :
    (pure a : Except ε α) = .ok b ↔ a = b := by
  constructor
  · intro h
    cases h
    rfl
  · rintro rfl
    rfl

/-- A check that stops the program with `e` when its condition fails. -/
def require {ε : Type u} (c : Prop) [Decidable c] (e : ε) : Except ε Unit :=
  if c then .ok () else .error e

@[simp] theorem require_ok_iff {ε : Type u} {c : Prop} [Decidable c] {e : ε} {x : Unit} :
    require c e = .ok x ↔ c := by
  unfold require
  split <;> simp_all

@[simp] theorem require_error_iff {ε : Type u} {c : Prop} [Decidable c] {e e' : ε} :
    require c e = .error e' ↔ ¬c ∧ e = e' := by
  unfold require
  split <;> simp_all

/-- The value stored at a partial position, or the fault of reading outside. -/
def orFault {ε : Type u} {α : Type v} (e : ε) : Option α → Except ε α
  | some a => .ok a
  | none => .error e

@[simp] theorem orFault_ok_iff {ε : Type u} {α : Type v} {e : ε} {x : Option α} {a : α} :
    orFault e x = .ok a ↔ x = some a := by
  cases x <;> simp [orFault]

/-- Every fault that the computation can stop with satisfies `P`. -/
def Fails {ε : Type u} {α : Type v} (P : ε → Prop) (x : Except ε α) : Prop :=
  ∀ e, x = .error e → P e

section Fails

variable {ε : Type u} {α β : Type v} {P : ε → Prop}

theorem fails_ok (a : α) : Fails P (.ok a : Except ε α) := fun _ h => by cases h

theorem fails_error {e : ε} (h : P e) : Fails P (.error e : Except ε α) := by
  intro e' he
  cases he
  exact h

/-- A computation that can stop with no fault returns. -/
theorem exists_ok_of_fails {x : Except ε α} (h : Fails (fun _ => False) x) : ∃ a, x = .ok a := by
  cases x with
  | error e => exact (h e rfl).elim
  | ok a => exact ⟨a, rfl⟩

theorem fails_require {c : Prop} [Decidable c] {e : ε} (h : P e) : Fails P (require c e) := by
  intro e' he
  rw [(require_error_iff.mp he).2] at h
  exact h

theorem fails_orFault {e : ε} {x : Option α} (h : P e) : Fails P (orFault e x) := by
  cases x with
  | none => exact fails_error h
  | some a => exact fails_ok a

theorem fails_bind {x : Except ε α} {f : α → Except ε β} (hx : Fails P x)
    (hf : ∀ a, x = .ok a → Fails P (f a)) : Fails P (x >>= f) := by
  cases x with
  | error e => exact fails_error (hx e rfl)
  | ok a => exact hf a rfl

theorem fails_ite {c : Prop} [Decidable c] {x y : Except ε α} (hx : c → Fails P x)
    (hy : ¬c → Fails P y) : Fails P (if c then x else y) := by
  by_cases hc : c
  · rw [if_pos hc]
    exact hx hc
  · rw [if_neg hc]
    exact hy hc

theorem fails_mapM {l : List α} {f : α → Except ε β} (hf : ∀ a, Fails P (f a)) :
    Fails P (l.mapM f) := by
  induction l with
  | nil => exact fails_ok _
  | cons a l ih =>
    rw [List.mapM_cons]
    exact fails_bind (hf a) fun b _ => fails_bind ih fun l' _ => fails_ok _

end Fails

theorem fails_foldlM {ε : Type u} {α : Type u} {β : Type v} {P : ε → Prop} {l : List α}
    {f : β → α → Except ε β} (hf : ∀ b, ∀ a ∈ l, Fails P (f b a)) (b : β) :
    Fails P (l.foldlM f b) := by
  induction l generalizing b with
  | nil => exact fails_ok b
  | cons a l ih =>
    rw [List.foldlM_cons]
    exact fails_bind (hf b a List.mem_cons_self) fun b' _ =>
      ih (fun b'' x hx => hf b'' x (List.mem_cons_of_mem a hx)) b'

theorem foldlM_cons_ok_iff {ε : Type u} {α : Type u} {β : Type v} {f : β → α → Except ε β}
    {a : α} {l : List α} {b c : β} :
    (a :: l).foldlM f b = .ok c ↔ ∃ b', f b a = .ok b' ∧ l.foldlM f b' = .ok c := by
  rw [List.foldlM_cons]
  exact bind_ok_iff

/-- A loop stops with a fault only where one of its rounds does. -/
theorem fails_foldlM_at {ε : Type u} {α : Type u} {β : Type v} {f : β → α → Except ε β}
    {P : ε → Prop} {l : List α} {b : β}
    (h : ∀ before a after b', l = before ++ a :: after → before.foldlM f b = .ok b' →
      Fails P (f b' a)) : Fails P (l.foldlM f b) := by
  induction l generalizing b with
  | nil => exact fails_ok b
  | cons a l ih =>
    rw [List.foldlM_cons]
    refine fails_bind (h [] a l b rfl rfl) fun b₁ hb₁ => ih ?_
    intro before x after b' hsplit hbefore
    apply h (a :: before) x after b'
    · rw [hsplit]
      rfl
    · exact foldlM_cons_ok_iff.mpr ⟨b₁, hb₁, hbefore⟩

theorem foldlM_error_at {ε : Type u} {α : Type u} {β : Type v} {f : β → α → Except ε β}
    {before after : List α} {a : α} {b b' : β} {e : ε} (hbefore : before.foldlM f b = .ok b')
    (hstop : f b' a = .error e) : (before ++ a :: after).foldlM f b = .error e := by
  rw [List.foldlM_append]
  refine (bind_of_ok hbefore).trans ?_
  rw [List.foldlM_cons]
  exact bind_of_error hstop

/-- What every round of a loop preserves holds when the loop ends. -/
theorem foldlM_invariant {ε : Type u} {α : Type u} {β : Type v} {f : β → α → Except ε β}
    {P : β → Prop} {l : List α} {b c : β}
    (step : ∀ b a b', a ∈ l → P b → f b a = .ok b' → P b')
    (h : l.foldlM f b = .ok c) (hb : P b) : P c := by
  induction l generalizing b with
  | nil =>
    obtain rfl := pure_ok_iff.mp h
    exact hb
  | cons a l ih =>
    obtain ⟨b', hf, hl⟩ := foldlM_cons_ok_iff.mp h
    exact ih (fun b x b' hx => step b x b' (List.mem_cons_of_mem a hx)) hl
      (step b a b' List.mem_cons_self hb hf)

/-- A loop whose rounds return and follow the rounds of a second loop follows that loop. -/
theorem foldlM_follows {ε : Type u} {α : Type u} {β γ : Type v} {f : β → α → Except ε β}
    {g : γ → α → γ} {R : β → γ → Prop} {l : List α} {b : β} {c : γ}
    (step : ∀ b c a, a ∈ l → R b c → ∃ b', f b a = .ok b' ∧ R b' (g c a)) (h : R b c) :
    ∃ b', l.foldlM f b = .ok b' ∧ R b' (l.foldl g c) := by
  induction l generalizing b c with
  | nil => exact ⟨b, rfl, h⟩
  | cons a l ih =>
    obtain ⟨b₁, hb₁, h₁⟩ := step b c a List.mem_cons_self h
    obtain ⟨b', hb', h'⟩ := ih (fun b c x hx => step b c x (List.mem_cons_of_mem a hx)) h₁
    exact ⟨b', foldlM_cons_ok_iff.mpr ⟨b₁, hb₁, hb'⟩, h'⟩

/-- A loop that updates the entries of a container in place and threads a state. -/
def sweep {ε : Type u} {α σ : Type v} (f : α → σ → Except ε (α × σ)) :
    List α → σ → Except ε (List α × σ)
  | [], s => .ok ([], s)
  | a :: l, s => do
    let (a', s') ← f a s
    let (l', s'') ← sweep f l s'
    pure (a' :: l', s'')

section Sweep

variable {ε : Type u} {α σ : Type v} {f : α → σ → Except ε (α × σ)}

theorem sweep_cons_ok_iff {a : α} {l l' : List α} {s s' : σ} :
    sweep f (a :: l) s = .ok (l', s') ↔
      ∃ a' s₁ t, f a s = .ok (a', s₁) ∧ sweep f l s₁ = .ok (t, s') ∧ l' = a' :: t := by
  simp only [sweep, bind_ok_iff, pure_ok_iff, Prod.mk.injEq, Prod.exists]
  constructor
  · rintro ⟨a', s₁, hf, t, s₂, hs, rfl, rfl⟩
    exact ⟨a', s₁, t, hf, hs, rfl⟩
  · rintro ⟨a', s₁, t, hf, hs, rfl⟩
    exact ⟨a', s₁, hf, t, s', hs, rfl, rfl⟩

theorem sweep_append_ok_iff {l₁ l₂ l' : List α} {s s' : σ} :
    sweep f (l₁ ++ l₂) s = .ok (l', s') ↔
      ∃ t₁ t₂ s₁, sweep f l₁ s = .ok (t₁, s₁) ∧ sweep f l₂ s₁ = .ok (t₂, s') ∧ l' = t₁ ++ t₂ := by
  induction l₁ generalizing l' s with
  | nil =>
    constructor
    · intro h
      exact ⟨[], l', s, rfl, h, rfl⟩
    · rintro ⟨t₁, t₂, s₁, h, hs, rfl⟩
      cases h
      exact hs
  | cons a l ih =>
    constructor
    · intro h
      obtain ⟨a', s₁, t, hf, hs, rfl⟩ := sweep_cons_ok_iff.mp h
      obtain ⟨t₁, t₂, s₂, h₁, h₂, rfl⟩ := ih.mp hs
      exact ⟨a' :: t₁, t₂, s₂, sweep_cons_ok_iff.mpr ⟨a', s₁, t₁, hf, h₁, rfl⟩, h₂, rfl⟩
    · rintro ⟨t₁, t₂, s₂, h₁, h₂, rfl⟩
      obtain ⟨a', s₁, t, hf, hs, rfl⟩ := sweep_cons_ok_iff.mp h₁
      exact sweep_cons_ok_iff.mpr ⟨a', s₁, t ++ t₂, hf, ih.mpr ⟨t, t₂, s₂, hs, h₂, rfl⟩, rfl⟩

theorem fails_sweep {P : ε → Prop} {l : List α} {s : σ}
    (h : ∀ before a after, l = before ++ a :: after → ∀ l' s₁,
      sweep f before s = .ok (l', s₁) → Fails P (f a s₁)) : Fails P (sweep f l s) := by
  induction l generalizing s with
  | nil => exact fails_ok _
  | cons a l ih =>
    refine fails_bind (h [] a l rfl [] s rfl) fun p hp => fails_bind (ih ?_) fun _ _ => fails_ok _
    intro before b after hsplit l' s₁ hbefore
    refine h (a :: before) b after (by rw [hsplit]; rfl) (p.1 :: l') s₁ ?_
    exact sweep_cons_ok_iff.mpr ⟨p.1, p.2, l', hp, hbefore, rfl⟩

end Sweep

end SidelinkORe
