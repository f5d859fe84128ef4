import SidelinkORe.Outcome
import Mathlib.Data.List.Nodup

namespace SidelinkORe

universe u v

/-- A finite map as a list of entries with distinct keys; the order of the entries is that of a
traversal. -/
structure Table (κ α : Type u) where
  entries : List (κ × α)
  nodup : (entries.map Prod.fst).Nodup

namespace Table

variable {κ α σ ε : Type u} [DecidableEq κ]

def empty : Table κ α := ⟨[], List.nodup_nil⟩

def find? (T : Table κ α) (k : κ) : Option α := (T.entries.find? fun e => e.1 = k).map Prod.snd

theorem find?_eq_some_iff {T : Table κ α} {k : κ} {a : α} :
    T.find? k = some a ↔ (k, a) ∈ T.entries := by
  unfold find?
  constructor
  · intro h
    obtain ⟨e, he, rfl⟩ := Option.map_eq_some_iff.mp h
    have hk : e.1 = k := by simpa using List.find?_some he
    have hmem := List.mem_of_find?_eq_some he
    rw [← hk]
    exact hmem
  · intro h
    obtain ⟨l, hnodup⟩ := T
    induction l with
    | nil => simp at h
    | cons e l ih =>
      obtain ⟨he, hl⟩ := List.nodup_cons.mp hnodup
      by_cases hek : e.1 = k
      · rcases List.mem_cons.mp h with rfl | hin
        · simp
        · exact absurd (List.mem_map_of_mem (f := Prod.fst) hin) (hek ▸ he)
      · have hin : (k, a) ∈ l := by
          rcases List.mem_cons.mp h with rfl | hin
          · exact absurd rfl hek
          · exact hin
        simpa [List.find?_cons, hek] using ih hl hin

theorem find?_eq_none_iff {T : Table κ α} {k : κ} :
    T.find? k = none ↔ k ∉ T.entries.map Prod.fst := by
  constructor
  · intro h hin
    obtain ⟨⟨_, a⟩, hmem, rfl⟩ := List.mem_map.mp hin
    rw [find?_eq_some_iff.mpr hmem] at h
    cases h
  · intro h
    cases hfind : T.find? k with
    | none => rfl
    | some a =>
      have hmem := find?_eq_some_iff.mp hfind
      exact absurd (List.mem_map_of_mem (f := Prod.fst) hmem) h

/-- Replace the value of a key, or add the key at the end. -/
def put (T : Table κ α) (k : κ) (a : α) : Table κ α :=
  if h : k ∈ T.entries.map Prod.fst then
    ⟨T.entries.map fun e => if e.1 = k then (k, a) else e, by
      have hkeys : (T.entries.map fun e => if e.1 = k then (k, a) else e).map Prod.fst =
          T.entries.map Prod.fst := by
        rw [List.map_map]
        refine List.map_congr_left fun e _ => ?_
        by_cases he : e.1 = k <;> simp [he]
      exact hkeys ▸ T.nodup⟩
  else
    ⟨T.entries ++ [(k, a)], by
      rw [List.map_append]
      refine List.nodup_append.mpr ⟨T.nodup, by simp, fun x hx y hy => ?_⟩
      obtain rfl := List.mem_singleton.mp hy
      exact fun hxy => h (hxy ▸ hx)⟩

theorem find?_put_self (T : Table κ α) (k : κ) (a : α) : (T.put k a).find? k = some a := by
  apply find?_eq_some_iff.mpr
  unfold put
  split
  next h =>
    obtain ⟨e, he, rfl⟩ := List.mem_map.mp h
    exact List.mem_map.mpr ⟨e, he, by simp⟩
  next => simp

theorem find?_put_ne (T : Table κ α) {k k' : κ} (a : α) (hne : k' ≠ k) :
    (T.put k a).find? k' = T.find? k' := by
  have hiff : ∀ b, (T.put k a).find? k' = some b ↔ T.find? k' = some b := by
    intro b
    rw [find?_eq_some_iff, find?_eq_some_iff]
    unfold put
    split
    next =>
      constructor
      · intro h
        obtain ⟨e, he, heq⟩ := List.mem_map.mp h
        split at heq
        next => exact absurd (Prod.mk.inj heq).1.symm hne
        next => exact heq ▸ he
      · intro h
        exact List.mem_map.mpr ⟨_, h, if_neg hne⟩
    next => simp [hne]
  exact Option.ext hiff

/-- `std::map::insert`: an entry that is there stays as it is. -/
def insert (T : Table κ α) (k : κ) (a : α) : Table κ α :=
  if (T.find? k).isSome = true then T else T.put k a

theorem find?_insert (T : Table κ α) (k k' : κ) (a : α) :
    (T.insert k a).find? k' = (T.find? k').or (if k' = k then some a else none) := by
  unfold insert
  by_cases hk : k' = k
  · subst hk
    rw [if_pos rfl]
    cases hfind : T.find? k' with
    | none => exact find?_put_self T k' a
    | some b => exact hfind
  · rw [if_neg hk, Option.or_none]
    split
    next => rfl
    next => exact find?_put_ne T a hk

/-- A replaced value that looks the same to `f` does not change what `f` sees in a traversal. -/
theorem map_entries_put {γ : Type v} {T : Table κ α} {k : κ} {a b : α} {f : κ × α → γ}
    (hk : T.find? k = some b) (hf : f (k, a) = f (k, b)) : (T.put k a).entries.map f = T.entries.map f := by
  have hmem := find?_eq_some_iff.mp hk
  unfold put
  rw [dif_pos (List.mem_map_of_mem (f := Prod.fst) hmem), List.map_map]
  apply List.map_congr_left
  intro e he
  show f (if e.1 = k then (k, a) else e) = f e
  split
  next hek =>
    have hb : some e.2 = some b := by
      rw [← hk, ← hek]
      exact (find?_eq_some_iff.mpr he).symm
    rw [hf, ← Option.some.inj hb, ← hek]
  next => rfl

/-- The same map, traversed in another order. -/
def reorder (T : Table κ α) (l : List (κ × α)) (h : l.Perm T.entries) : Table κ α :=
  ⟨l, (h.map Prod.fst).nodup_iff.mpr T.nodup⟩

theorem find?_reorder {T : Table κ α} {l : List (κ × α)} (h : l.Perm T.entries) (k : κ) :
    (T.reorder l h).find? k = T.find? k := by
  refine Option.ext fun a => ?_
  rw [find?_eq_some_iff, find?_eq_some_iff]
  exact h.mem_iff

end Table

section Sweep

variable {κ α σ ε : Type u} {f : κ → α → σ → Except ε (α × σ)}

variable (f) in
/-- The update of one entry, which leaves its key as it is. -/
def visit (e : κ × α) (s : σ) : Except ε ((κ × α) × σ) := do
  let (a, s') ← f e.1 e.2 s
  pure ((e.1, a), s')

theorem visit_ok_iff {e e' : κ × α} {s s' : σ} :
    visit f e s = .ok (e', s') ↔ e'.1 = e.1 ∧ f e.1 e.2 s = .ok (e'.2, s') := by
  obtain ⟨k', a'⟩ := e'
  unfold visit
  simp only [bind_ok_iff, pure_ok_iff, Prod.mk.injEq, Prod.exists]
  constructor
  · rintro ⟨a, s₁, h, ⟨rfl, rfl⟩, rfl⟩
    exact ⟨rfl, h⟩
  · rintro ⟨rfl, h⟩
    exact ⟨a', s', h, ⟨rfl, rfl⟩, rfl⟩

theorem sweep_keys {l l' : List (κ × α)} {s s' : σ} (h : sweep (visit f) l s = .ok (l', s')) :
    l'.map Prod.fst = l.map Prod.fst := by
  induction l generalizing l' s with
  | nil =>
    cases h
    rfl
  | cons e l ih =>
    obtain ⟨e', s₁, t, he, hl, rfl⟩ := sweep_cons_ok_iff.mp h
    rw [List.map_cons, List.map_cons, (visit_ok_iff.mp he).1, ih hl]

/-- What every update of the threaded state guarantees, a whole sweep guarantees. -/
theorem sweep_relates {R : σ → σ → Prop} (refl : ∀ s, R s s)
    (trans : ∀ s₁ s₂ s₃, R s₁ s₂ → R s₂ s₃ → R s₁ s₃) {l l' : List (κ × α)} {s s' : σ}
    (step : ∀ e ∈ l, ∀ s a s', f e.1 e.2 s = .ok (a, s') → R s s')
    (h : sweep (visit f) l s = .ok (l', s')) : R s s' := by
  induction l generalizing l' s with
  | nil =>
    cases h
    exact refl s'
  | cons e l ih =>
    obtain ⟨e', s₁, t, he, hl, rfl⟩ := sweep_cons_ok_iff.mp h
    exact trans _ _ _ (step e List.mem_cons_self _ _ _ (visit_ok_iff.mp he).2)
      (ih (fun x hx => step x (List.mem_cons_of_mem e hx)) hl)

variable (f) in
def sweepTable (T : Table κ α) (s : σ) : Except ε (Table κ α × σ) :=
  match h : sweep (visit f) T.entries s with
  | .error e => .error e
  | .ok (l, s') => .ok (⟨l, sweep_keys h ▸ T.nodup⟩, s')

theorem sweepTable_ok {T T' : Table κ α} {s s' : σ} (h : sweepTable f T s = .ok (T', s')) :
    sweep (visit f) T.entries s = .ok (T'.entries, s') := by
  unfold sweepTable at h
  split at h
  next => cases h
  next l s₁ hl =>
    cases h
    exact hl

theorem fails_sweepTable {P : ε → Prop} {T : Table κ α} {s : σ}
    (h : Fails P (sweep (visit f) T.entries s)) : Fails P (sweepTable f T s) := by
  intro e he
  unfold sweepTable at he
  split at he
  next e' he' =>
    cases he
    exact h e he'
  next => cases he

/-- A key's turn in a sweep: the entries before it, its own update, the entries after it. -/
structure Turn (f : κ → α → σ → Except ε (α × σ)) (l l' : List (κ × α)) (s s' : σ) (k : κ) (a : α)
    (before : List (κ × α)) (s₁ : σ) (a' : α) (s₂ : σ) (after : List (κ × α)) : Prop where
  entries : l = before ++ (k, a) :: after
  earlier : ∃ t, sweep (visit f) before s = .ok (t, s₁)
  own : f k a s₁ = .ok (a', s₂)
  later : ∃ t, sweep (visit f) after s₂ = .ok (t, s')
  result : (k, a') ∈ l'
  others : ∀ e, e ∈ before ∨ e ∈ after → e.1 ≠ k

theorem sweep_turn {l l' : List (κ × α)} {s s' : σ} {k : κ} {a : α}
    (hnodup : (l.map Prod.fst).Nodup) (h : sweep (visit f) l s = .ok (l', s')) (hk : (k, a) ∈ l) :
    ∃ before s₁ a' s₂ after, Turn f l l' s s' k a before s₁ a' s₂ after := by
  obtain ⟨before, after, rfl⟩ := List.append_of_mem hk
  obtain ⟨l₁, l₂, s₁, h₁, h₂, hl⟩ := sweep_append_ok_iff.mp h
  obtain ⟨e', s₂, t, he, hrest, rfl⟩ := sweep_cons_ok_iff.mp h₂
  obtain ⟨hkey, hown⟩ := visit_ok_iff.mp he
  refine ⟨before, s₁, e'.2, s₂, after, rfl, ⟨l₁, h₁⟩, hown, ⟨t, hrest⟩, ?_, fun e he hek => ?_⟩
  · have he' : (k, e'.2) = e' := Prod.ext hkey.symm rfl
    rw [hl, he']
    exact List.mem_append_right l₁ List.mem_cons_self
  · rw [List.map_append, List.map_cons] at hnodup
    have hmiddle := List.nodup_middle.mp hnodup
    apply (List.nodup_cons.mp hmiddle).1
    change k ∈ _
    rw [← hek]
    rcases he with hb | ha
    · exact List.mem_append_left _ (List.mem_map_of_mem hb)
    · exact List.mem_append_right _ (List.mem_map_of_mem ha)

variable [DecidableEq κ]

theorem sweepTable_find?_none {T T' : Table κ α} {s s' : σ} {k : κ}
    (h : sweepTable f T s = .ok (T', s')) : T'.find? k = none ↔ T.find? k = none := by
  rw [Table.find?_eq_none_iff, Table.find?_eq_none_iff, sweep_keys (sweepTable_ok h)]

end Sweep

end SidelinkORe
