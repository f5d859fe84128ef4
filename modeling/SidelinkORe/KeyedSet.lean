import Mathlib.Data.List.Basic
import Mathlib.Order.Lattice

namespace SidelinkORe

universe u v

/-- A set whose elements are compared by a key only; the elements are listed by rising key. -/
structure KeyedSet {α : Type u} {κ : Type v} [LinearOrder κ] (key : α → κ) where
  elems : List α
  sorted : elems.Pairwise (fun a b => key a < key b)

section Insert

variable {α : Type u} {κ : Type v} [LinearOrder κ] (key : α → κ)

/-- Insert by key; an element of an equal key that is already there stays. -/
def insertByKey (a : α) : List α → List α
  | [] => [a]
  | b :: l =>
    if key a < key b then a :: b :: l
    else if key b < key a then b :: insertByKey a l
    else b :: l

variable {key}

theorem mem_insertByKey {a x : α} {l : List α} (h : x ∈ insertByKey key a l) : x = a ∨ x ∈ l := by
  induction l with
  | nil => simpa [insertByKey] using h
  | cons b l ih =>
    unfold insertByKey at h
    split at h
    · simpa using h
    · split at h
      · rcases List.mem_cons.mp h with rfl | h
        · exact Or.inr (by simp)
        · exact (ih h).imp_right (List.mem_cons_of_mem b)
      · exact Or.inr h

theorem mem_insertByKey_of_mem {a x : α} {l : List α} (h : x ∈ l) : x ∈ insertByKey key a l := by
  induction l with
  | nil => simp at h
  | cons b l ih =>
    unfold insertByKey
    split
    · exact List.mem_cons_of_mem a h
    · split
      · rcases List.mem_cons.mp h with rfl | h
        · simp
        · exact List.mem_cons_of_mem b (ih h)
      · exact h

/-- After an insertion the key is present, by the new element or by the one that stayed. -/
theorem exists_key_insertByKey (a : α) (l : List α) :
    ∃ x ∈ insertByKey key a l, key x = key a := by
  induction l with
  | nil => exact ⟨a, by simp [insertByKey], rfl⟩
  | cons b l ih =>
    unfold insertByKey
    split
    · exact ⟨a, by simp, rfl⟩
    · split
      · obtain ⟨x, hx, he⟩ := ih
        exact ⟨x, List.mem_cons_of_mem b hx, he⟩
      · exact ⟨b, by simp, le_antisymm (not_lt.mp ‹_›) (not_lt.mp ‹_›)⟩

theorem insertByKey_sorted {a : α} {l : List α}
    (h : l.Pairwise (fun a b => key a < key b)) :
    (insertByKey key a l).Pairwise (fun a b => key a < key b) := by
  induction l with
  | nil => simp [insertByKey]
  | cons b l ih =>
    have hb := List.pairwise_cons.mp h
    unfold insertByKey
    split
    · rename_i hab
      refine List.pairwise_cons.mpr ⟨fun x hx => ?_, h⟩
      rcases List.mem_cons.mp hx with rfl | hx
      · exact hab
      · exact hab.trans (hb.1 x hx)
    · split
      · rename_i hba
        refine List.pairwise_cons.mpr ⟨fun x hx => ?_, ih hb.2⟩
        rcases mem_insertByKey hx with rfl | hx
        · exact hba
        · exact hb.1 x hx
      · exact h

theorem insertByKey_eq_self {a b : α} {l : List α} (hl : l.Pairwise (fun a b => key a < key b))
    (hb : b ∈ l) (h : key b = key a) : insertByKey key a l = l := by
  induction l with
  | nil => simp at hb
  | cons c l ih =>
    obtain ⟨hc, hrest⟩ := List.pairwise_cons.mp hl
    have hle : key c ≤ key b := by
      rcases List.mem_cons.mp hb with rfl | hb
      · exact le_rfl
      · exact (hc b hb).le
    unfold insertByKey
    rw [if_neg (not_lt.mpr (h ▸ hle))]
    split
    · rename_i hca
      have hbl : b ∈ l := (List.mem_cons.mp hb).resolve_left fun hbc => by
        rw [← hbc, h] at hca
        exact lt_irrefl _ hca
      rw [ih hrest hbl]
    · rfl

theorem insertByKey_eq_append {a : α} {l : List α} (h : ∀ b ∈ l, key b < key a) :
    insertByKey key a l = l ++ [a] := by
  induction l with
  | nil => rfl
  | cons b l ih =>
    have hb := h b (by simp)
    have ht := ih (fun x hx => h x (List.mem_cons_of_mem b hx))
    simp [insertByKey, hb, not_lt_of_gt hb, ht]

end Insert

namespace KeyedSet

variable {α : Type u} {κ : Type v} [LinearOrder κ] {key : α → κ}

def empty : KeyedSet key := ⟨[], .nil⟩

/-- The insertion of a `std::set`: the stored element wins over a new one of the same key. -/
def emplace (s : KeyedSet key) (a : α) : KeyedSet key :=
  ⟨insertByKey key a s.elems, insertByKey_sorted s.sorted⟩

/-- Whether an insertion would really add the element. -/
def isNew (s : KeyedSet key) (a : α) : Bool := s.elems.all fun b => decide (key b ≠ key a)

/-- The set without its first element. -/
def eraseBegin (s : KeyedSet key) : KeyedSet key := ⟨s.elems.tail, s.sorted.sublist (List.tail_sublist _)⟩

def hasKey (s : KeyedSet key) (k : κ) : Bool := s.elems.any fun b => decide (key b = k)

theorem ext_elems {s t : KeyedSet key} (h : s.elems = t.elems) : s = t := by
  cases s
  cases t
  cases h
  rfl

instance [DecidableEq α] : DecidableEq (KeyedSet key) := fun s t =>
  decidable_of_iff (s.elems = t.elems) ⟨ext_elems, congrArg elems⟩

@[simp] theorem elems_empty : (empty : KeyedSet key).elems = [] := rfl

@[simp] theorem elems_emplace (s : KeyedSet key) (a : α) :
    (s.emplace a).elems = insertByKey key a s.elems := rfl

@[simp] theorem elems_eraseBegin (s : KeyedSet key) : s.eraseBegin.elems = s.elems.tail := rfl

theorem hasKey_iff {s : KeyedSet key} {k : κ} : s.hasKey k = true ↔ ∃ b ∈ s.elems, key b = k := by
  simp [hasKey]

theorem isNew_iff {s : KeyedSet key} {a : α} : s.isNew a = true ↔ ∀ b ∈ s.elems, key b ≠ key a := by
  simp [isNew]

theorem eq_of_key_eq {s : KeyedSet key} {a b : α} (ha : a ∈ s.elems) (hb : b ∈ s.elems)
    (h : key a = key b) : a = b := by
  obtain ⟨l, hs⟩ := s
  induction l with
  | nil => simp at ha
  | cons c l ih =>
    have hc := List.pairwise_cons.mp hs
    rcases List.mem_cons.mp ha with rfl | ha'
    · rcases List.mem_cons.mp hb with rfl | hb'
      · rfl
      · exact absurd h (hc.1 b hb').ne
    · rcases List.mem_cons.mp hb with rfl | hb'
      · exact absurd h (hc.1 a ha').ne'
      · exact ih hc.2 ha' hb'

theorem lt_of_mem_tail {s : KeyedSet key} {a b : α} {l : List α} (h : s.elems = a :: l)
    (hb : b ∈ l) : key a < key b := by
  have hs := s.sorted
  rw [h] at hs
  exact (List.pairwise_cons.mp hs).1 b hb

theorem key_lt_of_getElem? {s : KeyedSet key} {i j : Nat} {a b : α} (ha : s.elems[i]? = some a)
    (hb : s.elems[j]? = some b) (hij : i < j) : key a < key b := by
  obtain ⟨hi, rfl⟩ := List.getElem?_eq_some_iff.mp ha
  obtain ⟨hj, rfl⟩ := List.getElem?_eq_some_iff.mp hb
  exact List.pairwise_iff_getElem.mp s.sorted i j hi hj hij

theorem next_le {s : KeyedSet key} {j : Nat} {a b c : α} (ha : s.elems[j]? = some a)
    (hb : s.elems[j + 1]? = some b) (hc : c ∈ s.elems) (h : key a < key c) : key b ≤ key c := by
  obtain ⟨i, hi⟩ := List.mem_iff_getElem?.mp hc
  have hji : j < i := by
    by_contra hle
    rcases Nat.lt_or_eq_of_le (Nat.le_of_not_lt hle) with hlt | rfl
    · exact lt_asymm h (key_lt_of_getElem? hi ha hlt)
    · rw [Option.some.inj (ha.symm.trans hi)] at h
      exact lt_irrefl _ h
  rcases Nat.lt_or_eq_of_le (Nat.succ_le_of_lt hji) with hlt | heq
  · exact (key_lt_of_getElem? hb hi hlt).le
  · rw [← heq] at hi
    exact le_of_eq (congrArg key (Option.some.inj (hb.symm.trans hi)))

/-- Inserting a list one by one. -/
def emplaceAll (s : KeyedSet key) (l : List α) : KeyedSet key := l.foldl emplace s

@[simp] theorem emplaceAll_nil (s : KeyedSet key) : s.emplaceAll [] = s := rfl

@[simp] theorem emplaceAll_cons (s : KeyedSet key) (a : α) (l : List α) :
    s.emplaceAll (a :: l) = (s.emplace a).emplaceAll l := rfl

theorem mem_emplaceAll {s : KeyedSet key} {l : List α} {x : α} (h : x ∈ (s.emplaceAll l).elems) :
    x ∈ l ∨ x ∈ s.elems := by
  induction l generalizing s with
  | nil => exact Or.inr h
  | cons a l ih =>
    rcases ih h with hl | hs
    · exact Or.inl (List.mem_cons_of_mem a hl)
    · rcases mem_insertByKey hs with rfl | hs
      · exact Or.inl (by simp)
      · exact Or.inr hs

theorem mem_emplaceAll_of_mem {s : KeyedSet key} {l : List α} {x : α} (h : x ∈ s.elems) :
    x ∈ (s.emplaceAll l).elems := by
  induction l generalizing s with
  | nil => exact h
  | cons a l ih => exact ih (mem_insertByKey_of_mem h)

theorem exists_key_emplaceAll {s : KeyedSet key} {l : List α} {x : α} (h : x ∈ l) :
    ∃ y ∈ (s.emplaceAll l).elems, key y = key x := by
  induction l generalizing s with
  | nil => simp at h
  | cons a l ih =>
    rcases List.mem_cons.mp h with rfl | h
    · obtain ⟨y, hy, he⟩ := @exists_key_insertByKey _ _ _ key x s.elems
      exact ⟨y, mem_emplaceAll_of_mem (s := s.emplace x) hy, he⟩
    · exact ih h

theorem elems_emplaceAll_of_sorted {s : KeyedSet key} {l : List α}
    (hl : l.Pairwise (fun a b => key a < key b)) (h : ∀ a ∈ s.elems, ∀ b ∈ l, key a < key b) :
    (s.emplaceAll l).elems = s.elems ++ l := by
  induction l generalizing s with
  | nil => simp
  | cons a l ih =>
    have ha := List.pairwise_cons.mp hl
    have he : (s.emplace a).elems = s.elems ++ [a] :=
      insertByKey_eq_append fun b hb => h b hb a (by simp)
    have hn : ∀ x ∈ (s.emplace a).elems, ∀ b ∈ l, key x < key b := by
      intro x hx b hb
      rw [he] at hx
      rcases List.mem_append.mp hx with hx | hx
      · exact h x hx b (List.mem_cons_of_mem a hb)
      · rw [List.mem_singleton.mp hx]
        exact ha.1 b hb
    rw [emplaceAll_cons, ih ha.2 hn, he, List.append_assoc]
    rfl

end KeyedSet

end SidelinkORe
