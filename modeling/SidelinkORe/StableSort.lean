import Mathlib.Data.List.Sort

namespace SidelinkORe

section StableSort

variable {α κ : Type} [LinearOrder κ] (key : α → κ)

/-- A stable sort by falling keys: elements with equal keys keep their order. -/
def sortFalling (l : List α) : List α := l.insertionSort fun a b => key b ≤ key a

/-- An element of a numbered list stands before another one: its key is lower, or the keys are
equal and it comes later in the list. -/
def StandsBefore (x y : α × Nat) : Prop := key x.1 < key y.1 ∨ key x.1 = key y.1 ∧ y.2 < x.2

instance : DecidableRel (StandsBefore key) := fun x y =>
  inferInstanceAs (Decidable (key x.1 < key y.1 ∨ key x.1 = key y.1 ∧ y.2 < x.2))

/-- The number of elements of the list that stand before an element. -/
def place (l : List α) (x : α × Nat) : Nat :=
  l.zipIdx.countP fun y => decide (StandsBefore key y x)

variable {key} {l : List α} {x y z : α × Nat}

theorem StandsBefore.asymm (h : StandsBefore key x y) : ¬StandsBefore key y x := by
  rintro (hlt | ⟨heq, hlater⟩)
  · rcases h with hlt' | ⟨heq', _⟩
    · exact lt_asymm hlt hlt'
    · exact hlt.ne heq'.symm
  · rcases h with hlt' | ⟨_, hlater'⟩
    · exact hlt'.ne heq.symm
    · omega

theorem perm_sortFalling (l : List α) : (sortFalling key l).Perm l := List.perm_insertionSort _ l

theorem pairwise_orderedInsert {s : List (α × Nat)} {a : α × Nat}
    (hs : s.Pairwise fun x y => StandsBefore key y x) (ha : ∀ b ∈ s, a.2 < b.2) :
    (s.orderedInsert (fun a b => key b.1 ≤ key a.1) a).Pairwise fun x y => StandsBefore key y x := by
  induction s with
  | nil => exact List.pairwise_singleton _ a
  | cons b s ih =>
    obtain ⟨hhead, htail⟩ := List.pairwise_cons.mp hs
    rw [List.orderedInsert_cons]
    split
    next hle =>
      refine List.pairwise_cons.mpr ⟨fun y hy => ?_, hs⟩
      have hyb : key y.1 ≤ key b.1 := by
        rcases List.mem_cons.mp hy with rfl | hy
        · exact le_rfl
        · rcases hhead y hy with hlt | ⟨heq, _⟩
          · exact hlt.le
          · exact heq.le
      rcases (hyb.trans hle).lt_or_eq with hlt | heq
      · exact Or.inl hlt
      · exact Or.inr ⟨heq, ha y hy⟩
    next hgt =>
      refine List.pairwise_cons.mpr
        ⟨fun y hy => ?_, ih htail fun c hc => ha c (List.mem_cons_of_mem b hc)⟩
      rcases (List.mem_orderedInsert _).mp hy with rfl | hy
      · exact Or.inl (not_le.mp hgt)
      · exact hhead y hy

theorem pairwise_sortFalling {s : List (α × Nat)} (hs : s.Pairwise fun a b => a.2 < b.2) :
    (sortFalling (fun x : α × Nat => key x.1) s).Pairwise fun x y => StandsBefore key y x := by
  induction s with
  | nil => exact List.Pairwise.nil
  | cons a s ih =>
    obtain ⟨hhead, htail⟩ := List.pairwise_cons.mp hs
    refine pairwise_orderedInsert (ih htail) fun b hb => hhead b ?_
    exact (perm_sortFalling s).mem_iff.mp hb

theorem pairwise_zipIdx (l : List α) (n : Nat) : (l.zipIdx n).Pairwise fun a b => a.2 < b.2 := by
  induction l generalizing n with
  | nil => exact List.Pairwise.nil
  | cons a l ih =>
    rw [List.zipIdx_cons]
    refine List.pairwise_cons.mpr ⟨fun b hb => ?_, ih (n + 1)⟩
    have := List.le_snd_of_mem_zipIdx hb
    omega

theorem map_sortFalling_zipIdx (l : List α) :
    (sortFalling (fun x : α × Nat => key x.1) l.zipIdx).map Prod.fst = sortFalling key l := by
  have hmap := List.map_insertionSort (fun a b : α × Nat => key b.1 ≤ key a.1)
    (fun a b => key b ≤ key a) Prod.fst l.zipIdx fun a _ b _ => Iff.rfl
  rw [List.zipIdx_map_fst] at hmap
  exact hmap

/-- In a list without ties the elements in front of one are those that stand before it. -/
theorem place_of_split {before after : List (α × Nat)}
    (hperm : (before ++ x :: after).Perm l.zipIdx)
    (hs : (before ++ x :: after).Pairwise (StandsBefore key)) :
    place key l x = before.length := by
  obtain ⟨_, hrest, hcross⟩ := List.pairwise_append.mp hs
  have hself : ¬StandsBefore key x x := fun h => h.asymm h
  have hbefore : before.countP (fun y => decide (StandsBefore key y x)) = before.length :=
    List.countP_eq_length.mpr fun y hy => decide_eq_true (hcross y hy x List.mem_cons_self)
  have hafter : after.countP (fun y => decide (StandsBefore key y x)) = 0 := by
    rw [List.countP_eq_zero]
    intro y hy
    rw [decide_eq_true_iff]
    exact ((List.pairwise_cons.mp hrest).1 y hy).asymm
  unfold place
  rw [← hperm.countP_eq, List.countP_append, List.countP_cons_of_neg (by simpa using hself), hbefore,
    hafter, Nat.add_zero]

variable (key) in
/-- The rising order of a reversed falling sort, with the elements numbered. -/
def risingPlaces (l : List α) : List (α × Nat) :=
  (sortFalling (fun x : α × Nat => key x.1) l.zipIdx).reverse

theorem map_risingPlaces (l : List α) :
    (risingPlaces key l).map Prod.fst = (sortFalling key l).reverse := by
  rw [risingPlaces, List.map_reverse, map_sortFalling_zipIdx]

theorem perm_risingPlaces (l : List α) : (risingPlaces key l).Perm l.zipIdx :=
  (List.reverse_perm _).trans (perm_sortFalling l.zipIdx)

theorem place_risingPlaces {i : Nat} (hi : (risingPlaces key l)[i]? = some x) :
    place key l x = i := by
  obtain ⟨hlt, hx⟩ := List.getElem?_eq_some_iff.mp hi
  have hsplit : (risingPlaces key l).take i ++ x :: (risingPlaces key l).drop (i + 1) =
      risingPlaces key l := by
    rw [← hx, List.getElem_cons_drop, List.take_append_drop]
  have hsorted : (risingPlaces key l).Pairwise (StandsBefore key) :=
    List.pairwise_reverse.mpr (pairwise_sortFalling (pairwise_zipIdx l 0))
  have hplace := place_of_split (hsplit ▸ perm_risingPlaces l) (hsplit ▸ hsorted)
  rw [hplace, List.length_take_of_le hlt.le]

theorem exists_place (hx : x ∈ l.zipIdx) : (risingPlaces key l)[place key l x]? = some x := by
  have hmem : x ∈ risingPlaces key l := (perm_risingPlaces l).mem_iff.mpr hx
  obtain ⟨i, hi⟩ := List.mem_iff_getElem?.mp hmem
  have hplace : place key l x = i := place_risingPlaces hi
  rw [hplace, hi]

theorem mem_take_risingPlaces {n : Nat} :
    x ∈ (risingPlaces key l).take n ↔ x ∈ l.zipIdx ∧ place key l x < n := by
  constructor
  · intro h
    obtain ⟨i, hi⟩ := List.mem_iff_getElem?.mp h
    rw [List.getElem?_take] at hi
    split at hi
    next hlt =>
      have hplace : place key l x = i := place_risingPlaces hi
      exact ⟨(perm_risingPlaces l).mem_iff.mp (List.mem_of_getElem? hi), hplace ▸ hlt⟩
    next => cases hi
  · rintro ⟨hmem, hplace⟩
    apply List.mem_of_getElem? (i := place key l x)
    rw [List.getElem?_take, if_pos hplace, exists_place hmem]

theorem mem_drop_risingPlaces {n : Nat} :
    x ∈ (risingPlaces key l).drop n ↔ x ∈ l.zipIdx ∧ n ≤ place key l x := by
  constructor
  · intro h
    obtain ⟨i, hi⟩ := List.mem_iff_getElem?.mp h
    rw [List.getElem?_drop] at hi
    have hplace : place key l x = n + i := place_risingPlaces hi
    exact ⟨(perm_risingPlaces l).mem_iff.mp (List.mem_of_getElem? hi), by omega⟩
  · rintro ⟨hmem, hplace⟩
    apply List.mem_of_getElem? (i := place key l x - n)
    rw [List.getElem?_drop, Nat.add_sub_cancel' hplace, exists_place hmem]

theorem rising_reverse_sortFalling (l : List α) :
    ((sortFalling key l).reverse).Pairwise fun a b => key a ≤ key b := by
  rw [← map_risingPlaces, List.pairwise_map, risingPlaces, List.pairwise_reverse]
  refine (pairwise_sortFalling (pairwise_zipIdx l 0)).imp fun h => ?_
  rcases h with hlt | ⟨heq, _⟩
  · exact hlt.le
  · exact heq.le

theorem take_countP {p : α → Bool} {s : List α} (hs : s.Pairwise fun a b => p b = true → p a = true) :
    s.take (s.countP p) = s.filter p := by
  induction s with
  | nil => rfl
  | cons a s ih =>
    obtain ⟨hhead, htail⟩ := List.pairwise_cons.mp hs
    by_cases ha : p a = true
    · rw [List.countP_cons_of_pos ha, List.filter_cons_of_pos ha, List.take_succ_cons, ih htail]
    · have hnone : ∀ b ∈ s, ¬p b = true := fun b hb hpb => ha (hhead b hb hpb)
      rw [List.countP_cons_of_neg ha, List.filter_cons_of_neg ha, List.countP_eq_zero.mpr hnone,
        List.filter_eq_nil_iff.mpr hnone, List.take_zero]

end StableSort

end SidelinkORe
