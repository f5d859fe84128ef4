import SidelinkORe.PscchCapture

namespace SidelinkORe

section Pass

/-- The RBs of one message in the collision pass of `RxSlPssch`, which goes on after a collision. -/
def collideAllRbs : Finset Nat × Finset Nat → List Nat → Finset Nat × Finset Nat
  | acc, [] => acc
  | acc, rb :: rbs =>
    if rb ∈ acc.1 then collideAllRbs (acc.1, insert rb acc.2) rbs
    else collideAllRbs (insert rb acc.1, acc.2) rbs

/-- Which transport blocks `RxSlPssch` labels as collided. -/
def rxSlPsschMarks (family : List (List Nat)) : List Bool :=
  let collided := (family.foldl collideAllRbs (∅, ∅)).2
  family.map fun rbs => rbs.any fun rb => decide (rb ∈ collided)

variable {family : List (List Nat)} {rbs : List Nat} {acc : Finset Nat × Finset Nat} {i j k rb : Nat}

/-- The message at position `i` uses an RB. -/
def Uses (family : List (List Nat)) (i rb : Nat) : Prop := ∃ rbs, family[i]? = some rbs ∧ rb ∈ rbs

def MeetsAnother (family : List (List Nat)) (i : Nat) : Prop :=
  ∃ j, j ≠ i ∧ ∃ rb, Uses family i rb ∧ Uses family j rb

/-- An RB of a list in front of which there is none of `seen`. -/
def ReachedIn (seen : Nat → Prop) (rbs : List Nat) (rb : Nat) : Prop :=
  ∃ front back, rbs = front ++ rb :: back ∧ ∀ r ∈ front, ¬seen r

/-- A message gets to an RB unless an earlier message gets to one of its RBs in front of it. -/
def GetsTo (family : List (List Nat)) (j rb : Nat) : Prop :=
  ∃ rbs, family[j]? = some rbs ∧ ReachedIn (fun r => ∃ i, ∃ _ : i < j, GetsTo family i r) rbs rb
termination_by j

def ReachedByAnother (family : List (List Nat)) (i : Nat) : Prop :=
  ∃ j, j ≠ i ∧ ∃ rb, Uses family i rb ∧ GetsTo family j rb

theorem ReachedIn.mem {seen : Nat → Prop} (h : ReachedIn seen rbs rb) : rb ∈ rbs := by
  obtain ⟨front, back, rfl, _⟩ := h
  simp

theorem reachedIn_cons {seen : Nat → Prop} {r : Nat} :
    ReachedIn seen (r :: rbs) rb ↔ rb = r ∨ ¬seen r ∧ ReachedIn seen rbs rb := by
  constructor
  · rintro ⟨front, back, heq, hfront⟩
    cases front with
    | nil => exact Or.inl (List.cons.inj heq).1.symm
    | cons x front =>
      obtain ⟨rfl, htail⟩ := List.cons.inj heq
      obtain ⟨hr, hrest⟩ := List.forall_mem_cons.mp hfront
      exact Or.inr ⟨hr, front, back, htail, hrest⟩
  · rintro (rfl | ⟨hr, front, back, rfl, hfront⟩)
    · exact ⟨[], rbs, rfl, by simp⟩
    · exact ⟨r :: front, back, rfl, List.forall_mem_cons.mpr ⟨hr, hfront⟩⟩

theorem reachedIn_congr {seen seen' : Nat → Prop} (h : ∀ r ∈ rbs, seen r ↔ seen' r) :
    ReachedIn seen rbs rb ↔ ReachedIn seen' rbs rb := by
  constructor
  · rintro ⟨front, back, rfl, hfront⟩
    exact ⟨front, back, rfl, fun r hr hseen => hfront r hr ((h r (List.mem_append_left _ hr)).mpr hseen)⟩
  · rintro ⟨front, back, rfl, hfront⟩
    exact ⟨front, back, rfl, fun r hr hseen => hfront r hr ((h r (List.mem_append_left _ hr)).mp hseen)⟩

theorem reachedIn_or_seen (seen : Nat → Prop) (hrb : rb ∈ rbs) :
    ReachedIn seen rbs rb ∨ ∃ r, seen r ∧ ReachedIn seen rbs r := by
  induction rbs with
  | nil => cases hrb
  | cons r rbs ih =>
    by_cases hr : seen r
    · exact Or.inr ⟨r, hr, reachedIn_cons.mpr (Or.inl rfl)⟩
    · rcases List.mem_cons.mp hrb with rfl | hrb
      · exact Or.inl (reachedIn_cons.mpr (Or.inl rfl))
      · rcases ih hrb with hreached | ⟨x, hx, hreached⟩
        · exact Or.inl (reachedIn_cons.mpr (Or.inr ⟨hr, hreached⟩))
        · exact Or.inr ⟨x, hx, reachedIn_cons.mpr (Or.inr ⟨hr, hreached⟩)⟩

/-- What the RBs of one message add to those seen and to those that collide. -/
def Records (reached : Nat → Prop) (acc next : Finset Nat × Finset Nat) : Prop :=
  ∀ rb, (rb ∈ next.1 ↔ rb ∈ acc.1 ∨ reached rb) ∧ (rb ∈ next.2 ↔ rb ∈ acc.2 ∨ rb ∈ acc.1 ∧ reached rb)

/-- One message of the pass of `RxSlPscch` is recorded up to its first RB seen before. -/
theorem collideRbs_records (acc : Finset Nat × Finset Nat) (hnodup : rbs.Nodup) :
    Records (ReachedIn (· ∈ acc.1) rbs) acc (collideRbs acc rbs) := by
  induction rbs generalizing acc with
  | nil =>
    intro rb
    have hnone : ¬ReachedIn (· ∈ acc.1) [] rb := fun h => List.not_mem_nil h.mem
    simp [collideRbs, hnone]
  | cons r rbs ih =>
    obtain ⟨hr, hnodup⟩ := List.nodup_cons.mp hnodup
    intro rb
    rw [collideRbs, reachedIn_cons]
    split
    next hseen =>
      simp only [hseen, not_true_eq_false, false_and, or_false, Finset.mem_insert]
      constructor
      · exact ⟨Or.inl, fun h => h.elim id fun heq => heq ▸ hseen⟩
      · rw [or_comm]
        exact or_congr_right ⟨fun heq => ⟨heq ▸ hseen, heq⟩, And.right⟩
    next hnew =>
      have hsame : ReachedIn (· ∈ insert r acc.1) rbs rb ↔ ReachedIn (· ∈ acc.1) rbs rb := by
        refine reachedIn_congr fun x hx => ?_
        have hne : x ≠ r := fun heq => hr (heq ▸ hx)
        simp [hne]
      obtain ⟨hfirst, hsecond⟩ := ih (insert r acc.1, acc.2) hnodup rb
      rw [hfirst, hsecond, hsame]
      rcases eq_or_ne rb r with rfl | hne
      · have hnot : ¬ReachedIn (· ∈ acc.1) rbs rb := fun h => hr h.mem
        simp [hnew, hnot]
      · simp [hne, hnew]

/-- One message of the pass of `RxSlPssch` is recorded with all of its RBs. -/
theorem collideAllRbs_records (acc : Finset Nat × Finset Nat) (hnodup : rbs.Nodup) :
    Records (· ∈ rbs) acc (collideAllRbs acc rbs) := by
  induction rbs generalizing acc with
  | nil => intro rb; simp [collideAllRbs]
  | cons r rbs ih =>
    obtain ⟨hr, hnodup⟩ := List.nodup_cons.mp hnodup
    intro rb
    simp only [collideAllRbs, List.mem_cons]
    split
    next hseen =>
      obtain ⟨hfirst, hsecond⟩ := ih (acc.1, insert r acc.2) hnodup rb
      rw [hfirst, hsecond]
      rcases eq_or_ne rb r with rfl | hne
      · simp [hseen, hr]
      · simp [hne]
    next hnew =>
      obtain ⟨hfirst, hsecond⟩ := ih (insert r acc.1, acc.2) hnodup rb
      rw [hfirst, hsecond]
      rcases eq_or_ne rb r with rfl | hne
      · simp [hnew, hr]
      · simp [hne]

/-- The pass over the first `k` messages of the family. -/
def passOver (pass : Finset Nat × Finset Nat → List Nat → Finset Nat × Finset Nat)
    (family : List (List Nat)) (k : Nat) : Finset Nat × Finset Nat :=
  (family.take k).foldl pass (∅, ∅)

theorem passOver_succ (pass : Finset Nat × Finset Nat → List Nat → Finset Nat × Finset Nat) (h : family[k]? = some rbs) :
    passOver pass family (k + 1) = pass (passOver pass family k) rbs := by
  simp [passOver, List.take_add_one, h]

/-- The RBs seen are those that some message gets to, the collided ones those that two get to. -/
theorem passOver_sets (pass : Finset Nat × Finset Nat → List Nat → Finset Nat × Finset Nat)
    (reaches : Nat → Nat → Prop) (hk : k ≤ family.length)
    (hrecords : ∀ k rbs, family[k]? = some rbs →
      (∀ rb, rb ∈ (passOver pass family k).1 ↔ ∃ i < k, reaches i rb) →
      Records (reaches k) (passOver pass family k) (pass (passOver pass family k) rbs)) :
    ∀ rb, (rb ∈ (passOver pass family k).1 ↔ ∃ i < k, reaches i rb) ∧
      (rb ∈ (passOver pass family k).2 ↔ ∃ j < k, reaches j rb ∧ ∃ i < j, reaches i rb) := by
  induction k with
  | zero => simp [passOver]
  | succ k ih =>
    have hsets := ih (Nat.le_of_succ_le hk)
    have hget : family[k]? = some family[k] := List.getElem?_eq_getElem hk
    have hstep := hrecords k family[k] hget fun rb => (hsets rb).1
    intro rb
    rw [passOver_succ pass hget, (hstep rb).1, (hstep rb).2, (hsets rb).1, (hsets rb).2]
    constructor
    · rw [Nat.exists_lt_succ_right]
    · rw [Nat.exists_lt_succ_right, and_comm (a := reaches k rb)]

theorem getsTo_iff (h : family[j]? = some rbs) :
    GetsTo family j rb ↔ ReachedIn (fun r => ∃ i < j, GetsTo family i r) rbs rb := by
  rw [GetsTo]
  simp only [h, Option.some.injEq, exists_eq_left', exists_prop]

theorem getsTo_first (h : family[j]? = some (rb :: rbs)) : GetsTo family j rb :=
  (getsTo_iff h).mpr (reachedIn_cons.mpr (Or.inl rfl))

theorem GetsTo.uses (h : GetsTo family j rb) : Uses family j rb := by
  rw [GetsTo] at h
  obtain ⟨rbs, hget, hreached⟩ := h
  exact ⟨rbs, hget, hreached.mem⟩

theorem uses_iff (h : family[j]? = some rbs) : Uses family j rb ↔ rb ∈ rbs := by
  simp only [Uses, h, Option.some.injEq, exists_eq_left']

theorem collideRbs_foldl (hnodup : ∀ rbs ∈ family, rbs.Nodup) :
    rb ∈ (family.foldl collideRbs (∅, ∅)).2 ↔
      ∃ j < family.length, GetsTo family j rb ∧ ∃ i < j, GetsTo family i rb := by
  have hsets := passOver_sets collideRbs (GetsTo family) (Nat.le_refl family.length)
    fun k rbs hget hseen x => ?_
  · simpa [passOver] using (hsets rb).2
  · have hrecords := collideRbs_records (passOver collideRbs family k)
      (hnodup rbs (List.mem_of_getElem? hget)) x
    have hreached : ReachedIn (· ∈ (passOver collideRbs family k).1) rbs x ↔ GetsTo family k x := by
      rw [getsTo_iff hget]
      exact reachedIn_congr fun r _ => hseen r
    rwa [hreached] at hrecords

theorem collideAllRbs_foldl (hnodup : ∀ rbs ∈ family, rbs.Nodup) :
    rb ∈ (family.foldl collideAllRbs (∅, ∅)).2 ↔
      ∃ j < family.length, Uses family j rb ∧ ∃ i < j, Uses family i rb := by
  have hsets := passOver_sets collideAllRbs (Uses family) (Nat.le_refl family.length)
    fun k rbs hget _ x => ?_
  · simpa [passOver] using (hsets rb).2
  · rw [uses_iff hget]
    exact collideAllRbs_records (passOver collideAllRbs family k)
      (hnodup rbs (List.mem_of_getElem? hget)) x

/-- Two messages that get to an RB, one of them other than `i`. -/
theorem exists_other {reaches : Nat → Nat → Prop} (h : ∃ j < k, reaches j rb ∧ ∃ i < j, reaches i rb) :
    ∃ j, j ≠ i ∧ reaches j rb := by
  obtain ⟨j, _, hj, x, hxj, hx⟩ := h
  rcases eq_or_ne j i with rfl | hne
  · exact ⟨x, Nat.ne_of_lt hxj, hx⟩
  · exact ⟨j, hne, hj⟩

theorem exists_pair {reaches : Nat → Nat → Prop} (hij : j ≠ i) (hi : i < k) (hj : j < k)
    (hireaches : reaches i rb) (hjreaches : reaches j rb) :
    ∃ j < k, reaches j rb ∧ ∃ i < j, reaches i rb := by
  rcases Nat.lt_or_gt_of_ne hij with hlt | hlt
  · exact ⟨i, hi, hireaches, j, hlt, hjreaches⟩
  · exact ⟨j, hj, hjreaches, i, hlt, hireaches⟩

theorem Uses.lt (h : Uses family i rb) : i < family.length := by
  obtain ⟨rbs, hget, _⟩ := h
  exact (List.getElem?_eq_some_iff.mp hget).1

/-- `RxSlPssch` labels exactly the messages that meet another one. -/
theorem usesCollidedAll_iff (hnodup : ∀ rbs ∈ family, rbs.Nodup) :
    (∃ rb, Uses family i rb ∧ rb ∈ (family.foldl collideAllRbs (∅, ∅)).2) ↔ MeetsAnother family i := by
  simp only [collideAllRbs_foldl hnodup]
  constructor
  · rintro ⟨rb, hi, hpair⟩
    obtain ⟨j, hij, hj⟩ := exists_other (i := i) hpair
    exact ⟨j, hij, rb, hi, hj⟩
  · rintro ⟨j, hij, rb, hi, hj⟩
    exact ⟨rb, hi, exists_pair hij hi.lt hj.lt hi hj⟩

/-- A message uses an RB that `RxSlPscch` found exactly when another one gets to one of its RBs:
before the message has recorded that RB it has a collision in front of it. -/
theorem usesCollided_iff (hnodup : ∀ rbs ∈ family, rbs.Nodup) :
    (∃ rb, Uses family i rb ∧ rb ∈ (family.foldl collideRbs (∅, ∅)).2) ↔ ReachedByAnother family i := by
  simp only [collideRbs_foldl hnodup]
  constructor
  · rintro ⟨rb, hi, hpair⟩
    obtain ⟨j, hij, hj⟩ := exists_other (i := i) hpair
    exact ⟨j, hij, rb, hi, hj⟩
  · rintro ⟨j, hij, rb, hi, hj⟩
    obtain ⟨rbs, hget, hrb⟩ := id hi
    rcases reachedIn_or_seen (fun r => ∃ x < i, GetsTo family x r) hrb with
      hreached | ⟨r, ⟨x, hxi, hx⟩, hreached⟩
    · exact ⟨rb, hi, exists_pair hij hi.lt hj.uses.lt ((getsTo_iff hget).mpr hreached) hj⟩
    · have hir : GetsTo family i r := (getsTo_iff hget).mpr hreached
      exact ⟨r, hir.uses, i, hi.lt, hir, x, hxi, hx⟩

theorem rxSlPsschMarks_iff (hnodup : ∀ rbs ∈ family, rbs.Nodup) :
    (rxSlPsschMarks family)[i]? = some true ↔ MeetsAnother family i := by
  rw [← usesCollidedAll_iff hnodup]
  constructor
  · intro h
    obtain ⟨rbs, hget, hany⟩ := Option.map_eq_some_iff.mp (List.getElem?_map .. ▸ h)
    obtain ⟨rb, hrb, hcollided⟩ := List.any_eq_true.mp hany
    exact ⟨rb, ⟨rbs, hget, hrb⟩, of_decide_eq_true hcollided⟩
  · rintro ⟨rb, ⟨rbs, hget, hrb⟩, hcollided⟩
    have hany : (rbs.any fun rb => decide (rb ∈ (family.foldl collideAllRbs (∅, ∅)).2)) = true :=
      List.any_eq_true.mpr ⟨rb, hrb, decide_eq_true hcollided⟩
    rw [rxSlPsschMarks, List.getElem?_map, hget, Option.map_some, hany]

end Pass

section Marks

variable {R : Type}

/-- The loop of the error model over the RBs of a message: a collided RB is noted, an RB that is
already decoded ends it. -/
def notesCollision (collided rbDecodedBitmap : Finset Nat) : List Nat → Bool
  | [] => false
  | rb :: rbs =>
    decide (rb ∈ collided) || if rb ∈ rbDecodedBitmap then false else notesCollision collided rbDecodedBitmap rbs

/-- Whether the collided test finds a collided RB of a message. -/
def rbCollided (cfg : PscchConfig) (collided rbDecodedBitmap : Finset Nat)
    (m : SlCtrlSigParamInfo R) : Bool :=
  if cfg.slCtrlErrorModelEnabled = true then notesCollision collided rbDecodedBitmap m.rbBitmap
  else if cfg.dropTbOnRbCollisionEnabled = true then m.rbBitmap.any fun rb => decide (rb ∈ collided)
  else false

def pscchMarks (cfg : PscchConfig) (collided : Finset Nat) :
    PscchLists R → List (SlCtrlSigParamInfo R) → List Bool
  | _, [] => []
  | lists, m :: ms => rbCollided cfg collided lists.rbDecodedBitmap m ::
      pscchMarks cfg collided (decodeMessage cfg collided lists m) ms

variable {cfg : PscchConfig} {collided decoded : Finset Nat} {m : SlCtrlSigParamInfo R}
  {ms : List (SlCtrlSigParamInfo R)} {lists : PscchLists R} {i rb : Nat}

theorem any_of_notesCollision {rbs : List Nat} (h : notesCollision collided decoded rbs = true) :
    ∃ rb ∈ rbs, rb ∈ collided := by
  induction rbs with
  | nil => cases h
  | cons r rbs ih =>
    rw [notesCollision, Bool.or_eq_true, decide_eq_true_eq] at h
    rcases h with hr | h
    · exact ⟨r, List.mem_cons_self, hr⟩
    · split at h
      next => cases h
      next =>
        obtain ⟨rb, hrb, hcollided⟩ := ih h
        exact ⟨rb, List.mem_cons_of_mem r hrb, hcollided⟩

theorem notesCollision_of_any {rbs : List Nat} (hdecoded : ∀ rb ∈ rbs, rb ∉ decoded)
    (h : ∃ rb ∈ rbs, rb ∈ collided) : notesCollision collided decoded rbs = true := by
  induction rbs with
  | nil => simp at h
  | cons r rbs ih =>
    obtain ⟨hr, hdecoded⟩ := List.forall_mem_cons.mp hdecoded
    rw [notesCollision, if_neg hr, Bool.or_eq_true, decide_eq_true_eq]
    obtain ⟨rb, hrb, hcollided⟩ := h
    rcases List.mem_cons.mp hrb with rfl | hrb
    · exact Or.inl hcollided
    · exact Or.inr (ih hdecoded ⟨rb, hrb, hcollided⟩)

theorem any_of_rbCollided (h : rbCollided cfg collided decoded m = true) :
    ∃ rb ∈ m.rbBitmap, rb ∈ collided := by
  unfold rbCollided at h
  split at h
  next => exact any_of_notesCollision h
  next =>
    split at h
    next => simpa using h
    next => cases h

theorem rbCollided_of_any (hdrop : cfg.dropTbOnRbCollisionEnabled = true)
    (hdecoded : ∀ rb ∈ m.rbBitmap, rb ∉ decoded) (h : ∃ rb ∈ m.rbBitmap, rb ∈ collided) :
    rbCollided cfg collided decoded m = true := by
  unfold rbCollided
  rw [if_pos hdrop]
  split
  next => exact notesCollision_of_any hdecoded h
  next => simpa using h

theorem corrupt_of_collided (hdrop : cfg.dropTbOnRbCollisionEnabled = true)
    (h : ∃ rb ∈ m.rbBitmap, rb ∈ collided) : corrupt cfg collided decoded m = true := by
  obtain ⟨rb, hrb, hcollided⟩ := h
  unfold corrupt
  rw [if_pos hdrop]
  split
  next =>
    rw [Bool.or_eq_true, List.any_eq_true]
    exact Or.inl ⟨rb, hrb, by simp [hcollided]⟩
  next => exact List.any_eq_true.mpr ⟨rb, hrb, decide_eq_true hcollided⟩

theorem pscchMarks_getElem? (hm : ms[i]? = some m) :
    (pscchMarks cfg collided lists ms)[i]? = some (rbCollided cfg collided
      ((ms.take i).foldl (decodeMessage cfg collided) lists).rbDecodedBitmap m) := by
  induction ms generalizing lists i with
  | nil => cases hm
  | cons x ms ih =>
    cases i with
    | zero => cases Option.some.inj hm; rfl
    | succ i => exact ih hm

theorem pscchMarks_length : (pscchMarks cfg collided lists ms).length = ms.length := by
  induction ms generalizing lists with
  | nil => rfl
  | cons x ms ih => exact congrArg (· + 1) ih

/-- With collision dropping the decoded RBs belong to messages without a collided one. -/
theorem decoded_uncollided (hdrop : cfg.dropTbOnRbCollisionEnabled = true) (hi : i ≤ ms.length)
    (hrb : rb ∈ ((ms.take i).foldl (decodeMessage cfg collided) ⟨∅, [], []⟩).rbDecodedBitmap) :
    ∃ j < i, ∃ m, ms[j]? = some m ∧ rb ∈ m.rbBitmap ∧ ∀ r ∈ m.rbBitmap, r ∉ collided := by
  induction i with
  | zero => simp at hrb
  | succ i ih =>
    have hget : ms[i]? = some ms[i] := List.getElem?_eq_getElem hi
    rw [List.take_add_one, hget, Option.toList_some, List.foldl_append, List.foldl_cons,
      List.foldl_nil, decodeMessage] at hrb
    have hearlier := fun h => ih (Nat.le_of_succ_le hi) h
    split at hrb
    next =>
      obtain ⟨j, hj, rest⟩ := hearlier hrb
      exact ⟨j, Nat.lt_succ_of_lt hj, rest⟩
    next hclean =>
      rcases Finset.mem_union.mp hrb with hrb | hrb
      · obtain ⟨j, hj, rest⟩ := hearlier hrb
        exact ⟨j, Nat.lt_succ_of_lt hj, rest⟩
      · refine ⟨i, Nat.lt_succ_self i, ms[i], hget, List.mem_toFinset.mp hrb, fun r hr hcollided => ?_⟩
        exact hclean (corrupt_of_collided hdrop ⟨r, hr, hcollided⟩)

end Marks

section Agreement

variable {R : Type} [LinearOrder R]

/-- Which messages of a reception `RxSlPscch` marks as collided, in the order in which it visits them. -/
def rxSlPscchMarks (cfg : PscchConfig) (messages : List (SlCtrlSigParamInfo R)) : List Bool :=
  let sorted := sortedControlMessages messages
  pscchMarks cfg (collidedRbBitmap cfg sorted) ⟨∅, [], []⟩ sorted

/-- The RB sets of the messages in the order in which they are visited. -/
def rbFamily (messages : List (SlCtrlSigParamInfo R)) : List (List Nat) :=
  (sortedControlMessages messages).map fun m => m.rbBitmap

/-- A message is marked as collided as its RB set meets that of another one, and as `RxSlPssch`
labels it. -/
structure MarksCollisions (cfg : PscchConfig) (messages : List (SlCtrlSigParamInfo R)) : Prop where
  meets : ∀ i, (rxSlPscchMarks cfg messages)[i]? = some true ↔ MeetsAnother (rbFamily messages) i
  agrees : rxSlPscchMarks cfg messages = rxSlPsschMarks (rbFamily messages)

variable {cfg : PscchConfig} {messages : List (SlCtrlSigParamInfo R)} {i : Nat}

theorem rbFamily_nodup (hnodup : ∀ m ∈ messages, m.rbBitmap.Nodup) :
    ∀ rbs ∈ rbFamily messages, rbs.Nodup := by
  intro rbs hrbs
  obtain ⟨m, hm, rfl⟩ := List.mem_map.mp hrbs
  exact hnodup m ((sortedControlMessages_perm messages).mem_iff.mp hm)

theorem uses_rbFamily_iff {rb : Nat} : Uses (rbFamily messages) i rb ↔
    ∃ m, (sortedControlMessages messages)[i]? = some m ∧ rb ∈ m.rbBitmap := by
  simp [Uses, rbFamily]

theorem collidedRbBitmap_drop (hdrop : cfg.dropTbOnRbCollisionEnabled = true)
    (hsensing : cfg.sensingEnabled = false) (messages : List (SlCtrlSigParamInfo R)) :
    collidedRbBitmap cfg (sortedControlMessages messages) =
      ((rbFamily messages).foldl collideRbs (∅, ∅)).2 := by
  simp [collidedRbBitmap, rbFamily, hdrop, hsensing, List.foldl_map]

theorem getsTo_of_mark (hdrop : cfg.dropTbOnRbCollisionEnabled = true)
    (hsensing : cfg.sensingEnabled = false) (hnodup : ∀ m ∈ messages, m.rbBitmap.Nodup)
    (h : (rxSlPscchMarks cfg messages)[i]? = some true) :
    ReachedByAnother (rbFamily messages) i := by
  rw [← usesCollided_iff (rbFamily_nodup hnodup), ← collidedRbBitmap_drop hdrop hsensing]
  obtain ⟨hi, _⟩ := List.getElem?_eq_some_iff.mp h
  rw [rxSlPscchMarks, pscchMarks_length] at hi
  have hget := List.getElem?_eq_getElem hi
  rw [rxSlPscchMarks, pscchMarks_getElem? hget, Option.some.injEq] at h
  obtain ⟨rb, hrb, hcollided⟩ := any_of_rbCollided h
  exact ⟨rb, uses_rbFamily_iff.mpr ⟨_, hget, hrb⟩, hcollided⟩

/-- If another message gets to an RB of every message that meets one, the decoded RBs are no RBs of
such a message and the collided test is not cut short. -/
theorem mark_of_getsTo (hdrop : cfg.dropTbOnRbCollisionEnabled = true)
    (hsensing : cfg.sensingEnabled = false) (hnodup : ∀ m ∈ messages, m.rbBitmap.Nodup)
    (hreached : ∀ i, MeetsAnother (rbFamily messages) i → ReachedByAnother (rbFamily messages) i)
    (h : MeetsAnother (rbFamily messages) i) : (rxSlPscchMarks cfg messages)[i]? = some true := by
  have hcollides : ∀ i, MeetsAnother (rbFamily messages) i → ∃ rb, Uses (rbFamily messages) i rb ∧
      rb ∈ collidedRbBitmap cfg (sortedControlMessages messages) := by
    intro i hmeets
    rw [collidedRbBitmap_drop hdrop hsensing]
    exact (usesCollided_iff (rbFamily_nodup hnodup)).mpr (hreached i hmeets)
  obtain ⟨rb, hrb, hcollided⟩ := hcollides i h
  obtain ⟨m, hget, hrb⟩ := uses_rbFamily_iff.mp hrb
  rw [rxSlPscchMarks, pscchMarks_getElem? hget, Option.some.injEq]
  refine rbCollided_of_any hdrop (fun r hr hdecoded => ?_) ⟨rb, hrb, hcollided⟩
  obtain ⟨j, hj, m', hget', hr', hclean⟩ :=
    decoded_uncollided hdrop (List.getElem?_eq_some_iff.mp hget).1.le hdecoded
  -- the message that was decoded meets this one, so it has a collided RB of its own
  obtain ⟨x, hx, hxcollided⟩ := hcollides j
    ⟨i, Nat.ne_of_gt hj, r, uses_rbFamily_iff.mpr ⟨m', hget', hr'⟩,
      uses_rbFamily_iff.mpr ⟨m, hget, hr⟩⟩
  obtain ⟨m'', hget'', hx⟩ := uses_rbFamily_iff.mp hx
  obtain rfl : m' = m'' := Option.some.inj (hget'.symm.trans hget'')
  exact hclean x hx hxcollided

/-- PSCCH collisions are marked as they are on PSSCH exactly when every message that meets another
one uses an RB that another one gets to: a message stops being recorded at its first collision, so
that what it shares with others behind that RB is missed. -/
theorem marksCollisions_iff (hdrop : cfg.dropTbOnRbCollisionEnabled = true)
    (hsensing : cfg.sensingEnabled = false) (hnodup : ∀ m ∈ messages, m.rbBitmap.Nodup) :
    MarksCollisions cfg messages ↔
      ∀ i, MeetsAnother (rbFamily messages) i → ReachedByAnother (rbFamily messages) i := by
  constructor
  · intro h i hmeets
    exact getsTo_of_mark hdrop hsensing hnodup ((h.meets i).mpr hmeets)
  · intro hreached
    have hmeets : ∀ i, (rxSlPscchMarks cfg messages)[i]? = some true ↔
        MeetsAnother (rbFamily messages) i := by
      refine fun i => ⟨fun h => ?_, mark_of_getsTo hdrop hsensing hnodup hreached⟩
      obtain ⟨j, hij, rb, hi, hj⟩ := getsTo_of_mark hdrop hsensing hnodup h
      exact ⟨j, hij, rb, hi, hj.uses⟩
    refine ⟨hmeets, List.ext_getElem ?_ fun i hi hi' => ?_⟩
    · simp [rxSlPscchMarks, rxSlPsschMarks, pscchMarks_length, rbFamily]
    · have hsame := (hmeets i).trans (rxSlPsschMarks_iff (rbFamily_nodup hnodup)).symm
      rw [List.getElem?_eq_getElem hi, List.getElem?_eq_getElem hi', Option.some.injEq,
        Option.some.injEq] at hsame
      exact Bool.eq_iff_iff.mpr hsame

/-- Where RB sets are equal or disjoint, as those of one resource pool are, no collision is missed. -/
theorem marksCollisions_of_aligned (hdrop : cfg.dropTbOnRbCollisionEnabled = true)
    (hsensing : cfg.sensingEnabled = false) (hnodup : ∀ m ∈ messages, m.rbBitmap.Nodup)
    (haligned : ∀ i j rb, Uses (rbFamily messages) i rb → Uses (rbFamily messages) j rb →
      ∀ r, Uses (rbFamily messages) j r → Uses (rbFamily messages) i r) :
    MarksCollisions cfg messages := by
  refine (marksCollisions_iff hdrop hsensing hnodup).mpr fun i hmeets => ?_
  obtain ⟨j, hij, rb, hi, hj⟩ := hmeets
  obtain ⟨rbs, hget, hrb⟩ := id hj
  cases rbs with
  | nil => cases hrb
  | cons first rest =>
    have hfirst : GetsTo (rbFamily messages) j first := getsTo_first hget
    exact ⟨j, hij, first, haligned i j rb hi hj first hfirst.uses, hfirst⟩

end Agreement

/-- A message at position `i` of the visiting order. -/
def controlMessage (i : Nat) (rbBitmap : List Nat) : SlCtrlSigParamInfo Int where
  sinrAvg := 20 - i
  sinrMin := 20 - i
  rbBitmap := rbBitmap
  slSigPerceived := []
  aboveTbler := true
  index := i

/-- The error model and collision dropping are on, sensing is off. -/
def dropConfig : PscchConfig := ⟨true, true, false, 0⟩

theorem marksCollisions_iff_twoPartial :
    MarksCollisions dropConfig [controlMessage 0 [1, 2], controlMessage 1 [2, 3]] := by
  refine (marksCollisions_iff rfl rfl (by decide)).mpr fun i hmeets => ?_
  obtain ⟨j, hij, rb, ⟨rbs, hget, hrb⟩, hj⟩ := hmeets
  match i with
  | 0 => exact ⟨1, by decide, 2, ⟨[1, 2], rfl, by decide⟩, getsTo_first rfl⟩
  | 1 =>
    refine ⟨0, by decide, 2, ⟨[2, 3], rfl, by decide⟩, (getsTo_iff rfl).mpr ⟨[1], [], rfl, ?_⟩⟩
    rintro r - ⟨x, hx, -⟩
    exact Nat.not_lt_zero x hx
  | i + 2 => cases hget

/-- The second of three messages stops at the RB that it shares with the first one, and the third is
decoded although it shares an RB with the second. -/
theorem marksCollisions_fails_threeMessages :
    ¬∀ (cfg : PscchConfig) (messages : List (SlCtrlSigParamInfo Int)),
      cfg.dropTbOnRbCollisionEnabled = true → cfg.sensingEnabled = false →
      (∀ m ∈ messages, m.rbBitmap.Nodup) → MarksCollisions cfg messages := by
  intro claimed
  have hmarks := claimed dropConfig
    [controlMessage 0 [1], controlMessage 1 [1, 2], controlMessage 2 [2, 3]] rfl rfl (by decide)
  have hmeets : MeetsAnother (rbFamily
      [controlMessage 0 [1], controlMessage 1 [1, 2], controlMessage 2 [2, 3]]) 2 :=
    ⟨1, by decide, 2, ⟨[2, 3], rfl, by decide⟩, ⟨[1, 2], rfl, by decide⟩⟩
  exact absurd ((hmarks.meets 2).mpr hmeets) (by decide)

end SidelinkORe
