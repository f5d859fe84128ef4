import SidelinkORe.TxOpportunities

namespace SidelinkORe

/-- The order of reception: the oldest entry is at the front. -/
def OldestFirst (l : List SensingData) : Prop := l.Pairwise fun a b => a.sfn ≤ b.sfn

section Erasing

variable {oldest : Nat} {it skipped : SensingData} {l l' rest : List SensingData}

theorem OldestFirst.head_le (h : OldestFirst (it :: rest)) {d : SensingData}
    (hd : d ∈ it :: rest) : it.sfn ≤ d.sfn := by
  rcases List.mem_cons.mp hd with rfl | hd
  · exact le_rfl
  · exact (List.pairwise_cons.mp h).1 d hd

theorem eraseOutdated_of_current (h : ∀ d ∈ l, oldest ≤ d.sfn) : eraseOutdated oldest l = .ok l := by
  match l with
  | [] => rfl
  | [it] =>
    have hit := h it List.mem_cons_self
    rw [eraseOutdated, if_neg (by omega)]
  | it :: skipped :: rest =>
    have hit := h it List.mem_cons_self
    rw [eraseOutdated, if_neg (by omega)]

/-- The entry behind an erased one stays, however old it is. -/
theorem eraseOutdated_keeps_skipped (hit : it.sfn < oldest)
    (h : eraseOutdated oldest (it :: skipped :: rest) = .ok l') : skipped ∈ l' := by
  rw [eraseOutdated, if_pos hit] at h
  obtain ⟨rest', _, h⟩ := bind_ok_iff.mp h
  obtain rfl := pure_ok_iff.mp h
  exact List.mem_cons_self

theorem eraseOutdated_length_le (h : eraseOutdated oldest l = .ok l') : l'.length ≤ l.length := by
  induction l using eraseOutdated.induct oldest generalizing l' with
  | case1 =>
    cases h
    exact le_rfl
  | case2 it hit =>
    rw [eraseOutdated, if_pos hit] at h
    cases h
  | case3 it hit =>
    rw [eraseOutdated, if_neg hit] at h
    cases h
    exact le_rfl
  | case4 it skipped rest hit ih =>
    rw [eraseOutdated, if_pos hit] at h
    obtain ⟨rest', hrest, h⟩ := bind_ok_iff.mp h
    obtain rfl := pure_ok_iff.mp h
    have := ih hrest
    simp only [List.length_cons]
    omega
  | case5 it skipped rest hit =>
    rw [eraseOutdated, if_neg hit] at h
    cases h
    exact le_rfl

/-- A buffer that keeps its first entry keeps all of them. -/
theorem eraseOutdated_self_iff (sorted : OldestFirst l) :
    eraseOutdated oldest l = .ok l ↔ ∀ d ∈ l, oldest ≤ d.sfn := by
  constructor
  · intro h d hd
    by_contra hearly
    match l with
    | [it] =>
      obtain rfl := List.mem_singleton.mp hd
      rw [eraseOutdated, if_pos (by omega)] at h
      cases h
    | it :: skipped :: rest =>
      have hit := sorted.head_le hd
      rw [eraseOutdated, if_pos (by omega)] at h
      obtain ⟨rest', hrest, h⟩ := bind_ok_iff.mp h
      have hshort := eraseOutdated_length_le hrest
      have hsame := congrArg List.length (pure_ok_iff.mp h)
      simp only [List.length_cons] at hsame
      omega
  · exact eraseOutdated_of_current

theorem filter_current_eq (h : ∀ d ∈ l, oldest ≤ d.sfn) :
    (l.filter fun d => decide (oldest ≤ d.sfn)) = l := by
  apply List.filter_eq_self.mpr
  intro d hd
  exact decide_eq_true (h d hd)

theorem countP_outdated_eq_zero :
    (l.countP fun d => decide (d.sfn < oldest)) = 0 ↔ ∀ d ∈ l, oldest ≤ d.sfn := by
  rw [List.countP_eq_zero]
  simp

/-- The loop erases exactly the outdated entries as long as there is at most one, which is not the
whole buffer. -/
theorem eraseOutdated_exact_iff (sorted : OldestFirst l) :
    eraseOutdated oldest l = .ok (l.filter fun d => decide (oldest ≤ d.sfn)) ↔
      (l.countP fun d => decide (d.sfn < oldest)) ≤ 1 ∧
        ((l.countP fun d => decide (d.sfn < oldest)) = 1 → 2 ≤ l.length) := by
  match l with
  | [] => simp [eraseOutdated]
  | [it] =>
    by_cases hit : it.sfn < oldest
    · simp [eraseOutdated, hit]
    · simp [eraseOutdated, hit, Nat.le_of_not_lt hit]
  | it :: skipped :: rest =>
    obtain ⟨hhead, htail⟩ := List.pairwise_cons.mp sorted
    by_cases hit : it.sfn < oldest
    · rw [List.countP_cons_of_pos (by simpa using hit)]
      by_cases hskipped : skipped.sfn < oldest
      · constructor
        · intro h
          have hmem := eraseOutdated_keeps_skipped hit h
          have hcurrent := of_decide_eq_true (List.mem_filter.mp hmem).2
          omega
        · rintro ⟨hcount, _⟩
          rw [List.countP_cons_of_pos (by simpa using hskipped)] at hcount
          omega
      · have hcurrent : ∀ d ∈ skipped :: rest, oldest ≤ d.sfn := by
          intro d hd
          have := OldestFirst.head_le htail hd
          omega
        have hrest := eraseOutdated_of_current fun d hd => hcurrent d (List.mem_cons_of_mem _ hd)
        have hzero := countP_outdated_eq_zero.mpr hcurrent
        have herase : eraseOutdated oldest (it :: skipped :: rest) = .ok (skipped :: rest) := by
          rw [eraseOutdated, if_pos hit]
          exact bind_ok_iff.mpr ⟨rest, hrest, rfl⟩
        have hfilter : (it :: skipped :: rest).filter (fun d => decide (oldest ≤ d.sfn)) =
            skipped :: rest := by
          rw [List.filter_cons_of_neg (by simpa using hit), filter_current_eq hcurrent]
        rw [herase, hfilter, hzero]
        simp
    · have hcurrent : ∀ d ∈ it :: skipped :: rest, oldest ≤ d.sfn := by
        intro d hd
        have := OldestFirst.head_le sorted hd
        omega
      rw [eraseOutdated_of_current hcurrent, filter_current_eq hcurrent,
        countP_outdated_eq_zero.mpr hcurrent]
      simp

end Erasing

section Window

variable {cfg : SelectionConfig} {sfn : Nat} {sensingData : List SensingData}

/-- What is left is exactly what was received in the last `T0` slots, in the same order. -/
def KeepsWindow (cfg : SelectionConfig) (sensingData : List SensingData) (sfn : Nat) : Prop :=
  updateSensingWindow cfg sensingData sfn = .ok (sensingData.filter fun it =>
    decide ((sfn : Int) - cfg.pool.sensWindInSlots ≤ it.sfn))

/-- One entry at most has left the window, and a further one is there; before slot `T0` the
difference wraps to a slot that no entry may be behind. -/
def OneOutdated (cfg : SelectionConfig) (sensingData : List SensingData) (sfn : Nat) : Prop :=
  if cfg.pool.sensWindInSlots ≤ sfn then
    (sensingData.countP fun it => decide (it.sfn + cfg.pool.sensWindInSlots < sfn)) ≤ 1 ∧
      ((sensingData.countP fun it => decide (it.sfn + cfg.pool.sensWindInSlots < sfn)) = 1 →
        2 ≤ sensingData.length)
  else ∀ it ∈ sensingData, 2 ^ 64 + sfn ≤ it.sfn + cfg.pool.sensWindInSlots

theorem keepsWindow_iff_oneOutdated (sorted : OldestFirst sensingData) (hsfn : sfn < 2 ^ 64)
    (hlen : cfg.pool.sensWindInSlots < 2 ^ 16) :
    KeepsWindow cfg sensingData sfn ↔ OneOutdated cfg sensingData sfn := by
  unfold KeepsWindow OneOutdated updateSensingWindow
  split
  next hle =>
    have holdest : subU64 sfn cfg.pool.sensWindInSlots = sfn - cfg.pool.sensWindInSlots := by
      unfold subU64
      omega
    have hkept : (sensingData.filter fun it =>
        decide ((sfn : Int) - cfg.pool.sensWindInSlots ≤ it.sfn)) =
          sensingData.filter fun it => decide (sfn - cfg.pool.sensWindInSlots ≤ it.sfn) := by
      refine List.filter_congr fun it _ => decide_eq_decide.mpr ?_
      omega
    have hcount : (sensingData.countP fun it => decide (it.sfn < sfn - cfg.pool.sensWindInSlots)) =
        sensingData.countP fun it => decide (it.sfn + cfg.pool.sensWindInSlots < sfn) := by
      refine List.countP_congr fun it _ => ?_
      simp only [decide_eq_true_iff]
      omega
    rw [holdest, hkept, eraseOutdated_exact_iff sorted, hcount]
  next hlt =>
    have holdest : subU64 sfn cfg.pool.sensWindInSlots =
        2 ^ 64 + sfn - cfg.pool.sensWindInSlots := by
      unfold subU64
      omega
    have hkept : (sensingData.filter fun it =>
        decide ((sfn : Int) - cfg.pool.sensWindInSlots ≤ it.sfn)) = sensingData := by
      refine List.filter_eq_self.mpr fun it _ => decide_eq_true ?_
      omega
    rw [holdest, hkept, eraseOutdated_self_iff sorted]
    refine forall₂_congr fun it _ => ?_
    omega

/-- Slots 50 and 200 in slot 200, with a window of 100 slots. -/
theorem keepsWindow_iff_oneOutdated_pair :
    KeepsWindow (experimentConfig 1) [{ sfn := 50 }, { sfn := 200 }] 200 := by
  refine (keepsWindow_iff_oneOutdated (by simp [OldestFirst]) (by decide) (by decide)).mpr ?_
  unfold OneOutdated
  decide

/-- Of two outdated entries the second one stays. -/
theorem keepsWindow_fails_twoOutdated :
    ¬∀ (cfg : SelectionConfig) (sensingData : List SensingData) (sfn : Nat),
      OldestFirst sensingData → sfn < 2 ^ 64 → cfg.pool.sensWindInSlots < 2 ^ 16 →
        KeepsWindow cfg sensingData sfn := by
  intro claimed
  have kept := claimed (experimentConfig 1) [{ sfn := 0 }, { sfn := 1 }, { sfn := 200 }] 200
    (by simp [OldestFirst]) (by decide) (by decide)
  have hmem := eraseOutdated_keeps_skipped (by decide) kept
  exact absurd hmem (by decide)

end Window

section Processing

variable {cfg : SelectionConfig} {sfn : Nat} {sensedData l : List SensingData}

/-- The Tproc0 loop finds an entry to stop at exactly when there is an older one. -/
theorem popLatest_exact_iff (sorted : l.Pairwise fun a b => b.sfn ≤ a.sfn)
    (heard : ∀ it ∈ l, it.sfn ≤ sfn) (hsfn : sfn < 2 ^ 64) :
    popLatest cfg sfn l = .ok (l.filter fun it => decide (cfg.tproc0 < sfn - it.sfn)) ↔
      ∃ it ∈ l, cfg.tproc0 < sfn - it.sfn := by
  induction l with
  | nil => simp [popLatest]
  | cons it rest ih =>
    obtain ⟨hhead, htail⟩ := List.pairwise_cons.mp sorted
    have hit := heard it List.mem_cons_self
    have hage : subU64 sfn it.sfn = sfn - it.sfn := by
      unfold subU64
      omega
    rw [popLatest, hage, List.exists_mem_cons_iff]
    by_cases hrecent : sfn - it.sfn ≤ cfg.tproc0
    · rw [if_pos hrecent, List.filter_cons_of_neg (by simpa using hrecent),
        ih htail fun d hd => heard d (List.mem_cons_of_mem it hd)]
      exact (or_iff_right (Nat.not_lt.mpr hrecent)).symm
    · have hall : ∀ d ∈ it :: rest, cfg.tproc0 < sfn - d.sfn := by
        intro d hd
        rcases List.mem_cons.mp hd with rfl | hd
        · omega
        · have := hhead d hd
          omega
      have hfilter : (it :: rest).filter (fun d => decide (cfg.tproc0 < sfn - d.sfn)) = it :: rest :=
        List.filter_eq_self.mpr fun d hd => decide_eq_true (hall d hd)
      rw [if_neg hrecent, hfilter]
      exact ⟨fun _ => Or.inl (by omega), fun _ => rfl⟩

theorem trimTproc0_ok_iff {kept : List SensingData} :
    trimTproc0 cfg sfn l = .ok kept ↔ popLatest cfg sfn l.reverse = .ok kept.reverse := by
  unfold trimTproc0
  rw [bind_ok_iff]
  constructor
  · rintro ⟨r, hr, h⟩
    obtain rfl := pure_ok_iff.mp h
    rw [hr, List.reverse_reverse]
  · intro h
    exact ⟨kept.reverse, h, pure_ok_iff.mpr (List.reverse_reverse kept)⟩

/-- What is left is exactly what is older than `Tproc0` slots, in the same order. -/
def KeepsProcessed (cfg : SelectionConfig) (sensedData : List SensingData) (sfn : Nat) : Prop :=
  trimTproc0 cfg sfn sensedData = .ok (sensedData.filter fun it => decide (cfg.tproc0 < sfn - it.sfn))

/-- The loop, which is only entered with entries, keeps to the buffer when one of them is older than
`Tproc0`. -/
theorem keepsProcessed_iff_olderEntry (_ : sensedData ≠ []) (sorted : OldestFirst sensedData)
    (heard : ∀ it ∈ sensedData, it.sfn ≤ sfn) (hsfn : sfn < 2 ^ 64) :
    KeepsProcessed cfg sensedData sfn ↔ ∃ it ∈ sensedData, cfg.tproc0 < sfn - it.sfn := by
  have hlatest : sensedData.reverse.Pairwise fun a b => b.sfn ≤ a.sfn := List.pairwise_reverse.mpr sorted
  have hheard : ∀ it ∈ sensedData.reverse, it.sfn ≤ sfn := fun it hit =>
    heard it (List.mem_reverse.mp hit)
  unfold KeepsProcessed
  rw [trimTproc0_ok_iff, ← List.filter_reverse, popLatest_exact_iff hlatest hheard hsfn]
  simp only [List.mem_reverse]

theorem keepsProcessed_iff_olderEntry_pair :
    KeepsProcessed (experimentConfig 1) [{ sfn := 50 }, { sfn := 200 }] 200 ↔
      ∃ it ∈ [({ sfn := 50 } : SensingData), { sfn := 200 }],
        (experimentConfig 1).tproc0 < 200 - it.sfn :=
  keepsProcessed_iff_olderEntry (by decide) (by simp [OldestFirst]) (by decide) (by decide)

/-- A buffer with nothing but the last slot's entry is popped empty, and its last element is read. -/
theorem keepsProcessed_fails_recent :
    ¬∀ (cfg : SelectionConfig) (sensedData : List SensingData) (sfn : Nat), sensedData ≠ [] →
      OldestFirst sensedData → (∀ it ∈ sensedData, it.sfn ≤ sfn) → sfn < 2 ^ 64 →
        KeepsProcessed cfg sensedData sfn := by
  intro claimed
  have kept := claimed (experimentConfig 1) [{ sfn := 199 }] 200 (by decide) (by simp [OldestFirst])
    (by decide) (by decide)
  cases kept

end Processing

end SidelinkORe
