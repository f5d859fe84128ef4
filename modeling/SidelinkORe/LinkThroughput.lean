import Mathlib.Algebra.BigOperators.Group.List.Basic
import Mathlib.Algebra.Field.Defs
import Mathlib.Algebra.Order.Field.Rat
import Mathlib.Data.List.Dedup
import Mathlib.Data.List.Sort

namespace SidelinkORe

/-- A row of `rawData`. -/
structure RawRow (K : Type) where
  time : K
  tx : Nat
  rx : Nat
  distance : K
  received : Bool

/-- MATLAB's `unique`: the values without repetition, sorted. -/
def unique (l : List Nat) : List Nat := l.dedup.insertionSort (· ≤ ·)

theorem mem_unique {l : List Nat} {x : Nat} : x ∈ unique l ↔ x ∈ l := by
  simp [unique, List.mem_insertionSort]

theorem unique_nodup (l : List Nat) : (unique l).Nodup :=
  (List.perm_insertionSort _ l.dedup).nodup_iff.mpr (List.nodup_dedup l)

section Links

variable {K : Type} (binData : List (RawRow K))

/-- The links that occur. -/
def linksOf : List (Nat × Nat) := (binData.map fun row => (row.tx, row.rx)).dedup

/-- The links of one transmitter, and all of them, in the order of the nested loops. -/
def txLinks (t : Nat) : List (Nat × Nat) :=
  (unique ((binData.filter fun row => row.tx = t).map (·.rx))).map fun r => (t, r)

def visitedLinks (txs : List Nat) : List (Nat × Nat) := txs.flatMap (txLinks binData)

theorem visitedLinks_perm : (visitedLinks binData (unique (binData.map (·.tx)))).Perm (linksOf binData) := by
  refine (List.perm_ext_iff_of_nodup ?_ (List.nodup_dedup _)).mpr fun link => ?_
  · refine List.nodup_flatMap.mpr ⟨fun t _ => ?_, (unique_nodup _).imp fun hne => ?_⟩
    · exact (unique_nodup _).map fun r r' heq => (Prod.mk.inj heq).2
    · intro link hlink hlink'
      obtain ⟨r, _, rfl⟩ := List.mem_map.mp hlink
      obtain ⟨r', _, heq⟩ := List.mem_map.mp hlink'
      exact hne (Prod.mk.inj heq).1.symm
  · obtain ⟨t, r⟩ := link
    simp only [visitedLinks, txLinks, List.mem_flatMap, List.mem_map, mem_unique, List.mem_dedup,
      List.mem_filter, decide_eq_true_eq, Prod.mk.injEq]
    constructor
    · rintro ⟨t', _, r', ⟨row, ⟨hrow, ht⟩, hr⟩, rfl, rfl⟩
      exact ⟨row, hrow, ht, hr⟩
    · rintro ⟨row, hrow, ht, hr⟩
      exact ⟨t, ⟨row, hrow, ht⟩, r, ⟨row, ⟨hrow, ht⟩, hr⟩, rfl, rfl⟩

/-- No transmitter has more links than there are receivers. -/
theorem visitedLinks_length_le (txs : List Nat) :
    (visitedLinks binData txs).length ≤ txs.length * (unique (binData.map (·.rx))).length := by
  induction txs with
  | nil => simp [visitedLinks]
  | cons t txs ih =>
    have hsub : (txLinks binData t).length ≤ (unique (binData.map (·.rx))).length := by
      rw [txLinks, List.length_map]
      refine (List.subperm_of_subset (unique_nodup _) fun r hr => ?_).length_le
      obtain ⟨row, hrow, rfl⟩ := List.mem_map.mp (mem_unique.mp hr)
      exact mem_unique.mpr (List.mem_map_of_mem (List.mem_filter.mp hrow).1)
    rw [visitedLinks] at ih ⊢
    rw [List.flatMap_cons, List.length_append, List.length_cons, Nat.succ_mul]
    omega

end Links

section Throughput

variable {K : Type} [Field K]

/-- `v(a) = x`, which fills up with zeros beyond the end. -/
def assignEntry (v : List K) (a : Nat) (x : K) : List K :=
  if a ≤ v.length then v.set (a - 1) x else v ++ List.replicate (a - 1 - v.length) 0 ++ [x]

/-- The throughput of the link to `r` of the transmitter whose rows are in `temp`. -/
def linkThroughput (simTime : K) (temp : List (RawRow K)) (r : Nat) : K :=
  ((temp.filter fun row => row.rx = r).map fun row => if row.received then 1 else 0).sum / simTime

def fillReceiver (simTime : K) (temp : List (RawRow K)) (s : List K × Nat) (r : Nat) : List K × Nat :=
  (assignEntry s.1 s.2 (linkThroughput simTime temp r), s.2 + 1)

def fillTransmitter (simTime : K) (binData : List (RawRow K)) (s : List K × Nat) (t : Nat) :
    List K × Nat :=
  let temp := binData.filter fun row => row.tx = t
  (unique (temp.map (·.rx))).foldl (fillReceiver simTime temp) s

/-- `if a < length(v) v(a:end) = []` -/
def trimEntries (s : List K × Nat) : List K := if s.2 < s.1.length then s.1.take (s.2 - 1) else s.1

def throughputBinData (simTime : K) (binData : List (RawRow K)) : List K :=
  let tx := unique (binData.map (·.tx))
  let zeros := List.replicate (tx.length * (unique (binData.map (·.rx))).length) 0
  trimEntries (tx.foldl (fillTransmitter simTime binData) (zeros, 1))

/-- The packets received over one link in each unit of time. -/
def linkRate (simTime : K) (binData : List (RawRow K)) (link : Nat × Nat) : K :=
  (binData.countP fun row => row.tx = link.1 ∧ row.rx = link.2 ∧ row.received = true) / simTime

variable {simTime : K} {binData temp : List (RawRow K)} {xs : List K} {N : Nat}

/-- The vector and the position after the entries `xs`; the rest is still zero. -/
def written (N : Nat) (xs : List K) : List K × Nat :=
  (xs ++ List.replicate (N - xs.length) 0, xs.length + 1)

theorem assignEntry_written (x : K) (h : xs.length < N) :
    assignEntry (written N xs).1 (written N xs).2 x = (written N (xs ++ [x])).1 := by
  obtain ⟨room, hroom⟩ := Nat.exists_eq_add_of_lt h
  have hzeros : N - xs.length = room + 1 := by omega
  have hrest : N - (xs ++ [x]).length = room := by
    rw [List.length_append, List.length_singleton]
    omega
  unfold written assignEntry
  rw [if_pos (by simp; omega), hzeros, hrest, List.replicate_succ]
  simp

theorem fillReceiver_foldl (rs : List Nat) (h : xs.length + rs.length ≤ N) :
    rs.foldl (fillReceiver simTime temp) (written N xs) =
      written N (xs ++ rs.map (linkThroughput simTime temp)) := by
  induction rs generalizing xs with
  | nil => simp
  | cons r rs ih =>
    rw [List.length_cons] at h
    have hstep : fillReceiver simTime temp (written N xs) r =
        written N (xs ++ [linkThroughput simTime temp r]) := by
      refine Prod.ext (assignEntry_written _ (by omega)) ?_
      simp [fillReceiver, written]
    rw [List.foldl_cons, hstep, ih (by rw [List.length_append, List.length_singleton]; omega)]
    simp

theorem sum_received (rows : List (RawRow K)) :
    (rows.map fun row => if row.received = true then (1 : K) else 0).sum = rows.countP (·.received) := by
  induction rows with
  | nil => simp
  | cons row rows ih => cases hreceived : row.received <;> simp [hreceived, ih, add_comm]

theorem linkThroughput_eq (t r : Nat) :
    linkThroughput simTime (binData.filter fun row => row.tx = t) r =
      linkRate simTime binData (t, r) := by
  unfold linkThroughput linkRate
  rw [sum_received, List.countP_filter, List.countP_filter]
  congr 2
  refine List.countP_congr fun row _ => ?_
  simp only [Bool.and_eq_true, decide_eq_true_eq]
  tauto

theorem fillTransmitter_written (t : Nat) (h : xs.length + (txLinks binData t).length ≤ N) :
    fillTransmitter simTime binData (written N xs) t =
      written N (xs ++ (txLinks binData t).map (linkRate simTime binData)) := by
  rw [txLinks, List.length_map] at h
  rw [fillTransmitter, fillReceiver_foldl _ h, txLinks, List.map_map]
  congr 2
  exact List.map_congr_left fun r _ => linkThroughput_eq t r

theorem fillTransmitter_foldl (simTime : K) (xs : List K) (txs : List Nat)
    (h : xs.length + (visitedLinks binData txs).length ≤ N) :
    txs.foldl (fillTransmitter simTime binData) (written N xs) =
      written N (xs ++ (visitedLinks binData txs).map (linkRate simTime binData)) := by
  induction txs generalizing xs with
  | nil => simp [visitedLinks]
  | cons t txs ih =>
    rw [visitedLinks, List.flatMap_cons, List.length_append] at h
    rw [List.foldl_cons, fillTransmitter_written t (by omega),
      ih _ (by rw [List.length_append, List.length_map, visitedLinks]; omega), List.append_assoc,
      ← List.map_append, visitedLinks, visitedLinks, List.flatMap_cons]

/-- The trim leaves one zero behind when exactly one is too many. -/
theorem trimEntries_written (h : xs.length ≤ N) :
    trimEntries (written N xs) = xs ++ if N = xs.length + 1 then [0] else [] := by
  have hlength : (written N xs).1.length = N := by
    rw [written, List.length_append, List.length_replicate]
    omega
  rw [trimEntries, hlength]
  by_cases htrim : (written N xs).2 < N
  · have hmany : N ≠ xs.length + 1 := htrim.ne'
    rw [if_pos htrim, if_neg hmany, List.append_nil]
    simp [written]
  · have hfew : N ≤ xs.length + 1 := not_lt.mp htrim
    rw [if_neg htrim, written]
    by_cases hone : N = xs.length + 1
    · rw [if_pos hone, hone, Nat.add_sub_cancel_left]
      rfl
    · have hzero : N - xs.length = 0 := by omega
      rw [if_neg hone, hzero]
      rfl

theorem throughputBinData_eq (simTime : K) (binData : List (RawRow K)) :
    let links := visitedLinks binData (unique (binData.map (·.tx)))
    throughputBinData simTime binData = links.map (linkRate simTime binData) ++
      if (unique (binData.map (·.tx))).length * (unique (binData.map (·.rx))).length =
        links.length + 1 then [0] else [] := by
  intro links
  have hle := visitedLinks_length_le binData (unique (binData.map (·.tx)))
  have hfill := fillTransmitter_foldl simTime [] (unique (binData.map (·.tx))) (by simpa using hle)
  have hstart : ∀ N, (List.replicate N (0 : K), 1) = written N [] := fun N => by simp [written]
  unfold throughputBinData
  dsimp only
  rw [hstart, hfill, List.nil_append, trimEntries_written (by rwa [List.length_map]), List.length_map]

end Throughput

section Bins

variable {K : Type} [Field K] [LinearOrder K]

/-- `max(rawData(:,1)) - min(rawData(:,1))` -/
def simTime : List (RawRow K) → K
  | [] => 0
  | row :: rows =>
    rows.foldl (fun t r => max t r.time) row.time - rows.foldl (fun t r => min t r.time) row.time

/-- `separation/2:separation:2000`, counted from 1. -/
def binEdge (separation : K) (i : Nat) : K := separation / 2 + (i - 1) * separation

def binData (rawData : List (RawRow K)) (separation : K) (i : Nat) : List (RawRow K) :=
  rawData.filter fun row =>
    row.distance ≤ binEdge separation (i + 1) ∧ binEdge separation i < row.distance

/-- `throughput(i,1)` -/
def throughput (rawData : List (RawRow K)) (separation : K) (i : Nat) : K :=
  let bin := binData rawData separation i
  let entries := throughputBinData (simTime rawData) bin
  if bin = [] then 0 else entries.sum / entries.length

/-- The bin has one entry for each of its links, and their mean. -/
structure AveragesLinks (rawData : List (RawRow K)) (separation : K) (i : Nat) : Prop where
  entries : (throughputBinData (simTime rawData) (binData rawData separation i)).Perm
    ((linksOf (binData rawData separation i)).map
      (linkRate (simTime rawData) (binData rawData separation i)))
  mean : throughput rawData separation i =
    ((linksOf (binData rawData separation i)).map
      (linkRate (simTime rawData) (binData rawData separation i))).sum /
      (linksOf (binData rawData separation i)).length

/-- A bin is averaged over its links exactly when it does not lack just one pair of one of its
transmitters and one of its receivers. -/
theorem averagesLinks_iff {rawData : List (RawRow K)} {separation : K} {i : Nat}
    (hne : binData rawData separation i ≠ []) :
    AveragesLinks rawData separation i ↔
      (unique ((binData rawData separation i).map (·.tx))).length *
        (unique ((binData rawData separation i).map (·.rx))).length ≠
          (linksOf (binData rawData separation i)).length + 1 := by
  have heq := throughputBinData_eq (simTime rawData) (binData rawData separation i)
  have hperm := visitedLinks_perm (binData rawData separation i)
  dsimp only at heq
  rw [hperm.length_eq] at heq
  constructor
  · intro h hone
    have hlength := h.entries.length_eq
    rw [heq, if_pos hone, List.length_append, List.length_map, List.length_map, hperm.length_eq,
      List.length_singleton] at hlength
    omega
  · intro hmany
    rw [if_neg hmany, List.append_nil] at heq
    have hentries := hperm.map (linkRate (simTime rawData) (binData rawData separation i))
    rw [← heq] at hentries
    refine ⟨hentries, ?_⟩
    unfold throughput
    dsimp only
    rw [if_neg hne, hentries.sum_eq, hentries.length_eq, List.length_map]

end Bins

/-- UEs 74 and 75 of one lane send, and 75 and 225 in the middle of both lanes receive. -/
def centralRows : List (RawRow ℚ) :=
  [⟨40, 74, 75, 4, true⟩, ⟨40, 74, 225, 565685 / 100000, true⟩, ⟨41, 75, 225, 4, true⟩]

/-- Without the last row one transmitter has a link to each of two receivers. -/
theorem averagesLinks_iff_central : AveragesLinks (centralRows.take 2) 4 1 :=
  (averagesLinks_iff (by decide +kernel)).mpr (by decide +kernel)

/-- Three links of two transmitters and two receivers leave a fourth entry with 0. -/
theorem averagesLinks_fails_oneMissing :
    ¬∀ (rawData : List (RawRow ℚ)) (separation : ℚ) (i : Nat), 0 < simTime rawData →
      binData rawData separation i ≠ [] → AveragesLinks rawData separation i := by
  intro claimed
  have hentries := (claimed centralRows 4 1 (by decide +kernel) (by decide +kernel)).entries.length_eq
  revert hentries
  decide +kernel

end SidelinkORe
