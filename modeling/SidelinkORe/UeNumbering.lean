import SidelinkORe.TextExchange
import Mathlib.Data.Set.Function

namespace SidelinkORe

/-- The helper's counter, zero at the start. -/
structure NrHelper where
  imsiCounter : Nat
  deriving DecidableEq

/-- The IMSI given to one UE; the counter moves past the IMSI after 254 modulo 256. -/
def installSingleUeDevice (helper : NrHelper) : Except Fault (Nat × NrHelper) :=
  if 0xFFFFFFFF ≤ helper.imsiCounter then .error Fault.maxNumUesExceeded
  else
    let imsi := helper.imsiCounter + 1
    .ok (imsi, ⟨if imsi % 256 = 254 then imsi + 1 else imsi⟩)

/-- UEs installed one after another. -/
def installUeDevice : Nat → NrHelper → Except Fault (List Nat × NrHelper)
  | 0, helper => .ok ([], helper)
  | n + 1, helper => do
    let (imsi, helper) ← installSingleUeDevice helper
    let (rest, helper) ← installUeDevice n helper
    pure (imsi :: rest, helper)

/-- The largest number of UEs that the helper installs. -/
def maxNumUes : Nat := 4278190079

/-- The IMSIs of `n` UEs are numbered through by the index. -/
structure Numbers (n : Nat) (imsis : List Nat) : Prop where
  length : imsis.length = n
  skips : ∀ imsi ∈ imsis, imsi % 256 ≠ 255
  index : ∀ (i imsi : Nat), imsis[i]? = some imsi → ueIndex imsi = i
  bijective : Set.BijOn (fun imsi : Nat => ueIndex imsi) {imsi | imsi ∈ imsis}
    (Set.Ico 0 (n : Int))

/-- The outcome of installing `n` UEs: their IMSIs, or the abort when there are too many. -/
inductive Installs (n : Nat) : Except Fault (List Nat × NrHelper) → Prop
  | numbered (imsis : List Nat) (helper : NrHelper) (hn : n ≤ maxNumUes)
      (numbers : Numbers n imsis) : Installs n (.ok (imsis, helper))
  | exceeded (hn : maxNumUes < n) : Installs n (.error Fault.maxNumUesExceeded)

section Numbering

/-- The IMSI of the UE that is installed after `i` others. -/
def imsiOf (i : Nat) : Nat := i + 1 + (i + 1) / 255

/-- The counter after `i` UEs. -/
def counterOf (i : Nat) : Nat := i + (i + 1) / 255

theorem imsiOf_skips (i : Nat) : imsiOf i % 256 ≠ 255 := by
  unfold imsiOf
  omega

theorem ueIndex_imsiOf (i : Nat) : ueIndex (imsiOf i) = i := by
  unfold ueIndex imsiOf
  omega

/-- One installation moves from one UE's counter to the next one's. -/
theorem installSingleUeDevice_counterOf (i : Nat) :
    installSingleUeDevice ⟨counterOf i⟩ =
      if i < maxNumUes then .ok (imsiOf i, ⟨counterOf (i + 1)⟩)
      else .error Fault.maxNumUesExceeded := by
  have himsi : counterOf i + 1 = imsiOf i := by
    unfold counterOf imsiOf
    omega
  have hnext : (if imsiOf i % 256 = 254 then imsiOf i + 1 else imsiOf i) = counterOf (i + 1) := by
    unfold counterOf imsiOf
    split <;> omega
  have hlimit : 0xFFFFFFFF ≤ counterOf i ↔ ¬i < maxNumUes := by
    unfold counterOf maxNumUes
    omega
  unfold installSingleUeDevice
  rw [himsi]
  dsimp only
  rw [hnext]
  by_cases hi : i < maxNumUes
  · rw [if_neg fun h => hlimit.mp h hi, if_pos hi]
  · rw [if_pos (hlimit.mpr hi), if_neg hi]

theorem installUeDevice_counterOf (n i : Nat) (hi : i ≤ maxNumUes) :
    installUeDevice n ⟨counterOf i⟩ =
      if i + n ≤ maxNumUes then .ok ((List.range' i n).map imsiOf, ⟨counterOf (i + n)⟩)
      else .error Fault.maxNumUesExceeded := by
  induction n generalizing i with
  | zero =>
    rw [if_pos (by omega)]
    rfl
  | succ n ih =>
    have hsingle := installSingleUeDevice_counterOf i
    rw [installUeDevice]
    by_cases hlt : i < maxNumUes
    · rw [if_pos hlt] at hsingle
      have hrest := ih (i + 1) hlt
      rw [show i + 1 + n = i + (n + 1) by omega] at hrest
      rw [bind_of_ok hsingle]
      by_cases hn : i + (n + 1) ≤ maxNumUes
      · rw [if_pos hn] at hrest ⊢
        dsimp only
        rw [bind_of_ok hrest]
        rfl
      · rw [if_neg hn] at hrest ⊢
        dsimp only
        rw [bind_of_error hrest]
    · rw [if_neg hlt] at hsingle
      rw [bind_of_error hsingle, if_neg (by omega)]

theorem numbers_imsiOf (n : Nat) : Numbers n ((List.range' 0 n).map imsiOf) where
  length := by simp
  skips := by
    intro imsi himsi
    obtain ⟨i, _, rfl⟩ := List.mem_map.mp himsi
    exact imsiOf_skips i
  index := by
    intro i imsi hi
    obtain ⟨j, hj, rfl⟩ := Option.map_eq_some_iff.mp (List.getElem?_map ▸ hi)
    obtain ⟨_, rfl⟩ := List.getElem?_eq_some_iff.mp hj
    simp [ueIndex_imsiOf]
  bijective := by
    refine ⟨?_, ?_, ?_⟩
    · intro imsi himsi
      obtain ⟨i, hi, rfl⟩ := List.mem_map.mp himsi
      have hlt := (List.mem_range'_1.mp hi).2
      simp only [ueIndex_imsiOf, Set.mem_Ico]
      omega
    · intro imsi himsi imsi' himsi' heq
      obtain ⟨i, _, rfl⟩ := List.mem_map.mp himsi
      obtain ⟨j, _, rfl⟩ := List.mem_map.mp himsi'
      simp only [ueIndex_imsiOf, Nat.cast_inj] at heq
      rw [heq]
    · intro index hindex
      refine ⟨imsiOf index.toNat, List.mem_map_of_mem ?_, ?_⟩
      · rw [List.mem_range'_1]
        have := hindex.2
        have := hindex.1
        omega
      · simp only [ueIndex_imsiOf]
        exact Int.toNat_of_nonneg hindex.1

/-- The first `n` UEs get IMSIs that the Python map numbers from 0 to `n - 1`. -/
theorem installUeDevice_numbers (n : Nat) : Installs n (installUeDevice n ⟨0⟩) := by
  have hrun := installUeDevice_counterOf n 0 (Nat.zero_le _)
  rw [Nat.zero_add] at hrun
  rw [show (0 : Nat) = counterOf 0 from rfl, hrun]
  split
  next hn => exact .numbered _ _ hn (numbers_imsiOf n)
  next hn => exact .exceeded (not_le.mp hn)

end Numbering

end SidelinkORe
