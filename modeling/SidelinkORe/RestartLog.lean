import Mathlib.Data.List.Induction
import Mathlib.Tactic.Linarith

namespace SidelinkORe

/-- How the entries of a log are collected: an entry may start the collection again before it is
added, or empty it afterwards. -/
structure Collecting (α β : Type*) where
  opens : α → Bool
  closes : α → Bool
  item : α → Option β

namespace Collecting

section Collect

variable {α β : Type*} (c : Collecting α β)

def before (collected : List β) (a : α) : List β := if c.opens a = true then [] else collected

def step (collected : List β) (a : α) : List β :=
  if c.closes a = true then [] else c.before collected a ++ (c.item a).toList

def collect (log : List α) : List β := log.foldl c.step []

/-- No entry of the log restarts the collection. -/
def Plain (log : List α) : Prop := ∀ a ∈ log, c.opens a = false ∧ c.closes a = false

variable {c}

theorem collect_append_singleton (log : List α) (a : α) :
    c.collect (log ++ [a]) = c.step (c.collect log) a := by
  rw [collect, List.foldl_append]
  rfl

theorem step_plain {collected : List β} {a : α} (h : c.opens a = false ∧ c.closes a = false) :
    c.step collected a = collected ++ (c.item a).toList := by
  simp [step, before, h.1, h.2]

theorem foldl_plain {log : List α} (h : c.Plain log) (collected : List β) :
    log.foldl c.step collected = collected ++ log.filterMap c.item := by
  induction log generalizing collected with
  | nil => simp
  | cons a log ih =>
    obtain ⟨ha, hlog⟩ := List.forall_mem_cons.mp h
    rw [List.foldl_cons, step_plain ha, ih hlog, List.append_assoc]
    cases hitem : c.item a <;> simp [hitem]

theorem collect_append_plain {log rest : List α} (h : c.Plain rest) :
    c.collect (log ++ rest) = c.collect log ++ rest.filterMap c.item := by
  rw [collect, List.foldl_append, foldl_plain h]
  rfl

theorem foldl_restart {log : List α} (h : ¬c.Plain log) (s s' : List β) :
    log.foldl c.step s = log.foldl c.step s' := by
  induction log generalizing s s' with
  | nil => exact absurd (by simp [Plain]) h
  | cons a log ih =>
    by_cases ha : c.opens a = false ∧ c.closes a = false
    · exact ih (fun hlog => h (List.forall_mem_cons.mpr ⟨ha, hlog⟩)) _ _
    · have hstep : c.step s a = c.step s' a := by
        unfold step before
        cases hopens : c.opens a
        · have hcloses : c.closes a = true := by simpa [hopens] using ha
          rw [if_pos hcloses, if_pos hcloses]
        · rfl
      rw [List.foldl_cons, List.foldl_cons, hstep]

/-- After a restart it does not matter what was collected before. -/
theorem collect_append_restart {log rest : List α} (h : ¬c.Plain rest) :
    c.collect (log ++ rest) = c.collect rest := by
  rw [collect, List.foldl_append]
  exact foldl_restart h _ _

/-- What is collected is what the log holds since its last restart. -/
theorem collect_eq (log : List α) : ∃ past recent, log = past ++ recent ∧
    c.collect log = recent.filterMap c.item ∧ (∀ a ∈ recent, c.closes a = false) ∧
    c.Plain recent.tail ∧
    (past = [] ∨ (∃ a, recent.head? = some a ∧ c.opens a = true) ∨
      ∃ a, past.getLast? = some a ∧ c.closes a = true) := by
  induction log using List.reverseRecOn with
  | nil => exact ⟨[], [], rfl, rfl, by simp, by simp [Plain], Or.inl rfl⟩
  | append_singleton log a ih =>
    obtain ⟨past, recent, rfl, hcollect, hopen, hplain, hstart⟩ := ih
    rw [collect_append_singleton, hcollect]
    by_cases hcloses : c.closes a = true
    · refine ⟨past ++ recent ++ [a], [], by simp, by simp [step, hcloses], by simp,
        by simp [Plain], Or.inr (Or.inr ⟨a, by simp, hcloses⟩)⟩
    · have hnot : c.closes a = false := by simpa using hcloses
      by_cases hopens : c.opens a = true
      · refine ⟨past ++ recent, [a], rfl, ?_, by simpa using hnot, by simp [Plain],
          Or.inr (Or.inl ⟨a, rfl, hopens⟩)⟩
        cases hitem : c.item a <;> simp [step, before, hopens, hnot, hitem]
      · have hkeep : c.opens a = false := by simpa using hopens
        refine ⟨past, recent ++ [a], by simp, ?_, ?_, ?_, ?_⟩
        · rw [step_plain ⟨hkeep, hnot⟩, List.filterMap_append]
          cases hitem : c.item a <;> simp [hitem]
        · intro b hb
          rcases List.mem_append.mp hb with hb | hb
          · exact hopen b hb
          · rw [List.mem_singleton.mp hb]
            exact hnot
        · cases recent with
          | nil => simp [Plain]
          | cons b recent =>
            intro x hx
            rcases List.mem_append.mp hx with hx | hx
            · exact hplain x hx
            · rw [List.mem_singleton.mp hx]
              exact ⟨hkeep, hnot⟩
        · refine hstart.imp_right fun h => h.imp_left fun ⟨b, hb, hbo⟩ => ⟨b, ?_, hbo⟩
          cases recent with
          | nil => cases hb
          | cons _ _ => exact hb

/-- An item is collected when its entry has not closed and no later entry restarts. -/
theorem mem_collect_iff {log : List α} {x : β} : x ∈ c.collect log ↔ ∃ past a rest, log = past ++ a :: rest ∧
    c.item a = some x ∧ c.closes a = false ∧ c.Plain rest := by
  constructor
  · intro hx
    obtain ⟨past, recent, rfl, hcollect, hopen, hplain, _⟩ := c.collect_eq log
    rw [hcollect] at hx
    obtain ⟨a, ha, hitem⟩ := List.mem_filterMap.mp hx
    obtain ⟨before, after, rfl⟩ := List.append_of_mem ha
    refine ⟨past ++ before, a, after, by simp, hitem, hopen a (by simp), fun b hb => hplain b ?_⟩
    cases before with
    | nil => exact hb
    | cons _ before =>
      show b ∈ before ++ a :: after
      simp [hb]
  · intro ⟨past, a, rest, hlog, hitem, hcloses, hrest⟩
    have hsplit : log = past ++ [a] ++ rest := by simp [hlog]
    rw [hsplit, collect_append_plain hrest, collect_append_singleton, step, if_neg (by simp [hcloses]), hitem]
    simp

end Collect

section Labels

variable {α β : Type*} {c : Collecting α β} {label : α → Nat} {mark : β → Nat}

theorem split_by_label {log : List α} {n : Nat} (rising : log.Pairwise fun a b => label a ≤ label b)
    (bounded : ∀ a ∈ log, label a ≤ n) :
    log = log.filter (fun a => decide (label a < n)) ++ log.filter (fun a => decide (label a = n)) := by
  induction log with
  | nil => rfl
  | cons a log ih =>
    obtain ⟨ha, hrising⟩ := List.pairwise_cons.mp rising
    obtain ⟨hle, hbounded⟩ := List.forall_mem_cons.mp bounded
    by_cases hlt : label a < n
    · have hne : label a ≠ n := by omega
      rw [List.filter_cons_of_pos (by simpa using hlt), List.filter_cons_of_neg (by simpa using hne),
        List.cons_append, ← ih hrising hbounded]
    · have heq : label a = n := by omega
      have hnone : log.filter (fun b => decide (label b < n)) = [] := by
        apply List.filter_eq_nil_iff.mpr
        intro b hb
        have hab := ha b hb
        simp only [decide_eq_true_eq]
        omega
      have hall : log.filter (fun b => decide (label b = n)) = log := by
        apply List.filter_eq_self.mpr
        intro b hb
        have hab := ha b hb
        have hbn := hbounded b hb
        simp only [decide_eq_true_eq]
        omega
      rw [List.filter_cons_of_neg (by simpa using hlt), List.filter_cons_of_pos (by simpa using heq),
        hnone, hall, List.nil_append]

theorem mem_collect_mark (hmark : ∀ a b, c.item a = some b → mark b = label a) {log : List α} {x : β}
    (hx : x ∈ c.collect log) : ∃ a ∈ log, label a = mark x := by
  obtain ⟨past, recent, rfl, hcollect, _⟩ := c.collect_eq log
  rw [hcollect] at hx
  obtain ⟨a, ha, hitem⟩ := List.mem_filterMap.mp hx
  exact ⟨a, List.mem_append_right _ ha, (hmark a x hitem).symm⟩

/-- What is collected for an entry holds an item of another label exactly when no entry of its own
label, itself included, has restarted the collection and the entries before them left something. -/
theorem mixes_iff (hmark : ∀ a b, c.item a = some b → mark b = label a) {past : List α} {a : α}
    (rising : (past ++ [a]).Pairwise fun a b => label a ≤ label b) :
    (∃ x ∈ c.before (c.collect past) a, mark x ≠ label a) ↔
      c.opens a = false ∧ c.Plain (past.filter fun b => decide (label b = label a)) ∧
        c.collect (past.filter fun b => decide (label b < label a)) ≠ [] := by
  obtain ⟨hpast, _, hlast⟩ := List.pairwise_append.mp rising
  have hsplit := split_by_label hpast fun b hb => hlast b hb a (List.mem_singleton_self a)
  generalize hold : past.filter (fun b => decide (label b < label a)) = old at hsplit
  generalize hsame : past.filter (fun b => decide (label b = label a)) = same at hsplit
  have hbefore : ∀ b ∈ old, label b < label a := by
    intro b hb
    rw [← hold] at hb
    simpa using (List.mem_filter.mp hb).2
  have hown : ∀ b ∈ same, label b = label a := by
    intro b hb
    rw [← hsame] at hb
    simpa using (List.mem_filter.mp hb).2
  by_cases ha : c.opens a = true
  · simp [before, ha]
  have hclosed : c.opens a = false := by simpa using ha
  rw [before, hclosed, if_neg Bool.false_ne_true, hsplit]
  by_cases hplain : c.Plain same
  · rw [collect_append_plain hplain]
    constructor
    · intro ⟨x, hx, hne⟩
      refine ⟨rfl, hplain, fun hnil => ?_⟩
      rw [hnil, List.nil_append] at hx
      obtain ⟨b, hb, hitem⟩ := List.mem_filterMap.mp hx
      exact hne ((hmark b x hitem).trans (hown b hb))
    · intro ⟨_, _, hleft⟩
      obtain ⟨x, hx⟩ := List.exists_mem_of_ne_nil _ hleft
      obtain ⟨b, hb, hlabel⟩ := mem_collect_mark hmark hx
      have hlt := hbefore b hb
      exact ⟨x, List.mem_append_left _ hx, by omega⟩
  · rw [collect_append_restart hplain]
    constructor
    · intro ⟨x, hx, hne⟩
      obtain ⟨b, hb, hlabel⟩ := mem_collect_mark hmark hx
      exact absurd (hlabel.symm.trans (hown b hb)) hne
    · intro ⟨_, h, _⟩
      exact absurd h hplain

end Labels

end Collecting

end SidelinkORe
