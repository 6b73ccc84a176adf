import Mathlib.Data.List.Induction
import Mathlib.Data.List.Nodup

/-! The elements of the highest positive rank of a list, collected in one pass. -/

namespace C4Gateway.Best

open List

variable {α : Type} [DecidableEq α] (rank : α → Nat)

/-- The highest rank seen, with the elements that have it. -/
def step (acc : Nat × List α) (x : α) : Nat × List α :=
  if rank x = 0 then acc
  else
    let acc := if rank x > acc.1 then (rank x, []) else acc
    if rank x = acc.1 ∧ x ∉ acc.2 then (acc.1, acc.2 ++ [x]) else acc

def collect (l : List α) : List α := (l.foldl (step rank) (0, [])).2

def top (l : List α) : Nat := l.foldr (fun x n => max (rank x) n) 0

variable {rank} {l : List α} {x : α} {p : α → Bool}

omit [DecidableEq α] in
theorem top_append_singleton (l : List α) (x : α) :
    top rank (l ++ [x]) = max (top rank l) (rank x) := by
  induction l with
  | nil => simp [top]
  | cons y l ih =>
    simp only [top, cons_append, foldr_cons] at ih ⊢
    rw [ih, Nat.max_assoc]

omit [DecidableEq α] in
theorem top_le_iff {n : Nat} : top rank l ≤ n ↔ ∀ x ∈ l, rank x ≤ n := by
  induction l with
  | nil => simp [top]
  | cons y l ih =>
    simp only [top, foldr_cons, Nat.max_le, forall_mem_cons] at ih ⊢
    rw [ih]

omit [DecidableEq α] in
theorem rank_le_top (h : x ∈ l) : rank x ≤ top rank l := top_le_iff.mp (Nat.le_refl _) x h

theorem step_zero {acc : Nat × List α} (h : rank x = 0) : step rank acc x = acc := by
  rw [step, if_pos h]

variable {n : Nat} {best : List α}

theorem step_lower (h : rank x < n) : step rank (n, best) x = (n, best) := by
  unfold step
  split
  · rfl
  · simp [show ¬rank x > n by omega, show rank x ≠ n by omega]

theorem step_equal (h : rank x = n) (hpos : rank x ≠ 0) (hx : x ∉ best) :
    step rank (n, best) x = (n, best ++ [x]) := by
  subst h
  simp [step, hpos, hx]

theorem step_higher (h : n < rank x) : step rank (n, best) x = (rank x, [x]) := by
  simp [step, show rank x ≠ 0 by omega, h]

theorem foldl_step (h : l.Nodup) : l.foldl (step rank) (0, []) =
    (top rank l, l.filter fun x => rank x ≠ 0 ∧ rank x = top rank l) := by
  induction l using List.reverseRecOn with
  | nil => rfl
  | append_singleton l x ih =>
    obtain ⟨hl, hx⟩ : l.Nodup ∧ x ∉ l := by
      rw [nodup_append] at h
      exact ⟨h.1, fun hmem => h.2.2 x hmem x mem_cons_self rfl⟩
    rw [foldl_append, ih hl, foldl_cons, foldl_nil, top_append_singleton, filter_append]
    rcases Nat.lt_trichotomy (rank x) (top rank l) with hlt | heq | hgt
    · -- A lower rank changes nothing.
      have hnot : ¬(rank x ≠ 0 ∧ rank x = top rank l) := by omega
      rw [Nat.max_eq_left (Nat.le_of_lt hlt), step_lower hlt]
      simp [hnot]
    · rw [Nat.max_eq_left (Nat.le_of_eq heq)]
      by_cases hzero : rank x = 0
      · rw [step_zero hzero]
        simp [hzero]
      · rw [step_equal heq hzero fun hmem => hx (mem_filter.mp hmem).1]
        have hin : rank x ≠ 0 ∧ rank x = top rank l := ⟨hzero, heq⟩
        rw [filter_singleton, decide_eq_true hin, cond_true]
    · -- A higher rank drops all that was collected.
      have hnone : l.filter (fun y => rank y ≠ 0 ∧ rank y = rank x) = [] := by
        rw [filter_eq_nil_iff]
        intro y hy hr
        have hle : rank y ≤ top rank l := rank_le_top hy
        simp only [decide_eq_true_eq] at hr
        omega
      rw [Nat.max_eq_right (Nat.le_of_lt hgt), hnone, step_higher hgt]
      simp [show rank x ≠ 0 by omega]

theorem collect_eq (h : l.Nodup) :
    collect rank l = l.filter fun x => rank x ≠ 0 ∧ rank x = top rank l := by
  rw [collect, foldl_step h]

theorem mem_collect (h : l.Nodup) :
    x ∈ collect rank l ↔ x ∈ l ∧ rank x ≠ 0 ∧ rank x = top rank l := by
  rw [collect_eq h, mem_filter, decide_eq_true_eq]

omit [DecidableEq α] in
theorem exists_rank_eq_top (h : top rank l ≠ 0) : ∃ x ∈ l, rank x = top rank l := by
  induction l with
  | nil => exact absurd rfl h
  | cons y l ih =>
    simp only [top, foldr_cons] at h ih ⊢
    rcases Nat.le_total (l.foldr (fun x n => max (rank x) n) 0) (rank y) with hle | hle
    · exact ⟨y, mem_cons_self, (Nat.max_eq_left hle).symm⟩
    · rw [Nat.max_eq_right hle] at h ⊢
      obtain ⟨x, hx, hrank⟩ := ih h
      exact ⟨x, mem_cons_of_mem _ hx, hrank⟩

/-- An element of positive rank is enough for there to be a best one. -/
theorem collect_ne_nil (h : l.Nodup) (hx : x ∈ l) (hpos : rank x ≠ 0) : collect rank l ≠ [] := by
  have hle : rank x ≤ top rank l := rank_le_top hx
  obtain ⟨y, hy, htop⟩ := exists_rank_eq_top (show top rank l ≠ 0 by omega)
  exact ne_nil_of_mem ((mem_collect h).mpr ⟨hy, by omega, htop⟩)

/-- Leaving out elements leaves them out of the best ones, as long as one of the best stays. -/
theorem collect_filter (h : l.Nodup) (hx : x ∈ collect rank l) (hp : p x = true) :
    collect rank (l.filter p) = (collect rank l).filter p := by
  rw [mem_collect h] at hx
  have htop : top rank (l.filter p) = top rank l := by
    refine Nat.le_antisymm (top_le_iff.mpr fun y hy => rank_le_top (mem_filter.mp hy).1) ?_
    rw [← hx.2.2]
    exact rank_le_top (mem_filter.mpr ⟨hx.1, hp⟩)
  rw [collect_eq h, collect_eq (h.filter p), htop, filter_filter, filter_filter]
  exact filter_congr fun y _ => Bool.and_comm _ _

omit [DecidableEq α] in
/-- The first element with a property is the least one. -/
theorem find?_least {r : α → α → Prop} (hl : l.Pairwise r) (hrefl : ∀ a, r a a)
    (h : l.find? p = some x) : x ∈ l ∧ p x ∧ ∀ y ∈ l, p y → r x y := by
  obtain ⟨hp, before, after, rfl, hbefore⟩ := find?_eq_some_iff_append.mp h
  refine ⟨by simp, hp, fun y hy hpy => ?_⟩
  rw [pairwise_append, pairwise_cons] at hl
  rw [mem_append, mem_cons] at hy
  rcases hy with hy | rfl | hy
  · exact absurd hpy (by simpa using hbefore y hy)
  · exact hrefl y
  · exact hl.2.1.1 y hy

end C4Gateway.Best
