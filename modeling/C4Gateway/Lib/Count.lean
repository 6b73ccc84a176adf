import Mathlib.Algebra.BigOperators.Group.List.Basic

/-! How often a value occurs in what the entries of a list hold together: after one entry changes
or leaves, and when the values are dealt out to numbered places. -/

namespace C4Gateway.Count

open List

variable {α β : Type*} [DecidableEq β] {f : α → List β} {l : List α} {i : Nat} {a : α} (b : β)

theorem flatMap_set (a' : α) (h : l[i]? = some a) :
    ((l.set i a').flatMap f).count b + (f a).count b =
      (l.flatMap f).count b + (f a').count b := by
  induction l generalizing i with
  | nil => simp at h
  | cons x l ih =>
    cases i with
    | zero =>
      obtain rfl : x = a := by simpa using h
      simp only [set_cons_zero, flatMap_cons, count_append]
      omega
    | succ i =>
      have := ih (by simpa using h)
      simp only [set_cons_succ, flatMap_cons, count_append]
      omega

theorem flatMap_eraseIdx (h : l[i]? = some a) :
    ((l.eraseIdx i).flatMap f).count b + (f a).count b = (l.flatMap f).count b := by
  induction l generalizing i with
  | nil => simp at h
  | cons x l ih =>
    cases i with
    | zero =>
      obtain rfl : x = a := by simpa using h
      simp only [eraseIdx_zero, tail_cons, flatMap_cons, count_append]
      omega
    | succ i =>
      have := ih (by simpa using h)
      simp only [eraseIdx_cons_succ, flatMap_cons, count_append]
      omega

omit [DecidableEq β] in
theorem flatMap_set_of_eq (a' : α) (h : l[i]? = some a) (heq : f a' = f a) :
    (l.set i a').flatMap f = l.flatMap f := by
  obtain ⟨hi, rfl⟩ := List.getElem?_eq_some_iff.mp h
  have hset := List.set_getElem_self (show i < (l.map f).length by simpa using hi)
  rw [List.getElem_map, ← heq] at hset
  rw [flatMap_def, map_set, hset, flatMap_def]

omit [DecidableEq β] in
theorem mem_flatMap_set {a' : α} {b : β} (h : b ∈ (l.set i a').flatMap f) :
    b ∈ f a' ∨ b ∈ l.flatMap f := by
  obtain ⟨x, hx, hb⟩ := mem_flatMap.mp h
  rcases mem_or_eq_of_mem_set hx with hx | rfl
  · exact .inr (mem_flatMap.mpr ⟨x, hx, hb⟩)
  · exact .inl hb

theorem flatMap_le_flatMap {g : α → List β} (h : ∀ a ∈ l, (f a).count b ≤ (g a).count b) :
    (l.flatMap f).count b ≤ (l.flatMap g).count b := by
  induction l with
  | nil => simp
  | cons x l ih =>
    simp only [flatMap_cons, count_append]
    exact Nat.add_le_add (h x (by simp)) (ih fun a ha => h a (by simp [ha]))

theorem filter_add_filter_not (p : β → Prop) [DecidablePred p] (vs : List β) :
    (vs.filter (p ·)).count b + (vs.filter (¬ p ·)).count b = vs.count b := by
  by_cases hb : p b <;> simp [count_filter, count_eq_zero, hb]

/-- Every value that is dealt to its place `p` below `n` is there once for each time it was. -/
theorem flatMap_range_filter {n : Nat} (p : β → Nat) (vs : List β) :
    ((List.range n).flatMap fun i => vs.filter fun v => p v = i).count b =
      if p b < n then vs.count b else 0 := by
  induction n with
  | zero => simp
  | succ n ih =>
    rw [range_succ, flatMap_append, count_append, ih]
    simp only [flatMap_cons, flatMap_nil, append_nil]
    by_cases hb : p b = n
    · rw [count_filter (by simp [hb])]
      simp [hb]
    · have : (vs.filter fun v => p v = n).count b = 0 := by simp [count_eq_zero, hb]
      rw [this]
      simp only [Nat.lt_succ_iff_lt_or_eq, hb, or_false, Nat.add_zero]

omit [DecidableEq β] in
theorem countP_le_add {p q r : α → Bool} (h : ∀ a, p a → q a ∨ r a) :
    l.countP p ≤ l.countP q + l.countP r := by
  induction l with
  | nil => simp
  | cons a l ih =>
    have hcell : (if p a then 1 else 0) ≤ (if q a then 1 else 0) + if r a then 1 else 0 := by
      cases hp : p a with
      | false => simp
      | true => rcases h a hp with hq | hr <;> simp [*]
    simp only [countP_cons]
    omega

end C4Gateway.Count
