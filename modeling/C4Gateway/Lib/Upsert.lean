import C4Gateway.Lib.Sql

/-! INSERT .. ON CONFLICT DO UPDATE .. WHERE over a table with a unique key, row by row and in
batches: which row a key has afterwards. -/

namespace C4Gateway.Sql

open List

/-- The columns that an upsert writes: of a new row, and of the stored row that a new one conflicts
with, if its WHERE holds of the stored row. -/
structure Upsert (α κ : Type) where
  key : α → κ
  insert : α → α
  update : α → α → α
  cond : α → Bool
  key_insert : ∀ x, key (insert x) = key x
  key_update : ∀ y x, key (update y x) = key y

namespace Upsert

variable {α κ : Type} [DecidableEq κ] (u : Upsert α κ) {stored xs : List α} {x y : α} {k : κ}

def conflict (y x : α) : α := if u.cond y then u.update y x else y

def row (stored : List α) (x : α) : List α :=
  if u.key x ∈ stored.map u.key then
    stored.map fun y => if u.key y = u.key x then u.conflict y x else y
  else stored ++ [u.insert x]

def all (stored xs : List α) : List α := xs.foldl u.row stored

omit [DecidableEq κ] in
theorem key_conflict (y x : α) : u.key (u.conflict y x) = u.key y := by
  unfold conflict
  split
  · exact u.key_update y x
  · rfl

/-- The row that a new row leaves under its key. -/
def result (stored : Option α) (x : α) : α :=
  match stored with
  | none => u.insert x
  | some y => u.conflict y x

theorem find?_row (k : κ) : (u.row stored x).find? (fun r => u.key r = k) =
    if u.key x = k then some (u.result (stored.find? fun r => u.key r = k) x)
    else stored.find? fun r => u.key r = k := by
  have hkeys : ((fun r => decide (u.key r = k)) ∘ fun y =>
      if u.key y = u.key x then u.conflict y x else y) = fun r => decide (u.key r = k) := by
    funext y
    simp only [Function.comp_apply]
    split
    · rw [u.key_conflict]
    · rfl
  unfold row
  split
  · next hmem =>
    rw [find?_map, hkeys]
    cases hfind : stored.find? fun r => u.key r = k with
    | none =>
      have hne : u.key x ≠ k := by
        rintro rfl
        obtain ⟨y, hy, hyx⟩ := mem_map.mp hmem
        have := find?_eq_none.mp hfind y hy
        simp [hyx] at this
      simp [hne]
    | some y =>
      have hy : u.key y = k := by simpa using find?_some hfind
      by_cases hxk : u.key x = k
      · simp [result, hxk, hy]
      · simp [hxk, hy, Ne.symm hxk]
  · next hmem =>
    by_cases hxk : u.key x = k
    · have hnone : stored.find? (fun r => u.key r = k) = none := by
        rw [find?_eq_none]
        intro y hy hyk
        simp only [decide_eq_true_eq] at hyk
        exact hmem (mem_map.mpr ⟨y, hy, hyk.trans hxk.symm⟩)
      simp [hnone, result, u.key_insert]
    · simp [hxk, u.key_insert]

theorem keys_row (h : (stored.map u.key).Nodup) : ((u.row stored x).map u.key).Nodup := by
  unfold row
  split
  · have hkeys : (u.key ∘ fun y => if u.key y = u.key x then u.conflict y x else y) = u.key := by
      funext y
      simp only [Function.comp_apply]
      split
      · exact u.key_conflict y x
      · rfl
    rwa [map_map, hkeys]
  · next hmem => simpa [u.key_insert] using h.concat hmem

theorem keys_all (h : (stored.map u.key).Nodup) : ((u.all stored xs).map u.key).Nodup := by
  induction xs generalizing stored with
  | nil => exact h
  | cons x xs ih => exact ih (u.keys_row h)

theorem find?_all (stored : List α) (h : (xs.map u.key).Nodup) (k : κ) :
    (u.all stored xs).find? (fun r => u.key r = k) =
      ((xs.find? fun x => u.key x = k).map (u.result (stored.find? fun r => u.key r = k))).or
        (stored.find? fun r => u.key r = k) := by
  unfold all
  induction xs generalizing stored with
  | nil => rfl
  | cons x xs ih =>
    rw [map_cons, nodup_cons] at h
    rw [foldl_cons, ih _ h.2, u.find?_row]
    by_cases hxk : u.key x = k
    · have hnone : xs.find? (fun x => u.key x = k) = none := by
        rw [find?_eq_none]
        intro y hy hyk
        simp only [decide_eq_true_eq] at hyk
        exact h.1 (mem_map.mpr ⟨y, hy, hyk.trans hxk.symm⟩)
      simp [hxk, hnone]
    · simp [hxk]

end Upsert

/-- A list in pieces of `n`, the last of which may be shorter. -/
def batches {α : Type} (n : Nat) (l : List α) : List (List α) := go l.length l
where
  go : Nat → List α → List (List α)
    | 0, _ => []
    | _ + 1, [] => []
    | fuel + 1, a :: l => (a :: l).take n :: go fuel ((a :: l).drop n)

theorem batches_go_flatten {α : Type} {n : Nat} (hn : 0 < n) {fuel : Nat} {l : List α}
    (h : l.length ≤ fuel) : (batches.go n fuel l).flatten = l := by
  induction fuel generalizing l with
  | zero =>
    have hnil : l = [] := length_eq_zero_iff.mp (Nat.le_zero.mp h)
    rw [hnil]
    rfl
  | succ fuel ih =>
    cases l with
    | nil => rfl
    | cons a l =>
      have hlen : ((a :: l).drop n).length ≤ fuel := by
        rw [length_drop]
        omega
      rw [batches.go, flatten_cons, ih hlen, take_append_drop]

theorem batches_flatten {α : Type} {n : Nat} (hn : 0 < n) (l : List α) :
    (batches n l).flatten = l :=
  batches_go_flatten hn le_rfl

end C4Gateway.Sql
