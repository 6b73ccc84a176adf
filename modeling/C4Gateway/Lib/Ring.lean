import Mathlib.Data.List.Basic

/-! A ring of cells with a current one.  A push moves on to the oldest cell and overwrites it; cells
are addressed by how many pushes ago they were current. -/

namespace C4Gateway

open List

/-- A circular buffer with a cursor that never leaves it. -/
structure Ring (α : Type*) where
  cells : List α
  cur : Nat
  cur_lt : cur < cells.length

namespace Ring

variable {α : Type*} {r : Ring α}

def size (r : Ring α) : Nat := r.cells.length

theorem size_pos (r : Ring α) : 0 < r.size := Nat.zero_lt_of_lt r.cur_lt

/-- The index of the cell that was current `i` pushes ago. -/
def index (r : Ring α) (i : Nat) : Nat := if i ≤ r.cur then r.cur - i else r.cur + r.size - i

variable {i j : Nat} (a : α) (f : α → α)

theorem index_lt (r : Ring α) (hi : i < r.size) : r.index i < r.cells.length := by
  have := r.cur_lt
  unfold index size at *
  split <;> omega

theorem index_inj (hi : i < r.size) (hj : j < r.size) (h : r.index i = r.index j) : i = j := by
  unfold index size at *
  split at h <;> split at h <;> omega

def behind (r : Ring α) (i : Nat) : Option α := if i < r.size then r.cells[r.index i]? else none

theorem behind_of_lt (hi : i < r.size) : ∃ a, r.behind i = some a := by
  rw [behind, if_pos hi, getElem?_eq_getElem (r.index_lt hi)]
  exact ⟨_, rfl⟩

theorem lt_of_behind {a : α} (h : r.behind i = some a) : i < r.size := by
  unfold behind at h
  split at h
  · assumption
  · cases h

def push (r : Ring α) (a : α) : Ring α where
  cells := r.cells.set ((r.cur + 1) % r.size) a
  cur := (r.cur + 1) % r.size
  cur_lt := by
    rw [length_set]
    exact Nat.mod_lt _ r.size_pos

def modify (r : Ring α) (i : Nat) (f : α → α) : Ring α where
  cells := r.cells.modify (r.index i) f
  cur := r.cur
  cur_lt := by rw [length_modify]; exact r.cur_lt

def map (r : Ring α) (f : α → α) : Ring α where
  cells := r.cells.map f
  cur := r.cur
  cur_lt := by rw [length_map]; exact r.cur_lt

@[simp] theorem size_push : (r.push a).size = r.size := length_set

@[simp] theorem size_modify (i : Nat) (f : α → α) : (r.modify i f).size = r.size :=
  length_modify ..

@[simp] theorem size_map : (r.map f).size = r.size := length_map ..

theorem push_cur : (r.push a).cur = if r.cur + 1 = r.size then 0 else r.cur + 1 := by
  have := r.cur_lt
  change (r.cur + 1) % r.size = _
  unfold size
  split
  next h =>
    rw [h, Nat.mod_self]
  · exact Nat.mod_eq_of_lt (by omega)

@[simp] theorem behind_push_zero : (r.push a).behind 0 = some a := by
  have hpos := (r.push a).size_pos
  rw [behind, if_pos hpos]
  exact getElem?_set_self (Nat.mod_lt _ r.size_pos)

theorem behind_push_succ (hi : i + 1 < r.size) : (r.push a).behind (i + 1) = r.behind i := by
  have hindex : (r.push a).index (i + 1) = r.index i := by
    simp only [index, push_cur, size_push]
    split <;> split <;> split <;> omega
  have hne : (r.cur + 1) % r.size ≠ r.index i := by
    change (r.push a).cur ≠ r.index i
    rw [push_cur]
    simp only [index]
    split <;> split <;> omega
  rw [behind, behind, size_push, if_pos hi, if_pos (by omega), hindex]
  exact getElem?_set_ne hne

theorem behind_modify (hi : i < r.size) (hj : j < r.size) :
    (r.modify i f).behind j = if i = j then (r.behind j).map f else r.behind j := by
  have hindex : (r.modify i f).index j = r.index j := by simp [index, modify, size]
  rw [behind, behind, size_modify, if_pos hj, if_pos hj, hindex]
  change (r.cells.modify (r.index i) f)[r.index j]? = _
  by_cases h : i = j
  · subst h
    simp
  · have hne : r.index i ≠ r.index j := fun heq => h (index_inj hi hj heq)
    simp [h, hne]

theorem behind_map (i : Nat) : (r.map f).behind i = (r.behind i).map f := by
  have hindex : (r.map f).index i = r.index i := by simp [index, map, size]
  simp only [behind, size_map, hindex]
  split
  · exact getElem?_map
  · rfl

end Ring
end C4Gateway
