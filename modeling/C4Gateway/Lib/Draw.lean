import C4Gateway.Lib.Sql
import Mathlib.Algebra.Order.BigOperators.Group.List

/-! A demand drawn greedily from amounts in order: each amount gives what the amounts before it
leave open, and the last one touched may be left in part. -/

namespace C4Gateway.Draw

open List Sql

/-- What a demand `d` takes from the amount `a` that comes after amounts of sum `c`. -/
def takeAt (d c a : Int) : Int := max 0 (min a (d - c))

theorem takeAt_nonneg (d c a : Int) : 0 ≤ takeAt d c a := le_max_left ..

theorem takeAt_le {d c a : Int} (ha : 0 ≤ a) : takeAt d c a ≤ a := by
  unfold takeAt; omega

theorem takeAt_eq_zero {d c a : Int} (h : d ≤ c) : takeAt d c a = 0 := by
  unfold takeAt; omega

theorem takeAt_full {d e c a : Int} (h : takeAt d c a = a) (hde : d ≤ e) : takeAt e c a = a := by
  unfold takeAt at *; omega

theorem takeAt_add {d e c a : Int} (he : 0 ≤ e) (ha : 0 ≤ a) :
    takeAt d c a + takeAt e (c - min d c) (a - takeAt d c a) = takeAt (d + e) c a := by
  unfold takeAt; omega

section
variable {α κ : Type} [LinearOrder κ] (key : α → κ) (val : α → Int)

/-- The sum of the amounts that come before `x`. -/
def before (rows : List α) (x : α) : Int :=
  ((rows.filter fun r => decide (key r < key x)).map val).sum

variable {key val} {d : Int} {rows : List α}

theorem before_perm {l : List α} (h : l.Perm rows) (x : α) :
    before key val l x = before key val rows x :=
  ((h.filter _).map val).sum_eq

variable (key) in
theorem before_nonneg {rows : List α} (nonneg : ∀ r ∈ rows, 0 ≤ val r) (x : α) :
    0 ≤ before key val rows x := by
  refine sum_nonneg fun v hv => ?_
  obtain ⟨r, hr, rfl⟩ := mem_map.mp hv
  exact nonneg r (mem_of_mem_filter hr)

theorem before_split {pre post : List α} {x : α}
    (sorted : (pre ++ x :: post).Pairwise fun a b => key a < key b) :
    before key val (pre ++ x :: post) x = (pre.map val).sum := by
  obtain ⟨_, hx, hpre⟩ := pairwise_append.mp sorted
  have hleft : pre.filter (fun r => decide (key r < key x)) = pre :=
    filter_eq_self.mpr fun r hr => by simpa using hpre r hr x (by simp)
  have hright : (x :: post).filter (fun r => decide (key r < key x)) = [] := by
    refine filter_eq_nil_iff.mpr fun r hr => ?_
    rcases mem_cons.mp hr with rfl | hr
    · simp
    · simpa using ((pairwise_cons.mp hx).1 r hr).le
  rw [before, filter_append, hleft, hright, append_nil]

theorem before_add_le (nonneg : ∀ r ∈ rows, 0 ≤ val r) {x y : α} (hx : x ∈ rows)
    (hxy : key x < key y) : before key val rows x + val x ≤ before key val rows y := by
  have hsplit := sum_filter_add_sum_filter_not val (fun r => decide (key r < key x))
    (rows.filter fun r => decide (key r < key y))
  have hleft : (rows.filter fun r => decide (key r < key y)).filter
      (fun r => decide (key r < key x)) = rows.filter fun r => decide (key r < key x) := by
    rw [filter_filter]
    refine filter_congr fun r _ => ?_
    by_cases h : key r < key x
    · simp [h.trans hxy]
    · simp [h]
  have hmem : val x ∈ ((rows.filter fun r => decide (key r < key y)).filter
      fun r => !decide (key r < key x)).map val :=
    mem_map.mpr ⟨x, by simp [hx, hxy], rfl⟩
  have hle := single_le_sum (fun v hv => by
    obtain ⟨r, hr, rfl⟩ := mem_map.mp hv
    exact nonneg r (mem_of_mem_filter (mem_of_mem_filter hr))) _ hmem
  rw [hleft] at hsplit
  unfold before
  omega

theorem sum_takeAt_sorted (d : Int) (l pre : List α)
    (sorted : (pre ++ l).Pairwise fun a b => key a < key b) (nonneg : ∀ r ∈ l, 0 ≤ val r) :
    (l.map fun x => takeAt d (before key val (pre ++ l) x) (val x)).sum =
      takeAt d (pre.map val).sum (l.map val).sum := by
  induction l generalizing pre with
  | nil => simp [takeAt]
  | cons x l ih =>
    have ih := ih (pre ++ [x]) (by simpa using sorted) fun r hr => nonneg r (by simp [hr])
    simp only [append_assoc, singleton_append] at ih
    have hx := nonneg x (by simp)
    have hl : 0 ≤ (l.map val).sum := sum_nonneg fun v hv => by
      obtain ⟨r, hr, rfl⟩ := mem_map.mp hv
      exact nonneg r (by simp [hr])
    rw [map_cons, sum_cons, ih, before_split sorted, map_append, sum_append]
    simp only [map_cons, map_nil, sum_cons, sum_nil, takeAt]
    omega

/-- The takes of a demand add up to the demand or to everything there is. -/
theorem sum_takeAt (distinct : (rows.map key).Nodup) (nonneg : ∀ r ∈ rows, 0 ≤ val r) (hd : 0 ≤ d) :
    (rows.map fun x => takeAt d (before key val rows x) (val x)).sum =
      min d (rows.map val).sum := by
  obtain ⟨l, hperm, sorted⟩ : ∃ l : List α, l.Perm rows ∧ l.Pairwise fun a b => key a < key b :=
    ⟨_, perm_insertionSort _ _, sorted_pairwise_lt distinct⟩
  have hl := sum_takeAt_sorted d l [] sorted fun r hr => nonneg r (hperm.mem_iff.mp hr)
  have hsum : 0 ≤ (l.map val).sum := sum_nonneg fun v hv => by
    obtain ⟨r, hr, rfl⟩ := mem_map.mp hv
    exact nonneg r (hperm.mem_iff.mp hr)
  rw [← (hperm.map val).sum_eq, ← (hperm.map _).sum_eq]
  simp only [nil_append, map_nil, sum_nil] at hl
  rw [show (fun x => takeAt d (before key val rows x) (val x)) =
    fun x => takeAt d (before key val l x) (val x) from funext fun x => by rw [before_perm hperm],
    hl, takeAt]
  omega

/-- Greed: when a later amount is touched, every earlier one is used up. -/
theorem takeAt_eq_of_later (nonneg : ∀ r ∈ rows, 0 ≤ val r) {x y : α} (hx : x ∈ rows)
    (hxy : key x < key y) (htouched : 0 < takeAt d (before key val rows y) (val y)) :
    takeAt d (before key val rows x) (val x) = val x := by
  have h := before_add_le nonneg hx hxy
  have hval := nonneg x hx
  simp only [takeAt] at htouched ⊢
  omega

theorem sum_takeAt_before (distinct : (rows.map key).Nodup) (nonneg : ∀ r ∈ rows, 0 ≤ val r)
    (hd : 0 ≤ d) (x : α) :
    ((rows.filter fun r => decide (key r < key x)).map fun r =>
      takeAt d (before key val rows r) (val r)).sum = min d (before key val rows x) := by
  have hdist : ((rows.filter fun r => decide (key r < key x)).map key).Nodup :=
    distinct.sublist (filter_sublist.map _)
  have hsum := sum_takeAt hdist (fun r hr => nonneg r (mem_of_mem_filter hr)) hd
  rw [before, ← hsum]
  congr 1
  refine map_congr_left fun r hr => ?_
  have hrx : key r < key x := by simpa using (mem_filter.mp hr).2
  rw [before, before, filter_filter]
  congr 3
  refine filter_congr fun q _ => ?_
  by_cases hq : key q < key r
  · simp [hq.trans hrx]
  · simp [hq]

theorem before_drawn (distinct : (rows.map key).Nodup) (nonneg : ∀ r ∈ rows, 0 ≤ val r)
    (hd : 0 ≤ d) (x : α) :
    before key (fun r => val r - takeAt d (before key val rows r) (val r)) rows x =
      before key val rows x - min d (before key val rows x) := by
  rw [← sum_takeAt_before distinct nonneg hd, before, eq_sub_iff_add_eq, ← sum_map_add]
  simp only [sub_add_cancel]
  rfl

variable (key val) in
theorem before_map {β : Type} (f : β → α) (rows : List β) (x : β) :
    before key val (rows.map f) (f x) = before (key ∘ f) (val ∘ f) rows x := by
  simp [before, filter_map, Function.comp_def]

variable (key) in
/-- A running sum of a window, in terms of the rows before its own. -/
theorem window_cum {γ : Type} [DecidableEq γ] {part : α → γ} {le : α → α → Prop} [DecidableRel le]
    (hle : ∀ a b, le a b ↔ key a ≤ key b) {rows : List α} (distinct : (rows.map key).Nodup)
    {f : Sql.Framed α} (h : f ∈ Sql.window part le val rows) :
    f.row ∈ rows ∧
      f.cum = before key val (rows.filter fun r => part r = part f.row) f.row + val f.row := by
  have : Std.Total le := ⟨fun a b => by simpa only [hle] using le_total (key a) (key b)⟩
  have : IsTrans α le := ⟨fun a b c hab hbc =>
    (hle a c).mpr (((hle a b).mp hab).trans ((hle b c).mp hbc))⟩
  obtain ⟨pre, post, hl, hcum⟩ := Sql.frames_split (Sql.mem_window h)
  have hperm := perm_insertionSort le (rows.filter fun r => part r = part f.row)
  have hmem : f.row ∈ rows.filter fun r => part r = part f.row := hperm.mem_iff.mp (by simp [hl])
  have hne : (rows.filter fun r => part r = part f.row).Pairwise fun a b => key a ≠ key b :=
    (pairwise_map.mp distinct).sublist filter_sublist
  have sorted : (pre ++ f.row :: post).Pairwise fun a b => key a < key b := by
    rw [← hl]
    exact (pairwise_insertionSort le _).imp₂
      (fun a b hab hne => lt_of_le_of_ne ((hle a b).mp hab) hne)
      (hperm.symm.pairwise hne fun {_ _} => Ne.symm)
  refine ⟨mem_of_mem_filter hmem, ?_⟩
  rw [← before_perm hperm, hl, before_split sorted]
  omega

end
end C4Gateway.Draw
