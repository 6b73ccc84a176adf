import C4Gateway.Lib.Upsert

/-! GROUP BY with sums: rows are pairs of a key and a value, a result has one row for every key that
occurs, with the sum of its values.  Results over parts of the rows are merged key by key. -/

namespace C4Gateway.GroupBy

open Prod List

variable {κ M : Type} [DecidableEq κ] [AddCommMonoid M] {rows rows' m : List (κ × M)} {k : κ}

def total (rows : List (κ × M)) (k : κ) : M := ((rows.filter fun r => r.1 = k).map snd).sum

def group (rows : List (κ × M)) : List (κ × M) :=
  (rows.map fst).dedup.map fun k => (k, total rows k)

/-- A group is added to the group of its key, if there is one. -/
def adding : Sql.Upsert (κ × M) κ where
  key := fst
  insert := id
  update := fun y x => (y.1, y.2 + x.2)
  cond := fun _ => true
  key_insert := fun _ => rfl
  key_update := fun _ _ => rfl

def merge (results : List (List (κ × M))) : List (κ × M) := results.foldl adding.all []

/-- `m` is a result of grouping the rows, in some order. -/
structure Groups (m rows : List (κ × M)) : Prop where
  keys : (m.map fst).Nodup
  mem : ∀ e, e ∈ m ↔ e.1 ∈ rows.map fst ∧ e.2 = total rows e.1

theorem total_append (rows rows' : List (κ × M)) (k : κ) :
    total (rows ++ rows') k = total rows k + total rows' k := by
  simp [total]

theorem total_of_notMem (h : k ∉ rows.map fst) : total rows k = 0 := by
  have hnone : rows.filter (fun r => r.1 = k) = [] := by
    rw [filter_eq_nil_iff]
    intro r hr hk
    exact h (mem_map.mpr ⟨r, hr, by simpa using hk⟩)
  rw [total, hnone]
  rfl

theorem total_perm (h : rows.Perm rows') (k : κ) : total rows k = total rows' k :=
  ((h.filter _).map _).sum_eq

theorem total_filter (p : κ → Bool) (hk : p k = true) :
    total (rows.filter fun r => p r.1) k = total rows k := by
  have hsame : (rows.filter fun r => p r.1).filter (fun r => r.1 = k) =
      rows.filter fun r => r.1 = k := by
    rw [filter_filter]
    refine filter_congr fun r _ => ?_
    by_cases hr : r.1 = k
    · simp [hr, hk]
    · simp [hr]
  rw [total, hsame, total]

theorem keys_group (rows : List (κ × M)) :
    (group rows).map fst = (rows.map fst).dedup := by
  simp [group, Function.comp_def]

theorem groups_group (rows : List (κ × M)) : Groups (group rows) rows := by
  constructor
  · rw [keys_group]
    exact nodup_dedup _
  · rintro ⟨k, v⟩
    simp only [group, mem_map, mem_dedup, mk.injEq]
    constructor
    · rintro ⟨k', hk', rfl, rfl⟩
      exact ⟨hk', rfl⟩
    · rintro ⟨hk, hv⟩
      exact ⟨k, hk, rfl, hv.symm⟩

namespace Groups

theorem eq_nil (h : Groups m []) : m = [] := by
  rw [eq_nil_iff_forall_not_mem]
  exact fun e he => absurd ((h.mem e).mp he).1 not_mem_nil

section
variable (h : Groups m rows)
include h

theorem perm {m' : List (κ × M)} (h' : Groups m' rows) : m.Perm m' :=
  (perm_ext_iff_of_nodup (Nodup.of_map _ h.keys) (Nodup.of_map _ h'.keys)).mpr
    fun e => (h.mem e).trans (h'.mem e).symm

theorem congr (hkeys : ∀ k, k ∈ rows.map fst ↔ k ∈ rows'.map fst)
    (htotal : ∀ k, total rows k = total rows' k) : Groups m rows' :=
  ⟨h.keys, fun e => by rw [h.mem, hkeys, htotal]⟩

theorem congr_perm (hrows : rows.Perm rows') : Groups m rows' :=
  h.congr (fun _ => (hrows.map fst).mem_iff) (total_perm hrows)

/-- Results that agree give every key the same value. -/
theorem total_eq {m' : List (κ × M)} (hm : m.Perm m') (h' : Groups m' rows')
    (hk : k ∈ rows.map fst) : total rows k = total rows' k := by
  have hmem : (k, total rows k) ∈ m := (h.mem _).mpr ⟨hk, rfl⟩
  exact ((h'.mem _).mp (hm.mem_iff.mp hmem)).2

/-- Only the rows of some keys. -/
theorem filter (p : κ → Bool) : Groups (m.filter fun e => p e.1) (rows.filter fun r => p r.1) := by
  constructor
  · exact h.keys.sublist (filter_sublist.map _)
  · intro e
    have hkey : e.1 ∈ (rows.filter fun r => p r.1).map fst ↔
        e.1 ∈ rows.map fst ∧ p e.1 = true := by
      simp only [mem_map, mem_filter]
      constructor
      · rintro ⟨r, ⟨hr, hp⟩, heq⟩
        exact ⟨⟨r, hr, heq⟩, heq ▸ hp⟩
      · rintro ⟨⟨r, hr, heq⟩, hp⟩
        exact ⟨r, ⟨hr, heq ▸ hp⟩, heq⟩
    rw [mem_filter, h.mem, hkey]
    constructor
    · rintro ⟨⟨hk, hv⟩, hp⟩
      exact ⟨⟨hk, hp⟩, by rw [hv, total_filter p hp]⟩
    · rintro ⟨⟨hk, hp⟩, hv⟩
      exact ⟨⟨hk, by rw [hv, total_filter p hp]⟩, hp⟩

/-- One more group counts like one more row. -/
theorem add (g : κ × M) : Groups (adding.row m g) (rows ++ [g]) := by
  refine ⟨Sql.Upsert.keys_row adding h.keys, fun e => ?_⟩
  have hkeys : ∀ k, k ∈ m.map fst ↔ k ∈ rows.map fst := by
    intro k
    simp only [mem_map, h.mem]
    constructor
    · rintro ⟨e, ⟨he, -⟩, rfl⟩
      exact he
    · rintro hk
      exact ⟨(k, total rows k), ⟨hk, rfl⟩, rfl⟩
  have hsingle : total [g] e.1 = if g.1 = e.1 then g.2 else 0 := by
    by_cases hg : g.1 = e.1 <;> simp [total, hg]
  rw [total_append, hsingle, map_append, mem_append, map_singleton, mem_singleton]
  simp only [Sql.Upsert.row, adding, Sql.Upsert.conflict, if_true, id]
  split
  · next hg =>
    rw [mem_map]
    constructor
    · rintro ⟨y, hy, rfl⟩
      obtain ⟨hy, hv⟩ := (h.mem y).mp hy
      by_cases hyg : y.1 = g.1
      · rw [if_pos hyg]
        exact ⟨.inl hy, by rw [hv, if_pos hyg.symm]⟩
      · rw [if_neg hyg]
        exact ⟨.inl hy, by rw [hv, if_neg (Ne.symm hyg), add_zero]⟩
    · rintro ⟨hk, hv⟩
      have hk : e.1 ∈ rows.map Prod.fst := hk.elim id fun heq => heq ▸ (hkeys _).mp hg
      refine ⟨(e.1, total rows e.1), (h.mem _).mpr ⟨hk, rfl⟩, Prod.ext ?_ ?_⟩
      · split <;> rfl
      · rw [hv]
        by_cases heg : e.1 = g.1
        · rw [if_pos heg, if_pos heg.symm]
        · rw [if_neg heg, if_neg (Ne.symm heg), add_zero]
  · next hg =>
    rw [hkeys] at hg
    rw [mem_append, mem_singleton, h.mem]
    constructor
    · rintro (⟨hk, hv⟩ | rfl)
      · have hne : g.1 ≠ e.1 := fun heq => hg (heq ▸ hk)
        exact ⟨.inl hk, by rw [hv, if_neg hne, add_zero]⟩
      · exact ⟨.inr rfl, by rw [total_of_notMem hg, if_pos rfl, zero_add]⟩
    · rintro ⟨hk | hk, hv⟩
      · have hne : g.1 ≠ e.1 := fun heq => hg (heq ▸ hk)
        exact .inl ⟨hk, by rw [hv, if_neg hne, add_zero]⟩
      · refine .inr (Prod.ext hk ?_)
        rw [hv, hk, total_of_notMem hg, if_pos rfl, zero_add]

theorem add_all (groups : List (κ × M)) : Groups (adding.all m groups) (rows ++ groups) := by
  unfold Sql.Upsert.all
  induction groups generalizing m rows with
  | nil => simpa using h
  | cons g groups ih => simpa using ih (h.add g)

end
end Groups

theorem total_of_mem (h : (m.map fst).Nodup) {v : M} (hmem : (k, v) ∈ m) : total m k = v := by
  induction m with
  | nil => exact absurd hmem not_mem_nil
  | cons e m ih =>
    rw [map_cons, nodup_cons] at h
    have hcons : total (e :: m) k = (if e.1 = k then e.2 else 0) + total m k := by
      by_cases hk : e.1 = k <;> simp [total, hk]
    rw [hcons]
    rcases mem_cons.mp hmem with rfl | hmem
    · rw [if_pos rfl, total_of_notMem h.1, add_zero]
    · have hne : e.1 ≠ k := fun heq => h.1 (mem_map.mpr ⟨_, hmem, heq.symm⟩)
      rw [if_neg hne, zero_add, ih h.2 hmem]

theorem total_group (rows : List (κ × M)) (k : κ) : total (group rows) k = total rows k := by
  have hgroup := groups_group rows
  by_cases hk : k ∈ rows.map fst
  · exact total_of_mem hgroup.keys ((hgroup.mem _).mpr ⟨hk, rfl⟩)
  · rw [total_of_notMem hk, total_of_notMem (by rwa [keys_group, mem_dedup])]

theorem Groups.add_group (h : Groups m rows) (rows' : List (κ × M)) :
    Groups (adding.all m (group rows')) (rows ++ rows') := by
  refine (h.add_all (group rows')).congr (fun k => ?_) fun k => ?_
  · rw [map_append, map_append, mem_append, mem_append, keys_group, mem_dedup]
  · rw [total_append, total_append, total_group]

/-- Merged results are the result over all rows. -/
theorem groups_merge (parts : List (List (κ × M))) :
    Groups (merge (parts.map group)) parts.flatten := by
  have hstep : ∀ (parts : List (List (κ × M))) {m rows : List (κ × M)}, Groups m rows →
      Groups ((parts.map group).foldl adding.all m) (rows ++ parts.flatten) := by
    intro parts
    induction parts with
    | nil => intro m rows h; simpa using h
    | cons part parts ih =>
      intro m rows h
      simpa using ih (h.add_group part)
  have hempty : Groups ([] : List (κ × M)) [] := ⟨nodup_nil, fun e => by simp⟩
  exact hstep parts hempty

end C4Gateway.GroupBy
