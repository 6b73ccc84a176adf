import C4Gateway.Scheduler.Snapshot

/-! What a load makes of the instances: `buildSnapshots` gives every account it finds the view of
its first row with the groups of all its rows, on the old instance if there is one, and touches no
other instance. -/

namespace C4Gateway

open List

/-- The rows that a load is built from, each with its group. -/
def loadedRows (m : List (Int × List Account)) : List (Int × Account) :=
  m.flatMap fun e => (e.2.filter Account.routable).map (e.1, ·)

def firstRow (rows : List (Int × Account)) (id : Int) : Option (Int × Account) :=
  rows.find? (·.2.id = id)

def gidsOf (rows : List (Int × Account)) (id : Int) : List Int :=
  (rows.filter (·.2.id = id)).map (·.1)

/-- The instance of an account whose first row is `e`. -/
def placedInst (env : SnapshotEnv) (old : Int → Option Nat) (insts : Heap AccountSnapshot)
    (rows : List (Int × Account)) (e : Int × Account) : AccountSnapshot where
  static := { firstStatic env e.2 e.1 with groupIDs := gidsOf rows e.2.id }
  state :=
    match old e.2.id with
    | some a => (insts.get a).state.sync e.2
    | none => .ofRow e.2

/-- Instances that a map has are allocated, and are of the account they are under. -/
def Indexed (byID : Int → Option Nat) (insts : Heap AccountSnapshot) : Prop :=
  ∀ id a, byID id = some a → a < insts.next ∧ (insts.get a).id = id

@[simp] theorem firstStatic_fields (env : SnapshotEnv) (a : Account) (gid : Int) :
    (firstStatic env a gid).acc.id = a.id ∧ (firstStatic env a gid).groupIDs = [gid] := by
  have heffective : (effectiveStatic env a gid).acc.id = a.id ∧
      (effectiveStatic env a gid).groupIDs = [gid] := by
    simp only [effectiveStatic]
    split <;> try exact ⟨rfl, rfl⟩
    split <;> exact ⟨rfl, rfl⟩
  simp only [firstStatic]
  split <;> exact heffective

variable {rows : List (Int × Account)} {row : Account}

section
variable {e : Int × Account} {id gid : Int}

theorem id_of_firstRow (h : firstRow rows id = some e) : e.2.id = id := by
  simpa using find?_some h

theorem firstRow_eq_none : firstRow rows id = none ↔ ∀ e ∈ rows, e.2.id ≠ id := by
  simp [firstRow]

theorem mem_gidsOf : gid ∈ gidsOf rows id ↔ ∃ row, (gid, row) ∈ rows ∧ row.id = id := by
  simp [gidsOf]

theorem firstRow_append_of_some (h : firstRow rows id = some e) (e' : Int × Account) :
    firstRow (rows ++ [e']) id = some e := by
  rw [firstRow] at h ⊢
  rw [find?_append, h, Option.some_or]

theorem firstRow_append_of_none (h : firstRow rows id = none) (e' : Int × Account) :
    firstRow (rows ++ [e']) id = if e'.2.id = id then some e' else none := by
  rw [firstRow] at h ⊢
  rw [find?_append, h]
  simp

theorem gidsOf_append (e' : Int × Account) :
    gidsOf (rows ++ [e']) id = gidsOf rows id ++ if e'.2.id = id then [e'.1] else [] := by
  by_cases h : e'.2.id = id <;> simp [gidsOf, h]

theorem gidsOf_eq_nil : gidsOf rows id = [] ↔ firstRow rows id = none := by
  simp [gidsOf, firstRow_eq_none]

end

/-- What holds after the rows have been placed. -/
structure Placed (env : SnapshotEnv) (old : Int → Option Nat) (insts : Heap AccountSnapshot)
    (rows : List (Int × Account)) (p : Placing) : Prop where
  listed : ∀ id, p.byID id = none ↔ firstRow rows id = none
  inst : ∀ id a e, p.byID id = some a → firstRow rows id = some e →
    p.insts.get a = placedInst env old insts rows e
  bound : ∀ id a, p.byID id = some a → a < p.insts.next
  reused : ∀ id a o, p.byID id = some a → old id = some o → a = o
  fresh : ∀ id a, p.byID id = some a → old id = none → insts.next ≤ a
  frame : Heap.Frame (fun a => ∃ id, p.byID id = some a) insts p.insts

variable {env : SnapshotEnv} {p : Placing}

namespace Placed

variable {old : Int → Option Nat} {insts : Heap AccountSnapshot}
theorem start : Placed env old insts [] { insts } where
  listed := fun _ => ⟨fun _ => rfl, fun _ => rfl⟩
  inst _ _ _ ha := absurd ha (by simp)
  bound _ _ ha := absurd ha (by simp)
  reused _ _ _ ha := absurd ha (by simp)
  fresh _ _ ha := absurd ha (by simp)
  frame := .refl _ _

variable {gid id : Int} {a addr : Nat}

section
variable (h : Placed env old insts rows p)
include h

theorem exists_first (ha : p.byID id = some a) : ∃ e, firstRow rows id = some e := by
  cases he : firstRow rows id with
  | none => exact absurd (ha.symm.trans ((h.listed id).mpr he)) (by simp)
  | some e => exact ⟨e, rfl⟩

theorem id_eq (ha : p.byID id = some a) : (p.insts.get a).id = id := by
  obtain ⟨e, he⟩ := h.exists_first ha
  rw [h.inst id a e ha he]
  simpa [AccountSnapshot.id, placedInst] using id_of_firstRow he

theorem old_of_byID (hlt : a < insts.next) (ha : p.byID id = some a) : old id = some a := by
  cases ho : old id with
  | none => exact absurd hlt (Nat.not_lt.mpr (h.fresh id a ha ho))
  | some o => rw [h.reused id a o ha ho]

theorem byID_inj {id' : Int} (ha : p.byID id = some a) (ha' : p.byID id' = some a) : id = id' :=
  (h.id_eq ha).symm.trans (h.id_eq ha')

end

theorem placedInst_append (e' : Int × Account) {e : Int × Account} :
    placedInst env old insts (rows ++ [e']) e =
      (placedInst env old insts rows e).withGroupIDs
        (gidsOf rows e.2.id ++ if e'.2.id = e.2.id then [e'.1] else []) := by
  simp [placedInst, AccountSnapshot.withGroupIDs, gidsOf_append]

theorem placedInst_append_of_ne {e' e : Int × Account} (hne : e'.2.id ≠ e.2.id) :
    placedInst env old insts (rows ++ [e']) e = placedInst env old insts rows e := by
  simp [placedInst, gidsOf_append, hne]

theorem placedInst_of_new (hnew : firstRow rows row.id = none) :
    placedInst env old insts (rows ++ [(gid, row)]) (gid, row) =
      { static := firstStatic env row gid
        state := (placedInst env old insts rows (gid, row)).state } := by
  have hgids : gidsOf (rows ++ [(gid, row)]) row.id = (firstStatic env row gid).groupIDs := by
    simp [gidsOf_append, gidsOf_eq_nil.mpr hnew]
  simp only [placedInst, hgids]

section
variable (h : Placed env old insts rows p)
include h

/-- A further row of an account adds its group. -/
theorem place_again (haddr : p.byID row.id = some addr) (accounts : List Nat) :
    Placed env old insts (rows ++ [(gid, row)])
      { p with
        insts := p.insts.modify addr fun inst =>
          inst.withGroupIDs (inst.static.groupIDs ++ [gid])
        accounts } where
  listed id := by
    refine (h.listed id).trans ?_
    cases he : firstRow rows id with
    | some e => simp [firstRow_append_of_some he]
    | none =>
      have hne : row.id ≠ id := by
        rintro rfl
        exact absurd (haddr.symm.trans ((h.listed row.id).mpr he)) (by simp)
      simp [firstRow_append_of_none he, hne]
  inst id a e ha he := by
    replace ha : p.byID id = some a := ha
    obtain ⟨e₀, he₀⟩ := h.exists_first ha
    obtain rfl := Option.some.inj ((firstRow_append_of_some he₀ _).symm.trans he)
    have hid := id_of_firstRow he₀
    have hbefore := h.inst id a e₀ ha he₀
    by_cases heq : id = row.id
    · subst heq
      obtain rfl := Option.some.inj (ha.symm.trans haddr)
      rw [placedInst_append, if_pos hid.symm, Heap.get_modify_self, hbefore]
      rfl
    · have hne : a ≠ addr := fun hsame => heq (h.byID_inj (hsame ▸ ha) haddr)
      rw [Heap.get_modify_of_ne _ hne, hbefore, placedInst_append_of_ne]
      rw [hid]
      exact fun hsame => heq hsame.symm
  bound := h.bound
  reused := h.reused
  fresh := h.fresh
  frame := by
    dsimp only
    exact h.frame.trans (.modify _ (.inr ⟨row.id, haddr⟩))

/-- The first row of an account gives it the instance at `addr`, which no other account has. -/
theorem place_first (hnone : p.byID row.id = none) (hfree : ∀ id, p.byID id ≠ some addr)
    (hreused : ∀ o, old row.id = some o → addr = o)
    (hfresh : old row.id = none → insts.next ≤ addr) {insts' : Heap AccountSnapshot}
    (hnext : p.insts.next ≤ insts'.next) (hbound : addr < insts'.next)
    (hother : ∀ a < p.insts.next, a ≠ addr → insts'.get a = p.insts.get a)
    (hself : insts'.get addr = placedInst env old insts (rows ++ [(gid, row)]) (gid, row))
    (accounts : List Nat) :
    Placed env old insts (rows ++ [(gid, row)])
      { insts := insts', byID := Function.update p.byID row.id (some addr), accounts } := by
  have hnew : firstRow rows row.id = none := (h.listed row.id).mp hnone
  have hcases : ∀ {id a}, Function.update p.byID row.id (some addr) id = some a →
      id = row.id ∧ addr = a ∨ id ≠ row.id ∧ p.byID id = some a := by
    intro id a ha
    by_cases heq : id = row.id
    · subst heq
      exact .inl ⟨rfl, by simpa using ha⟩
    · exact .inr ⟨heq, by simpa [heq] using ha⟩
  refine ⟨fun id => ?_, fun id a e ha he => ?_, fun id a ha => ?_, fun id a o ha ho => ?_,
    fun id a ha ho => ?_, ?_⟩
  · by_cases heq : id = row.id
    · subst heq
      simp [firstRow_append_of_none hnew]
    · refine (Eq.congr_left (Function.update_of_ne heq _ _)).trans ((h.listed id).trans ?_)
      cases he : firstRow rows id with
      | some e => simp [firstRow_append_of_some he]
      | none => simp [firstRow_append_of_none he, Ne.symm heq]
  · rcases hcases ha with ⟨rfl, rfl⟩ | ⟨heq, ha⟩
    · obtain rfl : (gid, row) = e := by simpa [firstRow_append_of_none hnew] using he
      exact hself
    · obtain ⟨e₀, he₀⟩ := h.exists_first ha
      obtain rfl := Option.some.inj ((firstRow_append_of_some he₀ _).symm.trans he)
      have hne : a ≠ addr := fun hsame => hfree id (hsame ▸ ha)
      rw [hother a (h.bound id a ha) hne, h.inst id a e₀ ha he₀, placedInst_append_of_ne]
      rw [id_of_firstRow he₀]
      exact fun hsame => heq hsame.symm
  · rcases hcases ha with ⟨rfl, rfl⟩ | ⟨-, ha⟩
    · exact hbound
    · exact Nat.lt_of_lt_of_le (h.bound id a ha) hnext
  · rcases hcases ha with ⟨rfl, rfl⟩ | ⟨-, ha⟩
    · exact hreused o ho
    · exact h.reused id a o ha ho
  · rcases hcases ha with ⟨rfl, rfl⟩ | ⟨-, ha⟩
    · exact hfresh ho
    · exact h.fresh id a ha ho
  · refine ⟨Nat.le_trans h.frame.le hnext, fun a ha hA => ?_⟩
    have hne : a ≠ addr := by
      rintro rfl
      exact hA ⟨row.id, by simp⟩
    rw [hother a (Nat.lt_of_lt_of_le ha h.frame.le) hne]
    refine h.frame.get a ha ?_
    rintro ⟨id, hid⟩
    by_cases heq : id = row.id
    · subst heq
      exact absurd (hnone.symm.trans hid) (by simp)
    · exact hA ⟨id, by simpa [heq] using hid⟩

theorem place (hold : Indexed old insts) (gid : Int) (row : Account) :
    Placed env old insts (rows ++ [(gid, row)]) (p.place env old gid row) := by
  simp only [Placing.place]
  split
  next addr haddr => exact h.place_again haddr _
  next hnone =>
    have hnew : firstRow rows row.id = none := (h.listed row.id).mp hnone
    split
    next addr haddr =>
      obtain ⟨hlt, hid⟩ := hold row.id addr haddr
      -- No other account has the old instance: it would be its old instance too, or a new one.
      have hfree : ∀ id, p.byID id ≠ some addr := by
        intro id hbyID
        have hsame : id = row.id := (hold id addr (h.old_of_byID hlt hbyID)).2.symm.trans hid
        exact absurd (hnone.symm.trans (hsame ▸ hbyID)) (by simp)
      have hget : p.insts.get addr = insts.get addr :=
        h.frame.get addr hlt fun ⟨id, hbyID⟩ => hfree id hbyID
      refine h.place_first hnone hfree (fun o ho => Option.some.inj (haddr.symm.trans ho))
        (fun ho => absurd (haddr.symm.trans ho) (by simp)) ?_ ?_ ?_ ?_ _
      · exact Nat.le_refl _
      · exact Nat.lt_of_lt_of_le hlt h.frame.le
      · exact fun a _ hne => Heap.get_modify_of_ne _ hne
      · rw [Heap.get_modify_self, hget, placedInst_of_new hnew]
        simp [placedInst, haddr]
    next hnone' =>
      refine h.place_first hnone (fun id hbyID => ?_) (fun o ho => ?_) (fun _ => h.frame.le)
        (Nat.le_succ _) (Nat.lt_succ_self _) (fun a ha _ => Heap.get_alloc_of_lt _ ha) ?_ _
      · exact absurd (h.bound id _ hbyID) (Nat.lt_irrefl _)
      · exact absurd (hnone'.symm.trans ho) (by simp)
      · rw [placedInst_of_new hnew]
        simp [placedInst, hnone']

/-- The old instance of an account has the view of its first row, if it has one. -/
theorem get_of_old (hold : Indexed old insts)
    (ha : old id = some a) : p.insts.get a = match firstRow rows id with
      | some e => placedInst env old insts rows e
      | none => insts.get a := by
  obtain ⟨hlt, hid⟩ := hold id a ha
  cases he : firstRow rows id with
  | some e =>
    cases hbyID : p.byID id with
    | none => exact absurd ((h.listed id).mp hbyID) (by simp [he])
    | some a' =>
      obtain rfl := h.reused id a' a hbyID ha
      exact h.inst id a' e hbyID he
  | none =>
    refine h.frame.get a hlt ?_
    rintro ⟨id', hbyID⟩
    obtain rfl : id' = id := (hold id' a (h.old_of_byID hlt hbyID)).2.symm.trans hid
    exact absurd (hbyID.symm.trans ((h.listed id').mpr he)) (by simp)

theorem id_of_old (hold : Indexed old insts) (ha : old id = some a) : (p.insts.get a).id = id := by
  rw [h.get_of_old hold ha]
  split
  next e he => simpa [AccountSnapshot.id, placedInst] using id_of_firstRow he
  · exact (hold id a ha).2

theorem groupIDs_of_old (hold : Indexed old insts)
    (ha : old id = some a) : (p.insts.get a).static.groupIDs =
      if gidsOf rows id = [] then (insts.get a).static.groupIDs else gidsOf rows id := by
  rw [h.get_of_old hold ha]
  split
  next e he =>
    rw [if_neg (by simp [gidsOf_eq_nil, he]), ← id_of_firstRow he]
    rfl
  next he => rw [if_pos (gidsOf_eq_nil.mpr he)]

theorem get_of_notOld (hlt : a < insts.next) (hnot : ∀ id, old id ≠ some a) :
    p.insts.get a = insts.get a :=
  h.frame.get a hlt fun ⟨id, hbyID⟩ => hnot id (h.old_of_byID hlt hbyID)

/-- The list of the group's accounts is not part of what is placed. -/
theorem withAccounts (accounts : List Nat) : Placed env old insts rows { p with accounts } :=
  { h with }

end
end Placed

variable {a : Nat}

namespace Placing

variable (env : SnapshotEnv) (old : Int → Option Nat) (gid : Int) {id : Int}

theorem byID_place_of_some (h : p.byID id = some a) (row : Account) :
    (p.place env old gid row).byID id = some a := by
  simp only [place]
  split
  · exact h
  next hnone =>
    have hne : id ≠ row.id := by
      rintro rfl
      exact absurd (hnone.symm.trans h) (by simp)
    split <;> simpa [hne] using h

theorem accounts_place (p : Placing) (row : Account) :
    ∃ a, (p.place env old gid row).byID row.id = some a ∧
    (p.place env old gid row).accounts = p.accounts ++ [a] := by
  simp only [place]
  split
  next addr haddr => exact ⟨addr, haddr, rfl⟩
  · split <;> exact ⟨_, by simp, rfl⟩

theorem byID_places_of_some (h : p.byID id = some a) (rows : List Account) :
    (rows.foldl (place env old gid) p).byID id = some a := by
  induction rows generalizing p with
  | nil => exact h
  | cons row rows ih => exact ih (byID_place_of_some env old gid h row)

/-- The group lists the instances of its rows. -/
theorem mem_accounts_places (rows : List Account) :
    a ∈ (rows.foldl (place env old gid) p).accounts ↔ a ∈ p.accounts ∨
      ∃ row ∈ rows, (rows.foldl (place env old gid) p).byID row.id = some a := by
  induction rows generalizing p with
  | nil => simp
  | cons row rows ih =>
    obtain ⟨a', ha', haccounts⟩ := accounts_place env old gid p row
    have hlast := byID_places_of_some env old gid ha' rows
    simp only [foldl_cons, ih, haccounts, mem_append, mem_cons, not_mem_nil, false_or,
      exists_eq_or_imp, hlast, Option.some.injEq, or_assoc, eq_comm (a := a')]

end Placing

theorem Placed.places {env : SnapshotEnv} {old : Int → Option Nat} {insts : Heap AccountSnapshot}
    {rows : List (Int × Account)} {p : Placing} (h : Placed env old insts rows p)
    (hold : Indexed old insts) (gid : Int) (more : List Account) :
    Placed env old insts (rows ++ more.map (gid, ·))
      (more.foldl (Placing.place env old gid) p) := by
  induction more generalizing rows p with
  | nil => simpa using h
  | cons row more ih =>
    have hnext := ih (h.place hold gid row)
    simpa using hnext

/-- The accounts that a route offers. -/
def Route.members (r : Route) : List Nat := r.tier1.getD [] ++ r.tier2.getD []

variable {view : Nat → SnapshotStatic}

theorem mem_of_mem_newWeightedSeq {pool : List (Nat × Int)} (h : a ∈ newWeightedSeq pool) :
    a ∈ pool.map (·.1) := by
  simp only [newWeightedSeq, mem_flatMap, mem_map, mem_filter] at h
  obtain ⟨_, ⟨p, ⟨hp, -⟩, rfl⟩, ha⟩ := h
  obtain rfl := eq_of_mem_replicate ha
  exact mem_map_of_mem hp

theorem mem_of_mem_weightedTier {pool : List Nat} (h : a ∈ (weightedTier view pool).getD []) :
    a ∈ pool := by
  simp only [weightedTier] at h
  split at h
  · simp at h
  · simpa using mem_of_mem_newWeightedSeq h

/-- The routes of a group lead to its own accounts. -/
def GroupSnapshot.Routed (gs : GroupSnapshot) : Prop :=
  ∀ e ∈ gs.routes, ∀ a ∈ e.2.members, a ∈ gs.accounts

theorem mem_of_mem_buildRoutes {accs : List Nat} {e : RouteKey × Route}
    (he : e ∈ buildRoutes view accs) (ha : a ∈ e.2.members) : a ∈ accs := by
  have htier : ∀ p : Template → Bool, ∀ a ∈ (weightedTier view
      (accs.filter fun a => (view a).tpl.any p)).getD [], a ∈ accs := fun p a ha =>
    (mem_filter.mp (mem_of_mem_weightedTier ha)).1
  simp only [buildRoutes, mem_append, mem_filterMap, mem_flatMap] at he
  rcases he with ⟨format, -, he⟩ | ⟨model, -, format, -, he⟩
  · split_ifs at he
    obtain rfl := Option.some.inj he
    simp only [Route.members, Option.getD_none, nil_append] at ha
    exact htier _ a ha
  · split_ifs at he
    obtain rfl := Option.some.inj he
    rcases mem_append.mp ha with ha | ha
    · exact htier _ a ha
    · exact htier _ a ha

theorem Scheduler.routed_route (env : SnapshotEnv) (s : Scheduler) (gs : GroupSnapshot)
    (accounts : List Nat) : (s.route env gs accounts).Routed :=
  fun _ he _ ha => mem_of_mem_buildRoutes he ha

namespace Scheduler

/-- The object at `o` is new, and lists the instances of the rows. -/
structure NewGroup (s : Scheduler) (b : Rebuild) (rows : List Account) (o : Nat) : Prop where
  fresh : s.objs.next ≤ o
  bound : o < b.s.objs.next
  mem_iff : ∀ a, a ∈ (b.s.objs.get o).accounts ↔
    ∃ row ∈ rows, row.routable ∧ b.byID row.id = some a
  routed : (b.s.objs.get o).Routed

/-- What `buildSnapshots` has made of the groups `m`. -/
structure Built (env : SnapshotEnv) (s : Scheduler) (m : List (Int × List Account)) (b : Rebuild) :
    Prop where
  placed : Placed env s.byID s.insts (loadedRows m) { insts := b.s.insts, byID := b.byID }
  group : ∀ gid rows, (gid, rows) ∈ m → ∃ o, b.groups gid = some o ∧ s.NewGroup b rows o
  listed : ∀ gid o, b.groups gid = some o → ∃ rows, (gid, rows) ∈ m
  objs : Heap.Frame (fun _ => False) s.objs b.s.objs
  writes : ∀ w ∈ b.s.writes, w ∈ s.writes ∨ s.objs.next ≤ w.1
  same : b.s = { s with insts := b.s.insts, objs := b.s.objs, writes := b.s.writes }

variable {s : Scheduler} {m : List (Int × List Account)} {b : Rebuild}

theorem built_start : Built env s [] { s } where
  placed := .start
  group _ _ h := absurd h not_mem_nil
  listed _ _ h := absurd h (by simp)
  objs := .refl _ _
  writes _ h := .inl h
  same := rfl

variable {gid : Int}

theorem mem_loadedRows :
    (gid, row) ∈ loadedRows m ↔ ∃ rows, (gid, rows) ∈ m ∧ row ∈ rows ∧ row.routable := by
  simp [loadedRows]

/-- A group that the map has is one of those loaded, with the object that was made for it. -/
theorem Built.newGroup_of_some (h : Built env s m b) {o : Nat} (ho : b.groups gid = some o) :
    ∃ rows, (gid, rows) ∈ m ∧ s.NewGroup b rows o := by
  obtain ⟨rows, hrows⟩ := h.listed gid o ho
  obtain ⟨o', ho', hnew⟩ := h.group gid rows hrows
  obtain rfl := Option.some.inj (ho.symm.trans ho')
  exact ⟨rows, hrows, hnew⟩

theorem Built.byID_isSome (h : Built env s m b) {rows : List Account} (hm : (gid, rows) ∈ m)
    (hrow : row ∈ rows) (hroutable : row.routable) : ∃ a, b.byID row.id = some a := by
  refine Option.ne_none_iff_exists'.mp fun hnone => ?_
  have hfirst := (h.placed.listed row.id).mp hnone
  exact firstRow_eq_none.mp hfirst _ (mem_loadedRows.mpr ⟨rows, hm, hrow, hroutable⟩) rfl

theorem Built.buildGroup (h : Built env s m b) (hold : Indexed s.byID s.insts)
    (hgid : gid ∉ m.map (·.1)) (rows : List Account) :
    Built env s (m ++ [(gid, rows)]) (buildGroup env s.byID b gid rows) := by
  have hplaced := h.placed.places hold gid (rows.filter Account.routable)
  have hmono : ∀ id a, b.byID id = some a →
      (Scheduler.buildGroup env s.byID b gid rows).byID id = some a :=
    fun id a ha => Placing.byID_places_of_some env s.byID gid
      (p := { insts := b.s.insts, byID := b.byID }) ha _
  refine ⟨?_, ?_, ?_, ?_, ?_, ?_⟩
  · have hrows : loadedRows (m ++ [(gid, rows)]) =
        loadedRows m ++ (rows.filter Account.routable).map (gid, ·) := by simp [loadedRows]
    rw [hrows]
    exact hplaced.withAccounts []
  · intro gid' rows' hentry
    rcases mem_append.mp hentry with hmem | hmem
    · -- An earlier group keeps its object, and its rows their instances.
      obtain ⟨o, ho, hnew⟩ := h.group gid' rows' hmem
      have hne : gid' ≠ gid := by
        rintro rfl
        exact hgid (mem_map_of_mem hmem)
      have hget : (Scheduler.buildGroup env s.byID b gid rows).s.objs.get o = b.s.objs.get o :=
        Heap.get_alloc_of_lt _ hnew.bound
      refine ⟨o, by simpa [Scheduler.buildGroup, hne] using ho, hnew.fresh,
        Nat.lt_succ_of_lt hnew.bound, fun a => ?_, hget ▸ hnew.routed⟩
      rw [hget, hnew.mem_iff a]
      refine exists_congr fun row => and_congr_right fun hrow => and_congr_right fun hroutable => ?_
      obtain ⟨a', ha'⟩ := h.byID_isSome hmem hrow hroutable
      rw [ha', hmono row.id a' ha']
    · obtain ⟨rfl, rfl⟩ : gid' = gid ∧ rows' = rows := by simpa using hmem
      refine ⟨b.s.objs.next, by simp [Scheduler.buildGroup], h.objs.le, Nat.lt_succ_self _,
        fun a => ?_, ?_⟩
      · have hmem := Placing.mem_accounts_places env s.byID gid'
          (p := { insts := b.s.insts, byID := b.byID }) (a := a) (rows'.filter Account.routable)
        simp only [not_mem_nil, false_or, mem_filter, and_assoc] at hmem
        simpa only [Scheduler.buildGroup, newGroup, Heap.get_alloc_self, route] using hmem
      · simp only [Scheduler.buildGroup, newGroup, Heap.get_alloc_self]
        exact routed_route _ _ _ _
  · intro gid' o ho
    by_cases heq : gid' = gid
    · exact ⟨rows, by simp [heq]⟩
    · obtain ⟨rows', hrows'⟩ := h.listed gid' o (by simpa [Scheduler.buildGroup, heq] using ho)
      exact ⟨rows', mem_append_left _ hrows'⟩
  · exact h.objs.trans (Heap.Frame.alloc _)
  · intro w hw
    rcases mem_append.mp hw with hw | hw
    · exact h.writes w hw
    · obtain rfl := mem_singleton.mp hw
      exact .inr h.objs.le
  · rw [Scheduler.buildGroup, newGroup, h.same]

theorem built_buildSnapshots (env : SnapshotEnv) (hold : Indexed s.byID s.insts)
    (hm : (m.map (·.1)).Nodup) : Built env s m (buildSnapshots env s.byID { s } m) := by
  induction m using List.reverseRecOn with
  | nil => exact built_start
  | append_singleton m e ih =>
    rw [map_append, nodup_append] at hm
    rw [buildSnapshots, foldl_append]
    refine (ih hm.1).buildGroup hold (fun hmem => ?_) e.2
    exact hm.2.2 e.1 hmem e.1 (by simp) rfl

end Scheduler
end C4Gateway
