import C4Gateway.Scheduler.Pools
import C4Gateway.Lib.Update

/-! What a targeted reload makes of the instances and of the map of accounts, and what it leaves to
the published groups: it makes copies of the groups it changes, and publishes all its maps at its
end. -/

namespace C4Gateway

open List

namespace AccountSnapshot

variable (inst : AccountSnapshot)

@[simp] theorem id_withGroupIDs (gids : List Int) : (inst.withGroupIDs gids).id = inst.id := rfl

@[simp] theorem withGroupIDs_withGroupIDs (gids gids' : List Int) :
    (inst.withGroupIDs gids).withGroupIDs gids' = inst.withGroupIDs gids' := rfl

end AccountSnapshot

variable {env : SnapshotEnv}

namespace Scheduler

section
variable (v : Int → List Int) (h : Heap AccountSnapshot) (accs : List Nat)

@[simp] theorem next_regroup : (regroup v h accs).next = h.next := by
  induction accs generalizing h with
  | nil => rfl
  | cons a accs ih => exact ih _

theorem get_regroup (x : Nat) : (regroup v h accs).get x =
    if x ∈ accs then (h.get x).withGroupIDs (v (h.get x).id) else h.get x := by
  induction accs generalizing h with
  | nil => simp [regroup]
  | cons a accs ih =>
    have hcons : (regroup v h (a :: accs)).get x =
        (regroup v (h.modify a fun inst => inst.withGroupIDs (v inst.id)) accs).get x := rfl
    rw [hcons, ih]
    by_cases hx : x = a
    · subst hx
      simp
    · simp [Heap.get_modify_of_ne _ hx, hx]

@[simp] theorem id_regroup (x : Nat) : ((regroup v h accs).get x).id = (h.get x).id := by
  rw [get_regroup]
  split <;> simp

end

section
variable (s : Scheduler) (gid : Int) (insts : Heap AccountSnapshot) (newAccs : List Nat)

theorem droppedAccounts_congr {insts' : Heap AccountSnapshot}
    (h : ∀ a, (insts'.get a).id = (insts.get a).id) :
    s.droppedAccounts gid insts' newAccs = s.droppedAccounts gid insts newAccs := by
  simp [droppedAccounts, h]

@[simp] theorem next_regroupedInsts : (s.regroupedInsts gid insts newAccs).next = insts.next := by
  simp [regroupedInsts]

@[simp] theorem id_regroupedInsts (x : Nat) :
    ((s.regroupedInsts gid insts newAccs).get x).id = (insts.get x).id := by
  simp [regroupedInsts]

/-- The groups that `InvalidateGroup` gives an account of the reloaded group. -/
def joinedGids (id : Int) : List Int :=
  gid :: if (s.byID id).isSome then s.otherGids gid id else []

/-- The three passes over the instances amount to one: the last pass has the accounts of the group,
and the one before it those that are not in the group any more. -/
theorem get_regroupedInsts (x : Nat) : (s.regroupedInsts gid insts newAccs).get x =
    if x ∈ newAccs then (insts.get x).withGroupIDs (s.joinedGids gid (insts.get x).id)
    else if x ∈ s.droppedAccounts gid insts newAccs then
      (insts.get x).withGroupIDs (s.otherGids gid (insts.get x).id)
    else insts.get x := by
  have hdropped := s.droppedAccounts_congr gid insts newAccs
    (id_regroup (fun id => uniqueGroupIDs (gid :: s.groupIDs id)) insts newAccs)
  simp only [regroupedInsts, hdropped, get_regroup, joinedGids]
  by_cases hnew : x ∈ newAccs
  · by_cases hold : x ∈ s.droppedAccounts gid insts newAccs <;> simp [hnew, hold]
  · simp [hnew]

/-- The map has the accounts of the group, and of the others those that keep a group. -/
theorem regroupedByID_of_mem {a : Nat} (ha : a ∈ newAccs)
    (hinj : ∀ a' ∈ newAccs, (insts.get a').id = (insts.get a).id → a' = a) :
    s.regroupedByID gid insts newAccs (insts.get a).id = some a :=
  Update.foldl_insert_of_mem (f := fun a => (insts.get a).id) _ ha fun a' ha' heq =>
    congrArg some (hinj a' ha' heq)

theorem regroupedByID_of_notMem {id : Int} (hid : ∀ a ∈ newAccs, (insts.get a).id ≠ id) :
    s.regroupedByID gid insts newAccs id =
      if s.otherGids gid id = [] ∧ ∃ a ∈ s.droppedAccounts gid insts newAccs,
        (insts.get a).id = id then none else s.byID id :=
  (Update.foldl_insert_of_notMem _ hid).trans
    (Update.foldl_remove (fun a => (insts.get a).id) (fun id => s.otherGids gid id = []) _ _ _)

end

/-- The scheduler as it would be if the rebuild published its maps now. -/
def Rebuild.published (b : Rebuild) : Scheduler := { b.s with groups := b.groups, byID := b.byID }

open Rebuild (published)

/-- The instances, the map of accounts and the accounts of every group are the same. -/
structure Agrees (s t : Scheduler) : Prop where
  insts : t.insts = s.insts
  byID : t.byID = s.byID
  accounts : ∀ k, t.accountsOf k = s.accountsOf k

theorem Agrees.trans {s t u : Scheduler} (h : s.Agrees t) (h' : t.Agrees u) : s.Agrees u where
  insts := h'.insts.trans h.insts
  byID := h'.byID.trans h.byID
  accounts k := (h'.accounts k).trans (h.accounts k)

/-- The map of groups leads to objects, whose routes lead to their accounts. -/
def Bounded (s : Scheduler) : Prop :=
  ∀ k o, s.groups k = some o → o < s.objs.next ∧ (s.objs.get o).Routed

variable {s t : Scheduler} {b : Rebuild} {a : Nat} {k : Int} (env : SnapshotEnv)
  (newAccs : List Nat)

theorem mem_accountsOf :
    a ∈ s.accountsOf k ↔ ∃ o, s.groups k = some o ∧ a ∈ (s.objs.get o).accounts := by
  cases h : s.groups k <;> simp [accountsOf, h]

theorem accountsOf_of_some {o : Nat} (h : s.groups k = some o) :
    s.accountsOf k = (s.objs.get o).accounts := by
  simp [accountsOf, h]

theorem accountsOf_of_none (h : s.groups k = none) : s.accountsOf k = [] := by
  simp [accountsOf, h]

/-- Loading the pools leaves the accounts to the rebuild. -/
theorem publish_agrees (hb : b.published.Bounded) (configs : List (Int × GroupConfig)) :
    b.published.Agrees (publish env b (some configs)) ∧ (publish env b (some configs)).Bounded := by
  have h := configured_buildUpstreamSnapshots env b.s.upstreams
    (Configured.refl b.s b.groups []) configs
  refine ⟨⟨h.insts, rfl, fun k => ?_⟩, fun k o hk => ?_⟩
  · cases hk : b.groups k with
    | some o =>
      rw [accountsOf_of_some (h.kept k o hk), accountsOf_of_some hk]
      exact h.accounts o (hb k o hk).1
    | none =>
      rw [accountsOf_of_none (s := b.published) hk]
      cases hk' : (publish env b (some configs)).groups k with
      | none => exact accountsOf_of_none hk'
      | some o =>
        rw [accountsOf_of_some hk']
        exact (h.added k o hk' hk).2.1
  · cases hk' : b.groups k with
    | some o' =>
      obtain rfl := Option.some.inj ((h.kept k o' hk').symm.trans hk)
      obtain ⟨hlt, hrouted⟩ := hb k o' hk'
      refine ⟨Nat.lt_of_lt_of_le hlt h.le, fun e he a ha => ?_⟩
      have haccounts := h.accounts o' hlt
      have hroutes := h.routes o' hlt
      simp only [publish] at he ⊢
      rw [hroutes] at he
      rw [haccounts]
      exact hrouted e he a ha
    | none =>
      obtain ⟨hlt, -, hroutes⟩ := h.added k o hk hk'
      refine ⟨hlt, fun e he => ?_⟩
      simp only [publish] at he
      simp [hroutes] at he

theorem of_lastIndex {p : Nat → Bool} {l : List Nat} {i : Nat} (h : lastIndex p l = some i) :
    ∃ hi : i < l.length, p l[i] := by
  obtain ⟨j, hj, rfl⟩ := Option.map_eq_some_iff.mp h
  obtain ⟨hlt, hp, -⟩ := findIdx?_eq_some_iff_getElem.mp hj
  rw [length_reverse] at hlt
  refine ⟨by omega, ?_⟩
  rwa [getElem_reverse] at hp

/-- Instances that are reused are in their places already. -/
theorem replaceAccounts_eq_self {accounts newAccs : List Nat}
    (h : ∀ a ∈ accounts, ∀ ns ∈ newAccs, s.idOf a = s.idOf ns → a = ns) :
    s.replaceAccounts accounts newAccs = accounts := by
  have hstep : ∀ ns ∈ newAccs, s.replaceAccount accounts accounts ns = accounts := by
    intro ns hns
    simp only [replaceAccount]
    split
    next i hi =>
      obtain ⟨hlt, hid⟩ := of_lastIndex hi
      rw [← h _ (getElem_mem hlt) ns hns (by simpa using hid), set_getElem_self]
    · rfl
  rw [replaceAccounts]
  clear h
  induction newAccs with
  | nil => rfl
  | cons ns newAccs ih =>
    rw [foldl_cons, hstep ns mem_cons_self]
    exact ih fun ns' hns' => hstep ns' (mem_cons_of_mem _ hns')

theorem mem_of_mem_replaceAccounts {accounts newAccs : List Nat}
    (ha : a ∈ s.replaceAccounts accounts newAccs) : a ∈ accounts ∨ a ∈ newAccs := by
  suffices ∀ repl, a ∈ newAccs.foldl (s.replaceAccount accounts) repl → a ∈ repl ∨ a ∈ newAccs from
    this accounts ha
  clear ha
  intro repl ha
  induction newAccs generalizing repl with
  | nil => exact .inl ha
  | cons ns newAccs ih =>
    rcases ih _ ha with ha | ha
    · simp only [replaceAccount] at ha
      split at ha
      · rcases mem_or_eq_of_mem_set ha with ha | rfl
        · exact .inl ha
        · exact .inr mem_cons_self
      · exact .inl ha
    · exact .inr (mem_cons_of_mem _ ha)

/-- Within the groups, the accounts of `newAccs` have no other instances. -/
def Reuses (s : Scheduler) (newAccs : List Nat) : Prop :=
  ∀ k, ∀ a ∈ s.accountsOf k, ∀ ns ∈ newAccs, s.idOf a = s.idOf ns → a = ns

theorem Reuses.of_agrees {newAccs : List Nat} (h : s.Reuses newAccs) (hst : s.Agrees t) :
    t.Reuses newAccs := by
  intro k a ha ns hns
  rw [hst.accounts] at ha
  rw [idOf, idOf, hst.insts]
  exact h k a ha ns hns

theorem bounded_copyGroup (hb : b.published.Bounded) (newAccs : List Nat) (gid : Int) :
    (copyGroup env newAccs b gid).published.Bounded := by
  simp only [copyGroup]
  split
  · exact hb
  next o ho =>
    intro k o' hk
    by_cases heq : k = gid
    · subst heq
      obtain rfl : b.s.objs.next = o' := by simpa [published] using hk
      refine ⟨Nat.lt_succ_self _, ?_⟩
      simp only [published, newGroup, Heap.get_alloc_self]
      exact routed_route _ _ _ _
    · obtain ⟨hlt, hrouted⟩ := hb k o' (by simpa [published, heq] using hk)
      refine ⟨Nat.lt_succ_of_lt hlt, ?_⟩
      simp only [published, newGroup]
      rw [Heap.get_alloc_of_lt _ (show o' < b.s.objs.next from hlt)]
      exact hrouted

theorem accountsOf_copyGroup (env : SnapshotEnv) (hb : b.published.Bounded) (newAccs : List Nat)
    (gid k : Int) : (copyGroup env newAccs b gid).published.accountsOf k =
      if k = gid then b.published.replaceAccounts (b.published.accountsOf k) newAccs
      else b.published.accountsOf k := by
  simp only [copyGroup]
  split
  next hnone =>
    by_cases heq : k = gid
    · subst heq
      rw [if_pos rfl, accountsOf_of_none (s := b.published) hnone]
      exact (replaceAccounts_eq_self fun _ h => absurd h not_mem_nil).symm
    · rw [if_neg heq]
  next o ho =>
    by_cases heq : k = gid
    · subst heq
      rw [if_pos rfl, accountsOf_of_some (s := b.published) ho,
        accountsOf_of_some (o := b.s.objs.next) (by simp [published])]
      exact congrArg GroupSnapshot.accounts (Heap.get_alloc_self _)
    · rw [if_neg heq]
      cases hk : b.groups k with
      | some o' =>
        rw [accountsOf_of_some (s := b.published) hk,
          accountsOf_of_some (o := o') (by simpa [published, heq] using hk)]
        exact congrArg GroupSnapshot.accounts (Heap.get_alloc_of_lt _ (hb k o' hk).1)
      | none =>
        rw [accountsOf_of_none (s := b.published) hk,
          accountsOf_of_none (by simpa [published, heq] using hk)]

theorem insts_copyGroup (b : Rebuild) (gid : Int) :
    (copyGroup env newAccs b gid).s.insts = b.s.insts := by
  simp only [copyGroup]
  split <;> rfl

theorem byID_copyGroup (b : Rebuild) (gid : Int) : (copyGroup env newAccs b gid).byID = b.byID := by
  simp only [copyGroup]
  split <;> rfl

theorem insts_copyGroups (b : Rebuild) (gids : List Int) :
    (gids.foldl (copyGroup env newAccs) b).s.insts = b.s.insts := by
  induction gids generalizing b with
  | nil => rfl
  | cons gid gids ih => exact (ih _).trans (insts_copyGroup ..)

theorem bounded_copyGroups (hb : b.published.Bounded) (newAccs : List Nat) (gids : List Int) :
    (gids.foldl (copyGroup env newAccs) b).published.Bounded := by
  induction gids generalizing b with
  | nil => exact hb
  | cons gid gids ih => exact ih (bounded_copyGroup env hb newAccs gid)

/-- Copies with reused instances have the accounts that the groups had. -/
theorem copyGroups_agrees (hb : b.published.Bounded) {newAccs : List Nat}
    (hreuses : b.published.Reuses newAccs) (gids : List Int) :
    b.published.Agrees (gids.foldl (copyGroup env newAccs) b).published := by
  induction gids generalizing b with
  | nil => exact ⟨rfl, rfl, fun _ => rfl⟩
  | cons gid gids ih =>
    have hagrees : b.published.Agrees (copyGroup env newAccs b gid).published := by
      refine ⟨insts_copyGroup .., byID_copyGroup .., fun k => ?_⟩
      rw [accountsOf_copyGroup env hb, replaceAccounts_eq_self (hreuses k), ite_self]
    exact hagrees.trans (ih (bounded_copyGroup env hb newAccs gid) (hreuses.of_agrees hagrees))

theorem Built.mem_accountsOf_iff {m : List (Int × List Account)}
    (h : Built env s m b) : a ∈ b.published.accountsOf k ↔
      ∃ row, (k, row) ∈ loadedRows m ∧ b.byID row.id = some a := by
  constructor
  · intro ha
    obtain ⟨o, ho, ha⟩ := mem_accountsOf.mp ha
    obtain ⟨rows, hrows, hnew⟩ := h.newGroup_of_some ho
    obtain ⟨row, hrow, hroutable, hbyID⟩ := (hnew.mem_iff a).mp ha
    exact ⟨row, mem_loadedRows.mpr ⟨rows, hrows, hrow, hroutable⟩, hbyID⟩
  · rintro ⟨row, hrow, hbyID⟩
    obtain ⟨rows, hrows, hrow, hroutable⟩ := mem_loadedRows.mp hrow
    obtain ⟨o, ho, hnew⟩ := h.group k rows hrows
    exact mem_accountsOf.mpr ⟨o, ho, (hnew.mem_iff a).mpr ⟨row, hrow, hroutable, hbyID⟩⟩

/-- A load has an account among the rows it is built from. -/
def Loads (rows : List Account) (id : Int) : Prop := ∃ row ∈ rows, row.routable ∧ row.id = id

/-- What the load of one group gives: instances `newAccs` of the loaded accounts, reused where the
scheduler has one. -/
structure GroupLoad (s : Scheduler) (rows : List Account) (insts : Heap AccountSnapshot)
    (newAccs : List Nat) : Prop where
  loaded : ∀ a ∈ newAccs, Loads rows (insts.get a).id
  found : ∀ id, Loads rows id → ∃ a ∈ newAccs, (insts.get a).id = id
  inj : ∀ a ∈ newAccs, ∀ a' ∈ newAccs, (insts.get a).id = (insts.get a').id → a = a'
  reused : ∀ a ∈ newAccs, ∀ o, s.byID (insts.get a).id = some o → a = o
  fresh : ∀ a ∈ newAccs, s.byID (insts.get a).id = none → s.insts.next ≤ a
  bound : ∀ a ∈ newAccs, a < insts.next
  frame : Heap.Frame (· ∈ newAccs) s.insts insts

theorem Built.groupLoad {gid : Int} {rows : List Account} (h : Built env s [(gid, rows)] b) :
    s.GroupLoad rows b.s.insts (b.published.accountsOf gid) := by
  have hrow : ∀ row, (gid, row) ∈ loadedRows [(gid, rows)] ↔ row ∈ rows ∧ row.routable := by
    simp [loadedRows]
  have hbyID : ∀ a, a ∈ b.published.accountsOf gid ↔
      Loads rows (b.s.insts.get a).id ∧ b.byID (b.s.insts.get a).id = some a := by
    intro a
    rw [h.mem_accountsOf_iff]
    constructor
    · rintro ⟨row, hmem, ha⟩
      rw [h.placed.id_eq ha]
      exact ⟨⟨row, ((hrow row).mp hmem).1, ((hrow row).mp hmem).2, rfl⟩, ha⟩
    · rintro ⟨⟨row, hmem, hroutable, hid⟩, ha⟩
      exact ⟨row, (hrow row).mpr ⟨hmem, hroutable⟩, hid ▸ ha⟩
  refine ⟨fun a ha => ((hbyID a).mp ha).1, ?_, ?_, ?_, ?_, ?_, ?_⟩
  · rintro _ ⟨row, hmem, hroutable, rfl⟩
    obtain ⟨a, ha⟩ := h.byID_isSome (mem_singleton_self _) hmem hroutable
    have hid := h.placed.id_eq ha
    exact ⟨a, (hbyID a).mpr (hid.symm ▸ ⟨⟨row, hmem, hroutable, rfl⟩, ha⟩), hid⟩
  · intro a ha a' ha' heq
    have hsome := ((hbyID a).mp ha).2
    rw [heq, ((hbyID a').mp ha').2] at hsome
    exact (Option.some.inj hsome).symm
  · exact fun a ha o ho => h.placed.reused _ a o ((hbyID a).mp ha).2 ho
  · exact fun a ha hnone => h.placed.fresh _ a ((hbyID a).mp ha).2 hnone
  · exact fun a ha => h.placed.bound _ a ((hbyID a).mp ha).2
  · refine h.placed.frame.mono fun a hplaced => (hbyID a).mpr ?_
    obtain ⟨id, ha⟩ := hplaced
    obtain ⟨e, he⟩ := h.placed.exists_first ha
    have hmem : e ∈ loadedRows [(gid, rows)] := mem_of_find?_eq_some he
    have he1 : e.1 = gid := by
      simp only [loadedRows, flatMap_cons, flatMap_nil, append_nil, mem_map] at hmem
      obtain ⟨row, -, rfl⟩ := hmem
      rfl
    obtain ⟨hmem, hroutable⟩ := (hrow e.2).mp (he1 ▸ hmem)
    rw [show (b.s.insts.get a).id = id from h.placed.id_eq ha]
    exact ⟨⟨e.2, hmem, hroutable, id_of_firstRow he⟩, ha⟩

namespace GroupLoad

variable {rows : List Account} {insts : Heap AccountSnapshot} {newAccs : List Nat}

section
variable (h : s.GroupLoad rows insts newAccs)
include h

section
variable (hs : Indexed s.byID s.insts)
include hs

/-- The map has a reused instance of a loaded account. -/
theorem mem_newAccs_iff (hlt : a < s.insts.next) :
    a ∈ newAccs ↔ s.byID (s.idOf a) = some a ∧ Loads rows (s.idOf a) := by
  constructor
  · intro hmem
    cases ho : s.byID (insts.get a).id with
    | none => exact absurd hlt (Nat.not_lt.mpr (h.fresh a hmem ho))
    | some o =>
      obtain rfl := h.reused a hmem o ho
      have hid : s.idOf a = (insts.get a).id := (hs _ a ho).2
      rw [hid]
      exact ⟨ho, h.loaded a hmem⟩
  · rintro ⟨hknown, hload⟩
    obtain ⟨a', hmem, hid⟩ := h.found _ hload
    rwa [← h.reused a' hmem a (hid.symm ▸ hknown)]

/-- An instance that the map has is among the new ones exactly if its account is loaded. -/
theorem mem_iff {id : Int} (ha : s.byID id = some a) : a ∈ newAccs ↔ Loads rows id := by
  obtain ⟨hlt, rfl⟩ := hs id a ha
  exact (h.mem_newAccs_iff hs hlt).trans (and_iff_right ha)

theorem id_eq_idOf (hlt : a < s.insts.next) : (insts.get a).id = s.idOf a := by
  by_cases hmem : a ∈ newAccs
  · obtain ⟨hknown, hload⟩ := (h.mem_newAccs_iff hs hlt).mp hmem
    obtain ⟨a', hmem', hid⟩ := h.found _ hload
    obtain rfl := h.reused a' hmem' a (hid.symm ▸ hknown)
    exact hid
  · rw [h.frame.get a hlt hmem, idOf]

theorem id_eq {id : Int} (ha : s.byID id = some a) : (insts.get a).id = id := by
  obtain ⟨hlt, hid⟩ := hs id a ha
  exact (h.id_eq_idOf hs hlt).trans hid

/-- The reload drops the accounts of the group that are not loaded. -/
theorem mem_droppedAccounts_iff (gid : Int) (hlt : a < s.insts.next) :
    a ∈ s.droppedAccounts gid insts newAccs ↔ a ∈ s.accountsOf gid ∧ ¬Loads rows (s.idOf a) := by
  simp only [droppedAccounts, mem_filter, mem_map, decide_eq_true_eq, h.id_eq_idOf hs hlt]
  refine and_congr_right fun _ => not_congr ⟨?_, h.found _⟩
  rintro ⟨a', ha', hid⟩
  exact hid ▸ h.loaded a' ha'

end

theorem regroupedByID_of_new (gid : Int) {a : Nat}
    (ha : a ∈ newAccs) : s.regroupedByID gid (s.regroupedInsts gid insts newAccs) newAccs
      (insts.get a).id = some a := by
  have hmem := s.regroupedByID_of_mem gid (s.regroupedInsts gid insts newAccs) newAccs ha
    fun b hb heq => h.inj b hb a ha (by simpa using heq)
  rwa [id_regroupedInsts] at hmem

/-- An instance that the map has after the reload is a new one, or was there before. -/
theorem of_regroupedByID {gid id : Int}
    (ha : s.regroupedByID gid (s.regroupedInsts gid insts newAccs) newAccs id = some a) :
    a ∈ newAccs ∧ (insts.get a).id = id ∨ s.byID id = some a := by
  by_cases hload : ∃ a' ∈ newAccs, (insts.get a').id = id
  · obtain ⟨a', ha', rfl⟩ := hload
    obtain rfl := Option.some.inj ((h.regroupedByID_of_new gid ha').symm.trans ha)
    exact .inl ⟨ha', rfl⟩
  · rw [regroupedByID_of_notMem] at ha
    · split_ifs at ha
      exact .inr ha
    · intro a' ha' hid
      exact hload ⟨a', ha', by simpa using hid⟩

end
end GroupLoad

/-- The objects of a rebuild are new, and the published maps are not touched yet. -/
structure Extends (s : Scheduler) (t : Scheduler) : Prop where
  objs : Heap.Frame (fun _ => False) s.objs t.objs
  writes : ∀ w ∈ t.writes, w ∈ s.writes ∨ s.objs.next ≤ w.1
  same : t = { s with insts := t.insts, objs := t.objs, writes := t.writes }

section
variable (h : s.Extends t)
include h

theorem Extends.trans {u : Scheduler} (h' : t.Extends u) : s.Extends u where
  objs := h.objs.trans h'.objs
  writes w hw := by
    rcases h'.writes w hw with hw | hw
    · exact h.writes w hw
    · exact .inr (Nat.le_trans h.objs.le hw)
  same := by
    rw [h'.same, h.same]

theorem Extends.groups : t.groups = s.groups := by
  rw [h.same]

theorem Extends.byID : t.byID = s.byID := by
  rw [h.same]

theorem Extends.accountsOf (hs : s.Bounded) (k : Int) : t.accountsOf k = s.accountsOf k := by
  cases hk : s.groups k with
  | none => rw [accountsOf_of_none hk, accountsOf_of_none (h.groups ▸ hk)]
  | some o =>
    rw [accountsOf_of_some hk, accountsOf_of_some (h.groups ▸ hk),
      h.objs.get o (hs k o hk).1 fun hfalse => hfalse]

theorem Extends.bounded (hs : s.Bounded) : t.Bounded := by
  intro k o hk
  rw [h.groups] at hk
  obtain ⟨hlt, hrouted⟩ := hs k o hk
  exact ⟨Nat.lt_of_lt_of_le hlt h.objs.le, (h.objs.get o hlt fun hfalse => hfalse) ▸ hrouted⟩

end

theorem extends_copyGroups (b : Rebuild) (gids : List Int) :
    b.s.Extends (gids.foldl (copyGroup env newAccs) b).s := by
  induction gids generalizing b with
  | nil => exact ⟨.refl _ _, fun _ hw => .inl hw, rfl⟩
  | cons gid gids ih =>
    refine Extends.trans ?_ (ih _)
    simp only [copyGroup]
    split
    · exact ⟨.refl _ _, fun _ hw => .inl hw, rfl⟩
    · refine ⟨.alloc _, fun w hw => ?_, rfl⟩
      rcases mem_append.mp hw with hw | hw
      · exact .inl hw
      · obtain rfl := mem_singleton.mp hw
        exact .inr (Nat.le_refl _)

theorem Built.extends {m : List (Int × List Account)} (h : Built env s m b) :
    s.Extends b.s :=
  ⟨h.objs, h.writes, h.same⟩

theorem rebuildGroups_agrees (hbounded : s.Bounded) (gids : List Int) :
    s.Agrees (rebuildGroups env s gids) ∧ (rebuildGroups env s gids).Bounded := by
  have hb : published { s, groups := s.groups, byID := s.byID } |>.Bounded := hbounded
  have h := copyGroups_agrees env hb (fun _ _ _ _ hns => absurd hns not_mem_nil)
    (gids.filter (0 < ·)).eraseDups
  have hextends := extends_copyGroups env [] { s, groups := s.groups, byID := s.byID }
    (gids.filter (0 < ·)).eraseDups
  exact ⟨⟨h.insts, hextends.byID, h.accounts⟩, bounded_copyGroups env hb _ _⟩

section
variable (env : SnapshotEnv) (gid : Int) (rows : List Account)

theorem accountsOf_regroupLoaded_self :
    (regroupLoaded env s gid rows).published.accountsOf gid = newAccounts env s gid rows := by
  simp [accountsOf, regroupLoaded, published, newAccounts]

/-- The copies of the other groups have the accounts that the groups had. -/
theorem insts_rebuildLoaded : (rebuildLoaded env s gid rows).s.insts =
    s.regroupedInsts gid (loadGroup env s gid rows).s.insts (newAccounts env s gid rows) :=
  insts_copyGroups ..

section
variable (hs : Indexed s.byID s.insts)
include hs

theorem built_loadGroup : Built env s [(gid, rows)] (loadGroup env s gid rows) :=
  built_buildSnapshots env hs (by simp)

theorem groupLoad_newAccounts :
    s.GroupLoad rows (loadGroup env s gid rows).s.insts (newAccounts env s gid rows) :=
  (built_loadGroup env gid rows hs).groupLoad

theorem extends_regroupLoaded : s.Extends (regroupLoaded env s gid rows).s := by
  have h := (built_loadGroup env gid rows hs).extends
  exact ⟨h.objs, h.writes, by rw [regroupLoaded, h.same]⟩

theorem accountsOf_regroupLoaded_of_ne (hbounded : s.Bounded) (hk : k ≠ gid) :
    (regroupLoaded env s gid rows).published.accountsOf k = s.accountsOf k := by
  have h := extends_regroupLoaded env gid rows hs
  have hgroups : (regroupLoaded env s gid rows).published.groups k = s.groups k := by
    simp [regroupLoaded, published, hk]
  rw [← h.accountsOf hbounded k]
  simp only [accountsOf, hgroups]
  rfl

theorem bounded_regroupLoaded (hbounded : s.Bounded) :
    (regroupLoaded env s gid rows).published.Bounded := by
  intro k o ho
  by_cases hk : k = gid
  · subst hk
    have hsome : (loadGroup env s k rows).groups k = some o := by
      simpa [regroupLoaded, published] using ho
    obtain ⟨_, -, hnew⟩ := (built_loadGroup env k rows hs).newGroup_of_some hsome
    exact ⟨hnew.bound, hnew.routed⟩
  · have h := (extends_regroupLoaded env gid rows hs).bounded hbounded
    refine h k o ?_
    rw [(extends_regroupLoaded env gid rows hs).groups]
    simpa [regroupLoaded, published, hk] using ho

theorem bounded_rebuildLoaded (hbounded : s.Bounded) :
    (rebuildLoaded env s gid rows).published.Bounded :=
  bounded_copyGroups env (bounded_regroupLoaded env gid rows hs hbounded) _ _

theorem extends_rebuildLoaded : s.Extends (rebuildLoaded env s gid rows).s :=
  (extends_regroupLoaded env gid rows hs).trans (extends_copyGroups ..)

end
end
end Scheduler
end C4Gateway
