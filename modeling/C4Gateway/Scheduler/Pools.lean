import C4Gateway.Scheduler.Loaded

/-! What `buildUpstreamSnapshots` does to group objects.  It writes the pool's fields of each group
that has a configuration, in place; the accounts and the account routes stay as they are.  The
writes leave an object as it was exactly if its pool is empty and its policy is the configured
one. -/

namespace C4Gateway

/-- The object has the policy that is configured, an empty pool, and what goes with it; the
configuration does not ask for more. -/
structure GroupConfig.Matches (env : SnapshotEnv) (cfg : GroupConfig) (gs : GroupSnapshot) :
    Prop where
  routingMode : gs.routingMode = some cfg.effectiveRoutingMode
  allowedModels : gs.allowedModels = cfg.allowedModels
  upstreams : gs.upstreams = []
  upstreamRoutes : gs.upstreamRoutes = []
  pool : cfg.effectiveRoutingMode = .upstreams → (∀ m ∈ cfg.upstreamMembers, ¬m.routable) ∧
    env.buildUpstreamRoutes [] cfg.allowedModels = [] ∧
    env.buildModelAliases (gs.routes.map (·.1)) [] = gs.modelAliases

variable {b b' b'' : UpstreamBuild}

namespace Scheduler

/-- The instances, the map of groups, and what the groups have of accounts are the same. -/
structure UpstreamBuild.SameAccounts (b b' : UpstreamBuild) : Prop where
  insts : b'.s.insts = b.s.insts
  groups : b'.groups = b.groups
  next : b'.s.objs.next = b.s.objs.next
  accounts : ∀ o, (b'.s.objs.get o).accounts = (b.s.objs.get o).accounts
  routes : ∀ o, (b'.s.objs.get o).routes = (b.s.objs.get o).routes

namespace UpstreamBuild.SameAccounts

theorem refl (b : UpstreamBuild) : b.SameAccounts b := ⟨rfl, rfl, rfl, fun _ => rfl, fun _ => rfl⟩

theorem trans (h : b.SameAccounts b') (h' : b'.SameAccounts b'') : b.SameAccounts b'' where
  insts := h'.insts.trans h.insts
  groups := h'.groups.trans h.groups
  next := h'.next.trans h.next
  accounts o := (h'.accounts o).trans (h.accounts o)
  routes o := (h'.routes o).trans (h.routes o)

theorem modifyGroup (h : b.SameAccounts b') {o : Nat} {f : GroupSnapshot → GroupSnapshot}
    (haccounts : ∀ gs, (f gs).accounts = gs.accounts) (hroutes : ∀ gs, (f gs).routes = gs.routes) :
    b.SameAccounts (b'.modifyGroup o f) := by
  refine h.trans ⟨rfl, rfl, rfl, fun o' => ?_, fun o' => ?_⟩ <;> by_cases heq : o' = o
  any_goals
    subst heq
    simp [UpstreamBuild.modifyGroup, Scheduler.modifyGroup, haccounts, hroutes]
  all_goals
    simp [UpstreamBuild.modifyGroup, Scheduler.modifyGroup, Heap.get_modify_of_ne _ heq]

variable (env : SnapshotEnv) (old : List (Int × Nat)) (o : Nat) (cfg : GroupConfig)
  (ms : List GroupUpstream)

theorem addMember (m : GroupUpstream) : b.SameAccounts (addMember env old o b m) := by
  have h := (refl b).modifyGroup (o := o)
    (f := fun gs => { gs with upstreams := gs.upstreams ++ [b.s.ups.next] })
    (fun _ => rfl) fun _ => rfl
  exact { h with }

theorem addMembers : b.SameAccounts (ms.foldl (Scheduler.addMember env old o) b) := by
  induction ms generalizing b with
  | nil => exact refl b
  | cons m ms ih => exact (addMember env old o m).trans ih

theorem resetPool : b.SameAccounts (resetPool o cfg b) := by
  refine modifyGroup (modifyGroup (modifyGroup (modifyGroup (refl b) ?_ ?_) ?_ ?_) ?_ ?_) ?_ ?_ <;>
    exact fun _ => rfl

theorem fillPool : b.SameAccounts (fillPool env old o ms b) := by
  refine modifyGroup (modifyGroup (addMembers env old o _) ?_ ?_) ?_ ?_ <;> exact fun _ => rfl

theorem configureGroup : b.SameAccounts (configureGroup env old o cfg b) := by
  simp only [Scheduler.configureGroup]
  split
  · exact resetPool o cfg
  · exact (resetPool o cfg).trans (fillPool env old o _)

end UpstreamBuild.SameAccounts

/-- `buildUpstreamSnapshots` adds groups without accounts, and keeps the accounts of the others. -/
structure Configured (s : Scheduler) (groups : Int → Option Nat) (u : UpstreamBuild) : Prop where
  insts : u.s.insts = s.insts
  le : s.objs.next ≤ u.s.objs.next
  accounts : ∀ o < s.objs.next, (u.s.objs.get o).accounts = (s.objs.get o).accounts
  routes : ∀ o < s.objs.next, (u.s.objs.get o).routes = (s.objs.get o).routes
  kept : ∀ k o, groups k = some o → u.groups k = some o
  added : ∀ k o, u.groups k = some o → groups k = none →
    o < u.s.objs.next ∧ (u.s.objs.get o).accounts = [] ∧ (u.s.objs.get o).routes = []

variable {s : Scheduler} {groups : Int → Option Nat}

theorem Configured.refl (s : Scheduler) (groups : Int → Option Nat) (upstreams : List (Int × Nat)) :
    Configured s groups { s, groups, upstreams } where
  insts := rfl
  le := Nat.le_refl _
  accounts _ _ := rfl
  routes _ _ := rfl
  kept _ _ h := h
  added _ _ h hnone := absurd (h.symm.trans hnone) (by simp)

variable {u : UpstreamBuild} (env : SnapshotEnv) (old : List (Int × Nat))

theorem Configured.sameAccounts {u' : UpstreamBuild} (h : Configured s groups u)
    (hsame : u.SameAccounts u') : Configured s groups u' where
  insts := hsame.insts.trans h.insts
  le := hsame.next.symm ▸ h.le
  accounts o ho := (hsame.accounts o).trans (h.accounts o ho)
  routes o ho := (hsame.routes o).trans (h.routes o ho)
  kept k o hk := hsame.groups ▸ h.kept k o hk
  added k o hk hnone := by
    rw [hsame.next, hsame.accounts, hsame.routes]
    exact h.added k o (hsame.groups ▸ hk) hnone

/-- A configuration for an unknown group makes an empty one. -/
theorem Configured.newGroup {u : UpstreamBuild} (h : Configured s groups u) {gid : Int}
    (hgid : u.groups gid = none) : Configured s groups { u with
      s := u.s.newGroup {}
      groups := Function.update u.groups gid (some u.s.objs.next) } where
  insts := h.insts
  le := Nat.le_succ_of_le h.le
  accounts o ho := by
    rw [← h.accounts o ho]
    exact congrArg GroupSnapshot.accounts (Heap.get_alloc_of_lt _ (Nat.lt_of_lt_of_le ho h.le))
  routes o ho := by
    rw [← h.routes o ho]
    exact congrArg GroupSnapshot.routes (Heap.get_alloc_of_lt _ (Nat.lt_of_lt_of_le ho h.le))
  kept k o hk := by
    have hne : k ≠ gid := by
      rintro rfl
      exact absurd (hgid.symm.trans (h.kept k o hk)) (by simp)
    simpa [hne] using h.kept k o hk
  added k o hk hnone := by
    by_cases heq : k = gid
    · subst heq
      obtain rfl : u.s.objs.next = o := by simpa using hk
      simp [Scheduler.newGroup]
    · obtain ⟨hlt, hempty⟩ := h.added k o (by simpa [heq] using hk) hnone
      simp only [Scheduler.newGroup, Heap.get_alloc_of_lt _ hlt]
      exact ⟨Nat.lt_succ_of_lt hlt, hempty⟩

theorem configured_buildUpstreamSnapshots (h : Configured s groups u)
    (configs : List (Int × GroupConfig)) :
    Configured s groups (buildUpstreamSnapshots env old u configs) := by
  induction configs generalizing u with
  | nil => exact h
  | cons e configs ih =>
    refine ih ?_
    simp only [configureEntry]
    split
    · exact h.sameAccounts (.configureGroup env old _ e.2)
    next hgid => exact (h.newGroup hgid).sameAccounts (.configureGroup env old _ e.2)

/-- A group with an object keeps it, and no other group gets it. -/
theorem groups_configureEntry (b : UpstreamBuild) (e : Int × GroupConfig) {o : Nat}
    (ho : o < b.s.objs.next) :
    b.s.objs.next ≤ (configureEntry env old b e).s.objs.next ∧
      ∀ k, (configureEntry env old b e).groups k = some o ↔ b.groups k = some o := by
  simp only [configureEntry]
  split
  next o' _ =>
    have h := UpstreamBuild.SameAccounts.configureGroup env old o' e.2 (b := b)
    exact ⟨Nat.le_of_eq h.next.symm, fun k => by rw [h.groups]⟩
  next hnone =>
    have h := UpstreamBuild.SameAccounts.configureGroup env old b.s.objs.next e.2 (b := { b with
      s := b.s.newGroup {}
      groups := Function.update b.groups e.1 (some b.s.objs.next) })
    rw [h.next, h.groups]
    refine ⟨Nat.le_succ _, fun k => ?_⟩
    by_cases heq : k = e.1
    · simp [heq, hnone, Nat.ne_of_gt ho]
    · simp [heq]

namespace UpstreamBuild

section
variable (o : Nat) (gs : GroupSnapshot)

/-- No write so far has made the object `o` anything but `gs`. -/
def Untouched (b : UpstreamBuild) : Prop := ∀ w ∈ b.s.writes, w.1 = o → w.2 = gs

/-- The steps from `b` to `b'` leave the object as it is exactly under the condition `C`; an object
that has changed has a write that says so. -/
structure Stays (b b' : UpstreamBuild) (C : Prop) : Prop where
  logged : (b.Untouched o gs → b.s.objs.get o = gs) → b'.Untouched o gs → b'.s.objs.get o = gs
  iff : (b.Untouched o gs → b.s.objs.get o = gs) → (b'.Untouched o gs ↔ b.Untouched o gs ∧ C)

end

namespace Stays

variable {o : Nat} {gs : GroupSnapshot} {C D : Prop}

theorem refl (b : UpstreamBuild) : b.Stays o gs b True := ⟨id, fun _ => (and_true _).symm.to_iff⟩

theorem trans (h : b.Stays o gs b' C) (h' : b'.Stays o gs b'' D) : b.Stays o gs b'' (C ∧ D) where
  logged hb := h'.logged (h.logged hb)
  iff hb := by rw [h'.iff (h.logged hb), h.iff hb, and_assoc]

theorem congr (h : b.Stays o gs b' C) (hCD : C ↔ D) : b.Stays o gs b' D :=
  ⟨h.logged, fun hb => (h.iff hb).trans (and_congr_right' hCD)⟩

theorem modifyGroup (b : UpstreamBuild) (o' : Nat) (f : GroupSnapshot → GroupSnapshot) :
    b.Stays o gs (b.modifyGroup o' f) (o' = o → f gs = gs) := by
  have hwrites : (b.modifyGroup o' f).Untouched o gs ↔
      b.Untouched o gs ∧ (o' = o → f (b.s.objs.get o') = gs) := by
    simp only [Untouched, UpstreamBuild.modifyGroup, Scheduler.modifyGroup, List.mem_append,
      List.mem_singleton, or_imp, forall_and, forall_eq]
  refine ⟨fun hb h => ?_, fun hb => hwrites.trans (and_congr_right fun h => ?_)⟩
  · obtain ⟨h, hf⟩ := hwrites.mp h
    by_cases heq : o = o'
    · subst heq
      simpa [UpstreamBuild.modifyGroup, Scheduler.modifyGroup] using hf rfl
    · simpa [UpstreamBuild.modifyGroup, Scheduler.modifyGroup, Heap.get_modify_of_ne _ heq]
        using hb h
  · refine imp_congr_right fun heq => ?_
    rw [heq, hb h]

/-- A new member is a change. -/
theorem addMember (o' : Nat) (m : GroupUpstream) :
    b.Stays o gs (addMember env old o' b m) (o' ≠ o) := by
  have h : b.Stays o gs _ _ := modifyGroup b o' fun gs =>
    { gs with upstreams := gs.upstreams ++ [b.s.ups.next] }
  refine Stays.congr ⟨h.logged, h.iff⟩ (imp_congr_right fun _ => iff_of_false (fun heq => ?_) id)
  have hupstreams := congrArg GroupSnapshot.upstreams heq
  simp at hupstreams

theorem addMembers (o' : Nat) (ms : List GroupUpstream) :
    b.Stays o gs (ms.foldl (Scheduler.addMember env old o') b) (o' = o → ms = []) := by
  induction ms generalizing b with
  | nil => exact (refl b).congr (by simp)
  | cons m ms ih => exact ((addMember env old o' m).trans ih).congr (by simp; tauto)

theorem resetPool (b : UpstreamBuild) (o' : Nat) (cfg : GroupConfig) :
    b.Stays o gs (resetPool o' cfg b) (o' = o → gs.routingMode = some cfg.effectiveRoutingMode ∧
      gs.allowedModels = cfg.allowedModels ∧ gs.upstreams = [] ∧ gs.upstreamRoutes = []) := by
  refine congr ((((modifyGroup b o' _).trans (modifyGroup _ o' _)).trans
    (modifyGroup _ o' _)).trans (modifyGroup _ o' _)) ?_
  cases gs
  simp only [GroupSnapshot.mk.injEq, true_and, and_true, ← imp_and, and_assoc, eq_comm]

theorem fillPool (env : SnapshotEnv) (old : List (Int × Nat)) (b : UpstreamBuild) (o' : Nat)
    (members : List GroupUpstream) : ∃ ups : Heap UpstreamSnapshot,
    b.Stays o gs (fillPool env old o' members b) (o' = o → (∀ m ∈ members, ¬m.routable) ∧
      env.buildUpstreamRoutes (gs.upstreams.map fun u => (u, ups.get u)) gs.allowedModels =
        gs.upstreamRoutes ∧
      env.buildModelAliases (gs.routes.map (·.1)) (gs.upstreamRoutes.map (·.1)) =
        gs.modelAliases) := by
  refine ⟨((members.filter GroupUpstream.routable).foldl (Scheduler.addMember env old o') b).s.ups,
    congr (((addMembers env old o' _).trans (modifyGroup _ o' _)).trans (modifyGroup _ o' _)) ?_⟩
  cases gs
  simp only [GroupSnapshot.mk.injEq, true_and, and_true, ← imp_and, and_assoc,
    List.filter_eq_nil_iff]

theorem configureGroup (b : UpstreamBuild) (o' : Nat) (cfg : GroupConfig) :
    b.Stays o gs (configureGroup env old o' cfg b) (o' = o → cfg.Matches env gs) := by
  simp only [Scheduler.configureGroup]
  split
  next hmode =>
    refine (resetPool b o' cfg).congr (imp_congr_right fun _ => ?_)
    exact ⟨fun ⟨h₁, h₂, h₃, h₄⟩ => ⟨h₁, h₂, h₃, h₄, fun h => absurd h hmode⟩,
      fun h => ⟨h.routingMode, h.allowedModels, h.upstreams, h.upstreamRoutes⟩⟩
  next hmode =>
    obtain ⟨ups, hfill⟩ := fillPool env old (Scheduler.resetPool o' cfg b) o' cfg.upstreamMembers
    refine ((resetPool b o' cfg).trans hfill).congr ?_
    rw [← imp_and]
    refine imp_congr_right fun _ => ⟨?_, fun h => ?_⟩
    · rintro ⟨⟨h₁, h₂, h₃, h₄⟩, hmembers, hroutes, haliases⟩
      rw [h₃, h₂, h₄] at hroutes
      rw [h₄] at haliases
      exact ⟨h₁, h₂, h₃, h₄, fun _ => ⟨hmembers, hroutes, haliases⟩⟩
    · obtain ⟨hmembers, hroutes, haliases⟩ := h.pool (not_not.mp hmode)
      refine ⟨⟨h.routingMode, h.allowedModels, h.upstreams, h.upstreamRoutes⟩, hmembers, ?_, ?_⟩
      · rw [h.upstreams, h.allowedModels, h.upstreamRoutes]
        exact hroutes
      · rw [h.upstreamRoutes]
        exact haliases

theorem newGroup {gid : Int} (ho : o < b.s.objs.next) : b.Stays o gs { b with
      s := b.s.newGroup {}
      groups := Function.update b.groups gid (some b.s.objs.next) } True := by
  have hwrites : UpstreamBuild.Untouched o gs { b with
      s := b.s.newGroup {}
      groups := Function.update b.groups gid (some b.s.objs.next) } ↔ b.Untouched o gs := by
    simp only [Untouched, Scheduler.newGroup, List.mem_append, List.mem_singleton, or_imp,
      forall_and, forall_eq, Nat.ne_of_gt ho, false_imp_iff, and_true]
  refine ⟨fun hb h => ?_, fun _ => by rw [hwrites, and_true]⟩
  simpa [Scheduler.newGroup, Heap.get_alloc_of_lt _ ho] using hb (hwrites.mp h)

theorem configureEntry (env : SnapshotEnv) (old : List (Int × Nat)) (ho : o < b.s.objs.next)
    (e : Int × GroupConfig) : b.Stays o gs (configureEntry env old b e)
      (b.groups e.1 = some o → e.2.Matches env gs) := by
  simp only [Scheduler.configureEntry]
  split
  next o' ho' =>
    refine (configureGroup env old b o' e.2).congr ?_
    rw [ho', Option.some_inj]
  next hnone =>
    refine ((newGroup ho).trans (configureGroup env old _ _ e.2)).congr ?_
    simp [hnone, Nat.ne_of_gt ho]

/-- The writes to the object are the configurations of the groups that have it. -/
theorem buildUpstreamSnapshots (ho : o < b.s.objs.next) (configs : List (Int × GroupConfig)) :
    b.Stays o gs (buildUpstreamSnapshots env old b configs)
      (∀ e ∈ configs, b.groups e.1 = some o → e.2.Matches env gs) := by
  induction configs generalizing b with
  | nil => exact (refl b).congr (by simp)
  | cons e configs ih =>
    obtain ⟨hle, hgroups⟩ := groups_configureEntry env old b e ho
    refine ((configureEntry env old ho e).trans (ih (Nat.lt_of_lt_of_le ho hle))).congr ?_
    simp only [hgroups, List.forall_mem_cons]

end Stays
end UpstreamBuild
end Scheduler
end C4Gateway
