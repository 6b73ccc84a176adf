import C4Gateway.Scheduler.Regroup
import C4Gateway.Lib.Run

/-! The membership of accounts in groups, over sequences of rebuilds and weight changes.  The view
of an account lists its groups, and a targeted reload of one group goes by these lists for all
others. They say what the published groups contain unless a rebuild fails after it has touched
them. -/

namespace C4Gateway.Scheduler

open List

/-- Accounts of groups are the instances that the map has for them, and it has no others. -/
structure Valid (s : Scheduler) : Prop where
  indexed : Indexed s.byID s.insts
  members : ∀ k, ∀ a ∈ s.accountsOf k, s.byID (s.idOf a) = some a
  listed : ∀ id a, s.byID id = some a → ∃ k, a ∈ s.accountsOf k

/-- The view of an account lists the groups that contain it. -/
def Consistent (s : Scheduler) : Prop :=
  ∀ k, ∀ a ∈ s.accountsOf k, ∀ k', k' ∈ (s.view a).groupIDs ↔ a ∈ s.accountsOf k'

variable {s t : Scheduler} {b : Rebuild}

/-- Changes of weights and states, which leave the identities and groups of accounts alone. -/
structure SameViews (s t : Scheduler) : Prop where
  byID : t.byID = s.byID
  accounts : ∀ k, t.accountsOf k = s.accountsOf k
  next : t.insts.next = s.insts.next
  id : ∀ a, (t.insts.get a).id = (s.insts.get a).id
  groupIDs : ∀ a, (t.insts.get a).static.groupIDs = (s.insts.get a).static.groupIDs

theorem Valid.of_sameViews (hs : s.Valid) (h : s.SameViews t) : t.Valid where
  indexed id a ha := by
    rw [h.next, h.id]
    exact hs.indexed id a (h.byID ▸ ha)
  members k a ha := by
    rw [h.byID, idOf, h.id]
    exact hs.members k a (h.accounts k ▸ ha)
  listed id a ha := by
    obtain ⟨k, hk⟩ := hs.listed id a (h.byID ▸ ha)
    exact ⟨k, h.accounts k ▸ hk⟩

theorem Consistent.of_sameViews (hs : s.Consistent) (h : s.SameViews t) : t.Consistent := by
  intro k a ha k'
  rw [h.accounts] at ha ⊢
  rw [view, h.groupIDs]
  exact hs k a ha k'

theorem Agrees.sameViews (h : s.Agrees t) : s.SameViews t := by
  refine ⟨h.byID, h.accounts, ?_, fun a => ?_, fun a => ?_⟩ <;> rw [h.insts]

/-- The accounts of a load are consistent by themselves. -/
theorem valid_buildSnapshots (env : SnapshotEnv) (hs : Indexed s.byID s.insts) (m : LoadedGroups) :
    (buildSnapshots env s.byID { s } m.groups).published.Valid ∧
    (buildSnapshots env s.byID { s } m.groups).published.Consistent ∧
    (buildSnapshots env s.byID { s } m.groups).published.Bounded := by
  have h := built_buildSnapshots env hs m.nodup
  set b := buildSnapshots env s.byID { s } m.groups
  have hmem := fun k a => h.mem_accountsOf_iff (k := k) (a := a)
  have hid : ∀ id a, b.byID id = some a → (b.s.insts.get a).id = id := fun id a ha =>
    h.placed.id_eq ha
  refine ⟨⟨fun id a ha => ⟨h.placed.bound id a ha, hid id a ha⟩, fun k a ha => ?_,
    fun id a ha => ?_⟩, fun k a ha k' => ?_, fun k o ho => ?_⟩
  · obtain ⟨row, -, hbyID⟩ := (hmem k a).mp ha
    have heq : b.published.idOf a = row.id := hid row.id a hbyID
    rw [heq]
    exact hbyID
  · obtain ⟨e, he⟩ := h.placed.exists_first ha
    refine ⟨e.1, (hmem e.1 a).mpr ⟨e.2, mem_of_find?_eq_some he, ?_⟩⟩
    rw [id_of_firstRow he]
    exact ha
  · obtain ⟨row, -, hbyID⟩ := (hmem k a).mp ha
    obtain ⟨e, he⟩ := h.placed.exists_first hbyID
    have hgroupIDs : (b.published.view a).groupIDs = gidsOf (loadedRows m.groups) row.id := by
      have hinst := h.placed.inst row.id a e hbyID he
      simp only [view, Rebuild.published]
      rw [hinst]
      simp [placedInst, id_of_firstRow he]
    rw [hgroupIDs, mem_gidsOf, hmem k' a]
    refine exists_congr fun row' => and_congr_right fun _ =>
      ⟨fun heq => heq ▸ hbyID, fun hbyID' => ?_⟩
    exact h.placed.byID_inj hbyID' hbyID
  · obtain ⟨_, -, hnew⟩ := h.newGroup_of_some ho
    exact ⟨hnew.bound, hnew.routed⟩

variable {a : Nat}

theorem mem_groupIDs_iff (hs : s.Valid) (hcons : s.Consistent) {id : Int}
    (ha : s.byID id = some a) {k : Int} : k ∈ (s.view a).groupIDs ↔ a ∈ s.accountsOf k := by
  obtain ⟨k', hk'⟩ := hs.listed id a ha
  exact hcons k' a hk' k

theorem mem_otherGids_iff (hs : s.Valid) (hcons : s.Consistent) (gid : Int) {id : Int}
    (ha : s.byID id = some a) {k : Int} :
    k ∈ s.otherGids gid id ↔ k ≠ gid ∧ a ∈ s.accountsOf k := by
  simp only [otherGids, removeGid, groupIDs, ha, Option.map_some, Option.getD_some, mem_filter,
    mem_groupIDs_iff hs hcons ha, decide_eq_true_eq, and_comm]

namespace GroupLoad

variable {rows : List Account} {insts : Heap AccountSnapshot} {newAccs : List Nat}

/-- After the passes of `InvalidateGroup`, a known account is listed in the reloaded group if it is
loaded, and in the other groups that contain it. -/
theorem mem_groupIDs_iff (h : s.GroupLoad rows insts newAccs) (hs : s.Valid) (hcons : s.Consistent)
    (gid : Int) {id : Int} (ha : s.byID id = some a) (k : Int) :
    k ∈ ((s.regroupedInsts gid insts newAccs).get a).static.groupIDs ↔
      if k = gid then Loads rows id else a ∈ s.accountsOf k := by
  have hid := h.id_eq hs.indexed ha
  have hnew := h.mem_iff hs.indexed ha
  have hother := mem_otherGids_iff hs hcons gid ha (k := k)
  rw [get_regroupedInsts, hid]
  by_cases hload : Loads rows id
  · rw [if_pos (hnew.mpr hload)]
    simp only [AccountSnapshot.withGroupIDs, joinedGids, ha, Option.isSome_some, if_true, mem_cons,
      hother]
    by_cases hk : k = gid <;> simp [hk, hload]
  · rw [if_neg (mt hnew.mp hload)]
    -- A known account of the group that is not loaded is dropped.
    have hdropped : a ∈ s.droppedAccounts gid insts newAccs ↔ a ∈ s.accountsOf gid := by
      simp only [droppedAccounts, mem_filter, mem_map, decide_eq_true_eq]
      refine and_iff_left ?_
      rintro ⟨a', ha', hid'⟩
      exact hload (hid ▸ hid' ▸ h.loaded a' ha')
    by_cases hgid : a ∈ s.accountsOf gid
    · rw [if_pos (hdropped.mpr hgid)]
      simp only [AccountSnapshot.withGroupIDs, hother]
      by_cases hk : k = gid <;> simp [hload]
    · rw [if_neg (mt hdropped.mp hgid), h.frame.get a (hs.indexed id a ha).1 (mt hnew.mp hload)]
      refine (Scheduler.mem_groupIDs_iff hs hcons ha).trans ?_
      by_cases hk : k = gid
      · subst hk
        simp [hload, hgid]
      · simp [hk]

/-- A new account is in the reloaded group only. -/
theorem groupIDs_of_fresh (gid : Int) (ha : a ∈ newAccs) (hnone : s.byID (insts.get a).id = none) :
    ((s.regroupedInsts gid insts newAccs).get a).static.groupIDs = [gid] := by
  rw [get_regroupedInsts, if_pos ha]
  simp [AccountSnapshot.withGroupIDs, joinedGids, hnone]

/-- The map after the reload: the new instances, and the known ones that keep a group. -/
theorem regroupedByID_iff (h : s.GroupLoad rows insts newAccs) (hs : s.Valid)
    (hcons : s.Consistent) (gid id : Int) (a : Nat) :
    s.regroupedByID gid (s.regroupedInsts gid insts newAccs) newAccs id = some a ↔
      a ∈ newAccs ∧ (insts.get a).id = id ∨
        ¬Loads rows id ∧ s.byID id = some a ∧ ∃ k, k ≠ gid ∧ a ∈ s.accountsOf k := by
  by_cases hload : Loads rows id
  · obtain ⟨a', ha', rfl⟩ := h.found id hload
    rw [h.regroupedByID_of_new gid ha']
    constructor
    · intro heq
      obtain rfl := Option.some.inj heq
      exact .inl ⟨ha', rfl⟩
    · rintro (⟨ha, hid⟩ | ⟨hnot, -⟩)
      · rw [h.inj a ha a' ha' hid]
      · exact absurd hload hnot
  · have hnot : ∀ b ∈ newAccs, ((s.regroupedInsts gid insts newAccs).get b).id ≠ id := by
      intro b hb heq
      rw [id_regroupedInsts] at heq
      exact hload (heq ▸ h.loaded b hb)
    rw [regroupedByID_of_notMem _ _ _ _ hnot]
    have hleft : ¬(a ∈ newAccs ∧ (insts.get a).id = id) := by
      rintro ⟨ha, hid⟩
      exact hload (hid ▸ h.loaded a ha)
    simp only [hleft, false_or, hload, not_false_eq_true, true_and]
    cases ha : s.byID id with
    | none => simp
    | some a' =>
      have hother : s.otherGids gid id = [] ↔ ¬∃ k, k ≠ gid ∧ a' ∈ s.accountsOf k := by
        rw [eq_nil_iff_forall_not_mem, not_exists]
        exact forall_congr' fun k => not_congr (mem_otherGids_iff hs hcons gid ha)
      -- Without another group the account is in the reloaded one, and so is dropped from it.
      have hdropped : (¬∃ k, k ≠ gid ∧ a' ∈ s.accountsOf k) →
          ∃ x ∈ s.droppedAccounts gid (s.regroupedInsts gid insts newAccs) newAccs,
            ((s.regroupedInsts gid insts newAccs).get x).id = id := by
        intro hnone
        obtain ⟨k, hk⟩ := hs.listed id a' ha
        obtain rfl : k = gid := by
          by_contra hne
          exact hnone ⟨k, hne, hk⟩
        have hid := h.id_eq hs.indexed ha
        refine ⟨a', mem_filter.mpr ⟨hk, ?_⟩, by rw [id_regroupedInsts, hid]⟩
        simp only [id_regroupedInsts, hid, mem_map, decide_eq_true_eq]
        rintro ⟨x, hx, hxid⟩
        exact hload (hxid ▸ h.loaded x hx)
      by_cases hk : ∃ k, k ≠ gid ∧ a' ∈ s.accountsOf k
      · rw [if_neg fun hgone => hother.mp hgone.1 hk]
        exact ⟨fun heq => ⟨heq, Option.some.inj heq ▸ hk⟩, And.left⟩
      · rw [if_pos ⟨hother.mpr hk, hdropped hk⟩]
        refine ⟨fun hnone => absurd hnone (by simp), ?_⟩
        rintro ⟨heq, hk'⟩
        obtain rfl := Option.some.inj heq
        exact absurd hk' hk

/-- The reloaded group and the others make a valid and consistent snapshot. -/
theorem valid_regrouped (h : s.GroupLoad rows insts newAccs) (hs : s.Valid) (hcons : s.Consistent)
    {gid : Int} (hinsts : t.insts = s.regroupedInsts gid insts newAccs)
    (hbyID : t.byID = s.regroupedByID gid t.insts newAccs)
    (hself : t.accountsOf gid = newAccs) (hother : ∀ k ≠ gid, t.accountsOf k = s.accountsOf k) :
    t.Valid ∧ t.Consistent := by
  have hid : ∀ a, t.idOf a = (insts.get a).id := by
    intro a
    rw [idOf, hinsts, id_regroupedInsts]
  have hiff : ∀ id a, t.byID id = some a ↔ a ∈ newAccs ∧ (insts.get a).id = id ∨
      ¬Loads rows id ∧ s.byID id = some a ∧ ∃ k, k ≠ gid ∧ a ∈ s.accountsOf k := by
    intro id a
    rw [hbyID, hinsts]
    exact h.regroupedByID_iff hs hcons gid id a
  refine ⟨⟨fun id a ha => ?_, fun k a ha => ?_, fun id a ha => ?_⟩, fun k a ha k' => ?_⟩
  · have hida := hid a
    rw [idOf] at hida
    rw [hida]
    rcases (hiff id a).mp ha with ⟨hmem, hidA⟩ | ⟨-, hknown, -⟩
    · exact ⟨by simpa [hinsts] using h.bound a hmem, hidA⟩
    · refine ⟨?_, h.id_eq hs.indexed hknown⟩
      simpa [hinsts] using Nat.lt_of_lt_of_le (hs.indexed id a hknown).1 h.frame.le
  · rw [hid, hiff]
    by_cases hmem : a ∈ newAccs
    · exact .inl ⟨hmem, rfl⟩
    · have hk : k ≠ gid := by
        rintro rfl
        exact hmem (hself ▸ ha)
      rw [hother k hk] at ha
      have hknown := hs.members k a ha
      rw [h.id_eq hs.indexed hknown]
      exact .inr ⟨mt (h.mem_iff hs.indexed hknown).mpr hmem, hknown, k, hk, ha⟩
  · rcases (hiff id a).mp ha with ⟨hmem, -⟩ | ⟨-, -, k, hk, hmem⟩
    · exact ⟨gid, hself ▸ hmem⟩
    · exact ⟨k, hother k hk ▸ hmem⟩
  · rw [view, hinsts]
    have hafter : a ∈ t.accountsOf k' ↔ if k' = gid then a ∈ newAccs else a ∈ s.accountsOf k' := by
      by_cases hk' : k' = gid
      · simp [hk', hself]
      · simp [hk', hother k' hk']
    rw [hafter]
    cases hknown : s.byID (insts.get a).id with
    | some o =>
      have hao : o = a := by
        by_cases hmem : a ∈ newAccs
        · exact (h.reused a hmem o hknown).symm
        · have hk : k ≠ gid := by
            rintro rfl
            exact hmem (hself ▸ ha)
          have hmember := hs.members k a (hother k hk ▸ ha)
          rw [h.id_eq hs.indexed hmember] at hknown
          exact Option.some.inj (hknown.symm.trans hmember)
      subst hao
      rw [h.mem_groupIDs_iff hs hcons gid hknown k', h.mem_iff hs.indexed hknown]
    | none =>
      -- The account is new, so that no other group has it.
      have hfresh : ∀ k, a ∉ s.accountsOf k := by
        intro k hk
        have hmember := hs.members k a hk
        rw [h.id_eq hs.indexed hmember, hmember] at hknown
        cases hknown
      have hmem : a ∈ newAccs := by
        by_cases hk : k = gid
        · subst hk
          exact hself ▸ ha
        · exact absurd (hother k hk ▸ ha) (hfresh k)
      rw [groupIDs_of_fresh gid hmem hknown]
      by_cases hk' : k' = gid <;> simp [hmem, hfresh]

end GroupLoad

/-- A rebuild that is not published leaves the map and the groups alone, so that the snapshot is
consistent exactly if the new views list the groups there are. -/
theorem Extends.valid_and_consistent_iff (h : s.Extends t) (hs : s.Valid) (hbounded : s.Bounded)
    (hinsts : ∀ id a, s.byID id = some a → a < t.insts.next ∧ (t.insts.get a).id = id) :
    t.Valid ∧ (t.Consistent ↔
      ∀ id a, s.byID id = some a → ∀ k, k ∈ (t.view a).groupIDs ↔ a ∈ s.accountsOf k) := by
  have haccounts := h.accountsOf hbounded
  refine ⟨⟨h.byID ▸ hinsts, fun k a ha => ?_, fun id a ha => ?_⟩, fun hcons id a ha k => ?_,
    fun hviews k a ha k' => ?_⟩
  · have hmember := hs.members k a (haccounts k ▸ ha)
    rw [h.byID, show t.idOf a = s.idOf a from (hinsts _ a hmember).2]
    exact hmember
  · obtain ⟨k, hk⟩ := hs.listed id a (h.byID ▸ ha)
    exact ⟨k, haccounts k ▸ hk⟩
  · obtain ⟨k', hk'⟩ := hs.listed id a ha
    rw [← haccounts k]
    exact hcons k' a (haccounts k' ▸ hk') k
  · rw [haccounts k']
    exact hviews _ a (hs.members k a (haccounts k ▸ ha)) k'

theorem reload_failed_iff (env : SnapshotEnv) (hs : s.Valid) (hbounded : s.Bounded)
    (hcons : s.Consistent) (m : LoadedGroups) :
    (reload env s (some m) none).Valid ∧ ((reload env s (some m) none).Consistent ↔
      ∀ id a, s.byID id = some a → gidsOf (loadedRows m.groups) id ≠ [] →
        ∀ k, k ∈ gidsOf (loadedRows m.groups) id ↔ a ∈ s.accountsOf k) := by
  have h := built_buildSnapshots env hs.indexed m.nodup
  have hvalid := h.extends.valid_and_consistent_iff hs hbounded fun id a ha =>
    ⟨Nat.lt_of_lt_of_le (hs.indexed id a ha).1 h.placed.frame.le, h.placed.id_of_old hs.indexed ha⟩
  refine ⟨hvalid.1, hvalid.2.trans ?_⟩
  refine forall_congr' fun id => forall_congr' fun a => forall_congr' fun ha => ?_
  have hview : ((buildSnapshots env s.byID { s } m.groups).s.view a).groupIDs = _ :=
    h.placed.groupIDs_of_old hs.indexed ha
  rw [hview]
  split
  next hnil =>
    have hmember := fun k => mem_groupIDs_iff hs hcons ha (k := k)
    exact iff_of_true hmember fun hne => absurd hnil hne
  next hne => simp [hne]

section
variable (env : SnapshotEnv) (gid : Int) (rows : List Account)

theorem valid_regroupLoaded (hs : s.Valid) (hbounded : s.Bounded) (hcons : s.Consistent) :
    (regroupLoaded env s gid rows).published.Valid ∧
      (regroupLoaded env s gid rows).published.Consistent :=
  (groupLoad_newAccounts env gid rows hs.indexed).valid_regrouped hs hcons rfl rfl
    (accountsOf_regroupLoaded_self env gid rows)
    fun _ hk => accountsOf_regroupLoaded_of_ne env gid rows hs.indexed hbounded hk

theorem rebuildLoaded_agrees (hs : s.Valid) (hbounded : s.Bounded) (hcons : s.Consistent) :
    (regroupLoaded env s gid rows).published.Agrees (rebuildLoaded env s gid rows).published := by
  obtain ⟨hvalid, -⟩ := valid_regroupLoaded env gid rows hs hbounded hcons
  refine copyGroups_agrees env (bounded_regroupLoaded env gid rows hs.indexed hbounded) ?_ _
  intro k a ha ns hns hid
  rw [← accountsOf_regroupLoaded_self] at hns
  have hsame := hvalid.members k a ha
  rw [hid, hvalid.members gid ns hns] at hsame
  exact (Option.some.inj hsame).symm

theorem invalidateGroup_failed_iff (hs : s.Valid) (hbounded : s.Bounded) (hcons : s.Consistent) :
    (rebuildLoaded env s gid rows).s.Valid ∧ ((rebuildLoaded env s gid rows).s.Consistent ↔
      ∀ id a, s.byID id = some a → (Loads rows id ↔ a ∈ s.accountsOf gid)) := by
  have hload := groupLoad_newAccounts env gid rows hs.indexed
  have hinsts := insts_rebuildLoaded env gid rows (s := s)
  have hvalid := (extends_rebuildLoaded env gid rows hs.indexed).valid_and_consistent_iff hs
    hbounded fun id a ha => by
      rw [hinsts, next_regroupedInsts, id_regroupedInsts]
      exact ⟨Nat.lt_of_lt_of_le (hs.indexed id a ha).1 hload.frame.le, hload.id_eq hs.indexed ha⟩
  refine ⟨hvalid.1, hvalid.2.trans ?_⟩
  refine forall_congr' fun id => forall_congr' fun a => forall_congr' fun ha => ?_
  simp only [view, hinsts, hload.mem_groupIDs_iff hs hcons gid ha]
  constructor
  · intro h
    simpa using h gid
  · intro h k
    by_cases hk : k = gid
    · subst hk
      simpa using h
    · simp [hk]

end

theorem sameViews_modify {f : AccountSnapshot → AccountSnapshot}
    (hid : ∀ inst, (f inst).id = inst.id)
    (hgids : ∀ inst, (f inst).static.groupIDs = inst.static.groupIDs) :
    s.SameViews { s with insts := s.insts.modify a f } := by
  refine ⟨rfl, fun _ => rfl, rfl, fun x => ?_, fun x => ?_⟩
  all_goals
    by_cases hx : x = a
    · subst hx
      simp [hid, hgids]
    · simp [Heap.get_modify_of_ne _ hx]

/-- An account that both snapshots have is the same instance in both. -/
def Keeps (s t : Scheduler) : Prop :=
  ∀ id a a', s.byID id = some a → t.byID id = some a' → a' = a

theorem keeps_of_byID_eq (h : t.byID = s.byID) : s.Keeps t := by
  intro id a a' ha ha'
  exact Option.some.inj (ha'.symm.trans (h ▸ ha))

/-- A rebuild that fails at the pools has loaded the known accounts in the groups that the published
snapshot has them in. -/
def LoadsAgree (s : Scheduler) : SnapshotOp → Prop
  | .reload (some m) none => ∀ id a, s.byID id = some a → gidsOf (loadedRows m.groups) id ≠ [] →
      ∀ k, k ∈ gidsOf (loadedRows m.groups) id ↔ a ∈ s.accountsOf k
  | .invalidateGroup gid (some rows) none =>
      ∀ id a, s.byID id = some a → (Loads rows id ↔ a ∈ s.accountsOf gid)
  | _ => True

/-- What is known of a state before a step. -/
structure Inv (s : Scheduler) : Prop where
  valid : s.Valid
  bounded : s.Bounded

theorem Inv.clear (h : s.Inv) : Inv { s with writes := [] } :=
  ⟨h.valid.of_sameViews ⟨rfl, fun _ => rfl, rfl, fun _ => rfl, fun _ => rfl⟩, h.bounded⟩

section
variable (env : SnapshotEnv) (h : s.Inv) (hcons : s.Consistent)
include h

theorem reload_spec (m : LoadedGroups) (configs : List (Int × GroupConfig)) :
    (reload env s (some m) (some configs)).Inv ∧
    (reload env s (some m) (some configs)).Consistent ∧
    s.Keeps (reload env s (some m) (some configs)) := by
  obtain ⟨hvalid, hconsistent, hbounded⟩ := valid_buildSnapshots env h.valid.indexed m
  obtain ⟨hagrees, hbounded'⟩ := publish_agrees env hbounded configs
  have hviews := hagrees.sameViews
  refine ⟨⟨hvalid.of_sameViews hviews, hbounded'⟩, hconsistent.of_sameViews hviews, ?_⟩
  intro id a a' ha ha'
  exact (built_buildSnapshots env h.valid.indexed m.nodup).placed.reused id a' a ha' ha

include hcons

theorem invalidateGroup_spec (gid : Int) (rows : List Account)
    (configs : List (Int × GroupConfig)) :
    (invalidateGroup env s gid (some rows) (some configs)).Inv ∧
    (invalidateGroup env s gid (some rows) (some configs)).Consistent ∧
    s.Keeps (invalidateGroup env s gid (some rows) (some configs)) := by
  obtain ⟨hvalid, hconsistent⟩ := valid_regroupLoaded env gid rows h.valid h.bounded hcons
  have hcopied := rebuildLoaded_agrees env gid rows h.valid h.bounded hcons
  obtain ⟨hagrees, hbounded'⟩ := publish_agrees env
    (bounded_rebuildLoaded env gid rows h.valid.indexed h.bounded) configs
  have hagrees := hcopied.trans hagrees
  have hviews := hagrees.sameViews
  refine ⟨⟨hvalid.of_sameViews hviews, hbounded'⟩, hconsistent.of_sameViews hviews, ?_⟩
  intro id a a' ha ha'
  have hload := groupLoad_newAccounts env gid rows h.valid.indexed
  have hbyID : (regroupLoaded env s gid rows).byID id = some a' :=
    (congrFun hagrees.byID id).symm.trans ha'
  rcases (hload.regroupedByID_iff h.valid hcons gid id a').mp hbyID with ⟨hmem, rfl⟩ | ⟨-, ha'', -⟩
  · exact hload.reused a' hmem a ha
  · exact Option.some.inj (ha''.symm.trans ha)

theorem weigh_spec (id weight : Int) :
    (weigh env s id weight).Inv ∧ (weigh env s id weight).Consistent ∧
      s.Keeps (weigh env s id weight) := by
  simp only [weigh]
  split
  · exact ⟨h, hcons, keeps_of_byID_eq rfl⟩
  next a ha =>
    have hviews := sameViews_modify (s := s) (a := a) (f := (·.withWeight weight))
      (fun _ => rfl) fun _ => rfl
    obtain ⟨hagrees, hbounded⟩ := rebuildGroups_agrees env
      (s := { s with insts := s.insts.modify a (·.withWeight weight) }) h.bounded
      (s.view a).groupIDs
    exact ⟨⟨(h.valid.of_sameViews hviews).of_sameViews hagrees.sameViews, hbounded⟩,
      (hcons.of_sameViews hviews).of_sameViews hagrees.sameViews, keeps_of_byID_eq hagrees.byID⟩

theorem setState_spec (id : Int) (st : AccState) :
    (setState s id st).Inv ∧ (setState s id st).Consistent ∧ s.Keeps (setState s id st) := by
  simp only [setState]
  split
  · exact ⟨h, hcons, keeps_of_byID_eq rfl⟩
  next a ha =>
    have hviews := sameViews_modify (s := s) (a := a) (f := fun inst => { inst with state := st })
      (fun _ => rfl) fun _ => rfl
    exact ⟨⟨h.valid.of_sameViews hviews, h.bounded⟩, hcons.of_sameViews hviews,
      keeps_of_byID_eq rfl⟩

theorem step_spec (op : SnapshotOp) :
    (step env s op).Inv ∧ ((step env s op).Consistent ↔ s.LoadsAgree op) ∧
      s.Keeps (step env s op) := by
  have h' := h.clear
  have hcons' : Consistent { s with writes := [] } := hcons
  have hdone : ∀ {t : Scheduler}, t.Inv ∧ t.Consistent ∧ s.Keeps t →
      t.Inv ∧ (t.Consistent ↔ True) ∧ s.Keeps t := fun ht => ⟨ht.1, iff_true_intro ht.2.1, ht.2.2⟩
  match op with
  | .reload none _ | .invalidateGroup _ none _ =>
    exact ⟨h', iff_of_true hcons' trivial, keeps_of_byID_eq rfl⟩
  | .reload (some m) none =>
    have hext := (built_buildSnapshots env h'.valid.indexed m.nodup).extends
    obtain ⟨hvalid, hiff⟩ := reload_failed_iff env h'.valid h'.bounded hcons' m
    exact ⟨⟨hvalid, hext.bounded h'.bounded⟩, hiff, keeps_of_byID_eq hext.byID⟩
  | .invalidateGroup gid (some rows) none =>
    have hext := extends_rebuildLoaded env gid rows h'.valid.indexed
    obtain ⟨hvalid, hiff⟩ := invalidateGroup_failed_iff env gid rows h'.valid h'.bounded hcons'
    exact ⟨⟨hvalid, hext.bounded h'.bounded⟩, hiff, keeps_of_byID_eq hext.byID⟩
  | .reload (some m) (some configs) => exact hdone (reload_spec env h' m configs)
  | .invalidateGroup gid (some rows) (some configs) =>
    exact hdone (invalidateGroup_spec env h' hcons' gid rows configs)
  | .weigh id weight => exact hdone (weigh_spec env h' hcons' id weight)
  | .setState id st => exact hdone (setState_spec h' hcons' id st)

end

/-- Every account of a group or of one of its routes is the instance of the map, with a view that
lists the groups it is in. -/
def Sound (s : Scheduler) : Prop :=
  ∀ k o, s.groups k = some o → ∀ a,
    (a ∈ (s.objs.get o).accounts ∨ ∃ e ∈ (s.objs.get o).routes, a ∈ e.2.members) →
    s.byID (s.idOf a) = some a ∧ ∀ k', k' ∈ (s.view a).groupIDs ↔ a ∈ s.accountsOf k'

theorem Inv.sound_iff (h : s.Inv) : s.Sound ↔ s.Consistent := by
  constructor
  · intro hsound k a ha
    obtain ⟨o, ho, ha⟩ := mem_accountsOf.mp ha
    exact (hsound k o ho a (.inl ha)).2
  · intro hcons k o ho a ha
    have ha : a ∈ s.accountsOf k := by
      rw [accountsOf_of_some ho]
      rcases ha with ha | ⟨e, he, ha⟩
      · exact ha
      · exact (h.bounded k o ho).2 e he a ha
    exact ⟨h.valid.members k a ha, hcons k a ha⟩

theorem Inv.empty : Inv {} where
  valid := ⟨fun _ _ h => absurd h (by simp), fun _ _ h => absurd h not_mem_nil,
    fun _ _ h => absurd h (by simp)⟩
  bounded := fun _ _ h => absurd h (by simp)

theorem consistent_empty : Consistent {} := fun _ _ h => absurd h not_mem_nil

/-- Every run keeps the groups, the map of accounts and their views in agreement, and the instance
of every account, if and only if no rebuild fails after it has loaded an account in other groups.
-/
theorem sound_and_keeps_iff (env : SnapshotEnv) (ops : List SnapshotOp) :
    ((∀ t ∈ Run.states (step env) {} ops, t.Sound) ∧
      Run.Each (step env) (fun s op => s.Keeps (step env s op)) {} ops) ↔
    Run.Each (step env) LoadsAgree {} ops := by
  have hstates : (∀ t ∈ Run.states (step env) {} ops, t.Sound) ↔
      Run.Each (step env) LoadsAgree {} ops :=
    Run.each_iff_states Inv Sound
      (fun s op h hsound => (step_spec env h (h.sound_iff.mp hsound) op).1)
      (fun s op h hsound =>
        have hspec := step_spec env h (h.sound_iff.mp hsound) op
        hspec.1.sound_iff.trans hspec.2.1)
      .empty (Inv.empty.sound_iff.mpr consistent_empty)
  refine ⟨fun h => hstates.mp h.1, fun h => ⟨hstates.mpr h, ?_⟩⟩
  -- A step that meets the condition leads to a state in agreement, from which the next one starts.
  refine Run.Each.imp (fun s => s.Inv ∧ s.Consistent) (fun s op hs hop => ?_)
    (fun s op hs _ => (step_spec env hs.1 hs.2 op).2.2) h ⟨.empty, consistent_empty⟩
  have hspec := step_spec env hs.1 hs.2 op
  exact ⟨hspec.1, hspec.2.1.mpr hop⟩

/-- Texts as they are, and no pools. -/
def plainEnv : SnapshotEnv where
  defaultMaxConcurrency := 10
  normalizeUpstreamEndpoint := id
  sanitizedUpstreamHost := id
  normalizeUpstreamKey := id
  buildModelAliases := fun _ _ => []
  buildUpstreamRoutes := fun _ _ => []

/-- An account of two groups is taken out of the first, and the load of the pools fails. -/
def failedRemoval : List SnapshotOp :=
  let a : Account := { id := 7, template := some { id := 1, supportedFormats := [.openaiChat] } }
  [.reload (some ⟨[(1, [a]), (2, [a])], by decide⟩) (some []), .invalidateGroup 1 (some []) none]

theorem failedRemoval_unsound :
    let s := failedRemoval.foldl (step plainEnv) {}
    s.byID 7 = some 0 ∧ s.accountsOf 1 = [0] ∧ s.accountsOf 2 = [0] ∧
      (s.view 0).groupIDs = [2] ∧ ¬s.Sound := by
  refine ⟨by decide, by decide, by decide, by decide, fun h => ?_⟩
  have hgids := (h 1 0 (by decide) 0 (by decide)).2 1
  exact absurd hgids (by decide)

end C4Gateway.Scheduler
