import C4Gateway.Scheduler.Membership

/-! What a rebuild does to the generation that is published while it runs.  The maps are replaced
at its end, but instances of accounts and objects of groups are shared: a rebuild that fails has
already given the known accounts new views, and one of a single group writes the pools of the
others in place. -/

namespace C4Gateway

open List

/-- What `SelectExcluding` checks of an account, what `Classify` takes from it, and its weight. -/
structure Seen where
  id : Int
  upstreamEnabled : Bool
  maxConcurrency : Int
  status : AccountStatus
  cooldownUntil : Option Int
  templateID : Int
  gid : Int
  weight : Int
  deriving DecidableEq

def AccountSnapshot.seen (inst : AccountSnapshot) : Seen where
  id := inst.id
  upstreamEnabled := inst.static.upstreamEnabled
  maxConcurrency := inst.static.acc.maxConcurrency
  status := inst.state.status
  cooldownUntil := inst.state.cooldownUntil
  templateID := inst.static.acc.templateID
  gid := inst.static.gid
  weight := inst.static.acc.weight

/-- Whether the account can be reached: it is not bound to an upstream, or to one that is there and
enabled. -/
def Account.upstreamUsable (env : SnapshotEnv) (a : Account) : Bool :=
  a.upstreamID.isNone || a.upstream.any fun u =>
    u.deletedAt.isNone && u.enabled && env.normalizeUpstreamEndpoint u.baseURL ≠ ""

/-- The row of an account, in the group where a load has it first, says what is published. -/
@[mk_iff]
structure Account.Unchanged (env : SnapshotEnv) (row : Account) (gid : Int)
    (inst : AccountSnapshot) : Prop where
  upstreamEnabled : row.upstreamUsable env = inst.static.upstreamEnabled
  maxConcurrency : (if row.maxConcurrency ≤ 0 then env.defaultMaxConcurrency
    else row.maxConcurrency) = inst.static.acc.maxConcurrency
  status : row.status = inst.state.status
  cooldownUntil : ∀ c, row.cooldownUntil = some c → inst.state.cooldownUntil = some c
  templateID : row.templateID = inst.static.acc.templateID
  gid : gid = inst.static.gid
  weight : row.weight = inst.static.acc.weight

section
variable (env : SnapshotEnv) (a : Account) (gid : Int)

theorem effectiveStatic_spec : (effectiveStatic env a gid).gid = gid ∧
    (effectiveStatic env a gid).upstreamEnabled = a.upstreamUsable env ∧
    (effectiveStatic env a gid).acc.templateID = a.templateID ∧
    (effectiveStatic env a gid).acc.weight = a.weight ∧
    (effectiveStatic env a gid).acc.maxConcurrency = a.maxConcurrency := by
  simp only [effectiveStatic]
  split
  next h => simp [Account.upstreamUsable, h]
  next h h' => simp [Account.upstreamUsable, h, h']
  next u h h' =>
    have husable : a.upstreamUsable env = !decide (u.deletedAt.isSome ∨ ¬u.enabled ∨
        env.normalizeUpstreamEndpoint u.baseURL = "") := by
      cases hdeleted : u.deletedAt <;> cases henabled : u.enabled <;>
        simp [Account.upstreamUsable, h, h', hdeleted, henabled]
    split
    next hoff => exact ⟨rfl, by rw [husable, decide_eq_true hoff]; rfl, rfl, rfl, rfl⟩
    next hon => exact ⟨rfl, by rw [husable, decide_eq_false hon]; rfl, rfl, rfl, rfl⟩

theorem firstStatic_spec : (firstStatic env a gid).gid = gid ∧
    (firstStatic env a gid).upstreamEnabled = a.upstreamUsable env ∧
    (firstStatic env a gid).acc.templateID = a.templateID ∧
    (firstStatic env a gid).acc.weight = a.weight ∧
    (firstStatic env a gid).acc.maxConcurrency =
      if a.maxConcurrency ≤ 0 then env.defaultMaxConcurrency else a.maxConcurrency := by
  obtain ⟨hgid, henabled, htemplate, hweight, hmax⟩ := effectiveStatic_spec env a gid
  simp only [firstStatic]
  split <;> simp [*]

/-- What is published of a known account: its row, and the state it had. -/
theorem seen_firstStatic_iff {inst : AccountSnapshot} (hid : inst.id = a.id) (gids : List Int) :
    AccountSnapshot.seen ⟨{ firstStatic env a gid with groupIDs := gids }, inst.state.sync a⟩ =
      inst.seen ↔ a.Unchanged env gid inst := by
  obtain ⟨hgid, henabled, htemplate, hweight, hmax⟩ := firstStatic_spec env a gid
  have hcooldown : a.cooldownUntil.or inst.state.cooldownUntil = inst.state.cooldownUntil ↔
      ∀ c, a.cooldownUntil = some c → inst.state.cooldownUntil = some c := by
    cases a.cooldownUntil <;> simp [eq_comm]
  simp only [AccountSnapshot.seen, AccountSnapshot.id, AccState.sync, Seen.mk.injEq,
    firstStatic_fields, hgid, henabled, htemplate, hweight, hmax, hcooldown, Account.unchanged_iff]
  exact and_iff_right hid.symm

end

namespace Scheduler

/-- What holds of every state that is reached: the maps lead to instances and objects that exist. -/
structure Grounded (s : Scheduler) : Prop where
  indexed : Indexed s.byID s.insts
  bounded : s.Bounded
  accounts : ∀ k, ∀ a ∈ s.accountsOf k, a < s.insts.next

variable {s t : Scheduler} {b : Rebuild}

theorem Grounded.clear (h : s.Grounded) : Grounded { s with writes := [] } :=
  { h with }

theorem Grounded.of_agrees (h : s.Grounded) (hst : s.Agrees t) (hbounded : t.Bounded) :
    t.Grounded where
  indexed := by
    rw [hst.byID, hst.insts]
    exact h.indexed
  bounded := hbounded
  accounts k a ha := by
    rw [hst.insts]
    exact h.accounts k a (hst.accounts k ▸ ha)

theorem Grounded.of_extends (h : s.Grounded) (hext : s.Extends t)
    (hle : s.insts.next ≤ t.insts.next)
    (hid : ∀ id a, s.byID id = some a → (t.insts.get a).id = id) : t.Grounded where
  indexed id a ha := by
    rw [hext.byID] at ha
    exact ⟨Nat.lt_of_lt_of_le (h.indexed id a ha).1 hle, hid id a ha⟩
  bounded := hext.bounded h.bounded
  accounts k a ha := by
    rw [hext.accountsOf h.bounded] at ha
    exact Nat.lt_of_lt_of_le (h.accounts k a ha) hle

variable {a : Nat} (env : SnapshotEnv)

theorem Grounded.modify (h : s.Grounded) {f : AccountSnapshot → AccountSnapshot}
    (hf : ∀ inst, (f inst).id = inst.id) : Grounded { s with insts := s.insts.modify a f } := by
  refine ⟨fun id x hx => ⟨(h.indexed id x hx).1, ?_⟩, h.bounded, h.accounts⟩
  have hid := (h.indexed id x hx).2
  by_cases heq : x = a
  · subst heq
    simpa [hf] using hid
  · simpa [Heap.get_modify_of_ne _ heq] using hid

theorem grounded_copyGroups {newAccs : List Nat} (h : b.published.Grounded)
    (hnew : ∀ ns ∈ newAccs, ns < b.s.insts.next) (gids : List Int) :
    (gids.foldl (copyGroup env newAccs) b).published.Grounded := by
  induction gids generalizing b with
  | nil => exact h
  | cons gid gids ih =>
    have hinsts := insts_copyGroup env newAccs b gid
    refine ih ⟨?_, bounded_copyGroup env h.bounded newAccs gid, fun k a ha => ?_⟩ (hinsts ▸ hnew)
    · show Indexed (copyGroup env newAccs b gid).byID (copyGroup env newAccs b gid).s.insts
      rw [byID_copyGroup, hinsts]
      exact h.indexed
    · show a < (copyGroup env newAccs b gid).s.insts.next
      rw [accountsOf_copyGroup env h.bounded] at ha
      rw [hinsts]
      split at ha
      · rcases mem_of_mem_replaceAccounts ha with ha | ha
        · exact h.accounts k a ha
        · exact hnew a ha
      · exact h.accounts k a ha

theorem grounded_regroupLoaded (h : s.Grounded) (gid : Int) (rows : List Account) :
    (regroupLoaded env s gid rows).published.Grounded := by
  have hload := groupLoad_newAccounts env gid rows h.indexed
  have hnext : (regroupLoaded env s gid rows).published.insts.next =
      (loadGroup env s gid rows).s.insts.next := next_regroupedInsts ..
  refine ⟨fun id a ha => ?_, bounded_regroupLoaded env gid rows h.indexed h.bounded,
    fun k a ha => ?_⟩
  · have hid : ((regroupLoaded env s gid rows).published.insts.get a).id =
        ((loadGroup env s gid rows).s.insts.get a).id := id_regroupedInsts ..
    rw [hnext, hid]
    rcases hload.of_regroupedByID ha with ⟨hmem, heq⟩ | hknown
    · exact ⟨hload.bound a hmem, heq⟩
    · exact ⟨Nat.lt_of_lt_of_le (h.indexed id a hknown).1 hload.frame.le,
        hload.id_eq h.indexed hknown⟩
  · rw [hnext]
    by_cases hk : k = gid
    · subst hk
      rw [accountsOf_regroupLoaded_self] at ha
      exact hload.bound a ha
    · rw [accountsOf_regroupLoaded_of_ne env gid rows h.indexed h.bounded hk] at ha
      exact Nat.lt_of_lt_of_le (h.accounts k a ha) hload.frame.le

theorem grounded_rebuildLoaded (h : s.Grounded) (gid : Int) (rows : List Account) :
    (rebuildLoaded env s gid rows).published.Grounded := by
  refine grounded_copyGroups env (grounded_regroupLoaded env h gid rows) (fun ns hns => ?_) _
  have hbound := (groupLoad_newAccounts env gid rows h.indexed).bound ns hns
  simpa [regroupLoaded] using hbound

theorem Grounded.publish (h : b.published.Grounded) (configs : List (Int × GroupConfig)) :
    (publish env b (some configs)).Grounded := by
  obtain ⟨hagrees, hbounded⟩ := publish_agrees env h.bounded configs
  exact h.of_agrees hagrees hbounded

theorem Grounded.rebuildGroups (h : s.Grounded) (gids : List Int) :
    (rebuildGroups env s gids).Grounded := by
  obtain ⟨hagrees, hbounded⟩ := rebuildGroups_agrees env h.bounded gids
  exact h.of_agrees hagrees hbounded

theorem Inv.grounded (h : s.Inv) : s.Grounded :=
  ⟨h.valid.indexed, h.bounded, fun k a ha => (h.valid.indexed _ a (h.valid.members k a ha)).1⟩

theorem step_grounded (h : s.Grounded) (op : SnapshotOp) : (step env s op).Grounded := by
  have h' := h.clear
  match op with
  | .reload none _ | .invalidateGroup _ none _ => exact h'
  | .reload (some m) none =>
    have hbuilt := built_buildSnapshots env h'.indexed m.nodup
    exact h'.of_extends hbuilt.extends hbuilt.placed.frame.le fun id a ha =>
      hbuilt.placed.id_of_old h'.indexed ha
  | .invalidateGroup gid (some rows) none =>
    have hload := groupLoad_newAccounts env gid rows h'.indexed
    refine h'.of_extends (extends_rebuildLoaded env gid rows h'.indexed) ?_ fun id a ha => ?_
    · show _ ≤ (rebuildLoaded env _ gid rows).s.insts.next
      rw [insts_rebuildLoaded, next_regroupedInsts]
      exact hload.frame.le
    · show ((rebuildLoaded env _ gid rows).s.insts.get a).id = id
      rw [insts_rebuildLoaded, id_regroupedInsts]
      exact hload.id_eq h'.indexed ha
  | .reload (some m) (some configs) =>
    obtain ⟨hvalid, -, hbounded⟩ := valid_buildSnapshots env h'.indexed m
    exact Grounded.publish env (Inv.grounded ⟨hvalid, hbounded⟩) configs
  | .invalidateGroup gid (some rows) (some configs) =>
    exact Grounded.publish env (grounded_rebuildLoaded env h' gid rows) configs
  | .weigh id weight =>
    simp only [step, weigh]
    split
    · exact h'
    · exact (h'.modify (f := (·.withWeight weight)) fun _ => rfl).rebuildGroups env _
  | .setState id st =>
    simp only [step, setState]
    split
    · exact h'
    · exact h'.modify fun _ => rfl

theorem reached_grounded (ops : List SnapshotOp) : (ops.foldl (step env) {}).Grounded :=
  Run.states_inv Grounded (fun _ op h => step_grounded env h op) Inv.empty.grounded _
    Run.foldl_mem_states

/-- An instance of the published maps and groups. -/
def Published (s : Scheduler) (a : Nat) : Prop :=
  (∃ id, s.byID id = some a) ∨ ∃ k, a ∈ s.accountsOf k

theorem Grounded.lt_of_published (h : s.Grounded) (ha : s.Published a) : a < s.insts.next := by
  rcases ha with ⟨id, ha⟩ | ⟨k, ha⟩
  · exact (h.indexed id a ha).1
  · exact h.accounts k a ha

/-- Two instances that no reader tells apart; `processWrite` takes the groups as a set. -/
def SameSeen (x y : AccountSnapshot) : Prop :=
  x.seen = y.seen ∧ ∀ k, k ∈ x.static.groupIDs ↔ k ∈ y.static.groupIDs

theorem SameSeen.refl (x : AccountSnapshot) : SameSeen x x := ⟨rfl, fun _ => Iff.rfl⟩

/-- The generation published in `s` is there in `t` as it was: the maps, the groups with their
routes and pools, and what is seen of the accounts. -/
structure Intact (s t : Scheduler) : Prop where
  groups : t.groups = s.groups
  byID : t.byID = s.byID
  upstreams : t.upstreams = s.upstreams
  ups : t.ups = s.ups
  objs : ∀ k o, s.groups k = some o → t.objs.get o = s.objs.get o
  accounts : ∀ a, s.Published a → SameSeen (t.insts.get a) (s.insts.get a)

theorem Extends.intact_iff (h : s.Extends t) (hs : s.Grounded) :
    s.Intact t ↔ ∀ a, s.Published a → SameSeen (t.insts.get a) (s.insts.get a) := by
  refine ⟨Intact.accounts, fun haccounts => ⟨h.groups, h.byID, ?_, ?_, fun k o ho => ?_, haccounts⟩⟩
  · rw [h.same]
  · rw [h.same]
  · exact h.objs.get o (hs.bounded k o ho).1 fun hfalse => hfalse

/-- Each known account of a load has what is published of it in its first row. -/
def RowsUnchanged (env : SnapshotEnv) (s : Scheduler) (rows : List (Int × Account)) : Prop :=
  ∀ id a e, s.byID id = some a → firstRow rows id = some e →
    e.2.Unchanged env e.1 (s.insts.get a)

/-- A rebuild that fails at its first load, which is `none` then, or at the pools. -/
inductive FailedRebuild where
  | reload (accounts : Option LoadedGroups)
  | invalidateGroup (gid : Int) (accounts : Option (List Account))

def FailedRebuild.op : FailedRebuild → SnapshotOp
  | .reload accounts => .reload accounts none
  | .invalidateGroup gid accounts => .invalidateGroup gid accounts none

/-- The rows loaded before the failure change neither a known account nor its groups, and none of
the reloaded group is missing that its view would lose. -/
def LoadsSame (env : SnapshotEnv) (s : Scheduler) : FailedRebuild → Prop
  | .reload none | .invalidateGroup _ none => True
  | .reload (some m) => s.RowsUnchanged env (loadedRows m.groups) ∧
      ∀ id a, s.byID id = some a → gidsOf (loadedRows m.groups) id ≠ [] →
        ∀ k, k ∈ gidsOf (loadedRows m.groups) id ↔ k ∈ (s.view a).groupIDs
  | .invalidateGroup gid (some rows) => s.RowsUnchanged env (loadedRows [(gid, rows)]) ∧
      (∀ id a, s.byID id = some a → Loads rows id → gid ∈ (s.view a).groupIDs) ∧
      ∀ a ∈ s.accountsOf gid, ¬Loads rows (s.idOf a) →
        ∀ k, k ∈ s.otherGids gid (s.idOf a) ↔ k ∈ (s.view a).groupIDs

theorem loads_iff (gid : Int) (rows : List Account) (id : Int) :
    Loads rows id ↔ ∃ e, firstRow (loadedRows [(gid, rows)]) id = some e := by
  rw [← Option.ne_none_iff_exists', ne_eq, firstRow_eq_none]
  simp [loadedRows, Loads]

section
variable (env : SnapshotEnv) (hs : s.Grounded)
include hs

theorem seen_placedInst_iff {rows : List (Int × Account)} {id : Int} {e : Int × Account}
    (ha : s.byID id = some a) (he : firstRow rows id = some e) :
    (placedInst env s.byID s.insts rows e).seen = (s.insts.get a).seen ↔
      e.2.Unchanged env e.1 (s.insts.get a) := by
  have hid := id_of_firstRow he
  rw [← seen_firstStatic_iff env e.2 e.1 ((hs.indexed id a ha).2.trans hid.symm)
    (gidsOf rows e.2.id)]
  simp [placedInst, hid, ha]

theorem reload_intact_iff (m : LoadedGroups) :
    s.Intact (reload env s (some m) none) ↔ s.LoadsSame env (.reload (some m)) := by
  have h := built_buildSnapshots env hs.indexed m.nodup
  have hgids : ∀ {id e}, firstRow (loadedRows m.groups) id = some e →
      (placedInst env s.byID s.insts (loadedRows m.groups) e).static.groupIDs =
        gidsOf (loadedRows m.groups) id := fun he => by rw [← id_of_firstRow he]; rfl
  refine (h.extends.intact_iff hs).trans
    ⟨fun hsame => ⟨fun id a e ha he => ?_, fun id a ha hne => ?_⟩, fun ⟨hrows, hmember⟩ a ha => ?_⟩
  · have hseen := hsame a (.inl ⟨id, ha⟩)
    rw [h.placed.get_of_old hs.indexed ha, he] at hseen
    exact (seen_placedInst_iff env hs ha he).mp hseen.1
  · obtain ⟨e, he⟩ := Option.ne_none_iff_exists'.mp (mt gidsOf_eq_nil.mpr hne)
    have hseen := hsame a (.inl ⟨id, ha⟩)
    rw [h.placed.get_of_old hs.indexed ha, he] at hseen
    exact hgids he ▸ hseen.2
  · by_cases hknown : ∃ id, s.byID id = some a
    · obtain ⟨id, hid⟩ := hknown
      rw [h.placed.get_of_old hs.indexed hid]
      split
      next e he =>
        refine ⟨(seen_placedInst_iff env hs hid he).mpr (hrows id a e hid he), ?_⟩
        rw [hgids he]
        exact hmember id a hid fun hnil => absurd (gidsOf_eq_nil.mp hnil) (by simp [he])
      · exact .refl _
    · rw [h.placed.get_of_notOld (hs.lt_of_published ha) (not_exists.mp hknown)]
      exact .refl _

/-- What a published instance is after the passes of a targeted reload. -/
theorem sameSeen_regrouped_iff (gid : Int) (rows : List Account) (ha : s.Published a) :
    SameSeen ((rebuildLoaded env s gid rows).s.insts.get a) (s.insts.get a) ↔
      (s.byID (s.idOf a) = some a → ∀ e, firstRow (loadedRows [(gid, rows)]) (s.idOf a) = some e →
        e.2.Unchanged env e.1 (s.insts.get a) ∧ gid ∈ (s.view a).groupIDs) ∧
      (a ∈ s.accountsOf gid → ¬Loads rows (s.idOf a) →
        ∀ k, k ∈ s.otherGids gid (s.idOf a) ↔ k ∈ (s.view a).groupIDs) := by
  have hlt := hs.lt_of_published ha
  have hload := groupLoad_newAccounts env gid rows hs.indexed
  have hplaced := (built_loadGroup env gid rows hs.indexed).placed
  have hfirst := loads_iff gid rows (s.idOf a)
  have hmem := hload.mem_newAccs_iff hs.indexed hlt
  have hdropped := hload.mem_droppedAccounts_iff hs.indexed gid hlt
  rw [insts_rebuildLoaded, get_regroupedInsts, hload.id_eq_idOf hs.indexed hlt]
  by_cases hnew : a ∈ newAccounts env s gid rows
  · -- A reused instance has the view of its row, in the group and in the others it was in.
    obtain ⟨hknown, hloads⟩ := hmem.mp hnew
    obtain ⟨e, he⟩ := hfirst.mp hloads
    have hother : s.joinedGids gid (s.idOf a) = gid :: removeGid (s.view a).groupIDs gid := by
      simp [joinedGids, otherGids, groupIDs, hknown]
    rw [if_pos hnew, hplaced.get_of_old hs.indexed hknown, he]
    simp only [hknown, hloads, not_true_eq_false, false_imp_iff, imp_true_iff, and_true,
      forall_true_left, Option.some_inj, forall_eq']
    refine and_congr (seen_placedInst_iff env hs hknown he) ?_
    simp only [AccountSnapshot.withGroupIDs, hother, removeGid, mem_cons]
    refine ⟨fun h => (h gid).mp (.inl rfl), fun h k => ?_⟩
    by_cases hk : k = gid
    · subst hk
      simpa [view] using h
    · simp [hk, view]
  · have hself := hload.frame.get a hlt hnew
    have hleft : s.byID (s.idOf a) = some a → ∀ e,
        firstRow (loadedRows [(gid, rows)]) (s.idOf a) = some e →
        e.2.Unchanged env e.1 (s.insts.get a) ∧ gid ∈ (s.view a).groupIDs := fun hknown e he =>
      absurd (hmem.mpr ⟨hknown, hfirst.mpr ⟨e, he⟩⟩) hnew
    rw [if_neg hnew, hself, and_iff_right hleft]
    split
    next hgone =>
      obtain ⟨hin, hloads⟩ := hdropped.mp hgone
      simp only [hin, hloads, not_false_eq_true, forall_true_left]
      exact and_iff_right rfl
    next hkept =>
      exact iff_of_true (.refl _) fun hin hloads => absurd (hdropped.mpr ⟨hin, hloads⟩) hkept

theorem invalidateGroup_intact_iff (gid : Int) (rows : List Account) :
    s.Intact (invalidateGroup env s gid (some rows) none) ↔
      s.LoadsSame env (.invalidateGroup gid (some rows)) := by
  refine ((extends_rebuildLoaded env gid rows hs.indexed).intact_iff hs).trans ⟨fun h => ?_,
    fun ⟨hrows, hjoined, hdropped⟩ a ha => ?_⟩
  · have hknown : ∀ id a e, s.byID id = some a → firstRow (loadedRows [(gid, rows)]) id = some e →
        e.2.Unchanged env e.1 (s.insts.get a) ∧ gid ∈ (s.view a).groupIDs := by
      intro id a e ha he
      obtain rfl : s.idOf a = id := (hs.indexed id a ha).2
      have hpublished : s.Published a := .inl ⟨_, ha⟩
      exact ((sameSeen_regrouped_iff env hs gid rows hpublished).mp (h a hpublished)).1 ha e he
    refine ⟨fun id a e ha he => (hknown id a e ha he).1, fun id a ha hloads => ?_,
      fun a ha hloads => ?_⟩
    · obtain ⟨e, he⟩ := (loads_iff gid rows id).mp hloads
      exact (hknown id a e ha he).2
    · have hpublished : s.Published a := .inr ⟨gid, ha⟩
      exact ((sameSeen_regrouped_iff env hs gid rows hpublished).mp (h a hpublished)).2 ha hloads
  · refine (sameSeen_regrouped_iff env hs gid rows ha).mpr ⟨fun hknown e he => ⟨?_, ?_⟩, hdropped a⟩
    · exact hrows _ a e hknown he
    · exact hjoined _ a hknown ((loads_iff gid rows _).mpr ⟨e, he⟩)

end

/-- A rebuild that fails leaves the published generation intact exactly if what it has loaded is
what is published. -/
theorem failed_intact_iff (env : SnapshotEnv) (ops : List SnapshotOp) (f : FailedRebuild) :
    let s := ops.foldl (step env) {}
    s.Intact (step env s f.op) ↔ s.LoadsSame env f := by
  intro s
  have hs : Grounded { s with writes := [] } := (reached_grounded env ops).clear
  have hclear : ∀ t, s.Intact t ↔ Intact { s with writes := [] } t := fun t =>
    ⟨fun h => { h with }, fun h => { h with }⟩
  rw [hclear]
  match f with
  | .reload none | .invalidateGroup _ none =>
    exact iff_of_true ⟨rfl, rfl, rfl, rfl, fun _ _ _ => rfl, fun _ _ => .refl _⟩ trivial
  | .reload (some m) => exact reload_intact_iff env hs m
  | .invalidateGroup gid (some rows) => exact invalidateGroup_intact_iff env hs gid rows

/-- A reload finds an account disabled and then fails at the pools: the account is disabled. -/
theorem failedReload_disables :
    let a : Account := { id := 7, template := some { id := 1, supportedFormats := [.openaiChat] } }
    let s := step plainEnv {} (.reload (some ⟨[(1, [a])], by decide⟩) (some []))
    let f := FailedRebuild.reload (some ⟨[(1, [{ a with status := .disabled }])], by decide⟩)
    let t := step plainEnv s f.op
    s.accountsOf 1 = [0] ∧ (s.insts.get 0).state.status = .active ∧
      t.accountsOf 1 = [0] ∧ (t.insts.get 0).state.status = .disabled ∧ ¬s.Intact t := by
  refine ⟨by decide, by decide, by decide, by decide, fun h => ?_⟩
  have hseen := (h.accounts 0 (.inl ⟨7, by decide⟩)).1
  exact absurd hseen (by decide)

/-- No object that the map of groups of `s` leads to has been changed, not even for a moment. -/
def Untouched (s t : Scheduler) : Prop :=
  ∀ k o, s.groups k = some o → t.objs.get o = s.objs.get o ∧
    ∀ w ∈ t.writes, w.1 = o → w.2 = s.objs.get o

theorem untouched_of_objs_eq (hobjs : t.objs = s.objs) (hwrites : t.writes = []) :
    s.Untouched t := fun _ _ _ =>
  ⟨by rw [hobjs], fun _ hw => absurd (hwrites ▸ hw) not_mem_nil⟩

theorem Extends.untouched (h : s.Extends t) (hs : s.Grounded) (hwrites : s.writes = []) :
    s.Untouched t := by
  intro k o ho
  have hlt := (hs.bounded k o ho).1
  refine ⟨h.objs.get o hlt fun hfalse => hfalse, fun w hw heq => ?_⟩
  rcases h.writes w hw with hw | hw
  · simp [hwrites] at hw
  · exact absurd hlt (Nat.not_lt.mpr (heq ▸ hw))

variable {o : Nat} (newAccs : List Nat)

/-- Publishing touches an old object exactly if the rebuild's map has it for a group that has
another configuration. -/
theorem untouched_publish_iff (hext : s.Extends b.s) (hs : s.Grounded) (hwrites : s.writes = [])
    (configs : List (Int × GroupConfig)) :
    s.Untouched (publish env b (some configs)) ↔ ∀ k o, s.groups k = some o →
      ∀ e ∈ configs, b.groups e.1 = some o → e.2.Matches env (s.objs.get o) := by
  refine forall_congr' fun k => forall_congr' fun o => forall_congr' fun ho => ?_
  obtain ⟨hget, huntouched⟩ := hext.untouched hs hwrites k o ho
  have hlt := Nat.lt_of_lt_of_le (hs.bounded k o ho).1 hext.objs.le
  have hstays : UpstreamBuild.Stays o (s.objs.get o) { s := b.s, groups := b.groups } _ _ :=
    .buildUpstreamSnapshots env b.s.upstreams hlt configs
  have hiff := (hstays.iff fun _ => hget).trans (and_iff_right huntouched)
  exact ⟨fun h => hiff.mp h.2, fun h => ⟨hstays.logged (fun _ => hget) (hiff.mpr h), hiff.mpr h⟩⟩

/-- The groups that are copied are the other groups of the known accounts of the load. -/
theorem mem_otherRefs_iff (hs : Indexed s.byID s.insts) (gid : Int) (rows : List Account)
    (k : Int) : k ∈ otherRefs env s gid rows ↔
      k ≠ gid ∧ ∃ id a, s.byID id = some a ∧ Loads rows id ∧ k ∈ (s.view a).groupIDs := by
  have hload := groupLoad_newAccounts env gid rows hs
  have hid : ∀ a, (regroupLoaded env s gid rows).s.idOf a =
      ((loadGroup env s gid rows).s.insts.get a).id := fun a => id_regroupedInsts ..
  simp only [otherRefs, mem_dedup, mem_flatMap, mem_filter, hid, otherGids, removeGid,
    decide_eq_true_eq]
  constructor
  · rintro ⟨a, ⟨ha, hsome⟩, hk, hne⟩
    obtain ⟨a', ha'⟩ := Option.isSome_iff_exists.mp hsome
    refine ⟨hne, _, a', ha', hload.loaded a ha, ?_⟩
    simpa [groupIDs, ha'] using hk
  · rintro ⟨hne, id, a, ha, hloads, hk⟩
    obtain ⟨a', ha', rfl⟩ := hload.found id hloads
    exact ⟨a', ⟨ha', by simp [ha]⟩, by simpa [groupIDs, ha] using hk, hne⟩

theorem groups_copyGroup_iff (b : Rebuild) (gid k : Int) (ho : o < b.s.objs.next) :
    (copyGroup env newAccs b gid).groups k = some o ↔ b.groups k = some o ∧ k ≠ gid := by
  simp only [copyGroup]
  split
  next hnone =>
    refine (and_iff_left_of_imp ?_).symm
    rintro hk rfl
    simp [hnone] at hk
  next o' _ =>
    by_cases hk : k = gid
    · simp [hk, Nat.ne_of_gt ho]
    · simp [hk]

/-- An old object stays in the map for a group that is not copied. -/
theorem groups_copyGroups_iff (b : Rebuild) (gids : List Int) (k : Int) (ho : o < b.s.objs.next) :
    (gids.foldl (copyGroup env newAccs) b).groups k = some o ↔ b.groups k = some o ∧ k ∉ gids := by
  induction gids generalizing b with
  | nil => simp
  | cons gid gids ih =>
    have hle : b.s.objs.next ≤ (copyGroup env newAccs b gid).s.objs.next :=
      (extends_copyGroups env newAccs b [gid]).objs.le
    rw [foldl_cons, ih _ (Nat.lt_of_lt_of_le ho hle), groups_copyGroup_iff env newAccs b gid k ho,
      mem_cons, not_or, and_assoc]

theorem groups_rebuildLoaded_iff (hs : Indexed s.byID s.insts) (gid : Int) (rows : List Account)
    (k : Int) (ho : o < s.objs.next) :
    (rebuildLoaded env s gid rows).groups k = some o ↔
      s.groups k = some o ∧ k ≠ gid ∧ k ∉ otherRefs env s gid rows := by
  have hle := (extends_regroupLoaded env gid rows hs).objs.le
  have hself : (loadGroup env s gid rows).groups gid ≠ some o := by
    intro hgid
    obtain ⟨_, -, hnew⟩ := (built_loadGroup env gid rows hs).newGroup_of_some hgid
    exact absurd ho (Nat.not_lt.mpr hnew.fresh)
  rw [rebuildLoaded, groups_copyGroups_iff env _ _ _ k (Nat.lt_of_lt_of_le ho hle), ← and_assoc]
  refine and_congr_left' ?_
  by_cases hk : k = gid
  · subst hk
    simpa [regroupLoaded] using hself
  · simp [regroupLoaded, hk]

/-- A targeted reload goes by configurations under which the groups that it does not copy stay as
they are. -/
def PoolsMatch (env : SnapshotEnv) (s : Scheduler) : SnapshotOp → Prop
  | .invalidateGroup gid (some rows) (some configs) => ∀ e ∈ configs, e.1 ≠ gid →
      (∀ id a, s.byID id = some a → Loads rows id → e.1 ∉ (s.view a).groupIDs) →
      ∀ o, s.groups e.1 = some o → e.2.Matches env (s.objs.get o)
  | _ => True

theorem untouched_invalidateGroup_iff (hs : s.Grounded) (hwrites : s.writes = []) (gid : Int)
    (rows : List Account) (configs : List (Int × GroupConfig)) :
    s.Untouched (invalidateGroup env s gid (some rows) (some configs)) ↔
      s.PoolsMatch env (.invalidateGroup gid (some rows) (some configs)) := by
  have hext := extends_rebuildLoaded env gid rows hs.indexed
  refine (untouched_publish_iff env hext hs hwrites configs).trans ?_
  have hgroups : ∀ k o, o < s.objs.next → ((rebuildLoaded env s gid rows).groups k = some o ↔
      s.groups k = some o ∧ k ≠ gid ∧
        ∀ id a, s.byID id = some a → Loads rows id → k ∉ (s.view a).groupIDs) := by
    intro k o ho
    rw [groups_rebuildLoaded_iff env hs.indexed gid rows k ho, mem_otherRefs_iff env hs.indexed]
    refine and_congr_right fun _ => and_congr_right fun hk => ?_
    simp [hk]
  constructor
  · intro h e he hgid hnot o ho
    exact h e.1 o ho e he ((hgroups e.1 o (hs.bounded e.1 o ho).1).mpr ⟨ho, hgid, hnot⟩)
  · intro h k o ho e he hmap
    obtain ⟨ho', hgid, hnot⟩ := (hgroups e.1 o (hs.bounded k o ho).1).mp hmap
    exact h e he hgid hnot o ho'

theorem untouched_rebuildGroups (hs : s.Grounded) (hwrites : s.writes = []) (gids : List Int) :
    s.Untouched (rebuildGroups env s gids) :=
  (extends_copyGroups env [] { s, groups := s.groups, byID := s.byID } _).untouched hs hwrites

/-- Of all operations only a targeted reload can touch a published object, and it does exactly if a
group that it does not copy is configured to be otherwise. -/
theorem untouched_iff (env : SnapshotEnv) (ops : List SnapshotOp) :
    let s := ops.foldl (step env) {}
    (∀ gids, s.Untouched (rebuildGroups env { s with writes := [] } gids)) ∧
      ∀ op, s.Untouched (step env s op) ↔ s.PoolsMatch env op := by
  intro s
  have hs : Grounded { s with writes := [] } := (reached_grounded env ops).clear
  refine ⟨untouched_rebuildGroups env hs rfl, fun op => ?_⟩
  show Untouched { s with writes := [] } _ ↔ _
  match op with
  | .reload none _ | .invalidateGroup _ none _ =>
    exact iff_of_true (untouched_of_objs_eq rfl rfl) trivial
  | .reload (some m) none =>
    have hext := (built_buildSnapshots env hs.indexed m.nodup).extends
    exact iff_of_true (hext.untouched hs rfl) trivial
  | .invalidateGroup gid (some rows) none =>
    exact iff_of_true ((extends_rebuildLoaded env gid rows hs.indexed).untouched hs rfl) trivial
  | .reload (some m) (some configs) =>
    have hbuilt := built_buildSnapshots env hs.indexed m.nodup
    refine iff_of_true ((untouched_publish_iff env hbuilt.extends hs rfl configs).mpr ?_) trivial
    -- All objects of the new map are new.
    intro k o ho e _ hnew
    obtain ⟨_, -, hgroup⟩ := hbuilt.newGroup_of_some hnew
    exact absurd (hs.bounded k o ho).1 (Nat.not_lt.mpr hgroup.fresh)
  | .invalidateGroup gid (some rows) (some configs) =>
    exact untouched_invalidateGroup_iff env hs rfl gid rows configs
  | .weigh id weight =>
    refine iff_of_true ?_ trivial
    simp only [step, weigh]
    split
    · exact untouched_of_objs_eq rfl rfl
    · exact untouched_rebuildGroups env (hs.modify (f := (·.withWeight weight)) fun _ => rfl) rfl _
  | .setState id st =>
    refine iff_of_true ?_ trivial
    simp only [step, setState]
    split <;> exact untouched_of_objs_eq rfl rfl

/-- A reload of one group empties the pool of another while it runs, though nothing has changed. -/
theorem targetedReload_emptiesPool :
    let env := { plainEnv with
      buildUpstreamRoutes := fun pool _ =>
        pool.map fun p => ((.openaiChat, "m"), { seq := [p.1] }) }
    let a : Account := { id := 7, template := some { id := 1, supportedFormats := [.openaiChat] } }
    let u : Upstream := { id := 5, baseURL := "up" }
    let configs := [(2, { routingMode := some .upstreams, upstreamMembers :=
      [{ id := 9, groupID := 2, upstreamID := 5, upstream := some u }] })]
    let s := step env {} (.reload (some ⟨[(1, [a]), (2, [])], by decide⟩) (some configs))
    let t := step env s (.invalidateGroup 1 (some [a]) (some configs))
    s.groups 2 = some 1 ∧ (s.objs.get 1).upstreamRoutes = [((.openaiChat, "m"), { seq := [0] })] ∧
      (∃ w ∈ t.writes, w.1 = 1 ∧ w.2.upstreamRoutes = []) ∧ ¬s.Untouched t := by
  refine ⟨by decide, by decide, by decide, fun h => ?_⟩
  have hobj := (h 2 1 (by decide)).1
  exact absurd hobj (by decide)

end Scheduler
end C4Gateway
