import C4Gateway.Gate.Slots

/-! The concurrency counters of accounts and upstream members, at the granularity of their atomic
operations.  Selections take and give back slots with compare-and-swap loops.  A rebuild hands the
cells of the snapshot on to the next one, and then copies each account's counter onto itself with a
load and a separate store. -/

namespace C4Gateway

/-- What a selection checks of the counter it has loaded. -/
inductive SlotLimit where
  | account (maxConcurrency : Int) (env : GateEnv)
  | upstream (maxConcurrency : Int)

def SlotLimit.admits (cur : Int) : SlotLimit → Bool
  | .account limit env =>
    cur < concShare limit (instancesN env.instances) ||
      (cur < limit && concAllows env.view env.now limit (cur + 1))
  | .upstream maxConcurrency => cur < if maxConcurrency < 1 then 80 else maxConcurrency

/-- Where a selection is.  `c` is the cell whose slot it takes; `ReleaseSelection` sets the flag
`released` first, and then decrements. -/
inductive SlotPhase where
  | loaded (c : Nat) (cur : Int)
  | missed
  | held (c : Nat)
  | releasing (c : Nat)
  | decrementing (c : Nat) (cur : Int)
  | released
  deriving DecidableEq, Repr

/-- A group member that routes are built for, with its endpoint and key normalised. -/
structure PoolMember where
  id : Int
  groupID : Int
  upstreamID : Int
  endpoint : String
  key : String
  deriving DecidableEq, Repr

/-- A member with the cell of its counter. -/
structure MemberCell where
  member : PoolMember
  cell : Nat
  deriving DecidableEq, Repr

/-- A rebuild under way: the maps it is going to publish, and the pairs of an instance and the one
whose counter it takes over.  The members are still to be loaded in `InvalidateGroup`. -/
structure SlotRebuild where
  byID : List (Int × Nat)
  upstreams : Option (List MemberCell)
  todo : List (Nat × Nat)
  loaded : Option Int := none
  deriving DecidableEq, Repr

/-- Cells from `next` on are not in use yet, and hold 0. -/
structure SlotPool where
  counters : Nat → Int := fun _ => 0
  next : Nat := 0
  byID : List (Int × Nat) := []
  upstreams : List MemberCell := []
  rebuild : Option SlotRebuild := none
  selections : List SlotPhase := []

/-- The steps of selections and releases, and of rebuilds between them. -/
inductive PoolOp where
  | pick (c : Nat) (limit : SlotLimit)
  | swap (i : Nat)
  | release (i : Nat)
  | decLoad (i : Nat)
  | decSwap (i : Nat)
  | reload (ids : List Int) (configs : Option (List PoolMember))
  | invalidateGroup (ids dropped : List Int)
  | inheritLoad
  | inheritStore
  | publish (configs : Option (List PoolMember))

/-- The instances of the accounts that a load returns, reused where the snapshot has one. -/
def buildCells (old : List (Int × Nat)) :
    List Int → List (Int × Nat) × Nat → List (Int × Nat) × Nat
  | [], acc => acc
  | id :: ids, (byID, next) =>
    if (byID.lookup id).isSome then buildCells old ids (byID, next)
    else
      match old.lookup id with
      | some c => buildCells old ids (byID ++ [(id, c)], next)
      | none => buildCells old ids (byID ++ [(id, next)], next + 1)

/-- A member shares the cell of its predecessor if it is the same connection of the group. -/
def buildMembers (old : List MemberCell) :
    List PoolMember → List MemberCell × Nat → List MemberCell × Nat
  | [], acc => acc
  | m :: ms, (cells, next) =>
    let previous := (old.find? (·.member.id = m.id)).or
      (old.find? fun o => o.member.groupID = m.groupID ∧ o.member.upstreamID = m.upstreamID)
    let others := cells.filter (·.member.id ≠ m.id)
    match previous.filter fun o => o.member.groupID = m.groupID ∧
        o.member.upstreamID = m.upstreamID ∧ o.member.endpoint = m.endpoint ∧
        o.member.key = m.key with
    | some o => buildMembers old ms (others ++ [⟨m, o.cell⟩], next)
    | none => buildMembers old ms (others ++ [⟨m, next⟩], next + 1)

namespace SlotPool

def setCounter (s : SlotPool) (c : Nat) (v : Int) : SlotPool :=
  { s with counters := Function.update s.counters c v }

def setPhase (s : SlotPool) (i : Nat) (p : SlotPhase) : SlotPool :=
  { s with selections := s.selections.set i p }

def swap (s : SlotPool) (i : Nat) : SlotPool :=
  match s.selections[i]? with
  | some (.loaded c cur) =>
    if s.counters c = cur then (s.setCounter c (cur + 1)).setPhase i (.held c)
    else s.setPhase i .missed
  | _ => s

/-- Only the first release of a selection finds the flag unset. -/
def release (s : SlotPool) (i : Nat) : SlotPool :=
  match s.selections[i]? with
  | some (.held c) => s.setPhase i (.releasing c)
  | _ => s

def decLoad (s : SlotPool) (i : Nat) : SlotPool :=
  match s.selections[i]? with
  | some (.releasing c) =>
    if s.counters c ≤ 0 then s.setPhase i .released
    else s.setPhase i (.decrementing c (s.counters c))
  | _ => s

def decSwap (s : SlotPool) (i : Nat) : SlotPool :=
  match s.selections[i]? with
  | some (.decrementing c cur) =>
    if s.counters c = cur then (s.setCounter c (cur - 1)).setPhase i .released
    else s.setPhase i (.releasing c)
  | _ => s

/-- The members are loaded before the counters are copied; an error there ends the reload. -/
def reload (s : SlotPool) (ids : List Int) (configs : Option (List PoolMember)) : SlotPool :=
  if s.rebuild.isSome then s
  else
    let (byID, next) := buildCells s.byID ids ([], s.next)
    match configs with
    | none => { s with next := next }
    | some members =>
      let (upstreams, next) := buildMembers s.upstreams members ([], next)
      let todo := byID.filterMap fun e => (s.byID.lookup e.1).map (e.2, ·)
      { s with next := next, rebuild := some { byID, upstreams := some upstreams, todo } }

/-- `dropped` are the accounts that the group was the last one of. -/
def invalidateGroup (s : SlotPool) (ids dropped : List Int) : SlotPool :=
  if s.rebuild.isSome then s
  else
    let (cells, next) := buildCells s.byID ids ([], s.next)
    let kept := s.byID.filter fun e => e.1 ∉ dropped ∧ (cells.lookup e.1).isNone
    let todo := ids.filterMap fun id =>
      (cells.lookup id).bind fun c => (s.byID.lookup id).map (c, ·)
    { s with next := next, rebuild := some { byID := kept ++ cells, upstreams := none, todo } }

def inheritLoad (s : SlotPool) : SlotPool :=
  match s.rebuild with
  | some r =>
    match r.todo, r.loaded with
    | (_, src) :: _, none => { s with rebuild := some { r with loaded := some (s.counters src) } }
    | _, _ => s
  | none => s

def inheritStore (s : SlotPool) : SlotPool :=
  match s.rebuild with
  | some r =>
    match r.todo, r.loaded with
    | (dst, _) :: rest, some v =>
      { s.setCounter dst v with rebuild := some { r with todo := rest, loaded := none } }
    | _, _ => s
  | none => s

/-- A rebuild with no counter left to take over is published. -/
def publish (s : SlotPool) (configs : Option (List PoolMember)) : SlotPool :=
  match s.rebuild with
  | some { byID, upstreams := some upstreams, todo := [], .. } =>
    { s with byID, upstreams, rebuild := none }
  | some { byID, upstreams := none, todo := [], .. } =>
    match configs with
    | none => { s with rebuild := none }
    | some members =>
      let (upstreams, next) := buildMembers s.upstreams members ([], s.next)
      { s with byID, upstreams, next, rebuild := none }
  | _ => s

def step (s : SlotPool) : PoolOp → SlotPool
  | .pick c limit =>
    if c < s.next ∧ limit.admits (s.counters c) then
      { s with selections := s.selections ++ [.loaded c (s.counters c)] }
    else s
  | .swap i => s.swap i
  | .release i => s.release i
  | .decLoad i => s.decLoad i
  | .decSwap i => s.decSwap i
  | .reload ids configs => s.reload ids configs
  | .invalidateGroup ids dropped => s.invalidateGroup ids dropped
  | .inheritLoad => s.inheritLoad
  | .inheritStore => s.inheritStore
  | .publish configs => s.publish configs

end SlotPool

/-- Whether the slot is taken: from the swap that takes it to the one that gives it back. -/
def SlotPhase.holds (c : Nat) : SlotPhase → Bool
  | .held c' | .releasing c' | .decrementing c' _ => c' = c
  | .loaded .. | .missed | .released => false

namespace SlotPool

def holders (s : SlotPool) (c : Nat) : Nat := s.selections.countP (·.holds c)

/-- Every counter is the number of selections that hold a slot on it. -/
def Balanced (s : SlotPool) : Prop := ∀ c, s.counters c = s.holders c

/-- A copied counter still has the value that was loaded when it is stored. -/
def Undisturbed (s : SlotPool) : PoolOp → Prop
  | .inheritStore =>
    ∀ r dst src rest v, s.rebuild = some r → r.todo = (dst, src) :: rest → r.loaded = some v →
      s.counters dst = v
  | _ => True

variable {s : SlotPool}

/-- A change of phase moves the holders of a cell by what the two phases hold of it. -/
theorem holders_setPhase {i : Nat} {p : SlotPhase} (hp : s.selections[i]? = some p)
    (p' : SlotPhase) (c : Nat) :
    (s.setPhase i p').holders c + (p.holds c).toNat = s.holders c + (p'.holds c).toNat := by
  obtain ⟨hi, rfl⟩ := List.getElem?_eq_some_iff.mp hp
  have hpos : (s.selections[i].holds c).toNat ≤ s.holders c := by
    cases hholds : s.selections[i].holds c with
    | false => exact Nat.zero_le _
    | true => exact List.countP_pos_iff.mpr ⟨_, List.getElem_mem hi, hholds⟩
  simp only [holders, setPhase, List.countP_set hi] at hpos ⊢
  cases hbefore : s.selections[i].holds c <;> cases p'.holds c <;>
    simp only [hbefore, if_true, Bool.false_eq_true, if_false, Bool.toNat_true,
      Bool.toNat_false] at hpos ⊢ <;> omega

section
variable (h : s.Balanced)
include h

theorem balanced_of_holds_eq {i : Nat} {p p' : SlotPhase} (hp : s.selections[i]? = some p)
    (heq : ∀ c, p'.holds c = p.holds c) : (s.setPhase i p').Balanced := by
  intro c
  have hmoved := holders_setPhase hp p' c
  have hbefore := h c
  rw [heq] at hmoved
  simp only [setPhase] at hmoved ⊢
  omega

/-- A swap that moves a counter by as much as the phase of its selection. -/
theorem balanced_swapped {i c : Nat} {p p' : SlotPhase} {v : Int} (hp : s.selections[i]? = some p)
    (hother : ∀ c' ≠ c, p'.holds c' = p.holds c')
    (hself : v + (p.holds c).toNat = s.counters c + (p'.holds c).toNat) :
    ((s.setCounter c v).setPhase i p').Balanced := by
  intro c'
  have hmoved := holders_setPhase hp p' c'
  have hbefore := h c'
  simp only [setCounter, setPhase, holders] at hmoved hbefore ⊢
  by_cases hc : c' = c
  · subst hc
    rw [Function.update_self]
    omega
  · rw [Function.update_of_ne hc]
    rw [hother c' hc] at hmoved
    omega

theorem balanced_swap (i : Nat) : (s.swap i).Balanced := by
  simp only [swap]
  split
  next c cur hp =>
    split
    next hcur =>
      refine balanced_swapped h hp (fun c' hc' => ?_) (by simp [SlotPhase.holds, hcur])
      simp [SlotPhase.holds, Ne.symm hc']
    · exact balanced_of_holds_eq h hp fun _ => rfl
  · exact h

theorem balanced_release (i : Nat) : (s.release i).Balanced := by
  simp only [release]
  split
  next c hp => exact balanced_of_holds_eq h hp fun _ => rfl
  · exact h

/-- The counter of a slot that is held is positive, so the floor of the decrement is not met. -/
theorem pos_of_releasing {i c : Nat} (hp : s.selections[i]? = some (.releasing c)) :
    0 < s.counters c := by
  have hmem : SlotPhase.releasing c ∈ s.selections := List.mem_of_getElem? hp
  have hpos : 0 < s.holders c := List.countP_pos_iff.mpr ⟨_, hmem, by simp [SlotPhase.holds]⟩
  rw [h c]
  exact Int.natCast_pos.mpr hpos

theorem balanced_decLoad (i : Nat) : (s.decLoad i).Balanced := by
  simp only [decLoad]
  split
  next c hp =>
    rw [if_neg (Int.not_le.mpr (pos_of_releasing h hp))]
    exact balanced_of_holds_eq h hp fun _ => rfl
  · exact h

theorem balanced_decSwap (i : Nat) : (s.decSwap i).Balanced := by
  simp only [decSwap]
  split
  next c cur hp =>
    split
    next hcur =>
      refine balanced_swapped h hp (fun c' hc' => ?_) (by simp [SlotPhase.holds, hcur])
      simp [SlotPhase.holds, Ne.symm hc']
    · exact balanced_of_holds_eq h hp fun _ => rfl
  · exact h

theorem balanced_pick (c : Nat) (limit : SlotLimit) : (s.step (.pick c limit)).Balanced := by
  intro c'
  simp only [step]
  split
  · simpa [holders, SlotPhase.holds] using h c'
  · exact h c'

/-- Apart from its copies, a rebuild touches no counter and no selection. -/
theorem balanced_of_frame {t : SlotPool} (hcounters : t.counters = s.counters)
    (hselections : t.selections = s.selections) : t.Balanced := by
  intro c
  simpa only [holders, hcounters, hselections] using h c

theorem balanced_inheritStore_iff : s.inheritStore.Balanced ↔ s.Undisturbed .inheritStore := by
  simp only [inheritStore]
  split
  next r hr =>
    split
    next dst src rest v htodo hloaded =>
      constructor
      · rintro hafter r' dst' src' rest' v' hr' htodo' hloaded'
        obtain rfl := Option.some.inj (hr.symm.trans hr')
        obtain ⟨rfl, -⟩ := Prod.mk.inj (List.cons.inj (htodo.symm.trans htodo')).1
        obtain rfl := Option.some.inj (hloaded.symm.trans hloaded')
        have hstored := hafter dst
        simp only [setCounter, holders, Function.update_self] at hstored
        rw [h dst, holders, hstored]
      · intro hsame
        have hv : s.counters dst = v := hsame r dst src rest v hr htodo hloaded
        refine balanced_of_frame h ?_ rfl
        rw [← hv]
        exact Function.update_eq_self dst s.counters
    next hidle =>
      refine ⟨fun _ r' dst src rest v hr' htodo hloaded => ?_, fun _ => h⟩
      obtain rfl := Option.some.inj (hr.symm.trans hr')
      exact absurd hloaded (hidle dst src rest v htodo)
  next hnone =>
    refine ⟨fun _ r' dst src rest v hr' => ?_, fun _ => h⟩
    exact absurd (hnone.symm.trans hr') (by simp)

theorem balanced_step_iff (op : PoolOp) : (s.step op).Balanced ↔ s.Undisturbed op := by
  have hkeeps : (s.step op).Balanced → s.Undisturbed op →
      ((s.step op).Balanced ↔ s.Undisturbed op) := fun hafter hcond =>
    ⟨fun _ => hcond, fun _ => hafter⟩
  cases op with
  | pick c limit => exact hkeeps (balanced_pick h c limit) trivial
  | swap i => exact hkeeps (balanced_swap h i) trivial
  | release i => exact hkeeps (balanced_release h i) trivial
  | decLoad i => exact hkeeps (balanced_decLoad h i) trivial
  | decSwap i => exact hkeeps (balanced_decSwap h i) trivial
  | inheritStore => exact balanced_inheritStore_iff h
  | reload ids configs =>
    refine hkeeps (balanced_of_frame h ?_ ?_) trivial <;> simp only [step, reload] <;> grind
  | invalidateGroup ids dropped =>
    refine hkeeps (balanced_of_frame h ?_ ?_) trivial <;> simp only [step, invalidateGroup] <;>
      grind
  | inheritLoad =>
    refine hkeeps (balanced_of_frame h ?_ ?_) trivial <;> simp only [step, inheritLoad] <;> grind
  | publish configs =>
    refine hkeeps (balanced_of_frame h ?_ ?_) trivial <;> simp only [step, publish] <;> grind

theorem Balanced.idle (hreleased : ∀ p ∈ s.selections, ∀ c, p.holds c = false) :
    ∀ c, s.counters c = 0 := by
  intro c
  rw [h c, holders, List.countP_eq_zero.mpr fun p hp => by simp [hreleased p hp c]]
  rfl

end

/-- Along a run, every counter is the number of its holders exactly if no rebuild stores a counter
that has moved since it was loaded; and then the counters are 0 whenever no slot is held. -/
theorem counters_balanced_iff (ops : List PoolOp) :
    ((∀ t ∈ Run.states step {} ops, t.Balanced) ↔ Run.Each step Undisturbed {} ops) ∧
    (Run.Each step Undisturbed {} ops → ∀ t ∈ Run.states step {} ops,
      (∀ p ∈ t.selections, ∀ c, p.holds c = false) → ∀ c, t.counters c = 0) := by
  have hiff : (∀ t ∈ Run.states step {} ops, t.Balanced) ↔ Run.Each step Undisturbed {} ops :=
    Run.each_iff_states (fun _ => True) Balanced (fun _ _ _ _ => trivial)
      (fun s op _ h => balanced_step_iff h op) trivial fun _ => rfl
  exact ⟨hiff, fun hrun t ht hreleased => (hiff.mpr hrun t ht).idle hreleased⟩

/-- A request of account 1 ends between the load and the store of a reload. -/
def releasedDuringCopy : List PoolOp :=
  [.reload [1] (some []), .publish none, .pick 0 (.account 1 {}), .swap 0,
    .reload [1] (some []), .inheritLoad, .release 0, .decLoad 0, .decSwap 0, .inheritStore,
    .publish none]

/-- The slot is taken for good: no selection holds it, and the next one is refused. -/
theorem releasedDuringCopy_leaks :
    (releasedDuringCopy.foldl step {}).selections = [.released] ∧
    (releasedDuringCopy.foldl step {}).counters 0 = 1 ∧
    (SlotLimit.account 1 {}).admits ((releasedDuringCopy.foldl step {}).counters 0) = false := by
  decide

end SlotPool
end C4Gateway
