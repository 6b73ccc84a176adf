import C4Gateway.Scheduler.State
import C4Gateway.Lib.Run
import Mathlib.Data.List.Nodup

/-! The status of accounts, in memory and in the database.  `FailAccount` and rule actions swap the
state of an account and queue a write, `processWrite` drains the queue into the database, and a
reload reads the database and later stores what it read over the states.  `reloadMu` keeps reloads
apart from each other; every other step may come between their steps. -/

namespace C4Gateway

open List
open Function (update)

/-- A change of an account on its way to its row. -/
structure StatusWrite where
  id : Int
  status : AccountStatus
  cooldown : Option Int := none
  lastErr : Option String := none
  weight : Option Int := none
  deriving DecidableEq, Repr

def StatusWrite.ofState (id : Int) (st : AccState) (weight : Option Int) : StatusWrite where
  id := id
  status := st.status
  cooldown := st.cooldownUntil
  lastErr := st.lastError
  weight := weight

/-- A later write replaces an earlier one of the account, except for a weight it does not have. -/
def coalesceWrites (accs : List StatusWrite) (w : StatusWrite) : List StatusWrite :=
  match accs.find? (·.id = w.id) with
  | some prev =>
    accs.map fun a => if a.id = w.id then { w with weight := w.weight.or prev.weight } else a
  | none => accs ++ [w]

/-- `UpdateAccountStatus` on the row of the write's account. -/
def Account.update (a : Account) (w : StatusWrite) : Account :=
  if a.id = w.id ∧ a.deletedAt = none then
    { a with
      status := w.status
      cooldownUntil := w.cooldown
      lastError := w.lastErr
      failedAt := if w.status = .active then none else a.failedAt
      weight := w.weight.getD a.weight }
  else a

/-- An `apply` after its swap.  `gen` is the instance that it swapped. -/
structure Applying where
  id : Int
  gen : Nat
  action : Option AccountStatus
  next : AccState
  weight : Option Int
  checked : Bool := false
  deriving DecidableEq, Repr

/-- A `processWrite`: the writes it holds, and whether it still drains the queue. -/
structure Writer where
  accs : List StatusWrite
  draining : Bool := true
  deriving DecidableEq, Repr

/-- A reload: the rows it has read and not yet built, the state loaded for the first of them, and
the instances of the snapshot it is going to publish. -/
structure StatusRebuild where
  todo : List Account
  loaded : Option AccState := none
  built : Int → Option Nat := fun _ => none

/-- An instance is identified by its account and a number.  `failed` has the accounts of the
snapshot for which `FailAccount` has returned. -/
structure StatusSync where
  db : List Account
  byID : Int → Option Nat := fun _ => none
  insts : Int → Nat → AccState := fun _ _ => { status := .active }
  gens : Int → Nat := fun _ => 0
  queue : List StatusWrite := []
  failing : List StatusWrite := []
  applying : List Applying := []
  writers : List Writer := []
  rebuild : Option StatusRebuild := none
  failed : List Int := []

/-- The steps of the status writer and of those that send to it. -/
inductive StatusOp where
  | failAccount (id : Int) (reason : String) (now : Int)
  | failEnqueue (i : Nat)
  | apply (id : Int) (st : Option AccountStatus) (cooldownUntil weight : Option Int)
      (errMsg : String) (now : Int)
  | applyCheck (i : Nat)
  | applyEnqueue (i : Nat)
  | writeStart
  | writeDrain (i : Nat)
  | writeUpdate (i j : Nat) (ok : Bool)
  | reloadRead
  | buildLoad
  | buildStore
  | reloadFail
  | publish
  | admin (rows : List Account)

def writeChCap : Nat := 4096

namespace StatusSync

def setInst (s : StatusSync) (id : Int) (gen : Nat) (st : AccState) : StatusSync :=
  { s with insts := update s.insts id (update (s.insts id) gen st) }

def failAccount (s : StatusSync) (id : Int) (reason : String) (now : Int) : StatusSync :=
  match s.byID id with
  | none => s
  | some gen =>
    if (s.insts id gen).status = .disabled then { s with failed := id :: s.failed }
    else
      let st := (s.insts id gen).fail now reason
      { s.setInst id gen st with failing := .ofState id st none :: s.failing }

/-- The send blocks while the queue is full. -/
def failEnqueue (s : StatusSync) (i : Nat) : StatusSync :=
  match s.failing[i]? with
  | some w =>
    if s.queue.length < writeChCap then
      { s with
        queue := s.queue ++ [w]
        failing := s.failing.eraseIdx i
        failed := w.id :: s.failed }
    else s
  | none => s

/-- The change is made in memory first and sent to the writer after that. -/
def apply (s : StatusSync) (id : Int) (st : Option AccountStatus)
    (cooldownUntil weight : Option Int) (errMsg : String) (now : Int) : StatusSync :=
  match s.byID id with
  | none => s
  | some gen =>
    match (s.insts id gen).apply now st cooldownUntil errMsg with
    | none => s
    | some next =>
      { s.setInst id gen next with
        applying := { id, gen, action := st, next, weight } :: s.applying }

def applyCheck (s : StatusSync) (i : Nat) : StatusSync :=
  match s.applying[i]? with
  | some a =>
    if a.action ≠ some .disabled ∧ (s.insts a.id a.gen).status = .disabled then
      { s with applying := s.applying.eraseIdx i }
    else { s with applying := s.applying.set i { a with checked := true } }
  | none => s

/-- `enqueueWrite` drops the write if the queue is full. -/
def applyEnqueue (s : StatusSync) (i : Nat) : StatusSync :=
  match s.applying[i]? with
  | some a =>
    if a.checked then
      { s with
        queue :=
          if s.queue.length < writeChCap then s.queue ++ [.ofState a.id a.next a.weight]
          else s.queue
        applying := s.applying.eraseIdx i }
    else s
  | none => s

def writeStart (s : StatusSync) : StatusSync :=
  match s.queue with
  | w :: rest => { s with queue := rest, writers := { accs := [w] } :: s.writers }
  | [] => s

/-- The writer takes one more write of the queue, and stops when it is empty. -/
def writeDrain (s : StatusSync) (i : Nat) : StatusSync :=
  match s.writers[i]? with
  | some wr =>
    if wr.draining then
      match s.queue with
      | w :: rest =>
        { s with
          queue := rest
          writers := s.writers.set i { wr with accs := coalesceWrites wr.accs w } }
      | [] => { s with writers := s.writers.set i { wr with draining := false } }
    else s
  | none => s

/-- The writes are made in the order of a map, and each may fail. -/
def writeUpdate (s : StatusSync) (i j : Nat) (ok : Bool) : StatusSync :=
  match s.writers[i]? with
  | some wr =>
    if wr.draining then s
    else
      match wr.accs[j]? with
      | some w =>
        { s with
          db := if ok then s.db.map (·.update w) else s.db
          writers := s.writers.set i { wr with accs := wr.accs.eraseIdx j } }
      | none => s
  | none => s

/-- The database leaves out deleted accounts, and `buildSnapshots` those without a template. -/
def reloadRead (s : StatusSync) : StatusSync :=
  match s.rebuild with
  | some _ => s
  | none =>
    { s with rebuild := some { todo := s.db.filter fun a => a.deletedAt.isNone && a.routable } }

/-- Takes up the next row: an account seen before in this rebuild is skipped, a new one gets an
instance, and of one that the snapshot has the state is loaded. -/
def buildLoad (s : StatusSync) : StatusSync :=
  match s.rebuild with
  | some { todo := row :: rest, loaded := none, built } =>
    if (built row.id).isSome then { s with rebuild := some { todo := rest, built } }
    else
      match s.byID row.id with
      | some gen => { s with
          rebuild := some { todo := row :: rest, loaded := some (s.insts row.id gen), built } }
      | none =>
        { s.setInst row.id (s.gens row.id) (.ofRow row) with
          gens := update s.gens row.id (s.gens row.id + 1)
          rebuild := some
            { todo := rest, built := update built row.id (some (s.gens row.id)) } }
  | _ => s

/-- The state is stored without a comparison to what was loaded. -/
def buildStore (s : StatusSync) : StatusSync :=
  match s.rebuild with
  | some { todo := row :: rest, loaded := some cur, built } =>
    match s.byID row.id with
    | some gen =>
      { s.setInst row.id gen (cur.sync row) with
        rebuild := some { todo := rest, built := update built row.id (some gen) } }
    | none => s
  | _ => s

def publish (s : StatusSync) : StatusSync :=
  match s.rebuild with
  | some { todo := [], built, .. } => { s with byID := built, rebuild := none }
  | _ => s

def step (s : StatusSync) : StatusOp → StatusSync
  | .failAccount id reason now => s.failAccount id reason now
  | .failEnqueue i => s.failEnqueue i
  | .apply id st cooldownUntil weight errMsg now => s.apply id st cooldownUntil weight errMsg now
  | .applyCheck i => s.applyCheck i
  | .applyEnqueue i => s.applyEnqueue i
  | .writeStart => s.writeStart
  | .writeDrain i => s.writeDrain i
  | .writeUpdate i j ok => s.writeUpdate i j ok
  | .reloadRead => s.reloadRead
  | .buildLoad => s.buildLoad
  | .buildStore => s.buildStore
  | .reloadFail => { s with rebuild := none }
  | .publish => s.publish
  | .admin rows => { s with db := rows }

def statusOf (s : StatusSync) (id : Int) : Option AccountStatus :=
  (s.byID id).map fun gen => (s.insts id gen).status

/-- The accounts that `FailAccount` has disabled, whether or not it has returned. -/
def down (s : StatusSync) : List Int := s.failed ++ s.failing.map (·.id)

/-- The rows that a reload has read and not yet stored. -/
def unbuilt (s : StatusSync) : List Account := (s.rebuild.map (·.todo)).getD []

/-- A reload reads an account as disabled once it is, and `FailAccount` overtakes no reload that has
read another status. -/
def Ordered (s : StatusSync) : StatusOp → Prop
  | .reloadRead => ∀ row ∈ s.db, row.id ∈ s.down → row.status = .disabled
  | .failAccount id _ _ =>
    (s.byID id).isSome → ∀ row ∈ s.unbuilt, row.id = id → row.status = .disabled
  | _ => True

instance Ordered.decidable (s : StatusSync) : ∀ op, Decidable (s.Ordered op)
  | .reloadRead =>
    inferInstanceAs (Decidable (∀ row ∈ s.db, row.id ∈ s.down → row.status = .disabled))
  | .failAccount id _ _ => inferInstanceAs (Decidable ((s.byID id).isSome →
      ∀ row ∈ s.unbuilt, row.id = id → row.status = .disabled))
  | .failEnqueue _ | .apply .. | .applyCheck _ | .applyEnqueue _ | .writeStart | .writeDrain _
  | .writeUpdate .. | .buildLoad | .buildStore | .reloadFail | .publish | .admin _ => isTrue trivial

/-- What holds while the steps are ordered.  An account that is down is disabled in the snapshot, in
the one a reload is building, and in the rows that the reload has left. -/
structure Inv (s : StatusSync) : Prop where
  published : ∀ id ∈ s.down, ∀ gen, s.byID id = some gen → (s.insts id gen).status = .disabled
  unbuilt : ∀ r, s.rebuild = some r → ∀ row ∈ r.todo, row.id ∈ s.down → row.status = .disabled
  built : ∀ r, s.rebuild = some r → ∀ id ∈ s.down, ∀ gen, r.built id = some gen →
    (s.insts id gen).status = .disabled
  reused : ∀ r, s.rebuild = some r → ∀ id gen gen', r.built id = some gen → s.byID id = some gen' →
    gen = gen'

variable {s t : StatusSync}

/-- Without a rebuild the invariant is about the published instances alone. -/
theorem Inv.of_idle (hr : t.rebuild = none)
    (hpublished : ∀ id ∈ t.down, ∀ gen, t.byID id = some gen →
      (t.insts id gen).status = .disabled) : t.Inv where
  published := hpublished
  unbuilt _ hsome := absurd (hr.symm.trans hsome) (by simp)
  built _ hsome := absurd (hr.symm.trans hsome) (by simp)
  reused _ hsome := absurd (hr.symm.trans hsome) (by simp)

theorem inv_init (db : List Account) : Inv { db } :=
  .of_idle rfl fun _ h => absurd h not_mem_nil

/-- Steps on the queue and the database leave the invariant alone. -/
theorem Inv.of_frame (h : s.Inv) (hbyID : t.byID = s.byID) (hinsts : t.insts = s.insts)
    (hrebuild : t.rebuild = s.rebuild) (hdown : ∀ id ∈ t.down, id ∈ s.down) : t.Inv where
  published id hid := by
    rw [hbyID, hinsts]
    exact h.published id (hdown id hid)
  unbuilt r hr row hrow hid := h.unbuilt r (hrebuild ▸ hr) row hrow (hdown _ hid)
  built r hr id hid := by
    rw [hinsts]
    exact h.built r (hrebuild ▸ hr) id (hdown id hid)
  reused r hr := by
    rw [hbyID]
    exact h.reused r (hrebuild ▸ hr)

theorem setInst_insts (s : StatusSync) (id : Int) (gen : Nat) (st : AccState) (id' : Int)
    (gen' : Nat) : (s.setInst id gen st).insts id' gen' =
      if id' = id ∧ gen' = gen then st else s.insts id' gen' := by
  by_cases hid : id' = id
  · subst hid
    by_cases hgen : gen' = gen <;> simp [setInst, hgen]
  · simp [setInst, hid]

/-- A new state of an account that is down has to be disabled. -/
theorem disabled_setInst {id id' : Int} {gen gen' : Nat} {st : AccState}
    (hst : id ∈ s.down → st.status = .disabled) (hid' : id' ∈ s.down)
    (hold : (s.insts id' gen').status = .disabled) :
    ((s.setInst id gen st).insts id' gen').status = .disabled := by
  rw [setInst_insts]
  split
  next heq => exact hst (heq.1 ▸ hid')
  · exact hold

section
variable (h : s.Inv)
include h

/-- A swap that leaves an account enabled is made to one that is not down. -/
theorem inv_apply (id : Int) (st : Option AccountStatus) (cooldownUntil weight : Option Int)
    (errMsg : String) (now : Int) : (s.apply id st cooldownUntil weight errMsg now).Inv := by
  simp only [apply]
  split
  · exact h
  next gen hgen =>
    split
    · exact h
    next next hnext =>
      have hup : id ∈ s.down → next.status = .disabled := fun hid =>
        absurd (h.published id hid gen hgen) (AccState.not_disabled_of_apply hnext)
      refine ⟨fun id' hid' gen' hgen' => ?_, h.unbuilt, fun r hr id' hid' gen' hgen' => ?_,
        h.reused⟩
      · exact disabled_setInst hup hid' (h.published id' hid' gen' hgen')
      · exact disabled_setInst hup hid' (h.built r hr id' hid' gen' hgen')

/-- The account goes down once its instance, the published one and so the one in a reload, is
disabled. -/
theorem inv_of_disabled {id : Int} {gen : Nat} (hgen : s.byID id = some gen)
    (hbyID : t.byID = s.byID) (hrebuild : t.rebuild = s.rebuild)
    (hself : (t.insts id gen).status = .disabled)
    (hother : ∀ id' gen', id' ≠ id → t.insts id' gen' = s.insts id' gen')
    (hdown : ∀ id' ∈ t.down, id' = id ∨ id' ∈ s.down)
    (hord : ∀ row ∈ s.unbuilt, row.id = id → row.status = .disabled) : t.Inv where
  published id' hid' gen' hgen' := by
    rw [hbyID] at hgen'
    by_cases hid : id' = id
    · subst hid
      rwa [← Option.some.inj (hgen.symm.trans hgen')]
    · rw [hother id' gen' hid]
      exact h.published id' ((hdown id' hid').resolve_left hid) gen' hgen'
  unbuilt r hr row hrow hid' := by
    rw [hrebuild] at hr
    by_cases hid : row.id = id
    · exact hord row (by simpa [StatusSync.unbuilt, hr] using hrow) hid
    · exact h.unbuilt r hr row hrow ((hdown _ hid').resolve_left hid)
  built r hr id' hid' gen' hgen' := by
    rw [hrebuild] at hr
    by_cases hid : id' = id
    · subst hid
      rwa [h.reused r hr id' gen' gen hgen' hgen]
    · rw [hother id' gen' hid]
      exact h.built r hr id' ((hdown id' hid').resolve_left hid) gen' hgen'
  reused r hr := by
    rw [hbyID]
    exact h.reused r (hrebuild ▸ hr)

theorem inv_failAccount (id : Int) (reason : String) (now : Int)
    (hord : s.Ordered (.failAccount id reason now)) : (s.failAccount id reason now).Inv := by
  simp only [failAccount]
  split
  · exact h
  next gen hgen =>
    have hrows := hord (by simp [hgen])
    split
    next hdisabled =>
      refine inv_of_disabled h hgen rfl rfl hdisabled (fun _ _ _ => rfl) ?_ hrows
      simp [down]
    · refine inv_of_disabled h hgen rfl rfl ?_ ?_ ?_ hrows
      · simp [setInst, AccState.fail]
      · intro id' gen' hid
        simp [setInst, hid]
      · intro id' hid'
        simp only [down, map_cons, mem_append, mem_cons] at hid' ⊢
        tauto

theorem inv_reloadRead (hord : s.Ordered .reloadRead) : s.reloadRead.Inv := by
  simp only [reloadRead]
  split
  · exact h
  · refine ⟨h.published, ?_, ?_, ?_⟩
    · rintro r ⟨⟩ row hrow
      exact hord row (mem_of_mem_filter hrow)
    all_goals
      rintro r ⟨⟩
      nofun

theorem inv_buildLoad : s.buildLoad.Inv := by
  simp only [buildLoad]
  split
  next row rest built hr =>
    have hrest : ∀ row' ∈ rest, row'.id ∈ s.down → row'.status = .disabled := fun row' hrow' =>
      h.unbuilt _ hr row' (mem_cons_of_mem _ hrow')
    have htodo := h.unbuilt _ hr
    have hbuilt := h.built _ hr
    have hreused := h.reused _ hr
    split
    · refine ⟨h.published, ?_, ?_, ?_⟩ <;> rintro r ⟨⟩
      · exact hrest
      · exact hbuilt
      · exact hreused
    · split
      · refine ⟨h.published, ?_, ?_, ?_⟩ <;> rintro r ⟨⟩
        · exact htodo
        · exact hbuilt
        · exact hreused
      next hnone =>
        -- The new instance takes its status from the row; no published instance is of this account.
        have hrow : row.id ∈ s.down → row.status = .disabled := htodo row (by simp)
        refine ⟨fun id hid gen hgen => ?_, ?_, ?_, ?_⟩
        · exact disabled_setInst hrow hid (h.published id hid gen hgen)
        all_goals rintro r ⟨⟩
        · exact hrest
        · intro id hid gen hgen
          by_cases heq : id = row.id
          · subst heq
            obtain rfl : s.gens row.id = gen := by simpa using hgen
            simpa [setInst, AccState.ofRow] using hrow hid
          · exact disabled_setInst hrow hid (hbuilt id hid gen (by simpa [heq] using hgen))
        · intro id gen gen' hgen hgen'
          have hid' : id ≠ row.id := by
            rintro rfl
            exact absurd (hnone.symm.trans hgen') (by simp)
          exact hreused id gen gen' (by simpa [hid'] using hgen) hgen'
  · exact h

theorem inv_buildStore : s.buildStore.Inv := by
  simp only [buildStore]
  split
  next row rest cur built hr =>
    split
    next gen hgen =>
      have hrow : row.id ∈ s.down → row.status = .disabled := h.unbuilt _ hr row (by simp)
      refine ⟨fun id hid gen' hgen' => ?_, ?_, ?_, ?_⟩
      · exact disabled_setInst hrow hid (h.published id hid gen' hgen')
      all_goals rintro r ⟨⟩
      · exact fun row' hrow' => h.unbuilt _ hr row' (mem_cons_of_mem _ hrow')
      · intro id hid gen' hgen'
        by_cases heq : id = row.id
        · subst heq
          obtain rfl : gen = gen' := by simpa using hgen'
          exact disabled_setInst hrow hid (h.published row.id hid gen hgen)
        · exact disabled_setInst hrow hid (h.built _ hr id hid gen' (by simpa [heq] using hgen'))
      · intro id gen' gen'' hgen' hgen''
        by_cases heq : id = row.id
        · subst heq
          obtain rfl : gen = gen' := by simpa using hgen'
          exact Option.some.inj (hgen.symm.trans hgen'')
        · exact h.reused _ hr id gen' gen'' (by simpa [heq] using hgen') hgen''
    · exact h
  · exact h

theorem inv_publish : s.publish.Inv := by
  simp only [publish]
  split
  next hr => exact .of_idle rfl (h.built _ hr)
  · exact h

end

theorem down_failEnqueue (s : StatusSync) (i : Nat) :
    ∀ id ∈ (s.failEnqueue i).down, id ∈ s.down := by
  intro id hid
  simp only [failEnqueue] at hid
  split at hid
  next w hw =>
    split at hid
    · simp only [down, cons_append, mem_cons, mem_append] at hid ⊢
      rcases hid with rfl | hid | hid
      · exact .inr (mem_map_of_mem (mem_of_getElem? hw))
      · exact .inl hid
      · obtain ⟨w', hw', rfl⟩ := mem_map.mp hid
        exact .inr (mem_map_of_mem (mem_of_mem_eraseIdx hw'))
    · exact hid
  · exact hid

theorem inv_step (h : s.Inv) (op : StatusOp) (hord : s.Ordered op) : (s.step op).Inv := by
  cases op with
  | failAccount id reason now => exact inv_failAccount h id reason now hord
  | apply id st cooldownUntil weight errMsg now => exact inv_apply h ..
  | reloadRead => exact inv_reloadRead h hord
  | buildLoad => exact inv_buildLoad h
  | buildStore => exact inv_buildStore h
  | publish => exact inv_publish h
  | reloadFail => exact .of_idle rfl h.published
  | failEnqueue i =>
    refine h.of_frame ?_ ?_ ?_ (down_failEnqueue s i) <;> simp only [step, failEnqueue] <;> grind
  | applyCheck i =>
    refine h.of_frame ?_ ?_ ?_ ?_ <;> simp only [step, applyCheck] <;> grind [down]
  | applyEnqueue i =>
    refine h.of_frame ?_ ?_ ?_ ?_ <;> simp only [step, applyEnqueue] <;> grind [down]
  | writeStart =>
    refine h.of_frame ?_ ?_ ?_ ?_ <;> simp only [step, writeStart] <;> grind [down]
  | writeDrain i =>
    refine h.of_frame ?_ ?_ ?_ ?_ <;> simp only [step, writeDrain] <;> grind [down]
  | writeUpdate i j ok =>
    refine h.of_frame ?_ ?_ ?_ ?_ <;> simp only [step, writeUpdate] <;> grind [down]
  | admin rows => exact h.of_frame rfl rfl rfl fun _ h => h

/-- In every run from the start whose steps are ordered, an account of the snapshot stays disabled
once `FailAccount` has returned for it. -/
theorem failed_stays_disabled (db : List Account) (ops : List StatusOp)
    (hord : Run.Each step Ordered { db } ops) :
    ∀ t ∈ Run.states step { db } ops, ∀ id ∈ t.failed, ∀ st, t.statusOf id = some st →
      st = .disabled := by
  intro t ht id hid st hst
  have hinv := Run.Each.states_inv Inv (fun s op h => inv_step h op) hord (inv_init db) t ht
  obtain ⟨gen, hgen, rfl⟩ := Option.map_eq_some_iff.mp hst
  exact hinv.published id (mem_append_left _ hid) gen hgen

section

def keyedAccount : Account := { id := 1, template := some { id := 1 } }

def firstReload : List StatusOp := [.reloadRead, .buildLoad, .publish]

/-- The write of the failure reaches the database before the next reload reads. -/
def writtenFailure : List StatusOp :=
  firstReload ++ [.failAccount 1 "revoked" 0, .failEnqueue 0, .writeStart, .writeDrain 0,
    .writeUpdate 0 0 true, .reloadRead, .buildLoad, .buildStore, .publish]

theorem failed_stays_disabled_written :
    Run.Each step Ordered { db := [keyedAccount] } writtenFailure ∧
    (writtenFailure.foldl step { db := [keyedAccount] }).statusOf 1 = some .disabled := by
  have hord : Run.Each step Ordered { db := [keyedAccount] } writtenFailure := by decide
  have hstays := failed_stays_disabled [keyedAccount] writtenFailure hord _ Run.foldl_mem_states 1
    (by decide)
  exact ⟨hord, Option.eq_some_iff_get_eq.mpr ⟨by decide, hstays _ (Option.some_get _).symm⟩⟩

/-- A reload has read the account before it fails, and stores what it read after that. -/
def overtakenReload : List StatusOp :=
  firstReload ++ [.reloadRead, .failAccount 1 "revoked" 0, .failEnqueue 0, .buildLoad, .buildStore,
    .publish]

theorem overtakenReload_enables :
    1 ∈ (overtakenReload.foldl step { db := [keyedAccount] }).failed ∧
    (overtakenReload.foldl step { db := [keyedAccount] }).statusOf 1 = some .active := by
  decide

end
end StatusSync

/-! ### The write queue -/

def writeRows (db : List Account) (ws : List StatusWrite) : List Account :=
  ws.foldl (fun db w => db.map (·.update w)) db

/-- The queue is drained by calls of `processWrite`.  A call takes a first write and the ones that
it finds behind it, and makes the coalesced writes in the order of a map. -/
inductive Drained : List Account → List StatusWrite → List Account → Prop where
  | done (db : List Account) : Drained db [] db
  | processWrite {db db' : List Account} {w : StatusWrite} {found rest order : List StatusWrite}
      (horder : order.Perm (found.foldl coalesceWrites [w]))
      (hrest : Drained (writeRows db order) rest db') : Drained db (w :: found ++ rest) db'

variable {accs : List StatusWrite}

namespace Account

def statusColumns (a : Account) : Int × AccountStatus × Option Int × Option String × Int :=
  (a.id, a.status, a.cooldownUntil, a.lastError, a.weight)

/-- A coalesced write clears `failed_at` only if its last status is active, so this column is left
out of the comparison. -/
def unfailed (a : Account) : Account := { a with failedAt := none }

variable (a : Account) {w w' : StatusWrite}

@[simp] theorem id_update (w : StatusWrite) : (a.update w).id = a.id := by
  unfold update
  split <;> rfl

theorem update_of_ne (h : a.id ≠ w.id) : a.update w = a := if_neg fun h' => h h'.1

theorem update_comm (h : w.id ≠ w'.id) : (a.update w).update w' = (a.update w').update w := by
  by_cases hw : a.id = w.id
  · have hw' : a.id ≠ w'.id := hw ▸ h
    rw [update_of_ne _ ((id_update a w).symm ▸ hw'), update_of_ne a hw']
  · rw [update_of_ne a hw, update_of_ne (a.update w') ((id_update a w').symm ▸ hw)]

theorem unfailed_update (w : StatusWrite) : (a.update w).unfailed = a.unfailed.update w := by
  unfold update unfailed
  split <;> simp

theorem unfailed_foldl (ws : List StatusWrite) :
    (ws.foldl update a).unfailed = ws.foldl update a.unfailed := by
  induction ws generalizing a with
  | nil => rfl
  | cons w ws ih => rw [foldl_cons, ih, unfailed_update, foldl_cons]

theorem update_merged (h : w.id = w'.id) :
    a.unfailed.update { w' with weight := w'.weight.or w.weight } =
      (a.unfailed.update w).update w' := by
  by_cases hw : a.id = w'.id ∧ a.deletedAt = none
  · cases hweight : w'.weight <;> simp [update, unfailed, hw, h, hweight]
  · simp [update, unfailed, hw, h]

theorem foldl_update_comm (h : ∀ x ∈ accs, x.id ≠ w.id) :
    accs.foldl update (a.update w) = (accs.foldl update a).update w := by
  induction accs generalizing a with
  | nil => rfl
  | cons x accs ih =>
    obtain ⟨hx, haccs⟩ := forall_mem_cons.mp h
    rw [foldl_cons, update_comm a hx.symm, ih _ haccs, foldl_cons]

theorem foldl_coalesceWrites (hids : (accs.map (·.id)).Nodup) (w : StatusWrite) :
    (coalesceWrites accs w).foldl update a.unfailed = (accs.foldl update a.unfailed).update w := by
  unfold coalesceWrites
  split
  next prev hprev =>
    obtain ⟨hid, before, after, rfl, hbefore⟩ := find?_eq_some_iff_append.mp hprev
    have hid : prev.id = w.id := by simpa using hid
    have hbefore : ∀ x ∈ before, x.id ≠ w.id := fun x hx => by simpa using hbefore x hx
    have hafter : ∀ x ∈ after, x.id ≠ w.id := by
      intro x hx hxw
      rw [map_append, map_cons] at hids
      refine (nodup_cons.mp (nodup_append.mp hids).2.1).1 ?_
      rw [hid, ← hxw]
      exact mem_map_of_mem hx
    have hsame : ∀ l : List StatusWrite, (∀ x ∈ l, x.id ≠ w.id) →
        (l.map fun x => if x.id = w.id then { w with weight := w.weight.or prev.weight } else x) =
          l := fun l hl =>
      (map_congr_left fun x hx => if_neg (hl x hx)).trans (map_id _)
    rw [map_append, map_cons, hsame before hbefore, hsame after hafter, if_pos hid, foldl_append,
      foldl_cons, foldl_append, foldl_cons, ← unfailed_foldl, update_merged _ hid,
      foldl_update_comm _ hafter]
  · rw [foldl_append]
    rfl

end Account

variable (db : List Account) (ws : List StatusWrite)

theorem nodup_coalesceWrites (h : (accs.map (·.id)).Nodup) (w : StatusWrite) :
    ((coalesceWrites accs w).map (·.id)).Nodup := by
  unfold coalesceWrites
  split
  next prev hprev =>
    have hids : (accs.map fun a =>
        if a.id = w.id then { w with weight := w.weight.or prev.weight } else a).map (·.id) =
          accs.map (·.id) := by
      rw [map_map]
      refine map_congr_left fun x _ => ?_
      by_cases hx : x.id = w.id <;> simp [hx]
    rwa [hids]
  next hnone =>
    have hnew : w.id ∉ accs.map (·.id) := by simpa using find?_eq_none.mp hnone
    rw [map_append, map_singleton]
    exact h.append (nodup_singleton _) (disjoint_singleton.mpr hnew)

/-- What a call of `processWrite` leaves to write comes to the same as the writes it has taken. -/
theorem foldl_drained (a : Account) (h : (accs.map (·.id)).Nodup) (found : List StatusWrite) :
    ((found.foldl coalesceWrites accs).map (·.id)).Nodup ∧
      (found.foldl coalesceWrites accs).foldl Account.update a.unfailed =
        found.foldl Account.update (accs.foldl Account.update a.unfailed) := by
  induction found generalizing accs with
  | nil => exact ⟨h, rfl⟩
  | cons w found ih =>
    obtain ⟨hids, hfold⟩ := ih (nodup_coalesceWrites h w)
    exact ⟨hids, by rw [foldl_cons, hfold, a.foldl_coalesceWrites h, foldl_cons]⟩

theorem writeRows_eq : writeRows db ws = db.map fun a => ws.foldl Account.update a := by
  induction ws generalizing db with
  | nil => exact (map_id _).symm
  | cons w ws ih => rw [writeRows, foldl_cons, ← writeRows, ih, map_map]; rfl

theorem unfailed_writeRows :
    (writeRows db ws).map Account.unfailed =
      (db.map Account.unfailed).map fun a => ws.foldl Account.update a := by
  rw [writeRows_eq, map_map, map_map]
  exact map_congr_left fun a _ => a.unfailed_foldl ws

theorem Drained.unfailed {db db' : List Account} {queue : List StatusWrite}
    (h : Drained db queue db') :
    db'.map Account.unfailed = (writeRows db queue).map Account.unfailed := by
  induction h with
  | done db => rfl
  | @processWrite db db' w found rest order horder _ ih =>
    rw [ih, unfailed_writeRows, unfailed_writeRows, unfailed_writeRows, map_map, map_map, map_map]
    refine map_congr_left fun a _ => ?_
    obtain ⟨hids, hfold⟩ := foldl_drained a
      (show ([w].map (·.id)).Nodup from nodup_singleton w.id) found
    -- The order of the map does not matter, since each account is written once.
    have hcomm : ∀ x ∈ order, ∀ y ∈ order, ∀ b : Account,
        (b.update x).update y = (b.update y).update x := by
      intro x hx y hy b
      by_cases hxy : x.id = y.id
      · rw [inj_on_of_nodup_map hids (horder.mem_iff.mp hx) (horder.mem_iff.mp hy) hxy]
      · exact b.update_comm hxy
    have hperm := horder.foldl_eq' hcomm a.unfailed
    simp only [Function.comp_apply, hperm, hfold, foldl_append]
    rfl

/-- However the queue is split into calls of `processWrite`, the columns that it writes end as if
all writes had been made one by one. -/
theorem drained_status {db db' : List Account} {queue : List StatusWrite}
    (h : Drained db queue db') :
    db'.map Account.statusColumns = (writeRows db queue).map Account.statusColumns := by
  have hcolumns : Account.statusColumns = Account.statusColumns ∘ Account.unfailed := rfl
  rw [hcolumns, ← map_map, h.unfailed, map_map]

def weightWrite : StatusWrite := { id := 1, status := .active, weight := some 40 }

def failureWrite : StatusWrite := { id := 1, status := .disabled, lastErr := some "revoked" }

/-- The weight is kept when one call takes both writes. -/
theorem drained_status_weight : ∃ db',
    Drained [StatusSync.keyedAccount] [weightWrite, failureWrite] db' ∧
      db'.map Account.statusColumns = [(1, .disabled, none, some "revoked", 40)] := by
  have h : Drained [StatusSync.keyedAccount] (weightWrite :: [failureWrite] ++ []) _ :=
    .processWrite (.refl _) (.done _)
  exact ⟨_, h, (drained_status h).trans (by decide)⟩

end C4Gateway
