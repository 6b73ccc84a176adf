import C4Gateway.Auth.Keys
import C4Gateway.Lib.Run

/-! Management of keys next to reloads of the snapshot.  An operation writes to the table and then
changes the snapshot itself; a reload reads the table without a lock and later replaces the whole
snapshot.  What an operation has done is kept exactly if nothing outdated is published for a key
that is settled. -/

namespace C4Gateway.Auth

open Option List

inductive KeyOp where
  | create (userID groupID maxConcurrency quota : Int) (name : String) (bytes : List UInt8)
  | update (userID keyID : Int) (change : KeyChange)
  | rotate (userID keyID : Int) (bytes : List UInt8)
  | delete (userID keyID : Int)
  | deleteGroups (ids : List Int)
  deriving DecidableEq, Repr

/-- An operation before its write, with what it has read. -/
inductive Pending where
  | create (userID groupID maxConcurrency quota : Int) (name : String) (raw : GroupKey) (u : User)
  | update (p : KeyPatch) (u : User)
  | rotate (cur : KeyRow) (raw : GroupKey) (u : User)
  | delete (cur : KeyRow)
  | deleteGroups (ids : List Int)

/-- What an operation does to the snapshot once its write is done. -/
inductive MemAct where
  | upsert (raw : GroupKey) (entry : AuthMeta)
  | delete (raw : GroupKey)
  deriving DecidableEq

/-- What a write leads to: the table, the changes of the snapshot that follow, and the keys that
the operation withdraws or issues. -/
structure Written where
  table : KeyTable
  acts : List MemAct
  owes : List GroupKey

def KeyChange.valid (c : KeyChange) : Bool :=
  c.name ≠ some "" && c.maxConcurrency.all (0 ≤ ·) && c.quota.all (0 ≤ ·) && c.groupID.all (0 < ·)

def ownedKey (t : KeyTable) (userID keyID : Int) : Option KeyRow :=
  (t.rows.find? fun row => row.id = keyID).filter fun row => !row.deleted && row.userID = userID

/-- The checks and reads before the write.  Whether the checks of the group pass is an argument. -/
def prepare (users : Int → Option User) (t : KeyTable) (groupOk : Bool) : KeyOp → Option Pending
  | .create userID groupID maxConcurrency quota name bytes =>
    if name = "" ∨ groupID ≤ 0 ∨ maxConcurrency < 0 ∨ quota < 0 ∨ groupOk = false then none
    else (users userID).map
      (.create userID groupID maxConcurrency quota name (newGroupKey bytes))
  | .update userID keyID change =>
    (ownedKey t userID keyID).bind fun cur =>
      if change.valid = false ∨ change = {} ∨ groupOk = false then none
      else (users userID).map
        (.update { change with id := cur.id, expectedUpdatedAt := cur.updatedAt })
  | .rotate userID keyID bytes =>
    (ownedKey t userID keyID).bind fun cur =>
      if groupOk = false then none
      else (users userID).map (.rotate cur (newGroupKey bytes))
  | .delete userID keyID => (ownedKey t userID keyID).map .delete
  | .deleteGroups ids => if groupOk then some (.deleteGroups ids) else none

/-- The entry of a row, with the gate fields of a user that was read before the write. -/
def keyMeta (row : KeyRow) (u : User) : AuthMeta where
  keyID := row.id
  userID := row.userID
  groupID := row.groupID
  keyStatus := row.status
  keyMaxConc := row.maxConcurrency
  hasQuota := row.quota > 0
  quota := row.quota
  quotaUsed := row.quotaUsed
  userStatus := some u.status
  userMaxConc := u.maxConcurrency

/-- The texts of the rows that a statement on one id hits. -/
def rawsOf (t : KeyTable) (id : Int) : List GroupKey :=
  (t.rows.filter (liveRow id)).map KeyRow.raw

/-- The statement of an operation; absent if it finds no row, or another version of it. -/
def Pending.write (t : KeyTable) (now : Int) : Pending → Option Written
  | .create userID groupID maxConcurrency quota name raw u =>
    (t.createKey userID groupID maxConcurrency quota name raw now).map fun r =>
      ⟨r.1, [.upsert r.2.raw (keyMeta r.2 u)], [r.2.raw]⟩
  | .update p u =>
    (t.updateKey p now).map fun r =>
      ⟨r.1, [.upsert r.2.raw (keyMeta r.2 u)],
        if p.status = some .disabled then [r.2.raw] else []⟩
  | .rotate cur raw u =>
    (t.rotateKey cur.id raw now).map fun r =>
      -- the text that is removed is the one that was read before the write
      ⟨r.1, [.delete cur.raw, .upsert r.2.raw (keyMeta r.2 u)], rawsOf t cur.id ++ [r.2.raw]⟩
  | .delete cur =>
    (t.deleteKey cur.id now).map fun t' => ⟨t', [.delete cur.raw], rawsOf t cur.id⟩
  | .deleteGroups ids =>
    let r := t.deleteKeysByGroup ids
    some ⟨r.1, r.2.map .delete, r.2⟩

def MemAct.raw : MemAct → GroupKey
  | .upsert raw _ => raw
  | .delete raw => raw

def MemAct.entry : MemAct → Option AuthMeta
  | .upsert _ entry => some entry
  | .delete _ => none

/-- `Upsert` or `Delete`, under the lock. -/
def MemAct.apply (a : MemAct) (keys : Keys) : Keys := Function.update keys a.raw.text a.entry

/-- The entry that is published makes requests with the key succeed. -/
def MemAct.admits (a : MemAct) : Bool := a.entry.any AuthMeta.active

/-- An operation has not written yet, or has parts of the snapshot still to change. -/
inductive Stage where
  | writing (p : Pending)
  | publishing (acts : List MemAct) (owes : List GroupKey)

/-- A reload with chunks still to read, or with both maps at hand. -/
inductive Reloading where
  | loading (chunks : List (List Int)) (out : Keys)
  | ready (keys : Keys) (states : Int → Option UserStatus)

/-- The table, the snapshot, the operations and reloads in flight, and the keys that an operation
which has returned withdrew or issued, as long as no later write says otherwise. -/
structure World where
  table : KeyTable
  keys : Keys := fun _ => none
  states : Int → Option UserStatus := fun _ => none
  ops : List Stage := []
  reloads : List Reloading := []
  due : List GroupKey := []

/-- Operations and reloads start and take their steps in any order. -/
inductive AuthStep where
  | begin (op : KeyOp) (groupOk : Bool)
  | write (i : Nat) (now : Int) (fault : Bool)
  | act (i : Nat)
  | scan
  | chunk (i : Nat)
  | users (i : Nat)
  | publish (i : Nat)
  | fail (i : Nat)
  deriving DecidableEq, Repr

/-- Of the keys an operation is responsible for, those that a write by another has not changed. -/
def Stage.keep (same : GroupKey → Bool) : Stage → Stage
  | .writing p => .writing p
  | .publishing acts owes => .publishing acts (owes.filter same)

namespace World

variable (users : Int → Option User)

/-- A write takes effect.  What is due for a text lapses when the write changes its row. -/
def commit (w : World) (i : Nat) : Option Written → World
  | none => { w with ops := w.ops.eraseIdx i }
  | some r =>
    let same := fun raw => w.table.live users raw == r.table.live users raw
    let ops := w.ops.map (Stage.keep same)
    { w with
      table := r.table
      ops := if r.acts = [] then ops.eraseIdx i else ops.set i (.publishing r.acts r.owes)
      due := w.due.filter same }

/-- One change of the snapshot by an operation, which returns after its last one. -/
def change (w : World) (i : Nat) (a : MemAct) (rest : List MemAct) (owes : List GroupKey) :
    World :=
  { w with
    keys := a.apply w.keys
    ops := if rest = [] then w.ops.eraseIdx i else w.ops.set i (.publishing rest owes)
    due := if rest = [] then owes ++ w.due else w.due }

/-- An operation or a reload makes its next step. -/
def step (w : World) : AuthStep → World
  | .begin op groupOk =>
    { w with ops := w.ops ++ ((prepare users w.table groupOk op).map Stage.writing).toList }
  | .write i now fault =>
    match w.ops[i]? with
    | some (.writing p) => w.commit users i (if fault then none else p.write w.table now)
    | _ => w
  | .act i =>
    match w.ops[i]? with
    | some (.publishing (a :: rest) owes) => w.change i a rest owes
    | _ => w
  | .scan =>
    { w with
      reloads := w.reloads ++ [.loading (chunkIDs w.table.scanIDs inChunkSize) fun _ => none] }
  | .chunk i =>
    match w.reloads[i]? with
    | some (.loading (chunk :: chunks) out) =>
      { w with reloads := w.reloads.set i (.loading chunks (w.table.loadChunk users out chunk)) }
    | _ => w
  | .users i =>
    match w.reloads[i]? with
    | some (.loading [] out) =>
      { w with reloads := w.reloads.set i (.ready out fun id => (users id).map User.status) }
    | _ => w
  | .publish i =>
    match w.reloads[i]? with
    | some (.ready keys states) => { w with keys, states, reloads := w.reloads.eraseIdx i }
    | _ => w
  | .fail i => { w with reloads := w.reloads.eraseIdx i }

end World

/-- Every row is still there, under its id and with its user. -/
def KeyTable.Keeps (t t' : KeyTable) : Prop :=
  ∀ row ∈ t.rows, ∃ row' ∈ t'.rows, row'.id = row.id ∧ row'.userID = row.userID

/-- A row has been stored as that of a live key. -/
structure KeyTable.Stores (t t' : KeyTable) (row : KeyRow) : Prop where
  keeps : t.Keeps t'
  mem : row ∈ t'.rows
  live : row.deleted = false

/-- The user that an operation has read is the one of the row that it writes. -/
def Pending.Owned (users : Int → Option User) (t : KeyTable) : Pending → Prop
  | .create userID _ _ _ _ _ u => users userID = some u
  | .update p u => ∃ row ∈ t.rows, row.id = p.id ∧ users row.userID = some u
  | .rotate cur _ u => ∃ row ∈ t.rows, row.id = cur.id ∧ users row.userID = some u
  | .delete _ | .deleteGroups _ => True

/-- What holds of an operation in flight: its last change of the snapshot is right for a key that no
other write has changed since its own. -/
def Stage.Sound (users : Int → Option User) (t : KeyTable) : Stage → Prop
  | .writing p => p.Owned users t
  | .publishing acts owes =>
    ∀ a ∈ acts.getLast?, a.raw ∈ owes → a.admits = t.live users a.raw

variable {users : Int → Option User} {u : User} {p : Pending} {t' : KeyTable} {row : KeyRow}
  {raw : GroupKey}

section
variable {t : KeyTable}

theorem exists_of_ownedKey {userID keyID : Int} {cur : KeyRow}
    (h : ownedKey t userID keyID = some cur) (hu : users userID = some u) :
    ∃ row ∈ t.rows, row.id = cur.id ∧ users row.userID = some u := by
  obtain ⟨hfind, hkeep⟩ := filter_eq_some_iff.mp h
  simp only [Bool.and_eq_true, decide_eq_true_eq] at hkeep
  exact ⟨cur, mem_of_find?_eq_some hfind, rfl, hkeep.2 ▸ hu⟩

theorem prepare_owned {groupOk : Bool} {op : KeyOp}
    (h : prepare users t groupOk op = some p) : p.Owned users t := by
  cases op with
  | create userID groupID maxConcurrency quota name bytes =>
    simp only [prepare, ite_none_left_eq_some, map_eq_some_iff] at h
    obtain ⟨-, u, hu, rfl⟩ := h
    exact hu
  | update userID keyID change | rotate userID keyID bytes =>
    simp only [prepare, bind_eq_some_iff, ite_none_left_eq_some, map_eq_some_iff] at h
    obtain ⟨cur, hcur, -, u, hu, rfl⟩ := h
    exact exists_of_ownedKey hcur hu
  | delete userID keyID =>
    simp only [prepare, map_eq_some_iff] at h
    obtain ⟨cur, -, rfl⟩ := h
    trivial
  | deleteGroups ids =>
    simp only [prepare, ite_none_right_eq_some, Option.some.injEq] at h
    obtain ⟨-, rfl⟩ := h
    trivial

theorem Pending.Owned.keeps (h : p.Owned users t) (hkeeps : t.Keeps t') : p.Owned users t' := by
  have hrow : ∀ {id : Int} {u : User}, (∃ row ∈ t.rows, row.id = id ∧ users row.userID = some u) →
      ∃ row ∈ t'.rows, row.id = id ∧ users row.userID = some u := by
    rintro id u ⟨row, hmem, rfl, hu⟩
    obtain ⟨row', hmem', hid, huser⟩ := hkeeps row hmem
    exact ⟨row', hmem', hid, huser ▸ hu⟩
  cases p with
  | create => exact h
  | update p u | rotate cur raw u => exact hrow h
  | delete | deleteGroups => trivial

theorem active_keyMeta (h : users row.userID = some u) :
    (keyMeta row u).active = (loadedMeta users row).active := by
  simp [keyMeta, loadedMeta, h]

namespace KeyTable

section
variable {t' : KeyTable} (cond : KeyRow → Bool) (change : KeyRow → KeyRow)
  (hrows : t'.rows = t.rows.map fun r => bif cond r then change r else r)
include hrows

theorem mem_of_rows (h : row ∈ t.rows) (hcond : cond row = true) :
    change row ∈ t'.rows := by
  rw [hrows]
  refine mem_map.mpr ⟨row, h, ?_⟩
  rw [hcond]
  rfl

theorem keeps_of_rows (hid : ∀ r, (change r).id = r.id)
    (huser : ∀ r, (change r).userID = r.userID) : t.Keeps t' := by
  intro row hrow
  rw [hrows]
  refine ⟨_, mem_map_of_mem hrow, ?_⟩
  cases cond row
  · exact ⟨rfl, rfl⟩
  · exact ⟨hid row, huser row⟩

/-- The row that a statement on one id reports has been stored by it. -/
theorem stores_of_rows {id : Int} (hid : ∀ r, (change r).id = r.id)
    (huser : ∀ r, (change r).userID = r.userID) (hdel : ∀ r, (change r).deleted = r.deleted)
    (hcond : ∀ r, cond r = true → liveRow id r = true)
    (h : (t.returning cond change).head? = some row) : t.Stores t' row ∧ row.id = id := by
  obtain ⟨old, hold, rfl⟩ := mem_map.mp (mem_of_mem_head? h)
  obtain ⟨hold, hsel⟩ := mem_filter.mp hold
  have hlive := hcond old hsel
  simp only [liveRow, Bool.and_eq_true, decide_eq_true_eq, Bool.not_eq_true'] at hlive
  exact ⟨⟨keeps_of_rows cond change hrows hid huser, mem_of_rows cond change hrows hold hsel,
    (hdel old).trans hlive.2⟩, (hid old).trans hlive.1⟩

theorem live_of_rows_deleted (hkeep : ∀ r, (change r).raw = r.raw)
    (hgone : ∀ r, (change r).deleted = true) (h : raw ∈ (t.rows.filter cond).map KeyRow.raw) :
    t'.live users raw = false := by
  obtain ⟨old, hold, rfl⟩ := mem_map.mp h
  obtain ⟨hold, hcond⟩ := mem_filter.mp hold
  rw [← hkeep old, live_of_mem (mem_of_rows cond change hrows hold hcond), hgone]
  rfl

end

variable {now : Int} {r : KeyTable × KeyRow}

theorem createKey_spec {userID groupID maxConcurrency quota : Int} {name : String}
    (h : t.createKey userID groupID maxConcurrency quota name raw now = some r) :
    t.Stores r.1 r.2 ∧ r.2.userID = userID := by
  simp only [createKey, dite_none_left_eq_some, Option.some.injEq] at h
  obtain ⟨-, rfl⟩ := h
  refine ⟨⟨fun row hrow => ⟨row, mem_append_left _ hrow, rfl, rfl⟩, ?_, rfl⟩, rfl⟩
  exact mem_append_right _ (mem_singleton_self _)

theorem updateKey_spec {p : KeyPatch} (h : t.updateKey p now = some r) :
    t.Stores r.1 r.2 ∧ r.2.id = p.id := by
  obtain ⟨row, hrow, rfl⟩ := map_eq_some_iff.mp h
  refine stores_of_rows p.cond (p.apply now) rfl (fun _ => rfl) (fun _ => rfl) (fun _ => rfl) ?_
    hrow
  intro old hold
  simp only [KeyPatch.cond, Bool.and_eq_true] at hold
  simpa only [liveRow, Bool.and_eq_true] using hold.1

theorem rotateKey_spec {id : Int} (h : t.rotateKey id raw now = some r) :
    t.Stores r.1 r.2 ∧ r.2.id = id := by
  simp only [rotateKey, dite_none_left_eq_some, map_eq_some_iff] at h
  obtain ⟨-, row, hrow, rfl⟩ := h
  exact stores_of_rows (liveRow id) (rotated raw now) rfl (fun _ => rfl) (fun _ => rfl)
    (fun _ => rfl) (fun _ hold => hold) hrow

theorem deleteKey_eq_some {id : Int} (h : t.deleteKey id now = some t') :
    t'.rows = t.rows.map fun r => bif liveRow id r then removed now r else r := by
  simp only [deleteKey, ite_none_right_eq_some, Option.some.injEq] at h
  obtain ⟨-, rfl⟩ := h
  rfl

end KeyTable

theorem Pending.write_keeps {now : Int} {r : Written}
    (h : p.write t now = some r) : t.Keeps r.table := by
  cases p with
  | create userID groupID maxConcurrency quota name raw u =>
    obtain ⟨_, hwrite, rfl⟩ := map_eq_some_iff.mp h
    exact (KeyTable.createKey_spec hwrite).1.keeps
  | update p u =>
    obtain ⟨_, hwrite, rfl⟩ := map_eq_some_iff.mp h
    exact (KeyTable.updateKey_spec hwrite).1.keeps
  | rotate cur raw u =>
    obtain ⟨_, hwrite, rfl⟩ := map_eq_some_iff.mp h
    exact (KeyTable.rotateKey_spec hwrite).1.keeps
  | delete cur =>
    obtain ⟨_, hwrite, rfl⟩ := map_eq_some_iff.mp h
    exact KeyTable.keeps_of_rows _ _ (KeyTable.deleteKey_eq_some hwrite) (fun _ => rfl) fun _ => rfl
  | deleteGroups ids =>
    cases h
    exact KeyTable.keeps_of_rows (KeyTable.inGroups ids) softDeleted rfl (fun _ => rfl) fun _ => rfl

/-- The entry of a stored row decides about its text as the table does. -/
theorem KeyTable.Stores.admits (h : t.Stores t' row) (hu : users row.userID = some u) :
    (MemAct.upsert row.raw (keyMeta row u)).admits = t'.live users row.raw := by
  rw [KeyTable.live_of_mem h.mem, h.live, ← active_keyMeta hu]
  rfl

/-- The user of the row that has been stored is the one that was read before. -/
theorem KeyTable.Stores.user (h : t.Stores t' row)
    (hu : ∃ old ∈ t.rows, old.id = row.id ∧ users old.userID = some u) :
    users row.userID = some u := by
  obtain ⟨old, hold, hid, hu⟩ := hu
  obtain ⟨row', hrow', hid', huser⟩ := h.keeps old hold
  obtain rfl := KeyTable.eq_of_id hrow' h.mem (hid'.trans hid)
  rw [huser, hu]

/-- After the write, the last change that the operation will make to the snapshot is right for the
keys that it withdraws or issues. -/
theorem Pending.write_last {now : Int} {r : Written} (hp : p.Owned users t)
    (h : p.write t now = some r) :
    ∀ a ∈ r.acts.getLast?, a.raw ∈ r.owes → a.admits = r.table.live users a.raw := by
  intro a ha howes
  cases p with
  | create userID groupID maxConcurrency quota name raw u =>
    obtain ⟨_, hwrite, rfl⟩ := map_eq_some_iff.mp h
    obtain rfl := Option.some.inj ha
    obtain ⟨hstores, huser⟩ := KeyTable.createKey_spec hwrite
    exact hstores.admits (huser ▸ hp)
  | update p u =>
    obtain ⟨_, hwrite, rfl⟩ := map_eq_some_iff.mp h
    obtain rfl := Option.some.inj ha
    obtain ⟨hstores, hid⟩ := KeyTable.updateKey_spec hwrite
    exact hstores.admits (hstores.user (hid ▸ hp))
  | rotate cur raw u =>
    obtain ⟨_, hwrite, rfl⟩ := map_eq_some_iff.mp h
    obtain rfl := Option.some.inj ha
    obtain ⟨hstores, hid⟩ := KeyTable.rotateKey_spec hwrite
    exact hstores.admits (hstores.user (hid ▸ hp))
  | delete cur =>
    obtain ⟨_, hwrite, rfl⟩ := map_eq_some_iff.mp h
    obtain rfl := Option.some.inj ha
    exact (KeyTable.live_of_rows_deleted _ _ (KeyTable.deleteKey_eq_some hwrite) (fun _ => rfl)
      (fun _ => rfl) howes).symm
  | deleteGroups ids =>
    cases h
    obtain ⟨raw, hraw, rfl⟩ := mem_map.mp (mem_of_getLast? ha)
    exact (KeyTable.live_of_rows_deleted (KeyTable.inGroups ids) softDeleted rfl (fun _ => rfl)
      (fun _ => rfl) hraw).symm

end

theorem Stage.Sound.keep {users : Int → Option User} {t t' : KeyTable} {st : Stage}
    (h : st.Sound users t) (hkeeps : t.Keeps t') :
    (st.keep fun raw => t.live users raw == t'.live users raw).Sound users t' := by
  cases st with
  | writing p => exact Pending.Owned.keeps h hkeeps
  | publishing acts owes =>
    intro a ha howes
    obtain ⟨howes, hsame⟩ := mem_filter.mp howes
    rw [h a ha howes, eq_of_beq hsame]

variable {w : World}

namespace World

variable (users : Int → Option User)

/-- Requests with a key that an operation has withdrawn fail, and requests with a key that one has
issued succeed, once the operation has returned and until a later write changes the key. -/
def Kept (w : World) : Prop :=
  ∀ raw ∈ w.due, ∀ r : HttpRequest, gatewayKeyFromRequest r = raw.text →
    (authenticate w.keys r).isSome = w.table.live users raw

/-- What a step publishes for a settled key is what the table holds now, and an operation that
returns finds the other keys it is responsible for as the table holds them. -/
def UpToDate (w : World) : AuthStep → Prop
  | .act i => ∀ a rest owes, w.ops[i]? = some (.publishing (a :: rest) owes) →
      (a.raw ∈ w.due → a.admits = w.table.live users a.raw) ∧
      (rest = [] → ∀ raw ∈ owes, raw ≠ a.raw →
        admitted w.keys raw = w.table.live users raw)
  | .publish i => ∀ keys states, w.reloads[i]? = some (.ready keys states) →
      ∀ raw ∈ w.due, admitted keys raw = w.table.live users raw
  | _ => True

variable {users}

theorem kept_iff :
    w.Kept users ↔ ∀ raw ∈ w.due, admitted w.keys raw = w.table.live users raw :=
  forall₂_congr fun _ _ => forall_authenticate_iff

theorem admitted_apply (a : MemAct) (keys : Keys) (raw : GroupKey) :
    admitted (a.apply keys) raw = if raw = a.raw then a.admits else admitted keys raw := by
  by_cases heq : raw = a.raw
  · rw [if_pos heq, heq, admitted, MemAct.apply, Function.update_self]
    rfl
  · have htext : raw.text ≠ a.raw.text := fun h => heq (GroupKey.ext h)
    rw [if_neg heq, admitted, MemAct.apply, Function.update_of_ne htext]
    rfl

theorem sound_commit {i : Nat} {now : Int} {r : Option Written}
    (h : ∀ st ∈ w.ops, st.Sound users w.table) (hp : p.Owned users w.table)
    (hr : ∀ r' ∈ r, p.write w.table now = some r') :
    ∀ st ∈ (w.commit users i r).ops, st.Sound users (w.commit users i r).table := by
  cases r with
  | none => exact fun st hst => h st (mem_of_mem_eraseIdx hst)
  | some r =>
    have hwrite := hr r rfl
    have hkept : ∀ st ∈ w.ops.map (Stage.keep fun raw =>
        w.table.live users raw == r.table.live users raw), st.Sound users r.table := by
      intro st hst
      obtain ⟨st', hst', rfl⟩ := mem_map.mp hst
      exact Stage.Sound.keep (h st' hst') (Pending.write_keeps hwrite)
    intro st hst
    simp only [commit] at hst
    split at hst
    · exact hkept st (mem_of_mem_eraseIdx hst)
    · rcases mem_or_eq_of_mem_set hst with hst | rfl
      · exact hkept st hst
      · exact Pending.write_last hp hwrite

theorem sound_change {i : Nat} {a : MemAct} {rest : List MemAct} {owes : List GroupKey}
    (h : ∀ st ∈ w.ops, st.Sound users w.table)
    (hi : w.ops[i]? = some (.publishing (a :: rest) owes)) :
    ∀ st ∈ (w.change i a rest owes).ops, st.Sound users w.table := by
  intro st hst
  simp only [change] at hst
  split at hst
  · exact h st (mem_of_mem_eraseIdx hst)
  · next hrest =>
    rcases mem_or_eq_of_mem_set hst with hst | rfl
    · exact h st hst
    · intro b hb
      have hlast := h _ (mem_of_getElem? hi)
      exact hlast b (by rwa [getLast?_cons_of_ne_nil hrest])

/-- Every step keeps what is known about the operations in flight. -/
theorem sound_step (s : AuthStep) (h : ∀ st ∈ w.ops, st.Sound users w.table) :
    ∀ st ∈ (w.step users s).ops, st.Sound users (w.step users s).table := by
  cases s with
  | begin op groupOk =>
    intro st hst
    simp only [step, mem_append, mem_toList, map_eq_some_iff] at hst
    rcases hst with hst | ⟨p, hp, rfl⟩
    · exact h st hst
    · exact prepare_owned hp
  | write i now fault =>
    simp only [step]
    split
    · next p hi =>
      have hr : ∀ r ∈ if fault then none else p.write w.table now,
          p.write w.table now = some r := by
        intro r hr
        split at hr
        · exact absurd hr (by simp)
        · exact hr
      exact sound_commit h (h _ (mem_of_getElem? hi)) hr
    · exact h
  | act i =>
    simp only [step]
    split
    · next hi => exact sound_change h hi
    · exact h
  | chunk i | users i | publish i => simp only [step]; split <;> exact h
  | scan | fail i => exact h

theorem kept_commit (i : Nat) (r : Option Written) (h : w.Kept users) :
    (w.commit users i r).Kept users := by
  rw [kept_iff] at h ⊢
  cases r with
  | none => exact h
  | some r =>
    intro raw hraw
    obtain ⟨hdue, hsame⟩ := mem_filter.mp hraw
    exact (h raw hdue).trans (eq_of_beq hsame)

theorem kept_change_iff {i : Nat} {a : MemAct} {rest : List MemAct} {owes : List GroupKey}
    (h : w.Kept users) (hlast : (Stage.publishing (a :: rest) owes).Sound users w.table) :
    (w.change i a rest owes).Kept users ↔
      (a.raw ∈ w.due → a.admits = w.table.live users a.raw) ∧
      (rest = [] → ∀ raw ∈ owes, raw ≠ a.raw →
        admitted w.keys raw = w.table.live users raw) := by
  rw [kept_iff] at h ⊢
  simp only [change, admitted_apply]
  constructor
  · intro hall
    constructor
    · intro hdue
      have hmem : a.raw ∈ if rest = [] then owes ++ w.due else w.due := by
        split
        · exact mem_append_right _ hdue
        · exact hdue
      simpa using hall a.raw hmem
    · intro hrest raw hraw hne
      have hmem : raw ∈ if rest = [] then owes ++ w.due else w.due := by
        rw [if_pos hrest]
        exact mem_append_left _ hraw
      simpa [hne] using hall raw hmem
  · rintro ⟨hpub, hret⟩ raw hraw
    by_cases heq : raw = a.raw
    · subst heq
      rw [if_pos rfl]
      split at hraw
      · next hrest =>
        rcases mem_append.mp hraw with howes | hdue
        · exact hlast a (by rw [hrest]; rfl) howes
        · exact hpub hdue
      · exact hpub hraw
    · rw [if_neg heq]
      split at hraw
      · next hrest =>
        rcases mem_append.mp hraw with howes | hdue
        · exact hret hrest raw howes heq
        · exact h raw hdue
      · exact h raw hraw

/-- What holds of settled keys before a step holds after it exactly if the step is up to date. -/
theorem kept_step_iff (s : AuthStep) (hs : ∀ st ∈ w.ops, st.Sound users w.table)
    (h : w.Kept users) : (w.step users s).Kept users ↔ w.UpToDate users s := by
  cases s with
  | write i now fault =>
    refine iff_of_true ?_ trivial
    simp only [step]
    split
    · exact kept_commit _ _ h
    · exact h
  | act i =>
    simp only [step]
    split
    · next a rest owes hi =>
      rw [kept_change_iff h (hs _ (mem_of_getElem? hi))]
      constructor
      · rintro hall a' rest' owes' hi'
        cases hi.symm.trans hi'
        exact hall
      · exact fun hall => hall a rest owes hi
    · next hi => exact iff_of_true h fun a rest owes hi' => absurd hi' (hi a rest owes)
  | chunk i | users i =>
    refine iff_of_true ?_ trivial
    simp only [step]
    split <;> exact h
  | publish i =>
    simp only [step]
    split
    · next keys states hi =>
      rw [kept_iff]
      constructor
      · rintro hall keys' states' hi'
        cases hi.symm.trans hi'
        exact hall
      · exact fun hall => hall keys states hi
    · next hi => exact iff_of_true h fun keys states hi' => absurd hi' (hi keys states)
  | begin | scan | fail i => exact iff_of_true h trivial

end World

/-- In every interleaving of operations and reloads, whatever their number, the changes of the
operations that have returned are kept exactly if every step is up to date. -/
theorem changes_kept_iff (users : Int → Option User) (t : KeyTable) (steps : List AuthStep) :
    (∀ w ∈ Run.states (World.step users) { table := t } steps, w.Kept users) ↔
      Run.Each (World.step users) (World.UpToDate users) { table := t } steps :=
  Run.each_iff_states (fun w => ∀ st ∈ w.ops, st.Sound users w.table) (World.Kept users)
    (fun _ s hs _ => World.sound_step s hs) (fun _ s hs h => World.kept_step_iff s hs h)
    (fun _ hst => absurd hst not_mem_nil) fun _ hraw => absurd hraw not_mem_nil

def activeUsers : Int → Option User := fun _ => some { status := .active }

def storedKey : GroupKey := newGroupKey [1]

def issuedKey : GroupKey := newGroupKey [2]

/-- One active key, with id 1, of the user 7 in the group 3. -/
def oneKey : KeyTable where
  rows := [{ id := 1, userID := 7, groupID := 3, name := "main", raw := storedKey }]
  ids := nodup_singleton _
  raws := nodup_singleton _

/-- Whether a key is settled, whether the table holds it as usable, and whether a request with it is
accepted, at the end of a run. -/
def outcome (steps : List AuthStep) (raw : GroupKey) : Bool × Bool × Bool :=
  let w := steps.foldl (World.step activeUsers) { table := oneKey }
  (w.due.contains raw, w.table.live activeUsers raw,
    (authenticate w.keys { xApiKey := raw.text }).isSome)

/-- A key that has been deleted is accepted again after a reload that read the table before, a new
key is refused after such a reload, a deleted key is accepted after the late `Upsert` of an earlier
change of its name, and one whose text was rotated before the deletion is never removed. -/
theorem changes_undone :
    outcome [.scan, .chunk 0, .users 0, .begin (.delete 7 1) true, .write 0 5 false, .act 0,
      .publish 0] storedKey = (true, false, true) ∧
    outcome [.scan, .chunk 0, .users 0, .begin (.create 7 3 0 0 "second" [2]) true,
      .write 0 5 false, .act 0, .publish 0] issuedKey = (true, true, false) ∧
    outcome [.begin (.update 7 1 { name := some "renamed" }) true, .write 0 5 false,
      .begin (.delete 7 1) true, .write 1 6 false, .act 1, .act 0] storedKey =
        (true, false, true) ∧
    outcome [.begin (.delete 7 1) true, .begin (.rotate 7 1 [2]) true, .write 1 5 false, .act 1,
      .act 1, .write 0 6 false, .act 0] issuedKey = (true, false, true) := by
  decide +kernel

/-- A reload that nothing overlaps loads the chunks one after the other. -/
theorem World.foldl_chunk (users : Int → Option User) (w : World) (l : List Reloading)
    (chunks : List (List Int)) (out : Keys) :
    (List.replicate chunks.length (AuthStep.chunk l.length)).foldl (World.step users)
        { w with reloads := l ++ [.loading chunks out] } =
      { w with reloads := l ++ [.loading [] (chunks.foldl (w.table.loadChunk users) out)] } := by
  induction chunks generalizing out with
  | nil => rfl
  | cons chunk chunks ih =>
    rw [length_cons, replicate_succ, foldl_cons, foldl_cons, ← ih]
    simp [World.step]

/-- The steps of a reload, from its first read to its publication. -/
def reloadSteps (t : KeyTable) (i : Nat) : List AuthStep :=
  .scan :: List.replicate (chunkIDs t.scanIDs inChunkSize).length (.chunk i) ++
    [.users i, .publish i]

/-- After a reload that nothing overlaps, the snapshot admits the live keys. -/
theorem World.admitted_reload (users : Int → Option User) (w : World) (raw : GroupKey) :
    admitted ((reloadSteps w.table w.reloads.length).foldl (World.step users) w).keys raw =
      w.table.live users raw := by
  have hscan : w.step users .scan = { w with
      reloads := w.reloads ++ [.loading (chunkIDs w.table.scanIDs inChunkSize) fun _ => none] } :=
    rfl
  rw [reloadSteps, cons_append, foldl_cons, foldl_append, hscan, foldl_chunk]
  simp only [foldl_cons, World.step, getElem?_concat_length, set_append_right _ _ le_rfl,
    Nat.sub_self, set_cons_zero]
  exact KeyTable.admitted_loadKeys raw

end C4Gateway.Auth
