import C4Gateway.Ledger.Lanes

/-! The two settlement statements, one definition for each CTE.  Every CTE reads the snapshot of
the statement, and the statement fails as a whole when a new balance leaves `bigint`. -/

namespace C4Gateway

open List Sql

structure UserBalance where
  userId : Int
  balance : Int
  deriving DecidableEq, Repr

/-- The counters of the sentinel row of the final SELECT, and its pairs of user and balance. -/
structure SettlementSummary where
  batchRows : Int := 0
  debitedUsers : Int := 0
  forcedUsers : Int := 0
  marked : Int := 0
  quarantined : Int := 0
  balances : List UserBalance := []
  deriving DecidableEq, Repr

/-- What a settlement reports and leaves. -/
structure SettleOut where
  summary : SettlementSummary
  ledger : Ledger

def numericOutOfRange : String := "22003"

/-! The end of both statements: `due` pairs users with what their balance owes, `totals` in the
Balance lane and `user_spill` in the Temp lane. -/

section
variable (users : List User) (due : List (Int × Int))

def debitedOn (u : User) (t : Int × Int) : Truth :=
  (eq (some u.id) (some t.1)).and (.ofBool (decide (t.2 ≤ u.balance)))

def debited : List UserBalance := returning users due debitedOn fun u t => ⟨u.id, u.balance - t.2⟩

/-- The overdraft: `u.id NOT IN (SELECT uid FROM debited)`. -/
def forcedOn (paid : List UserBalance) (u : User) (t : Int × Int) : Truth :=
  (eq (some u.id) (some t.1)).and (.ofBool (!paid.any fun b => b.userId == u.id))

def forced : List UserBalance :=
  returning users due (forcedOn (debited users due)) fun u t => ⟨u.id, u.balance - t.2⟩

def chargedUsers : List User :=
  update [fun u => (joined due debitedOn u).map fun t => { u with balance := u.balance - t.2 },
    fun u => (joined due (forcedOn (debited users due)) u).map fun t =>
      { u with balance := u.balance - t.2 }] users

def odMap : List (Int × Bool) :=
  (forced users due).map (fun b => (b.userId, true)) ++
    (debited users due).map fun b => (b.userId, false)

end

section
variable (logs : List UsageLog) (batch : List BatchRow) (od : List (Int × Bool))

def markRows : List (BatchRow × Option (Int × Bool)) :=
  leftJoin batch od fun b m => eq (some m.1) (some b.uid)

def markedOn (l : UsageLog) (q : BatchRow × Option (Int × Bool)) : Truth :=
  (eq (some l.id) (some q.1.id)).and (Truth.ofBool l.billed).not

def marked : List Int := returning logs (markRows batch od) markedOn fun l _ => l.id

def markedLogs : List UsageLog :=
  update [fun l => (joined (markRows batch od) markedOn l).map fun q =>
    { l with billed := true, overdraft := (q.2.map Prod.snd).getD false }] logs

end

def ghosts (batch : List BatchRow) (users : List User) (due : List (Int × Int)) : List Int :=
  (batch.filter fun b => !((debited users due).any fun d => d.userId == b.uid) &&
    !((forced users due).any fun f => f.userId == b.uid)).map BatchRow.uid

theorem chargedUsers_ids (users : List User) (due : List (Int × Int)) :
    (chargedUsers users due).map User.id = users.map User.id := by
  rw [chargedUsers, update_map_key]
  simp only [mem_cons, not_mem_nil, or_false, forall_eq_or_imp, forall_eq]
  constructor <;> · intro u u' h; obtain ⟨t, _, rfl⟩ := Option.map_eq_some_iff.mp h; rfl

theorem chargedUsers_inInt64 {users : List User} {due : List (Int × Int)}
    (hu : ∀ u ∈ users, InInt64 u.balance)
    (h : ∀ b ∈ debited users due ++ forced users due, InInt64 b.balance) :
    ∀ u ∈ chargedUsers users due, InInt64 u.balance := by
  intro u hmem
  rcases mem_update hmem with hold | ⟨cmd, hcmd, r, hr, hset⟩
  · exact hu u hold
  · simp only [mem_cons, not_mem_nil, or_false] at hcmd
    rcases hcmd with rfl | rfl
    · obtain ⟨t, ht, rfl⟩ := Option.map_eq_some_iff.mp hset
      exact h ⟨r.id, r.balance - t.2⟩ (mem_append.mpr (.inl (mem_returning.mpr
        ⟨r, hr, t, ht, rfl⟩)))
    · obtain ⟨t, ht, rfl⟩ := Option.map_eq_some_iff.mp hset
      exact h ⟨r.id, r.balance - t.2⟩ (mem_append.mpr (.inr (mem_returning.mpr
        ⟨r, hr, t, ht, rfl⟩)))

theorem markedLogs_ids (logs : List UsageLog) (batch : List BatchRow) (od : List (Int × Bool)) :
    (markedLogs logs batch od).map UsageLog.id = logs.map UsageLog.id := by
  rw [markedLogs, update_map_key]
  simp only [mem_singleton, forall_eq]
  intro l l' h
  obtain ⟨q, _, rfl⟩ := Option.map_eq_some_iff.mp h
  rfl

/-- The writes and the final SELECT of a statement, once its batch and its debts are known. -/
def settleWith (db : Ledger) (batch : List BatchRow) (due : List (Int × Int)) (ghost : List Int)
    (temps : List TempBalance) (ids : temps.map TempBalance.id = db.temps.map TempBalance.id) :
    Except String SettleOut :=
  let od := odMap db.users due
  if h : ∀ b ∈ debited db.users due ++ forced db.users due, InInt64 b.balance then
    .ok
      { summary :=
          { batchRows := batch.length
            debitedUsers := (debited db.users due).length
            forcedUsers := (forced db.users due).length
            marked := (marked db.logs batch od).length
            quarantined := ghost.length
            balances := debited db.users due ++ forced db.users due }
        ledger :=
          { logs := markedLogs db.logs batch od
            users := chargedUsers db.users due
            temps := temps
            logIds := (markedLogs_ids db.logs batch od) ▸ db.logIds
            userIds := (chargedUsers_ids db.users due) ▸ db.userIds
            tempIds := ids ▸ db.tempIds
            balances := chargedUsers_inInt64 db.balances h } }
  else .error numericOutOfRange

def balanceTotals (batch : List BatchRow) : List (Int × Int) :=
  groupSum BatchRow.uid BatchRow.cost batch

def settleBalance (db : Ledger) (now : Int) (limit : Nat) (k bucket : Int) :
    Except String SettleOut :=
  let batch := balanceBatch db now limit k bucket
  let due := balanceTotals batch
  settleWith db batch due (ghosts batch db.users due) db.temps rfl

/-- What the rows of one user and scope ask together. -/
structure Total where
  uid : Int
  chargeGid : Option Int
  delta : Int
  deriving DecidableEq, Repr

def fefoTotals (batch : List FefoRow) : List Total :=
  (groupSum (fun b => (b.uid, b.chargeGid)) (fun b => b.cost) batch).map fun g =>
    ⟨g.1.1, g.1.2, g.2⟩

def fefoLe (a b : TempBalance) : Bool :=
  match a.expiresAt, b.expiresAt with
  | some x, some y => decide (x < y) || (decide (x = y) && decide (a.id ≤ b.id))
  | some _, none => true
  | none, some _ => false
  | none, none => decide (a.id ≤ b.id)

def poolOn (t : TempBalance) (x : Total) : Truth :=
  (eq (some x.uid) (some t.userId)).and <|
    ((isNull x.chargeGid).and (isNull t.groupId)).or (eq t.groupId x.chargeGid)

/-- A grant in its place in the order of expiry: `cum` is the sum up to it. -/
structure PoolRow where
  tid : Int
  uid : Int
  chargeGid : Option Int
  amount : Int
  rn : Nat
  cum : Int
  deriving DecidableEq, Repr

def tempPool (temps : List TempBalance) (now : Int) (totals : List Total) : List PoolRow :=
  (window (fun p : TempBalance × Total => (p.1.userId, p.1.groupId))
    (fun p q => fefoLe p.1 q.1 = true) (fun p => p.1.amount)
    (join (whereRows (liveWhere now) temps) totals poolOn)).map fun f =>
      ⟨f.row.1.id, f.row.1.userId, f.row.2.chargeGid, f.row.1.amount, f.rn, f.cum⟩

/-- What is drawn on a grant for one total. -/
structure Take where
  tid : Int
  uid : Int
  chargeGid : Option Int
  take : Int
  deriving DecidableEq, Repr

def takesOn (p : PoolRow) (t : Total) : Truth :=
  (eq (some t.uid) (some p.uid)).and <| (notDistinct t.chargeGid p.chargeGid).and <|
    .ofBool (decide (p.cum - p.amount < t.delta))

def takes (pool : List PoolRow) (totals : List Total) : List Take :=
  (join pool totals takesOn).map fun q =>
    ⟨q.1.tid, q.1.uid, q.1.chargeGid,
      if q.1.cum ≤ q.2.delta then q.1.amount else q.2.delta - (q.1.cum - q.1.amount)⟩

def drawnOn (tt : TempBalance) (x : Take) : Truth :=
  (eq (some tt.id) (some x.tid)).and (.ofBool (decide (x.take ≤ tt.amount)))

def tempDrawn (temps : List TempBalance) (drawn : List Take) : List Take :=
  returning temps drawn drawnOn fun _ x => x

def drawnTemps (temps : List TempBalance) (drawn : List Take) : List TempBalance :=
  update [fun tt => (joined drawn drawnOn tt).map fun x => { tt with amount := tt.amount - x.take }]
    temps

/-- What a pool leaves unpaid, for the pools that leave something. -/
def spill (totals : List Total) (drawn : List Take) : List Total :=
  (totals.map fun t => { t with delta := t.delta - ((drawn.filter fun d =>
    d.uid == t.uid && decide (d.chargeGid = t.chargeGid)).map Take.take).sum }).filter fun t =>
      decide (0 < t.delta)

def userSpill (totals : List Total) (drawn : List Take) : List (Int × Int) :=
  groupSum Total.uid Total.delta (spill totals drawn)

/-- Rows of ghosts: the Temp lane joins the batch to `user_spill` first. -/
def fefoGhosts (batch : List BatchRow) (users : List User) (due : List (Int × Int)) : List Int :=
  ghosts ((join batch due fun b s => eq (some s.1) (some b.uid)).map Prod.fst) users due

theorem drawnTemps_ids (temps : List TempBalance) (drawn : List Take) :
    (drawnTemps temps drawn).map TempBalance.id = temps.map TempBalance.id := by
  rw [drawnTemps, update_map_key]
  simp only [mem_singleton, forall_eq]
  intro t t' h
  obtain ⟨q, _, rfl⟩ := Option.map_eq_some_iff.mp h
  rfl

/-- Grants are drawn on in the order they expire, and the balance pays the rest. -/
def settleFefo (db : Ledger) (now : Int) (limit : Nat) (k bucket : Int) :
    Except String SettleOut :=
  let batch := fefoBatch db now limit k bucket
  let totals := fefoTotals batch
  let drawn := takes (tempPool db.temps now totals) totals
  let due := userSpill totals (tempDrawn db.temps drawn)
  let rows := batch.map FefoRow.toBatchRow
  settleWith db rows due (fefoGhosts rows db.users due) (drawnTemps db.temps drawn)
    (drawnTemps_ids db.temps drawn)

def settleStmt (lane : Lane) (db : Ledger) (now : Int) (limit : Nat) (k bucket : Int) :
    Except String SettleOut :=
  match lane with
  | .balance => settleBalance db now limit k bucket
  | .fefo => settleFefo db now limit k bucket

/-- The ledger after the statement: a statement that fails changes nothing. -/
def execSettle (lane : Lane) (db : Ledger) (now : Int) (limit : Nat) (k bucket : Int) : Ledger :=
  match settleStmt lane db now limit k bucket with
  | .ok out => out.ledger
  | .error _ => db

end C4Gateway
