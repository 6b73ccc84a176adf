import C4Gateway.Lib.Sql
import C4Gateway.Ledger.Tables

/-! The rows that the two settlement lanes take.  The conditions are the WHERE clauses of
`settleBalanceSQL` and `settleFefoSQL` and of their head probes, in three-valued logic; `inLane` is
the same choice in two values, and every proof about a lane goes through it. -/

namespace C4Gateway

open List Sql

/-- Rows that only draw on the balance, and rows that draw on grants first. -/
inductive Lane where
  | balance
  | fefo
  deriving DecidableEq, Repr

/-- NOT billed AND error_type IN ('none', 'abort') AND cost > 0
AND COALESCE(user_id, 0) % k = bucket. -/
def cursorWhere (k bucket : Int) (l : UsageLog) : Truth :=
  (Truth.ofBool l.billed).not.and <|
    (Truth.ofBool (l.errorType == .none || l.errorType == .abort)).and <|
    (gt (some l.cost) (some 0)).and <|
    eq (some (l.uid.tmod k)) (some bucket)

/-- amount > 0 AND (expires_at IS NULL OR expires_at > now()). -/
def liveWhere (now : Int) (t : TempBalance) : Truth :=
  (gt (some t.amount) (some 0)).and <| (isNull t.expiresAt).or (gt t.expiresAt (some now))

/-- The grants whose existence keeps a row out of the Balance lane. -/
def coversWhere (now : Int) (l : UsageLog) (t : TempBalance) : Truth :=
  (eq (some t.userId) l.userId).and <| (liveWhere now t).and <|
    (isNull t.groupId).or ((isNotNull l.groupId).and (eq t.groupId l.groupId))

def balanceWhere (temps : List TempBalance) (now k bucket : Int) (l : UsageLog) : Truth :=
  (cursorWhere k bucket l).and (existsRow temps (coversWhere now l)).not

def globalTempUsers (temps : List TempBalance) (now : Int) : List Int :=
  ((whereRows (fun t => (isNull t.groupId).and (liveWhere now t)) temps).map
    TempBalance.userId).dedup

def scopedWhere (now : Int) (l : UsageLog) (t : TempBalance) : Truth :=
  (eq (some t.userId) l.userId).and <| (eq t.groupId l.groupId).and <|
    (isNotNull l.groupId).and (liveWhere now t)

/-- The WHERE of the Temp lane, on a log and its `global_temp_users` row. -/
def fefoWhere (temps : List TempBalance) (now k bucket : Int) (p : UsageLog × Option Int) : Truth :=
  (cursorWhere k bucket p.1).and <| (isNotNull p.2).or (existsRow temps (scopedWhere now p.1))

def balanceRows (db : Ledger) (now k bucket : Int) : List UsageLog :=
  whereRows (balanceWhere db.temps now k bucket) db.logs

def fefoRows (db : Ledger) (now k bucket : Int) : List (UsageLog × Option Int) :=
  whereRows (fefoWhere db.temps now k bucket) <|
    leftJoin db.logs (globalTempUsers db.temps now) fun l g => eq (some g) l.userId

structure BatchRow where
  id : Int
  uid : Int
  cost : Int
  deriving DecidableEq, Repr

structure FefoRow extends BatchRow where
  groupId : Option Int
  chargeGid : Option Int
  deriving DecidableEq, Repr

def balanceBatch (db : Ledger) (now : Int) (limit : Nat) (k bucket : Int) : List BatchRow :=
  (orderLimit UsageLog.id limit (balanceRows db now k bucket)).map fun l => ⟨l.id, l.uid, l.cost⟩

def fefoBatch (db : Ledger) (now : Int) (limit : Nat) (k bucket : Int) : List FefoRow :=
  (orderLimit (fun p => p.1.id) limit (fefoRows db now k bucket)).map fun p =>
    { id := p.1.id, uid := p.1.uid, cost := p.1.cost, groupId := p.1.groupId
      chargeGid := if p.2.isSome then none else p.1.groupId }

def probeBalanceHead (db : Ledger) (now k bucket : Int) : Option Int :=
  ((orderLimit UsageLog.id 1 (balanceRows db now k bucket)).map UsageLog.id).head?

def probeFefoHead (db : Ledger) (now k bucket : Int) : Option Int :=
  ((orderLimit (fun p => p.1.id) 1 (fefoRows db now k bucket)).map fun p => p.1.id).head?

def batchIds (lane : Lane) (db : Ledger) (now : Int) (limit : Nat) (k bucket : Int) : List Int :=
  match lane with
  | .balance => (balanceBatch db now limit k bucket).map BatchRow.id
  | .fefo => (fefoBatch db now limit k bucket).map fun b => b.id

def probeLaneHead (lane : Lane) (db : Ledger) (now k bucket : Int) : Option Int :=
  match lane with
  | .balance => probeBalanceHead db now k bucket
  | .fefo => probeFefoHead db now k bucket

/-- `l` satisfies the batch condition of the lane, whatever the LIMIT. -/
def Lane.Admits (lane : Lane) (db : Ledger) (now k bucket : Int) (l : UsageLog) : Prop :=
  match lane with
  | .balance => l ∈ balanceRows db now k bucket
  | .fefo => ∃ g, (l, g) ∈ fefoRows db now k bucket

def chargeable (l : UsageLog) : Bool :=
  !l.billed && (l.errorType == .none || l.errorType == .abort) && decide (0 < l.cost)

def live (now : Int) (t : TempBalance) : Bool :=
  decide (0 < t.amount) && (t.expiresAt.all fun e => decide (now < e))

def isGlobal (temps : List TempBalance) (now u : Int) : Bool :=
  temps.any fun t => t.userId == u && t.groupId.isNone && live now t

def isScoped (temps : List TempBalance) (now u g : Int) : Bool :=
  temps.any fun t => t.userId == u && t.groupId == some g && live now t

/-- A live grant covers the row. -/
def tempActive (temps : List TempBalance) (now : Int) (l : UsageLog) : Bool :=
  l.userId.any fun u => isGlobal temps now u || l.groupId.any fun g => isScoped temps now u g

def inLane (lane : Lane) (temps : List TempBalance) (now k bucket : Int) (l : UsageLog) : Bool :=
  chargeable l && decide (l.uid.tmod k = bucket) &&
    (match lane with
    | .balance => !tempActive temps now l
    | .fefo => tempActive temps now l)

def laneRows (lane : Lane) (db : Ledger) (now k bucket : Int) : List UsageLog :=
  db.logs.filter (inLane lane db.temps now k bucket)

def laneWindow (lane : Lane) (db : Ledger) (now : Int) (limit : Nat) (k bucket : Int) :
    List UsageLog :=
  orderLimit UsageLog.id limit (laneRows lane db now k bucket)

/-- The pool that pays for a row: NULL, the global one, while the user has it. -/
def chargeGid (temps : List TempBalance) (now : Int) (l : UsageLog) : Option Int :=
  if l.userId.any (isGlobal temps now) then none else l.groupId

variable (lane : Lane) (db : Ledger) (temps : List TempBalance) (now : Int) (limit : Nat)
  (l : UsageLog)

@[simp] theorem holds_liveWhere (t : TempBalance) : (liveWhere now t).holds = live now t := by
  cases h : t.expiresAt <;> simp [liveWhere, live, h]

@[simp] theorem holds_cursorWhere (k bucket : Int) (l : UsageLog) :
    (cursorWhere k bucket l).holds = (chargeable l && decide (l.uid.tmod k = bucket)) := by
  simp [cursorWhere, chargeable, Bool.and_assoc]

theorem any_coversWhere :
    (temps.any fun t => (coversWhere now l t).holds) = tempActive temps now l := by
  cases hu : l.userId <;> cases hg : l.groupId <;>
    simp [coversWhere, tempActive, isGlobal, isScoped] <;> grind

theorem mem_globalTempUsers {temps : List TempBalance} {now u : Int} :
    u ∈ globalTempUsers temps now ↔ isGlobal temps now u = true := by
  simp [globalTempUsers, whereRows, isGlobal]
  grind

theorem holds_balanceWhere (now k bucket : Int) (l : UsageLog) :
    (balanceWhere temps now k bucket l).holds = inLane .balance temps now k bucket l := by
  simp [balanceWhere, inLane, any_coversWhere]

theorem balanceRows_eq (now k bucket : Int) :
    balanceRows db now k bucket = laneRows .balance db now k bucket := by
  simp [balanceRows, whereRows, laneRows, holds_balanceWhere]

/-- `global_temp_users` lists each user once, so the left join keeps every log once. -/
theorem globals_join :
    leftJoin db.logs (globalTempUsers db.temps now) (fun l g => eq (some g) l.userId) =
      db.logs.map fun l => (l, joined (globalTempUsers db.temps now)
        (fun l g => eq (some g) l.userId) l) := by
  refine leftJoin_of_unique fun l _ => filter_length_le_one (nodup_dedup _) ?_
  intro a _ b _ ha hb
  simp only [holds_eq, Option.isSome_some, true_and, decide_eq_true_eq] at ha hb
  exact Option.some.inj (ha.trans hb.symm)

theorem joined_global :
    (joined (globalTempUsers temps now) (fun l g => eq (some g) l.userId) l).isSome =
      l.userId.any (isGlobal temps now) := by
  rw [Bool.eq_iff_iff, joined]
  cases hu : l.userId with
  | none => simp
  | some u => simp [mem_globalTempUsers]

theorem any_scopedWhere :
    (temps.any fun t => (scopedWhere now l t).holds) =
      l.userId.any fun u => l.groupId.any fun g => isScoped temps now u g := by
  cases hu : l.userId <;> cases hg : l.groupId <;>
    simp [scopedWhere, isScoped, hu, hg]
  grind

theorem fefoRows_eq (now k bucket : Int) :
    fefoRows db now k bucket = (laneRows .fefo db now k bucket).map fun l =>
      (l, joined (globalTempUsers db.temps now) (fun l g => eq (some g) l.userId) l) := by
  rw [fefoRows, globals_join, whereRows, filter_map]
  congr 1
  refine filter_congr fun l _ => ?_
  simp only [Function.comp, fefoWhere, Truth.holds_and, Truth.holds_or, holds_isNotNull,
    holds_existsRow, joined_global, any_scopedWhere, inLane, tempActive]
  cases l.userId <;> simp

theorem balanceBatch_eq (k bucket : Int) :
    balanceBatch db now limit k bucket =
      (laneWindow .balance db now limit k bucket).map fun l => ⟨l.id, l.uid, l.cost⟩ := by
  rw [balanceBatch, balanceRows_eq, laneWindow]

theorem fefoBatch_eq (k bucket : Int) :
    fefoBatch db now limit k bucket = (laneWindow .fefo db now limit k bucket).map fun l =>
      { id := l.id, uid := l.uid, cost := l.cost, groupId := l.groupId
        chargeGid := chargeGid db.temps now l } := by
  rw [fefoBatch, fefoRows_eq, orderLimit_map UsageLog.id, laneWindow]
  · simp [joined_global, chargeGid]
  · intro l; rfl

theorem batchIds_eq (k bucket : Int) :
    batchIds lane db now limit k bucket =
      (laneWindow lane db now limit k bucket).map UsageLog.id := by
  cases lane <;> simp [batchIds, balanceBatch_eq, fefoBatch_eq]

theorem probeLaneHead_eq (now k bucket : Int) :
    probeLaneHead lane db now k bucket =
      ((laneWindow lane db now 1 k bucket).map UsageLog.id).head? := by
  cases lane with
  | balance => simp [probeLaneHead, probeBalanceHead, balanceRows_eq, laneWindow]
  | fefo =>
    rw [probeLaneHead, probeFefoHead, fefoRows_eq, orderLimit_map UsageLog.id, map_map]
    · rfl
    · intro l; rfl

theorem admits_iff {lane : Lane} {db : Ledger} {now k bucket : Int} {l : UsageLog} :
    lane.Admits db now k bucket l ↔ l ∈ db.logs ∧ inLane lane db.temps now k bucket l = true := by
  cases lane <;> simp [Lane.Admits, balanceRows_eq, fefoRows_eq, laneRows]

theorem admits_unique {db : Ledger} {now k : Int} {l : UsageLog} (hl : l ∈ db.logs)
    (hc : chargeable l = true) (hk : 1 ≤ k) (hu : 0 ≤ l.uid) :
    ∃! p : Lane × Int, 0 ≤ p.2 ∧ p.2 < k ∧ p.1.Admits db now k p.2 l := by
  refine ⟨(if tempActive db.temps now l then .fefo else .balance, l.uid.tmod k), ?_, ?_⟩
  · refine ⟨Int.tmod_nonneg k hu, Int.tmod_lt_of_pos _ (by omega), admits_iff.mpr ⟨hl, ?_⟩⟩
    by_cases ha : tempActive db.temps now l = true <;> simp [inLane, hc, ha]
  · rintro ⟨lane, bucket⟩ ⟨_, _, hin⟩
    have := (admits_iff.mp hin).2
    cases lane <;> simp [inLane] at this <;> simp [this]

theorem probeLaneHead_min {limit : Nat} (k bucket : Int) (h : 1 ≤ limit) :
    probeLaneHead lane db now k bucket = (batchIds lane db now limit k bucket).min? := by
  have sorted : (batchIds lane db now limit k bucket).Pairwise (· ≤ ·) := by
    rw [batchIds_eq, pairwise_map]
    exact orderLimit_pairwise
  rw [min?_eq_head? (sorted.imp min_eq_left), batchIds_eq, probeLaneHead_eq, head?_map,
    head?_map, laneWindow, laneWindow, orderLimit_head? h]

/-- The lanes and buckets split the rows to settle, and each head probe agrees with its batch. -/
theorem lanes_partition (db : Ledger) (now k : Int) (hk : 1 ≤ k) :
    (∀ l ∈ db.logs, l.billed = false → (l.errorType = .none ∨ l.errorType = .abort) → 0 < l.cost →
      (∀ u, l.userId = some u → 0 ≤ u) →
      ∃! p : Lane × Int, 0 ≤ p.2 ∧ p.2 < k ∧ p.1.Admits db now k p.2 l) ∧
    ∀ (lane : Lane) (bucket : Int), 0 ≤ bucket → bucket < k → ∀ limit : Nat, 1 ≤ limit →
      probeLaneHead lane db now k bucket = (batchIds lane db now limit k bucket).min? := by
  refine ⟨?_, fun lane bucket _ _ limit hlimit => probeLaneHead_min lane db now k bucket hlimit⟩
  intro l hl hbilled herr hcost huser
  have hc : chargeable l = true := by simp [chargeable, hbilled, herr, hcost]
  have hu : 0 ≤ l.uid := by
    cases h : l.userId with
    | none => simp [UsageLog.uid, h]
    | some u => simpa [UsageLog.uid, h] using huser u h
  exact admits_unique hl hc hk hu

def mixedLanes : Ledger where
  logs := [{ id := 11, format := .anthropic, cost := 7 },
    { id := 12, format := .openaiChat, userId := some 5, groupId := some 3, cost := 4 },
    { id := 10, format := .openaiChat, userId := some 5, errorType := .abort, cost := 2 }]
  users := [{ id := 5, balance := 100 }]
  temps := [{ id := 1, userId := 5, amount := 9, expiresAt := some 8 },
    { id := 2, userId := 5, amount := 6, groupId := some 3, expiresAt := some 90 }]
  logIds := by decide
  userIds := by decide
  tempIds := by decide
  balances := by decide

theorem lanes_partition_mixed :
    (∃! p : Lane × Int, 0 ≤ p.2 ∧ p.2 < 4 ∧
      p.1.Admits mixedLanes 20 4 p.2 { id := 11, format := .anthropic, cost := 7 }) ∧
    probeLaneHead .fefo mixedLanes 20 4 1 = some 12 ∧
    probeLaneHead .balance mixedLanes 20 4 1 = some 10 := by
  obtain ⟨hunique, hprobe⟩ := lanes_partition mixedLanes 20 4 (by decide)
  refine ⟨hunique _ (by decide) rfl (.inl rfl) (by decide) (by simp), ?_, ?_⟩
  · rw [hprobe .fefo 1 (by decide) (by decide) 500 (by decide)]
    decide
  · rw [hprobe .balance 1 (by decide) (by decide) 500 (by decide)]
    decide

end C4Gateway
