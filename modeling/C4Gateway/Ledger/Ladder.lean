import C4Gateway.Ledger.Conserve

/-! The retry ladder of `settleBatch`.  A run is given by what each step meets: the tables as other
sessions left them, the time, and the failures that do not come from the statement.  After
`settleMaxAttempts` failures the ladder writes off the head of the lane, which need not be the row
that failed. -/

namespace C4Gateway

open List Sql

/-- How a statement fails, as the ladder tells it apart. -/
inductive StmtErr where
  | concurrentMark (marked batchRows : Int)
  | pg (code text : String)
  | other (text : String)
  deriving DecidableEq, Repr

def StmtErr.text : StmtErr → String
  | .concurrentMark marked batchRows => "billing: concurrent mark detected: marked " ++
      toString marked ++ "/" ++ toString batchRows ++ " rows in settle stmt"
  | .pg _ text => text
  | .other text => text

def StmtErr.isConcurrentMark : StmtErr → Bool
  | .concurrentMark .. => true
  | _ => false

def deterministicCode (code : String) : Bool :=
  "22".toList.isPrefixOf code.toList || "23".toList.isPrefixOf code.toList

def isDeterministicStmtErr : StmtErr → Bool
  | .pg code _ => deterministicCode code
  | _ => false

/-- What one attempt meets.  `fault` is a failure of its transaction other than an error of the
statement on `db`: no connection, a lock, a lost COMMIT, rows that another session marked. -/
structure Attempt where
  db : Ledger
  now : Int
  fault : Option StmtErr := none
  ctxDone : Bool := false

/-- A single statement: the tables it finds, when, and whether it fails. -/
structure Access where
  db : Ledger
  now : Int
  fault : Option String := none

/-- What every attempt of the ladder meets, and the two statements of its last resort. -/
structure LadderRun where
  attempts : Nat → Attempt
  probe : Access
  mark : Access

/-- The tables before and after a transaction. -/
structure Commit where
  before : Ledger
  after : Ledger

def settleMaxAttempts : Nat := 3

def Lane.name : Lane → String
  | .balance => "balance"
  | .fefo => "fefo"

/-- `settleOnce`, with the guard of `runSettleStmt` on the number of marked rows. -/
def settleOnce (lane : Lane) (limit : Nat) (k bucket : Int) (a : Attempt) :
    Except StmtErr SettleOut :=
  match a.fault with
  | some e => .error e
  | none =>
    match settleStmt lane a.db a.now limit k bucket with
    | .error code => .error (.pg code ("ERROR: bigint out of range (SQLSTATE " ++ code ++ ")"))
    | .ok out =>
      if out.summary.marked ≠ out.summary.batchRows then
        .error (.concurrentMark out.summary.marked out.summary.batchRows)
      else .ok out

theorem markBilledBulk_ids (logs : List UsageLog) (ids : List Int) :
    (update [fun l =>
        if l.id ∈ ids ∧ l.billed = false then some { l with billed := true } else none]
      logs).map UsageLog.id = logs.map UsageLog.id := by
  rw [update_map_key]
  simp only [mem_singleton, forall_eq]
  intro l l' h
  split at h <;> cases h
  rfl

def markBilledBulk (db : Ledger) (ids : List Int) : Ledger :=
  { db with
    logs := update [fun l =>
      if l.id ∈ ids ∧ l.billed = false then some { l with billed := true } else none] db.logs
    logIds := (markBilledBulk_ids db.logs ids) ▸ db.logIds }

section
variable (lane : Lane) (limit : Int) (k bucket : Int) (run : LadderRun)

/-- The loop of `settleBatch`: `left` more attempts from number `i`, after the error `lastErr`.  It
ends with an answer, or with the last error. -/
def settleAttempts : Nat → Nat → String →
    (Except String SettlementSummary × Option Commit) ⊕ String
  | 0, _, lastErr => .inr lastErr
  | left + 1, i, _ =>
    match settleOnce lane limit.toNat k bucket (run.attempts i) with
    | .ok out => .inl (.ok out.summary, some ⟨(run.attempts i).db, out.ledger⟩)
    | .error e =>
      if (run.attempts i).ctxDone then .inl (.error e.text, none)
      else if !e.isConcurrentMark && !isDeterministicStmtErr e then
        .inl (.error ("billing settle " ++ lane.name ++ " lane: " ++ e.text), none)
      else settleAttempts left (i + 1) e.text

/-- Three attempts; then the first row of the lane is looked for and marked, without a charge. -/
def settleBatch : Except String SettlementSummary × Option Commit :=
  if limit ≤ 0 then (.ok {}, none)
  else
    match settleAttempts lane limit k bucket run settleMaxAttempts 0 "" with
    | .inl answer => answer
    | .inr lastErr =>
      match run.probe.fault with
      | some e => (.error ("billing settle " ++ lane.name ++ " lane: head probe: " ++ e), none)
      | none =>
        match probeLaneHead lane run.probe.db run.probe.now k bucket with
        | none =>
          (.error ("billing settle " ++ lane.name ++ " lane: poison ladder exhausted after " ++
            toString settleMaxAttempts ++ " attempts, lane empty: " ++ lastErr), none)
        | some head =>
          match run.mark.fault with
          | some e =>
            (.error ("billing settle " ++ lane.name ++ " lane: poison isolation failed: " ++ e),
              none)
          | none => (.ok { marked := 1, quarantined := 1 },
              some ⟨run.mark.db, markBilledBulk run.mark.db [head]⟩)

def Repeats (i : Nat) : Prop :=
  ∃ e, settleOnce lane limit.toNat k bucket (run.attempts i) = .error e ∧
    (run.attempts i).ctxDone = false ∧ (e.isConcurrentMark || isDeterministicStmtErr e) = true

/-- The attempt meets a failure that the ladder repeats: a repeatable fault, or a user whose balance
less what the window charges leaves `bigint`. -/
def Attempt.Rejected (lane : Lane) (limit : Int) (k bucket : Int) (a : Attempt) : Prop :=
  a.ctxDone = false ∧
    match a.fault with
    | some e => (e.isConcurrentMark || isDeterministicStmtErr e) = true
    | none => ∃ u ∈ a.db.users,
        ¬ InInt64 (u.balance - charge lane a.db a.now limit.toNat k bucket u.id)

/-- The ladder is exhausted, and it finds a row `head` to write off. -/
def WritesOffHead (head : Int) : Prop :=
  0 < limit ∧ (∀ i < settleMaxAttempts, (run.attempts i).Rejected lane limit k bucket) ∧
    run.probe.fault = none ∧ run.mark.fault = none ∧
    probeLaneHead lane run.probe.db run.probe.now k bucket = some head

variable {lane limit k bucket run}

theorem settleOnce_ok {n : Nat} {a : Attempt} {out : SettleOut}
    (h : settleOnce lane n k bucket a = .ok out) :
    settleStmt lane a.db a.now n k bucket = .ok out := by
  unfold settleOnce at h
  split at h
  · cases h
  · split at h
    · cases h
    · split_ifs at h
      cases h; assumption

theorem settleOnce_error {n : Nat} {a : Attempt} {code : String} (hfault : a.fault = none)
    (h : settleStmt lane a.db a.now n k bucket = .error code) : settleOnce lane n k bucket a =
      .error (.pg code ("ERROR: bigint out of range (SQLSTATE " ++ code ++ ")")) := by
  simp [settleOnce, hfault, h]

variable (lane limit k bucket run) in
theorem settleAttempts_succ (left i : Nat) (lastErr : String) :
    (∃ out, settleOnce lane limit.toNat k bucket (run.attempts i) = .ok out ∧
      settleAttempts lane limit k bucket run (left + 1) i lastErr =
        .inl (.ok out.summary, some ⟨(run.attempts i).db, out.ledger⟩)) ∨
    (∃ text, ¬ Repeats lane limit k bucket run i ∧
      settleAttempts lane limit k bucket run (left + 1) i lastErr = .inl (.error text, none)) ∨
    (∃ text, Repeats lane limit k bucket run i ∧
      settleAttempts lane limit k bucket run (left + 1) i lastErr =
        settleAttempts lane limit k bucket run left (i + 1) text) := by
  cases hone : settleOnce lane limit.toNat k bucket (run.attempts i) with
  | ok out => exact .inl ⟨out, rfl, by simp [settleAttempts, hone]⟩
  | error e =>
    by_cases hctx : (run.attempts i).ctxDone = true
    · refine .inr (.inl ⟨e.text, ?_, by simp [settleAttempts, hone, hctx]⟩)
      rintro ⟨_, _, h, _⟩
      simp [hctx] at h
    · by_cases hrep : (e.isConcurrentMark || isDeterministicStmtErr e) = true
      · refine .inr (.inr ⟨e.text, ⟨e, hone, by simpa using hctx, hrep⟩, ?_⟩)
        have : ¬ ((!e.isConcurrentMark && !isDeterministicStmtErr e) = true) := by
          simpa [imp_iff_not_or] using hrep
        simp only [settleAttempts, hone]
        rw [if_neg hctx, if_neg this]
      · refine .inr (.inl ⟨"billing settle " ++ lane.name ++ " lane: " ++ e.text, ?_, ?_⟩)
        · rintro ⟨e', h, _, hrep'⟩
          rw [hone] at h
          cases h
          exact hrep hrep'
        · have : (!e.isConcurrentMark && !isDeterministicStmtErr e) = true := by
            simpa using hrep
          simp only [settleAttempts, hone]
          rw [if_neg hctx, if_pos this]

theorem settleAttempts_inr (left i : Nat) (lastErr : String) :
    (∃ text, settleAttempts lane limit k bucket run left i lastErr = .inr text) ↔
      ∀ j < left, Repeats lane limit k bucket run (i + j) := by
  induction left generalizing i lastErr with
  | zero => simp [settleAttempts]
  | succ left ih =>
    rw [Nat.forall_lt_succ_left]
    simp only [← Nat.add_assoc, Nat.add_right_comm i _ 1]
    rcases settleAttempts_succ lane limit k bucket run left i lastErr with
      ⟨out, hone, heq⟩ | ⟨text, hno, heq⟩ | ⟨text, hyes, heq⟩
    · have hno : ¬ Repeats lane limit k bucket run i := fun ⟨e, he, _⟩ => by simp [hone] at he
      simp [heq, hno]
    · simp [heq, hno]
    · rw [heq, ih (i + 1) text]
      simp [hyes]

theorem settleAttempts_inl {answer : Except String SettlementSummary} {c : Commit} {left i : Nat}
    {lastErr : String}
    (h : settleAttempts lane limit k bucket run left i lastErr = .inl (answer, some c)) :
    ∃ j out, settleStmt lane c.before (run.attempts j).now limit.toNat k bucket = .ok out ∧
      c.after = out.ledger := by
  induction left generalizing i lastErr with
  | zero => simp [settleAttempts] at h
  | succ left ih =>
    rcases settleAttempts_succ lane limit k bucket run left i lastErr with
      ⟨out, hone, heq⟩ | ⟨text, hno, heq⟩ | ⟨text, hyes, heq⟩ <;> rw [heq] at h
    · cases h
      exact ⟨i, out, settleOnce_ok hone, rfl⟩
    · cases h
    · exact ih h

theorem repeats_iff (i : Nat) :
    Repeats lane limit k bucket run i ↔ (run.attempts i).Rejected lane limit k bucket := by
  rw [Repeats, Attempt.Rejected]
  cases hfault : (run.attempts i).fault with
  | some e => simp [settleOnce, hfault]
  | none =>
    simp only [← (settleStmt_error (e := numericOutOfRange)).trans (and_iff_right rfl)]
    constructor
    · rintro ⟨e, hone, hctx, -⟩
      refine ⟨hctx, ?_⟩
      cases hstmt :
          settleStmt lane (run.attempts i).db (run.attempts i).now limit.toNat k bucket with
      | error code => rw [(settleStmt_error.mp hstmt).1]
      | ok out =>
        obtain ⟨-, hbatch, hmarked⟩ := settleStmt_ok hstmt
        simp [settleOnce, hfault, hstmt, hbatch, hmarked] at hone
    · rintro ⟨hctx, hstmt⟩
      exact ⟨_, settleOnce_error hfault hstmt, hctx, by decide⟩

/-- What `settleBatch` commits: a statement, or the mark of the head that it writes off. -/
theorem settleBatch_commit {c : Commit} (h : (settleBatch lane limit k bucket run).2 = some c) :
    (∃ j out, settleStmt lane c.before (run.attempts j).now limit.toNat k bucket = .ok out ∧
      c.after = out.ledger) ∨
    ∃ head, WritesOffHead lane limit k bucket run head ∧
      c = ⟨run.mark.db, markBilledBulk run.mark.db [head]⟩ := by
  unfold settleBatch at h
  split_ifs at h with hlimit
  split at h
  next answer hloop =>
    obtain ⟨answer, commit⟩ := answer
    subst h
    exact .inl (settleAttempts_inl hloop)
  next lastErr hloop =>
    have hall := (settleAttempts_inr settleMaxAttempts 0 "").mp ⟨lastErr, hloop⟩
    simp only [Nat.zero_add, repeats_iff] at hall
    split at h
    · cases h
    · split at h
      · cases h
      · split at h
        · cases h
        · cases h
          exact .inr ⟨_, ⟨by omega, hall, ‹_›, ‹_›, ‹_›⟩, rfl⟩

theorem WritesOffHead.answer {head : Int} (h : WritesOffHead lane limit k bucket run head) :
    settleBatch lane limit k bucket run = (.ok { marked := 1, quarantined := 1 },
      some ⟨run.mark.db, markBilledBulk run.mark.db [head]⟩) := by
  obtain ⟨hlimit, hall, hprobe, hmark, hhead⟩ := h
  obtain ⟨text, hloop⟩ := (settleAttempts_inr settleMaxAttempts 0 "").mpr
    (by simpa [repeats_iff] using hall)
  simp [settleBatch, if_neg (not_le.mpr hlimit), hloop, hprobe, hhead, hmark]

end

def Ledger.alone (db : Ledger) (l : UsageLog) : Ledger :=
  { db with logs := [l], logIds := by simp }

def failsAlone (db : Ledger) (now : Int) (l : UsageLog) : Prop :=
  ∃ lane code, settleStmt lane (db.alone l) now 1 1 0 = .error code ∧ deterministicCode code = true

/-- The transaction bills `l`, whose user exists and pays less than the rows it is billed for. -/
def Commit.WritesOff (c : Commit) (l : UsageLog) : Prop :=
  l ∈ Ledger.newlyBilled c.before c.after ∧ (∃ u ∈ c.before.users, u.id = l.uid) ∧
    c.before.fundsOf l.uid - c.after.fundsOf l.uid <
      Ledger.newlyBilledCost c.before c.after l.uid

variable {u : User} {l : UsageLog} {db : Ledger}

theorem balanceOf_of_mem (hu : u ∈ db.users) : db.balanceOf u.id = u.balance := by
  rw [Ledger.balanceOf, filter_key_eq db.userIds hu]
  simp

theorem Settled.fundsOf_sub {lane : Lane} {after : Ledger} {now : Int} {limit : Nat}
    {k bucket : Int} (h : Settled lane db now limit k bucket after) (hu : u ∈ db.users) :
    db.fundsOf u.id - after.fundsOf u.id = Ledger.newlyBilledCost db after u.id := by
  have hu' : { u with balance := u.balance - charge lane db now limit k bucket u.id } ∈
      after.users := h.users ▸ mem_map_of_mem hu
  have hafter := balanceOf_of_mem hu'
  have htemps := h.tempsOf_sub u.id
  rw [Ledger.fundsOf, Ledger.fundsOf, balanceOf_of_mem hu, hafter, h.newlyBilledCost_eq, charge]
  dsimp only
  omega

theorem markBilledBulk_logs (db : Ledger) (ids : List Int) :
    (markBilledBulk db ids).logs = db.logs.map fun l =>
      if l.id ∈ ids ∧ l.billed = false then { l with billed := true } else l := by
  refine (update_one _ _).trans (map_congr_left fun l _ => ?_)
  split <;> rfl

theorem newlyBilled_markBilledBulk (db : Ledger) (ids : List Int) :
    Ledger.newlyBilled db (markBilledBulk db ids) =
      db.logs.filter fun l => l.id ∈ ids ∧ l.billed = false :=
  Ledger.newlyBilled_map (markBilledBulk_logs db ids) (fun _ => rfl) (fun _ => rfl)
    fun _ _ h => h.2

theorem newlyBilledCost_head (hl : l ∈ db.logs) (hbilled : l.billed = false) :
    Ledger.newlyBilledCost db (markBilledBulk db [l.id]) l.uid = l.cost := by
  have hone : Ledger.newlyBilled db (markBilledBulk db [l.id]) = [l] := by
    rw [newlyBilled_markBilledBulk, ← filter_key_eq db.logIds hl]
    refine filter_congr fun r hr => ?_
    simp only [mem_singleton, decide_eq_decide, and_iff_left_iff_imp]
    intro hid
    rwa [inj_on_of_nodup_map db.logIds hr hl hid]
  simp [Ledger.newlyBilledCost, hone]

theorem writesOff_head {head : Int} :
    (Commit.mk db (markBilledBulk db [head])).WritesOff l ↔
      l ∈ db.logs ∧ l.id = head ∧ l.billed = false ∧ 0 < l.cost ∧ ∃ u ∈ db.users, u.id = l.uid := by
  have hmem : l ∈ Ledger.newlyBilled db (markBilledBulk db [head]) ↔
      l ∈ db.logs ∧ l.id = head ∧ l.billed = false := by simp [newlyBilled_markBilledBulk]
  have hfunds : (markBilledBulk db [head]).fundsOf l.uid = db.fundsOf l.uid := rfl
  rw [Commit.WritesOff, hmem, hfunds, sub_self]
  constructor
  · rintro ⟨⟨hl, rfl, hbilled⟩, huser, hcost⟩
    exact ⟨hl, rfl, hbilled, newlyBilledCost_head hl hbilled ▸ hcost, huser⟩
  · rintro ⟨hl, rfl, hbilled, hcost, huser⟩
    exact ⟨⟨hl, rfl, hbilled⟩, huser, (newlyBilledCost_head hl hbilled).symm ▸ hcost⟩

/-- In every run, the rows of existing users that are billed without being paid for all fail alone
if and only if the head that an exhausted ladder writes off fails alone. -/
theorem settleBatch_writesOff_iff (lane : Lane) (limit k bucket : Int) (run : LadderRun) :
    (∀ c l, (settleBatch lane limit k bucket run).2 = some c → c.WritesOff l →
      failsAlone c.before run.mark.now l) ↔
    ∀ head, WritesOffHead lane limit k bucket run head → ∀ l ∈ run.mark.db.logs, l.id = head →
      l.billed = false → 0 < l.cost → (∃ u ∈ run.mark.db.users, u.id = l.uid) →
      failsAlone run.mark.db run.mark.now l := by
  constructor
  · intro h head hhead l hl hid hbilled hcost huser
    exact h ⟨run.mark.db, markBilledBulk run.mark.db [head]⟩ l (congrArg Prod.snd hhead.answer)
      (writesOff_head.mpr ⟨hl, hid, hbilled, hcost, huser⟩)
  · intro h c l hcommit hoff
    rcases settleBatch_commit hcommit with ⟨j, out, hstmt, hafter⟩ | ⟨head, hhead, rfl⟩
    · obtain ⟨-, ⟨u, hu, hid⟩, hunpaid⟩ := hoff
      have hpaid := (settleStmt_ok hstmt).1.fundsOf_sub hu
      rw [hid, ← hafter] at hpaid
      omega
    · obtain ⟨hl, hid, hbilled, hcost, huser⟩ := writesOff_head.mp hoff
      exact h head hhead l hl hid hbilled hcost huser

/-- A run in which nothing else touches the tables and every attempt meets `fault`. -/
def steadyRun (db : Ledger) (now : Int) (fault : Option StmtErr) : LadderRun where
  attempts _ := { db := db, now := now, fault := fault }
  probe := { db := db, now := now }
  mark := { db := db, now := now }

theorem settleBatch_steady (lane : Lane) {limit : Int} (hlimit : 0 < limit) (k bucket : Int)
    (db : Ledger) (now : Int) :
    (∃ out, settleStmt lane db now limit.toNat k bucket = .ok out ∧
      settleBatch lane limit k bucket (steadyRun db now none) =
        (.ok out.summary, some ⟨db, out.ledger⟩)) ∨
    ∃ head, probeLaneHead lane db now k bucket = some head ∧
      settleBatch lane limit k bucket (steadyRun db now none) =
        (.ok { marked := 1, quarantined := 1 }, some ⟨db, markBilledBulk db [head]⟩) := by
  cases hstmt : settleStmt lane db now limit.toNat k bucket with
  | ok out =>
    obtain ⟨-, hbatch, hmarked⟩ := settleStmt_ok hstmt
    have hone : settleOnce lane limit.toNat k bucket { db := db, now := now } = .ok out := by
      simp [settleOnce, hstmt, hbatch, hmarked]
    exact .inl ⟨out, rfl, by
      simp [settleBatch, settleAttempts, steadyRun, settleMaxAttempts, hone, not_le.mpr hlimit]⟩
  | error code =>
    obtain ⟨-, hfit⟩ := settleStmt_error.mp hstmt
    -- A window that is rejected is not empty, so the probe finds its head.
    have hwindow : laneWindow lane db now limit.toNat k bucket ≠ [] := by
      intro hempty
      obtain ⟨out, hok, -⟩ := settleStmt_of_empty hempty
      rw [hstmt] at hok
      cases hok
    obtain ⟨head, hhead⟩ : ∃ head, probeLaneHead lane db now k bucket = some head := by
      rw [← Option.isSome_iff_exists, probeLaneHead_eq, head?_map, Option.isSome_map,
        laneWindow, ← orderLimit_head? (n := limit.toNat) (by omega), isSome_head?]
      exact hwindow
    exact .inr ⟨head, hhead, WritesOffHead.answer ⟨hlimit, fun _ _ => ⟨rfl, hfit⟩, rfl, rfl, hhead⟩⟩

def healthyRow : UsageLog := { id := 1, format := .anthropic, userId := some 4, cost := 10 }

/-- Behind `healthyRow`, a row of a user whose balance is at the end of `bigint`. -/
def poisonedLane : Ledger where
  logs := [healthyRow, { id := 2, format := .anthropic, userId := some 8, cost := 10 }]
  users := [{ id := 4, balance := 100 }, { id := 8, balance := -9223372036854775800 }]
  temps := []
  logIds := by decide
  userIds := by decide
  tempIds := by decide
  balances := by decide

theorem healthyRow_settles : ¬ failsAlone poisonedLane 0 healthyRow := by
  rintro ⟨lane, code, herr, -⟩
  obtain ⟨-, u, hu, hfit⟩ := settleStmt_error.mp herr
  revert u
  cases lane <;> decide

/-- A healthy row is written off when the row behind it is the poison, and when other sessions keep
marking rows of the batch. -/
theorem settleBatch_writesOff_healthy :
    (∃ c, (settleBatch .balance 8000 4 0 (steadyRun poisonedLane 0 none)).2 = some c ∧
      c.WritesOff healthyRow ∧ ¬ failsAlone c.before 0 healthyRow) ∧
    ∃ c, (settleBatch .balance 8000 4 0
        (steadyRun (poisonedLane.alone healthyRow) 0 (some (.concurrentMark 1 2)))).2 = some c ∧
      c.WritesOff healthyRow ∧ ¬ failsAlone c.before 0 healthyRow := by
  have hbalance : ∃ u ∈ poisonedLane.users,
      ¬ InInt64 (u.balance - charge .balance poisonedLane 0 8000 4 0 u.id) := by decide
  have hpoison : WritesOffHead .balance 8000 4 0 (steadyRun poisonedLane 0 none) 1 :=
    ⟨by decide, fun _ _ => ⟨rfl, hbalance⟩, rfl, rfl, by decide⟩
  have hraced : WritesOffHead .balance 8000 4 0
      (steadyRun (poisonedLane.alone healthyRow) 0 (some (.concurrentMark 1 2))) 1 :=
    ⟨by decide, fun _ _ => ⟨rfl, rfl⟩, rfl, rfl, by decide⟩
  exact ⟨⟨_, congrArg Prod.snd hpoison.answer, writesOff_head.mpr (by decide), healthyRow_settles⟩,
    ⟨_, congrArg Prod.snd hraced.answer, writesOff_head.mpr (by decide), healthyRow_settles⟩⟩

end C4Gateway
