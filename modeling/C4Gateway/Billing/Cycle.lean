import C4Gateway.Ledger.Ladder
import C4Gateway.Lib.Progress
import C4Gateway.Pricing.Reprice

/-! One cycle of the billing worker: it prices the rows that have no price yet, then settles the two
lanes and sweeps the free rows until a round makes no progress.  The cycle holds the billing lock
and meets no store error, so every step reads what the one before it left. -/

namespace C4Gateway

open List Sql

def fetchBatchLimit : Nat := 2000

def inCursor (l : UsageLog) : Bool := !l.billed && (l.errorType == .none || l.errorType == .abort)

/-- billing_tier LIKE 'no_price%', which is not true of NULL. -/
def likeNoPrice (l : UsageLog) : Bool :=
  l.billingTier.any fun tier => Text.like "no_price%".toList tier.toList

def hasNoPriceMarker (l : UsageLog) : Bool :=
  "no_price".toList.isPrefixOf (l.billingTier.getD "").toList

def UsageLog.unpriced (l : UsageLog) : UnpricedUsage where
  id := l.id
  userID := l.userId.getD 0
  groupID := l.groupId.getD 0
  model := l.model
  mappedModel := l.mappedModel.getD ""
  format := l.format
  billingTier := l.billingTier.getD ""
  inputTokens := l.inputTokens
  outputTokens := l.outputTokens
  totalTokens := l.totalTokens
  cacheReadTokens := l.cacheReadTokens
  cacheCreationTokens := l.cacheCreationTokens
  callCount := l.callCount
  createdAt := l.createdAt
  upstreamMultiplierBP := l.upstreamMultiplierBP

def fetchUnpriced (db : Ledger) (limit : Nat) : List UsageLog :=
  orderLimit UsageLog.id limit (db.logs.filter fun l => inCursor l && likeNoPrice l)

def fetchUnbilled (db : Ledger) (limit : Nat) : List UsageLog :=
  orderLimit UsageLog.id limit (db.logs.filter inCursor)

/-- The SET and the WHERE of `applyRepricedSQL`. -/
def repricedRow (r : RepricedUsage) (l : UsageLog) : Option UsageLog :=
  if l.id = r.id ∧ l.billed = false ∧ likeNoPrice l then
    some { l with
      priceInputMillis := r.priceInputMillis
      priceOutputMillis := r.priceOutputMillis
      priceCacheReadMillis := r.priceCacheReadMillis
      priceCacheCreationMillis := r.priceCacheCreationMillis
      pricePerCallMillis := r.pricePerCallMillis
      rawCost := r.rawCost
      cost := r.cost
      upstreamCost := r.upstreamCost
      grossProfit := r.grossProfit
      profitMarginBP := r.profitMarginBP
      billingTier := some r.billingTier }
  else none

theorem repricedRow_ids (r : RepricedUsage) (logs : List UsageLog) :
    (update [repricedRow r] logs).map UsageLog.id = logs.map UsageLog.id := by
  rw [update_map_key]
  simp only [mem_singleton, forall_eq]
  intro l l' h
  unfold repricedRow at h
  split at h <;> cases h
  rfl

def applyRepriced (db : Ledger) (r : RepricedUsage) : Int × Ledger :=
  ((db.logs.filter fun l => (repricedRow r l).isSome).length,
    { db with
      logs := update [repricedRow r] db.logs
      logIds := (repricedRow_ids r db.logs) ▸ db.logIds })

def applyRepricedBatch (db : Ledger) : List RepricedUsage → Int × Ledger
  | [] => (0, db)
  | r :: rest =>
    let (n, db) := applyRepriced db r
    let (updated, db) := applyRepricedBatch db rest
    (n + updated, db)

/-- The worker's access to prices: no resolver and no balances are possible configurations. -/
structure Flusher where
  resolver : Option PriceResolver
  effectiveMultiplier : Option (Int → Int → Int) := none

namespace Flusher

def multiplierFor (f : Flusher) (u : UnpricedUsage) : Int :=
  match f.effectiveMultiplier with
  | none => 10000
  | some m => m u.userID u.groupID

def reprice (f : Flusher) (l : UsageLog) : Option RepricedUsage :=
  repriceUsage l.unpriced f.resolver (f.multiplierFor l.unpriced)

def repriceNoPrice (f : Flusher) (db : Ledger) : Int × Ledger :=
  if f.resolver.isNone then (0, db)
  else applyRepricedBatch db ((fetchUnpriced db fetchBatchLimit).filterMap f.reprice)

end Flusher

def minBatchLimit : Int := 500

def maxBatchLimit : Int := 64000

def settleTimeBudget : Int := 8 * 1000000000 -- nanoseconds

/-- The limit on the rows of a settlement, which stays within its bounds. -/
structure BatchController where
  cur : Int
  bounds : minBatchLimit ≤ cur ∧ cur ≤ maxBatchLimit

namespace BatchController

theorem cur_pos (c : BatchController) : 0 < c.cur := by
  have hlow := c.bounds.1
  unfold minBatchLimit at hlow
  omega

def clamp (n : Int) : BatchController :=
  if hlow : n < minBatchLimit then ⟨minBatchLimit, by decide⟩
  else if hhigh : n > maxBatchLimit then ⟨maxBatchLimit, by decide⟩
  else ⟨n, not_lt.mp hlow, not_lt.mp hhigh⟩

def observe (c : BatchController) (elapsed : Int) (timedOut failed subscribed : Bool) :
    BatchController :=
  if timedOut then clamp (c.cur / 2)
  else if !failed && elapsed < settleTimeBudget / 3 && subscribed then clamp (c.cur * 2)
  else clamp c.cur

end BatchController

def settleParallelism : Nat := 4

/-- A settlement of one bucket, with the time that it takes. -/
structure BucketCall where
  bucket : Int
  now : Int
  elapsed : Int := 0

/-- The calls of a lane in the order in which they take effect, one for every bucket. -/
structure LaneCalls where
  calls : List BucketCall
  buckets : (calls.map BucketCall.bucket).Perm
    ((List.range settleParallelism).map fun i => (i : Int))

/-- The tables, and one controller for each lane. -/
structure WorkerState where
  db : Ledger
  ctl : Lane → BatchController

/-- The call of one bucket: the rows that leave the cursor, and the state after it.  A bucket that
fails contributes nothing. -/
def settleBucket (lane : Lane) (w : WorkerState) (c : BucketCall) : Int × WorkerState :=
  let limit := (w.ctl lane).cur
  match settleBatch lane limit settleParallelism c.bucket (steadyRun w.db c.now none) with
  | (.ok s, commit) =>
    (s.marked,
      { db := (commit.map Commit.after).getD w.db
        ctl := Function.update w.ctl lane
          ((w.ctl lane).observe c.elapsed false false (s.batchRows ≥ limit)) })
  | (.error _, _) =>
    (0, { w with
      ctl := Function.update w.ctl lane ((w.ctl lane).observe c.elapsed false true false) })

def settleLaneParallel (lane : Lane) : List BucketCall → WorkerState → Int × WorkerState
  | [], w => (0, w)
  | c :: calls, w =>
    let (n, w) := settleBucket lane w c
    let (marked, w) := settleLaneParallel lane calls w
    (n + marked, w)

def sweepable (l : UsageLog) : Bool := l.cost ≤ 0 && !hasNoPriceMarker l

def sweepZeroCost (w : WorkerState) : Int × WorkerState :=
  let zeroIDs := ((fetchUnbilled w.db fetchBatchLimit).filter sweepable).map UsageLog.id
  if zeroIDs.isEmpty then (0, w)
  else (zeroIDs.length, { w with db := markBilledBulk w.db zeroIDs })

structure Round where
  calls : Lane → LaneCalls

def consumeBatch (w : WorkerState) (round : Round) : Int × WorkerState :=
  let (balance, w) := settleLaneParallel .balance (round.calls .balance).calls w
  let (fefo, w) := settleLaneParallel .fefo (round.calls .fefo).calls w
  let (swept, w) := sweepZeroCost w
  (balance + fefo + swept, w)

/-- The rounds of a cycle.  The loop stops after a round without progress, or when the time budget
ends the list of rounds. -/
def drainLoop : WorkerState → List Round → Int × WorkerState
  | w, [] => (0, w)
  | w, round :: rounds =>
    let (n, w) := consumeBatch w round
    if n = 0 then (0, w)
    else
      let (drained, w) := drainLoop w rounds
      (n + drained, w)

/-- A cycle that holds the lock and has the time for a first round. -/
def Flusher.consumeCycle (f : Flusher) (w : WorkerState) (first : Round) (more : List Round) :
    Int × WorkerState :=
  let (repriced, db) := f.repriceNoPrice w.db
  let (drained, w) := drainLoop { w with db } (first :: more)
  (repriced + drained, w)

variable {db : Ledger} {l : UsageLog}

section

open Progress

def LaneEmpty (lane : Lane) (c : BucketCall) (db : Ledger) : Prop :=
  laneRows lane db c.now settleParallelism c.bucket = []

variable {w : WorkerState} (lane : Lane) (c : BucketCall)

theorem laneWindow_eq_nil_iff (w : WorkerState) :
    laneWindow lane w.db c.now (w.ctl lane).cur.toNat settleParallelism c.bucket = [] ↔
      LaneEmpty lane c w.db := by
  have hlimit := (w.ctl lane).cur_pos
  exact orderLimit_eq_nil (by omega)

theorem settleBucket_idle {lane : Lane} {c : BucketCall} (hempty : LaneEmpty lane c w.db) :
    (settleBucket lane w c).1 = 0 ∧ (settleBucket lane w c).2.db = w.db := by
  obtain ⟨out, hok, hmarked, hdb⟩ :=
    settleStmt_of_empty ((laneWindow_eq_nil_iff lane c w).mpr hempty)
  rcases settleBatch_steady lane (w.ctl lane).cur_pos settleParallelism c.bucket w.db c.now with
    ⟨out', hok', hbatch⟩ | ⟨head, hhead, -⟩
  · rw [hok] at hok'
    cases hok'
    simp [settleBucket, hbatch, hmarked, hdb]
  · rw [probeLaneHead_eq, laneWindow, hempty] at hhead
    cases hhead

theorem settleBucket_progress {lane : Lane} {c : BucketCall} (hne : ¬ LaneEmpty lane c w.db) :
    0 < (settleBucket lane w c).1 := by
  rcases settleBatch_steady lane (w.ctl lane).cur_pos settleParallelism c.bucket w.db c.now with
    ⟨out, hok, hbatch⟩ | ⟨head, -, hbatch⟩
  · obtain ⟨-, -, hmarked⟩ := settleStmt_ok hok
    simp only [settleBucket, hbatch, hmarked]
    exact_mod_cast length_pos_of_ne_nil (mt (laneWindow_eq_nil_iff lane c w).mp hne)
  · simp [settleBucket, hbatch]

theorem settleBucket_idles : Idles WorkerState.db (settleBucket lane · c) (LaneEmpty lane c) := by
  refine ⟨fun w => ?_, fun w => settleBucket_idle, fun w hzero => ?_⟩
  · by_cases hempty : LaneEmpty lane c w.db
    · exact (settleBucket_idle hempty).1.ge
    · exact (settleBucket_progress hempty).le
  · by_contra hne
    exact (settleBucket_progress hne).ne' hzero

theorem settleLaneParallel_idles (calls : List BucketCall) :
    Idles WorkerState.db (settleLaneParallel lane calls)
      fun db => ∀ c ∈ calls, LaneEmpty lane c db := by
  induction calls with
  | nil =>
    apply Idles.skip.congr
    simp
  | cons c calls ih =>
    apply ((settleBucket_idles lane c).seq ih).congr
    simp

def NothingToSweep (db : Ledger) : Prop :=
  ∀ l ∈ fetchUnbilled db fetchBatchLimit, sweepable l = false

theorem sweepZeroCost_idles : Idles WorkerState.db sweepZeroCost NothingToSweep := by
  refine ⟨fun w => ?_, fun w hnone => ?_, fun w hzero l hl => ?_⟩
  · simp only [sweepZeroCost]
    split
    · exact le_refl _
    · exact Int.natCast_nonneg _
  · have hnil : (fetchUnbilled w.db fetchBatchLimit).filter sweepable = [] :=
      filter_eq_nil_iff.mpr fun l hl => by simp [hnone l hl]
    simp [sweepZeroCost, hnil]
  · by_contra hsweep
    have hne : ((fetchUnbilled w.db fetchBatchLimit).filter sweepable).map UsageLog.id ≠ [] :=
      ne_nil_of_mem (mem_map_of_mem (mem_filter.mpr ⟨hl, by simpa using hsweep⟩))
    have hpos := length_pos_of_ne_nil hne
    simp only [sweepZeroCost, List.isEmpty_iff, if_neg hne] at hzero
    omega

/-- The round finds no row to settle and nothing to sweep. -/
structure RoundIdle (round : Round) (db : Ledger) : Prop where
  lanes : ∀ lane, ∀ c ∈ (round.calls lane).calls, LaneEmpty lane c db
  sweep : NothingToSweep db

theorem consumeBatch_idles (round : Round) :
    Idles WorkerState.db (consumeBatch · round) (RoundIdle round) := by
  have hpasses := ((settleLaneParallel_idles .balance (round.calls .balance).calls).seq
    (settleLaneParallel_idles .fefo (round.calls .fefo).calls)).seq sweepZeroCost_idles
  refine hpasses.congr fun db => ⟨fun h => ⟨fun lane => ?_, h.2⟩, fun h => ?_⟩
  · cases lane
    · exact h.1.1
    · exact h.1.2
  · exact ⟨⟨h.lanes .balance, h.lanes .fefo⟩, h.sweep⟩

theorem drainLoop_cons (w : WorkerState) (round : Round) (rounds : List Round) :
    drainLoop w (round :: rounds) =
      if (consumeBatch w round).1 = 0 then (0, (consumeBatch w round).2)
      else seq (consumeBatch · round) (drainLoop · rounds) w :=
  rfl

theorem drainLoop_nonneg (w : WorkerState) (rounds : List Round) :
    0 ≤ (drainLoop w rounds).1 := by
  induction rounds generalizing w with
  | nil => exact le_refl _
  | cons round rounds ih =>
    rw [drainLoop_cons]
    split
    · exact le_refl _
    · exact add_nonneg ((consumeBatch_idles round).nonneg w) (ih _)

theorem drainLoop_idles (first : Round) (more : List Round) :
    Idles WorkerState.db (drainLoop · (first :: more)) (RoundIdle first) := by
  have hround := consumeBatch_idles first
  refine ⟨fun w => drainLoop_nonneg w _, fun w hidle => ?_, fun w hzero => hround.of_zero w ?_⟩
  · obtain ⟨hzero, hdb⟩ := hround.idle w hidle
    rw [drainLoop_cons, if_pos hzero]
    exact ⟨rfl, hdb⟩
  · by_contra hne
    rw [drainLoop_cons, if_neg hne] at hzero
    have hfirst := hround.nonneg w
    have hrest := drainLoop_nonneg (consumeBatch w first).2 more
    simp only [seq] at hzero
    omega

theorem applyRepricedBatch_nonneg (db : Ledger) (rs : List RepricedUsage) :
    0 ≤ (applyRepricedBatch db rs).1 := by
  induction rs generalizing db with
  | nil => exact le_refl _
  | cons r rs ih => exact add_nonneg (Int.natCast_nonneg _) (ih (applyRepriced db r).2)

theorem applyRepriced_pos {r : RepricedUsage} (hl : l ∈ db.logs)
    (hbilled : l.billed = false) (hlike : likeNoPrice l) (hid : r.id = l.id) :
    0 < (applyRepriced db r).1 := by
  have hmem : l ∈ db.logs.filter fun l => (repricedRow r l).isSome :=
    mem_filter.mpr ⟨hl, by simp [repricedRow, hid, hbilled, hlike]⟩
  exact Int.natCast_pos.mpr (length_pos_of_mem hmem)

def NothingToReprice (f : Flusher) (db : Ledger) : Prop :=
  ∀ l ∈ fetchUnpriced db fetchBatchLimit, f.reprice l = none

theorem repriceNoPrice_idles (f : Flusher) :
    Idles WorkerState.db
      (fun w => ((f.repriceNoPrice w.db).1, { w with db := (f.repriceNoPrice w.db).2 }))
      (NothingToReprice f) := by
  refine ⟨fun w => ?_, fun w hnone => ?_, fun w hzero => ?_⟩
  · simp only [Flusher.repriceNoPrice]
    split
    · exact le_refl _
    · exact applyRepricedBatch_nonneg _ _
  · have hnil : (fetchUnpriced w.db fetchBatchLimit).filterMap f.reprice = [] :=
      filterMap_eq_nil_iff.mpr hnone
    simp [Flusher.repriceNoPrice, hnil, applyRepricedBatch]
  · simp only [Flusher.repriceNoPrice] at hzero
    split at hzero
    · next hresolver =>
      intro l _
      simp [Flusher.reprice, repriceUsage, Option.isNone_iff_eq_none.mp hresolver]
    · refine filterMap_eq_nil_iff.mp ?_
      cases hrs : (fetchUnpriced w.db fetchBatchLimit).filterMap f.reprice with
      | nil => rfl
      | cons r rs =>
        -- The first re-priced row is still in the cursor, so its update counts.
        obtain ⟨l, hl, hr⟩ := mem_filterMap.mp (hrs ▸ mem_cons_self : r ∈ _)
        obtain ⟨hmem, hwhere⟩ := mem_filter.mp (mem_of_mem_orderLimit hl)
        simp only [inCursor, Bool.and_eq_true, Bool.not_eq_true'] at hwhere
        have hpos := applyRepriced_pos hmem hwhere.1.1 hwhere.2 (repriceUsage_id hr)
        have hrest := applyRepricedBatch_nonneg (applyRepriced w.db r).2 rs
        rw [hrs] at hzero
        simp only [applyRepricedBatch] at hzero
        omega

theorem consumeCycle_idles (f : Flusher) (first : Round) (more : List Round) :
    Idles WorkerState.db (f.consumeCycle · first more)
      fun db => NothingToReprice f db ∧ RoundIdle first db :=
  (repriceNoPrice_idles f).seq (drainLoop_idles first more)

end

section

/-- A row of `p` that a fetch of `p` reaches: fewer rows than its LIMIT come before it. -/
def withinFetch (db : Ledger) (p : UsageLog → Bool) (l : UsageLog) : Prop :=
  l ∈ db.logs ∧ p l ∧ (db.logs.filter fun a => p a && decide (a.id < l.id)).length < fetchBatchLimit

theorem mem_fetch_iff {p : UsageLog → Bool} :
    l ∈ orderLimit UsageLog.id fetchBatchLimit (db.logs.filter p) ↔ withinFetch db p l := by
  have hids : ((db.logs.filter p).map UsageLog.id).Nodup :=
    db.logIds.sublist (filter_sublist.map _)
  rw [mem_orderLimit_iff hids, mem_filter, and_assoc]
  simp [withinFetch, Bool.and_comm]

def Flusher.waits (f : Flusher) (l : UsageLog) : Bool :=
  l.cost ≤ 0 && hasNoPriceMarker l && (f.reprice l).isNone

/-- A row that the first statements of a cycle take: a charge of a bucket, a free row or a row that
has a price now, the last two within their fetch. -/
def Flusher.Reaches (f : Flusher) (first : Round) (db : Ledger) : Prop :=
  (∃ lane, ∃ c ∈ (first.calls lane).calls, ∃ l ∈ db.logs,
      inLane lane db.temps c.now settleParallelism c.bucket l) ∨
    (∃ l, withinFetch db inCursor l ∧ sweepable l) ∨
    ∃ l, withinFetch db (fun l => inCursor l && likeNoPrice l) l ∧ (f.reprice l).isSome

theorem not_reaches_iff {f : Flusher} {first : Round} :
    ¬ f.Reaches first db ↔ NothingToReprice f db ∧ RoundIdle first db := by
  have hlanes : (∀ lane, ∀ c ∈ (first.calls lane).calls, LaneEmpty lane c db) ↔
      ¬ ∃ lane, ∃ c ∈ (first.calls lane).calls, ∃ l ∈ db.logs,
        inLane lane db.temps c.now settleParallelism c.bucket l := by
    simp [LaneEmpty, laneRows]
  have hsweep : NothingToSweep db ↔ ¬ ∃ l, withinFetch db inCursor l ∧ sweepable l := by
    simp [NothingToSweep, fetchUnbilled, mem_fetch_iff]
  have hreprice : NothingToReprice f db ↔
      ¬ ∃ l, withinFetch db (fun l => inCursor l && likeNoPrice l) l ∧ (f.reprice l).isSome := by
    simp [NothingToReprice, fetchUnpriced, mem_fetch_iff]
  rw [Flusher.Reaches, not_or, not_or, ← hlanes, ← hsweep, ← hreprice]
  constructor
  · rintro ⟨hlanes, hsweep, hreprice⟩
    exact ⟨hreprice, hlanes, hsweep⟩
  · rintro ⟨hreprice, hlanes, hsweep⟩
    exact ⟨hlanes, hsweep, hreprice⟩

theorem consumeCycle_eq_zero_iff (f : Flusher) (w : WorkerState) (first : Round)
    (more : List Round) : (f.consumeCycle w first more).1 = 0 ↔ ¬ f.Reaches first w.db := by
  have hidles := consumeCycle_idles f first more
  rw [not_reaches_iff]
  exact ⟨hidles.of_zero w, fun h => (hidles.idle w h).1⟩

theorem consumeCycle_still (f : Flusher) (w : WorkerState) (first : Round) (more : List Round)
    (h : (f.consumeCycle w first more).1 = 0) : (f.consumeCycle w first more).2.db = w.db :=
  have hidles := consumeCycle_idles f first more
  (hidles.idle w (hidles.of_zero w h)).2

/-- A cycle without progress leaves nothing but waiting rows exactly when there was nothing else, or
when it reaches some row and so does make progress. -/
theorem consumeCycle_leaves_waiting_iff (f : Flusher) (w : WorkerState) (first : Round)
    (more : List Round) :
    ((f.consumeCycle w first more).1 = 0 →
        ∀ l ∈ (f.consumeCycle w first more).2.db.logs, inCursor l → f.waits l) ↔
      f.Reaches first w.db ∨ ∀ l ∈ w.db.logs, inCursor l → f.waits l := by
  rw [consumeCycle_eq_zero_iff, ← or_iff_not_imp_left]
  refine or_congr_right' fun hnone => ?_
  rw [consumeCycle_still f w first more ((consumeCycle_eq_zero_iff f w first more).mpr hnone)]

def waitingRow (model : String) (id : Int) : UsageLog where
  id := id
  userId := some 1
  model := model
  format := .openaiChat
  inputTokens := 100
  outputTokens := 10
  totalTokens := 110
  billingTier := some "no_price"

/-- As many rows of a model without a price as the fetch takes, and then one of a model that has a
price now. -/
def blockedQueue : Ledger where
  logs := (List.range fetchBatchLimit).map (fun i : Nat => waitingRow "unknown" (i + 1)) ++
    [waitingRow "priced" (fetchBatchLimit + 1)]
  users := [{ id := 1, balance := 5000000 }]
  temps := []
  logIds := by
    have hrange : (List.range fetchBatchLimit).Nodup := nodup_range
    have hinj : Function.Injective (UsageLog.id ∘ fun i : Nat => waitingRow "unknown" (i + 1)) :=
      fun i j h => by simpa [waitingRow] using h
    rw [map_append, map_map, nodup_append]
    refine ⟨hrange.map hinj, nodup_singleton _, ?_⟩
    simp only [mem_map, mem_range, map_cons, map_nil, mem_singleton]
    rintro _ ⟨i, hi, rfl⟩ _ rfl
    simp only [Function.comp, waitingRow]
    omega
  userIds := nodup_singleton _
  tempIds := nodup_nil
  balances := by decide

def onePrice : Flusher where
  resolver := some fun model _ _ _ =>
    if model.toList = "priced".toList then
      some { inputPerM := some 1000000, outputPerM := some 2000000 } else none

theorem onePrice_reprice (model : String) (id : Int) :
    (onePrice.reprice (waitingRow model id)).isSome ↔
      Text.trimSpace model.toList = "priced".toList := by
  have hmodel : recoveryModel (waitingRow model id).unpriced = Text.trimSpace model.toList := by
    simp [recoveryModel, waitingRow, UsageLog.unpriced]
  rw [Flusher.reprice, onePrice, repriceUsage_eq, hmodel]
  simp only [repricePrices, waitingRow, UsageLog.unpriced, String.toList_ofList, reduceCtorEq,
    false_and]
  by_cases h : Text.trimSpace model.toList = "priced".toList
  · rw [h, if_neg (by decide), Option.isSome_map]
    decide
  · simp only [h, if_false, Option.filter_none, Option.map_none, ite_self, Option.isSome_none,
      Bool.false_eq_true]

def fourBuckets : LaneCalls where
  calls := [{ bucket := 0, now := 0 }, { bucket := 1, now := 0 }, { bucket := 2, now := 0 },
    { bucket := 3, now := 0 }]
  buckets := by decide

def blockedStart : WorkerState where
  db := blockedQueue
  ctl _ := ⟨2000, by decide⟩

theorem blockedQueue_logs (hl : l ∈ blockedQueue.logs) :
    (∃ id, l = waitingRow "unknown" id) ∨ l = waitingRow "priced" (fetchBatchLimit + 1) := by
  rcases mem_append.mp hl with hl | hl
  · obtain ⟨i, -, rfl⟩ := mem_map.mp hl
    exact .inl ⟨_, rfl⟩
  · exact .inr (mem_singleton.mp hl)

theorem waitingRow_inCursor (model : String) (id : Int) :
    (inCursor (waitingRow model id) && likeNoPrice (waitingRow model id)) = true := by
  have hlike : Text.like "no_price%".toList "no_price".toList := by decide
  simpa [inCursor, likeNoPrice, waitingRow] using hlike

theorem blockedQueue_full :
    ¬ withinFetch blockedQueue (fun l => inCursor l && likeNoPrice l)
      (waitingRow "priced" (fetchBatchLimit + 1)) := by
  rintro ⟨-, -, hbefore⟩
  have hahead :
      ((List.range fetchBatchLimit).map fun i : Nat => waitingRow "unknown" (i + 1)).filter
        (fun a => (inCursor a && likeNoPrice a) && decide (a.id < fetchBatchLimit + 1)) =
      (List.range fetchBatchLimit).map fun i : Nat => waitingRow "unknown" (i + 1) := by
    refine filter_eq_self.mpr fun a ha => ?_
    obtain ⟨i, hi, rfl⟩ := mem_map.mp ha
    rw [waitingRow_inCursor, Bool.true_and, decide_eq_true_eq]
    have := mem_range.mp hi
    simp only [waitingRow]
    omega
  have hlength : fetchBatchLimit ≤ (blockedQueue.logs.filter fun a =>
      (inCursor a && likeNoPrice a) && decide (a.id < fetchBatchLimit + 1)).length := by
    rw [blockedQueue, filter_append, hahead, length_append, length_map, length_range]
    exact Nat.le_add_right _ _
  exact absurd hbefore (not_lt.mpr hlength)

theorem blockedQueue_not_reached :
    ¬ onePrice.Reaches { calls := fun _ => fourBuckets } blockedQueue := by
  have hrow : ∀ l ∈ blockedQueue.logs, ∃ model id, l = waitingRow model id := by
    intro l hl
    rcases blockedQueue_logs hl with ⟨id, rfl⟩ | rfl <;> exact ⟨_, _, rfl⟩
  rintro (⟨lane, c, -, l, hl, hlane⟩ | ⟨l, ⟨hl, -⟩, hsweep⟩ | ⟨l, hfetch, hprice⟩)
  · obtain ⟨model, id, rfl⟩ := hrow l hl
    simp [inLane, chargeable, waitingRow] at hlane
  · obtain ⟨model, id, rfl⟩ := hrow l hl
    simp [sweepable, hasNoPriceMarker, waitingRow] at hsweep
  · rcases blockedQueue_logs hfetch.1 with ⟨id, rfl⟩ | rfl
    · exact absurd ((onePrice_reprice "unknown" id).mp hprice) (by decide)
    · exact blockedQueue_full hfetch

theorem consumeCycle_idles_on_blockedQueue :
    let cycle := onePrice.consumeCycle blockedStart { calls := fun _ => fourBuckets } []
    cycle.1 = 0 ∧
      ∃ l ∈ cycle.2.db.logs, inCursor l ∧ (onePrice.reprice l).isSome ∧ ¬ onePrice.waits l := by
  have hzero := (consumeCycle_eq_zero_iff onePrice blockedStart { calls := fun _ => fourBuckets }
    []).mpr blockedQueue_not_reached
  have hprice := (onePrice_reprice "priced" (fetchBatchLimit + 1)).mpr (by decide)
  refine ⟨hzero, waitingRow "priced" (fetchBatchLimit + 1), ?_, ?_, hprice, ?_⟩
  · rw [consumeCycle_still _ _ _ _ hzero]
    exact mem_append_right _ (mem_singleton.mpr rfl)
  · exact (Bool.and_eq_true_iff.mp (waitingRow_inCursor _ _)).1
  · simp [Flusher.waits, Option.isSome_iff_ne_none.mp hprice]

end
end C4Gateway
