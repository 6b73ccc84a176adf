import C4Gateway.Domain
import C4Gateway.Lib.GroupBy
import C4Gateway.Lib.Run
import Mathlib.Algebra.Group.Prod

/-! The hourly statistics.  A worker recomputes whole hours from the two log tables and moves a
watermark; the hours before the watermark are final.  Every query of a cycle sees the rows that are
visible when it runs. -/

namespace C4Gateway.StatsAgg

open List
open Bool (and_eq_true)

open GroupBy

/-- An hour, in nanoseconds. -/
def hour : Int := 3600000000000

def truncHour (t : Int) : Int := t - t % hour

/-- A time as the database stores it, to the microsecond. -/
def stored (t : Int) : Int := t - t % 1000

/-- The year 1, which stands for a watermark that is not there. -/
def zeroTime : Int := -62135596800000000000

inductive EntityType where
  | account
  | user
  | key
  deriving DecidableEq, Repr

/-- The log of a request, with the times at which its rows become visible in `usage_logs` and
`err_logs`, if they are written at all. -/
structure RequestLog where
  createdAt : Int
  groupID : Option Int := none
  accountID : Option Int := none
  userID : Option Int := none
  keyID : Option Int := none
  model : String
  errorType : ErrorType
  callCount : Int := 0
  inputTokens : Int := 0
  outputTokens : Int := 0
  totalTokens : Int := 0
  cacheReadTokens : Int := 0
  cacheCreationTokens : Int := 0
  cost : Int := 0
  rawCost : Int := 0
  ttftMS : Option Nat := none
  usageAt : Option Int := none
  errAt : Option Int := none
  deriving DecidableEq, Repr

/-- Which of the two tables a log is sent to. -/
def routeLog (l : RequestLog) : Bool × Bool :=
  (l.errorType = .none || l.errorType = .abort, l.errorType ≠ .none)

@[ext] structure Measures where
  requestCount : Int := 0
  errorCount : Int := 0
  callCount : Int := 0
  inputTokens : Int := 0
  outputTokens : Int := 0
  totalTokens : Int := 0
  cacheReadTokens : Int := 0
  cacheCreationTokens : Int := 0
  cost : Int := 0
  rawCost : Int := 0
  ttftTotalMS : Int := 0
  ttftCount : Int := 0
  ttftMaxMS : Nat := 0
  deriving DecidableEq, Repr

/-- Columns are added, and of the largest times the larger one is kept. -/
def Measures.add (a b : Measures) : Measures where
  requestCount := a.requestCount + b.requestCount
  errorCount := a.errorCount + b.errorCount
  callCount := a.callCount + b.callCount
  inputTokens := a.inputTokens + b.inputTokens
  outputTokens := a.outputTokens + b.outputTokens
  totalTokens := a.totalTokens + b.totalTokens
  cacheReadTokens := a.cacheReadTokens + b.cacheReadTokens
  cacheCreationTokens := a.cacheCreationTokens + b.cacheCreationTokens
  cost := a.cost + b.cost
  rawCost := a.rawCost + b.rawCost
  ttftTotalMS := a.ttftTotalMS + b.ttftTotalMS
  ttftCount := a.ttftCount + b.ttftCount
  ttftMaxMS := max a.ttftMaxMS b.ttftMaxMS

instance : Zero Measures := ⟨{}⟩

instance : Add Measures := ⟨Measures.add⟩

theorem Measures.add_def (a b : Measures) : a + b = a.add b := rfl

instance : AddCommMonoid Measures where
  add_assoc a b c := by
    simp only [Measures.add_def, Measures.add, add_assoc, max_assoc]
  zero_add a := by
    change Measures.add {} a = a
    simp [Measures.add]
  add_zero a := by
    change Measures.add a {} = a
    simp [Measures.add]
  add_comm a b := by
    ext <;> simp only [Measures.add_def, Measures.add, add_comm, max_comm]
  nsmul := nsmulRec

def ttftHistBounds : List Nat := [0, 50, 100, 200, 400, 800, 1600, 3200, 6400, 12800]

/-- Whether a time falls into a class of the histogram; the last class has no upper bound. -/
def inHist (i : Fin 10) (ms : Nat) : Bool :=
  ttftHistBounds.getD i 0 ≤ ms && (ttftHistBounds[i.val + 1]?).all (ms < ·)

abbrev Hist := Fin 10 → Int

def ttftHist (l : RequestLog) : Hist := fun i => if l.ttftMS.any (inHist i) then 1 else 0

/-- What a row of `usage_logs` adds to the columns of its bucket. -/
def usageMeasures (l : RequestLog) : Measures where
  requestCount := 1
  errorCount := if l.errorType ≠ .none then 1 else 0
  callCount := l.callCount
  inputTokens := l.inputTokens
  outputTokens := l.outputTokens
  totalTokens := l.totalTokens
  cacheReadTokens := l.cacheReadTokens
  cacheCreationTokens := l.cacheCreationTokens
  cost := l.cost
  rawCost := l.rawCost
  ttftTotalMS := (l.ttftMS.getD 0 : Nat)
  ttftCount := if l.ttftMS.isSome then 1 else 0
  ttftMaxMS := l.ttftMS.getD 0

/-- A row of `err_logs` only counts. -/
def errMeasures (l : RequestLog) : Measures where
  requestCount := 1
  errorCount := if l.errorType ≠ .none then 1 else 0

/-- The key of a row of usage by group. -/
structure StatKey where
  bucketTime : Int
  groupID : Int
  model : String
  deriving DecidableEq, Repr

/-- The key of a row of usage by account, user or key. -/
structure EntityKey where
  bucketTime : Int
  entityType : EntityType
  entityID : Int
  model : String
  deriving DecidableEq, Repr

def statKey (l : RequestLog) : StatKey := ⟨truncHour l.createdAt, l.groupID.getD 0, l.model⟩

def statEntityCol (l : RequestLog) : EntityType → Option Int
  | .account => l.accountID
  | .user => l.userID
  | .key => l.keyID

def entityKey (et : EntityType) (l : RequestLog) : EntityKey :=
  ⟨truncHour l.createdAt, et, (statEntityCol l et).getD 0, l.model⟩

abbrev CubeRow := StatKey × (Measures × Hist)

abbrev EntityRow := EntityKey × Measures

/-- The queries of a cycle, each with a time of its own. -/
inductive Query where
  | usage
  | errLog
  | entityUsage (et : EntityType)
  | entityErrLog (et : EntityType)
  deriving DecidableEq, Repr

section
variable (logs : List RequestLog) (time lo hi : Int)

/-- The rows of `usage_logs` that the queries of a range select. -/
def usageRows : List RequestLog :=
  (logs.filter fun l => (routeLog l).1 && l.usageAt.any (· ≤ time)).filter fun l =>
    lo ≤ l.createdAt && l.createdAt < hi && (l.errorType = .none || l.errorType = .abort)

def errRows : List RequestLog :=
  (logs.filter fun l => (routeLog l).2 && l.errAt.any (· ≤ time)).filter fun l =>
    lo ≤ l.createdAt && l.createdAt < hi && l.errorType ≠ .abort

def ofEntity (et : EntityType) (rows : List RequestLog) : List RequestLog :=
  rows.filter fun l => (statEntityCol l et).isSome

end

def entityTypes : List EntityType := [.account, .user, .key]

/-- The result of every query, merged by key. -/
def loadAggRange (logs : List RequestLog) (time : Query → Int) (lo hi : Int) :
    List CubeRow × List EntityRow :=
  (merge [
      group ((usageRows logs (time .usage) lo hi).map fun l =>
        (statKey l, usageMeasures l, ttftHist l)),
      group ((errRows logs (time .errLog) lo hi).map fun l => (statKey l, errMeasures l, 0))],
    merge (entityTypes.flatMap fun et => [
      group ((ofEntity et (usageRows logs (time (.entityUsage et)) lo hi)).map fun l =>
        (entityKey et l, usageMeasures l)),
      group ((ofEntity et (errRows logs (time (.entityErrLog et)) lo hi)).map fun l =>
        (entityKey et l, errMeasures l))]))

/-- The statistics, the watermark, and the first watermark that was ever stored. -/
structure Tables where
  usageStats : List CubeRow := []
  entityStats : List EntityRow := []
  watermark : Option Int := none
  origin : Option Int := none

/-- The step at which a cycle fails or its process dies, if it does. -/
inductive Fault where
  | none
  | lock
  | loadWatermark
  | initWatermark
  | reloadWatermark
  | loadRange
  | aggregateRange
  deriving DecidableEq, Repr

/-- One execution of `runOnce` by some instance: its clock at the start, which no query precedes. -/
structure Cycle where
  start : Int
  time : Query → Int
  after_start : ∀ q, start ≤ time q
  fault : Fault := .none

def statsAggCatchUpLimit : Int := hour

namespace Tables

def loadStatsAggWatermark (s : Tables) : Int := s.watermark.getD zeroTime

/-- `ON CONFLICT DO NOTHING`. -/
def initStatsAggWatermark (s : Tables) (t : Int) : Tables :=
  match s.watermark with
  | none => { s with watermark := some (stored t), origin := some (stored t) }
  | some _ => s

/-- One transaction: both tables are rewritten in the range, and the watermark moves. -/
def aggregateRange (s : Tables) (lo hi wmTo : Int) (rows : List CubeRow × List EntityRow) :
    Tables :=
  { s with
    usageStats := s.usageStats.filter (fun e => !(lo ≤ e.1.bucketTime && e.1.bucketTime < hi)) ++
      rows.1
    entityStats := s.entityStats.filter (fun e => !(lo ≤ e.1.bucketTime && e.1.bucketTime < hi)) ++
      rows.2
    watermark := some (stored wmTo) }

/-- The end of the window that a cycle reads. -/
def windowEnd (lag start wm : Int) : Int :=
  if start - lag - wm > statsAggCatchUpLimit then wm + statsAggCatchUpLimit else start - lag

def aggregate (lag : Int) (logs : List RequestLog) (s : Tables) (c : Cycle) (wm : Int) : Tables :=
  let t := windowEnd lag c.start wm
  if t ≤ wm ∨ c.fault = .loadRange ∨ c.fault = .aggregateRange then s
  else
    s.aggregateRange (truncHour wm) (truncHour t + hour) t
      (loadAggRange logs c.time (truncHour wm) (truncHour t + hour))

/-- One cycle, which ends at its fault. -/
def runOnce (lag : Int) (logs : List RequestLog) (s : Tables) (c : Cycle) : Tables :=
  if c.fault = .lock ∨ c.fault = .loadWatermark then s
  else if s.loadStatsAggWatermark = zeroTime then
    if c.fault = .initWatermark then s
    else
      let s' := s.initStatsAggWatermark (c.start - lag)
      if c.fault = .reloadWatermark ∨ s'.loadStatsAggWatermark = zeroTime then s'
      else s'.aggregate lag logs c s'.loadStatsAggWatermark
  else s.aggregate lag logs c s.loadStatsAggWatermark

end Tables

/-- The row of a log in `usage_logs` is there for good. -/
def RequestLog.inUsage (l : RequestLog) : Bool := (routeLog l).1 && l.usageAt.isSome

def RequestLog.inErr (l : RequestLog) : Bool := (routeLog l).2 && l.errAt.isSome

/-- An aborted request whose row in `usage_logs` is missing, while that in `err_logs` is there. -/
def RequestLog.orphan (l : RequestLog) : Bool :=
  !l.inUsage && l.inErr && l.errorType = .abort

open RequestLog (inUsage inErr orphan)

/-- All logs of requests, of which every row is visible after the lag at the latest. -/
structure LogHistory (lag : Int) where
  logs : List RequestLog
  usage_visible : ∀ l ∈ logs, ∀ v ∈ l.usageAt, v ≤ l.createdAt + lag
  err_visible : ∀ l ∈ logs, ∀ v ∈ l.errAt, v ≤ l.createdAt + lag

/-- What a log adds to the columns of its bucket: all columns if `usage_logs` has it. -/
def measures (l : RequestLog) : Measures := if l.inUsage then usageMeasures l else errMeasures l

def hist (l : RequestLog) : Hist := if l.inUsage then ttftHist l else 0

section
variable (logs : List RequestLog) (h : Int)

/-- The logs of an hour of which at least one row is there. -/
def logsOfHour : List RequestLog :=
  logs.filter fun l => (l.inUsage || l.inErr) && truncHour l.createdAt = h

def cubeOfHour : List CubeRow :=
  group ((logsOfHour logs h).map fun l => (statKey l, measures l, hist l))

def entitiesOfHour : List EntityRow :=
  group (entityTypes.flatMap fun et =>
    (ofEntity et (logsOfHour logs h)).map fun l => (entityKey et l, measures l))

/-- The statistics of an hour are the aggregates of its logs, each of which counts once. -/
def HourExact (s : Tables) : Prop :=
  (s.usageStats.filter fun e => truncHour e.1.bucketTime = h).Perm (cubeOfHour logs h) ∧
  (s.entityStats.filter fun e => truncHour e.1.bucketTime = h).Perm (entitiesOfHour logs h)

/-- The logs of an hour that the queries count: those in `usage_logs`, and those in `err_logs` that
are not aborts. -/
def usageOfHour : List RequestLog :=
  logs.filter fun l => l.inUsage && truncHour l.createdAt = h

def errOfHour : List RequestLog :=
  logs.filter fun l => l.inErr && l.errorType ≠ .abort && truncHour l.createdAt = h

def orphansOfHour : List RequestLog :=
  logs.filter fun l => l.orphan && truncHour l.createdAt = h

end

/-- The rows of `usage_logs` and `err_logs` as the queries see them, before they are grouped. -/
def cubeRows (usage errs : List RequestLog) : List CubeRow :=
  usage.map (fun l => (statKey l, usageMeasures l, ttftHist l)) ++
    errs.map fun l => (statKey l, errMeasures l, 0)

def entityRows (usage errs : List RequestLog) : List EntityRow :=
  entityTypes.flatMap fun et =>
    (ofEntity et usage).map (fun l => (entityKey et l, usageMeasures l)) ++
      (ofEntity et errs).map fun l => (entityKey et l, errMeasures l)

/-- The rows of the hour are the groups of these rows of the log tables. -/
structure Holds (h : Int) (cube : List CubeRow) (entities : List EntityRow)
    (usage errs : List RequestLog) : Prop where
  cube : Groups (cube.filter fun e => truncHour e.1.bucketTime = h) (cubeRows usage errs)
  entities : Groups (entities.filter fun e => truncHour e.1.bucketTime = h) (entityRows usage errs)

theorem truncHour_eq_iff {h t : Int} (hh : h % hour = 0) :
    truncHour t = h ↔ h ≤ t ∧ t < h + hour := by
  unfold truncHour hour at *
  omega

variable (t : Int)

theorem truncHour_mod : truncHour t % hour = 0 := by
  unfold truncHour hour
  omega

theorem truncHour_truncHour : truncHour (truncHour t) = truncHour t := by
  unfold truncHour hour
  omega

theorem truncHour_le : truncHour t ≤ t := by
  unfold truncHour hour
  omega

theorem stored_le : stored t ≤ t := by
  unfold stored
  omega

theorem windowEnd_le (lag start wm : Int) : Tables.windowEnd lag start wm ≤ start - lag := by
  unfold Tables.windowEnd
  split <;> omega

variable {lag : Int}

section
variable {H : LogHistory lag} {h time lo hi : Int}

theorem any_le_of_visible {v : Option Int} {created : Int} (hv : ∀ x ∈ v, x ≤ created + lag)
    (htime : created + lag ≤ time) : v.any (· ≤ time) = v.isSome := by
  cases v with
  | none => rfl
  | some x => simpa using (hv x rfl).trans htime

/-- A query that runs late enough sees all rows of the hour in `usage_logs`. -/
theorem usageRows_hour (hh : h % hour = 0) (hlo : lo ≤ h) (hhi : h + hour ≤ hi)
    (htime : h + hour + lag ≤ time) :
    (usageRows H.logs time lo hi).filter (fun l => truncHour l.createdAt = h) =
      usageOfHour H.logs h := by
  unfold usageRows usageOfHour
  rw [filter_filter, filter_filter]
  refine filter_congr fun l hl => ?_
  by_cases hhour : truncHour l.createdAt = h
  · obtain ⟨hge, hlt⟩ := (truncHour_eq_iff hh).mp hhour
    rw [any_le_of_visible (H.usage_visible l hl) (by omega)]
    have hrange : lo ≤ l.createdAt ∧ l.createdAt < hi := by omega
    grind [inUsage, routeLog]
  · simp [hhour]

theorem errRows_hour (hh : h % hour = 0) (hlo : lo ≤ h) (hhi : h + hour ≤ hi)
    (htime : h + hour + lag ≤ time) :
    (errRows H.logs time lo hi).filter (fun l => truncHour l.createdAt = h) =
      errOfHour H.logs h := by
  unfold errRows errOfHour
  rw [filter_filter, filter_filter]
  refine filter_congr fun l hl => ?_
  by_cases hhour : truncHour l.createdAt = h
  · obtain ⟨hge, hlt⟩ := (truncHour_eq_iff hh).mp hhour
    rw [any_le_of_visible (H.err_visible l hl) (by omega)]
    have hrange : lo ≤ l.createdAt ∧ l.createdAt < hi := by omega
    simp [inErr, hhour, hrange, Bool.and_comm]
  · simp [hhour]

theorem filter_ofEntity (et : EntityType) (p : RequestLog → Bool) (rows : List RequestLog) :
    (ofEntity et rows).filter p = ofEntity et (rows.filter p) := by
  unfold ofEntity
  rw [filter_filter, filter_filter]
  exact filter_congr fun l _ => Bool.and_comm _ _

/-- The rows of a query whose key lies in the hour come from the logs of the hour. -/
theorem filter_map_keyed {κ β : Type} (bucket : κ → Int) (key : RequestLog → κ)
    (hkey : ∀ l, bucket (key l) = truncHour l.createdAt) (f : RequestLog → β)
    (rows : List RequestLog) :
    (rows.map fun l => (key l, f l)).filter (fun e => truncHour (bucket e.1) = h) =
      (rows.filter fun l => truncHour l.createdAt = h).map fun l => (key l, f l) := by
  rw [filter_map]
  congr 1
  refine filter_congr fun l _ => ?_
  simp [hkey, truncHour_truncHour]

/-- What is loaded for an hour, from the rows of the hour that the queries see. -/
theorem loadAggRange_hour {logs usage errs : List RequestLog} {times : Query → Int}
    (husage : ∀ q, (usageRows logs (times q) lo hi).filter
      (fun l => truncHour l.createdAt = h) = usage)
    (herr : ∀ q, (errRows logs (times q) lo hi).filter
      (fun l => truncHour l.createdAt = h) = errs) :
    Holds h (loadAggRange logs times lo hi).1 (loadAggRange logs times lo hi).2 usage errs := by
  constructor
  · have hmerge := (groups_merge [
      (usageRows logs (times .usage) lo hi).map fun l => (statKey l, usageMeasures l, ttftHist l),
      (errRows logs (times .errLog) lo hi).map fun l => (statKey l, errMeasures l, 0)]).filter
        fun k => truncHour k.bucketTime = h
    simp only [flatten_cons, flatten_nil, append_nil, filter_append] at hmerge
    simp only [filter_map_keyed StatKey.bucketTime statKey fun _ => rfl, husage, herr] at hmerge
    exact hmerge
  · have hmerge := (groups_merge (entityTypes.flatMap fun et => [
      (ofEntity et (usageRows logs (times (.entityUsage et)) lo hi)).map fun l =>
        (entityKey et l, usageMeasures l),
      (ofEntity et (errRows logs (times (.entityErrLog et)) lo hi)).map fun l =>
        (entityKey et l, errMeasures l)])).filter fun k => truncHour k.bucketTime = h
    simp only [entityTypes, flatMap_cons, cons_append, nil_append, flatten_cons, filter_append,
      filter_map_keyed EntityKey.bucketTime (entityKey _) fun _ => rfl, filter_ofEntity, husage,
      herr] at hmerge
    refine hmerge.congr_perm (.of_eq ?_)
    simp [entityRows, entityTypes]

end

variable {logs : List RequestLog}

theorem rows_before {h lo : Int} {p : RequestLog → Bool} (hh : h % hour = 0) (hlo : h + hour ≤ lo)
    (hp : ∀ l, p l → lo ≤ l.createdAt) (rows : List RequestLog) :
    (rows.filter p).filter (fun l => truncHour l.createdAt = h) = [] := by
  rw [filter_eq_nil_iff]
  intro l hl hhour
  have hle := hp l (mem_filter.mp hl).2
  have := ((truncHour_eq_iff hh).mp (decide_eq_true_iff.mp hhour)).2
  omega

variable {h lo hi : Int}

section
variable {α : Type*} {bucket : α → Int} {rows : List α}

/-- Hours before the range keep their rows. -/
theorem filter_delete_before (hh : h % hour = 0) (hlo : h + hour ≤ lo) :
    (rows.filter fun e => !(lo ≤ bucket e && bucket e < hi)).filter
        (fun e => truncHour (bucket e) = h) =
      rows.filter fun e => truncHour (bucket e) = h := by
  rw [filter_filter]
  refine filter_congr fun e _ => ?_
  by_cases hhour : truncHour (bucket e) = h
  · have hlt := ((truncHour_eq_iff hh).mp hhour).2
    have hout : ¬ lo ≤ bucket e := by omega
    simp [hout]
  · simp [hhour]

/-- Hours in the range lose their rows. -/
theorem filter_delete_inside (hh : h % hour = 0) (hlo : lo ≤ h) (hhi : h + hour ≤ hi) :
    (rows.filter fun e => !(lo ≤ bucket e && bucket e < hi)).filter
        (fun e => truncHour (bucket e) = h) = [] := by
  rw [filter_eq_nil_iff]
  intro e he hhour
  have hout := (mem_filter.mp he).2
  simp only [Bool.not_eq_true', Bool.and_eq_false_iff, decide_eq_false_iff_not,
    decide_eq_true_eq] at hout hhour
  have := (truncHour_eq_iff hh).mp hhour
  omega

end

variable {s : Tables}

section
variable (wmTo : Int) {rows : List CubeRow × List EntityRow} {usage errs : List RequestLog}

theorem Holds.aggregateRange_before (hold : Holds h s.usageStats s.entityStats usage errs)
    (hnew : Holds h rows.1 rows.2 [] []) (hh : h % hour = 0) (hlo : h + hour ≤ lo) :
    Holds h (s.aggregateRange lo hi wmTo rows).usageStats
      (s.aggregateRange lo hi wmTo rows).entityStats usage errs := by
  constructor <;> rw [Tables.aggregateRange, filter_append, filter_delete_before hh hlo]
  · rw [hnew.cube.eq_nil, append_nil]
    exact hold.cube
  · rw [hnew.entities.eq_nil, append_nil]
    exact hold.entities

theorem Holds.aggregateRange_inside (hnew : Holds h rows.1 rows.2 usage errs) (hh : h % hour = 0)
    (hlo : lo ≤ h) (hhi : h + hour ≤ hi) :
    Holds h (s.aggregateRange lo hi wmTo rows).usageStats
      (s.aggregateRange lo hi wmTo rows).entityStats usage errs := by
  constructor <;> rw [Tables.aggregateRange, filter_append, filter_delete_inside hh hlo hhi]
  · exact hnew.cube
  · exact hnew.entities

end

variable {H : LogHistory lag}

/-- The hours before the watermark, from the hour of the first one on, hold the groups of all their
rows in the log tables. -/
def UpToWatermark (H : LogHistory lag) (s : Tables) : Prop :=
  ∀ o w h : Int, s.origin = some o → s.watermark = some w → h % hour = 0 → truncHour o ≤ h →
    h + hour ≤ w → Holds h s.usageStats s.entityStats (usageOfHour H.logs h) (errOfHour H.logs h)

theorem upToWatermark_of_origin (hs : s.origin = s.watermark) : UpToWatermark H s := by
  intro o w h ho hw hh hge hle
  have heq : o = w := Option.some.inj (ho.symm.trans (hs.trans hw))
  have := ((truncHour_eq_iff (truncHour_mod o)).mp rfl).2
  omega

theorem UpToWatermark.init (hs : UpToWatermark H s) (t : Int) :
    UpToWatermark H (s.initStatsAggWatermark t) := by
  unfold Tables.initStatsAggWatermark
  split
  · exact upToWatermark_of_origin rfl
  · exact hs

/-- A cycle that succeeds leaves the hours before its range alone and makes those that end before
its window does final. -/
theorem UpToWatermark.aggregate (hs : UpToWatermark H s) (c : Cycle) {wm : Int}
    (hwm : s.watermark = some wm) : UpToWatermark H (s.aggregate lag H.logs c wm) := by
  simp only [Tables.aggregate]
  split
  · exact hs
  intro o w h ho hw hh hge hle
  obtain rfl := Option.some.inj hw
  generalize ht : Tables.windowEnd lag c.start wm = t at *
  have hwindow : t ≤ c.start - lag := ht ▸ windowEnd_le lag c.start wm
  have hend : h + hour ≤ t := hle.trans (stored_le t)
  by_cases hold : h < truncHour wm
  · have hbefore : h + hour ≤ truncHour wm := by
      unfold truncHour hour at *
      omega
    have hnew : Holds h (loadAggRange H.logs c.time (truncHour wm) (truncHour t + hour)).1
        (loadAggRange H.logs c.time (truncHour wm) (truncHour t + hour)).2 [] [] :=
      loadAggRange_hour (fun _ => rows_before hh hbefore (by simp +contextual) _)
        fun _ => rows_before hh hbefore (by simp +contextual) _
    exact (hs o wm h ho hwm hh hge (hbefore.trans (truncHour_le wm))).aggregateRange_before _ hnew
      hh hbefore
  · have hlo : truncHour wm ≤ h := Int.not_lt.mp hold
    have hhi : h + hour ≤ truncHour t + hour := by
      unfold truncHour hour at *
      omega
    have hlate : ∀ q, h + hour + lag ≤ c.time q := fun q => by
      have := c.after_start q
      omega
    exact (loadAggRange_hour (fun q => usageRows_hour hh hlo hhi (hlate q)) fun q =>
      errRows_hour hh hlo hhi (hlate q)).aggregateRange_inside _ hh hlo hhi

theorem watermark_of_ne_zero (h : s.loadStatsAggWatermark ≠ zeroTime) :
    s.watermark = some s.loadStatsAggWatermark := by
  unfold Tables.loadStatsAggWatermark at *
  cases hw : s.watermark with
  | none => simp [hw] at h
  | some w => rfl

/-- No cycle, however it ends, spoils an hour before the watermark. -/
theorem UpToWatermark.runOnce (hs : UpToWatermark H s) (c : Cycle) :
    UpToWatermark H (s.runOnce lag H.logs c) := by
  simp only [Tables.runOnce]
  split_ifs with _ hzero _ hstop
  · exact hs
  · exact hs
  · exact hs.init _
  · push Not at hstop
    exact (hs.init _).aggregate c (watermark_of_ne_zero hstop.2)
  · exact hs.aggregate c (watermark_of_ne_zero hzero)

theorem filter_or_perm {α : Type*} {p q : α → Bool} {l : List α}
    (hdisjoint : ∀ a ∈ l, p a = true → q a = false) :
    (l.filter fun a => p a || q a).Perm (l.filter p ++ l.filter q) := by
  have hp : (l.filter fun a => p a || q a).filter p = l.filter p := by
    rw [filter_filter]
    refine filter_congr fun a _ => ?_
    cases p a <;> rfl
  have hq : ((l.filter fun a => p a || q a).filter fun a => !p a) = l.filter q := by
    rw [filter_filter]
    refine filter_congr fun a ha => ?_
    cases hpa : p a
    · rfl
    · rw [hdisjoint a ha hpa]
      rfl
  have hsplit := filter_append_perm p (l.filter fun a => p a || q a)
  rw [hp, hq] at hsplit
  exact hsplit.symm

/-- The logs of an hour are those in `usage_logs`, those in `err_logs` that are not aborts, and the
aborts that only `err_logs` has. -/
theorem logsOfHour_perm (logs : List RequestLog) (h : Int) :
    (logsOfHour logs h).Perm
      (usageOfHour logs h ++ errOfHour logs h ++ orphansOfHour logs h) := by
  -- a log that `err_logs` has and that is no abort is not sent to `usage_logs`
  have hroute : ∀ l : RequestLog, l.inErr = true → l.errorType ≠ .abort → l.inUsage = false := by
    intro l herr habort
    simp only [inErr, inUsage, routeLog, and_eq_true, decide_eq_true_eq] at herr ⊢
    simp [herr.1, habort]
  have hlogs : logsOfHour logs h = logs.filter fun l =>
      (l.inUsage && truncHour l.createdAt = h ||
        l.inErr && l.errorType ≠ .abort && truncHour l.createdAt = h) ||
          l.orphan && truncHour l.createdAt = h := by
    refine filter_congr fun l _ => ?_
    cases hu : l.inUsage <;> cases he : l.inErr <;>
      by_cases habort : l.errorType = .abort <;> simp [orphan, habort, hu, he]
  rw [hlogs]
  refine (filter_or_perm fun l _ hl => ?_).trans ((filter_or_perm fun l _ hl => ?_).append_right _)
  · simp only [Bool.or_eq_true, and_eq_true, decide_eq_true_eq] at hl
    rcases hl with hl | hl
    · simp [orphan, hl.1]
    · simp [orphan, hl.1.2]
  · simp only [and_eq_true] at hl
    by_contra hcon
    simp only [Bool.not_eq_false, and_eq_true, decide_eq_true_eq] at hcon
    simp [hroute l hcon.1.1 hcon.1.2] at hl

section
variable {h : Int} {l : RequestLog}

theorem mem_usageOfHour (hl : l ∈ usageOfHour logs h) : l.inUsage = true := by
  simp_all [usageOfHour]

/-- Logs outside `usage_logs` only count. -/
theorem inUsage_of_mem_errOfHour (hl : l ∈ errOfHour logs h) : l.inUsage = false := by
  simp_all [errOfHour, inErr, inUsage, routeLog]

theorem inUsage_of_mem_orphansOfHour (hl : l ∈ orphansOfHour logs h) : l.inUsage = false := by
  simp_all [orphansOfHour, orphan]

/-- The rows of the logs of an hour, before they are grouped. -/
theorem cubeOfHour_perm :
    ((logsOfHour logs h).map fun l => (statKey l, measures l, hist l)).Perm
      (cubeRows (usageOfHour logs h) (errOfHour logs h) ++
        (orphansOfHour logs h).map fun l => (statKey l, errMeasures l, 0)) := by
  refine ((logsOfHour_perm logs h).map _).trans (.of_eq ?_)
  rw [map_append, map_append]
  congr 1
  · congr 1
    · exact map_congr_left fun l hl => by simp [measures, hist, mem_usageOfHour hl]
    · exact map_congr_left fun l hl => by
        simp [measures, hist, inUsage_of_mem_errOfHour hl]
  · exact map_congr_left fun l hl => by
      simp [measures, hist, inUsage_of_mem_orphansOfHour hl]

theorem entitiesOfHour_perm (horphan : orphansOfHour logs h = []) :
    (entityTypes.flatMap fun et =>
      (ofEntity et (logsOfHour logs h)).map fun l => (entityKey et l, measures l)).Perm
        (entityRows (usageOfHour logs h) (errOfHour logs h)) := by
  have hlogs := logsOfHour_perm logs h
  rw [horphan, append_nil] at hlogs
  refine Perm.flatMap_left _ fun et _ => ?_
  refine ((hlogs.filter _).map _).trans (.of_eq ?_)
  rw [filter_append, map_append]
  congr 1
  · exact map_congr_left fun l hl => by
      simp [measures, mem_usageOfHour (mem_filter.mp hl).1]
  · exact map_congr_left fun l hl => by
      simp [measures, inUsage_of_mem_errOfHour (mem_filter.mp hl).1]

end

theorem requestCount_add (a b : Measures × Hist) :
    (a + b).1.requestCount = a.1.requestCount + b.1.requestCount := rfl

/-- Rows that stand for one request each are counted by the total of their key. -/
theorem requestCount_total {rows : List CubeRow} (k : StatKey)
    (hone : ∀ r ∈ rows, r.2.1.requestCount = 1) :
    (total rows k).1.requestCount = (rows.filter fun r => r.1 = k).length := by
  induction rows with
  | nil => rfl
  | cons r rows ih =>
    have hsum : total (r :: rows) k = (if r.1 = k then r.2 else 0) + total rows k := by
      by_cases hk : r.1 = k <;> simp [total, hk]
    rw [hsum, requestCount_add, ih fun r' hr' => hone r' (mem_cons_of_mem _ hr')]
    by_cases hk : r.1 = k
    · rw [if_pos hk, hone r mem_cons_self, filter_cons_of_pos (by simpa using hk), length_cons]
      omega
    · rw [if_neg hk, filter_cons_of_neg (by simpa using hk)]
      exact zero_add _

/-- An hour that holds the groups of all its rows is exact if and only if no abort of it is in
`err_logs` alone. -/
theorem Holds.hourExact_iff {h : Int}
    (hs : Holds h s.usageStats s.entityStats (usageOfHour logs h) (errOfHour logs h)) :
    HourExact logs h s ↔ orphansOfHour logs h = [] := by
  constructor
  · rintro ⟨hcube, -⟩
    by_contra horphan
    obtain ⟨l, hl⟩ := exists_mem_of_ne_nil _ horphan
    -- the bucket of the orphan lacks a request
    have hperm : ((logsOfHour logs h).map fun l => (statKey l, measures l, hist l)).Perm _ :=
      cubeOfHour_perm
    have hkey : statKey l ∈ ((logsOfHour logs h).map fun l =>
        (statKey l, measures l, hist l)).map Prod.fst := by
      rw [(hperm.map _).mem_iff, map_append, mem_append]
      exact .inr (mem_map.mpr ⟨_, mem_map_of_mem hl, rfl⟩)
    have htotal := (groups_group _).total_eq hcube.symm hs.cube hkey
    rw [total_perm hperm, total_append] at htotal
    have hcount := congrArg (fun m : Measures × Hist => m.1.requestCount) htotal
    simp only [requestCount_add] at hcount
    set orphans : List CubeRow := (orphansOfHour logs h).map fun l => (statKey l, errMeasures l, 0)
    have hlen : (total orphans (statKey l)).1.requestCount = _ :=
      requestCount_total _ (by simp [orphans, errMeasures])
    have hpos : 0 < (orphans.filter fun r => r.1 = statKey l).length :=
      length_pos_of_mem (mem_filter.mpr ⟨mem_map_of_mem hl, by simp⟩)
    omega
  · intro horphan
    have hcube : ((logsOfHour logs h).map fun l => (statKey l, measures l, hist l)).Perm _ :=
      cubeOfHour_perm
    rw [horphan, map_nil, append_nil] at hcube
    exact ⟨(hs.cube.congr_perm hcube.symm).perm (groups_group _),
      (hs.entities.congr_perm (entitiesOfHour_perm horphan).symm).perm (groups_group _)⟩

/-- The worker starts with any statistics and any watermark, or none. -/
def startTables (usageStats : List CubeRow) (entityStats : List EntityRow)
    (watermark : Option Int) : Tables :=
  { usageStats, entityStats, watermark, origin := watermark }

/-- After any cycles of any instances, however they end, an hour before the watermark and not before
the hour of the first one is exact if and only if no abort of it is in `err_logs` alone. -/
theorem hours_exact_iff {lag : Int} (H : LogHistory lag) (usageStats : List CubeRow)
    (entityStats : List EntityRow) (watermark : Option Int) (cycles : List Cycle) :
    ∀ s ∈ Run.states (Tables.runOnce lag H.logs) (startTables usageStats entityStats watermark)
      cycles, ∀ o w h : Int, s.origin = some o → s.watermark = some w → h % hour = 0 →
        truncHour o ≤ h → h + hour ≤ w →
          (HourExact H.logs h s ↔ ∀ l ∈ H.logs, truncHour l.createdAt = h → l.orphan = false) := by
  intro s hs o w h ho hw hh hge hle
  have hinv := Run.states_inv (UpToWatermark H) (fun _ c hs => hs.runOnce c)
    (upToWatermark_of_origin rfl) s hs
  rw [(hinv o w h ho hw hh hge hle).hourExact_iff, orphansOfHour, filter_eq_nil_iff]
  refine forall_congr' fun l => imp_congr_right fun _ => ?_
  cases l.orphan <;> simp

/-- A cycle an hour and a half after the epoch, whose queries run at once. -/
def lateCycle : Cycle where
  start := 5400000000000
  time := fun _ => 5400000000000
  after_start := fun _ => le_rfl

/-- A request and an aborted one in the first hour; the aborted one has a row in both tables. -/
def twoLogs : List RequestLog := [
  { createdAt := 900000000000, groupID := some 3, model := "m", errorType := .none, cost := 7,
    usageAt := some 901000000000 },
  { createdAt := 960000000000, groupID := some 3, model := "m", errorType := .abort,
    usageAt := some 961000000000, errAt := some 962000000000 }]

def twoLogsHistory : LogHistory 5000000000 where
  logs := twoLogs
  usage_visible := by decide
  err_visible := by decide

theorem hours_exact_first :
    let s := Tables.runOnce 5000000000 twoLogs (startTables [] [] (some 1200000000000)) lateCycle
    s.origin = some 1200000000000 ∧ s.watermark = some 4800000000000 ∧ HourExact twoLogs 0 s := by
  intro s
  have ho : s.origin = some 1200000000000 := by decide +kernel
  have hw : s.watermark = some 4800000000000 := by decide +kernel
  refine ⟨ho, hw, ?_⟩
  exact (hours_exact_iff twoLogsHistory [] [] (some 1200000000000) [lateCycle] s
    (mem_cons_of_mem _ mem_cons_self) 1200000000000 4800000000000 0 ho hw (by decide)
    (by decide) (by decide)).mpr (by decide)

/-- An aborted request whose row in `usage_logs` was lost with the process that held it. -/
def lostAbort : List RequestLog := [
  { createdAt := 900000000000, groupID := some 3, model := "m", errorType := .abort,
    errAt := some 901000000000 }]

/-- The watermark passes the hour, and the request is in no bucket. -/
theorem abort_not_counted :
    let s := Tables.runOnce 5000000000 lostAbort (startTables [] [] (some 1200000000000)) lateCycle
    s.watermark = some 4800000000000 ∧ s.usageStats = [] ∧ ¬ HourExact lostAbort 0 s := by
  intro s
  have hempty : s.usageStats.length = 0 := by decide +kernel
  refine ⟨by decide +kernel, length_eq_zero_iff.mp hempty, fun hexact => ?_⟩
  have hlen := hexact.1.length_eq
  rw [length_eq_zero_iff.mp hempty] at hlen
  exact absurd hlen (by decide +kernel)

end C4Gateway.StatsAgg
