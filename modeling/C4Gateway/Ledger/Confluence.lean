import C4Gateway.Billing.Cycle
import C4Gateway.Lib.Run

/-! Settlement in windows.  Every window decides anew which grants are live, so the outcome may
depend on how the rows are cut.  It does not when each row that could turn to a scoped grant is
reached by the smallest window, or comes before the user's global grants are spent: the ledger then
already determines where the money goes, and every statement leaves that unchanged. -/

namespace C4Gateway

open List
open TempBalance (amount)

open Sql Draw

def TempBalance.drawn (temps : List TempBalance) (now : Int) (d : Int × Option Int → Int)
    (t : TempBalance) : TempBalance :=
  { t with amount := t.amount - drawOf temps now d t }

open TempBalance (drawn)

variable {temps : List TempBalance} {t : TempBalance}

section
variable {now : Int} {d e : Int × Option Int → Int}

theorem live_of_drawn (h : live now (t.drawn temps now d) = true) :
    live now t = true := by
  have hnonneg : 0 ≤ drawOf temps now d t := drawOf_nonneg t
  simp only [live, Bool.and_eq_true, decide_eq_true_eq] at h ⊢
  obtain ⟨hpos, hexpires⟩ := h
  rw [drawn] at hpos
  exact ⟨by dsimp only at hpos; omega, hexpires⟩

theorem live_drawn (h : live now t = true) :
    live now (t.drawn temps now d) = decide (0 < t.amount - drawOf temps now d t) := by
  simp only [live, Bool.and_eq_true] at h
  simp [live, drawn, h.2]

theorem grants_drawn (p : Int × Option Int) :
    grants (temps.map (drawn temps now d)) now p =
      ((grants temps now p).filter fun s => live now (s.drawn temps now d)).map
        (drawn temps now d) := by
  rw [grants, filter_map, grants, filter_filter]
  congr 1
  refine filter_congr fun s _ => ?_
  by_cases hs : live now (s.drawn temps now d) = true
  · simp only [live_of_drawn hs]
    rfl
  · simp [hs]

theorem sum_live_drawn {rows : List TempBalance} (h : ∀ s ∈ rows, live now s = true) :
    ((rows.filter fun s => live now (s.drawn temps now d)).map fun s =>
      (s.drawn temps now d).amount).sum =
      (rows.map fun s => s.amount - drawOf temps now d s).sum := by
  refine sum_filter_of_zero fun s hs hdead => ?_
  have hle : drawOf temps now d s ≤ s.amount := drawOf_le (h s hs)
  rw [live_drawn (h s hs), decide_eq_false_iff_not] at hdead
  simp only [drawn]
  omega

section
variable (ids : (temps.map TempBalance.id).Nodup)
include ids

theorem sum_grants_drawn (p : Int × Option Int) (hd : 0 ≤ d p) :
    ((grants (temps.map (drawn temps now d)) now p).map amount).sum =
      ((grants temps now p).map amount).sum -
        min (d p) ((grants temps now p).map amount).sum := by
  have distinct : ((grants temps now p).map fefoKey).Nodup :=
    (fefoKey_nodup ids).sublist (filter_sublist.map _)
  rw [grants_drawn, map_map, ← sum_takeAt distinct grants_nonneg hd, eq_sub_iff_add_eq]
  refine (congrArg (· + _) (sum_live_drawn fun s hs => (mem_grants.mp hs).2.1)).trans ?_
  rw [← sum_map_add]
  congr 1
  refine map_congr_left fun s hs => ?_
  obtain ⟨-, hlive, hpool⟩ := mem_grants.mp hs
  rw [drawOf, if_pos hlive, hpool, sub_add_cancel]

theorem before_grants_drawn (hd : ∀ p, 0 ≤ d p) (t : TempBalance) (p : Int × Option Int) :
    before fefoKey amount (grants (temps.map (drawn temps now d)) now p)
      (t.drawn temps now d) =
      before fefoKey amount (grants temps now p) t -
        min (d p) (before fefoKey amount (grants temps now p) t) := by
  have distinct : ((grants temps now p).map fefoKey).Nodup :=
    (fefoKey_nodup ids).sublist (filter_sublist.map _)
  rw [← before_drawn distinct grants_nonneg (hd p), grants_drawn, before_map, before, filter_comm]
  refine (sum_live_drawn fun s hs => (mem_grants.mp (mem_of_mem_filter hs)).2.1).trans ?_
  congr 1
  refine map_congr_left fun s hs => ?_
  obtain ⟨-, hlive, hpool⟩ := mem_grants.mp (mem_of_mem_filter hs)
  rw [drawOf, if_pos hlive, hpool]

/-- Two draws in turn take what one draw of their sum takes. -/
theorem drawOf_add (hd : ∀ p, 0 ≤ d p) (he : ∀ p, 0 ≤ e p) (t : TempBalance) :
    drawOf temps now d t +
      drawOf (temps.map (drawn temps now d)) now e (t.drawn temps now d) =
      drawOf temps now (fun p => d p + e p) t := by
  by_cases hlive : live now t = true
  · have hadd := takeAt_add (d := d t.pool)
      (c := before fefoKey amount (grants temps now t.pool) t) (he t.pool)
      (live_pos hlive).le
    have hsecond : drawOf (temps.map (drawn temps now d)) now e (t.drawn temps now d) =
        takeAt (e t.pool)
          (before fefoKey amount (grants temps now t.pool) t - min (d t.pool)
            (before fefoKey amount (grants temps now t.pool) t))
          (t.amount - drawOf temps now d t) := by
      rw [← before_grants_drawn ids hd, drawOf]
      split
      · rfl
      next hdead =>
        have hle : drawOf temps now d t ≤ t.amount := drawOf_le hlive
        rw [live_drawn hlive, decide_eq_true_eq] at hdead
        have : t.amount - drawOf temps now d t = 0 := by omega
        rw [this, takeAt]
        omega
    rw [hsecond, drawOf, drawOf, if_pos hlive, if_pos hlive, hadd]
  · have hdead : live now (t.drawn temps now d) ≠ true := fun h => hlive (live_of_drawn h)
    rw [drawOf, drawOf, drawOf, if_neg hlive, if_neg hdead, if_neg hlive, add_zero]

end
end

def pending (db : Ledger) : List UsageLog := db.logs.filter chargeable

/-- The pool that would pay for a row. -/
def poolOf (temps : List TempBalance) (now : Int) (l : UsageLog) : Option (Int × Option Int) :=
  l.userId.map fun u => (u, chargeGid temps now l)

/-- What the pending rows ask of a pool together. -/
def asked (db : Ledger) (now : Int) (p : Int × Option Int) : Int :=
  (((pending db).filter fun l => poolOf db.temps now l = some p).map UsageLog.cost).sum

/-- What one statement of the lane asks of a pool. -/
def windowDemand (lane : Lane) (db : Ledger) (now : Int) (limit : Nat) (k bucket : Int)
    (p : Int × Option Int) : Int :=
  match lane with
  | .balance => 0
  | .fefo => demand (fefoTotals (fefoBatch db now limit k bucket)) p

variable {u now : Int} {l : UsageLog} (db : Ledger)

theorem mem_pending {db : Ledger} : l ∈ pending db ↔ l ∈ db.logs ∧ chargeable l = true := by
  simp [pending]

theorem pending_nodup : (pending db).Nodup := db.logIds.of_map.filter _

theorem cost_nonneg {rows : List UsageLog} (h : ∀ l ∈ rows, chargeable l = true) :
    0 ≤ (rows.map UsageLog.cost).sum := by
  refine sum_nonneg fun c hc => ?_
  obtain ⟨l, hl, rfl⟩ := mem_map.mp hc
  exact (chargeable_iff.mp (h l hl)).2.2.le

theorem asked_nonneg (now : Int) (p : Int × Option Int) : 0 ≤ asked db now p :=
  cost_nonneg fun _ hl => (mem_pending.mp (mem_of_mem_filter hl)).2

theorem isGlobal_iff : isGlobal temps now u = true ↔ ∃ t, t ∈ grants temps now (u, none) := by
  simp only [isGlobal, any_eq_true, Bool.and_eq_true, beq_iff_eq, Option.isNone_iff_eq_none,
    mem_grants, TempBalance.pool, Prod.mk.injEq]
  exact exists_congr fun t => by tauto

theorem grants_of_spent (h : isGlobal temps now u = false) : grants temps now (u, none) = [] :=
  eq_nil_iff_forall_not_mem.mpr fun t ht => by simp [isGlobal_iff.mpr ⟨t, ht⟩] at h

theorem isScoped_iff {g : Int} :
    isScoped temps now u g = true ↔ ∃ t, t ∈ grants temps now (u, some g) := by
  simp only [isScoped, any_eq_true, Bool.and_eq_true, beq_iff_eq, mem_grants, TempBalance.pool,
    Prod.mk.injEq]
  exact exists_congr fun t => by tauto

theorem poolOf_eq {g : Option Int} :
    poolOf temps now l = some (u, g) ↔
      l.userId = some u ∧ (if isGlobal temps now u then none else l.groupId) = g := by
  cases h : l.userId with
  | none => simp [poolOf, h]
  | some v =>
    simp only [poolOf, h, Option.map_some, Option.some.injEq, Prod.mk.injEq, chargeGid,
      Option.any_some]
    exact and_congr_right fun hv => by rw [hv]

theorem tempActive_of_grant {p : Int × Option Int}
    (hp : poolOf temps now l = some p) (ht : t ∈ grants temps now p) :
    tempActive temps now l = true := by
  obtain ⟨u, g⟩ := p
  obtain ⟨hu, hg⟩ := poolOf_eq.mp hp
  simp only [tempActive, hu, Option.any_some, Bool.or_eq_true]
  by_cases hglobal : isGlobal temps now u = true
  · exact .inl hglobal
  · rw [if_neg hglobal] at hg
    cases g with
    | none => exact absurd (isGlobal_iff.mpr ⟨t, ht⟩) hglobal
    | some g => exact .inr (by simpa [hg] using isScoped_iff.mpr ⟨t, ht⟩)

/-- The pending rows before `l` that some grant covers: only these can keep `l` out of a window. -/
def ahead (db : Ledger) (now : Int) (l : UsageLog) : List UsageLog :=
  (pending db).filter fun r => tempActive db.temps now r ∧ r.id < l.id

/-- A pending row that a scoped grant covers besides a global one is within the smallest window that
a controller chooses, or comes to be charged while the global grants still hold something: the
user's rows before it cost less than those grants hold. -/
def PoolsFixed (db : Ledger) (now : Int) : Prop :=
  ∀ l ∈ pending db, ∀ u g, l.userId = some u → l.groupId = some g →
    isGlobal db.temps now u = true → isScoped db.temps now u g = true →
    (ahead db now l).length < minBatchLimit ∨
    (((pending db).filter fun r => r.userId = some u ∧ r.id < l.id).map UsageLog.cost).sum <
      ((grants db.temps now (u, none)).map amount).sum

variable {lane : Lane} {db after : Ledger}

section
variable {now : Int} {limit : Nat} {k bucket : Int}

theorem windowDemand_nonneg (p : Int × Option Int) :
    0 ≤ windowDemand lane db now limit k bucket p := by
  cases lane with
  | balance => exact le_rfl
  | fefo => exact demand_nonneg p

variable {g : Int} {other : Ledger} {p : Int × Option Int} {t : TempBalance}

theorem laneWindow_congr (hp : pending db = pending other) (ht : db.temps = other.temps) :
    laneWindow lane db now limit k bucket = laneWindow lane other now limit k bucket := by
  have hrows : ∀ d : Ledger, laneRows lane d now k bucket =
      (pending d).filter (inLane lane d.temps now k bucket) := fun d => by
    rw [pending, filter_filter]
    refine filter_congr fun l _ => ?_
    cases h : inLane lane d.temps now k bucket l with
    | true => simp [inLane_chargeable h]
    | false => rfl
  rw [laneWindow, laneWindow, hrows, hrows, hp, ht]

theorem windowDemand_congr (hp : pending db = pending other) (ht : db.temps = other.temps) :
    windowDemand lane db now limit k bucket = windowDemand lane other now limit k bucket := by
  funext p
  cases lane with
  | balance => rfl
  | fefo =>
    rw [windowDemand, windowDemand, demand_window, demand_window, laneWindow_congr hp ht, ht]

theorem laneWindow_subset : ∀ l ∈ laneWindow lane db now limit k bucket, l ∈ pending db :=
  fun _ hl => mem_pending.mpr ⟨(mem_laneWindow hl).1, inLane_chargeable (mem_laneWindow hl).2⟩

theorem sum_pending_split (q : UsageLog → Bool) :
    (((pending db).filter q).map UsageLog.cost).sum =
      (((laneWindow lane db now limit k bucket).filter q).map UsageLog.cost).sum +
        ((((pending db).filter fun l => l ∉ laneWindow lane db now limit k bucket).filter q).map
          UsageLog.cost).sum := by
  have hperm : ((pending db).filter fun l => l ∈ laneWindow lane db now limit k bucket).Perm
      (laneWindow lane db now limit k bucket) := by
    apply (perm_ext_iff_of_nodup ((pending_nodup db).filter _) laneWindow_nodup).mpr
    intro l
    simpa using laneWindow_subset l
  rw [filter_comm, ← ((hperm.filter q).map _).sum_eq, filter_comm,
    ← sum_filter_add_sum_filter_not UsageLog.cost
      (fun l => decide (l ∈ laneWindow lane db now limit k bucket))]
  simp

theorem inLane_tempActive (h : inLane lane temps now k bucket l = true) :
    tempActive temps now l = true ↔ lane = .fefo := by
  cases lane <;> simp_all [inLane]

theorem window_asked (ht : t ∈ grants db.temps now p) :
    (((laneWindow lane db now limit k bucket).filter fun l =>
      poolOf db.temps now l = some p).map UsageLog.cost).sum =
      windowDemand lane db now limit k bucket p := by
  cases lane with
  | balance =>
    have hnone : (laneWindow .balance db now limit k bucket).filter (fun l =>
        poolOf db.temps now l = some p) = [] := by
      refine filter_eq_nil_iff.mpr fun l hl hp => ?_
      have hactive := tempActive_of_grant (of_decide_eq_true hp) ht
      exact absurd ((inLane_tempActive (mem_laneWindow hl).2).mp hactive) (by decide)
    rw [hnone]
    rfl
  | fefo =>
    rw [windowDemand, demand_window]
    congr 2
    refine filter_congr fun l hl => ?_
    have hactive := (inLane_tempActive (mem_laneWindow hl).2).mpr rfl
    cases hu : l.userId with
    | none => simp [tempActive, hu] at hactive
    | some u => simp [poolOf, hu, UsageLog.uid]

section
variable {w : UsageLog} (hu : isGlobal db.temps now u = true)
  (hw : w ∈ laneWindow lane db now limit k bucket) (hl : l ∈ pending db)
  (hwu : w.userId = some u) (hlu : l.userId = some u)
include hu hw hl hwu hlu

/-- A user with a global grant has all rows in one lane. -/
theorem mem_laneRows_of_global : lane = .fefo ∧ l ∈ laneRows lane db now k bucket := by
  obtain ⟨-, hwlane⟩ := mem_laneWindow hw
  obtain ⟨hllog, hlcharge⟩ := mem_pending.mp hl
  have hlane : lane = .fefo := (inLane_tempActive hwlane).mp (by simp [tempActive, hwu, hu])
  subst hlane
  have huid : l.uid = w.uid := by simp [UsageLog.uid, hwu, hlu]
  refine ⟨rfl, mem_laneRows.mpr ⟨hllog, ?_⟩⟩
  simp only [inLane, Bool.and_eq_true] at hwlane ⊢
  exact ⟨⟨hlcharge, huid ▸ hwlane.1.2⟩, by simp [tempActive, hlu, hu]⟩

variable (hout : l ∉ laneWindow lane db now limit k bucket)
include hout

/-- Of a user with a global grant, the window takes the rows in the order of their ids. -/
theorem window_before : w.id < l.id := by
  have hrow := (mem_laneRows_of_global hu hw hl hwu hlu).2
  refine lt_of_le_of_ne (orderLimit_le hw hrow hout) fun hid => hout ?_
  rwa [← inj_on_of_nodup_map db.logIds (mem_laneWindow hw).1 (mem_pending.mp hl).1 hid]

/-- A window that reaches the user and leaves `l` is full of rows before `l`. -/
theorem limit_le_ahead : limit ≤ (ahead db now l).length := by
  obtain ⟨rfl, hrow⟩ := mem_laneRows_of_global hu hw hl hwu hlu
  have hids : ((laneRows .fefo db now k bucket).map UsageLog.id).Nodup :=
    db.logIds.sublist (filter_sublist.map _)
  have hfull := hout
  rw [laneWindow, mem_orderLimit_iff hids, not_and, not_lt] at hfull
  refine (hfull hrow).trans ?_
  rw [laneRows, ahead, pending, filter_filter, filter_filter, ← countP_eq_length_filter,
    ← countP_eq_length_filter]
  refine countP_mono_left fun r _ hr => ?_
  simp only [inLane, Bool.and_eq_true, decide_eq_true_eq] at hr ⊢
  exact ⟨⟨hr.2.2, hr.1⟩, hr.2.1.1⟩

end

theorem window_prior (hu : isGlobal db.temps now u = true) (hl : l ∈ pending db)
    (hout : l ∉ laneWindow lane db now limit k bucket) (hlu : l.userId = some u) :
    (((laneWindow lane db now limit k bucket).filter fun r =>
      r.userId = some u ∧ r.id < l.id).map UsageLog.cost).sum =
      windowDemand lane db now limit k bucket (u, none) := by
  obtain ⟨t, ht⟩ := isGlobal_iff.mp hu
  rw [← window_asked ht]
  congr 2
  refine filter_congr fun w hw => ?_
  rw [decide_eq_decide, poolOf_eq, if_pos hu]
  exact ⟨fun h => ⟨h.1, rfl⟩, fun h => ⟨h.1, window_before hu hw hl h.1 hlu hout⟩⟩

theorem sum_grants_pos (ht : t ∈ grants temps now p) :
    0 < ((grants temps now p).map amount).sum := by
  have hle := single_le_sum (fun v hv => by
    obtain ⟨s, hs, rfl⟩ := mem_map.mp hv
    exact grants_nonneg s hs) _ (mem_map_of_mem ht)
  exact lt_of_lt_of_le (live_pos (mem_grants.mp ht).2.1) hle

theorem drawOf_congr {d e : Int × Option Int → Int} (h : d t.pool = e t.pool) :
    drawOf temps now d t = drawOf temps now e t := by
  rw [drawOf, drawOf, h]

theorem drawOf_full {d e : Int × Option Int → Int} (hlive : live now t = true)
    (hdead : live now (t.drawn temps now d) = false) (hde : d t.pool ≤ e t.pool) :
    drawOf temps now e t = t.amount := by
  have hle : drawOf temps now d t ≤ t.amount := drawOf_le hlive
  rw [live_drawn hlive, decide_eq_false_iff_not] at hdead
  rw [drawOf, if_pos hlive] at hle hdead ⊢
  exact takeAt_full (by omega) hde

theorem pending_scoped_of_global (hu : isGlobal db.temps now u = true) :
    (pending db).filter (fun l => poolOf db.temps now l = some (u, some g)) = [] := by
  refine filter_eq_nil_iff.mpr fun l _ hp => ?_
  have hpool := (poolOf_eq.mp (of_decide_eq_true hp)).2
  rw [if_pos hu] at hpool
  cases hpool

section
variable (h : Settled lane db now limit k bucket after)
include h

theorem Settled.temps_drawn : after.temps =
    db.temps.map (drawn db.temps now (windowDemand lane db now limit k bucket)) := by
  rw [h.temps]
  refine map_congr_left fun t _ => ?_
  cases lane with
  | balance => rw [drawn, drawOf_eq_zero rfl]; rfl
  | fefo => rfl

theorem Settled.pending_eq :
    pending after = (pending db).filter fun l => l ∉ laneWindow lane db now limit k bucket := by
  obtain ⟨flag, hlogs⟩ := h.logs
  rw [pending, hlogs, filter_map, pending, filter_filter]
  have hkeep : ∀ l ∈ db.logs,
      (chargeable ∘ fun l => if l ∈ laneWindow lane db now limit k bucket then
        { l with billed := true, overdraft := flag l } else l) l =
        (decide (l ∉ laneWindow lane db now limit k bucket) && chargeable l) := by
    intro l _
    by_cases hin : l ∈ laneWindow lane db now limit k bucket <;> simp [hin, chargeable]
  rw [filter_congr hkeep]
  refine (map_congr_left fun l hl => ?_).trans (map_id _)
  simp only [mem_filter, Bool.and_eq_true, decide_eq_true_eq] at hl
  rw [if_neg hl.2.1, id]

theorem Settled.sum_pending (q : UsageLog → Bool) :
    (((pending db).filter q).map UsageLog.cost).sum =
      (((laneWindow lane db now limit k bucket).filter q).map UsageLog.cost).sum +
        (((pending after).filter q).map UsageLog.cost).sum := by
  rw [h.pending_eq]
  exact sum_pending_split q

theorem Settled.asked_eq (ht : t ∈ grants db.temps now p) :
    asked db now p = windowDemand lane db now limit k bucket p +
      (((pending after).filter fun l => poolOf db.temps now l = some p).map UsageLog.cost).sum := by
  rw [asked, h.sum_pending, window_asked ht]

theorem Settled.mem_grants_after (ht : t ∈ grants after.temps now p) :
    ∃ s, s ∈ grants db.temps now p := by
  rw [h.temps_drawn, grants_drawn] at ht
  obtain ⟨s, hs, -⟩ := mem_map.mp ht
  exact ⟨s, mem_of_mem_filter hs⟩

theorem Settled.isGlobal_of_after (hu : isGlobal after.temps now u = true) :
    isGlobal db.temps now u = true := by
  obtain ⟨t, ht⟩ := isGlobal_iff.mp hu
  exact isGlobal_iff.mpr (h.mem_grants_after ht)

theorem Settled.isScoped_of_after (hu : isScoped after.temps now u g = true) :
    isScoped db.temps now u g = true := by
  obtain ⟨t, ht⟩ := isScoped_iff.mp hu
  exact isScoped_iff.mpr (h.mem_grants_after ht)

theorem Settled.tempActive_of_after (hl : tempActive after.temps now l = true) :
    tempActive db.temps now l = true := by
  simp only [tempActive, Option.any_eq_true, Bool.or_eq_true] at hl ⊢
  obtain ⟨u, hu, hl⟩ := hl
  refine ⟨u, hu, hl.imp h.isGlobal_of_after ?_⟩
  rintro ⟨g, hg, hscoped⟩
  exact ⟨g, hg, h.isScoped_of_after hscoped⟩

theorem Settled.ahead_le (l : UsageLog) : (ahead after now l).length ≤ (ahead db now l).length := by
  rw [ahead, ahead, h.pending_eq, filter_filter, ← countP_eq_length_filter,
    ← countP_eq_length_filter]
  refine countP_mono_left fun r _ hr => ?_
  simp only [Bool.and_eq_true, decide_eq_true_eq] at hr ⊢
  exact ⟨h.tempActive_of_after hr.1.1, hr.1.2⟩

theorem Settled.mem_pending_after (hl : l ∈ pending after) :
    l ∈ pending db ∧ l ∉ laneWindow lane db now limit k bucket := by
  rw [h.pending_eq] at hl
  simpa using hl

theorem Settled.sum_globals (p : Int × Option Int) :
    ((grants after.temps now p).map amount).sum =
      ((grants db.temps now p).map amount).sum -
        min (windowDemand lane db now limit k bucket p)
          ((grants db.temps now p).map amount).sum := by
  rw [h.temps_drawn, sum_grants_drawn db.tempIds p (windowDemand_nonneg p)]

/-- A statement that spends the user's global grants has charged a row of the user. -/
theorem Settled.window_reaches (hu : isGlobal db.temps now u = true)
    (hspent : isGlobal after.temps now u = false) :
    ∃ w ∈ laneWindow lane db now limit k bucket, w.userId = some u := by
  obtain ⟨t, ht⟩ := isGlobal_iff.mp hu
  have hleft := h.sum_globals (u, none)
  have hpos := sum_grants_pos ht
  by_contra hnone
  have hzero : windowDemand lane db now limit k bucket (u, none) = 0 := by
    rw [← window_asked ht, filter_eq_nil_iff.mpr fun w hw hp => hnone
      ⟨w, hw, (poolOf_eq.mp (of_decide_eq_true hp)).1⟩]
    rfl
  rw [grants_of_spent hspent, hzero] at hleft
  simp only [map_nil, sum_nil] at hleft
  omega

/-- A statement keeps the scoped rows within the smallest window, or before the end of the global
grants. -/
theorem Settled.poolsFixed (hfixed : PoolsFixed db now) : PoolsFixed after now := by
  intro l hl u g hlu hlg hglobal hscoped
  obtain ⟨hldb, hlout⟩ := h.mem_pending_after hl
  obtain ⟨t, ht⟩ := isGlobal_iff.mp hglobal
  have hu := h.isGlobal_of_after hglobal
  rcases hfixed l hldb u g hlu hlg hu (h.isScoped_of_after hscoped) with hfew | hbefore
  · have hle := h.ahead_le l
    exact .inl (by omega)
  · refine .inr ?_
    rw [h.sum_pending, window_prior hu hldb hlout hlu] at hbefore
    have hpos := sum_grants_pos ht
    rw [h.sum_globals] at hpos ⊢
    omega

theorem Settled.no_scoped_left (hfixed : PoolsFixed db now) (hmin : minBatchLimit ≤ limit)
    (hu : isGlobal db.temps now u = true) (hspent : isGlobal after.temps now u = false)
    (ht : t ∈ grants db.temps now (u, some g)) :
    (pending after).filter (fun l => poolOf after.temps now l = some (u, some g)) = [] := by
  refine filter_eq_nil_iff.mpr fun l hl hp => ?_
  obtain ⟨hlu, hlg⟩ := poolOf_eq.mp (of_decide_eq_true hp)
  obtain ⟨hldb, hlout⟩ := h.mem_pending_after hl
  simp only [hspent] at hlg
  rcases hfixed l hldb u g hlu hlg hu (isScoped_iff.mpr ⟨t, ht⟩) with hfew | hbefore
  · -- the window that spent the grants would have taken `l` as well
    obtain ⟨w, hw, hwu⟩ := h.window_reaches hu hspent
    have hfull := limit_le_ahead hu hw hldb hwu hlu hlout
    omega
  · rw [h.sum_pending, window_prior hu hldb hlout hlu] at hbefore
    have hleft := h.sum_globals (u, none)
    have hnonneg := cost_nonneg fun r hr => (mem_pending.mp (mem_of_mem_filter
      (hr : r ∈ (pending after).filter fun r => r.userId = some u ∧ r.id < l.id))).2
    rw [grants_of_spent hspent] at hleft
    simp only [map_nil, sum_nil] at hleft
    omega

theorem Settled.isGlobal_spent (hne : isGlobal after.temps now u ≠ isGlobal db.temps now u) :
    isGlobal db.temps now u = true ∧ isGlobal after.temps now u = false := by
  have hmono := h.isGlobal_of_after (u := u)
  grind

theorem Settled.dead_of_spent (hspent : isGlobal after.temps now u = false) (ht : t ∈ db.temps)
    (hp : t.pool = (u, none)) :
    live now (t.drawn db.temps now (windowDemand lane db now limit k bucket)) = false := by
  rw [h.temps_drawn] at hspent
  refine Bool.eq_false_iff.mpr fun hlive => ?_
  have hmem := mem_grants.mpr ⟨mem_map_of_mem ht, hlive, hp⟩
  rw [grants_of_spent hspent] at hmem
  exact not_mem_nil hmem

/-- What a statement draws and what the rows it leaves still ask is what was asked before. -/
theorem Settled.drawOf_asked (hfixed : PoolsFixed db now) (hmin : minBatchLimit ≤ limit)
    (ht : t ∈ db.temps) :
    drawOf db.temps now (windowDemand lane db now limit k bucket) t +
      drawOf after.temps now (asked after now)
        (t.drawn db.temps now (windowDemand lane db now limit k bucket)) =
      drawOf db.temps now (asked db now) t := by
  rw [h.temps_drawn, drawOf_add db.tempIds windowDemand_nonneg (asked_nonneg after now)]
  by_cases hlive : live now t = true
  swap
  · simp [drawOf, if_neg hlive]
  obtain ⟨u, g, hp⟩ : ∃ u g, t.pool = (u, g) := ⟨_, _, rfl⟩
  have htg : t ∈ grants db.temps now (u, g) := mem_grants.mpr ⟨ht, hlive, hp⟩
  have hasked := h.asked_eq htg
  have hrest : 0 ≤ (((pending after).filter fun l =>
      poolOf db.temps now l = some (u, g)).map UsageLog.cost).sum :=
    cost_nonneg fun l hl => (mem_pending.mp (mem_of_mem_filter hl)).2
  by_cases hsame : isGlobal after.temps now u = isGlobal db.temps now u
  · -- the rows that are left ask the pools they asked before
    refine drawOf_congr ?_
    rw [hp, hasked, asked]
    simp [poolOf_eq, hsame]
  · obtain ⟨hu, hspent⟩ := h.isGlobal_spent hsame
    cases g with
    | none =>
      -- the global grants of the user are used up either way
      have hdead := h.dead_of_spent hspent ht hp
      have hmore := asked_nonneg after now (u, none)
      rw [drawOf_full hlive hdead (by rw [hp]; omega),
        drawOf_full hlive hdead (by rw [hp]; omega)]
    | some g =>
      -- nothing asks a scoped pool before, and by `hfixed` nothing does after
      have hnone := pending_scoped_of_global hu (g := g)
      have hzero : asked after now (u, some g) = 0 := by
        rw [asked, h.no_scoped_left hfixed hmin hu hspent htg]
        rfl
      refine drawOf_congr ?_
      rw [hp, hzero, asked, hnone]
      rw [asked, hnone] at hasked
      have hd : 0 ≤ windowDemand lane db now limit k bucket (u, some g) := windowDemand_nonneg _
      simp only [map_nil, sum_nil] at hasked ⊢
      omega

end

/-- The statement fits: no balance can fall out of `bigint`, however its rows are cut. -/
def BalancesFit (db : Ledger) : Prop :=
  ∀ u ∈ db.users, minInt64 ≤ u.balance - costOf (pending db) u.id

theorem charge_nonneg (u : Int) : 0 ≤ charge lane db now limit k bucket u := by
  cases lane with
  | balance =>
    rw [← owed_balance, owed, balanceTotals, groupSum_lookup, balanceBatch_eq, filter_map, map_map]
    exact cost_nonneg fun l hl =>
      (mem_pending.mp (laneWindow_subset l (mem_of_mem_filter hl))).2
  | fefo =>
    rw [← owed_fefo, owed, userSpill, groupSum_lookup]
    refine sum_nonneg fun v hv => ?_
    obtain ⟨x, hx, rfl⟩ := mem_map.mp hv
    exact (of_decide_eq_true (mem_filter.mp (mem_of_mem_filter hx)).2).le

theorem draw_nonneg (t : TempBalance) : 0 ≤ draw lane db now limit k bucket t := by
  cases lane with
  | balance => exact le_rfl
  | fefo => exact drawOf_nonneg t

theorem charge_le (u : Int) :
    charge lane db now limit k bucket u ≤ costOf (laneWindow lane db now limit k bucket) u := by
  have : 0 ≤ ((db.temps.filter fun t => t.userId = u).map (draw lane db now limit k bucket)).sum :=
    sum_nonneg fun v hv => by
      obtain ⟨t, _, rfl⟩ := mem_map.mp hv
      exact draw_nonneg t
  rw [charge]
  omega

theorem costOf_window_le (u : Int) :
    costOf (laneWindow lane db now limit k bucket) u ≤ costOf (pending db) u := by
  rw [costOf, costOf, sum_pending_split]
  refine le_add_of_nonneg_right (cost_nonneg fun l hl => ?_)
  exact (mem_pending.mp (mem_of_mem_filter (mem_of_mem_filter hl))).2

variable (lane now limit k bucket) in
theorem settleStmt_of_fit (hfit : BalancesFit db) :
    ∃ out, settleStmt lane db now limit k bucket = .ok out := by
  cases hstmt : settleStmt lane db now limit k bucket with
  | ok out => exact ⟨out, rfl⟩
  | error e =>
    obtain ⟨-, u, hu, hbad⟩ := settleStmt_error.mp hstmt
    have hlow := hfit u hu
    have hhigh := (db.balances u hu).2
    have hnonneg : 0 ≤ charge lane db now limit k bucket u.id := charge_nonneg u.id
    have hle : charge lane db now limit k bucket u.id ≤ _ := charge_le u.id
    have hwindow : costOf (laneWindow lane db now limit k bucket) u.id ≤ _ := costOf_window_le u.id
    exact absurd ⟨by omega, by omega⟩ hbad

theorem Settled.costOf_pending (h : Settled lane db now limit k bucket after) (u : Int) :
    costOf (pending db) u =
      costOf (laneWindow lane db now limit k bucket) u + costOf (pending after) u :=
  h.sum_pending _

theorem Settled.balancesFit (h : Settled lane db now limit k bucket after)
    (hfit : BalancesFit db) : BalancesFit after := by
  intro u' hu'
  rw [h.users] at hu'
  obtain ⟨u, hu, rfl⟩ := mem_map.mp hu'
  have hlow := hfit u hu
  have hcost := h.costOf_pending u.id
  have hle : charge lane db now limit k bucket u.id ≤ _ := charge_le u.id
  dsimp only
  omega

end

/-- The grants when no row is left to settle. -/
def finalTemps (db : Ledger) (now : Int) : List TempBalance :=
  db.temps.map (drawn db.temps now (asked db now))

/-- The balances when no row is left: what was there, less the costs that grants did not pay. -/
def finalUsers (db : Ledger) (now : Int) : List User :=
  db.users.map fun u =>
    { u with balance := db.fundsOf u.id - costOf (pending db) u.id -
      (((finalTemps db now).filter fun t => t.userId = u.id).map amount).sum }

section
variable {now : Int} {limit : Nat} {k bucket : Int}

theorem Settled.finalTemps_eq (h : Settled lane db now limit k bucket after)
    (hfixed : PoolsFixed db now) (hmin : minBatchLimit ≤ limit) :
    finalTemps after now = finalTemps db now := by
  rw [finalTemps, h.temps_drawn, map_map]
  refine map_congr_left fun t ht => ?_
  have hsum := h.drawOf_asked hfixed hmin ht
  rw [h.temps_drawn] at hsum
  simp only [Function.comp, drawn, TempBalance.mk.injEq, true_and, and_true] at hsum ⊢
  omega

theorem Settled.finalUsers_eq (h : Settled lane db now limit k bucket after)
    (hfixed : PoolsFixed db now) (hmin : minBatchLimit ≤ limit) :
    finalUsers after now = finalUsers db now := by
  rw [finalUsers, h.finalTemps_eq hfixed hmin]
  conv_lhs => rw [h.users, map_map]
  refine map_congr_left fun u hu => ?_
  have hfunds := h.fundsOf_sub hu
  have hcost := h.costOf_pending u.id
  rw [h.newlyBilledCost_eq] at hfunds
  simp only [Function.comp, User.mk.injEq, true_and]
  omega

theorem final_of_drained (h : pending db = []) :
    finalTemps db now = db.temps ∧ finalUsers db now = db.users := by
  have hasked : asked db now = fun _ => 0 := by
    funext p
    simp [asked, h]
  have htemps : finalTemps db now = db.temps := by
    refine (map_congr_left fun t _ => ?_).trans (map_id _)
    simp [drawn, hasked, drawOf_eq_zero]
  refine ⟨htemps, (map_congr_left fun u hu => ?_).trans (map_id _)⟩
  have hfunds : db.fundsOf u.id = u.balance + db.tempsOf u.id := by
    rw [Ledger.fundsOf, balanceOf_of_mem hu]
  rw [htemps, h, hfunds, Ledger.tempsOf]
  simp [costOf]

end

/-- A settlement of one bucket out of `k` in a lane. -/
structure Call where
  lane : Lane
  limit : Int
  k : Int
  bucket : Int
  kPos : 1 ≤ k
  bucketRange : 0 ≤ bucket ∧ bucket < k

/-- The limit of the call is one that a batch controller can have chosen. -/
def Call.Chosen (c : Call) : Prop := ∃ controller : BatchController, c.limit = controller.cur

/-- One settlement, all of whose attempts see the same tables. -/
def settleCall (now : Int) (db : Ledger) (c : Call) : Ledger :=
  match (settleBatch c.lane c.limit c.k c.bucket (steadyRun db now none)).2 with
  | some commit => commit.after
  | none => db

def settleRun (now : Int) (db : Ledger) (calls : List Call) : Ledger :=
  calls.foldl (settleCall now) db

theorem settleRun_nil (now : Int) (db : Ledger) : settleRun now db [] = db := rfl

theorem settleRun_cons (now : Int) (db : Ledger) (c : Call) (calls : List Call) :
    settleRun now db (c :: calls) = settleRun now (settleCall now db c) calls := rfl

theorem settleCall_of_nonpos {db : Ledger} {c : Call} (hlimit : c.limit ≤ 0) :
    settleCall now db c = db := by
  simp [settleCall, settleBatch, hlimit]

theorem settleCall_settled (now : Int) {db : Ledger} (hfit : BalancesFit db) (c : Call)
    (hlimit : 0 < c.limit) :
    Settled c.lane db now c.limit.toNat c.k c.bucket (settleCall now db c) := by
  obtain ⟨out, hstmt⟩ := settleStmt_of_fit c.lane now c.limit.toNat c.k c.bucket hfit
  obtain ⟨hsettled, hbatch, hmarked⟩ := settleStmt_ok hstmt
  have hone : settleOnce c.lane c.limit.toNat c.k c.bucket
      ((steadyRun db now none).attempts 0) = .ok out := by
    simp only [settleOnce, steadyRun, hstmt]
    rw [if_neg (not_not.mpr (hmarked.trans hbatch.symm))]
  have hcommit : (settleBatch c.lane c.limit c.k c.bucket (steadyRun db now none)).2 =
      some ⟨db, out.ledger⟩ := by
    simp only [settleBatch, if_neg (not_le.mpr hlimit), settleMaxAttempts, settleAttempts, hone]
    rfl
  rw [settleCall, hcommit]
  exact hsettled

theorem settleRun_final {db : Ledger} {calls : List Call} (hchosen : ∀ c ∈ calls, c.Chosen)
    (hfixed : PoolsFixed db now) (hfit : BalancesFit db) :
    finalTemps (settleRun now db calls) now = finalTemps db now ∧
      finalUsers (settleRun now db calls) now = finalUsers db now := by
  induction calls generalizing db with
  | nil => exact ⟨rfl, rfl⟩
  | cons c calls ih =>
    obtain ⟨⟨controller, hlimit⟩, hrest⟩ := forall_mem_cons.mp hchosen
    have hpos := controller.cur_pos
    have hbound := controller.bounds.1
    have h := settleCall_settled now hfit c (by omega)
    have hmin : minBatchLimit ≤ (c.limit.toNat : Int) := by omega
    rw [settleRun_cons, ← h.finalTemps_eq hfixed hmin, ← h.finalUsers_eq hfixed hmin]
    exact ih hrest (h.poolsFixed hfixed) (h.balancesFit hfit)

/-- Two runs that settle every row end with the same balances and the same grants, whatever limits
the controllers chose, and whatever their numbers of buckets and order of calls. -/
theorem settleRun_confluent {db : Ledger} {now : Int} (hfixed : PoolsFixed db now)
    (hfit : BalancesFit db) {r s : List Call} (hchosen : ∀ c ∈ r ++ s, c.Chosen)
    (hr : pending (settleRun now db r) = []) (hs : pending (settleRun now db s) = []) :
    (settleRun now db r).users = (settleRun now db s).users ∧
      (settleRun now db r).temps = (settleRun now db s).temps := by
  obtain ⟨hchosenR, hchosenS⟩ := forall_mem_append.mp hchosen
  obtain ⟨hrt, hru⟩ := settleRun_final hchosenR hfixed hfit
  obtain ⟨hst, hsu⟩ := settleRun_final hchosenS hfixed hfit
  simp only [final_of_drained hr, final_of_drained hs] at hrt hru hst hsu
  exact ⟨hru.trans hsu.symm, hrt.trans hst.symm⟩

def shortQueue : Ledger where
  logs := [{ id := 1, format := .anthropic, userId := some 4, cost := 1 },
    { id := 2, format := .anthropic, userId := some 4, groupId := some 7, cost := 5 }]
  users := [{ id := 4, balance := 0 }]
  temps := [{ id := 1, userId := 4, amount := 1 },
    { id := 2, userId := 4, amount := 5, groupId := some 7 }]
  logIds := by decide
  userIds := by decide
  tempIds := by decide
  balances := by decide

def fefoCall (limit : Int) : Call := ⟨.fefo, limit, 4, 0, by decide, by decide⟩

/-- The global grant is spent by the first row, but every window that a controller chooses holds
both rows. -/
theorem settleRun_confluent_short :
    (settleRun 0 shortQueue [fefoCall 500]).users =
        (settleRun 0 shortQueue [fefoCall 64000]).users ∧
      (settleRun 0 shortQueue [fefoCall 500]).temps =
        (settleRun 0 shortQueue [fefoCall 64000]).temps := by
  have hfit : BalancesFit shortQueue := fun u hu => by
    obtain rfl : u = { id := 4, balance := 0 } := by simpa [shortQueue] using hu
    decide
  refine settleRun_confluent ?_ hfit ?_ (by decide) (by decide)
  · intro l _ u g _ _ _ _
    have hrows : (ahead shortQueue 0 l).length ≤ shortQueue.logs.length :=
      (length_filter_le _ _).trans (length_filter_le _ _)
    exact .inl (lt_of_le_of_lt (Int.ofNat_le.mpr hrows) (by decide))
  · simp only [cons_append, nil_append, forall_mem_cons, not_mem_nil, false_implies, implies_true,
      and_true]
    exact ⟨⟨⟨500, by decide⟩, rfl⟩, ⟨64000, by decide⟩, rfl⟩

/-- More rows of one user than the smallest window holds.  The last is the only one that the scoped
grant covers, and the rows before it cost what the global grant holds. -/
def queueRow (i : Nat) : UsageLog :=
  { id := i, format := .anthropic, userId := some 4
    groupId := if i = 500 then some 7 else none
    cost := if i = 500 then 5 else 1 }

/-- One row more than the smallest batch, and the last has a grant of its own. -/
def longQueue : Ledger where
  logs := (List.range 501).map queueRow
  users := [{ id := 4, balance := 0 }]
  temps := [{ id := 1, userId := 4, amount := 500 },
    { id := 2, userId := 4, amount := 5, groupId := some 7 }]
  logIds := by
    rw [map_map]
    exact nodup_range.map Int.ofNat_injective
  userIds := by decide
  tempIds := by decide
  balances := by decide

/-- The long queue after its first 500 rows. -/
def queueTail : Ledger where
  logs := [queueRow 500]
  users := [{ id := 4, balance := 0 }]
  temps := [{ id := 1, userId := 4, amount := 0 },
    { id := 2, userId := 4, amount := 5, groupId := some 7 }]
  logIds := by decide
  userIds := by decide
  tempIds := by decide
  balances := by decide

theorem longQueue_fits : BalancesFit longQueue := by
  intro u hu
  obtain rfl : u = { id := 4, balance := 0 } := by simpa [longQueue] using hu
  decide +kernel

theorem longQueue_rows (h : l ∈ longQueue.logs) : ∃ i, l = queueRow i := by
  simp only [longQueue, mem_map] at h
  obtain ⟨i, -, rfl⟩ := h
  exact ⟨i, rfl⟩

theorem longQueue_pending : pending longQueue = longQueue.logs := by
  refine filter_eq_self.mpr fun l hl => ?_
  obtain ⟨i, rfl⟩ := longQueue_rows hl
  by_cases hi : i = 500 <;> simp [chargeable, queueRow, hi]

/-- The rows stand in the order of their ids, so a window is the front of the queue. -/
theorem longQueue_window (n : Nat) :
    laneWindow .fefo longQueue 0 n 4 0 = longQueue.logs.take n := by
  have hrows : laneRows .fefo longQueue 0 4 0 = longQueue.logs := by
    refine filter_eq_self.mpr fun l hl => ?_
    have hcharge := (mem_pending.mp (longQueue_pending ▸ hl)).2
    have hglobal : isGlobal longQueue.temps 0 4 = true := by decide
    obtain ⟨i, rfl⟩ := longQueue_rows hl
    simp only [inLane, hcharge, tempActive]
    simp [queueRow, UsageLog.uid, hglobal]
  rw [laneWindow, hrows]
  apply orderLimit_of_sorted
  rw [longQueue, pairwise_map]
  exact pairwise_lt_range.imp fun h => Int.ofNat_le.mpr h.le

theorem longQueue_demand (n : Nat) : windowDemand .fefo longQueue 0 n 4 0 = fun p =>
    (((longQueue.logs.take n).filter fun l =>
      (l.uid, chargeGid longQueue.temps 0 l) = p).map UsageLog.cost).sum :=
  funext fun p => by rw [windowDemand, demand_window, longQueue_window]

theorem longQueue_call (limit : Int) (hlimit : 0 < limit) :
    Settled .fefo longQueue 0 limit.toNat 4 0 (settleCall 0 longQueue (fefoCall limit)) ∧
      pending (settleCall 0 longQueue (fefoCall limit)) = longQueue.logs.drop limit.toNat := by
  have h : Settled .fefo longQueue 0 limit.toNat 4 0 (settleCall 0 longQueue (fefoCall limit)) :=
    settleCall_settled 0 longQueue_fits (fefoCall limit) hlimit
  refine ⟨h, ?_⟩
  rw [h.pending_eq, longQueue_window, longQueue_pending]
  exact filter_notMem_take (longQueue_pending ▸ pending_nodup _) _

theorem longQueue_first :
    Settled .fefo longQueue 0 500 4 0 (settleCall 0 longQueue (fefoCall 500)) ∧
      pending (settleCall 0 longQueue (fefoCall 500)) = longQueue.logs.drop 500 :=
  longQueue_call 500 (by decide)

theorem queueTail_pending :
    pending (settleCall 0 longQueue (fefoCall 500)) = pending queueTail := by
  rw [longQueue_first.2]
  decide +kernel

theorem queueTail_temps :
    (settleCall 0 longQueue (fefoCall 500)).temps = queueTail.temps := by
  rw [longQueue_first.1.temps_drawn, longQueue_demand]
  decide +kernel

theorem longQueue_second : Settled .fefo (settleCall 0 longQueue (fefoCall 500)) 0 500 4 0
    (settleCall 0 (settleCall 0 longQueue (fefoCall 500)) (fefoCall 500)) :=
  settleCall_settled 0 (longQueue_first.1.balancesFit longQueue_fits) (fefoCall 500) (by decide)

theorem longQueue_run_500 :
    pending (settleCall 0 (settleCall 0 longQueue (fefoCall 500)) (fefoCall 500)) = [] ∧
      (settleCall 0 (settleCall 0 longQueue (fefoCall 500)) (fefoCall 500)).temps.map
        amount = [0, 0] := by
  constructor
  · rw [longQueue_second.pending_eq, queueTail_pending,
      laneWindow_congr queueTail_pending queueTail_temps]
    decide
  · rw [longQueue_second.temps_drawn, queueTail_temps,
      windowDemand_congr queueTail_pending queueTail_temps]
    decide

theorem longQueue_run_8000 : pending (settleCall 0 longQueue (fefoCall 8000)) = [] ∧
    (settleCall 0 longQueue (fefoCall 8000)).temps.map amount = [0, 5] := by
  obtain ⟨hsettled, hpending⟩ := longQueue_call 8000 (by decide)
  constructor
  · rw [hpending]
    decide +kernel
  · rw [hsettled.temps_drawn, longQueue_demand]
    decide +kernel

/-- The grants that are left depend on the limits: windows of 500 reach the last row after the
global grant is spent, and one window of 8000 charges it to the global grant as well. -/
theorem settleRun_depends_on_limit :
    pending (settleRun 0 longQueue [fefoCall 500, fefoCall 500]) = [] ∧
    pending (settleRun 0 longQueue [fefoCall 8000]) = [] ∧
    (settleRun 0 longQueue [fefoCall 500, fefoCall 500]).temps.map amount = [0, 0] ∧
    (settleRun 0 longQueue [fefoCall 8000]).temps.map amount = [0, 5] := by
  rw [settleRun_cons, settleRun_cons, settleRun_nil, settleRun_cons, settleRun_nil]
  exact ⟨longQueue_run_500.1, longQueue_run_8000.1, longQueue_run_500.2, longQueue_run_8000.2⟩

/-- What a user holds, less what the user's pending rows cost. -/
def Ledger.net (db : Ledger) (u : Int) : Int := db.fundsOf u - costOf (pending db) u

/-- Whatever the statements, their order and clocks, settlement keeps that. -/
theorem settle_keeps_net {db : Ledger} (hfit : BalancesFit db) (calls : List (Int × Call)) :
    ∀ s ∈ Run.states (fun db c => settleCall c.1 db c.2) db calls, ∀ u ∈ db.users.map User.id,
      s.net u = db.net u := by
  refine fun s hs => (Run.states_inv (fun s => BalancesFit s ∧
    s.users.map User.id = db.users.map User.id ∧ ∀ u ∈ db.users.map User.id, s.net u = db.net u)
    ?_ ⟨hfit, rfl, fun _ _ => rfl⟩ s hs).2.2
  rintro s c ⟨hfit, hids, hnet⟩
  rcases le_or_gt c.2.limit 0 with hlimit | hlimit
  · rw [settleCall_of_nonpos hlimit]
    exact ⟨hfit, hids, hnet⟩
  have h := settleCall_settled c.1 hfit c.2 hlimit
  refine ⟨h.balancesFit hfit, ?_, fun u hu => ?_⟩
  · rw [h.users, map_map, ← hids]
    rfl
  · rw [← hnet u hu]
    obtain ⟨user, huser, rfl⟩ := mem_map.mp (hids ▸ hu)
    have hfunds := h.fundsOf_sub huser
    have hcost := h.costOf_pending user.id
    rw [h.newlyBilledCost_eq] at hfunds
    simp only [Ledger.net]
    omega

theorem settle_keeps_net_long :
    (settleCall 5 longQueue (fefoCall 500)).net 4 = longQueue.net 4 :=
  settle_keeps_net longQueue_fits [(5, fefoCall 500)] _ (by simp [Run.states]) 4
    (by simp [longQueue])

end C4Gateway
