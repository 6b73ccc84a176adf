import C4Gateway.Lib.Draw
import C4Gateway.Ledger.Settle
import Mathlib.Data.Prod.Lex
import Mathlib.Data.Int.ConditionallyCompleteOrder
import Mathlib.Order.ConditionallyCompleteLattice.Indexed

/-! The draw of the Temp lane.  The running sums of `temp_pool` and the boundary formula of `takes`
come to the greedy draw of `Draw.takeAt`, first expiry first, from each pool on its own. -/

namespace C4Gateway

open List
open TempBalance (amount)

open Sql Draw

/-- The position of a grant in ORDER BY expires_at NULLS LAST, id. -/
def fefoKey (t : TempBalance) : Lex (WithTop Int × Int) :=
  toLex (t.expiresAt.elim ⊤ fun e => (e : WithTop Int), t.id)

theorem fefoLe_iff (a b : TempBalance) : fefoLe a b = true ↔ fefoKey a ≤ fefoKey b := by
  rw [fefoKey, fefoKey, Prod.Lex.toLex_le_toLex]
  cases ha : a.expiresAt <;> cases hb : b.expiresAt <;> simp [fefoLe, ha, hb]

theorem fefoKey_lt {a b : TempBalance} (hle : fefoLe a b = true) (hne : a.id ≠ b.id) :
    fefoKey a < fefoKey b := by
  refine lt_of_le_of_ne ((fefoLe_iff a b).mp hle) fun h => hne ?_
  exact congrArg (fun k => (ofLex k).2) h

variable {totals : List Total} {now : Int} {temps : List TempBalance} {t : TempBalance}
  {p : Int × Option Int}

theorem fefoKey_nodup (ids : (temps.map TempBalance.id).Nodup) : (temps.map fefoKey).Nodup := by
  refine Nodup.of_map (fun k => (ofLex k).2) ?_
  rw [map_map]
  exact ids

def TempBalance.pool (t : TempBalance) : Int × Option Int := (t.userId, t.groupId)

def Total.pool (x : Total) : Int × Option Int := (x.uid, x.chargeGid)

def Take.pool (x : Take) : Int × Option Int := (x.uid, x.chargeGid)

def grants (temps : List TempBalance) (now : Int) (p : Int × Option Int) : List TempBalance :=
  temps.filter fun t => live now t && decide (t.pool = p)

def demand (totals : List Total) (p : Int × Option Int) : Int :=
  ((totals.filter fun x => x.pool = p).map Total.delta).sum

/-- What demands `d` on the pools take from a grant. -/
def drawOf (temps : List TempBalance) (now : Int) (d : Int × Option Int → Int) (t : TempBalance) :
    Int :=
  if live now t then
    takeAt (d t.pool) (before fefoKey amount (grants temps now t.pool) t) t.amount
  else 0

theorem mem_grants : t ∈ grants temps now p ↔ t ∈ temps ∧ live now t = true ∧ t.pool = p := by
  simp [grants]

theorem live_pos (h : live now t = true) : 0 < t.amount := by
  simp only [live, Bool.and_eq_true, decide_eq_true_eq] at h
  exact h.1

theorem grants_nonneg : ∀ t ∈ grants temps now p, 0 ≤ t.amount :=
  fun _ ht => (live_pos (mem_grants.mp ht).2.1).le

theorem holds_poolOn (t : TempBalance) (x : Total) :
    (poolOn t x).holds = decide (x.pool = t.pool) := by
  rw [Bool.eq_iff_iff]
  cases hg : t.groupId <;> cases hx : x.chargeGid <;>
    simp [poolOn, TempBalance.pool, Total.pool, hg, hx]
  exact fun _ => eq_comm

theorem demand_of_mem (keys : (totals.map Total.pool).Nodup) {x : Total} (hx : x ∈ totals) :
    demand totals x.pool = x.delta := by
  rw [demand, filter_key_eq keys hx]
  simp

theorem demand_of_not_mem (h : ∀ x ∈ totals, x.pool ≠ p) : demand totals p = 0 := by
  have : totals.filter (fun x => x.pool = p) = [] :=
    filter_eq_nil_iff.mpr fun x hx => by simpa using h x hx
  simp [demand, this]

section
variable {x : Total} {d : Int × Option Int → Int}

section
variable (keys : (totals.map Total.pool).Nodup)
include keys

theorem joined_total (hx : x ∈ totals) (hp : x.pool = t.pool) :
    joined totals poolOn t = some x := by
  have h := filter_key_eq keys hx
  rw [joined, ← head?_filter]
  simp [holds_poolOn, ← hp, h]

theorem poolJoin_map_fst :
    (join (whereRows (liveWhere now) temps) totals poolOn).map Prod.fst =
      (temps.filter (live now)).filter fun t => (joined totals poolOn t).isSome := by
  rw [join_map_fst]
  · simp [whereRows]
  · intro t _
    refine filter_length_le_one keys.of_map fun a ha b hb hpa hpb => ?_
    simp only [holds_poolOn, decide_eq_true_eq] at hpa hpb
    exact inj_on_of_nodup_map keys ha hb (hpa.trans hpb.symm)

theorem poolJoin_partition (hx : x ∈ totals) :
    ((join (whereRows (liveWhere now) temps) totals poolOn).filter fun p =>
      p.1.pool = x.pool).map Prod.fst = grants temps now x.pool :=
  calc
    _ = ((join (whereRows (liveWhere now) temps) totals poolOn).map Prod.fst).filter
        fun t => decide (t.pool = x.pool) := by rw [filter_map]; rfl
    _ = grants temps now x.pool := by
      rw [poolJoin_map_fst keys, filter_filter, filter_filter]
      refine filter_congr fun t _ => ?_
      by_cases hp : t.pool = x.pool
      · simp [hp, joined_total keys hx hp.symm]
      · simp [hp]

end

theorem mem_tempPool (ids : (temps.map TempBalance.id).Nodup)
    (keys : (totals.map Total.pool).Nodup) {p : PoolRow} (h : p ∈ tempPool temps now totals) :
    ∃ t ∈ temps, live now t = true ∧ ∃ rn, p = ⟨t.id, t.userId, t.groupId, t.amount, rn,
      before fefoKey amount (grants temps now t.pool) t + t.amount⟩ := by
  obtain ⟨f, hf, rfl⟩ := mem_map.mp h
  have distinct : ((join (whereRows (liveWhere now) temps) totals poolOn).map
      (fefoKey ∘ Prod.fst)).Nodup := by
    rw [← map_map, poolJoin_map_fst keys]
    exact (fefoKey_nodup ids).sublist ((filter_sublist.trans filter_sublist).map _)
  obtain ⟨hrow, hcum⟩ := window_cum (fefoKey ∘ Prod.fst) (fun a b => fefoLe_iff a.1 b.1) distinct hf
  obtain ⟨ht, hx, hon⟩ := mem_join.mp hrow
  have hpool : f.row.2.pool = f.row.1.pool := by simpa [holds_poolOn] using hon
  have hgid : f.row.2.chargeGid = f.row.1.groupId := congrArg Prod.snd hpool
  obtain ⟨ht, hlive⟩ : f.row.1 ∈ temps ∧ live now f.row.1 = true := by
    simpa [whereRows] using ht
  have hbefore := before_map fefoKey amount Prod.fst
    ((join (whereRows (liveWhere now) temps) totals poolOn).filter fun p => p.1.pool = f.row.1.pool)
    f.row
  refine ⟨f.row.1, ht, hlive, f.rn, ?_⟩
  rw [← hpool, poolJoin_partition keys hx, hpool] at hbefore
  rw [hcum, hgid, hbefore]
  rfl

theorem exists_tempPool (ht : t ∈ temps) (hlive : live now t = true) (hx : x ∈ totals)
    (hp : x.pool = t.pool) : ∃ p ∈ tempPool temps now totals, p.tid = t.id := by
  have hmem : (t, x) ∈ join (whereRows (liveWhere now) temps) totals poolOn :=
    mem_join.mpr ⟨by simpa [whereRows] using ⟨ht, hlive⟩, hx, by simpa [holds_poolOn] using hp⟩
  simp only [tempPool, mem_map, exists_exists_and_eq_and]
  exact (exists_window hmem).imp fun f hf => ⟨hf.1, by rw [hf.2]⟩

theorem drawOf_pos (h : 0 < drawOf temps now d t) :
    live now t = true ∧
      before fefoKey amount (grants temps now t.pool) t < d t.pool := by
  unfold drawOf at h
  split at h
  · exact ⟨‹_›, by unfold takeAt at h; omega⟩
  · omega

theorem drawOf_nonneg (t : TempBalance) : 0 ≤ drawOf temps now d t := by
  unfold drawOf
  split
  · exact takeAt_nonneg ..
  · exact le_rfl

theorem drawOf_le (h : live now t = true) : drawOf temps now d t ≤ t.amount := by
  rw [drawOf, if_pos h]
  exact takeAt_le (live_pos h).le

theorem drawOf_eq_zero (h : d t.pool = 0) : drawOf temps now d t = 0 := by
  unfold drawOf
  split
  · exact takeAt_eq_zero (h ▸ before_nonneg fefoKey grants_nonneg t)
  · rfl

theorem holds_takesOn (keys : (totals.map Total.pool).Nodup) {rn : Nat} {c : Int}
    (hx : x ∈ totals) :
    (takesOn ⟨t.id, t.userId, t.groupId, t.amount, rn, c + t.amount⟩ x).holds = true ↔
      x.pool = t.pool ∧ c < demand totals t.pool := by
  simp only [takesOn, Truth.holds_and, holds_eq, holds_notDistinct, Truth.holds_ofBool,
    Bool.and_eq_true, decide_eq_true_eq, Option.isSome_some, true_and, Option.some.injEq,
    add_sub_cancel_right, ← and_assoc]
  rw [TempBalance.pool, Prod.mk.injEq]
  refine and_congr_right fun hp => ?_
  rw [← Prod.mk.injEq] at hp
  rw [← demand_of_mem keys hx, Total.pool, hp]

section
variable (ids : (temps.map TempBalance.id).Nodup)
include ids

/-- What the grants of a pool give together: the demand, or everything they hold. -/
theorem sum_drawOf (p : Int × Option Int) (h : 0 ≤ d p) :
    ((temps.filter fun t => t.pool = p).map (drawOf temps now d)).sum =
      min (d p) ((grants temps now p).map amount).sum := by
  have hgrants : grants temps now p = (temps.filter fun t => t.pool = p).filter (live now) := by
    rw [filter_filter, grants]
  have distinct : ((grants temps now p).map fefoKey).Nodup :=
    (fefoKey_nodup ids).sublist (filter_sublist.map _)
  rw [← sum_filter_of_zero (p := live now) fun t _ hlive => by simp [drawOf, hlive], ← hgrants,
    ← sum_takeAt distinct grants_nonneg h]
  congr 1
  refine map_congr_left fun t ht => ?_
  obtain ⟨-, hlive, hpool⟩ := mem_grants.mp ht
  rw [drawOf, if_pos hlive, hpool]

section
variable (keys : (totals.map Total.pool).Nodup)
include keys

/-- The boundary formula is the greedy take, and no row of `takes` is empty. -/
theorem mem_takes {k : Take} (h : k ∈ takes (tempPool temps now totals) totals) :
    ∃ t ∈ temps, 0 < drawOf temps now (demand totals) t ∧
      k = ⟨t.id, t.userId, t.groupId, drawOf temps now (demand totals) t⟩ := by
  obtain ⟨⟨p, y⟩, hq, rfl⟩ := mem_map.mp h
  obtain ⟨hp, hy, hon⟩ := mem_join.mp hq
  obtain ⟨t, ht, hlive, rn, rfl⟩ := mem_tempPool ids keys hp
  obtain ⟨hpool, hlt⟩ := (holds_takesOn keys hy).mp hon
  have hpos := live_pos hlive
  have hdelta : demand totals t.pool = y.delta := hpool ▸ demand_of_mem keys hy
  have hdraw : drawOf temps now (demand totals) t = takeAt y.delta
      (before fefoKey amount (grants temps now t.pool) t) t.amount := by
    rw [drawOf, if_pos hlive, hdelta]
  refine ⟨t, ht, ?_, ?_⟩
  · rw [hdraw]; unfold takeAt; omega
  · simp only [hdraw, takeAt, Take.mk.injEq, true_and]
    split <;> omega

theorem exists_takes (ht : t ∈ temps) (h : 0 < drawOf temps now (demand totals) t) :
    ⟨t.id, t.userId, t.groupId, drawOf temps now (demand totals) t⟩ ∈
      takes (tempPool temps now totals) totals := by
  obtain ⟨hlive, hlt⟩ := drawOf_pos h
  obtain ⟨x, hx, hpool⟩ : ∃ x ∈ totals, x.pool = t.pool := by
    by_contra hno
    push Not at hno
    have := before_nonneg fefoKey (grants_nonneg : ∀ r ∈ grants temps now t.pool, _) t
    rw [demand_of_not_mem hno] at hlt
    omega
  obtain ⟨p, hp, hid⟩ := exists_tempPool ht hlive hx hpool
  obtain ⟨t', ht', -, rn, rfl⟩ := mem_tempPool ids keys hp
  obtain rfl := inj_on_of_nodup_map ids ht' ht hid
  have hmem : (_, x) ∈ join (tempPool temps now totals) totals takesOn :=
    mem_join.mpr ⟨hp, hx, (holds_takesOn keys hx).mpr ⟨hpool, hlt⟩⟩
  obtain ⟨k, hk, hkid⟩ : ∃ k ∈ takes (tempPool temps now totals) totals, k.tid = t'.id :=
    ⟨_, mem_map_of_mem hmem, rfl⟩
  obtain ⟨t'', ht'', -, rfl⟩ := mem_takes ids keys hk
  obtain rfl := inj_on_of_nodup_map ids ht'' ht' hkid
  exact hk

theorem joined_takes (ht : t ∈ temps) :
    joined (takes (tempPool temps now totals) totals) drawnOn t =
      if 0 < drawOf temps now (demand totals) t then
        some ⟨t.id, t.userId, t.groupId, drawOf temps now (demand totals) t⟩
      else none := by
  have unique : ∀ k ∈ takes (tempPool temps now totals) totals, (drawnOn t k).holds = true →
      0 < drawOf temps now (demand totals) t ∧
        k = ⟨t.id, t.userId, t.groupId, drawOf temps now (demand totals) t⟩ := by
    intro k hk hon
    obtain ⟨t', ht', hpos, rfl⟩ := mem_takes ids keys hk
    have hid : t.id = t'.id := by
      simp [drawnOn] at hon
      exact hon.1
    obtain rfl := inj_on_of_nodup_map ids ht ht' hid
    exact ⟨hpos, rfl⟩
  cases hj : joined (takes (tempPool temps now totals) totals) drawnOn t with
  | some k =>
    obtain ⟨hpos, rfl⟩ := unique k (joined_some hj).1 (joined_some hj).2
    rw [if_pos hpos]
  | none =>
    rw [if_neg]
    intro hpos
    have := joined_none.mp hj _ (exists_takes ids keys ht hpos)
    have hle : drawOf temps now (demand totals) t ≤ t.amount := drawOf_le (drawOf_pos hpos).1
    simp [drawnOn] at this
    omega

theorem drawnTemps_eq :
    drawnTemps temps (takes (tempPool temps now totals) totals) =
      temps.map fun t => { t with amount := t.amount - drawOf temps now (demand totals) t } := by
  rw [drawnTemps, update_one]
  refine map_congr_left fun t ht => ?_
  rw [joined_takes ids keys ht]
  by_cases hpos : 0 < drawOf temps now (demand totals) t
  · simp [hpos]
  · have hzero : drawOf temps now (demand totals) t = 0 :=
      le_antisymm (not_lt.mp hpos) (drawOf_nonneg t)
    simp [hzero]

theorem tempDrawn_eq :
    tempDrawn temps (takes (tempPool temps now totals) totals) =
      (temps.filter fun t => 0 < drawOf temps now (demand totals) t).map fun t =>
        ⟨t.id, t.userId, t.groupId, drawOf temps now (demand totals) t⟩ := by
  rw [← filterMap_eq_map, ← filterMap_eq_filter, filterMap_filterMap]
  refine filterMap_congr fun t ht => ?_
  rw [joined_takes ids keys ht]
  by_cases hpos : 0 < drawOf temps now (demand totals) t <;> simp [hpos, Option.guard]

theorem sum_tempDrawn (p : Int × Option Int) :
    (((tempDrawn temps (takes (tempPool temps now totals) totals)).filter fun k =>
      k.pool = p).map Take.take).sum =
      ((temps.filter fun t => t.pool = p).map (drawOf temps now (demand totals))).sum := by
  rw [tempDrawn_eq ids keys, filter_map, map_map, filter_comm]
  refine sum_filter_of_zero fun t _ hzero => ?_
  exact le_antisymm (by simpa using hzero) (drawOf_nonneg t)

theorem sum_tempDrawn_tid (ht : t ∈ temps) :
    (((tempDrawn temps (takes (tempPool temps now totals) totals)).filter fun k =>
      k.tid = t.id).map Take.take).sum = drawOf temps now (demand totals) t := by
  have hone : temps.filter (fun s => s.id = t.id) = [t] := filter_key_eq ids ht
  rw [tempDrawn_eq ids keys, filter_map, map_map, filter_comm]
  refine (sum_filter_of_zero fun s _ hzero => ?_).trans ?_
  · exact le_antisymm (by simpa using hzero) (drawOf_nonneg s)
  · simp [Function.comp_def, hone]

end
end
end

theorem fefoTotals_pools (batch : List FefoRow) : ((fefoTotals batch).map Total.pool).Nodup := by
  rw [fefoTotals, groupSum]
  simpa [Function.comp_def, Total.pool] using nodup_dedup _

/-- The Temp lane draws on a pool greedily: the takes sum to the total charged or to all that the
live grants hold, each grant loses its own takes and none goes below 0, and a grant is touched only
when every grant before it in the order of expiry is empty. -/
theorem takes_greedy (db : Ledger) (now : Int) (batch : List FefoRow) (x : Total)
    (hx : x ∈ fefoTotals batch) (hdelta : 0 ≤ x.delta) :
    let drawn := takes (tempPool db.temps now (fefoTotals batch)) (fefoTotals batch)
    let taken := tempDrawn db.temps drawn
    let left := drawnTemps db.temps drawn
    ((taken.filter fun k => k.pool = x.pool).map Take.take).sum =
        min x.delta ((grants db.temps now x.pool).map amount).sum ∧
      (∀ t ∈ grants db.temps now x.pool, ∀ t' ∈ left, t'.id = t.id →
        t'.amount = t.amount - ((taken.filter fun k => k.tid = t.id).map Take.take).sum ∧
          0 ≤ t'.amount ∧ t'.amount ≤ t.amount) ∧
      ∀ s ∈ grants db.temps now x.pool, ∀ t ∈ grants db.temps now x.pool,
        fefoLe s t = true → s.id ≠ t.id → ∀ s' ∈ left, s'.id = s.id → ∀ t' ∈ left, t'.id = t.id →
          t'.amount < t.amount → s'.amount = 0 := by
  have keys := fefoTotals_pools batch
  have hdemand := demand_of_mem keys hx
  -- the amount that the UPDATE leaves in a grant
  have hleft : ∀ t ∈ db.temps,
      ∀ t' ∈ drawnTemps db.temps
          (takes (tempPool db.temps now (fefoTotals batch)) (fefoTotals batch)),
        t'.id = t.id →
          t'.amount = t.amount - drawOf db.temps now (demand (fefoTotals batch)) t := by
    intro t ht t' ht' hid
    rw [drawnTemps_eq db.tempIds keys] at ht'
    obtain ⟨s, hs, rfl⟩ := mem_map.mp ht'
    rw [inj_on_of_nodup_map db.tempIds hs ht hid]
  refine ⟨?_, ?_, ?_⟩
  · rw [sum_tempDrawn db.tempIds keys, sum_drawOf db.tempIds x.pool (hdemand ▸ hdelta), hdemand]
  · intro t ht t' ht' hid
    obtain ⟨hmem, hlive, -⟩ := mem_grants.mp ht
    have hle : drawOf db.temps now (demand (fefoTotals batch)) t ≤ t.amount := drawOf_le hlive
    have hnonneg : 0 ≤ drawOf db.temps now (demand (fefoTotals batch)) t := drawOf_nonneg t
    rw [sum_tempDrawn_tid db.tempIds keys hmem, hleft t hmem t' ht' hid]
    omega
  · intro s hs t ht hle hne s' hs' hsid t' ht' htid htouched
    obtain ⟨hsmem, hslive, hspool⟩ := mem_grants.mp hs
    obtain ⟨htmem, htlive, htpool⟩ := mem_grants.mp ht
    rw [hleft t htmem t' ht' htid, drawOf, htpool] at htouched
    rw [hleft s hsmem s' hs' hsid, drawOf, if_pos hslive, hspool,
      takeAt_eq_of_later grants_nonneg hs (fefoKey_lt hle hne) (by omega), sub_self]

def tiedGrants : Ledger where
  logs := []
  users := []
  temps := [{ id := 1, userId := 7, amount := 5 },
    { id := 3, userId := 7, amount := 4, expiresAt := some 50 },
    { id := 2, userId := 7, amount := 4, expiresAt := some 50 }]
  logIds := by decide
  userIds := by decide
  tempIds := by decide
  balances := by decide

def tiedBatch : List FefoRow :=
  [{ id := 1, uid := 7, cost := 6, groupId := some 3, chargeGid := none }]

theorem takes_greedy_tied :
    (((tempDrawn tiedGrants.temps (takes (tempPool tiedGrants.temps 10 (fefoTotals tiedBatch))
      (fefoTotals tiedBatch))).filter fun k => k.pool = (7, none)).map Take.take).sum = 6 :=
  (takes_greedy tiedGrants 10 tiedBatch ⟨7, none, 6⟩ (by decide) (by decide)).1.trans (by decide)

example : (drawnTemps tiedGrants.temps (takes (tempPool tiedGrants.temps 10 (fefoTotals tiedBatch))
    (fefoTotals tiedBatch))).map amount = [5, 2, 0] := by decide

end C4Gateway
