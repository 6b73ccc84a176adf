import C4Gateway.Ledger.Fefo

/-! What one settlement statement does to the tables, for both lanes at once, and from that the
conservation of every user's money. -/

namespace C4Gateway

open List Sql Draw

/-- What `due` asks of the balance of user `u`. -/
def owed (due : List (Int × Int)) (u : Int) : Int :=
  ((due.filter fun t => t.1 = u).map Prod.snd).sum

variable {due : List (Int × Int)}

theorem owed_of_mem (keys : (due.map Prod.fst).Nodup) {t : Int × Int} (ht : t ∈ due) :
    owed due t.1 = t.2 := by
  rw [owed, filter_key_eq keys ht]
  simp

theorem owed_of_not_mem {u : Int} (h : ∀ t ∈ due, t.1 ≠ u) : owed due u = 0 := by
  have : due.filter (fun t => t.1 = u) = [] :=
    filter_eq_nil_iff.mpr fun t ht => by simpa using h t ht
  simp [owed, this]

section
variable {users : List User} {t : Int × Int} {u : User}

theorem joined_debited (keys : (due.map Prod.fst).Nodup) (ht : t ∈ due) (hid : t.1 = u.id) :
    joined due debitedOn u = if t.2 ≤ u.balance then some t else none := by
  have hone : due.filter (fun s => s.1 = u.id) = [t] := hid ▸ filter_key_eq keys ht
  have : due.filter (fun s => (debitedOn u s).holds) = [t].filter fun s => s.2 ≤ u.balance := by
    rw [← hone, filter_filter]
    refine filter_congr fun s _ => ?_
    rw [Bool.eq_iff_iff]
    simpa [debitedOn] using ⟨fun h => ⟨h.2, h.1.symm⟩, fun h => ⟨h.2.symm, h.1⟩⟩
  rw [joined, ← head?_filter, this]
  by_cases h : t.2 ≤ u.balance <;> simp

section
variable (ids : (users.map User.id).Nodup)
include ids

theorem any_debited (hu : u ∈ users) :
    (debited users due).any (fun b => b.userId == u.id) = (joined due debitedOn u).isSome := by
  rw [Bool.eq_iff_iff, any_eq_true, Option.isSome_iff_exists]
  constructor
  · rintro ⟨b, hb, hid⟩
    obtain ⟨r, hr, t, ht, rfl⟩ := mem_returning.mp hb
    obtain rfl := inj_on_of_nodup_map ids hr hu (by simpa using hid)
    exact ⟨t, ht⟩
  · rintro ⟨t, ht⟩
    exact ⟨_, mem_returning.mpr ⟨u, hu, t, ht, rfl⟩, by simp⟩

section
variable (keys : (due.map Prod.fst).Nodup)
include keys

theorem joined_forced (hu : u ∈ users) (ht : t ∈ due) (hid : t.1 = u.id) :
    joined due (forcedOn (debited users due)) u = if t.2 ≤ u.balance then none else some t := by
  have hone : due.filter (fun s => s.1 = u.id) = [t] := hid ▸ filter_key_eq keys ht
  have : due.filter (fun s => (forcedOn (debited users due) u s).holds) =
      [t].filter fun _ => !decide (t.2 ≤ u.balance) := by
    rw [← hone, filter_filter]
    refine filter_congr fun s _ => ?_
    rw [forcedOn, any_debited ids hu, joined_debited keys ht hid]
    by_cases h : t.2 ≤ u.balance <;> simp [h, eq_comm]
  rw [joined, ← head?_filter, this]
  by_cases h : t.2 ≤ u.balance <;> simp [h]

theorem mem_charged {b : UserBalance} : b ∈ debited users due ++ forced users due ↔
      ∃ u ∈ users, ∃ t ∈ due, t.1 = u.id ∧ b = ⟨u.id, u.balance - t.2⟩ := by
  constructor
  · intro hb
    rcases mem_append.mp hb with hb | hb
    all_goals
      obtain ⟨u, hu, t, ht, rfl⟩ := mem_returning.mp hb
      obtain ⟨hmem, hon⟩ := joined_some ht
      refine ⟨u, hu, t, hmem, ?_, rfl⟩
      simp only [debitedOn, forcedOn, Truth.holds_and, holds_eq, Option.isSome_some, true_and,
        Option.some.injEq, Bool.and_eq_true, decide_eq_true_eq] at hon
      exact hon.1.symm
  · rintro ⟨u, hu, t, ht, hid, rfl⟩
    by_cases h : t.2 ≤ u.balance
    · exact mem_append.mpr (.inl (mem_returning.mpr
        ⟨u, hu, t, by rw [joined_debited keys ht hid, if_pos h], rfl⟩))
    · exact mem_append.mpr (.inr (mem_returning.mpr
        ⟨u, hu, t, by rw [joined_forced ids keys hu ht hid, if_neg h], rfl⟩))

theorem chargedUsers_eq :
    chargedUsers users due =
      users.map fun u => { u with balance := u.balance - owed due u.id } := by
  refine map_congr_left fun u hu => ?_
  by_cases h : ∃ t ∈ due, t.1 = u.id
  · obtain ⟨t, ht, hid⟩ := h
    have howed := owed_of_mem keys ht
    rw [hid] at howed
    simp only [findSome?_cons, joined_debited keys ht hid, joined_forced ids keys hu ht hid, howed]
    by_cases hle : t.2 ≤ u.balance <;> simp [hle]
  · push Not at h
    have hdebit : joined due debitedOn u = none :=
      joined_none.mpr fun t ht => by simp [debitedOn, (h t ht).symm]
    have hforce : joined due (forcedOn (debited users due)) u = none :=
      joined_none.mpr fun t ht => by simp [forcedOn, (h t ht).symm]
    simp [hdebit, hforce, owed_of_not_mem h]

theorem charged_fit (hu : ∀ u ∈ users, InInt64 u.balance) :
    (∀ b ∈ debited users due ++ forced users due, InInt64 b.balance) ↔
      ∀ u ∈ users, InInt64 (u.balance - owed due u.id) := by
  constructor
  · intro h u hmem
    by_cases hdue : ∃ t ∈ due, t.1 = u.id
    · obtain ⟨t, ht, hid⟩ := hdue
      rw [← hid, owed_of_mem keys ht]
      exact h _ ((mem_charged ids keys).mpr ⟨u, hmem, t, ht, hid, rfl⟩)
    · push Not at hdue
      rw [owed_of_not_mem hdue, sub_zero]
      exact hu u hmem
  · intro h b hb
    obtain ⟨u, hmem, t, ht, hid, rfl⟩ := (mem_charged ids keys).mp hb
    have := h u hmem
    rwa [← hid, owed_of_mem keys ht] at this

end
end
end

section
variable (logs : List UsageLog) (batch : List BatchRow) (od : List (Int × Bool))

theorem joined_marked (l : UsageLog) : (joined (markRows batch od) markedOn l).isSome = true ↔
    l.billed = false ∧ l.id ∈ batch.map BatchRow.id := by
  rw [joined, find?_isSome]
  constructor
  · rintro ⟨⟨b, m⟩, hq, hon⟩
    have hb : b ∈ batch := exists_mem_leftJoin.mp ⟨m, hq⟩
    obtain ⟨hid, hbilled⟩ : l.id = b.id ∧ l.billed = false := by simpa [markedOn] using hon
    exact ⟨hbilled, hid ▸ mem_map_of_mem hb⟩
  · rintro ⟨hbilled, hid⟩
    obtain ⟨b, hb, hid⟩ := mem_map.mp hid
    obtain ⟨m, hq⟩ := exists_mem_leftJoin.mpr hb
    exact ⟨(b, m), hq, by simp [markedOn, hbilled, hid]⟩

theorem markedLogs_eq : ∃ flag : UsageLog → Bool, markedLogs logs batch od = logs.map fun l =>
    if l.billed = false ∧ l.id ∈ batch.map BatchRow.id then
      { l with billed := true, overdraft := flag l }
    else l := by
  refine ⟨fun l => ((joined (markRows batch od) markedOn l).bind fun q => q.2.map Prod.snd).getD
    false, ?_⟩
  rw [markedLogs, update_one]
  refine map_congr_left fun l _ => ?_
  have h := joined_marked batch od l
  cases hj : joined (markRows batch od) markedOn l with
  | none =>
    rw [hj] at h
    rw [if_neg fun hc => by simpa using h.mpr hc]
    rfl
  | some q =>
    rw [hj] at h
    rw [if_pos (h.mp rfl)]
    simp [hj]

theorem marked_eq : marked logs batch od =
    (logs.filter fun l => l.billed = false ∧ l.id ∈ batch.map BatchRow.id).map UsageLog.id := by
  rw [← filterMap_eq_map, ← filterMap_eq_filter, filterMap_filterMap]
  refine filterMap_congr fun l _ => ?_
  have h := joined_marked batch od l
  cases hj : joined (markRows batch od) markedOn l with
  | none =>
    rw [hj] at h
    simp only [Option.isSome_none, Bool.false_eq_true, false_iff] at h
    simp [Option.guard, -mem_map, h]
  | some q =>
    rw [hj] at h
    simp [-mem_map, h.mp rfl]

end

section
variable {temps : List TempBalance} {now : Int} {totals : List Total}

theorem sum_drawOf_user (keys : (totals.map Total.pool).Nodup) (u : Int) :
    ((totals.filter fun x => x.uid = u).map fun x =>
      ((temps.filter fun t => t.pool = x.pool).map (drawOf temps now (demand totals))).sum).sum =
      ((temps.filter fun t => t.userId = u).map (drawOf temps now (demand totals))).sum := by
  have hkeys : ((totals.filter fun x => x.uid = u).map Total.pool).Nodup :=
    keys.sublist (filter_sublist.map _)
  refine Eq.trans ?_ (sum_groups_filter TempBalance.pool (drawOf temps now (demand totals)) hkeys
    ?_ ?_)
  · rw [map_map]; rfl
  · intro t _ hpool
    obtain ⟨x, hx, hp⟩ := mem_map.mp hpool
    have hu : x.uid = u := by simpa using (mem_filter.mp hx).2
    exact decide_eq_true ((congrArg Prod.fst hp).symm.trans hu)
  · intro t _ huser hpool
    refine drawOf_eq_zero (demand_of_not_mem fun x hx hp => hpool ?_)
    have hu : x.uid = u := (congrArg Prod.fst hp).trans (of_decide_eq_true huser)
    exact hp ▸ mem_map_of_mem (mem_filter.mpr ⟨hx, by simpa using hu⟩)

/-- The spill of a user is what the totals ask less what the grants give. -/
theorem owed_userSpill (ids : (temps.map TempBalance.id).Nodup)
    (keys : (totals.map Total.pool).Nodup) (nonneg : ∀ p, 0 ≤ demand totals p) (u : Int) :
    owed (userSpill totals (tempDrawn temps (takes (tempPool temps now totals) totals))) u =
      ((totals.filter fun x => x.uid = u).map Total.delta).sum -
        ((temps.filter fun t => t.userId = u).map (drawOf temps now (demand totals))).sum := by
  have hdrawn : ∀ x : Total, (((tempDrawn temps (takes (tempPool temps now totals) totals)).filter
      fun d => d.uid == x.uid && decide (d.chargeGid = x.chargeGid)).map Take.take).sum =
        ((temps.filter fun t => t.pool = x.pool).map (drawOf temps now (demand totals))).sum := by
    intro x
    rw [← sum_tempDrawn ids keys]
    congr 2
    refine filter_congr fun d _ => ?_
    rw [Bool.eq_iff_iff]
    simp [Take.pool, Total.pool]
  rw [owed, userSpill, groupSum_lookup, spill, filter_comm, sum_filter_of_zero]
  · simp only [hdrawn, filter_map, map_map, Function.comp_def]
    rw [eq_sub_iff_add_eq, ← sum_drawOf_user keys, ← sum_map_add]
    simp
  · intro x hx hzero
    obtain ⟨y, hy, rfl⟩ := mem_map.mp (mem_of_mem_filter hx)
    simp only [hdrawn, decide_eq_false_iff_not] at hzero ⊢
    have hle : ((temps.filter fun t => t.pool = y.pool).map
        (drawOf temps now (demand totals))).sum ≤ y.delta := by
      rw [sum_drawOf ids y.pool (nonneg y.pool), demand_of_mem keys hy]
      exact min_le_left ..
    omega

end

def costOf (rows : List UsageLog) (u : Int) : Int :=
  ((rows.filter fun l => l.uid = u).map UsageLog.cost).sum

section
variable (lane : Lane) (db : Ledger) (now : Int) (limit : Nat) (k bucket : Int)

def draw (t : TempBalance) : Int :=
  match lane with
  | .balance => 0
  | .fefo => drawOf db.temps now (demand (fefoTotals (fefoBatch db now limit k bucket))) t

/-- What the statement charges to the balance of user `u`: what the grants leave open. -/
def charge (u : Int) : Int :=
  costOf (laneWindow lane db now limit k bucket) u -
    ((db.temps.filter fun t => t.userId = u).map (draw lane db now limit k bucket)).sum

/-- All that a statement writes. -/
structure Settled (after : Ledger) : Prop where
  logs : ∃ flag : UsageLog → Bool, after.logs = db.logs.map fun l =>
    if l ∈ laneWindow lane db now limit k bucket then
      { l with billed := true, overdraft := flag l }
    else l
  users : after.users = db.users.map fun u =>
    { u with balance := u.balance - charge lane db now limit k bucket u.id }
  temps : after.temps = db.temps.map fun t =>
    { t with amount := t.amount - draw lane db now limit k bucket t }

variable {lane db now limit k bucket} {l : UsageLog} (u : Int) (p : Int × Option Int)

theorem mem_laneRows : l ∈ laneRows lane db now k bucket ↔
    l ∈ db.logs ∧ inLane lane db.temps now k bucket l = true := by
  simp [laneRows]

theorem mem_laneWindow (h : l ∈ laneWindow lane db now limit k bucket) :
    l ∈ db.logs ∧ inLane lane db.temps now k bucket l = true :=
  mem_laneRows.mp (mem_of_mem_orderLimit h)

theorem inLane_chargeable {temps : List TempBalance} (h : inLane lane temps now k bucket l = true) :
    chargeable l = true := by
  simp only [inLane, Bool.and_eq_true] at h
  exact h.1.1

theorem chargeable_iff : chargeable l = true ↔
    l.billed = false ∧ (l.errorType = .none ∨ l.errorType = .abort) ∧ 0 < l.cost := by
  simp [chargeable, and_assoc]

theorem laneWindow_nodup : (laneWindow lane db now limit k bucket).Nodup :=
  orderLimit_nodup (db.logIds.of_map.filter _)

theorem window_id_iff (hl : l ∈ db.logs) :
    (l.billed = false ∧ l.id ∈ (laneWindow lane db now limit k bucket).map UsageLog.id) ↔
      l ∈ laneWindow lane db now limit k bucket := by
  constructor
  · rintro ⟨-, hid⟩
    obtain ⟨r, hr, hid⟩ := mem_map.mp hid
    rwa [← inj_on_of_nodup_map db.logIds (mem_laneWindow hr).1 hl hid]
  · intro h
    exact ⟨(chargeable_iff.mp (inLane_chargeable (mem_laneWindow h).2)).1, mem_map_of_mem h⟩

theorem filter_window_perm : (db.logs.filter fun l =>
    l ∈ laneWindow lane db now limit k bucket).Perm (laneWindow lane db now limit k bucket) := by
  refine (perm_ext_iff_of_nodup (db.logIds.of_map.filter _) laneWindow_nodup).mpr fun l => ?_
  simpa using fun h => (mem_laneWindow h).1

theorem owed_balance : owed (balanceTotals (balanceBatch db now limit k bucket)) u =
    charge .balance db now limit k bucket u := by
  have hdraw : ((db.temps.filter fun t => t.userId = u).map
      (draw .balance db now limit k bucket)).sum = 0 :=
    sum_eq_zero fun v hv => by obtain ⟨t, _, rfl⟩ := mem_map.mp hv; rfl
  rw [owed, balanceTotals, groupSum_lookup, balanceBatch_eq, filter_map, map_map, charge, hdraw,
    sub_zero]
  rfl

theorem exists_total (hl : l ∈ laneWindow .fefo db now limit k bucket) :
    ∃ x ∈ fefoTotals (fefoBatch db now limit k bucket),
      x.pool = (l.uid, chargeGid db.temps now l) := by
  refine ⟨_, mem_map.mpr ⟨_, mem_map.mpr ⟨(l.uid, chargeGid db.temps now l), ?_, rfl⟩,
    rfl⟩, rfl⟩
  rw [mem_dedup, fefoBatch_eq, map_map]
  exact mem_map.mpr ⟨l, hl, rfl⟩

theorem demand_fefoTotals (batch : List FefoRow) (p : Int × Option Int) :
    demand (fefoTotals batch) p =
      ((batch.filter fun b => (b.uid, b.chargeGid) = p).map fun b => b.cost).sum := by
  rw [← groupSum_lookup, demand, fefoTotals, filter_map, map_map]
  rfl

theorem demand_window :
    demand (fefoTotals (fefoBatch db now limit k bucket)) p =
      (((laneWindow .fefo db now limit k bucket).filter fun l =>
        (l.uid, chargeGid db.temps now l) = p).map UsageLog.cost).sum := by
  rw [demand_fefoTotals, fefoBatch_eq, filter_map, map_map]
  rfl

theorem demand_nonneg : 0 ≤ demand (fefoTotals (fefoBatch db now limit k bucket)) p := by
  rw [demand_window]
  refine sum_nonneg fun c hc => ?_
  obtain ⟨l, hl, rfl⟩ := mem_map.mp hc
  exact (chargeable_iff.mp
    (inLane_chargeable (mem_laneWindow (mem_of_mem_filter hl)).2)).2.2.le

theorem sum_fefoTotals {totals : List Total}
    (h : fefoTotals (fefoBatch db now limit k bucket) = totals) :
    ((totals.filter fun x => x.uid = u).map Total.delta).sum =
      costOf (laneWindow .fefo db now limit k bucket) u := by
  have keys : (totals.map Total.pool).Nodup := h ▸ fefoTotals_pools _
  have hkeys : ((totals.filter fun x => x.uid = u).map Total.pool).Nodup :=
    keys.sublist (filter_sublist.map _)
  have hdelta : (totals.filter fun x => x.uid = u).map Total.delta =
      ((totals.filter fun x => x.uid = u).map Total.pool).map fun p =>
        (((laneWindow .fefo db now limit k bucket).filter fun l =>
          (l.uid, chargeGid db.temps now l) = p).map UsageLog.cost).sum := by
    rw [map_map]
    refine map_congr_left fun x hx => ?_
    rw [Function.comp, ← demand_window, h, demand_of_mem keys (mem_of_mem_filter hx)]
  rw [hdelta]
  refine sum_groups_filter (fun l => (l.uid, chargeGid db.temps now l)) UsageLog.cost hkeys ?_ ?_
  · intro l _ hmem
    obtain ⟨x, hx, hp⟩ := mem_map.mp hmem
    have hu : x.uid = u := by simpa using (mem_filter.mp hx).2
    simpa using (congrArg Prod.fst hp).symm.trans hu
  · intro l hl huid hmem
    obtain ⟨x, hx, hp⟩ := exists_total hl
    rw [h] at hx
    have hu : x.uid = u := (congrArg Prod.fst hp).trans (of_decide_eq_true huid)
    exact absurd (hp ▸ mem_map_of_mem (mem_filter.mpr ⟨hx, decide_eq_true hu⟩)) hmem

theorem owed_fefo :
    owed (userSpill (fefoTotals (fefoBatch db now limit k bucket)) (tempDrawn db.temps
      (takes (tempPool db.temps now (fefoTotals (fefoBatch db now limit k bucket)))
        (fefoTotals (fefoBatch db now limit k bucket))))) u =
      charge .fefo db now limit k bucket u := by
  rw [owed_userSpill db.tempIds (fefoTotals_pools _) demand_nonneg, sum_fefoTotals u rfl]
  rfl

/-- Both statements end in `settleWith`, on the window of their lane. -/
theorem settleStmt_eq (lane : Lane) (db : Ledger) (now : Int) (limit : Nat) (k bucket : Int) :
    ∃ batch due ghost temps ids,
      settleStmt lane db now limit k bucket = settleWith db batch due ghost temps ids ∧
      batch.map BatchRow.id = (laneWindow lane db now limit k bucket).map UsageLog.id ∧
      (due.map Prod.fst).Nodup ∧
      (∀ u, owed due u = charge lane db now limit k bucket u) ∧
      temps = db.temps.map fun t =>
        { t with amount := t.amount - draw lane db now limit k bucket t } := by
  cases lane with
  | balance =>
    refine ⟨_, _, _, _, rfl, rfl, ?_, groupSum_keys, owed_balance, ?_⟩
    · rw [balanceBatch_eq, map_map]; rfl
    · simp [draw]
  | fefo =>
    refine ⟨_, _, _, _, drawnTemps_ids _ _, rfl, ?_, groupSum_keys, owed_fefo, ?_⟩
    · rw [fefoBatch_eq, map_map, map_map]; rfl
    · exact drawnTemps_eq db.tempIds (fefoTotals_pools _)

theorem settleStmt_ok {out : SettleOut} (h : settleStmt lane db now limit k bucket = .ok out) :
    Settled lane db now limit k bucket out.ledger ∧
      out.summary.batchRows = (laneWindow lane db now limit k bucket).length ∧
      out.summary.marked = (laneWindow lane db now limit k bucket).length := by
  obtain ⟨batch, due, ghost, temps, ids, heq, hbatch, keys, howed, htemps⟩ :=
    settleStmt_eq lane db now limit k bucket
  rw [heq, settleWith] at h
  split at h
  · cases h
    have hlen : batch.length = (laneWindow lane db now limit k bucket).length := by
      simpa using congrArg List.length hbatch
    refine ⟨⟨?_, ?_, htemps⟩, by simp [hlen], ?_⟩
    · obtain ⟨flag, hflag⟩ := markedLogs_eq db.logs batch (odMap db.users due)
      refine ⟨flag, hflag.trans (map_congr_left fun l hl => ?_)⟩
      rw [hbatch]
      simp only [window_id_iff hl]
    · simp [chargedUsers_eq db.userIds keys, howed]
    · simp only [marked_eq, hbatch, length_map]
      rw [filter_congr fun l hl => decide_eq_decide.mpr (window_id_iff hl),
        filter_window_perm.length_eq]
  · cases h

theorem settleStmt_error {e : String} : settleStmt lane db now limit k bucket = .error e ↔
    e = numericOutOfRange ∧
      ∃ u ∈ db.users, ¬ InInt64 (u.balance - charge lane db now limit k bucket u.id) := by
  obtain ⟨batch, due, ghost, temps, ids, heq, hbatch, keys, howed, htemps⟩ :=
    settleStmt_eq lane db now limit k bucket
  have hfit := charged_fit db.userIds keys db.balances
  simp only [howed] at hfit
  rw [heq, settleWith]
  split
  next h =>
    have := hfit.mp h
    simpa using fun _ => this
  next h =>
    rw [hfit] at h
    push Not at h
    simp [h, eq_comm]

namespace Settled

variable {after : Ledger}

section
variable (h : Settled lane db now limit k bucket after)
include h

theorem newlyBilled_eq :
    Ledger.newlyBilled db after = db.logs.filter fun l =>
      l ∈ laneWindow lane db now limit k bucket := by
  obtain ⟨flag, hlogs⟩ := h.logs
  exact Ledger.newlyBilled_map hlogs (fun _ => rfl) (fun _ => rfl)
    fun l hl hin => ((window_id_iff hl).mpr hin).1

theorem mem_newlyBilled :
    l ∈ Ledger.newlyBilled db after ↔ l ∈ laneWindow lane db now limit k bucket := by
  rw [h.newlyBilled_eq]
  simpa using fun hl => (mem_laneWindow hl).1

theorem newlyBilledCost_eq (u : Int) :
    Ledger.newlyBilledCost db after u = costOf (laneWindow lane db now limit k bucket) u := by
  rw [Ledger.newlyBilledCost, h.newlyBilled_eq]
  exact ((filter_window_perm.filter _).map _).sum_eq

theorem tempsOf_sub (u : Int) :
    db.tempsOf u - after.tempsOf u =
      ((db.temps.filter fun t => t.userId = u).map (draw lane db now limit k bucket)).sum := by
  rw [Ledger.tempsOf, Ledger.tempsOf, h.temps, filter_map, map_map, sub_eq_iff_eq_add]
  simp only [Function.comp_def]
  rw [← sum_map_add]
  simp

end
end Settled

theorem draw_of_outside {t : TempBalance}
    (h : ∀ l ∈ laneWindow lane db now limit k bucket, l.uid ≠ t.userId) :
    draw lane db now limit k bucket t = 0 := by
  cases lane with
  | balance => rfl
  | fefo =>
    refine drawOf_eq_zero ?_
    have hnone : (laneWindow .fefo db now limit k bucket).filter (fun l =>
        (l.uid, chargeGid db.temps now l) = t.pool) = [] :=
      filter_eq_nil_iff.mpr fun l hl => by
        simpa using fun hp => h l hl (congrArg Prod.fst hp)
    rw [demand_window, hnone]
    rfl

theorem charge_of_outside {u : Int}
    (h : ∀ l ∈ laneWindow lane db now limit k bucket, l.uid ≠ u) :
    charge lane db now limit k bucket u = 0 := by
  have hcost : (laneWindow lane db now limit k bucket).filter (fun l => l.uid = u) = [] :=
    filter_eq_nil_iff.mpr fun l hl => by simpa using h l hl
  have hdraw : ((db.temps.filter fun t => t.userId = u).map
      (draw lane db now limit k bucket)).sum = 0 := by
    refine sum_eq_zero fun v hv => ?_
    obtain ⟨t, ht, rfl⟩ := mem_map.mp hv
    have huser : t.userId = u := by simpa using (mem_filter.mp ht).2
    exact draw_of_outside (huser ▸ h)
  rw [charge, costOf, hcost, hdraw]
  rfl

theorem settleStmt_of_empty (h : laneWindow lane db now limit k bucket = []) :
    ∃ out, settleStmt lane db now limit k bucket = .ok out ∧ out.summary.marked = 0 ∧
      out.ledger = db := by
  have hcharge : ∀ u, charge lane db now limit k bucket u = 0 := fun u =>
    charge_of_outside (by simp [h])
  cases hstmt : settleStmt lane db now limit k bucket with
  | error e =>
    obtain ⟨-, u, hu, hfit⟩ := settleStmt_error.mp hstmt
    rw [hcharge, sub_zero] at hfit
    exact absurd (db.balances u hu) hfit
  | ok out =>
    obtain ⟨⟨⟨flag, hlogs⟩, husers, htemps⟩, -, hmarked⟩ := settleStmt_ok hstmt
    refine ⟨out, rfl, by simp [hmarked, h], Ledger.ext' ?_ ?_ ?_⟩
    · simpa [h] using hlogs
    · simpa [hcharge] using husers
    · rw [htemps]
      refine (map_congr_left fun t _ => ?_).trans (map_id _)
      rw [draw_of_outside (by simp [h])]
      simp

end

/-- One settlement statement conserves every user's money: what it bills is what the balance and
the grants of the user lose.  Users without a billed row keep both, and a row that is not billed by
the statement is left as it was. -/
theorem settle_conserves (lane : Lane) (db : Ledger) (now : Int) (limit : Nat) (k bucket : Int) :
    let after := execSettle lane db now limit k bucket
    let batch := Ledger.newlyBilled db after
    Forall₂ (fun u u' => u'.id = u.id ∧
      Ledger.newlyBilledCost db after u.id =
        (u.balance - u'.balance) + (db.tempsOf u.id - after.tempsOf u.id) ∧
      ((∀ l ∈ batch, l.uid ≠ u.id) → u' = u)) db.users after.users ∧
    Forall₂ (fun t t' => t' = { t with amount := t'.amount } ∧
      ((∀ l ∈ batch, l.uid ≠ t.userId) → t' = t)) db.temps after.temps ∧
    Forall₂ (fun l l' => l' = l ∨
      l.billed = false ∧ l' = { l with billed := true, overdraft := l'.overdraft })
      db.logs after.logs := by
  unfold execSettle
  cases hstmt : settleStmt lane db now limit k bucket with
  | error e =>
    refine ⟨forall₂_same.mpr fun u _ => ⟨rfl, ?_, fun _ => rfl⟩,
      forall₂_same.mpr fun t _ => ⟨rfl, fun _ => rfl⟩,
      forall₂_same.mpr fun l _ => .inl rfl⟩
    simp [Ledger.newlyBilledCost, Ledger.newlyBilled_self]
  | ok out =>
    have h := (settleStmt_ok hstmt).1
    refine ⟨?_, ?_, ?_⟩
    · rw [h.users, forall₂_map_right_iff, forall₂_same]
      intro u _
      refine ⟨rfl, ?_, fun hout => ?_⟩
      · rw [h.newlyBilledCost_eq, h.tempsOf_sub, charge]
        dsimp only
        omega
      · simp [charge_of_outside fun l hl => hout l (h.mem_newlyBilled.mpr hl)]
    · rw [h.temps, forall₂_map_right_iff, forall₂_same]
      intro t _
      refine ⟨rfl, fun hout => ?_⟩
      simp [draw_of_outside fun l hl => hout l (h.mem_newlyBilled.mpr hl)]
    · obtain ⟨flag, hlogs⟩ := h.logs
      rw [hlogs, forall₂_map_right_iff, forall₂_same]
      intro l hl
      split
      · exact .inr ⟨((window_id_iff hl).mpr ‹_›).1, rfl⟩
      · exact .inl rfl

end C4Gateway
