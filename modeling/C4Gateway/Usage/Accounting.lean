import C4Gateway.Usage.Recorder
import Mathlib.Data.List.Nodup

/-! Where a recorded log can be, in every interleaving of the recorder's steps and for every outcome
of its inserts.  Each step of a worker hands over what it no longer holds; a call left behind keeps
its logs pending and in flight. -/

namespace C4Gateway

open C4Gateway.Count List
open EscapedCall (committed)

variable (k : Nat) (chunk s : List LogRef)

theorem count_halves (l : LogRef) :
    (leftHalf chunk).count l + (rightHalf chunk).count l = chunk.count l := by
  rw [← count_append, leftHalf, rightHalf, take_append_drop]

theorem leftHalf_subset : leftHalf chunk ⊆ chunk := take_subset _ _

theorem rightHalf_subset : rightHalf chunk ⊆ chunk := drop_subset _ _

@[simp] theorem holds_poisonBisect : (poisonBisect k chunk s).holds = chunk ++ s := by
  unfold poisonBisect
  split <;> rfl

@[simp] theorem bisected_poisonBisect : (poisonBisect k chunk s).bisected = [(k, chunk)] := by
  unfold poisonBisect
  split <;> rfl

theorem count_shards (cfg : RecorderConfig) (pend : List LogRef) (l : LogRef) :
    ((cfg.shards pend).flatMap fun s => (FlushPhase.loop s).holds).count l = pend.count l := by
  have hflat : ((cfg.shards pend).flatMap fun s => (FlushPhase.loop s).holds) =
      (List.range cfg.workers).flatMap fun i => pend.filter fun l => cfg.shardOf l = i := by
    change (cfg.shards pend).flatMap id = _
    rw [flatMap_id, RecorderConfig.shards, flatten_filter_ne_nil, flatMap_def]
  have hlt : cfg.shardOf l < cfg.workers := Nat.mod_lt _ cfg.workers_pos
  rw [hflat, flatMap_range_filter, if_pos hlt]

/-- The parts of failed chunks that a phase has at hand and an effect drops. -/
def FlushPhase.parts (phase : FlushPhase) (e : WorkerEffect) : List (Nat × List LogRef) :=
  phase.bisected ++ e.dropped.toList.map fun d => (d.1, [d.2])

namespace Worker

variable (cfg : RecorderConfig) (cancelled : Bool) (k : Nat) (wk : Worker) (l : LogRef)

theorem advance_holds :
    wk.phase.holds.count l = (wk.advance cfg cancelled k).1.holds.count l +
      (wk.advance cfg cancelled k).2.persisted.count l +
      (wk.advance cfg cancelled k).2.refilled.count l +
      ((wk.advance cfg cancelled k).2.dropped.toList.map Prod.snd).count l := by
  fun_cases advance cfg cancelled k wk
  all_goals simp only [*, holds_poisonBisect]
  case case3 s _ _ =>
    simp only [FlushPhase.holds]
    simp
  case case7 chunk s _ _ | case9 chunk s _ _ =>
    have := count_halves chunk l
    simp only [FlushPhase.holds, count_append, Option.toList, map_nil, count_nil]
    omega
  all_goals simp [FlushPhase.holds, count_cons, Nat.add_comm]

theorem advance_persisted : (wk.advance cfg cancelled k).2.persisted = wk.committed := by
  fun_cases advance cfg cancelled k wk
  case case15 =>
    obtain ⟨phase, outcome⟩ := wk
    cases phase <;> simp_all [committed, submitted, FlushPhase.call]
  all_goals simp [*, committed, submitted, FlushPhase.call]

theorem advance_parts : ∀ p ∈ (wk.advance cfg cancelled k).1.parts (wk.advance cfg cancelled k).2,
    ∃ q ∈ wk.phase.bisected ++ (wk.advance cfg cancelled k).2.failed.toList.map (k, ·),
      q.1 = p.1 ∧ p.2 ⊆ q.2 := by
  fun_cases advance cfg cancelled k wk
  case case15 =>
    intro p hp
    exact ⟨p, by simpa [FlushPhase.parts] using hp, rfl, fun _ h => h⟩
  all_goals simp only [*, FlushPhase.parts, bisected_poisonBisect]
  all_goals simp [FlushPhase.bisected, leftHalf_subset, rightHalf_subset]

theorem advance_numbers (n : Nat) :
    (((wk.advance cfg cancelled k).1.parts (wk.advance cfg cancelled k).2).map Prod.fst).count n ≤
      ((wk.phase.bisected ++ (wk.advance cfg cancelled k).2.failed.toList.map (k, ·)).map
        Prod.fst).count n := by
  fun_cases advance cfg cancelled k wk
  all_goals simp only [*, FlushPhase.parts, bisected_poisonBisect]
  all_goals simp [FlushPhase.bisected]

/-- The insert of the one row that `poisonBisect` has come down to has failed. -/
def lastRowFailed : Worker → Bool
  | ⟨.single _ _ _, some false⟩ => true
  | _ => false

theorem advance_dropped :
    (wk.advance cfg cancelled k).2.dropped.isSome = wk.lastRowFailed := by
  obtain ⟨phase, outcome⟩ := wk
  fun_cases Worker.advance cfg cancelled k ⟨phase, outcome⟩
  case case15 =>
    simp only [lastRowFailed]
    split <;> simp_all
  all_goals simp_all [lastRowFailed]

/-- What a worker has submitted is a part of what it holds. -/
theorem count_submitted_le : wk.submitted.count l ≤ wk.phase.holds.count l := by
  obtain ⟨phase, outcome⟩ := wk
  cases phase with
  | left k chunk s | right k chunk s =>
    have := count_halves chunk l
    simp only [submitted, FlushPhase.call, FlushPhase.holds, Option.getD_some, count_append]
    omega
  | _ => simp [submitted, FlushPhase.call, FlushPhase.holds, count_cons]

theorem count_committed_le : wk.committed.count l ≤ wk.submitted.count l := by
  unfold committed
  split <;> simp

end Worker

theorem EscapedCall.count_committed_le (c : EscapedCall) (l : LogRef) :
    c.committed.count l ≤ c.batch.count l := by
  unfold committed
  split <;> simp

namespace Recorder

/-- The parts of failed chunks that workers have at hand or that were dropped. -/
def parts (w : Recorder) : List (Nat × List LogRef) :=
  w.workers.flatMap (·.phase.bisected) ++ w.dropped.map fun d => (d.1, [d.2])

/-- A part of the failed chunk that has its number. -/
def Covered (failing : List (List LogRef)) (p : Nat × List LogRef) : Prop :=
  ∃ chunk, failing[p.1]? = some chunk ∧ p.2 ⊆ chunk

/-- Every log is in one place, as often as it was recorded. -/
structure Inv (w : Recorder) : Prop where
  placed : ∀ l, w.persisted.count l + w.pending.count l + w.flushing.count l +
    (w.dropped.map Prod.snd).count l = w.recorded.count l
  fresh : w.recorded.map LogRef.ptr = List.range w.recorded.length
  counted : w.pendingN = w.pending.length
  retained : ∀ l, (w.escaped.flatMap EscapedCall.batch).count l ≤ w.pending.count l
  blocked : ∀ l, l ∈ w.inflight ↔ l ∈ w.escaped.flatMap EscapedCall.batch
  stored : ∀ l, w.db.count l = w.persisted.count l + (w.workers.flatMap Worker.committed).count l +
    (w.escaped.flatMap committed).count l
  within : ∀ p ∈ w.parts, Covered w.failing p
  numbered : ∀ n, (w.parts.map Prod.fst).count n ≤ 1
  idle : w.run = none → w.swapped = [] ∧ w.workers = []
  sharded : ∀ r, w.run = some r → r.sharded = true → w.swapped = []
  unsharded : ∀ r, w.run = some r → r.sharded = false → w.workers = []

section
variable {failing : List (List LogRef)} {p q : Nat × List LogRef}

theorem Covered.mono (h : Covered failing q) (heq : q.1 = p.1) (hsub : p.2 ⊆ q.2) :
    Covered failing p := by
  obtain ⟨chunk, hchunk, hq⟩ := h
  exact ⟨chunk, heq ▸ hchunk, fun _ hx => hq (hsub hx)⟩

theorem Covered.lt (h : Covered failing p) : p.1 < failing.length := by
  obtain ⟨chunk, hchunk, -⟩ := h
  exact (List.getElem?_eq_some_iff.mp hchunk).1

theorem Covered.append (failed : List (List LogRef)) (h : Covered failing p) :
    Covered (failing ++ failed) p := by
  have hlt := h.lt
  obtain ⟨chunk, hchunk, hp⟩ := h
  exact ⟨chunk, by rw [getElem?_append_left hlt, hchunk], hp⟩

theorem covered_last {failed : Option (List LogRef)}
    (h : q ∈ failed.toList.map (failing.length, ·)) : Covered (failing ++ failed.toList) q := by
  cases failed with
  | none => simp at h
  | some chunk =>
    obtain rfl : q = (failing.length, chunk) := by simpa using h
    exact ⟨chunk, by simp, fun _ hx => hx⟩

end

theorem inv_new : Inv {} where
  placed l := by simp [flushing]
  fresh := rfl
  counted := rfl
  retained l := by simp
  blocked l := by simp
  stored l := by simp
  within := nofun
  numbered n := by simp [parts]
  idle _ := ⟨rfl, rfl⟩
  sharded := nofun
  unsharded := nofun

variable {w : Recorder}

theorem Inv.count_recorded_le (h : w.Inv) (l : LogRef) : w.recorded.count l ≤ 1 := by
  have hnodup : (w.recorded.map LogRef.ptr).Nodup := by
    rw [h.fresh]
    exact nodup_range
  exact nodup_iff_count_le_one.mp (Nodup.of_map _ hnodup) l

/-- A chunk that fails now gets a number that no part has yet. -/
theorem Inv.count_number (h : w.Inv) : (w.parts.map Prod.fst).count w.failing.length = 0 := by
  rw [count_eq_zero]
  intro hmem
  obtain ⟨p, hp, heq⟩ := mem_map.mp hmem
  have := (h.within p hp).lt
  omega

variable {batch : List LogRef} {wk : Worker} {i : Nat} (ok : Bool) (cfg : RecorderConfig)

theorem Inv.unsharded_set (h : w.Inv) (wk' : Worker) (hwk : w.workers[i]? = some wk)
    (r : FlushRun) (hr : w.run = some r) (hs : r.sharded = false) : w.workers.set i wk' = [] := by
  simp [h.unsharded r hr hs] at hwk

theorem parts_set (wk' : Worker) (hwk : w.workers[i]? = some wk)
    (heq : wk'.phase.bisected = wk.phase.bisected) :
    { w with workers := w.workers.set i wk' : Recorder }.parts = w.parts := by
  simp only [parts]
  rw [flatMap_set_of_eq wk' hwk heq]

theorem inv_record (userID : Int) (h : w.Inv) : (w.record userID).Inv := by
  refine { h with placed := fun l => ?_, fresh := ?_, counted := ?_, retained := fun l => ?_ }
  · have := h.placed l
    simp only [record, flushing, count_append] at this ⊢
    omega
  · simp [record, range_succ, h.fresh]
  · simp [record, h.counted]
  · have := h.retained l
    simp only [record, count_append]
    omega

theorem inv_refillLogs_swapped (h : w.Inv) (hworkers : w.workers = []) :
    { w.refillLogs w.swapped with swapped := [], run := none : Recorder }.Inv := by
  refine { h with
    placed := fun l => ?_, counted := ?_, retained := fun l => ?_
    idle := fun _ => ⟨rfl, hworkers⟩, sharded := nofun, unsharded := nofun }
  · have := h.placed l
    simp only [refillLogs, flushing, count_append, count_nil] at this ⊢
    omega
  · simp [refillLogs, h.counted]
  · have := h.retained l
    simp only [refillLogs, count_append]
    omega

theorem inv_swap (base cancelled : Bool) (h : w.Inv) (hrun : w.run = none) :
    (w.swap base cancelled).Inv := by
  obtain ⟨hswapped, hworkers⟩ := h.idle hrun
  refine { h with
    placed := fun l => ?_, counted := ?_, retained := fun l => ?_
    idle := nofun, sharded := ?_, unsharded := fun _ _ _ => hworkers }
  · have := h.placed l
    have hsplit := filter_add_filter_not l (· ∈ w.inflight) w.pending
    simp only [swap, flushing, hswapped, count_append, count_nil] at this ⊢
    omega
  · simp [swap, h.counted]
  · -- A log of a call left behind is in flight, so that it stays pending.
    by_cases hl : l ∈ w.inflight
    · simpa [swap, hl] using h.retained l
    · rw [h.blocked] at hl
      simp [swap, count_eq_zero.mpr hl]
  · rintro r ⟨⟩
    exact nofun

theorem inv_shard {base : Bool} (h : w.Inv) (hrun : w.run = some ⟨base, false, false⟩) :
    { w with
      swapped := []
      workers := (cfg.shards w.swapped).map fun s => { phase := .loop s }
      run := some ⟨base, false, true⟩ : Recorder }.Inv := by
  have hworkers : w.workers = [] := h.unsharded _ hrun rfl
  have hcommitted : ((cfg.shards w.swapped).map fun s =>
      ({ phase := .loop s } : Worker)).flatMap Worker.committed = [] := by
    simp [Worker.committed]
  have hbisected : ((cfg.shards w.swapped).map fun s =>
      ({ phase := .loop s } : Worker)).flatMap (·.phase.bisected) = [] := by
    simp [FlushPhase.bisected]
  refine { h with
    placed := fun l => ?_, stored := fun l => ?_, within := fun p hp => ?_, numbered := fun n => ?_
    idle := nofun, sharded := fun _ _ _ => rfl, unsharded := ?_ }
  · have := h.placed l
    have := count_shards cfg w.swapped l
    simp only [flushing, hworkers, flatMap_map, count_append, flatMap_nil] at *
    omega
  · simpa [hworkers, hcommitted] using h.stored l
  · apply h.within p
    simpa [parts, hworkers, hbisected] using hp
  · simpa [parts, hworkers, hbisected] using h.numbered n
  · rintro r ⟨⟩
    exact nofun

theorem inv_worker (cancelled : Bool) (h : w.Inv) (hrun : w.run ≠ none)
    (hwk : w.workers[i]? = some wk) :
    { w.effect (wk.advance cfg cancelled w.failing.length).2 with
      workers := w.workers.set i
        { phase := (wk.advance cfg cancelled w.failing.length).1 } : Recorder }.Inv := by
  have hholds := wk.advance_holds cfg cancelled w.failing.length
  have hpersisted := wk.advance_persisted cfg cancelled w.failing.length
  have hparts := wk.advance_parts cfg cancelled w.failing.length
  have hnumbers := wk.advance_numbers cfg cancelled w.failing.length
  generalize wk.advance cfg cancelled w.failing.length = next at *
  obtain ⟨phase, e⟩ := next
  dsimp only at hholds hpersisted hparts hnumbers ⊢
  refine { h with
    placed := fun l => ?_, counted := ?_, retained := fun l => ?_, stored := fun l => ?_
    within := fun p hp => ?_, numbered := fun n => ?_
    idle := fun hr => absurd hr hrun, unsharded := h.unsharded_set _ hwk }
  · have := h.placed l
    have := hholds l
    have := flatMap_set (f := fun wk : Worker => wk.phase.holds) l { phase } hwk
    simp only [effect, refillLogs, flushing, map_append, count_append] at *
    omega
  · simp [effect, refillLogs, h.counted]
  · have := h.retained l
    simp only [effect, refillLogs, count_append]
    omega
  · have := h.stored l
    have := flatMap_set (f := Worker.committed) l { phase } hwk
    have hnone : Worker.committed { phase } = [] := rfl
    simp only [effect, refillLogs, hpersisted, hnone, count_append, count_nil] at *
    omega
  · simp only [parts, effect, map_append, mem_append] at hp
    have hcases : p ∈ phase.parts e ∨ p ∈ w.parts := by
      rcases hp with hp | hp | hp
      · rcases mem_flatMap_set hp with hp | hp
        · exact .inl (mem_append_left _ hp)
        · exact .inr (mem_append_left _ hp)
      · exact .inr (mem_append_right _ hp)
      · exact .inl (mem_append_right _ hp)
    rcases hcases with hp' | hp'
    · obtain ⟨q, hq, heq, hsub⟩ := hparts p hp'
      refine Covered.mono (q := q) ?_ heq hsub
      rcases mem_append.mp hq with hq | hq
      · refine (h.within q (mem_append_left _ ?_)).append _
        exact mem_flatMap.mpr ⟨wk, mem_of_getElem? hwk, hq⟩
      · exact covered_last hq
    · exact (h.within p hp').append _
  · have hold := h.numbered n
    have hnew := hnumbers n
    have hset := flatMap_set (f := fun wk : Worker => wk.phase.bisected.map Prod.fst) n
      { phase } hwk
    have hfree : ((e.failed.toList.map (w.failing.length, ·)).map Prod.fst).count n +
        (w.parts.map Prod.fst).count n ≤ 1 := by
      by_cases hn : n = w.failing.length
      · subst hn
        rw [h.count_number]
        cases e.failed <;> simp
      · cases e.failed <;> simp [Ne.symm hn, hold]
    simp only [parts, FlushPhase.parts, effect, map_append, map_flatMap, count_append] at *
    omega

/-- The database decides the call of worker `i`. -/
theorem inv_decide {phase : FlushPhase} (h : w.Inv) (hwk : w.workers[i]? = some ⟨phase, none⟩)
    (hcall : phase.call = some batch) :
    { w with
      workers := w.workers.set i ⟨phase, some ok⟩
      db := w.db ++ if ok then batch else [] : Recorder }.Inv := by
  have hparts := parts_set ⟨phase, some ok⟩ hwk rfl
  refine { h with
    placed := fun l => ?_, stored := fun l => ?_
    within := hparts ▸ h.within, numbered := hparts ▸ h.numbered
    idle := fun hr => by simp [(h.idle hr).2] at hwk
    unsharded := h.unsharded_set _ hwk }
  · have := h.placed l
    have := flatMap_set (f := fun wk : Worker => wk.phase.holds) l ⟨phase, some ok⟩ hwk
    simp only [flushing, count_append] at *
    omega
  · have := h.stored l
    have := flatMap_set (f := Worker.committed) l ⟨phase, some ok⟩ hwk
    have hcommitted : Worker.committed ⟨phase, some ok⟩ = if ok then batch else [] := by
      simp [Worker.committed, Worker.submitted, hcall]
    have hnone : Worker.committed ⟨phase, none⟩ = [] := rfl
    simp only [hcommitted, hnone, count_append, count_nil] at *
    omega

/-- A worker leaves its call behind. -/
theorem inv_escape {s : List LogRef} {outcome : Option Bool} (h : w.Inv)
    (hwk : w.workers[i]? = some ⟨.insert batch s, outcome⟩) :
    { w.retainInflight batch with
      escaped := w.escaped ++ [⟨batch, outcome⟩]
      workers := w.workers.set i { phase := .refill [s] } : Recorder }.Inv := by
  have hparts := parts_set { phase := .refill [s] } hwk rfl
  refine { h with
    placed := fun l => ?_, counted := ?_, retained := fun l => ?_, blocked := fun l => ?_
    stored := fun l => ?_, within := hparts ▸ h.within, numbered := hparts ▸ h.numbered
    idle := fun hr => by simp [(h.idle hr).2] at hwk
    unsharded := h.unsharded_set _ hwk }
  · have := h.placed l
    have := flatMap_set (f := fun wk : Worker => wk.phase.holds) l
      { phase := .refill [s] } hwk
    simp only [retainInflight, flushing, FlushPhase.holds, flatten_cons, flatten_nil, append_nil,
      count_append] at *
    omega
  · simp [retainInflight, h.counted]
  · simpa [retainInflight] using h.retained l
  · simp [retainInflight, h.blocked l]
  · have := h.stored l
    have := flatMap_set (f := Worker.committed) l { phase := .refill [s] } hwk
    have hnone : Worker.committed { phase := .refill [s] } = [] := rfl
    have hcall : committed ⟨batch, outcome⟩ =
        Worker.committed ⟨.insert batch s, outcome⟩ := rfl
    simp only [retainInflight, hcall, hnone, flatMap_append, flatMap_cons, flatMap_nil,
      count_append, count_nil] at *
    omega

theorem inv_finish (h : w.Inv) (hdone : ∀ wk ∈ w.workers, wk.phase = .done)
    (hswapped : w.swapped = []) : { w with workers := [], run := none : Recorder }.Inv := by
  have hholds : w.workers.flatMap (·.phase.holds) = [] :=
    flatMap_eq_nil_iff.mpr fun wk hwk => by rw [hdone wk hwk]; rfl
  have hcommitted : w.workers.flatMap Worker.committed = [] :=
    flatMap_eq_nil_iff.mpr fun wk hwk => by
      simp [Worker.committed, Worker.submitted, hdone wk hwk, FlushPhase.call]
  have hparts : w.workers.flatMap (·.phase.bisected) = [] :=
    flatMap_eq_nil_iff.mpr fun wk hwk => by rw [hdone wk hwk]; rfl
  refine { h with
    placed := fun l => ?_, stored := fun l => ?_, within := fun p hp => ?_, numbered := fun n => ?_
    idle := fun _ => ⟨hswapped, rfl⟩, sharded := nofun, unsharded := nofun }
  · simpa [flushing, hholds] using h.placed l
  · simpa [hcommitted] using h.stored l
  · apply h.within p
    simpa [parts, hparts] using hp
  · simpa [parts, hparts] using h.numbered n

/-- The database decides a call that was left behind. -/
theorem inv_decideLate {j : Nat} (h : w.Inv) (hcall : w.escaped[j]? = some ⟨batch, none⟩) :
    { w with
      escaped := w.escaped.set j ⟨batch, some ok⟩
      db := w.db ++ if ok then batch else [] : Recorder }.Inv := by
  have hbatch := flatMap_set_of_eq (f := EscapedCall.batch) ⟨batch, some ok⟩ hcall rfl
  refine { h with retained := hbatch ▸ h.retained, blocked := hbatch ▸ h.blocked
                  stored := fun l => ?_ }
  have := h.stored l
  have := flatMap_set (f := committed) l ⟨batch, some ok⟩ hcall
  have hcommitted : committed ⟨batch, some ok⟩ = if ok then batch else [] := by
    simp [committed]
  have hnone : committed ⟨batch, none⟩ = [] := rfl
  simp only [hcommitted, hnone, count_append, count_nil] at *
  omega

section
variable {j : Nat} {batch : List LogRef} {outcome : Option Bool}

/-- A log of a call left behind is pending, once, and in no other call left behind. -/
theorem Inv.count_batch (h : w.Inv) (hcall : w.escaped[j]? = some ⟨batch, outcome⟩) {l : LogRef}
    (hl : l ∈ batch) : batch.count l = 1 ∧ w.pending.count l = 1 ∧
      ((w.escaped.eraseIdx j).flatMap EscapedCall.batch).count l = 0 := by
  have hpos := count_pos_iff.mpr hl
  have herase := flatMap_eraseIdx (f := EscapedCall.batch) l hcall
  have hretained := h.retained l
  have hplaced := h.placed l
  have hrecorded := h.count_recorded_le l
  dsimp only at herase
  omega

theorem Inv.blocked_erase (h : w.Inv) (hcall : w.escaped[j]? = some ⟨batch, outcome⟩)
    (l : LogRef) : l ∈ w.inflight.filter (· ∉ batch) ↔
      l ∈ (w.escaped.eraseIdx j).flatMap EscapedCall.batch := by
  have herase := flatMap_eraseIdx (f := EscapedCall.batch) l hcall
  by_cases hl : l ∈ batch
  · have hgone := count_eq_zero.mp (h.count_batch hcall hl).2.2
    simp [hl, hgone]
  · have hzero := count_eq_zero.mpr hl
    simp only [mem_filter, h.blocked l, hl, not_false_eq_true, decide_true, and_true]
    rw [← count_pos_iff, ← count_pos_iff]
    dsimp only at herase
    omega

theorem inv_removeAfterInsert {ok : Bool} (h : w.Inv)
    (hcall : w.escaped[j]? = some ⟨batch, some ok⟩) :
    { w.removeAfterInsert batch ok with escaped := w.escaped.eraseIdx j : Recorder }.Inv := by
  have herase := fun l => flatMap_eraseIdx (f := EscapedCall.batch) l hcall
  have hcommitted := fun l => flatMap_eraseIdx (f := committed) l hcall
  have hkept : ∀ l, (w.pending.filter (· ∉ batch)).count l + batch.count l = w.pending.count l := by
    intro l
    by_cases hl : l ∈ batch
    · have hbatch := h.count_batch hcall hl
      have hzero : (w.pending.filter (· ∉ batch)).count l = 0 := by
        simp [count_eq_zero, hl]
      omega
    · rw [count_filter (by simpa using hl), count_eq_zero.mpr hl, Nat.add_zero]
  cases ok with
  | true =>
    refine { h with
      placed := fun l => ?_, counted := ?_, retained := fun l => ?_
      blocked := h.blocked_erase hcall, stored := fun l => ?_ }
    · have := h.placed l
      have := hkept l
      simp only [removeAfterInsert, if_true, flushing, count_append] at *
      omega
    · simp [removeAfterInsert, h.counted]
    · have := h.retained l
      have := hkept l
      have := herase l
      simp only [removeAfterInsert, if_true]
      dsimp only at *
      omega
    · have := h.stored l
      have := hcommitted l
      simp only [removeAfterInsert, if_true, committed, count_append] at *
      omega
  | false =>
    refine { h with
      retained := fun l => ?_, blocked := h.blocked_erase hcall, stored := fun l => ?_ }
    · have := h.retained l
      have := herase l
      simp only [removeAfterInsert, Bool.false_eq_true, if_false] at *
      omega
    · have := h.stored l
      have := hcommitted l
      simp only [removeAfterInsert, Bool.false_eq_true, if_false, committed, Option.some.injEq,
        count_nil] at *
      omega

end

theorem inv_step (op : RecorderOp) (h : w.Inv) : (step cfg w op).Inv := by
  cases op with
  | record userID => exact inv_record userID h
  | flushLogs base cancelled =>
    simp only [step]
    split
    · exact h
    · next hidle =>
      refine inv_swap base cancelled h ?_
      simp only [Bool.or_eq_true, not_or] at hidle
      simpa using hidle.1
  | cancel =>
    refine { h with
      idle := fun hr => h.idle (by simpa [step] using hr), sharded := ?_, unsharded := ?_ }
    all_goals
      intro r hr
      obtain ⟨r', hr', rfl⟩ := Option.map_eq_some_iff.mp hr
    · exact h.sharded r' hr'
    · exact h.unsharded r' hr'
  | shard =>
    simp only [step]
    split
    · next hrun => exact inv_refillLogs_swapped h (h.unsharded _ hrun rfl)
    · next hrun => exact inv_shard cfg h hrun
    · exact h
  | worker i =>
    simp only [step]
    split
    · next r wk hrun hwk => exact inv_worker cfg r.cancelled h (by simp [hrun]) hwk
    · exact h
  | decide i ok =>
    simp only [step]
    split
    · next phase hwk =>
      split
      · next batch hcall => exact inv_decide ok h hwk hcall
      · exact h
    · exact h
  | escape i =>
    simp only [step]
    split
    · next hwk => exact inv_escape h hwk
    · exact h
  | finish =>
    simp only [step]
    split
    · next hrun =>
      split
      · next hdone =>
        refine inv_finish h ?_ (h.sharded _ hrun rfl)
        simpa using hdone
      · exact h
    · exact h
  | decideLate j ok =>
    simp only [step]
    split
    · next hcall => exact inv_decideLate ok h hcall
    · exact h
  | removeAfterInsert j =>
    simp only [step]
    split
    · next hcall => exact inv_removeAfterInsert h hcall
    · exact h

/-- The books of the recorder.  `placed`: a log is in exactly one place.  `dropped`: a failed chunk
loses one log at most, and one of its own.  `submitted`: no log is in two calls whose result is
out.  The rows in the database are the persisted logs and logs of such calls, each once. -/
structure Accounted (w : Recorder) : Prop where
  placed : ∀ l ∈ w.recorded, w.persisted.count l + w.pending.count l + w.flushing.count l +
    (w.dropped.map Prod.snd).count l = 1
  counted : w.pendingN = w.pending.length
  dropped : (w.dropped.map Prod.fst).Nodup ∧
    ∀ d ∈ w.dropped, ∃ chunk, w.failing[d.1]? = some chunk ∧ d.2 ∈ chunk
  submitted : ∀ l, w.submitted.count l ≤ 1
  stored : ∀ l, w.db.count l ≤ 1
  persisted : w.persisted ⊆ w.db
  rows : ∀ l ∈ w.db, l ∈ w.persisted ∨ l ∈ w.submitted

theorem count_submitted_le (w : Recorder) (l : LogRef) :
    (w.workers.flatMap Worker.submitted).count l ≤ w.flushing.count l := by
  have := flatMap_le_flatMap (l := w.workers) (f := Worker.submitted)
    (g := fun wk => wk.phase.holds) l fun wk _ => wk.count_submitted_le l
  simp only [flushing, count_append]
  omega

theorem count_committed_le (w : Recorder) (l : LogRef) :
    (w.workers.flatMap Worker.committed).count l +
      (w.escaped.flatMap committed).count l ≤ w.submitted.count l := by
  have hworkers := flatMap_le_flatMap (l := w.workers) l
    fun wk _ => wk.count_committed_le l
  have hescaped := flatMap_le_flatMap (l := w.escaped) l
    fun c _ => c.count_committed_le l
  simp only [submitted, count_append]
  omega

theorem Inv.accounted (h : w.Inv) : w.Accounted := by
  have hsubmitted : ∀ l, w.persisted.count l + w.submitted.count l ≤ 1 := by
    intro l
    have := h.placed l
    have := h.count_recorded_le l
    have := h.retained l
    have := w.count_submitted_le l
    simp only [submitted, count_append]
    omega
  refine ⟨fun l hl => ?_, h.counted, ⟨?_, fun d hd => ?_⟩, fun l => ?_, fun l => ?_, fun l hl => ?_,
    fun l hl => ?_⟩
  · have := count_pos_iff.mpr hl
    have := h.placed l
    have := h.count_recorded_le l
    omega
  · refine nodup_iff_count_le_one.mpr fun n => ?_
    have := h.numbered n
    simp only [parts, map_append, map_map, count_append] at this
    exact Nat.le_trans (Nat.le_add_left _ _) this
  · obtain ⟨chunk, hchunk, hsub⟩ := h.within (d.1, [d.2]) (by simpa [parts] using .inr hd)
    exact ⟨chunk, hchunk, hsub (by simp)⟩
  · have := hsubmitted l
    omega
  · have := h.stored l
    have := w.count_committed_le l
    have := hsubmitted l
    omega
  · have := count_pos_iff.mpr hl
    have := h.stored l
    exact count_pos_iff.mp (by omega)
  · have := count_pos_iff.mpr hl
    have := h.stored l
    have := w.count_committed_le l
    by_cases hp : l ∈ w.persisted
    · exact .inl hp
    · have := count_eq_zero.mpr hp
      exact .inr (count_pos_iff.mp (by omega))

theorem states_accounted (cfg : RecorderConfig) (ops : List RecorderOp) :
    ∀ w ∈ Run.states (step cfg) {} ops, w.Accounted := by
  intro w hw
  exact (Run.states_inv Inv (fun w op => inv_step cfg op) inv_new w hw).accounted

/-- An insert is left behind when the caller's context ends; its log is pending again, and then the
insert commits. -/
def escapedRun : List RecorderOp :=
  [.record 7, .flushLogs false false, .shard, .worker 0, .cancel, .escape 0, .worker 0, .worker 0,
    .finish, .decideLate 0 true]

theorem states_accounted_escaped :
    let w := escapedRun.foldl (step (.new 1 500)) {}
    w.run = none ∧ w.pending = [⟨0, 7⟩] ∧ w.db = [⟨0, 7⟩] ∧ w.persisted = [] ∧ w.Accounted :=
  ⟨by decide, by decide, by decide, by decide,
    states_accounted (.new 1 500) escapedRun _ Run.foldl_mem_states⟩

/-- No worker learns by this step that the last row of a bisection has failed. -/
def lastRowHolds (w : Recorder) : RecorderOp → Bool
  | .worker i =>
    match w.run, w.workers[i]? with
    | some _, some wk => !wk.lastRowFailed
    | _, _ => true
  | _ => true

theorem step_dropped_iff (op : RecorderOp) (h : w.dropped = []) :
    (step cfg w op).dropped = [] ↔ w.lastRowHolds op := by
  cases op with
  | worker i =>
    rcases hrun : w.run with _ | r
    · simp [step, lastRowHolds, hrun, h]
    rcases hwk : w.workers[i]? with _ | wk
    · simp [step, lastRowHolds, hwk, h]
    simp only [step, lastRowHolds, hrun, hwk, effect, h,
      ← wk.advance_dropped cfg r.cancelled w.failing.length]
    cases (wk.advance cfg r.cancelled w.failing.length).2.dropped <;> simp
  | removeAfterInsert j =>
    simp only [step, lastRowHolds]
    split
    · next ok hcall => cases ok <;> simp [removeAfterInsert, h]
    · simp [h]
  | _ =>
    simp only [step, lastRowHolds]
    repeat' split
    all_goals simp [record, swap, refillLogs, retainInflight, h]

theorem Inv.persisted_or_pending (h : w.Inv) (hnone : w.dropped = []) (hrun : w.run = none) :
    ∀ l ∈ w.recorded, l ∈ w.persisted ∨ l ∈ w.pending := by
  intro l hl
  have hpos := count_pos_iff.mpr hl
  have hplaced := h.placed l
  simp only [flushing, h.idle hrun, hnone, flatMap_nil, append_nil, map_nil, count_nil] at hplaced
  rw [← count_pos_iff, ← count_pos_iff]
  omega

/-- Every log is persisted or pending when no run of `flushLogs` is on, and none is dropped, exactly
in the runs in which no last row of a bisection fails. -/
theorem states_dropped_iff (cfg : RecorderConfig) (ops : List RecorderOp) :
    (∀ w ∈ Run.states (step cfg) {} ops,
      w.dropped = [] ∧ (w.run = none → ∀ l ∈ w.recorded, l ∈ w.persisted ∨ l ∈ w.pending)) ↔
      Run.Each (step cfg) (fun w op => w.lastRowHolds op) {} ops := by
  have hinv : ∀ w ∈ Run.states (step cfg) {} ops, Inv w :=
    Run.states_inv Inv (fun w op => inv_step cfg op) inv_new
  rw [← Run.each_iff_states Inv (·.dropped = []) (fun w op h _ => inv_step cfg op h)
    (fun w op _ => step_dropped_iff cfg op) inv_new rfl]
  constructor
  · exact fun h w hw => (h w hw).1
  · exact fun h w hw => ⟨h w hw, (hinv w hw).persisted_or_pending (h w hw)⟩

/-- Two logs of one user in a batch; the database fails the batch, takes the first log, and fails
again. -/
def outageRun : List RecorderOp :=
  [.record 7, .record 7, .flushLogs true false, .shard, .worker 0, .decide 0 false, .worker 0,
    .decide 0 true, .worker 0, .decide 0 false, .worker 0, .worker 0, .worker 0, .finish]

theorem outageRun_drops :
    let w := outageRun.foldl (step (.new 1 500)) {}
    w.run = none ∧ w.persisted = [⟨0, 7⟩] ∧ w.pending = [] ∧ w.dropped = [(0, ⟨1, 7⟩)] := by
  decide

end Recorder
end C4Gateway
