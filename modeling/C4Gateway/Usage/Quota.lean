import C4Gateway.Lib.Int64
import C4Gateway.Lib.Run
import Mathlib.Data.List.Perm.Basic

/-! The token counts that the recorder keeps per key and writes back to `quota_used`.  `flushQuota`
takes the whole map in one critical section and then writes it in groups of keys; the counts of a
group whose `AddQuotaUsed` fails go back into the map, which the requests have been filling
meanwhile. -/

namespace C4Gateway

open List

def nonNegative (v : Int) : Int := if v < 0 then 0 else v

def saturatingAdd (a b : Int) : Int :=
  if b ≤ 0 then a
  else
    let a := if a < 0 then 0 else a
    if a > maxInt64 - b then maxInt64 else a + b

theorem nonNegative_nonneg (v : Int) : 0 ≤ nonNegative v := by
  unfold nonNegative
  omega

theorem saturatingAdd_nonneg {a b : Int} (ha : 0 ≤ a) : 0 ≤ saturatingAdd a b := by
  simp only [saturatingAdd, maxInt64]
  omega

theorem saturatingAdd_le {a b : Int} (ha : a ≤ maxInt64) : saturatingAdd a b ≤ maxInt64 := by
  simp only [saturatingAdd]
  omega

theorem saturatingAdd_of_le {a b : Int} (ha : 0 ≤ a) (hb : 0 ≤ b) (h : a + b ≤ maxInt64) :
    saturatingAdd a b = a + b := by
  simp only [saturatingAdd]
  omega

def quotaBatchSize : Nat := 500

/-- The run of `flushQuota` that holds `flushMu`: the map it has taken, and the keys with a count
that it has not written yet. -/
structure QuotaFlush where
  quota : Int → Int
  keys : List Int

/-- The quota part of the recorder.  `entries` are the keys of the map `quotaUsed`, a key without an
entry counts 0, and `quota` tells whether a writer is set.  The last two fields are history: the
deltas that `AddQuotaUsed` has stored, and the token counts recorded per key. -/
structure QuotaBook where
  quota : Bool := true
  entries : List Int := []
  quotaUsed : Int → Int := fun _ => 0
  flush : Option QuotaFlush := none
  written : List (Int × Int) := []
  recorded : Int → Int := fun _ => 0

/-- Records, flushes and the groups of a flush, in any order. -/
inductive QuotaBookOp where
  | record (keyID totalTokens : Int)
  | addQuota (keyID delta : Int)
  | flushQuota (order : List Int)
  | group (ok : Bool)

variable {quota : Int → Int}

namespace QuotaBook

def count (w : QuotaBook) (keyID tokens : Int) : QuotaBook :=
  { w with
    entries := if keyID ∈ w.entries then w.entries else keyID :: w.entries
    quotaUsed := Function.update w.quotaUsed keyID (saturatingAdd (w.quotaUsed keyID) tokens)
    recorded := Function.update w.recorded keyID (w.recorded keyID + tokens) }

/-- The refill after a failed write. -/
def refill (w : QuotaBook) (quota : Int → Int) (group : List Int) : QuotaBook :=
  { w with
    entries := w.entries ++ group.filter (· ∉ w.entries)
    quotaUsed := fun k =>
      if k ∈ group then wrapInt64 (w.quotaUsed k + quota k) else w.quotaUsed k }

/-- A record, a flush, or one group of a flush that fails or not. -/
def step (w : QuotaBook) : QuotaBookOp → QuotaBook
  | .record keyID totalTokens => if keyID > 0 then w.count keyID (nonNegative totalTokens) else w
  | .addQuota keyID delta => if keyID ≤ 0 ∨ delta ≤ 0 then w else w.count keyID delta
  | .flushQuota order =>
    -- A map is walked in any order.
    if w.flush.isSome ∨ ¬ order.Perm w.entries then w
    else
      let taken := { w with entries := [], quotaUsed := fun _ => 0 }
      if w.quota then
        { taken with flush := some ⟨w.quotaUsed, order.filter (w.quotaUsed · ≠ 0)⟩ }
      else taken
  | .group ok =>
    match w.flush with
    | none => w
    | some ⟨_, []⟩ => { w with flush := none }
    | some ⟨quota, keys⟩ =>
      let group := keys.take quotaBatchSize
      let rest := { w with flush := some ⟨quota, keys.drop quotaBatchSize⟩ }
      if ok then { rest with written := rest.written ++ group.map fun k => (k, quota k) }
      else rest.refill quota group

/-- The counts of a failed group and those that have arrived meanwhile fit in an `int64`. -/
def RefillFits (w : QuotaBook) : QuotaBookOp → Prop
  | .group false =>
    ∀ f ∈ w.flush, ∀ k ∈ f.keys.take quotaBatchSize, w.quotaUsed k + f.quota k ≤ maxInt64
  | _ => True

def counts (quota : Int → Int) (keys : List Int) (k : Int) : Int :=
  if k ∈ keys then quota k else 0

/-- What is taken out of the map and neither written nor given back. -/
def taken (w : QuotaBook) (k : Int) : Int :=
  match w.flush with
  | none => 0
  | some f => counts f.quota f.keys k

def pending (w : QuotaBook) (k : Int) : Int := w.quotaUsed k + w.taken k

def stored (w : QuotaBook) (k : Int) : Int := ((w.written.filter (·.1 = k)).map (·.2)).sum

/-- No delta of any key is negative, pending or written. -/
structure NonNeg (w : QuotaBook) : Prop where
  used : ∀ k, 0 ≤ w.quotaUsed k
  taken : ∀ k, 0 ≤ w.taken k
  written : ∀ e ∈ w.written, 0 ≤ e.2

/-- The counts recorded for a key are all accounted for, as long as they fit in an `int64`. -/
def Exact (w : QuotaBook) : Prop :=
  ∀ k, w.recorded k ≤ maxInt64 → w.stored k + w.pending k = w.recorded k

theorem taken_some {w : QuotaBook} {quota : Int → Int} {keys : List Int}
    (h : w.flush = some ⟨quota, keys⟩) (k : Int) : w.taken k = counts quota keys k := by
  simp [taken, h]

theorem taken_none {w : QuotaBook} (h : w.flush = none) (k : Int) : w.taken k = 0 := by
  simp [taken, h]

variable (w : QuotaBook)

@[simp] theorem count_taken (keyID tokens : Int) : (w.count keyID tokens).taken = w.taken := rfl

@[simp] theorem count_stored (keyID tokens : Int) : (w.count keyID tokens).stored = w.stored := rfl

theorem count_quotaUsed (keyID tokens k : Int) :
    (w.count keyID tokens).quotaUsed k =
      if k = keyID then saturatingAdd (w.quotaUsed keyID) tokens else w.quotaUsed k :=
  Function.update_apply ..

theorem count_recorded (keyID tokens k : Int) :
    (w.count keyID tokens).recorded k =
      if k = keyID then w.recorded keyID + tokens else w.recorded k :=
  Function.update_apply ..

/-- What a step of `flushQuota` after the swap does. -/
theorem group_cases (ok : Bool) :
    w.flush = none ∧ w.step (.group ok) = w ∨
    (∃ quota, w.flush = some ⟨quota, []⟩ ∧ w.step (.group ok) = { w with flush := none }) ∨
    ∃ quota keys, w.flush = some ⟨quota, keys⟩ ∧
      let rest := { w with flush := some ⟨quota, keys.drop quotaBatchSize⟩ }
      w.step (.group ok) =
        if ok then
          { rest with
            written := w.written ++ (keys.take quotaBatchSize).map fun k => (k, quota k) }
        else rest.refill quota (keys.take quotaBatchSize) := by
  obtain hf | ⟨quota, keys, hf⟩ : w.flush = none ∨ ∃ quota keys, w.flush = some ⟨quota, keys⟩ := by
    cases hf : w.flush with
    | none => exact .inl rfl
    | some f => exact .inr ⟨f.quota, f.keys, rfl⟩
  · exact .inl ⟨hf, by simp [step, hf]⟩
  · cases keys with
    | nil => exact .inr (.inl ⟨quota, hf, by simp [step, hf]⟩)
    | cons k keys => exact .inr (.inr ⟨quota, k :: keys, hf, by simp [step, hf]⟩)

theorem flushQuota_cases (order : List Int) :
    w.step (.flushQuota order) = w ∨
    w.flush = none ∧ order.Perm w.entries ∧
      w.step (.flushQuota order) =
        let taken := { w with entries := [], quotaUsed := fun _ => 0 }
        if w.quota then
          { taken with flush := some ⟨w.quotaUsed, order.filter (w.quotaUsed · ≠ 0)⟩ }
        else taken := by
  by_cases h : w.flush.isSome ∨ ¬ order.Perm w.entries
  · exact .inl (by simp [step, h])
  · refine .inr ⟨?_, ?_, by simp [step, h]⟩
    · simpa using fun hsome => h (.inl hsome)
    · exact not_not.mp fun hperm => h (.inr hperm)

/-- A key whose counts still fit in an `int64` has lost nothing. -/
structure Kept (w : QuotaBook) (k : Int) : Prop where
  used : 0 ≤ w.quotaUsed k
  taken : 0 ≤ w.taken k
  stored : 0 ≤ w.stored k
  sum : w.stored k + w.pending k = w.recorded k

/-- What was recorded for a key is flushed, being flushed or still in the book. -/
structure Inv (w : QuotaBook) : Prop where
  writer : w.quota = true
  nodup : w.entries.Nodup
  entry : ∀ k, w.quotaUsed k ≠ 0 → k ∈ w.entries
  le : ∀ k, w.quotaUsed k ≤ maxInt64
  flush : ∀ f ∈ w.flush, f.keys.Nodup ∧ ∀ k, f.quota k ≤ maxInt64
  kept : ∀ k, w.recorded k ≤ maxInt64 → w.Kept k

theorem inv_init : Inv {} where
  writer := rfl
  nodup := nodup_nil
  entry := fun _ h => absurd rfl h
  le := fun _ => by simp [maxInt64]
  flush := fun _ h => by simp at h
  kept := fun _ _ => ⟨le_rfl, le_rfl, le_rfl, rfl⟩

theorem Inv.count {w : QuotaBook} (h : w.Inv) (keyID : Int) {tokens : Int} (ht : 0 ≤ tokens) :
    (w.count keyID tokens).Inv where
  writer := h.writer
  nodup := by
    simp only [QuotaBook.count]
    split
    · exact h.nodup
    · exact nodup_cons.mpr ⟨‹_›, h.nodup⟩
  entry := fun k hk => by
    rw [count_quotaUsed] at hk
    simp only [QuotaBook.count]
    by_cases heq : k = keyID
    · subst heq
      split
      · assumption
      · exact mem_cons_self
    · rw [if_neg heq] at hk
      split
      · exact h.entry k hk
      · exact mem_cons_of_mem _ (h.entry k hk)
  le := fun k => by
    rw [count_quotaUsed]
    split
    · exact saturatingAdd_le (h.le keyID)
    · exact h.le k
  flush := h.flush
  kept := fun k hk => by
    rw [count_recorded] at hk
    by_cases heq : k = keyID
    · subst heq
      rw [if_pos rfl] at hk
      obtain ⟨hused, htaken, hstored, hsum⟩ := h.kept k (by omega)
      rw [pending] at hsum
      -- Nothing saturates: what is pending of the key is part of what was recorded.
      have hadd : (w.count k tokens).quotaUsed k = w.quotaUsed k + tokens := by
        rw [count_quotaUsed, if_pos rfl]
        exact saturatingAdd_of_le hused ht (by omega)
      refine ⟨by omega, by simpa using htaken, by simpa using hstored, ?_⟩
      rw [pending, count_recorded, if_pos rfl, hadd, count_taken, count_stored]
      omega
    · rw [if_neg heq] at hk
      obtain ⟨hused, htaken, hstored, hsum⟩ := h.kept k hk
      refine ⟨?_, by simpa using htaken, by simpa using hstored, ?_⟩
      · rwa [count_quotaUsed, if_neg heq]
      · rwa [pending, count_recorded, count_quotaUsed, if_neg heq, if_neg heq, count_taken,
          count_stored]

theorem Inv.flushQuota {w : QuotaBook} (h : w.Inv) (order : List Int) :
    (w.step (.flushQuota order)).Inv := by
  obtain hsame | ⟨hflush, hperm, hstep⟩ := flushQuota_cases w order
  · rwa [hsame]
  simp only [hstep, h.writer]
  refine ⟨rfl, nodup_nil, fun _ hk => absurd rfl hk, fun _ => by simp [maxInt64], ?_, ?_⟩
  · intro f hf
    obtain rfl := Option.some_inj.mp hf
    exact ⟨(hperm.nodup_iff.mpr h.nodup).filter _, h.le⟩
  · intro k hk
    have hkept := h.kept k hk
    have hsum := hkept.sum
    rw [pending, taken_none hflush] at hsum
    -- The whole map moves: a key that is not listed has nothing pending.
    have htaken : counts w.quotaUsed (order.filter (w.quotaUsed · ≠ 0)) k = w.quotaUsed k := by
      unfold counts
      split
      · rfl
      next hmem =>
        by_contra hne
        exact hmem (mem_filter.mpr ⟨hperm.mem_iff.mpr (h.entry k (Ne.symm hne)),
          by simpa using Ne.symm hne⟩)
    refine ⟨le_rfl, ?_, hkept.stored, ?_⟩
    · rw [taken_some rfl]
      exact htaken ▸ hkept.used
    · rw [pending, taken_some rfl]
      change w.stored k + (0 + _) = w.recorded k
      omega

theorem counts_nonneg {keys group : List Int} (hsub : group ⊆ keys) {k : Int}
    (h : 0 ≤ counts quota keys k) : 0 ≤ counts quota group k := by
  unfold counts at *
  split
  next hk =>
    rwa [if_pos (hsub hk)] at h
  · exact le_rfl

theorem counts_split (quota : Int → Int) {keys : List Int} (h : keys.Nodup) (n : Nat) (k : Int) :
    counts quota keys k = counts quota (keys.take n) k + counts quota (keys.drop n) k := by
  rw [← take_append_drop n keys] at h
  have hdisj : k ∈ keys.take n → k ∉ keys.drop n := fun htake hdrop =>
    (nodup_append.mp h).2.2 k htake k hdrop rfl
  have hmem : k ∈ keys ↔ k ∈ keys.take n ∨ k ∈ keys.drop n := by
    rw [← mem_append, take_append_drop]
  by_cases htake : k ∈ keys.take n
  · simp [counts, hmem, hdisj htake]
  · simp [counts, hmem, htake]

theorem sum_group {group : List Int} (h : group.Nodup) (k : Int) :
    (((group.map fun j => (j, quota j)).filter (·.1 = k)).map (·.2)).sum =
      counts quota group k := by
  induction group with
  | nil => rfl
  | cons j group ih =>
    obtain ⟨hj, hgroup⟩ := nodup_cons.mp h
    unfold counts at ih ⊢
    by_cases heq : j = k
    · subst heq
      simp [ih hgroup, hj]
    · simp [ih hgroup, heq, Ne.symm heq]

section
variable {w : QuotaBook} {keys : List Int} (h : w.Inv) (hf : w.flush = some ⟨quota, keys⟩)
include h hf

/-- The group at hand of a flush that has taken `quota`. -/
theorem Inv.flush_le : keys.Nodup ∧ ∀ k, quota k ≤ maxInt64 := h.flush _ hf

theorem Inv.writeOk :
    Inv { w with
      flush := some ⟨quota, keys.drop quotaBatchSize⟩
      written := w.written ++ (keys.take quotaBatchSize).map fun k => (k, quota k) } where
  writer := h.writer
  nodup := h.nodup
  entry := h.entry
  le := h.le
  flush := fun f hmem => by
    obtain rfl := Option.some_inj.mp hmem
    exact ⟨(h.flush_le hf).1.drop, (h.flush_le hf).2⟩
  kept := fun k hk => by
    obtain ⟨hused, htaken, hstored, hsum⟩ := h.kept k hk
    rw [pending] at hsum
    rw [taken_some hf] at htaken hsum
    have hsplit := counts_split quota (h.flush_le hf).1 quotaBatchSize k
    have hgroup := counts_nonneg (take_subset quotaBatchSize keys) htaken
    have hw : stored { w with
        flush := some ⟨quota, keys.drop quotaBatchSize⟩
        written := w.written ++ (keys.take quotaBatchSize).map fun k => (k, quota k) } k =
          w.stored k + counts quota (keys.take quotaBatchSize) k := by
      rw [stored, filter_append, map_append, sum_append, sum_group (h.flush_le hf).1.take]
      rfl
    refine ⟨hused, counts_nonneg (drop_subset ..) htaken, by rw [hw]; omega, ?_⟩
    rw [pending, taken_some rfl]
    change _ + (w.quotaUsed k + _) = w.recorded k
    omega

theorem Inv.writeFail :
    (refill { w with flush := some ⟨quota, keys.drop quotaBatchSize⟩ } quota
      (keys.take quotaBatchSize)).Inv where
  writer := h.writer
  nodup := by
    refine nodup_append.mpr ⟨h.nodup, (h.flush_le hf).1.take.filter _, ?_⟩
    rintro a ha b hb rfl
    exact (by simpa using (mem_filter.mp hb).2 : a ∉ w.entries) ha
  entry := fun k hk => by
    by_cases hmem : k ∈ w.entries
    · exact mem_append_left _ hmem
    · refine mem_append_right _ (mem_filter.mpr ⟨?_, by simpa using hmem⟩)
      by_contra hgroup
      simp only [refill, hgroup] at hk
      exact hmem (h.entry k hk)
  le := fun k => by
    simp only [refill]
    split
    · exact wrapInt64_le _
    · exact h.le k
  flush := fun f hmem => by
    obtain rfl := Option.some_inj.mp hmem
    exact ⟨(h.flush_le hf).1.drop, (h.flush_le hf).2⟩
  kept := fun k hk => by
    obtain ⟨hused, htaken, hstored, hsum⟩ := h.kept k hk
    rw [pending] at hsum
    rw [taken_some hf] at htaken hsum
    have hsplit := counts_split quota (h.flush_le hf).1 quotaBatchSize k
    have hgroup := counts_nonneg (take_subset quotaBatchSize keys) htaken
    have hrest := counts_nonneg (drop_subset quotaBatchSize keys) htaken
    have hu : (refill { w with flush := some ⟨quota, keys.drop quotaBatchSize⟩ } quota
        (keys.take quotaBatchSize)).quotaUsed k =
          w.quotaUsed k + counts quota (keys.take quotaBatchSize) k := by
      simp only [refill, counts] at hgroup ⊢
      split
      next hmem =>
        -- Both summands are part of what was recorded for the key, so the sum does not wrap.
        rw [if_pos hmem] at hgroup
        have hle : quota k ≤ counts quota keys k := by
          simp [counts, mem_of_mem_take hmem]
        change w.recorded k ≤ maxInt64 at hk
        exact wrapInt64_of_le (by omega) (by omega)
      · omega
    refine ⟨by rw [hu]; omega, hrest, hstored, ?_⟩
    rw [pending, taken_some rfl]
    change w.stored k + _ = w.recorded k
    omega

end

theorem Inv.step {w : QuotaBook} (h : w.Inv) (op : QuotaBookOp) : (w.step op).Inv := by
  cases op with
  | record keyID totalTokens =>
    simp only [QuotaBook.step]
    split
    · exact h.count keyID (nonNegative_nonneg totalTokens)
    · exact h
  | addQuota keyID delta =>
    simp only [QuotaBook.step]
    split
    · exact h
    · exact h.count keyID (by omega)
  | flushQuota order => exact h.flushQuota order
  | group ok =>
    obtain ⟨-, hstep⟩ | ⟨quota, hf, hstep⟩ | ⟨quota, keys, hf, hstep⟩ := group_cases w ok
    · rwa [hstep]
    · rw [hstep]
      refine ⟨h.writer, h.nodup, h.entry, h.le, fun f hmem => by simp at hmem, fun k hk => ?_⟩
      obtain ⟨hused, -, hstored, hsum⟩ := h.kept k hk
      refine ⟨hused, le_rfl, hstored, ?_⟩
      rw [pending, taken_some hf] at hsum
      exact hsum
    · rw [hstep]
      cases ok
      · exact h.writeFail hf
      · exact h.writeOk hf

theorem NonNeg.count {w : QuotaBook} (h : w.NonNeg) (keyID tokens : Int) :
    (w.count keyID tokens).NonNeg where
  used := fun k => by
    rw [count_quotaUsed]
    split
    · exact saturatingAdd_nonneg (h.used keyID)
    · exact h.used k
  taken := h.taken
  written := h.written

/-- Only the refill of a failed group can make a count negative. -/
theorem NonNeg.step_iff {w : QuotaBook} (hinv : w.Inv) (h : w.NonNeg) (op : QuotaBookOp) :
    (w.step op).NonNeg ↔ w.RefillFits op := by
  cases op with
  | record keyID totalTokens =>
    refine iff_of_true ?_ trivial
    simp only [QuotaBook.step]
    split
    · exact h.count ..
    · exact h
  | addQuota keyID delta =>
    refine iff_of_true ?_ trivial
    simp only [QuotaBook.step]
    split
    · exact h
    · exact h.count ..
  | flushQuota order =>
    refine iff_of_true ?_ trivial
    obtain hsame | ⟨-, -, hstep⟩ := flushQuota_cases w order
    · rwa [hsame]
    · simp only [hstep, hinv.writer]
      refine ⟨fun _ => le_rfl, fun k => ?_, h.written⟩
      rw [taken_some rfl, counts]
      split
      · exact h.used k
      · exact le_rfl
  | group ok =>
    obtain ⟨hf, hstep⟩ | ⟨quota, hf, hstep⟩ | ⟨quota, keys, hf, hstep⟩ := group_cases w ok
    · rw [hstep]
      exact iff_of_true h (by cases ok <;> simp [RefillFits, hf])
    · rw [hstep]
      exact iff_of_true ⟨h.used, fun _ => le_rfl, h.written⟩
        (by cases ok <;> simp [RefillFits, hf])
    · have hquota : ∀ k ∈ keys, 0 ≤ quota k := fun k hk => by
        have := h.taken k
        rwa [taken_some hf, counts, if_pos hk] at this
      have hrest : ∀ k, 0 ≤ counts quota (keys.drop quotaBatchSize) k := fun k =>
        counts_nonneg (drop_subset ..) (taken_some hf k ▸ h.taken k)
      rw [hstep]
      cases ok with
      | true =>
        refine iff_of_true ⟨h.used, hrest, fun e he => ?_⟩ trivial
        rcases mem_append.mp he with he | he
        · exact h.written e he
        · obtain ⟨k, hk, rfl⟩ := mem_map.mp he
          exact hquota k (mem_of_mem_take hk)
      | false =>
        simp only [RefillFits, hf, Option.mem_some_iff, forall_eq', Bool.false_eq_true, if_false]
        constructor
        · intro hnn k hk
          have hused := hnn.used k
          simp only [refill, if_pos hk] at hused
          by_contra hgt
          exact absurd hused (not_le.mpr (wrapInt64_neg_of_gt (hinv.le k)
            ((hinv.flush_le hf).2 k) (by omega)))
        · intro hfits
          refine ⟨fun k => ?_, hrest, h.written⟩
          simp only [refill]
          split
          next hk =>
            have := h.used k
            have := hquota k (mem_of_mem_take hk)
            rw [wrapInt64_of_le (by omega) (hfits k hk)]
            omega
          · exact h.used k

theorem nonNeg_init : NonNeg {} := ⟨fun _ => le_rfl, fun _ => le_rfl, fun _ h => by simp at h⟩

/-- In every run the counts of a key are accounted for as long as they fit, and no delta is ever
negative exactly if each failed group fits with the counts it meets on the way back. -/
theorem run_exact_and_nonNeg_iff (ops : List QuotaBookOp) :
    (∀ w ∈ Run.states step {} ops, w.Exact) ∧
      ((∀ w ∈ Run.states step {} ops, w.NonNeg) ↔ Run.Each step RefillFits {} ops) := by
  constructor
  · intro w hw k hk
    have hinv := Run.states_inv Inv (fun w op h => h.step op) inv_init w hw
    exact (hinv.kept k hk).sum
  · exact Run.each_iff_states Inv NonNeg (fun w op h _ => h.step op)
      (fun w op h hnn => hnn.step_iff h op) inv_init nonNeg_init

/-- A flush takes the largest count there is, one token more is recorded, and the write fails. -/
theorem refill_wraps :
    (([.record 1 maxInt64, .flushQuota [1], .record 1 1, .group false] : List QuotaBookOp).foldl
      step {}).quotaUsed 1 = minInt64 := by
  decide +kernel

end QuotaBook
end C4Gateway
