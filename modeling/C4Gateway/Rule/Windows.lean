import C4Gateway.Lib.Count
import C4Gateway.Lib.Ring
import C4Gateway.Scheduler.Breaker
import Mathlib.Tactic.Linarith
import Mathlib.Tactic.Ring

/-! The sliding windows of the rule engine: per account, the results of the last seconds in a ring
of buckets of equal width.  Times are nanoseconds since the zero time, which is what `Truncate` goes
by. -/

namespace C4Gateway

open Option
open Function (update update_of_ne update_self)

def second : Int := 1000000000

/-- The counter that a result goes to. -/
inductive Tally where
  | ok
  | failure
  | t429
  deriving DecidableEq, Repr

def ResultKind.tally : ResultKind → Tally
  | .ok => .ok
  | .err429 => .t429
  | .err4xx | .err5xx | .network => .failure

structure WinCounts where
  ok : Nat := 0
  failure : Nat := 0
  t429 : Nat := 0
  deriving DecidableEq, Repr

namespace WinCounts

def total (c : WinCounts) : Nat := c.ok + c.failure + c.t429

def bump (c : WinCounts) : Tally → WinCounts
  | .ok => { c with ok := c.ok + 1 }
  | .failure => { c with failure := c.failure + 1 }
  | .t429 => { c with t429 := c.t429 + 1 }

def add (c d : WinCounts) : WinCounts := ⟨c.ok + d.ok, c.failure + d.failure, c.t429 + d.t429⟩

def get (c : WinCounts) : Tally → Nat
  | .ok => c.ok
  | .failure => c.failure
  | .t429 => c.t429

@[simp] theorem get_zero (t : Tally) : ({} : WinCounts).get t = 0 := by cases t <;> rfl

@[simp] theorem get_add (c d : WinCounts) (t : Tally) : (c.add d).get t = c.get t + d.get t := by
  cases t <;> rfl

@[simp] theorem get_bump (c : WinCounts) (t t' : Tally) :
    (c.bump t).get t' = c.get t' + if t = t' then 1 else 0 := by
  cases t <;> cases t' <;> rfl

end WinCounts

def defaultWindowSeconds : Int := 60

def ringBuckets : Int := 6

def bucketWidths : List Int := [1, 5, 10, 15, 30, 60, 300, 600, 900, 1800, 3600].map (· * second)

/-- The width of a bucket and the number of full ones. -/
def bucketWidth (maxWindow : Int) : Int × Int :=
  match bucketWidths.find? fun w => maxWindow % w = 0 ∧ maxWindow / w ≤ ringBuckets with
  | some w => (w, maxWindow / w)
  | none =>
    let width := maxWindow / ringBuckets + if maxWindow % ringBuckets ≠ 0 then second else 0
    let width := if width < second then second else width
    (width, (wrapInt64 (maxWindow + width - 1)).tdiv width)

theorem bucketWidth_pos (maxWindow : Int) : 0 < (bucketWidth maxWindow).1 := by
  unfold bucketWidth
  split
  next w hw =>
    have hmem := List.mem_of_find?_eq_some hw
    have hall : ∀ w ∈ bucketWidths, 0 < w := by decide
    exact hall w hmem
  · dsimp only
    unfold second
    omega

/-- A map without an entry for an account counts 0 for it. -/
structure WindowMap where
  width : Int
  buckets : Ring (Int → WinCounts)
  nextAt : Option Int := none
  trackOK : Bool
  lastSeen : Int → Option Int := fun _ => none
  retention : Int
  width_pos : 0 < width

namespace WindowMap

/-- `none` is the panic of `make` on a negative length. -/
def reset (maxWindow : Int) (trackOK : Bool) : Option WindowMap :=
  let maxWindow := if maxWindow ≤ 0 then defaultWindowSeconds * second else maxWindow
  let width := (bucketWidth maxWindow).1
  let n := (bucketWidth maxWindow).2
  let retention := wrapInt64 (2 * (n + 1) * width)
  if n < 0 then none
  else some
    { width
      buckets := ⟨List.replicate (n.toNat + 1) fun _ => {}, 0, by simp⟩
      trackOK
      retention := if retention < 60 * second then 60 * second else retention
      width_pos := bucketWidth_pos maxWindow }

def advance (w : WindowMap) : WindowMap :=
  { w with buckets := w.buckets.push fun _ => {}, nextAt := w.nextAt.map (· + w.width) }

/-- The largest multiple of the width up to `t`. -/
def truncate (w : WindowMap) (t : Int) : Int := t - t % w.width

/-- The loop turns until `t` is before the end of the current bucket. -/
def advanceTo (w : WindowMap) (t : Int) : WindowMap :=
  match w.nextAt with
  | none => { w with nextAt := some (w.truncate t + w.width) }
  | some next => if t < next then w else advance^[((t - next) / w.width).toNat + 1] w

/-- How many buckets ago `t` was, counting from 1; `none` if the ring does not reach back. -/
def bucketOffset (w : WindowMap) (t : Int) : Option Nat :=
  let offset := ((w.nextAt.getD 0 - t + w.width - 1) / w.width).toNat
  if offset > w.buckets.size then none else some offset

/-- Counts a result in the bucket `i` turns ago. -/
def count (w : WindowMap) (i : Nat) (aid : Int) (kind : ResultKind) (t : Int) : WindowMap :=
  { w with
    buckets := w.buckets.modify i fun b => update b aid ((b aid).bump kind.tally)
    lastSeen :=
      if (w.lastSeen aid).all (t > ·) then update w.lastSeen aid (some t)
      else w.lastSeen }

def add (w : WindowMap) (aid : Int) (kind : ResultKind) (t : Int) : WindowMap :=
  let w := w.advanceTo t
  match w.bucketOffset t with
  | none => w
  | some offset => if !w.trackOK && kind = .ok then w else w.count (offset - 1) aid kind t

/-- The sum of the `n` latest buckets of the account. -/
def sum (w : WindowMap) (aid : Int) : Nat → WinCounts
  | 0 => {}
  | n + 1 => (w.sum aid n).add (((w.buckets.behind n).map (· aid)).getD {})

/-- The counts of the last `seconds`, in whole buckets. -/
def snapshot (w : WindowMap) (aid seconds t : Int) : WinCounts × WindowMap :=
  let w := w.advanceTo t
  let secs := wrapInt64 (seconds * second)
  if secs ≤ 0 then ({}, w)
  else
    let secs := min secs (wrapInt64 (w.buckets.size * w.width))
    let frac := t - w.truncate t
    let n : Int :=
      1 + if secs > frac then (wrapInt64 (secs - frac + w.width - 1)).tdiv w.width else 0
    (w.sum aid (min n w.buckets.size).toNat, w)

def stale (w : WindowMap) (now aid : Int) : Bool := (w.lastSeen aid).any (· ≤ now - w.retention)

/-- Accounts are looked at in the order of their last result, up to the first one that is fresh. -/
def cleanup (w : WindowMap) (now : Int) : WindowMap :=
  { w with
    lastSeen := fun aid => if w.stale now aid then none else w.lastSeen aid
    buckets := w.buckets.map fun b aid => if w.stale now aid then {} else b aid }

end WindowMap

/-- A result of an account, at the time it was recorded. -/
structure AccountResult where
  accountID : Int
  kind : ResultKind
  time : Int
  deriving DecidableEq, Repr

/-- How many results of an account and a counter are from `lo` on and before `hi`, leaving out those
up to `forgot`. -/
def tallied (evs : List AccountResult) (forgot aid : Int) (t : Tally) (lo hi : Int) : Nat :=
  evs.countP fun e =>
    e.accountID = aid ∧ e.kind.tally = t ∧ lo ≤ e.time ∧ e.time < hi ∧ forgot < e.time

theorem tallied_split (evs : List AccountResult) (forgot aid : Int) (t : Tally) (lo mid hi : Int) :
    tallied evs forgot aid t lo hi ≤
      tallied evs forgot aid t lo mid + tallied evs forgot aid t mid hi := by
  refine Count.countP_le_add fun e he => ?_
  simp only [decide_eq_true_eq] at he ⊢
  obtain ⟨haid, htally, hlo, hhi, hlate⟩ := he
  rcases lt_or_ge e.time mid with h | h
  · exact .inl ⟨haid, htally, hlo, h, hlate⟩
  · exact .inr ⟨haid, htally, h, hhi, hlate⟩

variable {evs : List AccountResult} {t : Tally}

theorem tallied_mono {forgot forgot' aid : Int} {lo lo' hi hi' : Int} (hf : forgot ≤ forgot')
    (hlo : lo' ≤ lo) (hhi : hi ≤ hi') :
    tallied evs forgot' aid t lo hi ≤ tallied evs forgot aid t lo' hi' := by
  refine List.countP_mono_left fun e _ he => ?_
  simp only [decide_eq_true_eq] at he ⊢
  obtain ⟨haid, htally, hge, hlt, hlate⟩ := he
  exact ⟨haid, htally, by omega, by omega, by omega⟩

theorem tallied_eq_zero {forgot aid : Int} {lo hi : Int}
    (h : ∀ e ∈ evs, lo ≤ e.time → e.time < hi → e.accountID = aid → e.time ≤ forgot) :
    tallied evs forgot aid t lo hi = 0 := by
  refine List.countP_eq_zero.mpr fun e he hp => ?_
  simp only [decide_eq_true_eq] at hp
  have := h e he hp.2.2.1 hp.2.2.2.1 hp.1
  omega

namespace WindowMap

/-- The buckets hold the results `evs` that they reach back to and that are later than `forgot`. -/
structure Counted (w : WindowMap) (forgot : Int) (evs : List AccountResult) : Prop where
  aligned : ∀ next ∈ w.nextAt, w.width ∣ next
  before : ∀ next ∈ w.nextAt, ∀ e ∈ evs, e.time < next
  cells : ∀ next ∈ w.nextAt, ∀ i b, w.buckets.behind i = some b → ∀ aid t,
    tallied evs forgot aid t (next - (i + 1) * w.width) (next - i * w.width) ≤ (b aid).get t

/-- The same, with the current bucket around `latest`. -/
structure Records (w : WindowMap) (forgot latest : Int) (evs : List AccountResult) : Prop
    extends w.Counted forgot evs where
  upto : ∀ e ∈ evs, e.time ≤ latest
  fresh : w.nextAt = none → ∀ e ∈ evs, e.time ≤ forgot
  current : ∀ next ∈ w.nextAt, next - w.width ≤ latest ∧ latest < next
  seen : ∀ e ∈ evs, forgot < e.time → ∃ last, w.lastSeen e.accountID = some last ∧ e.time ≤ last

variable (k : Nat) (w : WindowMap)

theorem truncate_le (t : Int) : w.truncate t ≤ t := by
  have := Int.emod_nonneg t w.width_pos.ne'
  unfold truncate
  omega

theorem lt_truncate_add (t : Int) : t < w.truncate t + w.width := by
  have := Int.emod_lt_of_pos t w.width_pos
  unfold truncate
  omega

theorem dvd_truncate (t : Int) : w.width ∣ w.truncate t :=
  Int.dvd_self_sub_emod

theorem iterate_advance_same {β : Type} (f : WindowMap → β) (hadvance : ∀ w, f (advance w) = f w)
    (w : WindowMap) (k : Nat) : f (advance^[k] w) = f w := by
  induction k with
  | zero => rfl
  | succ k ih => rw [Function.iterate_succ_apply', hadvance, ih]

@[simp] theorem iterate_advance_width : (advance^[k] w).width = w.width :=
  iterate_advance_same width (fun _ => rfl) w k

@[simp] theorem iterate_advance_lastSeen : (advance^[k] w).lastSeen = w.lastSeen :=
  iterate_advance_same lastSeen (fun _ => rfl) w k

theorem iterate_advance_nextAt : (advance^[k] w).nextAt = w.nextAt.map (· + k * w.width) := by
  induction k with
  | zero => simp
  | succ k ih =>
    rw [Function.iterate_succ_apply']
    change (advance^[k] w).nextAt.map (· + (advance^[k] w).width) = _
    rw [ih, iterate_advance_width, map_map]
    congr 1
    funext x
    simp only [Function.comp]
    push_cast
    ring

theorem advanceTo_of_lt {next t : Int} (hnext : w.nextAt = some next) (hlt : t < next) :
    w.advanceTo t = w := by
  simp only [advanceTo, hnext, hlt, if_true]

theorem exists_next (t : Int) : ∃ next, (w.advanceTo t).nextAt = some next ∧ t < next := by
  unfold advanceTo
  split
  · exact ⟨_, rfl, w.lt_truncate_add t⟩
  next next hnext =>
    split
    next hlt => exact ⟨next, hnext, hlt⟩
    next hge =>
      have hgt := Int.lt_ediv_add_one_mul_self (t - next) w.width_pos
      rw [iterate_advance_nextAt, hnext]
      refine ⟨_, rfl, ?_⟩
      push_cast
      rw [Int.toNat_of_nonneg (Int.ediv_nonneg (by omega) w.width_pos.le)]
      linarith

section
variable {w : WindowMap} {forgot latest : Int}

theorem Counted.advance (h : w.Counted forgot evs) : w.advance.Counted forgot evs := by
  have hw := w.width_pos
  refine ⟨?_, ?_, ?_⟩
  · rintro _ hnext
    obtain ⟨next, hmem, rfl⟩ := map_eq_some_iff.mp hnext
    exact Int.dvd_add (h.aligned next hmem) (dvd_refl _)
  · rintro _ hnext e he
    obtain ⟨next, hmem, rfl⟩ := map_eq_some_iff.mp hnext
    have := h.before next hmem e he
    omega
  · rintro _ hnext i b hb aid t
    obtain ⟨next, hmem, rfl⟩ := map_eq_some_iff.mp hnext
    change tallied evs forgot aid t (next + w.width - (i + 1) * w.width)
      (next + w.width - i * w.width) ≤ (b aid).get t
    cases i with
    | zero =>
      -- The bucket is new, and no result is as late as it.
      have hnone : tallied evs forgot aid t (next + w.width - ((0 : Nat) + 1) * w.width)
          (next + w.width - (0 : Nat) * w.width) = 0 := by
        refine tallied_eq_zero fun e he hlo _ _ => ?_
        have := h.before next hmem e he
        simp only [Nat.cast_zero, zero_add, one_mul] at hlo
        omega
      rw [hnone]
      exact Nat.zero_le _
    | succ i =>
      have hsize : i + 1 < w.buckets.size := by
        simpa [WindowMap.advance] using Ring.lt_of_behind hb
      have hold : w.buckets.behind i = some b := by
        rw [← hb]
        exact (Ring.behind_push_succ _ hsize).symm
      have hlo : next + w.width - ((i + 1 : Nat) + 1) * w.width = next - (i + 1) * w.width := by
        push_cast
        ring
      have hhi : next + w.width - (i + 1 : Nat) * w.width = next - i * w.width := by
        push_cast
        ring
      rw [hlo, hhi]
      exact h.cells next hmem i b hold aid t

theorem Counted.iterate_advance (h : w.Counted forgot evs) (k : Nat) :
    (WindowMap.advance^[k] w).Counted forgot evs := by
  induction k with
  | zero => exact h
  | succ k ih =>
    rw [Function.iterate_succ_apply']
    exact ih.advance

/-- The ring moves on to a time that is not before the results so far. -/
theorem Records.advanceTo (h : w.Records forgot latest evs) {t : Int} (ht : latest ≤ t) :
    (w.advanceTo t).Records forgot t evs := by
  have hupto : ∀ e ∈ evs, e.time ≤ t := fun e he => (h.upto e he).trans ht
  have hw := w.width_pos
  cases hnext : w.nextAt with
  | none =>
    have heq : w.advanceTo t = { w with nextAt := some (w.truncate t + w.width) } := by
      simp only [WindowMap.advanceTo, hnext]
    have htrunc := w.truncate_le t
    have hlt := w.lt_truncate_add t
    rw [heq]
    refine ⟨⟨?_, ?_, ?_⟩, hupto, ?_, ?_, h.seen⟩
    · rintro _ ⟨⟩
      exact Int.dvd_add (w.dvd_truncate t) (dvd_refl _)
    · rintro _ ⟨⟩ e he
      have := hupto e he
      omega
    · rintro _ ⟨⟩ i b hb aid tally
      rw [tallied_eq_zero fun e he _ _ _ => h.fresh hnext e he]
      exact Nat.zero_le _
    · exact fun hnone => by simp at hnone
    · rintro _ ⟨⟩
      dsimp only
      omega
  | some next =>
    by_cases hlt : t < next
    · rw [w.advanceTo_of_lt hnext hlt]
      refine ⟨h.toCounted, hupto, h.fresh, fun _ hmem => ?_, h.seen⟩
      obtain rfl := some_inj.mp (hnext.symm.trans hmem)
      have := h.current next hmem
      omega
    · have heq : w.advanceTo t =
          WindowMap.advance^[((t - next) / w.width).toNat + 1] w := by
        simp only [WindowMap.advanceTo, hnext, hlt, if_false]
      have hturns : (((t - next) / w.width).toNat : Int) = (t - next) / w.width :=
        Int.toNat_of_nonneg (Int.ediv_nonneg (by omega) hw.le)
      have hle := Int.ediv_mul_le (t - next) hw.ne'
      have hgt := Int.lt_ediv_add_one_mul_self (t - next) hw
      have hnext' := iterate_advance_nextAt (((t - next) / w.width).toNat + 1) w
      rw [hnext, map_some] at hnext'
      rw [heq]
      refine ⟨h.toCounted.iterate_advance _, hupto, fun hnone => ?_, fun _ hmem => ?_, ?_⟩
      · rw [hnext'] at hnone
        cases hnone
      · obtain rfl := some_inj.mp (hnext'.symm.trans hmem)
        rw [iterate_advance_width]
        push_cast
        rw [hturns]
        constructor <;> linarith
      · rw [iterate_advance_lastSeen]
        exact h.seen

/-- What every turn of the ring leaves alone, `advanceTo` leaves alone. -/
theorem advanceTo_same {β : Type} (f : WindowMap → β)
    (hadvance : ∀ w, f (WindowMap.advance w) = f w)
    (hnext : ∀ w next, f { w with nextAt := next } = f w) (w : WindowMap) (t : Int) :
    f (w.advanceTo t) = f w := by
  unfold WindowMap.advanceTo
  split
  · exact hnext ..
  · split
    · rfl
    · exact iterate_advance_same f hadvance w _

@[simp] theorem advanceTo_trackOK (t : Int) : (w.advanceTo t).trackOK = w.trackOK :=
  advanceTo_same trackOK (fun _ => rfl) (fun _ _ => rfl) w t

@[simp] theorem advanceTo_width (t : Int) : (w.advanceTo t).width = w.width :=
  advanceTo_same width (fun _ => rfl) (fun _ _ => rfl) w t

@[simp] theorem advanceTo_size (t : Int) : (w.advanceTo t).buckets.size = w.buckets.size :=
  advanceTo_same (·.buckets.size) (fun _ => Ring.size_push _) (fun _ _ => rfl) w t

theorem bucketOffset_current {next t : Int} (hnext : w.nextAt = some next)
    (hge : next - w.width ≤ t) (hlt : t < next) : w.bucketOffset t = some 1 := by
  have hw := w.width_pos
  have hone : (next - t + w.width - 1) / w.width = 1 := by
    have hlow : 1 ≤ (next - t + w.width - 1) / w.width :=
      Int.le_ediv_of_mul_le hw (by omega)
    have hhigh : (next - t + w.width - 1) / w.width < 2 :=
      Int.ediv_lt_of_lt_mul hw (by omega)
    omega
  have hsize := w.buckets.size_pos
  simp only [bucketOffset, hnext, getD_some, hone]
  exact if_neg (by simpa using hsize.ne')

def tracks (w : WindowMap) (kind : ResultKind) : Bool := w.trackOK || kind ≠ .ok

theorem count_lastSeen (w : WindowMap) (i : Nat) (aid : Int) (kind : ResultKind) (t : Int) :
    (∃ last, (w.count i aid kind t).lastSeen aid = some last ∧ t ≤ last) ∧
      ∀ a last, w.lastSeen a = some last →
        ∃ last', (w.count i aid kind t).lastSeen a = some last' ∧ last ≤ last' := by
  simp only [count]
  split
  next hall =>
    refine ⟨⟨t, update_self .., le_rfl⟩, fun a last hlast => ?_⟩
    by_cases ha : a = aid
    · subst ha
      refine ⟨t, update_self .., ?_⟩
      rw [hlast] at hall
      exact (by simpa using hall : last < t).le
    · exact ⟨last, by rw [update_of_ne ha, hlast], le_rfl⟩
  next hall =>
    refine ⟨?_, fun a last hlast => ⟨last, hlast, le_rfl⟩⟩
    cases hseen : w.lastSeen aid with
    | none => simp [hseen] at hall
    | some last => exact ⟨last, rfl, by simpa [hseen] using hall⟩

theorem Records.count {t next : Int} (h : w.Records forgot t evs) (hnext : w.nextAt = some next)
    (aid : Int) (kind : ResultKind) :
    (w.count 0 aid kind t).Records forgot t (evs ++ [⟨aid, kind, t⟩]) := by
  obtain ⟨hge, hlt⟩ := h.current next hnext
  obtain ⟨hself, hothers⟩ := count_lastSeen w 0 aid kind t
  have hmem : ∀ {e}, e ∈ evs ++ [⟨aid, kind, t⟩] → e ∈ evs ∨ e = ⟨aid, kind, t⟩ := by
    intro e he
    simpa using he
  refine ⟨⟨h.aligned, ?_, ?_⟩, ?_, ?_, h.current, ?_⟩
  · intro next' hnext' e he
    rcases hmem he with he | rfl
    · exact h.before next' hnext' e he
    · exact (h.current next' hnext').2
  · intro next' hnext' i b hb a tally
    obtain rfl := some_inj.mp (hnext.symm.trans hnext')
    have hi : i < w.buckets.size := by simpa [WindowMap.count] using Ring.lt_of_behind hb
    simp only [tallied, List.countP_append, List.countP_singleton, decide_eq_true_eq]
    change (w.buckets.modify 0 _).behind i = some b at hb
    rw [Ring.behind_modify _ w.buckets.size_pos hi] at hb
    change _ + _ ≤ _
    by_cases hzero : i = 0
    · subst hzero
      rw [if_pos rfl] at hb
      obtain ⟨b', hb', rfl⟩ := map_eq_some_iff.mp hb
      have hcell := h.cells next hnext 0 b' hb' a tally
      refine (Nat.add_le_add_right hcell _).trans ?_
      by_cases ha : a = aid
      · subst ha
        rw [update_self, WinCounts.get_bump]
        refine Nat.add_le_add_left ?_ _
        split
        next hin =>
          rw [if_pos hin.2.1]
        · exact Nat.zero_le _
      · rw [update_of_ne ha, if_neg (fun hin => ha hin.1.symm)]
        exact le_rfl
    · rw [if_neg (Ne.symm hzero)] at hb
      have hcell := h.cells next hnext i b hb a tally
      -- The new result is in the current bucket only.
      have hbehind : w.width ≤ i * w.width :=
        le_mul_of_one_le_left w.width_pos.le (by omega)
      rw [if_neg (fun hin => by have := hin.2.2.2.1; change t < next - i * w.width at this; omega)]
      exact hcell
  · intro e he
    rcases hmem he with he | rfl
    · exact h.upto e he
    · exact le_rfl
  · intro hnone
    exact absurd (hnext.symm.trans hnone) (by simp)
  · intro e he hlate
    rcases hmem he with he | rfl
    · obtain ⟨last, hlast, hle⟩ := h.seen e he hlate
      obtain ⟨last', hlast', hle'⟩ := hothers e.accountID last hlast
      exact ⟨last', hlast', hle.trans hle'⟩
    · exact hself

/-- A result that is not before the others goes to the current bucket. -/
theorem Records.add_eq (h : w.Records forgot latest evs) {t : Int} (ht : latest ≤ t) (aid : Int)
    (kind : ResultKind) : w.add aid kind t =
      if w.tracks kind then (w.advanceTo t).count 0 aid kind t else w.advanceTo t := by
  have h' := h.advanceTo ht
  obtain ⟨next, hnext, -⟩ := w.exists_next t
  obtain ⟨hge, hlt⟩ := h'.current next hnext
  have hoffset := bucketOffset_current hnext hge hlt
  simp only [WindowMap.add, hoffset, tracks]
  by_cases htrack : w.trackOK <;> by_cases hok : kind = .ok <;> simp [htrack]

theorem Records.add (h : w.Records forgot latest evs) {t : Int} (ht : latest ≤ t) (aid : Int)
    (kind : ResultKind) :
    (w.add aid kind t).Records forgot t
      (if w.tracks kind then evs ++ [⟨aid, kind, t⟩] else evs) := by
  have h' := h.advanceTo ht
  obtain ⟨next, hnext, -⟩ := w.exists_next t
  rw [h.add_eq ht]
  split
  · exact h'.count hnext aid kind
  · exact h'

/-- The `n` latest buckets hold every result from `n` widths before the end of the current one. -/
theorem Counted.le_sum {next : Int} (h : w.Counted forgot evs) (hnext : w.nextAt = some next)
    (aid : Int) (t : Tally) {n : Nat} (hn : n ≤ w.buckets.size) :
    tallied evs forgot aid t (next - n * w.width) next ≤ (w.sum aid n).get t := by
  induction n with
  | zero =>
    rw [tallied_eq_zero]
    · exact Nat.zero_le _
    · intro e _ hlo hhi _
      simp at hlo
      omega
  | succ n ih =>
    obtain ⟨b, hb⟩ := Ring.behind_of_lt (show n < w.buckets.size by omega)
    have hcell := h.cells next hnext n b hb aid t
    have hsplit := tallied_split evs forgot aid t (next - (n + 1 : Nat) * w.width)
      (next - n * w.width) next
    have hrest := ih (by omega)
    simp only [sum, hb, map_some, getD_some, WinCounts.get_add]
    push_cast at hsplit ⊢
    omega

/-- What the ring spans without the current bucket. -/
def span (w : WindowMap) : Int := (w.buckets.size - 1 : Int) * w.width

theorem truncate_eq {t next : Int} (hdvd : w.width ∣ next) (hge : next - w.width ≤ t)
    (hlt : t < next) : w.truncate t = next - w.width := by
  have hw := w.width_pos
  obtain ⟨k, rfl⟩ := hdvd
  have hmod : t % w.width = t - (w.width * k - w.width) := by
    rw [show t = t - (w.width * k - w.width) + w.width * (k - 1) by ring,
      Int.add_mul_emod_self_left,
      Int.emod_eq_of_lt (by omega) (by omega)]
    ring
  unfold truncate
  omega

/-- The counts are those of the least number of buckets that reaches back `seconds`. -/
theorem snapshot_eq {t seconds : Int} (hpos : 0 < seconds) (hspan : seconds * second ≤ w.span)
    (hfit : w.buckets.size * w.width ≤ maxInt64) (aid : Int) :
    ∃ n : Nat, (w.snapshot aid seconds t).1 = (w.advanceTo t).sum aid n ∧ n ≤ w.buckets.size ∧
      w.truncate t + w.width - n * w.width ≤ t - seconds * second := by
  have hw := w.width_pos
  have hsize := w.buckets.size_pos
  have hsecs : 0 < seconds * second := by unfold second; omega
  have hspan' : seconds * second ≤ w.buckets.size * w.width - w.width := by
    have hring : w.span = w.buckets.size * w.width - w.width := by unfold span; ring
    omega
  have hwrap : wrapInt64 (seconds * second) = seconds * second :=
    wrapInt64_of_le hsecs.le (by omega)
  have hcover : wrapInt64 (w.buckets.size * w.width) = w.buckets.size * w.width :=
    wrapInt64_of_le (by omega) hfit
  have hmin : min (seconds * second) (w.buckets.size * w.width) = seconds * second := by omega
  have hfrac := w.truncate_le t
  have htrunc : (w.advanceTo t).truncate t = w.truncate t := by
    simp [truncate]
  simp only [WindowMap.snapshot, hwrap, not_le.mpr hsecs, if_false, advanceTo_size, advanceTo_width,
    hcover, hmin, htrunc]
  generalize seconds * second = secs at *
  by_cases hlong : secs > t - w.truncate t
  · -- `k` buckets before the current one reach back, and `k - 1` do not.
    have hk0 : 0 ≤ (secs - (t - w.truncate t) + w.width - 1) / w.width :=
      Int.ediv_nonneg (by omega) hw.le
    have hk := Int.lt_ediv_add_one_mul_self (secs - (t - w.truncate t) + w.width - 1) hw
    have hklt : (secs - (t - w.truncate t) + w.width - 1) / w.width < w.buckets.size :=
      Int.ediv_lt_of_lt_mul hw (by omega)
    rw [if_pos hlong, wrapInt64_of_le (by omega) (by omega),
      Int.tdiv_eq_ediv_of_nonneg (by omega)]
    generalize (secs - (t - w.truncate t) + w.width - 1) / w.width = k at *
    refine ⟨(1 + k).toNat, by rw [min_eq_left (by omega)], by omega, ?_⟩
    rw [Int.toNat_of_nonneg (by omega)]
    linarith
  · rw [if_neg hlong]
    refine ⟨1, by rw [min_eq_left (by omega)]; rfl, hsize, ?_⟩
    omega

theorem Records.snapshot {t seconds : Int} (h : w.Records forgot latest evs)
    (ht : latest ≤ t) (hpos : 0 < seconds) (hspan : seconds * second ≤ w.span)
    (hfit : w.buckets.size * w.width ≤ maxInt64) (aid : Int) (tally : Tally) :
    tallied evs forgot aid tally (t - seconds * second) (t + 1) ≤
      (w.snapshot aid seconds t).1.get tally := by
  have h' := h.advanceTo ht
  obtain ⟨next, hnext, -⟩ := w.exists_next t
  obtain ⟨hge, hlt⟩ := h'.current next hnext
  have htrunc := truncate_eq (h'.aligned next hnext) hge hlt
  obtain ⟨n, hsum, hn, hreach⟩ := snapshot_eq hpos hspan hfit aid (t := t)
  rw [hsum]
  refine le_trans (tallied_mono le_rfl ?_ ?_)
    (h'.toCounted.le_sum hnext aid tally (by simpa using hn))
  · rw [advanceTo_width]
    simp only [truncate, advanceTo_width] at htrunc hreach
    omega
  · omega

/-- An account that is cleaned up has nothing later than the retention. -/
theorem Records.cleanup (h : w.Records forgot latest evs) (now : Int) :
    (w.cleanup now).Records (max forgot (now - w.retention)) latest evs := by
  have hforgot : ∀ {x : Int}, max forgot (now - w.retention) < x ↔
      forgot < x ∧ now - w.retention < x := max_lt_iff
  refine ⟨⟨h.aligned, h.before, ?_⟩, h.upto, ?_, h.current, ?_⟩
  · intro next hnext i b hb aid t
    obtain ⟨b', hb', rfl⟩ := map_eq_some_iff.mp ((Ring.behind_map ..).symm.trans hb)
    dsimp only
    split
    next hstale =>
      rw [tallied_eq_zero]
      · exact Nat.zero_le _
      · rintro e he - - rfl
        by_contra hlate
        obtain ⟨hlate, hfresh⟩ := hforgot.mp (not_le.mp hlate)
        obtain ⟨last, hlast, hle⟩ := h.seen e he hlate
        have : last ≤ now - w.retention := by simpa [stale, hlast] using hstale
        omega
    · exact (tallied_mono (le_max_left ..) le_rfl le_rfl).trans (h.cells next hnext i b' hb' aid t)
  · exact fun hnone e he => (h.fresh hnone e he).trans (le_max_left ..)
  · intro e he hlate
    obtain ⟨hlate, hfresh⟩ := hforgot.mp hlate
    obtain ⟨last, hlast, hle⟩ := h.seen e he hlate
    refine ⟨last, ?_, hle⟩
    have hkept : ¬ w.stale now e.accountID := by
      simp only [stale, hlast, any_some, decide_eq_true_eq]
      omega
    simp only [WindowMap.cleanup, hkept, Bool.false_eq_true, if_false, hlast]

theorem records_nil (hnext : w.nextAt = none) (forgot latest : Int) :
    w.Records forgot latest [] :=
  ⟨⟨by simp [hnext], by simp, by simp [hnext]⟩, by simp, by simp, by simp [hnext], by simp⟩

end

variable {next maxWindow : Int} (now aid : Int) (kind : ResultKind)

/-- A result has moved the ring to its time, so that a look at this time finds it there. -/
theorem advanceTo_add (t : Int) : (w.add aid kind t).advanceTo t = w.add aid kind t := by
  obtain ⟨next, hnext, hlt⟩ := w.exists_next t
  have hadd : (w.add aid kind t).nextAt = some next := by
    rw [← hnext]
    simp only [WindowMap.add]
    split
    · rfl
    · split <;> rfl
  exact advanceTo_of_lt _ hadd hlt

theorem snapshot_snd (aid seconds t : Int) : (w.snapshot aid seconds t).2 = w.advanceTo t := by
  simp only [WindowMap.snapshot]
  split <;> rfl

theorem add_shape (t : Int) :
    (w.add aid kind t).width = w.width ∧ (w.add aid kind t).buckets.size = w.buckets.size ∧
      (w.add aid kind t).trackOK = w.trackOK := by
  simp only [WindowMap.add]
  split
  · simp
  · split
    · simp
    · simp [WindowMap.count]

@[simp] theorem span_add (t : Int) : (w.add aid kind t).span = w.span := by
  obtain ⟨hwidth, hsize, -⟩ := add_shape w aid kind t
  simp only [span, hwidth, hsize]

@[simp] theorem size_cleanup : (w.cleanup now).buckets.size = w.buckets.size := Ring.size_map _

@[simp] theorem width_cleanup : (w.cleanup now).width = w.width := rfl

@[simp] theorem span_cleanup : (w.cleanup now).span = w.span := by
  simp only [span, size_cleanup]
  rfl

/-! ### What the ring has turned over -/

theorem behind_iterate_advance {k i : Nat} (hi : i < k) (hsize : i < w.buckets.size) :
    (advance^[k] w).buckets.behind i = some fun _ => {} := by
  induction k generalizing i with
  | zero => omega
  | succ k ih =>
    rw [Function.iterate_succ_apply']
    cases i with
    | zero => exact Ring.behind_push_zero _
    | succ i =>
      have hsame : (advance^[k] w).buckets.size = w.buckets.size :=
        iterate_advance_same (·.buckets.size) (fun _ => Ring.size_push _) w k
      rw [← ih (i := i) (by omega) (by omega)]
      exact Ring.behind_push_succ _ (by omega)

theorem behind_advanceTo {w : WindowMap} {t : Int} (hnext : w.nextAt = some next) {i : Nat}
    (hturned : next + i * w.width ≤ t) (hsize : i < w.buckets.size) :
    (w.advanceTo t).buckets.behind i = some fun _ => {} := by
  have hw := w.width_pos
  have hnonneg : 0 ≤ (i : Int) * w.width := Int.mul_nonneg (by omega) hw.le
  have hle : (i : Int) ≤ (t - next) / w.width := Int.le_ediv_of_mul_le hw (by omega)
  have hge : ¬ t < next := by omega
  simp only [WindowMap.advanceTo, hnext, hge]
  exact behind_iterate_advance w (by omega) hsize

/-- One result in the current bucket, and none before it. -/
theorem get_sum_le_one {w : WindowMap} {aid : Int} {n : Nat}
    (hcur : ∀ b, w.buckets.behind 0 = some b → (b aid).get t ≤ 1)
    (hold : ∀ i, 0 < i → i < n → ∀ b, w.buckets.behind i = some b → b aid = {}) :
    (w.sum aid n).get t ≤ 1 := by
  induction n with
  | zero => simp [sum]
  | succ n ih =>
    have hrest := ih fun i hi hn => hold i hi (by omega)
    simp only [sum]
    cases hb : w.buckets.behind n with
    | none => simpa using hrest
    | some b =>
      cases n with
      | zero => simpa [sum] using hcur b hb
      | succ n => simpa [hold (n + 1) (by omega) (by omega) b hb] using hrest

theorem snapshot_fst (aid seconds t : Int) :
    ∃ n : Nat, (w.snapshot aid seconds t).1 = (w.advanceTo t).sum aid n ∧ n ≤ w.buckets.size ∧
      (wrapInt64 (w.buckets.size * w.width) ≤ 0 → n ≤ 1) := by
  have hfrac := (w.advanceTo t).truncate_le t
  simp only [WindowMap.snapshot, advanceTo_size, advanceTo_width]
  split
  · exact ⟨0, rfl, by omega, by omega⟩
  · refine ⟨_, rfl, by omega, fun hwrap => ?_⟩
    omega

theorem add_mul_le_of_dvd {w x y n : Int} (hw : 0 < w) (hx : w ∣ x) (hy : w ∣ y)
    (h : x + n * w < y) : x + (n + 1) * w ≤ y := by
  obtain ⟨a, rfl⟩ := hx
  obtain ⟨b, rfl⟩ := hy
  have hlt : w * (a + n) < w * b := by linarith
  have : a + n + 1 ≤ b := lt_of_mul_lt_mul_left hlt hw.le
  have := mul_le_mul_of_nonneg_left this hw.le
  linarith

/-- Of two results, only the later one is seen at the start of its bucket, if the ring does not
reach back to the other one, or if the product that bounds a look wraps. -/
theorem snapshot_le_one {w : WindowMap} (hfresh : w.nextAt = none) {t₁ t₂ : Int} (hlt : t₁ < t₂)
    (hdvd : w.width ∣ t₂)
    (hfar : t₁ + w.span < t₂ ∨ wrapInt64 (w.buckets.size * w.width) ≤ 0) (aid seconds : Int) :
    (((w.add aid .network t₁).add aid .network t₂).snapshot aid seconds t₂).1.get .failure ≤ 1 := by
  have hw := w.width_pos
  have hsize := w.buckets.size_pos
  have h₀ : w.Records t₁ t₁ [] := records_nil hfresh t₁ t₁
  have h₁ := h₀.add le_rfl aid .network
  obtain ⟨hwidth, hsize₁, -⟩ := w.add_shape aid .network t₁
  have hnext : (w.add aid .network t₁).nextAt = some (w.truncate t₁ + w.width) := by
    rw [h₀.add_eq le_rfl]
    simp only [advanceTo, hfresh]
    split <;> rfl
  have hadd := h₁.add_eq hlt.le aid .network
  have htracks : (w.add aid .network t₁).tracks .network := by simp [tracks]
  rw [if_pos htracks] at hadd
  obtain ⟨n, hsum, hn, hwrap⟩ := snapshot_fst ((w.add aid .network t₁).add aid .network t₂)
    aid seconds t₂
  obtain ⟨hwidth₂, hsize₂, -⟩ := (w.add aid .network t₁).add_shape aid .network t₂
  rw [advanceTo_add] at hsum
  rw [hsize₂, hsize₁, hwidth₂, hwidth] at hwrap
  -- The ring has turned past every bucket that is looked at but the current one.
  have hturned : ∀ i : Nat, i < n ∨ i = 0 →
      w.truncate t₁ + w.width + i * w.width ≤ t₂ := by
    have hone : w.truncate t₁ + (0 + 1) * w.width ≤ t₂ :=
      add_mul_le_of_dvd hw (w.dvd_truncate t₁) hdvd (by have := w.truncate_le t₁; omega)
    intro i hi
    rcases hfar with hfar | hfar
    · have hall : w.truncate t₁ + ((w.buckets.size - 1 : Int) + 1) * w.width ≤ t₂ :=
        add_mul_le_of_dvd hw (w.dvd_truncate t₁) hdvd
          (by have := w.truncate_le t₁; unfold span at hfar; omega)
      have hle : ((i : Int) + 1) * w.width ≤ ((w.buckets.size - 1 : Int) + 1) * w.width :=
        mul_le_mul_of_nonneg_right (by omega) hw.le
      linarith
    · obtain rfl : i = 0 := by have := hwrap hfar; omega
      simpa using hone
  have hempty : ∀ i : Nat, i < n ∨ i = 0 → i < w.buckets.size →
      ((w.add aid .network t₁).advanceTo t₂).buckets.behind i = some fun _ => {} := fun i hi hlt =>
    behind_advanceTo hnext (by rw [hwidth]; exact hturned i hi) (by omega)
  have hcount : ∀ i : Nat, i < n ∨ i = 0 → i < w.buckets.size →
      ((w.add aid .network t₁).add aid .network t₂).buckets.behind i =
        some (if 0 = i then update (fun _ => {}) aid (({} : WinCounts).bump .failure)
          else fun _ => {}) := by
    intro i hi hlt
    rw [hadd]
    simp only [WindowMap.count]
    rw [Ring.behind_modify _ (by simpa [hsize₁] using hsize) (by simpa [hsize₁] using hlt),
      hempty i hi hlt]
    split <;> rfl
  rw [hsum]
  refine get_sum_le_one (fun b hb => ?_) fun i hpos hi b hb => ?_
  · rw [hcount 0 (.inr rfl) hsize] at hb
    obtain rfl := some_inj.mp hb
    simp [WinCounts.bump, WinCounts.get]
  · rw [hcount i (.inl hi) (by omega), if_neg (by omega)] at hb
    obtain rfl := some_inj.mp hb
    rfl

/-- What `reset` makes: an empty ring of the bucket width and number, next to the current one. -/
theorem reset_eq_some {w : WindowMap} {trackOK : Bool} (h : reset maxWindow trackOK = some w) :
    let b := bucketWidth (if maxWindow ≤ 0 then defaultWindowSeconds * second else maxWindow)
    w.nextAt = none ∧ w.trackOK = trackOK ∧ w.width = b.1 ∧ (w.buckets.size : Int) = b.2 + 1 := by
  dsimp only [reset] at h
  rw [ite_none_left_eq_some] at h
  obtain ⟨hn, hw⟩ := h
  obtain rfl := some_inj.mp hw
  refine ⟨rfl, rfl, rfl, ?_⟩
  simp only [Ring.size, List.length_replicate]
  omega

theorem bucketWidth_mul_le (hpos : 0 < maxWindow) (hmax : maxWindow ≤ maxInt64) :
    ((bucketWidth maxWindow).2 + 1) * (bucketWidth maxWindow).1 ≤ maxInt64 + 2 ^ 62 := by
  unfold bucketWidth
  split
  next w hw =>
    have hmem := List.mem_of_find?_eq_some hw
    have hall : ∀ w ∈ bucketWidths, 0 < w ∧ w ≤ 2 ^ 62 := by decide
    obtain ⟨hwpos, hwle⟩ := hall w hmem
    have := Int.ediv_mul_le maxWindow hwpos.ne'
    linarith
  · dsimp only
    generalize hwidth : (if maxWindow / ringBuckets +
        (if maxWindow % ringBuckets ≠ 0 then second else 0) < second then second
      else maxWindow / ringBuckets + if maxWindow % ringBuckets ≠ 0 then second else 0) = width
    have hbound : 0 < width ∧ width ≤ 2 ^ 62 := by
      unfold ringBuckets second maxInt64 at *
      omega
    have hwrap := wrapInt64_le (maxWindow + width - 1)
    have hle : (wrapInt64 (maxWindow + width - 1)).tdiv width * width ≤ maxInt64 := by
      rcases le_or_gt 0 (wrapInt64 (maxWindow + width - 1)) with hnonneg | hneg
      · rw [Int.tdiv_eq_ediv_of_nonneg hnonneg]
        exact (Int.ediv_mul_le _ hbound.1.ne').trans hwrap
      · have hnonpos : (wrapInt64 (maxWindow + width - 1)).tdiv width ≤ 0 := by
          have := Int.tdiv_nonneg (neg_nonneg.mpr hneg.le) hbound.1.le
          rw [Int.neg_tdiv] at this
          omega
        have := mul_nonpos_of_nonpos_of_nonneg hnonpos hbound.1.le
        omega
    linarith

end WindowMap
end C4Gateway
