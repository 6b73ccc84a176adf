import C4Gateway.Domain
import C4Gateway.Lib.Run
import Mathlib.Tactic.Linarith

/-! The local token budgets of the gate.  Every instance hands itself a share of what is left of a
key's quota, admits requests while the tokens it has counted stay below that budget, and asks the
database again when they do not.  Operations are atomic here, and the number of instances and the
value read from the database are arguments of the operation that reads them. -/

namespace C4Gateway

open Function (update update_of_ne update_self)

def instancesN : Option Int → Int
  | some n => if n > 0 then n else 1
  | none => 1

def ceilDiv (a b : Int) : Int :=
  if a ≤ 0 ∨ b ≤ 0 then 0
  else if a % b ≠ 0 then a / b + 1
  else a / b

def saturatingQuotaAdd (a b : Int) : Int :=
  let a := if a < 0 then 0 else a
  if b ≤ 0 then a else if a > maxInt64 - b then maxInt64 else a + b

def addQuotaTokens (c delta : Int) : Int :=
  if delta ≤ 0 then c
  else
    let cur := if c < 0 then 0 else c
    if cur > maxInt64 - delta then maxInt64 else cur + delta

/-- What an instance has consumed of the budget it holds for a key. -/
structure KeyQuota where
  consumed : Int := 0
  budget : Int := 0
  reclaiming : Bool := false
  exhausted : Bool := false
  retryAt : Int := 0
  quotaUsedAtReclaim : Int := 0
  deriving DecidableEq, Repr

def quotaReclaimRetry : Int := 10 * 1000000000 -- nanoseconds

/-- The counter of a key that has none yet: what the database has seen, and the whole quota if that
is invalid. -/
def freshQuota (m : KeyMeta) : KeyQuota :=
  { consumed := if m.quotaUsed < 0 then m.quota else m.quotaUsed }

def allocBudget (q : KeyQuota) (m : KeyMeta) (n : Int) : KeyQuota :=
  if m.quota ≤ 0 ∨ m.quotaUsed < 0 ∨ m.quotaUsed ≥ m.quota then
    { q with budget := q.consumed, exhausted := true }
  else
    { q with
      quotaUsedAtReclaim := m.quotaUsed
      budget := saturatingQuotaAdd q.consumed (ceilDiv (m.quota - m.quotaUsed) n)
      exhausted := false }

/-- The refresh when a budget is used up: whether the request is admitted, and the state left.
`read` is the answer of the database, `none` for an error. -/
def reclaim (q : KeyQuota) (m : KeyMeta) (reclaimer : Bool) (n : Int) (read : Option Int)
    (now : Int) : Bool × KeyQuota :=
  if q.reclaiming then (q.consumed < q.budget, q)
  else if q.exhausted then (false, q)
  else if q.retryAt > now then (false, q)
  else if !reclaimer then (false, { q with exhausted := true })
  else
    match read with
    | none =>
      (true, { q with
        retryAt := now + quotaReclaimRetry, budget := saturatingQuotaAdd q.consumed 1 })
    | some used =>
      if used < 0 ∨ used ≥ m.quota then (false, { q with exhausted := true })
      else
        let consumed := if q.consumed < 0 then maxInt64 else q.consumed
        let baseline := if q.quotaUsedAtReclaim < 0 then 0 else q.quotaUsedAtReclaim
        let unreported := max 0 (consumed - baseline)
        let remainingEff := m.quota - used - unreported
        if remainingEff > 0 then
          (true, { q with
            quotaUsedAtReclaim := used
            budget := saturatingQuotaAdd consumed (ceilDiv remainingEff n) })
        else (false, { q with exhausted := true })

/-- The quota half of the gate's snapshot, and whether it can read the database. -/
structure QuotaGate where
  quotas : Int → Option KeyQuota := fun _ => none
  reclaimer : Bool := true

namespace QuotaGate

def inherited (g : QuotaGate) (m : KeyMeta) : KeyQuota :=
  (g.quotas m.keyID).getD (freshQuota m)

/-- Add the entry of one key to the snapshot under construction.  It starts from the counter of the
old entry alone. -/
def rebuild (g : QuotaGate) (instances : Option Int) (quotas : Int → Option KeyQuota)
    (m : KeyMeta) : Int → Option KeyQuota :=
  if m.hasQuota then
    update quotas m.keyID (some
      (allocBudget { consumed := (g.inherited m).consumed } m (instancesN instances)))
  else quotas

def reload (g : QuotaGate) (metas : List KeyMeta) (instances : Option Int) : QuotaGate :=
  { g with quotas := metas.foldl (g.rebuild instances) fun _ => none }

def upsert (g : QuotaGate) (m : KeyMeta) (instances : Option Int) : QuotaGate :=
  { g with
    quotas := update g.quotas m.keyID
      (if m.hasQuota then some (allocBudget (g.inherited m) m (instancesN instances)) else none) }

def deductQuota (g : QuotaGate) (keyID tokens : Int) : QuotaGate :=
  if keyID ≤ 0 ∨ tokens ≤ 0 then g
  else
    { g with
      quotas := update g.quotas keyID ((g.quotas keyID).map fun q =>
        { q with consumed := addQuotaTokens q.consumed tokens }) }

/-- An exhausted budget is granted anew from what the table says was used. -/
def quotaExhausted (g : QuotaGate) (m : KeyMeta) (instances read : Option Int) (now : Int) :
    Bool × QuotaGate :=
  if !m.hasQuota then (false, g)
  else if m.quota ≤ 0 ∨ m.quotaUsed < 0 then (true, g)
  else
    match g.quotas m.keyID with
    | none => (m.quotaUsed ≥ m.quota, g)
    | some q =>
      if q.exhausted then (true, g)
      else if q.consumed < q.budget then (false, g)
      else
        let (admitted, q) := reclaim q m g.reclaimer (instancesN instances) read now
        (!admitted, { g with quotas := update g.quotas m.keyID (some q) })

end QuotaGate

/-- The gate of one instance, with the database's `quota_used` of one key and the tokens that were
really consumed with that key, on all instances. -/
structure QuotaWorld where
  gate : QuotaGate := {}
  used : Int := 0
  real : Int := 0

/-- The calls of the gate that reach a quota, and what other instances consume. -/
inductive QuotaOp where
  | reload (metas : List KeyMeta) (instances : Option Int)
  | upsert (m : KeyMeta) (instances : Option Int)
  | deductQuota (keyID tokens : Int)
  | quotaExhausted (m : KeyMeta) (instances read : Option Int) (now : Int)
  /-- Another instance consumes tokens of the key. -/
  | elsewhere (tokens : Int)
  /-- The counters of the instances are written back. -/
  | flush (used : Int)

namespace QuotaWorld

def step (id : Int) (w : QuotaWorld) : QuotaOp → QuotaWorld
  | .reload metas instances => { w with gate := w.gate.reload metas instances }
  | .upsert m instances => { w with gate := w.gate.upsert m instances }
  | .deductQuota keyID tokens =>
    { w with
      gate := w.gate.deductQuota keyID tokens
      real := if keyID = id then w.real + max 0 tokens else w.real }
  | .quotaExhausted m instances read now =>
    { w with gate := (w.gate.quotaExhausted m instances read now).2 }
  | .elsewhere tokens => { w with real := w.real + max 0 tokens }
  | .flush used => { w with used }

/-- The key keeps its quota, its rows are read as they are and without error, and `quota_used` never
decreases and never exceeds what was consumed. -/
def Reads (id quota : Int) (w : QuotaWorld) : QuotaOp → Prop
  | .reload metas _ =>
    ∀ m ∈ metas, m.keyID = id → m.hasQuota ∧ m.quota = quota ∧ m.quotaUsed = w.used
  | .upsert m _ => m.keyID = id → m.hasQuota ∧ m.quota = quota ∧ m.quotaUsed = w.used
  | .deductQuota _ _ => True
  | .quotaExhausted m _ read _ => m.keyID = id → m.hasQuota ∧ m.quota = quota ∧ read = some w.used
  | .elsewhere _ => True
  | .flush used => w.used ≤ used ∧ used ≤ w.real ∧ used ≤ maxInt64

instance (id quota : Int) (w : QuotaWorld) : DecidablePred (w.Reads id quota)
  | .reload metas _ => inferInstanceAs (Decidable (∀ m ∈ metas, m.keyID = id →
      m.hasQuota ∧ m.quota = quota ∧ m.quotaUsed = w.used))
  | .upsert m _ => inferInstanceAs (Decidable (m.keyID = id →
      m.hasQuota ∧ m.quota = quota ∧ m.quotaUsed = w.used))
  | .deductQuota .. => isTrue trivial
  | .quotaExhausted m _ read _ => inferInstanceAs (Decidable (m.keyID = id →
      m.hasQuota ∧ m.quota = quota ∧ read = some w.used))
  | .elsewhere .. => isTrue trivial
  | .flush used => inferInstanceAs (Decidable (w.used ≤ used ∧ used ≤ w.real ∧ used ≤ maxInt64))

def Keeps (id quota : Int) (w : QuotaWorld) : Prop :=
  ∀ q, w.gate.quotas id = some q →
    q.budget ≤ quota ∧
      (quota ≤ q.consumed → ∀ m instances now, m.keyID = id → m.hasQuota → m.quota = quota →
        (w.gate.quotaExhausted m instances (some w.used) now).1 = true)

end QuotaWorld

/-- The tokens counted but not written back, `consumed - used`, are at most what the other `n - 1`
shares leave, `(n - 1) * (quota - consumed)`.  No budget exceeds the greatest quota. -/
def Covered (quota n used consumed : Int) : Prop :=
  quota = maxInt64 ∨ consumed ≤ quota ∧ quota - used ≤ n * (quota - consumed)

instance (quota n used consumed : Int) : Decidable (Covered quota n used consumed) :=
  inferInstanceAs (Decidable (_ ∨ _))

def QuotaWorld.RebuildsCovered (id quota : Int) (w : QuotaWorld) : QuotaOp → Prop
  | .reload metas instances => ∀ m ∈ metas, m.keyID = id →
    Covered quota (instancesN instances) w.used (w.gate.inherited m).consumed
  | .upsert m instances => m.keyID = id →
    Covered quota (instancesN instances) w.used (w.gate.inherited m).consumed
  | .deductQuota .. | .quotaExhausted .. | .elsewhere .. | .flush .. => True

instance (id quota : Int) (w : QuotaWorld) : DecidablePred (w.RebuildsCovered id quota)
  | .reload metas instances => inferInstanceAs (Decidable (∀ m ∈ metas, m.keyID = id →
      Covered quota (instancesN instances) w.used (w.gate.inherited m).consumed))
  | .upsert m instances => inferInstanceAs (Decidable (m.keyID = id →
      Covered quota (instancesN instances) w.used (w.gate.inherited m).consumed))
  | .deductQuota .. | .quotaExhausted .. | .elsewhere .. | .flush .. => isTrue trivial

theorem instancesN_pos (instances : Option Int) : 0 < instancesN instances := by
  unfold instancesN
  split
  · split <;> omega
  · decide

theorem ceilDiv_le_iff {a b x : Int} (ha : 0 < a) (hb : 0 < b) : ceilDiv a b ≤ x ↔ a ≤ b * x := by
  have hdiv := Int.mul_ediv_add_emod a b
  have hnonneg := Int.emod_nonneg a hb.ne'
  have hlt := Int.emod_lt_of_pos a hb
  have hmono : ∀ {y z : Int}, y ≤ z → b * y ≤ b * z := fun h =>
    Int.mul_le_mul_of_nonneg_left h hb.le
  unfold ceilDiv
  rw [if_neg (by omega)]
  split
  · constructor
    · intro h
      have := hmono h
      rw [mul_add] at this
      omega
    · intro h
      by_contra hx
      have := hmono (show x ≤ a / b by omega)
      omega
  · constructor
    · intro h
      have := hmono h
      omega
    · intro h
      by_contra hx
      have := hmono (show x + 1 ≤ a / b by omega)
      rw [mul_add] at this
      omega

theorem ceilDiv_le_self {a b : Int} (ha : 0 < a) (hb : 0 < b) : ceilDiv a b ≤ a :=
  (ceilDiv_le_iff ha hb).mpr (by nlinarith)

theorem allocBudget_le_iff {q : KeyQuota} {m : KeyMeta} {n : Int} (hn : 0 < n)
    (hquota : 0 < m.quota) (hmax : m.quota ≤ maxInt64) (hused : 0 ≤ m.quotaUsed)
    (hc : 0 ≤ q.consumed) (hcmax : q.consumed ≤ maxInt64) :
    (allocBudget q m n).budget ≤ m.quota ↔ Covered m.quota n m.quotaUsed q.consumed := by
  unfold allocBudget Covered
  by_cases hfull : m.quotaUsed ≥ m.quota
  · rw [if_pos (.inr (.inr hfull))]
    constructor
    · intro h
      exact .inr ⟨h, by nlinarith⟩
    · rintro (h | h)
      · exact h ▸ hcmax
      · exact h.1
  · rw [if_neg (by omega)]
    have hceil := ceilDiv_le_iff (x := m.quota - q.consumed)
      (by omega : 0 < m.quota - m.quotaUsed) hn
    have hpos : 0 < ceilDiv (m.quota - m.quotaUsed) n := by
      by_contra h
      have := (ceilDiv_le_iff (x := 0) (by omega : 0 < m.quota - m.quotaUsed) hn).mp (by omega)
      omega
    rw [← hceil]
    simp only [saturatingQuotaAdd]
    split_ifs <;> omega

@[simp] theorem allocBudget_consumed (q : KeyQuota) (m : KeyMeta) (n : Int) :
    (allocBudget q m n).consumed = q.consumed := by
  unfold allocBudget
  split <;> rfl

theorem allocBudget_baseline (q : KeyQuota) (m : KeyMeta) (n : Int) :
    (allocBudget q m n).quotaUsedAtReclaim = q.quotaUsedAtReclaim ∨
      (allocBudget q m n).quotaUsedAtReclaim = m.quotaUsed := by
  unfold allocBudget
  split
  · exact .inl rfl
  · exact .inr rfl

/-- The counters are amounts, and the baseline is at most what was used so far. -/
structure KeyQuota.Sane (q : KeyQuota) (used : Int) : Prop where
  consumed_nonneg : 0 ≤ q.consumed
  consumed_le : q.consumed ≤ maxInt64
  baseline_nonneg : 0 ≤ q.quotaUsedAtReclaim
  baseline_le : q.quotaUsedAtReclaim ≤ used

variable {q : KeyQuota} {m : KeyMeta}

/-- A refresh that grants a share deducts what the database has not seen, so that the new budget is
within the quota; every other outcome leaves counter, budget and baseline. -/
theorem reclaim_cases {used n : Int} (reclaimer : Bool) (now : Int) (hq : q.Sane used)
    (hn : 0 < n) :
    let r := reclaim q m reclaimer n (some used) now
    r.2.consumed = q.consumed ∧
      (r.2.quotaUsedAtReclaim = q.quotaUsedAtReclaim ∧ r.2.budget = q.budget ∧
          (r.1 → q.consumed < q.budget) ∨
        r.2.quotaUsedAtReclaim = used ∧ r.2.budget ≤ m.quota ∧ q.consumed < m.quota) := by
  have hc := hq.consumed_nonneg
  have hb := hq.baseline_nonneg
  have hle := hq.baseline_le
  intro r
  simp only [r, reclaim, if_neg (not_lt.mpr hc), if_neg (not_lt.mpr hb)]
  iterate 5
    split
    · simp
  split
  next heff =>
    refine ⟨rfl, .inr ⟨rfl, ?_, by omega⟩⟩
    have hshare := ceilDiv_le_self heff hn
    simp only [saturatingQuotaAdd]
    split_ifs <;> omega
  · simp

namespace QuotaGate

variable {g : QuotaGate} {id quota used : Int}

variable (g) in
theorem inherited_congr {m m' : KeyMeta} (hid : m.keyID = m'.keyID) (hquota : m.quota = m'.quota)
    (hused : m.quotaUsed = m'.quotaUsed) : g.inherited m = g.inherited m' := by
  simp [inherited, freshQuota, hid, hquota, hused]

variable {metas : List KeyMeta} (instances : Option Int)

theorem foldl_rebuild_of_absent (quotas : Int → Option KeyQuota)
    (habsent : ∀ m ∈ metas, m.keyID ≠ id) :
    metas.foldl (g.rebuild instances) quotas id = quotas id := by
  induction metas generalizing quotas with
  | nil => rfl
  | cons m metas ih =>
    rw [List.foldl_cons, ih _ fun m hm => habsent m (List.mem_cons_of_mem _ hm)]
    unfold rebuild
    split
    · exact update_of_ne (habsent m List.mem_cons_self).symm _ _
    · rfl

theorem foldl_rebuild
    (hmetas : ∀ m ∈ metas, m.keyID = id → m.hasQuota ∧ m.quota = quota ∧ m.quotaUsed = used)
    (quotas : Int → Option KeyQuota) (hm : m ∈ metas) (hid : m.keyID = id) :
    metas.foldl (g.rebuild instances) quotas id = some
      (allocBudget { consumed := (g.inherited m).consumed } m (instancesN instances)) := by
  induction metas generalizing quotas m with
  | nil => cases hm
  | cons first rest ih =>
    rw [List.foldl_cons]
    have hrest := fun m hm => hmetas m (List.mem_cons_of_mem first hm)
    by_cases hlater : ∃ later ∈ rest, later.keyID = id
    · -- The last row of the key decides, and all its rows agree.
      obtain ⟨later, hmem, hlid⟩ := hlater
      obtain ⟨-, hq, hu⟩ := hmetas m hm hid
      obtain ⟨-, hq', hu'⟩ := hrest later hmem hlid
      rw [ih hrest _ hmem hlid,
        g.inherited_congr (hlid.trans hid.symm) (hq'.trans hq.symm) (hu'.trans hu.symm)]
      simp [allocBudget, hq, hu, hq', hu']
    · rw [foldl_rebuild_of_absent _ _ fun m hm hid => hlater ⟨m, hm, hid⟩]
      rcases List.mem_cons.mp hm with rfl | hm
      · simp [rebuild, (hmetas m List.mem_cons_self hid).1, hid]
      · exact absurd ⟨m, hm, hid⟩ hlater

theorem deductQuota_quotas {keyID tokens : Int}
    (hq : (g.deductQuota keyID tokens).quotas id = some q) :
    g.quotas id = some q ∨ ∃ q₀, g.quotas id = some q₀ ∧
      q = { q₀ with consumed := addQuotaTokens q₀.consumed tokens } := by
  unfold deductQuota at hq
  split at hq
  · exact .inl hq
  · by_cases hid : id = keyID
    · subst hid
      simp only [update_self, Option.map_eq_some_iff] at hq
      obtain ⟨q₀, hq₀, heq⟩ := hq
      exact .inr ⟨q₀, hq₀, heq.symm⟩
    · simp only [update_of_ne hid] at hq
      exact .inl hq

theorem quotaExhausted_quotas {instances read : Option Int} {now : Int}
    (hq : (g.quotaExhausted m instances read now).2.quotas id = some q) :
    g.quotas id = some q ∨ m.keyID = id ∧ ∃ q₀, g.quotas id = some q₀ ∧
      q = (reclaim q₀ m g.reclaimer (instancesN instances) read now).2 := by
  unfold quotaExhausted at hq
  iterate 3
    split at hq
    · exact .inl hq
  next q₀ hq₀ =>
    iterate 2
      split at hq
      · exact .inl hq
    · by_cases hid : id = m.keyID
      · subst hid
        simp only [update_self, Option.some_inj] at hq
        exact .inr ⟨rfl, q₀, hq₀, hq.symm⟩
      · simp only [update_of_ne hid] at hq
        exact .inl hq

end QuotaGate

structure QuotaWorld.Sane (id : Int) (w : QuotaWorld) : Prop where
  used_nonneg : 0 ≤ w.used
  used_le : w.used ≤ maxInt64
  entry : ∀ q, w.gate.quotas id = some q → q.Sane w.used

namespace QuotaWorld

variable {id quota : Int} {w : QuotaWorld} {op : QuotaOp}

theorem step_entry (hr : w.Reads id quota op) (hq : (w.step id op).gate.quotas id = some q) :
    w.gate.quotas id = some q ∨
      (∃ q₀ tokens, w.gate.quotas id = some q₀ ∧
        q = { q₀ with consumed := addQuotaTokens q₀.consumed tokens }) ∨
      (∃ q₀ m reclaimer n now, w.gate.quotas id = some q₀ ∧ m.quota = quota ∧ 0 < n ∧
        q = (reclaim q₀ m reclaimer n (some w.used) now).2) ∨
      ∃ q₀ m n, (q₀ = w.gate.inherited m ∨ q₀ = { consumed := (w.gate.inherited m).consumed }) ∧
        m.keyID = id ∧ m.quota = quota ∧ m.quotaUsed = w.used ∧ 0 < n ∧ q = allocBudget q₀ m n ∧
        (w.RebuildsCovered id quota op → Covered quota n w.used q₀.consumed) := by
  cases op with
  | elsewhere tokens | flush used => exact .inl hq
  | deductQuota keyID tokens =>
    rcases QuotaGate.deductQuota_quotas hq with h | ⟨q₀, hq₀, h⟩
    · exact .inl h
    · exact .inr (.inl ⟨q₀, tokens, hq₀, h⟩)
  | quotaExhausted m instances read now =>
    rcases QuotaGate.quotaExhausted_quotas hq with h | ⟨hid, q₀, hq₀, h⟩
    · exact .inl h
    · obtain ⟨-, hquota, rfl⟩ := hr hid
      exact .inr (.inr (.inl ⟨q₀, m, _, _, now, hq₀, hquota, instancesN_pos instances, h⟩))
  | upsert m instances =>
    simp only [step, QuotaGate.upsert] at hq
    by_cases hid : m.keyID = id
    · obtain ⟨hhas, hquota, hused⟩ := hr hid
      rw [← hid, update_self, if_pos hhas, Option.some_inj] at hq
      exact .inr (.inr (.inr ⟨_, m, _, .inl rfl, hid, hquota, hused, instancesN_pos instances,
        hq.symm, fun hcov => hcov hid⟩))
    · rw [update_of_ne (Ne.symm hid)] at hq
      exact .inl hq
  | reload metas instances =>
    by_cases hmem : ∃ m ∈ metas, m.keyID = id
    · obtain ⟨m, hm, hid⟩ := hmem
      obtain ⟨-, hquota, hused⟩ := hr m hm hid
      have hentry := QuotaGate.foldl_rebuild (g := w.gate) instances hr (fun _ => none) hm hid
      have hq := Option.some_inj.mp (hentry.symm.trans hq)
      exact .inr (.inr (.inr ⟨_, m, _, .inr rfl, hid, hquota, hused, instancesN_pos instances,
        hq.symm, fun hcov => hcov m hm hid⟩))
    · have habsent := QuotaGate.foldl_rebuild_of_absent (g := w.gate) instances (fun _ => none)
        fun m hm hid => hmem ⟨m, hm, hid⟩
      cases habsent.symm.trans hq

theorem le_used_step (hr : w.Reads id quota op) : w.used ≤ (w.step id op).used := by
  cases op with
  | flush used => exact hr.1
  | _ => exact le_refl _

section
variable (h : w.Sane id)
include h

theorem Sane.inherited (hid : m.keyID = id) (hused : m.quotaUsed = w.used) :
    (w.gate.inherited m).Sane w.used := by
  have hnonneg := h.used_nonneg
  subst hid
  unfold QuotaGate.inherited
  cases hq : w.gate.quotas m.keyID with
  | some q => exact h.entry q hq
  | none =>
    simp only [freshQuota, hused, if_neg (not_lt.mpr hnonneg)]
    exact ⟨hnonneg, h.used_le, le_refl _, hnonneg⟩

theorem Sane.rebuilt {q₀ : KeyQuota} (hid : m.keyID = id) (hused : m.quotaUsed = w.used)
    (hq₀ : q₀ = w.gate.inherited m ∨ q₀ = { consumed := (w.gate.inherited m).consumed }) :
    q₀.Sane w.used := by
  have hsane := h.inherited hid hused
  rcases hq₀ with rfl | rfl
  · exact hsane
  · exact ⟨hsane.consumed_nonneg, hsane.consumed_le, le_refl _, h.used_nonneg⟩

theorem Sane.step (hr : w.Reads id quota op) : (w.step id op).Sane id := by
  have hle := le_used_step hr
  refine ⟨h.used_nonneg.trans hle, ?_, fun q hq => ?_⟩
  · cases op with
    | flush used => exact hr.2.2
    | _ => exact h.used_le
  · suffices hs : q.Sane w.used from { hs with baseline_le := hs.baseline_le.trans hle }
    rcases step_entry hr hq with hq | ⟨q₀, tokens, hq₀, rfl⟩ |
      ⟨q₀, m, reclaimer, n, now, hq₀, -, hn, rfl⟩ | ⟨q₀, m, n, hq₀, hid, -, hused, -, rfl, -⟩
    · exact h.entry q hq
    · have hs := h.entry q₀ hq₀
      have hc := hs.consumed_nonneg
      have hcmax := hs.consumed_le
      refine { hs with consumed_nonneg := ?_, consumed_le := ?_ } <;>
        · simp only [addQuotaTokens]
          split_ifs <;> omega
    · have hs := h.entry q₀ hq₀
      obtain ⟨hc, hrest⟩ := reclaim_cases (m := m) reclaimer now hs hn
      have hnonneg := h.used_nonneg
      have hbn := hs.baseline_nonneg
      have hbl := hs.baseline_le
      exact ⟨hc ▸ hs.consumed_nonneg, hc ▸ hs.consumed_le, by omega, by omega⟩
    · have hs := h.rebuilt hid hused hq₀
      have hnonneg := h.used_nonneg
      have hbn := hs.baseline_nonneg
      have hbl := hs.baseline_le
      have hbase := allocBudget_baseline q₀ m n
      refine ⟨?_, ?_, by omega, by omega⟩
      · simpa using hs.consumed_nonneg
      · simpa using hs.consumed_le

theorem rebuilt_le_iff (hquota : 0 < quota) (hmax : quota ≤ maxInt64) (q₀ : KeyQuota)
    {n : Int} (hn : 0 < n) (hid : m.keyID = id) (hq : m.quota = quota)
    (hused : m.quotaUsed = w.used)
    (hq₀ : q₀ = w.gate.inherited m ∨ q₀ = { consumed := (w.gate.inherited m).consumed }) :
    (allocBudget q₀ m n).budget ≤ quota ↔ Covered quota n w.used q₀.consumed := by
  subst hq
  have hs := h.rebuilt hid hused hq₀
  have hnonneg := h.used_nonneg
  rw [← hused]
  exact allocBudget_le_iff hn hquota hmax (by omega) hs.consumed_nonneg hs.consumed_le

theorem budget_step (hquota : 0 < quota) (hmax : quota ≤ maxInt64)
    (hbudget : ∀ q, w.gate.quotas id = some q → q.budget ≤ quota) (hr : w.Reads id quota op)
    (hcov : w.RebuildsCovered id quota op) :
    ∀ q, (w.step id op).gate.quotas id = some q → q.budget ≤ quota := by
  intro q hq
  rcases step_entry hr hq with hq | ⟨q₀, tokens, hq₀, rfl⟩ |
    ⟨q₀, m, reclaimer, n, now, hq₀, rfl, hn, rfl⟩ |
    ⟨q₀, m, n, hq₀, hid, rfl, hused, hn, rfl, hcovered⟩
  · exact hbudget q hq
  · exact hbudget q₀ hq₀
  · have hb := hbudget q₀ hq₀
    obtain ⟨-, hrest⟩ := reclaim_cases (m := m) reclaimer now (h.entry q₀ hq₀) hn
    omega
  · exact (rebuilt_le_iff h hquota hmax q₀ hn hid rfl hused hq₀).mpr (hcovered hcov)

theorem covered_of_budget (hquota : 0 < quota) (hmax : quota ≤ maxInt64)
    (hr : w.Reads id quota op)
    (hbudget : ∀ q, (w.step id op).gate.quotas id = some q → q.budget ≤ quota) :
    w.RebuildsCovered id quota op := by
  cases op with
  | reload metas instances =>
    intro m hm hid
    obtain ⟨-, hq, hused⟩ := hr m hm hid
    exact (rebuilt_le_iff h hquota hmax { consumed := (w.gate.inherited m).consumed }
      (instancesN_pos instances) hid hq hused (.inr rfl)).mp
      (hbudget _ (QuotaGate.foldl_rebuild instances hr (fun _ => none) hm hid))
  | upsert m instances =>
    intro hid
    obtain ⟨hhas, hq, hused⟩ := hr hid
    refine (rebuilt_le_iff h hquota hmax _ (instancesN_pos instances) hid hq hused
      (.inl rfl)).mp (hbudget _ ?_)
    simp [QuotaWorld.step, QuotaGate.upsert, hhas, ← hid]
  | _ => trivial

theorem keeps_of_budget (hquota : 0 < quota)
    (hbudget : ∀ q, w.gate.quotas id = some q → q.budget ≤ quota) : w.Keeps id quota := by
  intro q hq
  refine ⟨hbudget q hq, ?_⟩
  rintro hfull m instances now rfl hhas rfl
  have hb := hbudget q hq
  unfold QuotaGate.quotaExhausted
  rw [if_neg (by simp [hhas])]
  split
  · rfl
  · simp only [hq]
    split
    · rfl
    · rw [if_neg (by omega)]
      obtain ⟨-, hrest⟩ := reclaim_cases (m := m) w.gate.reclaimer now (h.entry q hq)
        (instancesN_pos instances)
      simp only [Bool.not_eq_true', Bool.eq_false_iff]
      intro hadmitted
      rcases hrest with ⟨-, -, hlt⟩ | ⟨-, -, hlt⟩
      · have := hlt hadmitted
        omega
      · omega

end
end QuotaWorld

open QuotaWorld

/-- From a gate just started, in every run in which the key keeps its quota and `quota_used` is read
as it is, never decreases and never exceeds the consumption: the budget stays within the quota, and
nothing is admitted once the counter has reached it, exactly when every rebuild finds the tokens
not yet written back covered. -/
theorem budget_le_quota_iff {id quota used real : Int} {reclaimer : Bool} {ops : List QuotaOp}
    (hquota : 0 < quota) (hmax : quota ≤ maxInt64) (hused : 0 ≤ used) (husedmax : used ≤ maxInt64)
    (hops : Run.Each (step id) (Reads id quota) { gate := { reclaimer }, used, real } ops) :
    (∀ w ∈ Run.states (step id) { gate := { reclaimer }, used, real } ops, w.Keeps id quota) ↔
      Run.Each (step id) (RebuildsCovered id quota) { gate := { reclaimer }, used, real } ops := by
  have hstart : Sane id { gate := { reclaimer }, used, real } :=
    ⟨hused, husedmax, fun q hq => by cases hq⟩
  constructor
  · intro hkeeps
    refine hops.of_states (fun w op h hr => h.step hr) (fun w op h hr hk => ?_) hstart hkeeps
    exact covered_of_budget h hquota hmax hr fun q hq => (hk q hq).1
  · intro hcovered
    have hinv := (hops.and hcovered).states_inv
      (fun w => w.Sane id ∧ ∀ q, w.gate.quotas id = some q → q.budget ≤ quota)
      (fun w op h hr => ⟨h.1.step hr.1, budget_step h.1 hquota hmax h.2 hr.1 hr.2⟩)
      ⟨hstart, fun q hq => by cases hq⟩
    exact fun w hw => keeps_of_budget (hinv w hw).1 hquota (hinv w hw).2

def quotaRow (quotaUsed : Int) : KeyMeta :=
  { keyID := 1, hasQuota := true, quota := 1000, quotaUsed }

theorem budget_le_quota_flushed :
    let ops : List QuotaOp :=
      [.reload [quotaRow 0] (some 2), .deductQuota 1 400, .flush 400,
        .reload [quotaRow 400] (some 2), .deductQuota 1 300,
        .quotaExhausted (quotaRow 400) (some 2) (some 400) 0]
    Run.Each (step 1) (Reads 1 1000) {} ops ∧
      ∀ w ∈ Run.states (step 1) {} ops, w.Keeps 1 1000 := by
  intro ops
  have hops : Run.Each (step 1) (Reads 1 1000) {} ops := by decide
  exact ⟨hops, (budget_le_quota_iff (by decide) (by decide) (by decide) (by decide) hops).mpr
    (by decide)⟩

/-- A reload between a request and the next write-back: 900 tokens are counted and `quota_used` is
still 0, so the whole quota is granted again. -/
def reloadBeforeFlush : List QuotaOp :=
  [.reload [quotaRow 0] none, .quotaExhausted (quotaRow 0) none (some 0) 0, .deductQuota 1 900,
    .reload [quotaRow 0] none, .quotaExhausted (quotaRow 0) none (some 0) 0, .deductQuota 1 600]

theorem budget_exceeds_quota :
    Run.Each (step 1) (Reads 1 1000) {} reloadBeforeFlush ∧
      ∃ w ∈ Run.states (step 1) {} reloadBeforeFlush, ∃ q, w.gate.quotas 1 = some q ∧
        q.budget = 1900 ∧ q.consumed = 1500 ∧
        (w.gate.quotaExhausted (quotaRow 0) none (some w.used) 0).1 = false := by
  have hentry : (reloadBeforeFlush.foldl (step 1) {}).gate.quotas 1 =
      some { consumed := 1500, budget := 1900 } := by decide
  exact ⟨by decide, _, Run.foldl_mem_states, _, hentry, rfl, rfl, by decide⟩

end C4Gateway
