import C4Gateway.Lib.Run
import C4Gateway.Lib.Int64

/-! The breaker of an upstream member.  A result that comes in moves its cooldown; so does a rebuild
of the snapshot, which loads the state and later stores what the persisted row makes of it.  Times
are nanoseconds. -/

namespace C4Gateway

inductive ResultKind where
  | ok
  | err429
  | err4xx
  | err5xx
  | network
  deriving DecidableEq, Repr

/-- The breaker of an upstream. -/
structure UpstreamState where
  cooldownUntil : Option Int := none
  failureStreak : Int := 0
  deriving DecidableEq, Repr

/-- What the row of a group member persists of its state. -/
structure MemberRow where
  cooldownUntil : Option Int := none
  failureStreak : Int := 0
  deriving DecidableEq, Repr

def retry429Base : Int := 2 * 1000000000

def retry429Max : Int := 600 * 1000000000

/-- A deadline of the provider, within bounds; without one the delay doubles with the streak. -/
def retry429Deadline (now : Int) (streak : Nat) (provider : Option Int) : Int :=
  match provider.filter (· > now) with
  | some deadline => min deadline (now + retry429Max)
  | none =>
    let streak := if streak = 0 then 1 else streak
    now + min (retry429Base * 2 ^ min (streak - 1) 18) retry429Max

namespace UpstreamState

def cooling (st : UpstreamState) (now : Int) : Bool := st.cooldownUntil.any (now ≤ ·)

/-- The streak after one more failure, as an `int`. -/
def nextStreak (st : UpstreamState) : Int :=
  let streak := Int.bmod (st.failureStreak + 1) (2 ^ 64)
  if streak < 1 then 1 else streak

/-- One successful turn of the loop of `MarkSelectionResult`. -/
def markResult (st : UpstreamState) (now : Int) (kind : ResultKind) (resetAt : Option Int) :
    UpstreamState :=
  match kind with
  | .ok => if st.cooling now then st else {}
  | .err429 =>
    let until429 := retry429Deadline now (st.nextStreak % 2 ^ 32).toNat resetAt
    { cooldownUntil := some until429, failureStreak := st.nextStreak }
  | .err5xx | .network =>
    { cooldownUntil := some (now + 2 * 1000000000), failureStreak := st.nextStreak }
  | .err4xx => st

/-- `upstreamStateFromMember`: a persisted cooldown takes the place of the one in memory. -/
def fromMember (current : UpstreamState) (row : MemberRow) : UpstreamState where
  cooldownUntil := row.cooldownUntil.or current.cooldownUntil
  failureStreak := max (max current.failureStreak 0) row.failureStreak

end UpstreamState

/-- The clock, the state of the member, and the state that a rebuild under way has loaded. -/
structure Breaker where
  now : Int
  st : UpstreamState := {}
  loaded : Option UpstreamState := none
  deriving DecidableEq, Repr

/-- The time passes, a result comes in, or the row is read or written. -/
inductive BreakerOp where
  | tick (d : Nat)
  | markResult (kind : ResultKind) (resetAt : Option Int)
  | load
  | store (row : MemberRow)
  deriving DecidableEq, Repr

namespace Breaker

def step (b : Breaker) : BreakerOp → Breaker
  | .tick d => { b with now := b.now + d }
  | .markResult kind resetAt => { b with st := b.st.markResult b.now kind resetAt }
  | .load => { b with loaded := some b.st }
  | .store row =>
    match b.loaded with
    | some current => { b with st := current.fromMember row, loaded := none }
    | none => b

/-- A cooldown that has not expired is still there, and no earlier. -/
def Kept (b b' : Breaker) : Prop :=
  ∀ c, b.st.cooldownUntil = some c → b.now ≤ c → ∃ c', b'.st.cooldownUntil = some c' ∧ c ≤ c'

/-- What a step has to respect of a cooldown until `c`: a failure in its turn cools at least as
long, and so do the row and the state that a rebuild goes by. -/
def Outlasts (b : Breaker) (c : Int) : BreakerOp → Prop
  | .markResult .err429 resetAt =>
    c ≤ retry429Deadline b.now (b.st.nextStreak % 2 ^ 32).toNat resetAt
  | .markResult .err5xx _ | .markResult .network _ => c ≤ b.now + 2 * 1000000000
  | .store row =>
    match b.loaded, row.cooldownUntil with
    | some _, some persisted => c ≤ persisted
    | some current, none => ∃ c', current.cooldownUntil = some c' ∧ c ≤ c'
    | none, _ => True
  | _ => True

/-- The step respects the cooldown, if there is one that has not expired. -/
def Respects (b : Breaker) (op : BreakerOp) : Prop :=
  ∀ c, b.st.cooldownUntil = some c → b.now ≤ c → b.Outlasts c op

variable {b : Breaker} {op : BreakerOp}

theorem kept_of_cooldown_eq {b' : Breaker} (h : b'.st.cooldownUntil = b.st.cooldownUntil) :
    b.Kept b' := by
  intro c hc _
  exact ⟨c, h.trans hc, Int.le_refl c⟩

/-- A step that sets the cooldown keeps the one before it exactly if it sets it no earlier. -/
theorem kept_iff_of_cooldown {b' : Breaker} {d : Int} (h : b'.st.cooldownUntil = some d) :
    b.Kept b' ↔ ∀ c, b.st.cooldownUntil = some c → b.now ≤ c → c ≤ d := by
  simp [Kept, h]

theorem kept_ok (resetAt : Option Int) : b.Kept (b.step (.markResult .ok resetAt)) := by
  intro c hc hnow
  have hcooling : b.st.cooling b.now := by simp [UpstreamState.cooling, hc, hnow]
  refine ⟨c, ?_, Int.le_refl c⟩
  simp only [step, UpstreamState.markResult, if_pos hcooling]
  exact hc

theorem kept_store_iff (row : MemberRow) :
    b.Kept (b.step (.store row)) ↔ b.Respects (.store row) := by
  cases hloaded : b.loaded with
  | none => simp [Respects, Outlasts, step, hloaded, kept_of_cooldown_eq]
  | some current =>
    cases hrow : row.cooldownUntil with
    | some persisted =>
      rw [kept_iff_of_cooldown (d := persisted)
        (by simp [step, hloaded, UpstreamState.fromMember, hrow])]
      simp [Respects, Outlasts, hloaded, hrow]
    | none => simp [Kept, Respects, Outlasts, step, hloaded, UpstreamState.fromMember, hrow]

theorem kept_step_iff (b : Breaker) (op : BreakerOp) : b.Kept (b.step op) ↔ b.Respects op := by
  have htrivial : b.Kept (b.step op) → (∀ c, b.Outlasts c op) →
      (b.Kept (b.step op) ↔ b.Respects op) :=
    fun hkept hout => ⟨fun _ c _ _ => hout c, fun _ => hkept⟩
  cases op with
  | tick d | load => exact htrivial (kept_of_cooldown_eq rfl) fun _ => trivial
  | store row => exact kept_store_iff row
  | markResult kind resetAt =>
    cases kind with
    | ok => exact htrivial (kept_ok resetAt) fun _ => trivial
    | err4xx => exact htrivial (kept_of_cooldown_eq rfl) fun _ => trivial
    | err429 | err5xx | network => exact kept_iff_of_cooldown rfl

theorem now_le_step (b : Breaker) (op : BreakerOp) : b.now ≤ (b.step op).now := by
  cases op with
  | tick d => simp [step]
  | store row =>
    simp only [step]
    split <;> exact Int.le_refl _
  | _ => exact Int.le_refl _

/-- A run moves no unexpired cooldown earlier exactly if every step respects the cooldown it finds,
and then a cooldown, whichever set it, is in force until it expires. -/
theorem cooldown_kept_iff (b : Breaker) (ops : List BreakerOp) :
    (Run.Each step (fun b op => b.Kept (b.step op)) b ops ↔ Run.Each step Respects b ops) ∧
    (Run.Each step Respects b ops → ∀ t ∈ Run.states step b ops, ∀ c,
      b.st.cooldownUntil = some c → t.now ≤ c → ∃ c', t.st.cooldownUntil = some c' ∧ c ≤ c') := by
  refine ⟨Run.Each.congr kept_step_iff, fun hrun t ht c hc => ?_⟩
  refine Run.Each.states_inv
    (fun t => t.now ≤ c → ∃ c', t.st.cooldownUntil = some c' ∧ c ≤ c') ?_ hrun ?_ t ht
  · intro t op hinv hrespects hnow
    obtain ⟨c', hc', hle⟩ := hinv (Int.le_trans (now_le_step t op) hnow)
    have hle' : t.now ≤ c' := Int.le_trans (Int.le_trans (now_le_step t op) hnow) hle
    obtain ⟨c'', hc'', hle''⟩ := (kept_step_iff t op).mpr hrespects c' hc' hle'
    exact ⟨c'', hc'', Int.le_trans hle hle''⟩
  · exact fun _ => ⟨c, hc, Int.le_refl c⟩

/-- A 429 whose provider asks for ten minutes, and then an error 503 of a request that was under
way. -/
def lateServerError : List BreakerOp :=
  [.markResult .err429 (some (600 * 1000000000)), .tick 1000000000, .markResult .err5xx none]

theorem lateServerError_shortens :
    ((lateServerError.take 2).foldl step { now := 0 }).st.cooldownUntil =
      some (600 * 1000000000) ∧
    (lateServerError.foldl step { now := 0 }).now = 1000000000 ∧
    (lateServerError.foldl step { now := 0 }).st.cooldownUntil = some (3 * 1000000000) := by
  decide

end Breaker
end C4Gateway
