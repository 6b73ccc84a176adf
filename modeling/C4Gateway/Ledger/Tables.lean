import C4Gateway.Domain
import Mathlib.Data.List.Nodup

/-! The tables that settlement reads and writes.  Columns that no modelled statement uses are left
out. -/

namespace C4Gateway

/-- A row of `usage_logs`, with the column defaults of its table. -/
structure UsageLog where
  id : Int
  groupId : Option Int := none
  upstreamId : Option Int := none
  upstreamMultiplierBP : Option Int := none
  userId : Option Int := none
  model : String := ""
  mappedModel : Option String := none
  format : RequestFormat
  errorType : ErrorType := .none
  inputTokens : Int := 0
  priceInputMillis : Option Int := none
  outputTokens : Int := 0
  priceOutputMillis : Option Int := none
  totalTokens : Int := 0
  cacheReadTokens : Int := 0
  priceCacheReadMillis : Option Int := none
  cacheCreationTokens : Int := 0
  priceCacheCreationMillis : Option Int := none
  callCount : Int := 0
  pricePerCallMillis : Option Int := none
  cost : Int := 0
  rawCost : Int := 0
  upstreamCost : Option Int := none
  grossProfit : Option Int := none
  profitMarginBP : Option Int := none
  billingTier : Option String := none
  overdraft : Bool := false
  billed : Bool := false
  createdAt : Int := 0
  deriving DecidableEq, Repr

def UsageLog.uid (r : UsageLog) : Int := r.userId.getD 0

structure User where
  id : Int
  balance : Int
  deriving DecidableEq, Repr

/-- A grant: NULL `groupId` is a global one, and NULL `expiresAt` never expires. -/
structure TempBalance where
  id : Int
  userId : Int
  amount : Int
  groupId : Option Int := none
  expiresAt : Option Int := none
  deriving DecidableEq, Repr

/-- The tables at one moment.  Identifiers come from sequences, and balances are `bigint`. -/
structure Ledger where
  logs : List UsageLog
  users : List User
  temps : List TempBalance
  logIds : (logs.map UsageLog.id).Nodup
  userIds : (users.map User.id).Nodup
  tempIds : (temps.map TempBalance.id).Nodup
  balances : ∀ u ∈ users, InInt64 u.balance

namespace Ledger

theorem ext' {a b : Ledger} (hl : a.logs = b.logs) (hu : a.users = b.users)
    (ht : a.temps = b.temps) : a = b := by
  cases a; cases b
  subst hl hu ht
  rfl

def tempsOf (db : Ledger) (u : Int) : Int :=
  ((db.temps.filter fun t => t.userId = u).map TempBalance.amount).sum

def balanceOf (db : Ledger) (u : Int) : Int :=
  ((db.users.filter fun r => r.id = u).map User.balance).sum

def fundsOf (db : Ledger) (u : Int) : Int := db.balanceOf u + db.tempsOf u

/-- The rows of `before` that are billed in `after` and were not before. -/
def newlyBilled (before after : Ledger) : List UsageLog :=
  before.logs.filter fun r => !r.billed && after.logs.any fun r' => r'.id == r.id && r'.billed

theorem newlyBilled_map {db after : Ledger} {p : UsageLog → Prop} [DecidablePred p]
    {f : UsageLog → UsageLog} (h : after.logs = db.logs.map fun l => if p l then f l else l)
    (hid : ∀ l, (f l).id = l.id) (hset : ∀ l, (f l).billed = true)
    (hp : ∀ l ∈ db.logs, p l → l.billed = false) :
    newlyBilled db after = db.logs.filter fun l => p l := by
  refine List.filter_congr fun l hl => ?_
  rw [Bool.eq_iff_iff, h]
  simp only [Bool.and_eq_true, Bool.not_eq_true', List.any_map, List.any_eq_true,
    Function.comp_apply, decide_eq_true_eq, beq_iff_eq]
  constructor
  · rintro ⟨hunbilled, r, hr, heq, hbilled⟩
    by_contra hout
    have hr' : r = l := by
      refine List.inj_on_of_nodup_map db.logIds hr hl ?_
      split at heq
      · exact (hid r).symm.trans heq
      · exact heq
    rw [hr', if_neg hout, hunbilled] at hbilled
    cases hbilled
  · intro hin
    exact ⟨hp l hl hin, l, hl, by simp [hin, hid], by simp [hin, hset]⟩

theorem newlyBilled_self (db : Ledger) : newlyBilled db db = [] := by
  have h : db.logs = db.logs.map fun l => if False then { l with billed := true } else l := by simp
  rw [newlyBilled_map h (fun _ => rfl) (fun _ => rfl) (by simp)]
  simp

def newlyBilledCost (before after : Ledger) (u : Int) : Int :=
  (((newlyBilled before after).filter fun r => r.uid = u).map UsageLog.cost).sum

end Ledger
end C4Gateway
