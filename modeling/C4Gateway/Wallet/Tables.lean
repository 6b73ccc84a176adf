import C4Gateway.Ledger.Tables
import C4Gateway.Lib.Sql
import C4Gateway.Lib.Text

/-! The tables of credits, referrals and redemption codes, beside the ledger that settlement works
on.  Times are in seconds.  Audit columns that no modelled statement reads are left out. -/

namespace C4Gateway.Wallet

open Text

def day : Int := 86400

inductive BalanceLedgerKind where
  | redemption
  | adminCredit
  | referralClaim
  deriving DecidableEq, Repr

def BalanceLedgerKind.text : BalanceLedgerKind → List Char
  | .redemption => "redemption".toList
  | .adminCredit => "admin_credit".toList
  | .referralClaim => "referral_claim".toList

/-- An entry of the ledger, which says what the balance was around it. -/
structure BalanceLedgerEntry where
  userID : Int
  kind : BalanceLedgerKind
  sourceID : List Char
  idempotencyKey : List Char := []
  delta : Int
  balanceBefore : Int
  balanceAfter : Int
  deriving DecidableEq, Repr

def idempotencyKey (kind : BalanceLedgerKind) (sourceID : List Char) (userID : Int) : List Char :=
  kind.text ++ ':' :: (sourceID ++ ':' :: decimal userID)

theorem BalanceLedgerKind.text_injective : Function.Injective text := by
  intro k k' h
  cases k <;> cases k' <;> first | rfl | cases h

/-- The key names one credit: neither a kind nor a number has the separator. -/
theorem idempotencyKey_injective {kind kind' : BalanceLedgerKind} {sourceID sourceID' : List Char}
    {userID userID' : Int}
    (h : idempotencyKey kind sourceID userID = idempotencyKey kind' sourceID' userID') :
    kind = kind' ∧ sourceID = sourceID' ∧ userID = userID' := by
  have hkind (k : BalanceLedgerKind) : ':' ∉ k.text := by cases k <;> decide
  have hnumber (n : Int) : ':' ∉ decimal n := by
    intro hmem
    rcases isDigit_or_eq_of_mem_decimal hmem with hdigit | hminus
    · exact absurd hdigit (by decide)
    · exact absurd hminus (by decide)
  obtain ⟨htext, hrest⟩ := append_cons_inj (hkind kind) (hkind kind') h
  obtain ⟨hsource, huser⟩ := append_cons_inj_right (hnumber userID) (hnumber userID') hrest
  exact ⟨BalanceLedgerKind.text_injective htext, hsource, decimal_injective huser⟩

inductive ReferralRewardSource where
  | redemption
  | adminCredit
  deriving DecidableEq, Repr

def ReferralRewardSource.text : ReferralRewardSource → List Char
  | .redemption => "redemption".toList
  | .adminCredit => "admin_credit".toList

inductive ReferralRewardStatus where
  | pending
  | credited
  | reversed
  deriving DecidableEq, Repr

/-- A reward for an invitation, credited at most once for its key. -/
structure ReferralReward where
  id : Int
  inviterID : Int
  inviteeID : Int
  sourceType : ReferralRewardSource
  sourceID : List Char
  idempotencyKey : List Char
  baseAmount : Int
  rewardAmount : Int
  status : ReferralRewardStatus := .pending
  availableAt : Int
  creditedAt : Option Int := none
  deriving DecidableEq, Repr

inductive RedemptionType where
  | balance
  | concurrency
  | tempBalance
  | scopedTempBalance
  deriving DecidableEq, Repr

inductive RedemptionStatus where
  | active
  | disabled
  deriving DecidableEq, Repr

/-- A code, which is generated with a positive value and at least one use. -/
structure RedemptionCode where
  id : Int
  code : String
  type : RedemptionType
  value : Int
  groupID : Option Int := none
  expiresAt : Option Int := none
  resourceExpiresAt : Option Int := none
  maxUses : Int := 1
  usedCount : Int := 0
  status : RedemptionStatus := .active
  value_pos : 0 < value := by decide
  maxUses_pos : 1 ≤ maxUses := by decide
  deriving DecidableEq, Repr

/-- One use of a code, which records what it gave. -/
structure RedemptionUse where
  id : Int
  codeID : Int
  userID : Int
  value : Int
  resourceExpiresAt : Option Int := none
  groupID : Option Int := none
  balanceBefore : Option Int := none
  balanceAfter : Option Int := none
  createdAt : Int
  deriving DecidableEq, Repr

def RedemptionUse.pair (use : RedemptionUse) : Int × Int := (use.codeID, use.userID)

/-- The tables at one moment, with their primary keys and unique indexes.  `maxConcurrency` is a
column of `users`, and `inviterOf` the table `referrals`, whose `invitee_id` is unique. -/
structure Store where
  db : Ledger
  maxConcurrency : Int → Int
  inviterOf : Int → Option Int
  entries : List BalanceLedgerEntry
  rewards : List ReferralReward
  codes : List RedemptionCode
  uses : List RedemptionUse
  entryKeys : (entries.map BalanceLedgerEntry.idempotencyKey).Nodup
  rewardIds : (rewards.map ReferralReward.id).Nodup
  rewardKeys : (rewards.map ReferralReward.idempotencyKey).Nodup
  codeIds : (codes.map RedemptionCode.id).Nodup
  codeTexts : (codes.map RedemptionCode.code).Nodup
  useIds : (uses.map RedemptionUse.id).Nodup
  usePairs : (uses.map RedemptionUse.pair).Nodup

end C4Gateway.Wallet
