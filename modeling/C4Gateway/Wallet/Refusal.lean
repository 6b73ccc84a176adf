import C4Gateway.Wallet.Audit

/-! When a credit is accepted.  Settlement may take a balance below zero, and the statement that
raises a balance keeps only rows that do not end below zero. -/

namespace C4Gateway.Wallet

open List Sql Text

/-- Every audit entry has the key of its credit, and every reward the key of an audit entry. -/
structure Booked (s : Store) : Prop where
  keyed : ∀ e ∈ s.entries, e.idempotencyKey = idempotencyKey e.kind e.sourceID e.userID
  rewards : ∀ r ∈ s.rewards, r.idempotencyKey ∈ s.entries.map BalanceLedgerEntry.idempotencyKey

/-- Settlement statements and transactions, in any order. -/
inductive Op where
  | settle (lane : Lane) (now : Int) (limit : Nat) (k bucket : Int)
  | tx (tx : Tx)

def step (s : Store) : Op → Store
  | .settle lane now limit k bucket => { s with db := execSettle lane s.db now limit k bucket }
  | .tx tx => exec s tx

/-- No entry books a credit of this kind and source to the user. -/
def Unused (s : Store) (kind : BalanceLedgerKind) (sourceID : List Char) (userID : Int) : Prop :=
  ∀ e ∈ s.entries, ¬(e.kind = kind ∧ e.sourceID = sourceID ∧ e.userID = userID)

/-- The transaction commits and raises the user's balance by `amount`. -/
def Raises {α : Type} (s : Store) (x : Except Failure (Store × α)) (userID amount : Int) : Prop :=
  ∃ s' a, x = .ok (s', a) ∧ s'.db.balanceOf userID = s.db.balanceOf userID + amount

variable {userID amount now : Int} {kind : BalanceLedgerKind} {sourceID : List Char}

section
variable {s s' : Store} {e : BalanceLedgerEntry}

theorem Booked.of_same (hb : Booked s) (h : SameMoney s s') : Booked s' :=
  ⟨h.entries ▸ hb.keyed, by
    rw [h.rewards, h.entries]
    exact hb.rewards⟩

theorem Credited.booked (hb : Booked s) (h : Credited s s' userID amount kind sourceID now e) :
    Booked s' := by
  constructor
  · intro e' he'
    rw [h.entries, mem_append, mem_singleton] at he'
    rcases he' with he' | rfl
    · exact hb.keyed e' he'
    · rw [h.entry]
      rfl
  · intro r hr
    rw [h.entries, map_append, mem_append]
    rw [h.rewards, mem_append] at hr
    rcases hr with hr | hr
    · exact Or.inl (hb.rewards r hr)
    · obtain ⟨_, -, hkind, -, rfl⟩ := mem_rewardsFor.mp hr
      right
      rw [h.entry]
      simp [newReward, creditEntry, idempotencyKey, text_sourceTypeOf hkind]

theorem Booked.creditRewards (hb : Booked s) (ids : List Int) (now : Int) :
    Booked (creditRewards s ids now) := by
  refine ⟨hb.keyed, fun r hr => ?_⟩
  obtain ⟨r₀, hr₀, rfl⟩ := mem_map.mp hr
  have hkey := hb.rewards r₀ hr₀
  split
  · exact hkey
  · exact hkey

theorem Booked.step (hb : Booked s) (op : Op) : Booked (step s op) := by
  cases op with
  | settle lane now limit k bucket => exact ⟨hb.keyed, hb.rewards⟩
  | tx tx =>
    cases exec_change s tx with
    | none h => exact hb.of_same h
    | credit s₁ userID amount kind sourceID now e hkind hcredited h =>
      exact (hcredited.booked hb).of_same h
    | claim s₁ inviterID now sourceID order e htx hcredited h =>
      rw [Wallet.step, h]
      exact (hcredited.booked hb).creditRewards _ now

theorem unused_iff
    (hkeyed : ∀ e ∈ s.entries, e.idempotencyKey = idempotencyKey e.kind e.sourceID e.userID) :
    Unused s kind sourceID userID ↔ findEntry s (idempotencyKey kind sourceID userID) = none := by
  rw [findEntry_eq_none_iff]
  constructor
  · intro h hmem
    obtain ⟨e, he, hkey⟩ := mem_map.mp hmem
    rw [hkeyed e he] at hkey
    exact h e he (idempotencyKey_injective hkey)
  · rintro h e he ⟨rfl, rfl, rfl⟩
    exact h (mem_map.mpr ⟨e, he, hkeyed e he⟩)

end

section
variable {s : Store}

theorem Credited.raises {s' : Store} {e : BalanceLedgerEntry}
    (h : Credited s s' userID amount kind sourceID now e) :
    s'.db.balanceOf userID = s.db.balanceOf userID + amount := by
  rw [h.balanceOf, if_pos rfl]

theorem credited_of_unused {s' : Store} {e : BalanceLedgerEntry} (hb : Booked s)
    (hunused : Unused s kind sourceID userID)
    (hok : applyBalanceCredit s userID amount kind sourceID now = .ok (s', e)) :
    Credited s s' userID amount kind sourceID now e := by
  refine (applyBalanceCredit_ok hok).2.resolve_left fun h => ?_
  simp [(unused_iff hb.keyed).mp hunused] at h

/-- A credit under an unused key commits exactly if its arguments are valid and the balance does
not end below zero. -/
theorem credit_ok_iff (now : Int) (hb : Booked s) (huser : (getUser s.db userID).isSome)
    (hfit : InInt64 (s.db.balanceOf userID + amount)) (hunused : Unused s kind sourceID userID) :
    (∃ s' e, applyBalanceCredit s userID amount kind sourceID now = .ok (s', e) ∧
        Credited s s' userID amount kind sourceID now e) ↔
      ValidCredit userID amount sourceID ∧ 0 ≤ s.db.balanceOf userID + amount := by
  have hnone := (unused_iff hb.keyed).mp hunused
  constructor
  · rintro ⟨s', e, hok, hcredited⟩
    exact ⟨(applyBalanceCredit_ok hok).1, hcredited.covered⟩
  · rintro ⟨hvalid, hcovered⟩
    have hnew : ∀ r ∈ rewardsFor s userID amount kind sourceID now,
        r.idempotencyKey ∉ s.rewards.map ReferralReward.idempotencyKey := by
      intro r hr hmem
      obtain ⟨_, -, hkind, -, rfl⟩ := mem_rewardsFor.mp hr
      obtain ⟨q, hq, hkey⟩ := mem_map.mp hmem
      have hbooked := hb.rewards q hq
      rw [hkey] at hbooked
      simp only [newReward, text_sourceTypeOf hkind] at hbooked
      exact findEntry_eq_none_iff.mp hnone hbooked
    obtain ⟨s', hok⟩ := applyBalanceCredit_succeeds hvalid hnone huser hfit hcovered hnew
    exact ⟨s', _, hok, credited_of_unused hb hunused hok⟩

theorem credit_raises_iff (hb : Booked s) (huser : (getUser s.db userID).isSome)
    (hpos : 0 < amount) (hfit : InInt64 (s.db.balanceOf userID + amount))
    (hunused : Unused s kind sourceID userID) :
    Raises s (applyBalanceCredit s userID amount kind sourceID now) userID amount ↔
      0 < userID ∧ trimSpace sourceID ≠ [] ∧ 0 ≤ s.db.balanceOf userID + amount := by
  have hiff := credit_ok_iff now hb huser hfit hunused
  constructor
  · rintro ⟨s', e, hok, -⟩
    obtain ⟨⟨hid, -, hsource⟩, hcovered⟩ :=
      hiff.mp ⟨s', e, hok, credited_of_unused hb hunused hok⟩
    exact ⟨hid, hsource, hcovered⟩
  · rintro ⟨hid, hsource, hcovered⟩
    obtain ⟨s', e, hok, hcredited⟩ := hiff.mpr ⟨⟨hid, hpos.ne', hsource⟩, hcovered⟩
    exact ⟨s', e, hok, hcredited.raises⟩

theorem codeSource_ne_blank (c : RedemptionCode) : trimSpace (codeSource c) ≠ [] :=
  trimSpace_cons_ne_nil (by decide) _

theorem redeem_raises_iff {code : String} {c : RedemptionCode} {t : Clocks} (hb : Booked s)
    (huser : (getUser s.db userID).isSome) (hcode : getByCode s code = some c)
    (htype : c.type = .balance) (hredeemable : redeemable c t)
    (hfirst : (c.id, userID) ∉ s.uses.map RedemptionUse.pair)
    (hfit : InInt64 (s.db.balanceOf userID + c.value))
    (hunused : Unused s .redemption (codeSource c) userID) :
    Raises s (redeem s code userID t) userID c.value ↔
      0 < userID ∧ 0 ≤ s.db.balanceOf userID + c.value := by
  have hiff := credit_ok_iff t.reward hb huser hfit hunused
  constructor
  · rintro ⟨s', a, hok, -⟩
    obtain ⟨c', e, s₁, hcode', hredeemed⟩ := redeem_ok hok
    obtain rfl : c' = c := Option.some.inj (hcode'.symm.trans hcode)
    rcases hredeemed.applied with ⟨e, -, hcredit⟩ | ⟨hconc, -, -, -⟩ | ⟨htemp, -, -, -⟩
    · obtain ⟨⟨hid, -, -⟩, hcovered⟩ :=
        hiff.mp ⟨s₁, e, hcredit, credited_of_unused hb hunused hcredit⟩
      exact ⟨hid, hcovered⟩
    · rw [htype] at hconc
      cases hconc
    · simp [htype] at htemp
  · rintro ⟨hid, hcovered⟩
    obtain ⟨s₁, e, hcredit, hcredited⟩ :=
      hiff.mpr ⟨⟨hid, c.value_pos.ne', codeSource_ne_blank c⟩, hcovered⟩
    obtain ⟨s', a, hok, hredeemed⟩ :=
      redeem_succeeds hcode hfirst hredeemable (.balance e htype hcredit)
    exact ⟨s', a, hok, by rw [hredeemed.db, hcredited.raises]⟩

theorem claim_raises_iff {order : Scan ReferralReward} (hb : Booked s)
    (huser : (getUser s.db userID).isSome) (hpos : 0 < (claimed s userID now order).1)
    (hfit : InInt64 (s.db.balanceOf userID + (claimed s userID now order).1))
    (hunused : Unused s .referralClaim sourceID userID) :
    Raises s (claimAvailable s userID now sourceID order) userID (claimed s userID now order).1 ↔
      0 < userID ∧ trimSpace sourceID ≠ [] ∧
        0 ≤ s.db.balanceOf userID + (claimed s userID now order).1 := by
  have hnone := (unused_iff hb.keyed).mp hunused
  constructor
  · rintro ⟨s', e, hok, -⟩
    rcases claimAvailable_ok hok with ⟨hfound, -⟩ | ⟨⟨hid, -, hsource⟩, s₁, hcredited, -⟩
    · rw [hnone] at hfound
      cases hfound
    · exact ⟨hid, hsource, hcredited.covered⟩
  · rintro ⟨hid, hsource, hcovered⟩
    obtain ⟨s₁, e, hok, hcredited⟩ :=
      (credit_ok_iff now hb huser hfit hunused).mpr ⟨⟨hid, hpos.ne', hsource⟩, hcovered⟩
    have hraises := hcredited.raises
    refine ⟨creditRewards s₁ (claimed s userID now order).2 now, e, ?_, hraises⟩
    have hrewards : s₁.rewards = s.rewards := by simp [hcredited.rewards, rewardsFor_claim]
    have hcount := (crediting_claimed s userID now order).2.2
    rw [← hrewards] at hcount
    unfold claimed at hpos hok hcount ⊢
    rw [claimAvailable, hnone]
    simp only [if_neg hpos.ne', hok, bind, Except.bind]
    rw [if_pos hcount]

theorem creditUserBalance_eq (hpos : 0 < amount) (hid : 0 < userID)
    (hsource : trimSpace sourceID ≠ []) : creditUserBalance s userID amount sourceID now =
      applyBalanceCredit s userID amount .adminCredit sourceID now := by
  rw [creditUserBalance, if_neg (by simp [hpos, hid, hsource])]

theorem creditUserBalance_raises_iff (hb : Booked s) (huser : (getUser s.db userID).isSome)
    (hpos : 0 < amount) (hfit : InInt64 (s.db.balanceOf userID + amount))
    (hunused : Unused s .adminCredit sourceID userID) :
    Raises s (creditUserBalance s userID amount sourceID now) userID amount ↔
      0 < userID ∧ trimSpace sourceID ≠ [] ∧ 0 ≤ s.db.balanceOf userID + amount := by
  by_cases hvalid : 0 < userID ∧ trimSpace sourceID ≠ []
  · rw [creditUserBalance_eq hpos hvalid.1 hvalid.2]
    exact credit_raises_iff hb huser hpos hfit hunused
  · have hrefused : creditUserBalance s userID amount sourceID now =
        .error ⟨.invalidInput, ""⟩ := by
      refine if_pos ?_
      by_contra hargs
      simp only [not_or, not_le] at hargs
      exact hvalid ⟨hargs.1, hargs.2.2⟩
    rw [hrefused]
    constructor
    · rintro ⟨s', e, hok, -⟩
      cases hok
    · rintro ⟨hid, hsource, -⟩
      exact absurd ⟨hid, hsource⟩ hvalid

end

/-- In every store that settlements and transactions reach, a credit of a positive amount under an
unused source, whatever path it takes, raises the balance by that amount exactly if the balance does
not end below zero, for a valid user and source. -/
theorem credits_accepted_iff {s₀ : Store} (h₀ : Booked s₀) (ops : List Op) {s : Store}
    (hs : s ∈ Run.states step s₀ ops) {userID : Int} (huser : (getUser s.db userID).isSome) :
    (∀ amount kind sourceID now, 0 < amount → InInt64 (s.db.balanceOf userID + amount) →
      Unused s kind sourceID userID →
      (Raises s (applyBalanceCredit s userID amount kind sourceID now) userID amount ↔
        0 < userID ∧ trimSpace sourceID ≠ [] ∧ 0 ≤ s.db.balanceOf userID + amount)) ∧
    (∀ amount sourceID now, 0 < amount → InInt64 (s.db.balanceOf userID + amount) →
      Unused s .adminCredit sourceID userID →
      (Raises s (creditUserBalance s userID amount sourceID now) userID amount ↔
        0 < userID ∧ trimSpace sourceID ≠ [] ∧ 0 ≤ s.db.balanceOf userID + amount)) ∧
    (∀ code c t, getByCode s code = some c → c.type = .balance → redeemable c t →
      (c.id, userID) ∉ s.uses.map RedemptionUse.pair →
      InInt64 (s.db.balanceOf userID + c.value) → Unused s .redemption (codeSource c) userID →
      (Raises s (redeem s code userID t) userID c.value ↔
        0 < userID ∧ 0 ≤ s.db.balanceOf userID + c.value)) ∧
    (∀ sourceID now order, 0 < (claimed s userID now order).1 →
      InInt64 (s.db.balanceOf userID + (claimed s userID now order).1) →
      Unused s .referralClaim sourceID userID →
      (Raises s (claimAvailable s userID now sourceID order) userID
          (claimed s userID now order).1 ↔
        0 < userID ∧ trimSpace sourceID ≠ [] ∧
          0 ≤ s.db.balanceOf userID + (claimed s userID now order).1)) := by
  have hb : Booked s := Run.states_inv Booked (fun _ op h => h.step op) h₀ s hs
  refine ⟨?_, ?_, ?_, ?_⟩
  · intro amount kind sourceID now
    exact credit_raises_iff hb huser
  · intro amount sourceID now
    exact creditUserBalance_raises_iff hb huser
  · intro code c t
    exact redeem_raises_iff hb huser
  · intro sourceID now order
    exact claim_raises_iff hb huser

theorem inInt64_newUser : ∀ u ∈ [({ id := 4, balance := 0 } : User)], InInt64 u.balance := by
  decide

/-- One user without balance, and what the user has requested so far. -/
def newUser (logs : List UsageLog) (h : (logs.map UsageLog.id).Nodup) : Ledger where
  logs := logs
  users := [{ id := 4, balance := 0 }]
  temps := []
  logIds := h
  userIds := nodup_singleton _
  tempIds := nodup_nil
  balances := inInt64_newUser

/-- Codes that nobody has redeemed yet. -/
def Store.opening (db : Ledger) (codes : List RedemptionCode)
    (hids : (codes.map RedemptionCode.id).Nodup) (htexts : (codes.map RedemptionCode.code).Nodup) :
    Store where
  db := db
  maxConcurrency _ := 0
  inviterOf _ := none
  entries := []
  rewards := []
  codes := codes
  uses := []
  entryKeys := nodup_nil
  rewardIds := nodup_nil
  rewardKeys := nodup_nil
  codeIds := hids
  codeTexts := htexts
  useIds := nodup_nil
  usePairs := nodup_nil

def giftCode (id maxUses : Int) (h : 1 ≤ maxUses) : RedemptionCode where
  id := id
  code := "GIFT"
  type := .balance
  value := 50
  maxUses := maxUses
  maxUses_pos := h

/-- A user without balance, with one request that is not settled yet, and a code for the user. -/
def unsettled : Store :=
  .opening (newUser [{ id := 1, format := .anthropic, userId := some 4, cost := 100 }] (by decide))
    [giftCode 1 1 le_rfl] (by decide) (by decide)

theorem unsettled_booked : Booked unsettled :=
  ⟨by simp [unsettled, Store.opening], by simp [unsettled, Store.opening]⟩

/-- The settlement of the request, which no funds of the user cover. -/
def settleAll : Op := .settle .balance 0 500 1 0

theorem credits_accepted_overdrawn : (step unsettled settleAll).db.balanceOf 4 = -100 ∧
    Raises (step unsettled settleAll)
      (applyBalanceCredit (step unsettled settleAll) 4 150 .adminCredit "order:1".toList 0)
      4 150 := by
  have hbalance : (step unsettled settleAll).db.balanceOf 4 = -100 := by decide +kernel
  have hmem : step unsettled settleAll ∈ Run.states step unsettled [settleAll] := by
    simp [Run.states]
  refine ⟨hbalance, ((credits_accepted_iff unsettled_booked [settleAll] hmem
    (by decide +kernel)).1 150 .adminCredit "order:1".toList 0 (by decide) ?_ ?_).mpr
    ⟨by decide, by decide, ?_⟩⟩
  · rw [hbalance]
    decide
  · simp [Unused, step, settleAll, unsettled, Store.opening]
  · rw [hbalance]
    decide

def failure {α : Type} : Except Failure α → Option Failure
  | .ok _ => none
  | .error f => some f

/-- After the settlement, a paid credit of 50 is refused, and so is the code. -/
theorem credits_refused_overdrawn :
    InInt64 ((step unsettled settleAll).db.balanceOf 4 + 50) ∧
    Unused (step unsettled settleAll) .adminCredit "order:1".toList 4 ∧
    failure (applyBalanceCredit (step unsettled settleAll) 4 50 .adminCredit "order:1".toList 0) =
      some ⟨.conflict, "balance cannot become negative"⟩ ∧
    failure (creditUserBalance (step unsettled settleAll) 4 50 "order:1".toList 0) =
      some ⟨.conflict, "balance cannot become negative"⟩ ∧
    failure (redeem (step unsettled settleAll) "GIFT" 4 ⟨0, 0, 0, 0⟩) =
      some ⟨.conflict, "balance cannot become negative"⟩ := by
  refine ⟨by decide +kernel, ?_, by decide +kernel, by decide +kernel, by decide +kernel⟩
  simp [Unused, step, settleAll, unsettled, Store.opening]

end C4Gateway.Wallet
