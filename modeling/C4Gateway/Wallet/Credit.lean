import C4Gateway.Wallet.Tables
import C4Gateway.Ledger.Settle

/-! Credits to a balance: the credit with its audit entry and its referral reward, the absolute
balance, and the claim of matured rewards.  A transaction that fails leaves the tables as they
were. -/

namespace C4Gateway.Wallet

open List Sql Text

inductive FailureKind where
  | plain
  | invalidInput
  | notFound
  | conflict
  | database
  deriving DecidableEq, Repr

/-- An error: the sentinel that it wraps, and its text or the SQLSTATE of the database. -/
structure Failure where
  kind : FailureKind
  message : String
  deriving DecidableEq, Repr

def errMissingID (id : Int) : Failure := ⟨.notFound, s!"id={id} missing"⟩

def setBalance (db : Ledger) (userID after : Int) (h : InInt64 after) : Ledger where
  logs := db.logs
  users := db.users.map fun u => if u.id = userID then { u with balance := after } else u
  temps := db.temps
  logIds := db.logIds
  userIds := by
    have hids : User.id ∘ (fun u : User =>
        if u.id = userID then { u with balance := after } else u) = User.id := by
      funext u
      simp only [Function.comp_apply]
      split <;> rfl
    rw [map_map, hids]
    exact db.userIds
  tempIds := db.tempIds
  balances := by
    intro u hu
    obtain ⟨r, hr, rfl⟩ := mem_map.mp hu
    split
    · exact h
    · exact db.balances r hr

def getUser (db : Ledger) (userID : Int) : Option User := db.users.find? fun u => u.id = userID

/-- The statement keeps a row whose balance does not become negative, and fails on overflow. -/
def incrementBalanceReturning (db : Ledger) (userID amount : Int) :
    Except Failure (Ledger × Int) :=
  match getUser db userID with
  | none => .error ⟨.notFound, s!"id={userID}"⟩
  | some u =>
    if h : InInt64 (u.balance + amount) then
      if u.balance + amount ≥ 0 then
        .ok (setBalance db userID (u.balance + amount) h, u.balance + amount)
      else .error ⟨.conflict, "balance cannot become negative"⟩
    else .error ⟨.database, numericOutOfRange⟩

def insertEntry (s : Store) (e : BalanceLedgerEntry) : Except Failure Store :=
  if h : e.idempotencyKey ∈ s.entries.map BalanceLedgerEntry.idempotencyKey then
    .error ⟨.conflict, "duplicate balance credit"⟩
  else .ok { s with
    entries := s.entries ++ [e]
    entryKeys := by simpa using s.entryKeys.concat h }

def insertReward (s : Store) (r : ReferralReward)
    (fresh : r.id ∉ s.rewards.map ReferralReward.id) : Except Failure Store :=
  if h : r.idempotencyKey ∈ s.rewards.map ReferralReward.idempotencyKey then
    .error ⟨.conflict, "duplicate referral reward"⟩
  else .ok { s with
    rewards := s.rewards ++ [r]
    rewardIds := by simpa using s.rewardIds.concat fresh
    rewardKeys := by simpa using s.rewardKeys.concat h }

def referralRewardAmount (baseAmount : Int) : Int :=
  if baseAmount ≤ 0 then 0 else baseAmount / 20

def sourceTypeOf (kind : BalanceLedgerKind) : ReferralRewardSource :=
  if kind = .adminCredit then .adminCredit else .redemption

/-- The reward that `createRewardForCredit` stores. -/
def newReward (s : Store) (inviterID inviteeID amount : Int) (kind : BalanceLedgerKind)
    (sourceID : List Char) (now : Int) : ReferralReward where
  id := nextID (s.rewards.map ReferralReward.id)
  inviterID := inviterID
  inviteeID := inviteeID
  sourceType := sourceTypeOf kind
  sourceID := sourceID
  idempotencyKey := (sourceTypeOf kind).text ++ ':' :: (sourceID ++ ':' :: decimal inviteeID)
  baseAmount := amount
  rewardAmount := referralRewardAmount amount
  availableAt := now + day

def createRewardForCredit (s : Store) (inviteeID amount : Int) (kind : BalanceLedgerKind)
    (sourceID : List Char) (now : Int) : Except Failure Store :=
  match s.inviterOf inviteeID with
  | none => .ok s
  | some inviterID =>
    if referralRewardAmount amount ≤ 0 then .ok s
    else insertReward s (newReward s inviterID inviteeID amount kind sourceID now)
      (nextID_notMem _)

def findEntry (s : Store) (key : List Char) : Option BalanceLedgerEntry :=
  s.entries.find? fun e => e.idempotencyKey = key

/-- The audit entry of a credit that leaves the balance at `after`. -/
def creditEntry (userID amount : Int) (kind : BalanceLedgerKind) (sourceID : List Char)
    (after : Int) : BalanceLedgerEntry where
  userID := userID
  kind := kind
  sourceID := sourceID
  idempotencyKey := idempotencyKey kind sourceID userID
  delta := amount
  balanceBefore := after - amount
  balanceAfter := after

/-- Kinds of credit that a referral reward follows. -/
def rewarded (kind : BalanceLedgerKind) : Bool := kind == .redemption || kind == .adminCredit

/-- A credit, its entry and the reward for it; a known key only returns its entry. -/
def applyBalanceCredit (s : Store) (userID amount : Int) (kind : BalanceLedgerKind)
    (sourceID : List Char) (now : Int) : Except Failure (Store × BalanceLedgerEntry) :=
  if userID ≤ 0 ∨ amount = 0 ∨ trimSpace sourceID = [] then
    .error ⟨.plain, "invalid balance adjustment"⟩
  else
    match findEntry s (idempotencyKey kind sourceID userID) with
    | some existing => .ok (s, existing)
    | none => do
      let (db, after) ← incrementBalanceReturning s.db userID amount
      let entry := creditEntry userID amount kind sourceID after
      let s ← insertEntry { s with db := db } entry
      if amount > 0 ∧ rewarded kind then
        let s ← createRewardForCredit s userID amount kind sourceID now
        .ok (s, entry)
      else .ok (s, entry)

/-- The delta is an `int64` difference, which wraps around. -/
def applyBalanceSet (s : Store) (userID target : Int) (sourceID : List Char) (now : Int) :
    Except Failure (Store × BalanceLedgerEntry) :=
  if userID ≤ 0 ∨ target < 0 ∨ trimSpace sourceID = [] then
    .error ⟨.plain, "invalid balance target"⟩
  else
    match getUser s.db userID with
    | none => .error (errMissingID userID)
    | some row =>
      let delta := wrapInt64 (target - row.balance)
      if delta = 0 then
        .ok (s, { userID := userID, kind := .adminCredit, sourceID := sourceID, delta := 0
                  balanceBefore := target, balanceAfter := target })
      else applyBalanceCredit s userID delta .adminCredit sourceID now

def creditUserBalance (s : Store) (userID amount : Int) (sourceID : List Char) (now : Int) :
    Except Failure (Store × BalanceLedgerEntry) :=
  if userID ≤ 0 ∨ amount ≤ 0 ∨ trimSpace sourceID = [] then .error ⟨.invalidInput, ""⟩
  else applyBalanceCredit s userID amount .adminCredit sourceID now

def matured (s : Store) (inviterID now : Int) : List ReferralReward :=
  s.rewards.filter fun r => r.inviterID = inviterID ∧ r.status = .pending ∧ r.availableAt ≤ now

/-- The loop over the matured rows: a row that would overflow the total is skipped. -/
def sumRewards (rows : List ReferralReward) : Int × List Int :=
  rows.foldl (fun acc row =>
    if row.rewardAmount > 0 ∧ acc.1 ≤ maxInt64 - row.rewardAmount then
      (acc.1 + row.rewardAmount, acc.2 ++ [row.id])
    else acc) (0, [])

/-- The WHERE of the update that credits the claimed rows. -/
def crediting (ids : List Int) (r : ReferralReward) : Bool := r.id ∈ ids && r.status == .pending

def ReferralReward.credit (now : Int) (r : ReferralReward) : ReferralReward :=
  { r with status := .credited, creditedAt := some now }

def creditRewards (s : Store) (ids : List Int) (now : Int) : Store :=
  { s with
    rewards := s.rewards.map fun r => if crediting ids r then r.credit now else r
    rewardIds := by
      have hids : ReferralReward.id ∘ (fun r : ReferralReward =>
          if crediting ids r then r.credit now else r) = ReferralReward.id := by
        funext r
        simp only [Function.comp_apply]
        split <;> rfl
      rw [map_map, hids]
      exact s.rewardIds
    rewardKeys := by
      have hkeys : ReferralReward.idempotencyKey ∘ (fun r : ReferralReward =>
          if crediting ids r then r.credit now else r) = ReferralReward.idempotencyKey := by
        funext r
        simp only [Function.comp_apply]
        split <;> rfl
      rw [map_map, hkeys]
      exact s.rewardKeys }

/-- All matured rewards at once, unless one of them has changed in between. -/
def claimAvailable (s : Store) (inviterID now : Int) (sourceID : List Char)
    (order : Scan ReferralReward) : Except Failure (Store × BalanceLedgerEntry) :=
  match findEntry s (idempotencyKey .referralClaim sourceID inviterID) with
  | some existing => .ok (s, existing)
  | none =>
    let claim := sumRewards (order.arrange (matured s inviterID now))
    if claim.1 = 0 then .error ⟨.notFound, "no available referral reward"⟩
    else do
      let (s, entry) ← applyBalanceCredit s inviterID claim.1 .referralClaim sourceID now
      if (s.rewards.filter (crediting claim.2)).length = claim.2.length then
        .ok (creditRewards s claim.2 now, entry)
      else .error ⟨.plain, "referral rewards changed during claim"⟩

section
variable {db : Ledger} {u : User} {userID after : Int}

theorem getUser_eq_some_iff : getUser db userID = some u ↔ u ∈ db.users ∧ u.id = userID :=
  find?_key_iff db.userIds

theorem balanceOf_eq_of_getUser (h : getUser db userID = some u) :
    db.balanceOf userID = u.balance := by
  obtain ⟨hu, hid⟩ := getUser_eq_some_iff.mp h
  have hrow := filter_key_eq db.userIds hu
  rw [hid] at hrow
  simp [Ledger.balanceOf, hrow]

theorem getUser_setBalance (h : InInt64 after) (k : Int) :
    getUser (setBalance db userID after h) k =
      (getUser db k).map fun u => if u.id = userID then { u with balance := after } else u := by
  have hid : ((fun u => decide (u.id = k)) ∘ fun u : User =>
      if u.id = userID then { u with balance := after } else u) = fun u => decide (u.id = k) := by
    funext u
    simp only [Function.comp_apply]
    split <;> rfl
  rw [getUser, setBalance, find?_map, hid]
  rfl

theorem balanceOf_eq_zero (h : getUser db userID = none) : db.balanceOf userID = 0 := by
  have hrow : db.users.filter (fun r => r.id = userID) = [] := by
    rw [filter_eq_nil_iff]
    exact find?_eq_none.mp h
  simp [Ledger.balanceOf, hrow]

theorem balanceOf_setBalance (hu : (getUser db userID).isSome) (h : InInt64 after) (k : Int) :
    (setBalance db userID after h).balanceOf k =
      if k = userID then after else db.balanceOf k := by
  cases hk : getUser db k with
  | none =>
    have hne : k ≠ userID := by
      rintro rfl
      simp [hk] at hu
    rw [balanceOf_eq_zero (by rw [getUser_setBalance, hk]; rfl), balanceOf_eq_zero hk, if_neg hne]
  | some r =>
    have hid : r.id = k := (getUser_eq_some_iff.mp hk).2
    rw [balanceOf_eq_of_getUser (by rw [getUser_setBalance, hk]; rfl), balanceOf_eq_of_getUser hk]
    simp only [hid]
    split <;> rfl

theorem incrementBalanceReturning_eq_ok_iff {amount : Int} {db' : Ledger} :
    incrementBalanceReturning db userID amount = .ok (db', after) ↔
      (getUser db userID).isSome ∧ after = db.balanceOf userID + amount ∧ 0 ≤ after ∧
        ∃ h : InInt64 after, db' = setBalance db userID after h := by
  unfold incrementBalanceReturning
  split
  · next hnone => simp [hnone]
  · next u hu =>
    rw [balanceOf_eq_of_getUser hu]
    split
    · next hfit =>
      split
      · next hpos =>
        simp only [Except.ok.injEq, Prod.mk.injEq, hu, Option.isSome_some, true_and]
        constructor
        · rintro ⟨rfl, rfl⟩
          exact ⟨rfl, hpos, hfit, rfl⟩
        · rintro ⟨rfl, -, -, rfl⟩
          exact ⟨rfl, rfl⟩
      · next hneg =>
        simp only [reduceCtorEq, false_iff]
        rintro ⟨-, rfl, hpos, -⟩
        exact hneg hpos
    · next hout =>
      simp only [reduceCtorEq, false_iff]
      rintro ⟨-, rfl, -, hfit, -⟩
      exact hout hfit

end

section
variable {s s' : Store} {userID amount now : Int} {kind : BalanceLedgerKind}
  {sourceID : List Char} {e : BalanceLedgerEntry}

theorem findEntry_eq_none_iff {key : List Char} :
    findEntry s key = none ↔ key ∉ s.entries.map BalanceLedgerEntry.idempotencyKey := by
  simp [findEntry]

/-- The rewards that a credit creates: one at most. -/
def rewardsFor (s : Store) (userID amount : Int) (kind : BalanceLedgerKind)
    (sourceID : List Char) (now : Int) : List ReferralReward :=
  match s.inviterOf userID with
  | none => []
  | some inviterID =>
    if rewarded kind ∧ 0 < referralRewardAmount amount then
      [newReward s inviterID userID amount kind sourceID now]
    else []

theorem mem_rewardsFor {r : ReferralReward} :
    r ∈ rewardsFor s userID amount kind sourceID now ↔
      ∃ inviterID, s.inviterOf userID = some inviterID ∧ rewarded kind ∧
        0 < referralRewardAmount amount ∧
        r = newReward s inviterID userID amount kind sourceID now := by
  unfold rewardsFor
  split
  · next hnone => simp [hnone]
  · next inviterID hsome =>
    split
    · next hpays => simp [hsome, hpays]
    · next hfree =>
      simp only [not_mem_nil, false_iff]
      rintro ⟨_, -, hkind, hpos, -⟩
      exact hfree ⟨hkind, hpos⟩

/-- What a credit that is not a replay has done. -/
structure Credited (s s' : Store) (userID amount : Int) (kind : BalanceLedgerKind)
    (sourceID : List Char) (now : Int) (e : BalanceLedgerEntry) : Prop where
  user : (getUser s.db userID).isSome
  unused : findEntry s (idempotencyKey kind sourceID userID) = none
  covered : 0 ≤ s.db.balanceOf userID + amount
  entry : e = creditEntry userID amount kind sourceID (s.db.balanceOf userID + amount)
  db : ∃ h : InInt64 (s.db.balanceOf userID + amount),
    s'.db = setBalance s.db userID (s.db.balanceOf userID + amount) h
  entries : s'.entries = s.entries ++ [e]
  rewards : s'.rewards = s.rewards ++ rewardsFor s userID amount kind sourceID now
  maxConcurrency : s'.maxConcurrency = s.maxConcurrency
  inviterOf : s'.inviterOf = s.inviterOf
  codes : s'.codes = s.codes
  uses : s'.uses = s.uses

/-- The arguments that a credit accepts. -/
def ValidCredit (userID amount : Int) (sourceID : List Char) : Prop :=
  0 < userID ∧ amount ≠ 0 ∧ trimSpace sourceID ≠ []

theorem referralRewardAmount_pos_imp (h : 0 < referralRewardAmount amount) : 0 < amount := by
  unfold referralRewardAmount at h
  split at h <;> omega

theorem insertReward_ok {r : ReferralReward} {fresh : r.id ∉ s.rewards.map ReferralReward.id}
    (h : insertReward s r fresh = .ok s') :
    s'.rewards = s.rewards ++ [r] ∧ s'.db = s.db ∧ s'.entries = s.entries ∧
      s'.maxConcurrency = s.maxConcurrency ∧ s'.inviterOf = s.inviterOf ∧ s'.codes = s.codes ∧
      s'.uses = s.uses := by
  unfold insertReward at h
  split_ifs at h
  cases h
  exact ⟨rfl, rfl, rfl, rfl, rfl, rfl, rfl⟩

theorem createRewardForCredit_ok (hkind : rewarded kind = true)
    (h : createRewardForCredit s userID amount kind sourceID now = .ok s') :
    s'.rewards = s.rewards ++ rewardsFor s userID amount kind sourceID now ∧ s'.db = s.db ∧
      s'.entries = s.entries ∧ s'.maxConcurrency = s.maxConcurrency ∧
      s'.inviterOf = s.inviterOf ∧ s'.codes = s.codes ∧ s'.uses = s.uses := by
  unfold createRewardForCredit at h
  unfold rewardsFor
  split at h
  · cases h
    simp
  · next inviterID hsome =>
    split at h
    · next hfree =>
      cases h
      simp [not_lt.mpr hfree]
    · next hpays =>
      simpa [hkind, not_le.mp hpays] using insertReward_ok h

theorem applyBalanceCredit_ok
    (h : applyBalanceCredit s userID amount kind sourceID now = .ok (s', e)) :
    ValidCredit userID amount sourceID ∧
      ((findEntry s (idempotencyKey kind sourceID userID) = some e ∧ s' = s) ∨
        Credited s s' userID amount kind sourceID now e) := by
  unfold applyBalanceCredit at h
  split at h
  · cases h
  next hargs =>
  refine ⟨by simpa [ValidCredit] using hargs, ?_⟩
  split at h
  · next existing hfound =>
    cases h
    exact Or.inl ⟨hfound, rfl⟩
  next hnone =>
  right
  simp only [bind, Except.bind] at h
  split at h
  · cases h
  next step hstep =>
  obtain ⟨db, after⟩ := step
  obtain ⟨huser, rfl, hpos, hfit, rfl⟩ := incrementBalanceReturning_eq_ok_iff.mp hstep
  split at h
  · cases h
  next s₁ hs₁ =>
  unfold insertEntry at hs₁
  split_ifs at hs₁
  cases hs₁
  split at h
  · next hreward =>
    split at h
    · cases h
    next s₂ hs₂ =>
    cases h
    obtain ⟨hrewards, hdb, hentries, hmax, hinv, hcodes, huses⟩ :=
      createRewardForCredit_ok hreward.2 hs₂
    exact ⟨huser, hnone, hpos, rfl, ⟨hfit, hdb⟩, hentries, hrewards, hmax, hinv, hcodes, huses⟩
  · next hfree =>
    cases h
    have hnil : rewardsFor s userID amount kind sourceID now = [] := by
      rw [eq_nil_iff_forall_not_mem]
      intro r hr
      obtain ⟨_, -, hkind, hamount, -⟩ := mem_rewardsFor.mp hr
      exact hfree ⟨referralRewardAmount_pos_imp hamount, hkind⟩
    exact ⟨huser, hnone, hpos, rfl, ⟨hfit, rfl⟩, rfl, by simp [hnil], rfl, rfl, rfl, rfl⟩

theorem applyBalanceCredit_replay (hargs : ValidCredit userID amount sourceID)
    (hfound : findEntry s (idempotencyKey kind sourceID userID) = some e) :
    applyBalanceCredit s userID amount kind sourceID now = .ok (s, e) := by
  obtain ⟨hid, hamount, hsource⟩ := hargs
  rw [applyBalanceCredit, if_neg (by simp [hid, hamount, hsource]), hfound]

theorem Credited.balanceOf (h : Credited s s' userID amount kind sourceID now e) (k : Int) :
    s'.db.balanceOf k = s.db.balanceOf k + if k = userID then amount else 0 := by
  obtain ⟨hfit, hdb⟩ := h.db
  rw [hdb, balanceOf_setBalance h.user]
  split
  · next heq => rw [heq]
  · simp

theorem Credited.isSome_getUser (h : Credited s s' userID amount kind sourceID now e) (k : Int) :
    (getUser s'.db k).isSome = (getUser s.db k).isSome := by
  obtain ⟨hfit, hdb⟩ := h.db
  rw [hdb, getUser_setBalance, Option.isSome_map]

theorem createRewardForCredit_succeeds (hkind : rewarded kind = true)
    (hnew : ∀ r ∈ rewardsFor s userID amount kind sourceID now,
      r.idempotencyKey ∉ s.rewards.map ReferralReward.idempotencyKey) :
    ∃ s', createRewardForCredit s userID amount kind sourceID now = .ok s' := by
  unfold createRewardForCredit
  split
  · exact ⟨s, rfl⟩
  · next inviterID hinviter =>
    split
    · exact ⟨s, rfl⟩
    · next hpays =>
      have hkey := hnew _ (mem_rewardsFor.mpr ⟨inviterID, hinviter, hkind, not_le.mp hpays, rfl⟩)
      unfold insertReward
      rw [dif_neg hkey]
      exact ⟨_, rfl⟩

theorem applyBalanceCredit_succeeds (hargs : ValidCredit userID amount sourceID)
    (hunused : findEntry s (idempotencyKey kind sourceID userID) = none)
    (huser : (getUser s.db userID).isSome) (hfit : InInt64 (s.db.balanceOf userID + amount))
    (hcovered : 0 ≤ s.db.balanceOf userID + amount)
    (hnew : ∀ r ∈ rewardsFor s userID amount kind sourceID now,
      r.idempotencyKey ∉ s.rewards.map ReferralReward.idempotencyKey) :
    ∃ s', applyBalanceCredit s userID amount kind sourceID now =
      .ok (s', creditEntry userID amount kind sourceID (s.db.balanceOf userID + amount)) := by
  have hstep : incrementBalanceReturning s.db userID amount =
      .ok (setBalance s.db userID (s.db.balanceOf userID + amount) hfit,
        s.db.balanceOf userID + amount) :=
    incrementBalanceReturning_eq_ok_iff.mpr ⟨huser, rfl, hcovered, hfit, rfl⟩
  obtain ⟨hid, hamount, hsource⟩ := hargs
  rw [applyBalanceCredit, if_neg (by simp [hid, hamount, hsource]), hunused]
  simp only [hstep, bind, Except.bind]
  rw [insertEntry, dif_neg (by simpa [creditEntry] using findEntry_eq_none_iff.mp hunused)]
  simp only
  split
  · next hrewarded =>
    obtain ⟨s', hs'⟩ := @createRewardForCredit_succeeds { s with
      db := setBalance s.db userID (s.db.balanceOf userID + amount) hfit
      entries := s.entries ++ [_]
      entryKeys := _ } userID amount now kind sourceID hrewarded.2 hnew
    rw [hs']
    exact ⟨s', rfl⟩
  · exact ⟨_, rfl⟩

theorem applyBalanceSet_ok {target : Int}
    (h : applyBalanceSet s userID target sourceID now = .ok (s', e)) :
    s' = s ∨ ∃ delta, applyBalanceCredit s userID delta .adminCredit sourceID now =
      .ok (s', e) := by
  unfold applyBalanceSet at h
  split at h
  · cases h
  split at h
  · cases h
  simp only at h
  split at h
  · cases h
    exact Or.inl rfl
  · exact Or.inr ⟨_, h⟩

/-- The rewards that a claim sums, and their total. -/
def claimed (s : Store) (inviterID now : Int) (order : Scan ReferralReward) : Int × List Int :=
  sumRewards (order.arrange (matured s inviterID now))

theorem claimAvailable_ok {inviterID : Int} {order : Scan ReferralReward}
    (h : claimAvailable s inviterID now sourceID order = .ok (s', e)) :
    (findEntry s (idempotencyKey .referralClaim sourceID inviterID) = some e ∧ s' = s) ∨
      (ValidCredit inviterID (claimed s inviterID now order).1 sourceID ∧
        ∃ s₁, Credited s s₁ inviterID (claimed s inviterID now order).1 .referralClaim
            sourceID now e ∧
          s' = creditRewards s₁ (claimed s inviterID now order).2 now) := by
  unfold claimAvailable at h
  split at h
  · next existing hfound =>
    cases h
    exact Or.inl ⟨hfound, rfl⟩
  next hnone =>
  right
  simp only at h
  split_ifs at h
  simp only [bind, Except.bind] at h
  split at h
  · cases h
  next step hstep =>
  obtain ⟨s₁, entry⟩ := step
  split at h
  · cases h
    obtain ⟨hvalid, hdone⟩ := applyBalanceCredit_ok hstep
    refine ⟨hvalid, s₁, ?_, rfl⟩
    rcases hdone with ⟨hfound, -⟩ | hcredited
    · rw [hnone] at hfound
      cases hfound
    · exact hcredited
  · cases h

end
end C4Gateway.Wallet
