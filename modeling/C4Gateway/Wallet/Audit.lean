import C4Gateway.Lib.Run
import C4Gateway.Wallet.Redeem

/-! Conservation across `users`, `balance_ledger` and `referral_rewards`: what any sequence of
credits, absolute balances, redemptions and claims writes to them, replays included. -/

namespace C4Gateway.Wallet

open List Sql

/-- The transactions that change a balance. -/
inductive Tx where
  | credit (userID amount : Int) (kind : BalanceLedgerKind) (sourceID : List Char) (now : Int)
  | set (userID target : Int) (sourceID : List Char) (now : Int)
  | redeem (code : String) (userID : Int) (t : Clocks)
  | claim (inviterID now : Int) (sourceID : List Char) (order : Scan ReferralReward)

/-- The tables after a transaction: one that fails is rolled back. -/
def committed {α : Type} (s : Store) : Except Failure (Store × α) → Store
  | .ok (s', _) => s'
  | .error _ => s

def exec (s : Store) : Tx → Store
  | .credit userID amount kind sourceID now =>
    committed s (applyBalanceCredit s userID amount kind sourceID now)
  | .set userID target sourceID now => committed s (applyBalanceSet s userID target sourceID now)
  | .redeem code userID t => committed s (redeem s code userID t)
  | .claim inviterID now sourceID order =>
    committed s (claimAvailable s inviterID now sourceID order)

/-- A transaction other than a bare credit of the kind that `ClaimAvailable` books: no caller of
`ApplyBalanceCredit` but `ClaimAvailable` passes that kind. -/
def Tx.issued : Tx → Prop
  | .credit _ _ kind _ _ => kind ≠ .referralClaim
  | _ => True

/-- The three tables are as before. -/
structure SameMoney (s s' : Store) : Prop where
  balance : ∀ u, s'.db.balanceOf u = s.db.balanceOf u
  entries : s'.entries = s.entries
  rewards : s'.rewards = s.rewards
  inviterOf : s'.inviterOf = s.inviterOf

theorem SameMoney.refl (s : Store) : SameMoney s s := ⟨fun _ => rfl, rfl, rfl, rfl⟩

theorem SameMoney.trans {s s₁ s' : Store} (h : SameMoney s s₁) (h' : SameMoney s₁ s') :
    SameMoney s s' :=
  ⟨fun u => (h'.balance u).trans (h.balance u), h'.entries.trans h.entries,
    h'.rewards.trans h.rewards, h'.inviterOf.trans h.inviterOf⟩

/-- What a transaction does to the three tables. -/
inductive Change (s s' : Store) (tx : Tx) : Prop where
  | none (h : SameMoney s s')
  | credit (s₁ : Store) (userID amount : Int) (kind : BalanceLedgerKind) (sourceID : List Char)
      (now : Int) (e : BalanceLedgerEntry) (hkind : tx.issued → kind ≠ .referralClaim)
      (hcredited : Credited s s₁ userID amount kind sourceID now e) (h : SameMoney s₁ s')
  | claim (s₁ : Store) (inviterID now : Int) (sourceID : List Char) (order : Scan ReferralReward)
      (e : BalanceLedgerEntry) (htx : tx = .claim inviterID now sourceID order)
      (hcredited : Credited s s₁ inviterID (claimed s inviterID now order).1 .referralClaim
        sourceID now e)
      (h : s' = creditRewards s₁ (claimed s inviterID now order).2 now)

variable {t : Clocks} {tx : Tx} {c : RedemptionCode} {userID : Int} {e : Option BalanceLedgerEntry}
  {s s' : Store}

theorem Change.of_credit {amount now : Int} {kind : BalanceLedgerKind}
    {sourceID : List Char} {e : BalanceLedgerEntry} (hkind : tx.issued → kind ≠ .referralClaim)
    (h : applyBalanceCredit s userID amount kind sourceID now = .ok (s', e)) : Change s s' tx := by
  rcases (applyBalanceCredit_ok h).2 with ⟨-, rfl⟩ | hcredited
  · exact .none (SameMoney.refl s')
  · exact .credit s' userID amount kind sourceID now e hkind hcredited (SameMoney.refl s')

theorem Change.of_committed {α : Type} {s : Store} {x : Except Failure (Store × α)}
    (hok : ∀ s' a, x = .ok (s', a) → Change s s' tx) : Change s (committed s x) tx := by
  cases x with
  | error => exact .none (SameMoney.refl s)
  | ok out => exact hok out.1 out.2 rfl

theorem Redeemed.sameMoney {s s' s₁ : Store} (h : Redeemed s s' c userID t e s₁) :
    SameMoney s₁ s' :=
  ⟨fun u => by rw [h.db], h.entries, h.rewards, h.inviterOf⟩

theorem Change.trans_same {s s₁ s' : Store} (h : Change s s₁ tx)
    (htx : ∀ inviterID now sourceID order, tx ≠ .claim inviterID now sourceID order)
    (hsame : SameMoney s₁ s') : Change s s' tx := by
  cases h with
  | none h => exact .none (h.trans hsame)
  | credit s₂ userID amount kind sourceID now e hkind hcredited h =>
    exact .credit s₂ userID amount kind sourceID now e hkind hcredited (h.trans hsame)
  | claim s₂ inviterID now sourceID order e heq => exact absurd heq (htx _ _ _ _)

theorem Applied.change (tx : Tx) (h : Applied s s' userID c t e) :
    Change s s' tx := by
  rcases h with ⟨e, -, h⟩ | ⟨-, -, -, rfl⟩ | ⟨-, -, -, rfl⟩
  · exact Change.of_credit (fun _ => by decide) h
  all_goals exact .none ⟨fun _ => rfl, rfl, rfl, rfl⟩

theorem exec_change (s : Store) (tx : Tx) : Change s (exec s tx) tx := by
  cases tx with
  | credit userID amount kind sourceID now =>
    exact Change.of_committed fun s' e hok => Change.of_credit (fun hissued => hissued) hok
  | set userID target sourceID now =>
    refine Change.of_committed fun s' e hok => ?_
    rcases applyBalanceSet_ok hok with rfl | ⟨delta, hcredit⟩
    · exact .none (SameMoney.refl s')
    · exact Change.of_credit (fun _ => by decide) hcredit
  | redeem code userID t =>
    refine Change.of_committed fun s' a hok => ?_
    obtain ⟨c, e, s₁, -, hredeemed⟩ := redeem_ok hok
    exact (hredeemed.applied.change _).trans_same (by simp) hredeemed.sameMoney
  | claim inviterID now sourceID order =>
    refine Change.of_committed fun s' e hok => ?_
    rcases claimAvailable_ok hok with ⟨-, rfl⟩ | ⟨-, s₁, hcredited, hclaim⟩
    · exact .none (SameMoney.refl s')
    · exact .claim s₁ inviterID now sourceID order e rfl hcredited hclaim

/-- The columns of a reward that no transaction changes. -/
def ReferralReward.terms (r : ReferralReward) : ReferralReward :=
  { r with status := .pending, creditedAt := none }

/-- `r` is the reward for the positive credit `e` of a referred user: a twentieth of its amount. -/
structure Follows (inviterOf : Int → Option Int) (e : BalanceLedgerEntry) (r : ReferralReward) :
    Prop where
  kind : rewarded e.kind
  positive : 0 < e.delta
  key : r.idempotencyKey = e.idempotencyKey
  source : r.sourceID = e.sourceID
  invitee : r.inviteeID = e.userID
  inviter : inviterOf e.userID = some r.inviterID
  base : r.baseAmount = e.delta
  amount : r.rewardAmount = e.delta / 20

theorem Follows.of_terms {inviterOf : Int → Option Int} {e : BalanceLedgerEntry}
    {r r₀ : ReferralReward} (h : Follows inviterOf e r₀) (hterms : r₀.terms = r.terms) :
    Follows inviterOf e r := by
  simp only [ReferralReward.terms, ReferralReward.mk.injEq] at hterms
  obtain ⟨-, hinviter, hinvitee, -, hsource, hkey, hbase, hamount, -⟩ := hterms
  exact ⟨h.kind, h.positive, hkey ▸ h.key, hsource ▸ h.source, hinvitee ▸ h.invitee,
    hinviter ▸ h.inviter, hbase ▸ h.base, hamount ▸ h.amount⟩

def deltas (entries : List BalanceLedgerEntry) (userID : Int) : Int :=
  ((entries.filter fun e => e.userID = userID).map BalanceLedgerEntry.delta).sum

theorem deltas_append (l l' : List BalanceLedgerEntry) (u : Int) :
    deltas (l ++ l') u = deltas l u + deltas l' u := by
  simp [deltas]

/-- What is true between two moments when `new` are the audit entries written between them. -/
structure Audited (s s' : Store) (new : List BalanceLedgerEntry) : Prop where
  entries : s'.entries = s.entries ++ new
  balance : ∀ u, s'.db.balanceOf u = s.db.balanceOf u + deltas new u
  sums : ∀ e ∈ new, e.balanceBefore + e.delta = e.balanceAfter
  inviterOf : s'.inviterOf = s.inviterOf
  created : ∀ r ∈ s'.rewards,
    (∃ r₀ ∈ s.rewards, r₀.terms = r.terms) ∨ ∃ e ∈ new, Follows s.inviterOf e r
  kept : ∀ r ∈ s.rewards, r.status = .credited → r ∈ s'.rewards

theorem Audited.of_same (h : SameMoney s s') : Audited s s' [] where
  entries := by simp [h.entries]
  balance u := by simp [h.balance, deltas]
  sums := by simp
  inviterOf := h.inviterOf
  created r hr := .inl ⟨r, h.rewards ▸ hr, rfl⟩
  kept r hr _ := h.rewards ▸ hr

theorem Audited.trans {s s₁ s' : Store} {new new' : List BalanceLedgerEntry}
    (h : Audited s s₁ new) (h' : Audited s₁ s' new') : Audited s s' (new ++ new') where
  entries := by rw [h'.entries, h.entries, append_assoc]
  balance u := by rw [h'.balance, h.balance, deltas_append, add_assoc]
  sums e he := (mem_append.mp he).elim (h.sums e) (h'.sums e)
  inviterOf := h'.inviterOf.trans h.inviterOf
  created := by
    intro r hr
    rcases h'.created r hr with ⟨r₁, hr₁, hterms⟩ | ⟨e, he, hfollows⟩
    · rcases h.created r₁ hr₁ with ⟨r₀, hr₀, hterms₀⟩ | ⟨e, he, hfollows⟩
      · exact .inl ⟨r₀, hr₀, hterms₀.trans hterms⟩
      · exact .inr ⟨e, mem_append_left _ he, hfollows.of_terms hterms⟩
    · exact .inr ⟨e, mem_append_right _ he, h.inviterOf ▸ hfollows⟩
  kept r hr hcredited := h'.kept r (h.kept r hr hcredited) hcredited

variable {kind : BalanceLedgerKind}

theorem text_sourceTypeOf (h : rewarded kind = true) : (sourceTypeOf kind).text = kind.text := by
  cases kind with
  | redemption | adminCredit => rfl
  | referralClaim => cases h

theorem Credited.audited {userID amount now : Int} {kind : BalanceLedgerKind}
    {sourceID : List Char} {e : BalanceLedgerEntry}
    (h : Credited s s' userID amount kind sourceID now e) : Audited s s' [e] where
  entries := h.entries
  balance u := by
    rw [h.balanceOf, h.entry]
    by_cases heq : u = userID
    · simp [deltas, creditEntry, heq]
    · simp [deltas, creditEntry, heq, Ne.symm heq]
  sums := by
    rw [h.entry]
    simp [creditEntry]
  inviterOf := h.inviterOf
  created := by
    intro r hr
    rw [h.rewards, mem_append] at hr
    rcases hr with hr | hr
    · exact .inl ⟨r, hr, rfl⟩
    · obtain ⟨inviterID, hinviter, hkind, hpays, rfl⟩ := mem_rewardsFor.mp hr
      have hpos := referralRewardAmount_pos_imp hpays
      refine .inr ⟨e, mem_singleton_self e, ?_⟩
      rw [h.entry]
      refine ⟨hkind, hpos, ?_, rfl, rfl, hinviter, rfl, ?_⟩
      · simp [newReward, creditEntry, idempotencyKey, text_sourceTypeOf hkind]
      · simp [newReward, referralRewardAmount, creditEntry, if_neg (not_le.mpr hpos)]
  kept r hr _ := by
    rw [h.rewards]
    exact mem_append_left _ hr

theorem creditRewards_audited (s : Store) (ids : List Int) (now : Int) :
    Audited s (creditRewards s ids now) [] where
  entries := by simp [creditRewards]
  balance u := by simp [creditRewards, deltas]
  sums := by simp
  inviterOf := rfl
  created := by
    intro r hr
    obtain ⟨r₀, hr₀, rfl⟩ := mem_map.mp hr
    refine .inl ⟨r₀, hr₀, ?_⟩
    split <;> rfl
  kept r hr hcredited := by
    refine mem_map.mpr ⟨r, hr, ?_⟩
    simp [crediting, hcredited]

theorem Change.audited (h : Change s s' tx) : ∃ new, Audited s s' new := by
  cases h with
  | none h => exact ⟨[], Audited.of_same h⟩
  | credit s₁ userID amount kind sourceID now e hkind hcredited h =>
    exact ⟨_, hcredited.audited.trans (Audited.of_same h)⟩
  | claim s₁ inviterID now sourceID order e htx hcredited h =>
    exact ⟨_, hcredited.audited.trans (h ▸ creditRewards_audited s₁ _ now)⟩

theorem run_audited (s : Store) (txs : List Tx) : ∃ new, Audited s (txs.foldl exec s) new := by
  induction txs generalizing s with
  | nil => exact ⟨[], Audited.of_same (SameMoney.refl s)⟩
  | cons tx txs ih =>
    obtain ⟨new, h⟩ := (exec_change s tx).audited
    obtain ⟨new', h'⟩ := ih (exec s tx)
    exact ⟨new ++ new', h.trans h'⟩

section
variable {s s' s₁ : Store} {inviterID now : Int} {order : Scan ReferralReward}

/-- The loop picks some of the rows: it returns their sum and their ids. -/
theorem sumRewards_picks (rows : List ReferralReward) :
    ∃ picked : List ReferralReward, picked.Sublist rows ∧ sumRewards rows =
      ((picked.map ReferralReward.rewardAmount).sum, picked.map ReferralReward.id) := by
  induction rows using List.reverseRecOn with
  | nil => exact ⟨[], List.Sublist.refl _, rfl⟩
  | append_singleton rows row ih =>
    obtain ⟨picked, hsub, hsum⟩ := ih
    have hlast : sumRewards (rows ++ [row]) =
        if row.rewardAmount > 0 ∧ (sumRewards rows).1 ≤ maxInt64 - row.rewardAmount then
          ((sumRewards rows).1 + row.rewardAmount, (sumRewards rows).2 ++ [row.id])
        else sumRewards rows := by
      simp [sumRewards]
    rw [hlast]
    split
    · exact ⟨picked ++ [row], hsub.append (List.Sublist.refl _), by simp [hsum]⟩
    · exact ⟨picked, hsub.trans (sublist_append_left _ _), hsum⟩

/-- The rewards that are pending in `s` and credited in `s'`. -/
def newlyCredited (s s' : Store) : List ReferralReward :=
  s.rewards.filter fun r =>
    r.status == .pending && s'.rewards.any fun r' => r'.id == r.id && r'.status == .credited

theorem mem_newlyCredited {r : ReferralReward} : r ∈ newlyCredited s s' ↔
    r ∈ s.rewards ∧ r.status = .pending ∧
      ∃ r' ∈ s'.rewards, r'.id = r.id ∧ r'.status = .credited := by
  simp [newlyCredited]

/-- A claim credits the rows that its loop has picked, and no other. -/
theorem newlyCredited_creditRewards (hrewards : s₁.rewards = s.rewards) (ids : List Int) :
    newlyCredited s (creditRewards s₁ ids now) = s.rewards.filter (crediting ids) := by
  refine filter_congr fun r hr => ?_
  rw [Bool.eq_iff_iff]
  simp only [Bool.and_eq_true, beq_iff_eq, any_eq_true, crediting]
  constructor
  · rintro ⟨hpending, r', hr', hid, hcredited⟩
    obtain ⟨q, hq, rfl⟩ := mem_map.mp hr'
    rw [hrewards] at hq
    have hqr : q = r := by
      refine inj_on_of_nodup_map s.rewardIds hq hr ?_
      split at hid <;> exact hid
    subst hqr
    by_contra hout
    rw [if_neg (by simpa [crediting] using hout), hpending] at hcredited
    cases hcredited
  · rintro ⟨hid, hpending⟩
    refine ⟨hpending, r.credit now, mem_map.mpr ⟨r, hrewards ▸ hr, ?_⟩, rfl, rfl⟩
    simp [crediting, hid, hpending]

variable {new : List ReferralReward} (r : ReferralReward)

theorem newlyCredited_of_append (h : s'.rewards = s.rewards ++ new)
    (hnew : ∀ r ∈ new, r.status = .pending) : newlyCredited s s' = [] := by
  rw [eq_nil_iff_forall_not_mem]
  intro r hr
  obtain ⟨hr, hpending, r', hr', hid, hcredited⟩ := mem_newlyCredited.mp hr
  rw [h, mem_append] at hr'
  rcases hr' with hr' | hr'
  · rw [inj_on_of_nodup_map s.rewardIds hr' hr hid, hpending] at hcredited
    cases hcredited
  · rw [hnew r' hr'] at hcredited
    cases hcredited

theorem pending_of_mem_rewardsFor {amount : Int} {sourceID : List Char} {r : ReferralReward}
    (hr : r ∈ rewardsFor s userID amount kind sourceID now) : r.status = .pending := by
  obtain ⟨_, -, -, -, rfl⟩ := mem_rewardsFor.mp hr
  rfl

theorem rewardsFor_claim (userID amount : Int) (sourceID : List Char) :
    rewardsFor s userID amount .referralClaim sourceID now = [] := by
  rw [eq_nil_iff_forall_not_mem]
  intro r hr
  obtain ⟨_, -, hkind, -, -⟩ := mem_rewardsFor.mp hr
  cases hkind

/-- The rows that a claim credits are the rows it has summed. -/
theorem crediting_claimed (s : Store) (inviterID now : Int) (order : Scan ReferralReward) :
    (∀ r ∈ s.rewards.filter (crediting (claimed s inviterID now order).2),
      r.inviterID = inviterID ∧ r.availableAt ≤ now) ∧
    ((s.rewards.filter (crediting (claimed s inviterID now order).2)).map
      ReferralReward.rewardAmount).sum = (claimed s inviterID now order).1 ∧
    (s.rewards.filter (crediting (claimed s inviterID now order).2)).length =
      (claimed s inviterID now order).2.length := by
  obtain ⟨picked, hsub, hpicked⟩ := sumRewards_picks (order.arrange (matured s inviterID now))
  have hrows : ∀ r ∈ picked, r ∈ matured s inviterID now := fun r hr =>
    (order.perm _).mem_iff.mp (hsub.subset hr)
  have hmem : ∀ r, r ∈ s.rewards.filter (crediting (picked.map ReferralReward.id)) ↔
      r ∈ picked := by
    intro r
    simp only [mem_filter, crediting, Bool.and_eq_true, decide_eq_true_eq, beq_iff_eq]
    constructor
    · rintro ⟨hr, hid, -⟩
      obtain ⟨q, hq, hqid⟩ := mem_map.mp hid
      have hqs := (mem_filter.mp (hrows q hq)).1
      exact inj_on_of_nodup_map s.rewardIds hqs hr hqid ▸ hq
    · intro hr
      obtain ⟨hrs, hmatured⟩ := mem_filter.mp (hrows r hr)
      simp only [decide_eq_true_eq] at hmatured
      exact ⟨hrs, mem_map_of_mem hr, hmatured.2.1⟩
  have hnodup : s.rewards.Nodup := s.rewardIds.of_map _
  have hperm : (s.rewards.filter (crediting (picked.map ReferralReward.id))).Perm picked := by
    refine (perm_ext_iff_of_nodup (hnodup.filter _) ?_).mpr hmem
    exact ((order.perm _).nodup_iff.mpr (hnodup.filter _)).sublist hsub
  rw [claimed, hpicked]
  refine ⟨fun r hr => ?_, (hperm.map _).sum_eq, by simpa using hperm.length_eq⟩
  have hmatured := (mem_filter.mp (hrows r ((hmem r).mp hr))).2
  simp only [decide_eq_true_eq] at hmatured
  exact ⟨hmatured.1, hmatured.2.2⟩

def creditedAmount (s : Store) (inviterID : Int) : Int :=
  ((s.rewards.filter fun r => r.inviterID = inviterID ∧ r.status = .credited).map
    ReferralReward.rewardAmount).sum

def claimDeltas (s : Store) (inviterID : Int) : Int :=
  ((s.entries.filter fun e => e.userID = inviterID ∧ e.kind = .referralClaim).map
    BalanceLedgerEntry.delta).sum

@[simp] theorem ReferralReward.credit_fields : (r.credit now).inviterID = r.inviterID ∧
    (r.credit now).rewardAmount = r.rewardAmount ∧ (r.credit now).status = .credited :=
  ⟨rfl, rfl, rfl⟩

/-- The amounts of the rewards of an inviter. -/
def amounts (rows : List ReferralReward) (inviterID : Int) : Int :=
  ((rows.filter fun r => r.inviterID = inviterID).map ReferralReward.rewardAmount).sum

theorem creditedAmount_creditRewards (s : Store) (ids : List Int) (now i : Int) :
    creditedAmount (creditRewards s ids now) i =
      creditedAmount s i + amounts (s.rewards.filter (crediting ids)) i := by
  simp only [creditedAmount, creditRewards, amounts, Bool.decide_and]
  induction s.rewards with
  | nil => rfl
  | cons r rows ih =>
    by_cases hin : crediting ids r = true
    · have hpending : r.status ≠ .credited := by
        simp only [crediting, Bool.and_eq_true, beq_iff_eq] at hin
        simp [hin.2]
      by_cases hinviter : r.inviterID = i
      · simp [hin, hinviter, hpending, ih, add_left_comm]
      · simp [hin, hinviter, ih]
    · by_cases hinviter : r.inviterID = i
      · by_cases hcredited : r.status = .credited
        · simp [hin, hinviter, hcredited, ih, add_assoc]
        · simp [hin, hcredited, ih]
      · simp [hin, hinviter, ih]

theorem Change.credited_by_claim {tx : Tx} (h : Change s s' tx) :
    ∀ r ∈ newlyCredited s s', ∃ inviterID now sourceID order,
      tx = .claim inviterID now sourceID order ∧ r.inviterID = inviterID ∧ r.availableAt ≤ now := by
  intro r hr
  cases h with
  | none h =>
    have hnone : s'.rewards = s.rewards ++ [] := by simp [h.rewards]
    rw [newlyCredited_of_append hnone (by simp)] at hr
    cases hr
  | credit s₁ userID amount kind sourceID now e hkind hcredited h =>
    rw [newlyCredited_of_append (h.rewards.trans hcredited.rewards)
      fun _ => pending_of_mem_rewardsFor] at hr
    cases hr
  | claim s₁ inviterID now sourceID order e htx hcredited h =>
    have hrewards : s₁.rewards = s.rewards := by simp [hcredited.rewards, rewardsFor_claim]
    rw [h, newlyCredited_creditRewards hrewards] at hr
    exact ⟨inviterID, now, sourceID, order, htx, (crediting_claimed s inviterID now order).1 r hr⟩

theorem claimDeltas_of_append {e : BalanceLedgerEntry} (h : s'.entries = s.entries ++ [e])
    (i : Int) :
    claimDeltas s' i = claimDeltas s i +
      if e.userID = i ∧ e.kind = .referralClaim then e.delta else 0 := by
  by_cases hcounts : e.userID = i ∧ e.kind = .referralClaim <;> simp [claimDeltas, h, hcounts]

theorem creditedAmount_of_append (h : s'.rewards = s.rewards ++ new)
    (hnew : ∀ r ∈ new, r.status = .pending) (i : Int) :
    creditedAmount s' i = creditedAmount s i := by
  have hnil : new.filter (fun r => r.inviterID = i ∧ r.status = .credited) = [] := by
    rw [filter_eq_nil_iff]
    intro r hr
    simp [hnew r hr]
  simp only [creditedAmount, h, filter_append, hnil, append_nil]

theorem amounts_of_forall {rows : List ReferralReward}
    (h : ∀ r ∈ rows, r.inviterID = inviterID) (i : Int) :
    amounts rows i = if inviterID = i then (rows.map ReferralReward.rewardAmount).sum else 0 := by
  unfold amounts
  split
  · next heq => rw [filter_eq_self.mpr fun r hr => by simp [h r hr, heq]]
  · next hne =>
    rw [filter_eq_nil_iff.mpr fun r hr => by simp [h r hr, hne]]
    rfl

/-- A transaction books on the ledger, as referral claims, what it credits of the rewards. -/
theorem Change.claims {tx : Tx} (h : Change s s' tx) (hissued : tx.issued) (i : Int) :
    claimDeltas s' i - claimDeltas s i = creditedAmount s' i - creditedAmount s i := by
  cases h with
  | none h => simp [claimDeltas, creditedAmount, h.entries, h.rewards]
  | credit s₁ userID amount kind sourceID now e hkind hcredited h =>
    have hclaims := claimDeltas_of_append (h.entries.trans hcredited.entries) i
    rw [if_neg (by rw [hcredited.entry]; exact fun hboth => hkind hissued hboth.2)] at hclaims
    rw [creditedAmount_of_append (h.rewards.trans hcredited.rewards)
      (fun _ => pending_of_mem_rewardsFor)]
    omega
  | claim s₁ inviterID now sourceID order e htx hcredited h =>
    have hrewards : s₁.rewards = s.rewards := by simp [hcredited.rewards, rewardsFor_claim]
    obtain ⟨hrows, hsum, -⟩ := crediting_claimed s inviterID now order
    have hentries : s'.entries = s.entries ++ [e] := by
      rw [h]
      exact hcredited.entries
    have hclaims := claimDeltas_of_append hentries i
    have hcredit : creditedAmount s' i = creditedAmount s i +
        if inviterID = i then (claimed s inviterID now order).1 else 0 := by
      rw [h, creditedAmount_creditRewards, hrewards, amounts_of_forall (fun r hr => (hrows r hr).1),
        hsum]
      simp [creditedAmount, hrewards]
    rw [hclaims, hcredit, hcredited.entry]
    simp [creditEntry]

/-- The rewards that the transactions of a run credit, one transaction after the other. -/
def creditings : Store → List Tx → List ReferralReward
  | _, [] => []
  | s, tx :: txs => newlyCredited s (exec s tx) ++ creditings (exec s tx) txs

/-- A reward that is credited already is credited by no later transaction. -/
theorem not_mem_creditings_of_credited {txs : List Tx} {q : ReferralReward} (hq : q ∈ s.rewards)
    (hcredited : q.status = .credited) : q.id ∉ (creditings s txs).map ReferralReward.id := by
  induction txs generalizing s with
  | nil => simp [creditings]
  | cons tx txs ih =>
    obtain ⟨new, haudit⟩ := (exec_change s tx).audited
    rw [creditings, map_append, mem_append, not_or]
    refine ⟨fun hmem => ?_, ih (haudit.kept q hq hcredited)⟩
    obtain ⟨r, hr, hid⟩ := mem_map.mp hmem
    obtain ⟨hr, hpending, -⟩ := mem_newlyCredited.mp hr
    rw [inj_on_of_nodup_map s.rewardIds hr hq hid, hcredited] at hpending
    cases hpending

theorem creditings_nodup (s : Store) (txs : List Tx) :
    ((creditings s txs).map ReferralReward.id).Nodup := by
  induction txs generalizing s with
  | nil => simp [creditings]
  | cons tx txs ih =>
    rw [creditings, map_append, nodup_append]
    refine ⟨s.rewardIds.sublist (filter_sublist.map _), ih _, ?_⟩
    intro a ha b hb hab
    obtain ⟨r, hr, rfl⟩ := mem_map.mp ha
    obtain ⟨-, -, r', hr', hid, hcredited⟩ := mem_newlyCredited.mp hr
    exact not_mem_creditings_of_credited hr' hcredited (hid ▸ hab ▸ hb)

theorem run_claims (s : Store) (txs : List Tx) (hissued : ∀ tx ∈ txs, tx.issued) (i : Int) :
    claimDeltas (txs.foldl exec s) i - claimDeltas s i =
      creditedAmount (txs.foldl exec s) i - creditedAmount s i := by
  induction txs generalizing s with
  | nil => simp
  | cons tx txs ih =>
    have hstep := (exec_change s tx).claims (hissued tx mem_cons_self) i
    have hrest := ih (exec s tx) fun tx' h => hissued tx' (mem_cons_of_mem _ h)
    rw [foldl_cons]
    omega

end

theorem Follows.unique {s : Store} {inviterOf : Int → Option Int} {e : BalanceLedgerEntry}
    {r r' : ReferralReward} (hr : r ∈ s.rewards) (hr' : r' ∈ s.rewards)
    (h : Follows inviterOf e r) (h' : Follows inviterOf e r') : r = r' :=
  inj_on_of_nodup_map s.rewardKeys hr hr' (h.key.trans h'.key.symm)

/-- Over any sequence of transactions, from any store: balances move by the sum of the new audit
entries, which are exact; a reward is a twentieth of one positive credit of a referred user, and no
credit has two; a reward is credited once at most, by a claim of its inviter that finds it matured;
and what is booked as referral claims is what is credited. -/
theorem wallet_conserves (s : Store) (txs : List Tx) :
    ∃ new, (txs.foldl exec s).entries = s.entries ++ new ∧
      (∀ u, (txs.foldl exec s).db.balanceOf u - s.db.balanceOf u = deltas new u) ∧
      (∀ e ∈ new, e.balanceBefore + e.delta = e.balanceAfter) ∧
      (∀ r ∈ (txs.foldl exec s).rewards,
        (∃ r₀ ∈ s.rewards, r₀.terms = r.terms) ∨ ∃ e ∈ new, Follows s.inviterOf e r) ∧
      (∀ e ∈ new, ∀ r ∈ (txs.foldl exec s).rewards, ∀ r' ∈ (txs.foldl exec s).rewards,
        Follows s.inviterOf e r → Follows s.inviterOf e r' → r = r') ∧
      ((creditings s txs).map ReferralReward.id).Nodup ∧
      (∀ r ∈ s.rewards, r.status = .credited → r ∈ (txs.foldl exec s).rewards) ∧
      Run.Each exec (fun t tx => ∀ r ∈ newlyCredited t (exec t tx),
        ∃ inviterID now sourceID order, tx = .claim inviterID now sourceID order ∧
          r.inviterID = inviterID ∧ r.availableAt ≤ now) s txs ∧
      ((∀ tx ∈ txs, tx.issued) → ∀ inviterID,
        claimDeltas (txs.foldl exec s) inviterID - claimDeltas s inviterID =
          creditedAmount (txs.foldl exec s) inviterID - creditedAmount s inviterID) := by
  obtain ⟨new, h⟩ := run_audited s txs
  refine ⟨new, h.entries, fun u => ?_, h.sums, h.created, ?_, creditings_nodup s txs, h.kept, ?_,
    run_claims s txs⟩
  · rw [h.balance]
    omega
  · exact fun e _ r hr r' hr' => Follows.unique hr hr'
  · exact Run.Each.of_forall fun t tx => (exec_change t tx).credited_by_claim

end C4Gateway.Wallet
