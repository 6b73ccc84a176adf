import C4Gateway.Wallet.Credit

/-! Redemption of a code in one transaction: the code and its earlier use are looked up, the benefit
is applied, and the use and the counter are written.  Deactivation of codes, and the retention
worker's deletion of old uses. -/

namespace C4Gateway.Wallet

open List Sql Text

/-- The clock readings of a redemption: of the service at the status check, at the creation of a
reward and at the creation of the use, and of the database. -/
structure Clocks where
  check : Int
  reward : Int
  use : Int
  db : Int
  deriving DecidableEq, Repr

/-- What a code is worth to its user. -/
structure RedemptionApply where
  type : RedemptionType
  value : Int
  resourceExpiresAt : Option Int
  groupID : Option Int
  deriving DecidableEq, Repr

def getByCode (s : Store) (code : String) : Option RedemptionCode :=
  s.codes.find? fun c => c.code = code

def getUse (s : Store) (codeID userID : Int) : Option RedemptionUse :=
  s.uses.find? fun use => use.pair = (codeID, userID)

def RedemptionCode.expired (c : RedemptionCode) (now : Int) : Bool :=
  match c.expiresAt with
  | none => false
  | some at_ => at_ ≤ now

def applyBalance (s : Store) (userID : Int) (c : RedemptionCode) (t : Clocks) :
    Except Failure (Store × Option BalanceLedgerEntry) := do
  let (s, entry) ← applyBalanceCredit s userID c.value .redemption
    ("code:".toList ++ decimal c.id) t.reward
  .ok (s, some entry)

/-- The column after `UpdateUserMaxConcurrency`: 0 is no limit. -/
def raised (current value : Int) : Int := if current = 0 then value else current + value

def updateUserMaxConcurrency (s : Store) (userID value : Int) : Except Failure Store :=
  if (getUser s.db userID).isNone then .error (errMissingID userID)
  else if InInt64 (raised (s.maxConcurrency userID) value) then
    .ok { s with
      maxConcurrency :=
        Function.update s.maxConcurrency userID (raised (s.maxConcurrency userID) value) }
  else .error ⟨.database, numericOutOfRange⟩

def applyConcurrency (s : Store) (userID : Int) (c : RedemptionCode) :
    Except Failure (Store × Option BalanceLedgerEntry) := do
  let s ← updateUserMaxConcurrency s userID c.value
  .ok (s, none)

def foreignKeyViolation : String := "23503"

def newTemp (db : Ledger) (userID amount : Int) (expiresAt groupID : Option Int) : TempBalance where
  id := nextID (db.temps.map TempBalance.id)
  userId := userID
  amount := amount
  groupId := groupID
  expiresAt := expiresAt

def insertTemp (db : Ledger) (userID amount : Int) (expiresAt groupID : Option Int) : Ledger :=
  { db with
    temps := db.temps ++ [newTemp db userID amount expiresAt groupID]
    tempIds := by
      have hfresh : (newTemp db userID amount expiresAt groupID).id ∉
          db.temps.map TempBalance.id := nextID_notMem _
      simpa using db.tempIds.concat hfresh }

def createTempBalanceForGroup (s : Store) (userID amount : Int) (expiresAt groupID : Option Int) :
    Except Failure Store :=
  if (getUser s.db userID).isNone then .error ⟨.database, foreignKeyViolation⟩
  else .ok { s with db := insertTemp s.db userID amount expiresAt groupID }

def applyTempBalance (s : Store) (userID : Int) (c : RedemptionCode) :
    Except Failure (Store × Option BalanceLedgerEntry) :=
  if c.resourceExpiresAt = none then .error ⟨.invalidInput, "invalid code"⟩
  else do
    let s ← createTempBalanceForGroup s userID c.value c.resourceExpiresAt none
    .ok (s, none)

def applyScopedTempBalance (s : Store) (userID : Int) (c : RedemptionCode) :
    Except Failure (Store × Option BalanceLedgerEntry) :=
  if c.resourceExpiresAt = none ∨ c.groupID = none ∨ c.groupID.getD 0 ≤ 0 then
    .error ⟨.invalidInput, "invalid scoped code"⟩
  else do
    let s ← createTempBalanceForGroup s userID c.value c.resourceExpiresAt c.groupID
    .ok (s, none)

def appliers (s : Store) (userID : Int) (c : RedemptionCode) (t : Clocks) :
    Except Failure (Store × Option BalanceLedgerEntry) :=
  match c.type with
  | .balance => applyBalance s userID c t
  | .concurrency => applyConcurrency s userID c
  | .tempBalance => applyTempBalance s userID c
  | .scopedTempBalance => applyScopedTempBalance s userID c

def newUse (s : Store) (userID : Int) (c : RedemptionCode) (entry : Option BalanceLedgerEntry)
    (now : Int) : RedemptionUse where
  id := nextID (s.uses.map RedemptionUse.id)
  codeID := c.id
  userID := userID
  value := c.value
  resourceExpiresAt := c.resourceExpiresAt
  groupID := c.groupID
  balanceBefore := entry.map BalanceLedgerEntry.balanceBefore
  balanceAfter := entry.map BalanceLedgerEntry.balanceAfter
  createdAt := now

def createUse (s : Store) (userID : Int) (c : RedemptionCode) (entry : Option BalanceLedgerEntry)
    (now : Int) : Except Failure Store :=
  if h : (c.id, userID) ∈ s.uses.map RedemptionUse.pair then
    .error ⟨.conflict, s!"code_id={c.id} user_id={userID}"⟩
  else .ok { s with
    uses := s.uses ++ [newUse s userID c entry now]
    useIds := by
      have hfresh : (newUse s userID c entry now).id ∉ s.uses.map RedemptionUse.id :=
        nextID_notMem _
      simpa using s.useIds.concat hfresh
    usePairs := by
      have hpair : (newUse s userID c entry now).pair ∉ s.uses.map RedemptionUse.pair := h
      simpa using s.usePairs.concat hpair }

/-- The WHERE of `IncrementUsed`, which reads the clock of the database. -/
def countable (codeID now : Int) (c : RedemptionCode) : Bool :=
  c.id = codeID && c.usedCount < c.maxUses && c.status == .active && !c.expired now

def RedemptionCode.useOnce (c : RedemptionCode) : RedemptionCode :=
  { c with usedCount := c.usedCount + 1 }

def RedemptionCode.disable (c : RedemptionCode) : RedemptionCode := { c with status := .disabled }

/-- An UPDATE of codes that leaves their id and text. -/
def updateCodes (s : Store) (p : RedemptionCode → Bool) (f : RedemptionCode → RedemptionCode)
    (hid : ∀ c, (f c).id = c.id) (hcode : ∀ c, (f c).code = c.code) : Store :=
  { s with
    codes := s.codes.map fun c => if p c then f c else c
    codeIds := by
      have hids : RedemptionCode.id ∘ (fun c => if p c then f c else c) = RedemptionCode.id := by
        funext c
        simp only [Function.comp_apply]
        split
        · exact hid c
        · rfl
      rw [map_map, hids]
      exact s.codeIds
    codeTexts := by
      have htexts : RedemptionCode.code ∘ (fun c => if p c then f c else c) =
          RedemptionCode.code := by
        funext c
        simp only [Function.comp_apply]
        split
        · exact hcode c
        · rfl
      rw [map_map, htexts]
      exact s.codeTexts }

def incrementUsed (s : Store) (codeID now : Int) : Store × Bool :=
  (updateCodes s (countable codeID now) RedemptionCode.useOnce (fun _ => rfl) (fun _ => rfl),
    s.codes.any (countable codeID now))

/-- One use for each user and as many as the code allows, in one transaction. -/
def redeem (s : Store) (code : String) (userID : Int) (t : Clocks) :
    Except Failure (Store × RedemptionApply) :=
  match getByCode s code with
  | none => .error ⟨.invalidInput, "invalid code"⟩
  | some c =>
    if (getUse s c.id userID).isSome then .error ⟨.conflict, "already redeemed"⟩
    else if c.status ≠ .active ∨ c.expired t.check then .error ⟨.invalidInput, "invalid code"⟩
    else do
      let (s, balanceEntry) ← appliers s userID c t
      let s ← createUse s userID c balanceEntry t.use
      let (s, ok) := incrementUsed s c.id t.db
      if ok then .ok (s, ⟨c.type, c.value, c.resourceExpiresAt, c.groupID⟩)
      else .error ⟨.invalidInput, "invalid code"⟩

def deactivateCodes (s : Store) (ids : List Int) : Store :=
  updateCodes s (fun c => c.id ∈ ids && c.status != .disabled) RedemptionCode.disable
    (fun _ => rfl) (fun _ => rfl)

def redemptionUsesDeleteBatchLimit : Nat := 5000

def deleteRedemptionUsesBefore (s : Store) (cutoff : Int) : Store :=
  let ids := (orderLimit RedemptionUse.id redemptionUsesDeleteBatchLimit
    (s.uses.filter fun use => use.createdAt < cutoff)).map RedemptionUse.id
  { s with
    uses := s.uses.filter fun use => use.id ∉ ids
    useIds := s.useIds.sublist (filter_sublist.map _)
    usePairs := s.usePairs.sublist (filter_sublist.map _) }

def redemptionUseRetentionDays : Int := 90

/-- The retention worker's round at `now`. -/
def retain (s : Store) (now : Int) : Store :=
  deleteRedemptionUsesBefore s (now - redemptionUseRetentionDays * day)

variable {e : Option BalanceLedgerEntry} {code : String}
  {s s' : Store} {c : RedemptionCode} {userID : Int} {t : Clocks}

def codeSource (c : RedemptionCode) : List Char := "code:".toList ++ decimal c.id

/-- The group of the grant that a code of temporary balance gives. -/
def grantGroup (c : RedemptionCode) : Option Int :=
  if c.type = .scopedTempBalance then c.groupID else none

/-- A code of temporary balance names the expiry of its grant, and a scoped one its group. -/
def grantComplete (c : RedemptionCode) : Bool :=
  c.resourceExpiresAt.isSome && (c.type != .scopedTempBalance || 0 < c.groupID.getD 0)

/-- What the applier of a code does. -/
inductive Applied (s s' : Store) (userID : Int) (c : RedemptionCode) (t : Clocks) :
    Option BalanceLedgerEntry → Prop where
  | balance (e : BalanceLedgerEntry) (htype : c.type = .balance)
      (h : applyBalanceCredit s userID c.value .redemption (codeSource c) t.reward = .ok (s', e)) :
      Applied s s' userID c t (some e)
  | concurrency (htype : c.type = .concurrency) (huser : (getUser s.db userID).isSome)
      (hfit : InInt64 (raised (s.maxConcurrency userID) c.value))
      (h : s' = { s with
        maxConcurrency :=
          Function.update s.maxConcurrency userID (raised (s.maxConcurrency userID) c.value) }) :
      Applied s s' userID c t none
  | temp (htype : c.type = .tempBalance ∨ c.type = .scopedTempBalance)
      (huser : (getUser s.db userID).isSome) (hcomplete : grantComplete c)
      (h : s' =
        { s with db := insertTemp s.db userID c.value c.resourceExpiresAt (grantGroup c) }) :
      Applied s s' userID c t none

theorem createTempBalanceForGroup_ok {amount : Int} {expiresAt groupID : Option Int} :
    createTempBalanceForGroup s userID amount expiresAt groupID = .ok s' ↔
      (getUser s.db userID).isSome ∧
        s' = { s with db := insertTemp s.db userID amount expiresAt groupID } := by
  unfold createTempBalanceForGroup
  cases getUser s.db userID <;> simp [eq_comm]

theorem grantTemp_ok (htype : c.type = .tempBalance ∨ c.type = .scopedTempBalance) {bad : Prop}
    [Decidable bad] {f : Failure} {groupID : Option Int} (hgroup : groupID = grantGroup c)
    (hcomplete : grantComplete c = true ↔ ¬bad) :
    (if bad then .error f
      else do
        let s ← createTempBalanceForGroup s userID c.value c.resourceExpiresAt groupID
        .ok (s, none)) = .ok (s', e) ↔ Applied s s' userID c t e := by
  subst hgroup
  constructor
  · intro h
    split_ifs at h with hbad
    obtain ⟨s₁, hs₁, h⟩ := bind_eq_ok_iff.mp h
    obtain ⟨huser, rfl⟩ := createTempBalanceForGroup_ok.mp hs₁
    cases h
    exact .temp htype huser (hcomplete.mpr hbad) rfl
  · rintro (⟨e, hbal, h⟩ | ⟨hconc, -, -, -⟩ | ⟨-, huser, hgrant, rfl⟩)
    · simp [hbal] at htype
    · simp [hconc] at htype
    · rw [if_neg (hcomplete.mp hgrant)]
      exact bind_eq_ok_iff.mpr ⟨_, createTempBalanceForGroup_ok.mpr ⟨huser, rfl⟩, rfl⟩

theorem applyTempBalance_ok (htype : c.type = .tempBalance) :
    applyTempBalance s userID c = .ok (s', e) ↔ Applied s s' userID c t e :=
  grantTemp_ok (.inl htype) (by simp [grantGroup, htype])
    (by simp [grantComplete, htype, Option.isSome_iff_ne_none])

theorem applyScopedTempBalance_ok (htype : c.type = .scopedTempBalance) :
    applyScopedTempBalance s userID c = .ok (s', e) ↔ Applied s s' userID c t e := by
  refine grantTemp_ok (.inr htype) (by simp [grantGroup, htype]) ?_
  cases hgroup : c.groupID <;>
    simp [grantComplete, htype, hgroup, Option.isSome_iff_ne_none]

theorem applyConcurrency_ok (htype : c.type = .concurrency) :
    applyConcurrency s userID c = .ok (s', e) ↔ Applied s s' userID c t e := by
  unfold applyConcurrency updateUserMaxConcurrency
  constructor
  · intro h
    obtain ⟨s₁, hs₁, h⟩ := bind_eq_ok_iff.mp h
    cases h
    split at hs₁
    · cases hs₁
    next huser =>
    split at hs₁
    · next hfit =>
      cases hs₁
      exact .concurrency htype (by simpa [Option.isSome_iff_ne_none] using huser) hfit rfl
    · cases hs₁
  · rintro (⟨e, hbal, h⟩ | ⟨-, huser, hfit, rfl⟩ | ⟨htemp, -, -, -⟩)
    · simp [htype] at hbal
    · refine bind_eq_ok_iff.mpr ⟨_, ?_, rfl⟩
      rw [if_neg (by simpa [Option.isSome_iff_ne_none] using huser), if_pos hfit]
    · simp [htype] at htemp

theorem applyBalance_ok (htype : c.type = .balance) :
    applyBalance s userID c t = .ok (s', e) ↔ Applied s s' userID c t e := by
  constructor
  · intro h
    obtain ⟨⟨s₁, entry⟩, hs₁, h⟩ := bind_eq_ok_iff.mp h
    cases h
    exact .balance entry htype hs₁
  · rintro (⟨e, -, h⟩ | ⟨hconc, -, -, -⟩ | ⟨htemp, -, -, -⟩)
    · exact bind_eq_ok_iff.mpr ⟨_, h, rfl⟩
    · simp [htype] at hconc
    · simp [htype] at htemp

theorem appliers_eq_ok_iff : appliers s userID c t = .ok (s', e) ↔ Applied s s' userID c t e := by
  unfold appliers
  split
  · next htype => exact applyBalance_ok htype
  · next htype => exact applyConcurrency_ok htype
  · next htype => exact applyTempBalance_ok htype
  · next htype => exact applyScopedTempBalance_ok htype

theorem getByCode_eq_some_iff :
    getByCode s code = some c ↔ c ∈ s.codes ∧ c.code = code :=
  find?_key_iff s.codeTexts

theorem isSome_getUse_iff {codeID : Int} :
    (getUse s codeID userID).isSome = true ↔ (codeID, userID) ∈ s.uses.map RedemptionUse.pair := by
  simp [getUse]

/-- A code that the status check and `IncrementUsed` let through. -/
def redeemable (c : RedemptionCode) (t : Clocks) : Bool :=
  c.status == .active && !c.expired t.check && !c.expired t.db && c.usedCount < c.maxUses

/-- What a redemption that reports success has done. -/
structure Redeemed (s s' : Store) (c : RedemptionCode) (userID : Int) (t : Clocks)
    (e : Option BalanceLedgerEntry) (s₁ : Store) : Prop where
  code : c ∈ s.codes
  unused : (c.id, userID) ∉ s.uses.map RedemptionUse.pair
  redeemable : redeemable c t
  applied : Applied s s₁ userID c t e
  db : s'.db = s₁.db
  maxConcurrency : s'.maxConcurrency = s₁.maxConcurrency
  inviterOf : s'.inviterOf = s₁.inviterOf
  entries : s'.entries = s₁.entries
  rewards : s'.rewards = s₁.rewards
  uses : s'.uses = s₁.uses ++ [newUse s₁ userID c e t.use]
  codes : s'.codes = s.codes.map fun d => if d.id = c.id then d.useOnce else d

/-- The applier writes neither codes nor uses. -/
theorem Applied.kept (h : Applied s s' userID c t e) :
    s'.codes = s.codes ∧ s'.uses = s.uses ∧ s'.inviterOf = s.inviterOf := by
  rcases h with ⟨e, -, h⟩ | ⟨-, -, -, rfl⟩ | ⟨-, -, -, rfl⟩
  · rcases (applyBalanceCredit_ok h).2 with ⟨-, rfl⟩ | hcredited
    · exact ⟨rfl, rfl, rfl⟩
    · exact ⟨hcredited.codes, hcredited.uses, hcredited.inviterOf⟩
  · exact ⟨rfl, rfl, rfl⟩
  · exact ⟨rfl, rfl, rfl⟩

theorem countable_iff {d : RedemptionCode} {now : Int} (hc : c ∈ s.codes) (hd : d ∈ s.codes) :
    countable c.id now d = true ↔
      d.id = c.id ∧ c.usedCount < c.maxUses ∧ c.status = .active ∧ c.expired now = false := by
  constructor
  · intro h
    simp only [countable, Bool.and_eq_true, decide_eq_true_eq, beq_iff_eq, Bool.not_eq_true'] at h
    obtain ⟨⟨⟨hid, hused⟩, hactive⟩, hlive⟩ := h
    have heq : d = c := inj_on_of_nodup_map s.codeIds hd hc hid
    subst heq
    exact ⟨rfl, hused, hactive, hlive⟩
  · rintro ⟨hid, hused, hactive, hlive⟩
    have heq : d = c := inj_on_of_nodup_map s.codeIds hd hc hid
    subst heq
    simp [countable, hused, hactive, hlive]

theorem createUse_ok {now : Int} (h : createUse s userID c e now = .ok s') :
    s'.uses = s.uses ++ [newUse s userID c e now] ∧ s'.codes = s.codes ∧ s'.db = s.db ∧
      s'.maxConcurrency = s.maxConcurrency ∧ s'.inviterOf = s.inviterOf ∧
      s'.entries = s.entries ∧ s'.rewards = s.rewards := by
  unfold createUse at h
  split_ifs at h
  cases h
  exact ⟨rfl, rfl, rfl, rfl, rfl, rfl, rfl⟩

theorem redeem_ok {a : RedemptionApply} (h : redeem s code userID t = .ok (s', a)) :
    ∃ c e s₁, getByCode s code = some c ∧ Redeemed s s' c userID t e s₁ := by
  unfold redeem at h
  split at h
  · cases h
  next c hcode =>
  split_ifs at h with hunused hstatus
  obtain ⟨⟨s₁, e⟩, happlied, h⟩ := bind_eq_ok_iff.mp h
  obtain ⟨s₂, huse, h⟩ := bind_eq_ok_iff.mp h
  have happ := appliers_eq_ok_iff.mp happlied
  obtain ⟨huses, hcodes, hdb, hmax, hinv, hentries, hrewards⟩ := createUse_ok huse
  have hcodes : s₂.codes = s.codes := hcodes.trans happ.kept.1
  have hc : c ∈ s.codes := (getByCode_eq_some_iff.mp hcode).1
  simp only at h
  split at h
  · next hcounted =>
    cases h
    simp only [incrementUsed] at hcounted
    obtain ⟨d, hd, hcountable⟩ := any_eq_true.mp hcounted
    have hd : d ∈ s.codes := hcodes ▸ hd
    obtain ⟨-, hused, hactive, hlive⟩ := (countable_iff hc hd).mp hcountable
    rw [isSome_getUse_iff] at hunused
    refine ⟨c, e, s₁, hcode, hc, hunused, ?_, happ, hdb, hmax, hinv, hentries, hrewards, huses, ?_⟩
    · simp only [not_or, ne_eq, not_not, Bool.not_eq_true] at hstatus
      simp [redeemable, hused, hactive, hlive, hstatus.2]
    · show s₂.codes.map _ = _
      rw [hcodes]
      refine map_congr_left fun d hd => if_congr ?_ rfl rfl
      simp [countable_iff hc hd, hused, hactive, hlive]
  · cases h

theorem redeem_succeeds {s₁ : Store} (hcode : getByCode s code = some c)
    (hunused : (c.id, userID) ∉ s.uses.map RedemptionUse.pair) (hredeemable : redeemable c t)
    (happ : Applied s s₁ userID c t e) :
    ∃ s' a, redeem s code userID t = .ok (s', a) ∧ Redeemed s s' c userID t e s₁ := by
  obtain ⟨hcodes, huses, -⟩ := happ.kept
  have hc : c ∈ s.codes := (getByCode_eq_some_iff.mp hcode).1
  simp only [redeemable, Bool.and_eq_true, Bool.not_eq_true', beq_iff_eq,
    decide_eq_true_eq] at hredeemable
  obtain ⟨⟨⟨hactive, hcheck⟩, hlive⟩, hused⟩ := hredeemable
  have hcounted (s₂ : Store) (h : s₂.codes = s.codes) :
      (incrementUsed s₂ c.id t.db).2 = true := by
    simp only [incrementUsed, h, any_eq_true]
    exact ⟨c, hc, (countable_iff hc hc).mpr ⟨rfl, hused, hactive, hlive⟩⟩
  have hresult : ∃ s' a, redeem s code userID t = .ok (s', a) := by
    unfold redeem
    rw [hcode]
    simp only
    rw [if_neg (by rwa [isSome_getUse_iff]), if_neg (by simp [hactive, hcheck]),
      appliers_eq_ok_iff.mpr happ]
    simp only [bind, Except.bind]
    unfold createUse
    rw [dif_neg (by rwa [huses])]
    exact ⟨_, _, if_pos (hcounted _ hcodes)⟩
  obtain ⟨s', a, h⟩ := hresult
  obtain ⟨c', e', s₁', hcode', hredeemed⟩ := redeem_ok h
  have hcc : c' = c := Option.some.inj (hcode'.symm.trans hcode)
  subst hcc
  have hsame := (appliers_eq_ok_iff.mpr hredeemed.applied).symm.trans (appliers_eq_ok_iff.mpr happ)
  simp only [Except.ok.injEq, Prod.mk.injEq] at hsame
  obtain ⟨rfl, rfl⟩ := hsame
  exact ⟨s', a, h, hredeemed⟩

end C4Gateway.Wallet
