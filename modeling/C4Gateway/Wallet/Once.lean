import C4Gateway.Wallet.Refusal

/-! Histories of redemptions, deactivations and retention rounds.  The row that stops a second
redemption lives in a table that the retention worker trims, and only the credit of a balance code
leaves a trace that is never deleted. -/

namespace C4Gateway.Wallet

open List Sql Text

/-- A redemption that reported success, and whether it gave the benefit of its code. -/
structure Benefit where
  codeID : Int
  userID : Int
  granted : Bool
  deriving DecidableEq, Repr

/-- The tables, and the redemptions that have reported success so far. -/
structure History where
  store : Store
  benefits : List Benefit

/-- What changes a redemption code. -/
inductive CodeOp where
  | redeem (code : String) (userID : Int) (t : Clocks)
  | deactivate (ids : List Int)
  | retain (now : Int)
  deriving DecidableEq, Repr

/-- From `s` to `s'` the user has received the benefit of the code. -/
def grants (s s' : Store) (c : RedemptionCode) (userID : Int) : Bool :=
  match c.type with
  | .balance => s'.db.balanceOf userID = s.db.balanceOf userID + c.value
  | .concurrency => s'.maxConcurrency userID = raised (s.maxConcurrency userID) c.value
  | .tempBalance | .scopedTempBalance =>
    s'.db.temps = s.db.temps ++ [newTemp s.db userID c.value c.resourceExpiresAt (grantGroup c)]

def History.redeem (h : History) (code : String) (userID : Int) (t : Clocks) : History :=
  match Wallet.redeem h.store code userID t, getByCode h.store code with
  | .ok (s, _), some c => ⟨s, h.benefits ++ [⟨c.id, userID, grants h.store s c userID⟩]⟩
  | _, _ => h

def History.step (h : History) : CodeOp → History
  | .redeem code userID t => h.redeem code userID t
  | .deactivate ids => { h with store := deactivateCodes h.store ids }
  | .retain now => { h with store := Wallet.retain h.store now }

/-- The users that have received the benefit of a code. -/
def receivers (benefits : List Benefit) (codeID : Int) : List Int :=
  (benefits.filter fun b => b.codeID = codeID ∧ b.granted = true).map Benefit.userID

/-- No user has received a benefit twice, every success gave the benefit, and codes count the users
that have received theirs. -/
structure Lawful (h : History) : Prop where
  once : ∀ codeID, (receivers h.benefits codeID).Nodup
  granted : ∀ b ∈ h.benefits, b.granted = true
  counted : ∀ c ∈ h.store.codes,
    c.usedCount = (receivers h.benefits c.id).dedup.length ∧ c.usedCount ≤ c.maxUses

/-- No code has been used: there is no use and no entry of a redemption. -/
structure Fresh (s : Store) : Prop where
  counts : ∀ c ∈ s.codes, c.usedCount = 0
  uses : s.uses = []
  keyed : ∀ e ∈ s.entries, e.idempotencyKey = idempotencyKey e.kind e.sourceID e.userID
  entries : ∀ e ∈ s.entries, e.kind ≠ .redemption

/-- A redemption by a user that has received the benefit before, whose use is no longer stored,
while the code can still be redeemed. -/
def Repeats (h : History) : CodeOp → Prop
  | .redeem code userID t => ∃ c ∈ getByCode h.store code,
      userID ∈ receivers h.benefits c.id ∧ getUse h.store c.id userID = none ∧ redeemable c t ∧
      (c.type = .concurrency → InInt64 (raised (h.store.maxConcurrency userID) c.value))
  | _ => False

instance (h : History) : ∀ op, Decidable (Repeats h op)
  | .redeem code _ _ => inferInstanceAs (Decidable (∃ c ∈ getByCode h.store code, _))
  | .deactivate _ => isFalse id
  | .retain _ => isFalse id

/-- What the tables still tell of the benefits. -/
structure Traced (h : History) : Prop where
  keyed : ∀ e ∈ h.store.entries, e.idempotencyKey = idempotencyKey e.kind e.sourceID e.userID
  uses : ∀ use ∈ h.store.uses, use.userID ∈ receivers h.benefits use.codeID
  unbooked : ∀ c ∈ h.store.codes, c.type = .balance → ∀ u,
    (u ∉ receivers h.benefits c.id ↔ Unused h.store .redemption (codeSource c) u)
  user : ∀ c ∈ h.store.codes, ∀ u ∈ receivers h.benefits c.id, (getUser h.store.db u).isSome
  valid : ∀ c ∈ h.store.codes, ∀ u ∈ receivers h.benefits c.id, c.type = .balance → 0 < u
  complete : ∀ c ∈ h.store.codes, ∀ u ∈ receivers h.benefits c.id,
    c.type = .tempBalance ∨ c.type = .scopedTempBalance → grantComplete c

theorem receivers_append (l l' : List Benefit) (codeID : Int) :
    receivers (l ++ l') codeID = receivers l codeID ++ receivers l' codeID := by
  simp [receivers]

theorem receivers_singleton (b : Benefit) (codeID : Int) : receivers [b] codeID =
    if b.codeID = codeID ∧ b.granted = true then [b.userID] else [] := by
  unfold receivers
  split
  · next hin => simp [hin]
  · next hout => simp [hout]

theorem codeSource_injective {c d : RedemptionCode} (h : codeSource c = codeSource d) :
    c.id = d.id :=
  decimal_injective (append_cancel_left h)

theorem History.redeem_cases (h : History) (code : String) (userID : Int) (t : Clocks) :
    h.redeem code userID t = h ∨ ∃ c e s₁ s', getByCode h.store code = some c ∧
      Redeemed h.store s' c userID t e s₁ ∧
      h.redeem code userID t =
        ⟨s', h.benefits ++ [⟨c.id, userID, grants h.store s' c userID⟩]⟩ := by
  cases hok : Wallet.redeem h.store code userID t with
  | error f => exact .inl (by simp [History.redeem, hok])
  | ok out =>
    obtain ⟨s', a⟩ := out
    obtain ⟨c, e, s₁, hcode, hredeemed⟩ := redeem_ok hok
    exact .inr ⟨c, e, s₁, s', hcode, hredeemed, by simp [History.redeem, hok, hcode]⟩

variable {c : RedemptionCode} {userID : Int} {t : Clocks} {e : Option BalanceLedgerEntry}

section
variable {s s' s₁ : Store}

section
variable (h : Redeemed s s' c userID t e s₁)
include h

/-- A redemption gives the benefit, but for a balance code whose credit is a replay. -/
theorem Redeemed.grants_iff :
    grants s s' c userID = true ↔
      (c.type = .balance →
        findEntry s (idempotencyKey .redemption (codeSource c) userID) = none) := by
  rcases h.applied with ⟨e, htype, hcredit⟩ | ⟨htype, -, -, rfl⟩ | ⟨htype, -, -, rfl⟩
  · simp only [grants, htype, decide_eq_true_eq, forall_const]
    rcases (applyBalanceCredit_ok hcredit).2 with ⟨hfound, rfl⟩ | hcredited
    · have hpos := c.value_pos
      simp only [h.db, hfound, reduceCtorEq, iff_false]
      omega
    · simp [h.db, hcredited.raises, hcredited.unused]
  · simp [grants, htype, h.maxConcurrency]
  · rcases htype with htype | htype <;> simp [grants, htype, h.db, insertTemp]

theorem Redeemed.isSome_getUser (u : Int) : (getUser s'.db u).isSome = (getUser s.db u).isSome := by
  rw [h.db]
  rcases h.applied with ⟨e, -, hcredit⟩ | ⟨-, -, -, rfl⟩ | ⟨-, -, -, rfl⟩
  · rcases (applyBalanceCredit_ok hcredit).2 with ⟨-, rfl⟩ | hcredited
    · rfl
    · exact hcredited.isSome_getUser u
  · rfl
  · rfl

/-- The redeeming user exists; for a balance code its id is positive, and a grant is complete. -/
theorem Redeemed.valid
    (hfirst : c.type = .balance →
      findEntry s (idempotencyKey .redemption (codeSource c) userID) = none) :
    (getUser s.db userID).isSome ∧ (c.type = .balance → 0 < userID) ∧
      (c.type = .tempBalance ∨ c.type = .scopedTempBalance → grantComplete c) := by
  rcases h.applied with ⟨e, htype, hcredit⟩ | ⟨htype, huser, -, -⟩ | ⟨htype, huser, hcomplete, -⟩
  · obtain ⟨hvalid, ⟨hfound, -⟩ | hcredited⟩ := applyBalanceCredit_ok hcredit
    · rw [hfirst htype] at hfound
      cases hfound
    · exact ⟨hcredited.user, fun _ => hvalid.1, by simp [htype]⟩
  · exact ⟨huser, by simp [htype], by simp [htype]⟩
  · exact ⟨huser, fun hbalance => by simp [hbalance] at htype, fun _ => hcomplete⟩

/-- The entries after a redemption that is the first of its user. -/
theorem Redeemed.entries_eq
    (hfirst : c.type = .balance →
      findEntry s (idempotencyKey .redemption (codeSource c) userID) = none) :
    s'.entries = s.entries ++ if c.type = .balance then
      [creditEntry userID c.value .redemption (codeSource c) (s.db.balanceOf userID + c.value)]
      else [] := by
  rw [h.entries]
  rcases h.applied with ⟨e, htype, hcredit⟩ | ⟨htype, -, -, rfl⟩ | ⟨htype, -, -, rfl⟩
  · obtain ⟨-, ⟨hfound, -⟩ | hcredited⟩ := applyBalanceCredit_ok hcredit
    · rw [hfirst htype] at hfound
      cases hfound
    · rw [hcredited.entries, hcredited.entry, if_pos htype]
  · simp [htype]
  · rcases htype with htype | htype <;> simp [htype]

end
end

section
variable {h : History} {s' s₁ : Store}

theorem Traced.first (ht : Traced h) (hc : c ∈ h.store.codes)
    (hnew : userID ∉ receivers h.benefits c.id) :
    c.type = .balance →
      findEntry h.store (idempotencyKey .redemption (codeSource c) userID) = none :=
  fun htype => (unused_iff ht.keyed).mp ((ht.unbooked c hc htype userID).mp hnew)

/-- A code after the counting of a use: the code that is redeemed or another. -/
theorem Redeemed.mem_codes (hr : Redeemed h.store s' c userID t e s₁) {d : RedemptionCode}
    (hd : d ∈ s'.codes) : d = c.useOnce ∨ (d ∈ h.store.codes ∧ d.id ≠ c.id) := by
  rw [hr.codes] at hd
  obtain ⟨d₀, hd₀, rfl⟩ := mem_map.mp hd
  split
  · next hid =>
    left
    rw [inj_on_of_nodup_map h.store.codeIds hd₀ hr.code hid]
  · next hid => exact .inr ⟨hd₀, hid⟩

/-- The users that have received a code's benefit after one more has received that of `c`. -/
theorem receivers_concat (benefits : List Benefit) (codeID userID d : Int) :
    receivers (benefits ++ [⟨codeID, userID, true⟩]) d =
      receivers benefits d ++ if codeID = d then [userID] else [] := by
  rw [receivers_append, receivers_singleton]
  simp

theorem Redeemed.unused_iff (hr : Redeemed h.store s' c userID t e s₁)
    (hfirst : c.type = .balance →
      findEntry h.store (idempotencyKey .redemption (codeSource c) userID) = none)
    (d : RedemptionCode) (u : Int) : Unused s' .redemption (codeSource d) u ↔
      Unused h.store .redemption (codeSource d) u ∧
        ¬(c.type = .balance ∧ c.id = d.id ∧ userID = u) := by
  have hsource : codeSource c = codeSource d ↔ c.id = d.id :=
    ⟨codeSource_injective, fun hid => by rw [codeSource, hid, codeSource]⟩
  unfold Unused
  rw [hr.entries_eq hfirst]
  by_cases htype : c.type = .balance
  · simp [or_imp, forall_and, creditEntry, hsource]
  · simp [htype]

/-- The first redemption of a code by a user keeps the traces. -/
theorem Traced.redeem (ht : Traced h) (hr : Redeemed h.store s' c userID t e s₁)
    (hnew : userID ∉ receivers h.benefits c.id) :
    Traced ⟨s', h.benefits ++ [⟨c.id, userID, true⟩]⟩ := by
  have hfirst := ht.first hr.code hnew
  obtain ⟨huser, hvalid, hcomplete⟩ := hr.valid hfirst
  have hreceived : ∀ d ∈ s'.codes,
      ∀ u ∈ receivers (h.benefits ++ [⟨c.id, userID, true⟩]) d.id,
        d = c.useOnce ∧ (u ∈ receivers h.benefits c.id ∨ u = userID) ∨
          d ∈ h.store.codes ∧ u ∈ receivers h.benefits d.id := by
    intro d hd u hu
    simp only [receivers_concat] at hu
    rcases hr.mem_codes hd with rfl | ⟨hd, hid⟩
    · exact .inl ⟨rfl, by simpa [RedemptionCode.useOnce] using hu⟩
    · exact .inr ⟨hd, by simpa [Ne.symm hid] using hu⟩
  constructor
  · intro e he
    rw [hr.entries_eq hfirst, mem_append] at he
    rcases he with he | he
    · exact ht.keyed e he
    · split at he
      · rw [mem_singleton.mp he]
        rfl
      · cases he
  · intro use huse
    simp only [receivers_concat]
    rw [hr.uses, hr.applied.kept.2.1, mem_append, mem_singleton] at huse
    rcases huse with huse | rfl
    · exact mem_append_left _ (ht.uses use huse)
    · simp [newUse]
  · intro d hd htype u
    simp only [receivers_concat]
    rw [hr.unused_iff hfirst]
    rcases hr.mem_codes hd with rfl | ⟨hd, hid⟩
    · have htype : c.type = .balance := htype
      have hold := ht.unbooked c hr.code htype u
      rw [← show codeSource c = codeSource c.useOnce from rfl, ← hold]
      simp [RedemptionCode.useOnce, htype, eq_comm]
    · have hold := ht.unbooked d hd htype u
      rw [← hold]
      simp [Ne.symm hid]
  · intro d hd u hu
    simp only [hr.isSome_getUser]
    rcases hreceived d hd u hu with ⟨rfl, hu | rfl⟩ | ⟨hd, hu⟩
    · exact ht.user c hr.code u hu
    · exact huser
    · exact ht.user d hd u hu
  · intro d hd u hu
    rcases hreceived d hd u hu with ⟨rfl, hu | rfl⟩ | ⟨hd, hu⟩
    · exact ht.valid c hr.code u hu
    · exact hvalid
    · exact ht.valid d hd u hu
  · intro d hd u hu
    rcases hreceived d hd u hu with ⟨rfl, -⟩ | ⟨hd, hu⟩
    · exact hcomplete
    · exact ht.complete d hd u hu

theorem Lawful.redeem (hl : Lawful h) (hr : Redeemed h.store s' c userID t e s₁)
    (hnew : userID ∉ receivers h.benefits c.id) :
    Lawful ⟨s', h.benefits ++ [⟨c.id, userID, true⟩]⟩ := by
  have honce : ∀ codeID, (receivers (h.benefits ++ [⟨c.id, userID, true⟩]) codeID).Nodup := by
    intro codeID
    rw [receivers_concat]
    split
    · next hid =>
      subst hid
      simpa using (hl.once c.id).concat hnew
    · simpa using hl.once codeID
  refine ⟨honce, ?_, ?_⟩
  · intro b hb
    rcases mem_append.mp hb with hb | hb
    · exact hl.granted b hb
    · rw [mem_singleton.mp hb]
  · intro d hd
    rw [(honce d.id).dedup]
    simp only [receivers_concat]
    rcases hr.mem_codes hd with rfl | ⟨hd, hid⟩
    · obtain ⟨hcount, -⟩ := hl.counted c hr.code
      rw [(hl.once c.id).dedup] at hcount
      have hroom := hr.redeemable
      simp only [redeemable, Bool.and_eq_true, decide_eq_true_eq] at hroom
      simp only [RedemptionCode.useOnce, if_true, length_append, length_singleton]
      omega
    · have hcount := hl.counted d hd
      rw [(hl.once d.id).dedup] at hcount
      simpa [Ne.symm hid] using hcount

/-- A repeated redemption commits, and breaks the law. -/
theorem not_lawful_of_repeats {code : String} (ht : Traced h)
    (hrep : Repeats h (.redeem code userID t)) : ¬Lawful (h.redeem code userID t) := by
  obtain ⟨c, hcode, hreceived, hgone, hredeemable, hfit⟩ := hrep
  rw [Option.mem_def] at hcode
  have hc : c ∈ h.store.codes := (getByCode_eq_some_iff.mp hcode).1
  have hpair : (c.id, userID) ∉ h.store.uses.map RedemptionUse.pair := by
    rw [← isSome_getUse_iff, hgone]
    simp
  have huser := ht.user c hc userID hreceived
  obtain ⟨s₁, e, happ⟩ : ∃ s₁ e, Applied h.store s₁ userID c t e := by
    cases htype : c.type with
    | balance =>
      -- the credit is a replay: its entry is still there
      cases hfound : findEntry h.store (idempotencyKey .redemption (codeSource c) userID) with
      | none =>
        have hunused := (unused_iff ht.keyed).mpr hfound
        exact absurd hreceived ((ht.unbooked c hc htype userID).mpr hunused)
      | some e =>
        have hargs : ValidCredit userID c.value (codeSource c) :=
          ⟨ht.valid c hc userID hreceived htype, c.value_pos.ne', codeSource_ne_blank c⟩
        exact ⟨_, _, .balance e htype (applyBalanceCredit_replay hargs hfound)⟩
    | concurrency => exact ⟨_, _, .concurrency htype huser (hfit htype) rfl⟩
    | tempBalance =>
      have hcomplete := ht.complete c hc userID hreceived (.inl htype)
      exact ⟨_, _, .temp (.inl htype) huser hcomplete rfl⟩
    | scopedTempBalance =>
      have hcomplete := ht.complete c hc userID hreceived (.inr htype)
      exact ⟨_, _, .temp (.inr htype) huser hcomplete rfl⟩
  obtain ⟨s', a, hok, hr⟩ := redeem_succeeds hcode hpair hredeemable happ
  have hstep : h.redeem code userID t =
      ⟨s', h.benefits ++ [⟨c.id, userID, grants h.store s' c userID⟩]⟩ := by
    simp [History.redeem, hok, hcode]
  rw [hstep]
  intro hlaw
  have hgranted : grants h.store s' c userID = true :=
    hlaw.granted ⟨c.id, userID, _⟩ (mem_append_right _ (mem_singleton_self _))
  have htwice := hlaw.once c.id
  rw [hgranted, receivers_concat, if_pos rfl, nodup_append] at htwice
  exact htwice.2.2 userID hreceived userID (mem_singleton_self _) rfl

theorem Traced.of_codes {store : Store} (ht : Traced h) (hdb : store.db = h.store.db)
    (hentries : store.entries = h.store.entries) (huses : store.uses.Sublist h.store.uses)
    (hcodes : ∀ d ∈ store.codes, ∃ d₀ ∈ h.store.codes, d.id = d₀.id ∧ d.type = d₀.type ∧
      grantComplete d = grantComplete d₀) : Traced { h with store := store } := by
  refine ⟨hentries ▸ ht.keyed, fun use huse => ht.uses use (huses.subset huse), ?_, ?_, ?_, ?_⟩
  · intro d hd htype u
    obtain ⟨d₀, hd₀, hid, htype₀, -⟩ := hcodes d hd
    have hold := ht.unbooked d₀ hd₀ (htype₀ ▸ htype) u
    rw [← hid] at hold
    rw [hold, Unused, Unused, hentries, codeSource, codeSource, hid]
  · intro d hd u hu
    obtain ⟨d₀, hd₀, hid, -⟩ := hcodes d hd
    rw [hid] at hu
    simpa only [hdb] using ht.user d₀ hd₀ u hu
  · intro d hd u hu
    obtain ⟨d₀, hd₀, hid, htype₀, -⟩ := hcodes d hd
    rw [hid] at hu
    rw [htype₀]
    exact ht.valid d₀ hd₀ u hu
  · intro d hd u hu
    obtain ⟨d₀, hd₀, hid, htype₀, hcomplete⟩ := hcodes d hd
    rw [hid] at hu
    rw [htype₀, hcomplete]
    exact ht.complete d₀ hd₀ u hu

theorem mem_deactivateCodes {s : Store} {ids : List Int} {d : RedemptionCode}
    (hd : d ∈ (deactivateCodes s ids).codes) : ∃ d₀ ∈ s.codes, d = d₀ ∨ d = d₀.disable := by
  obtain ⟨d₀, hd₀, rfl⟩ := mem_map.mp hd
  refine ⟨d₀, hd₀, ?_⟩
  split
  · exact .inr rfl
  · exact .inl rfl

/-- A step that meets the condition keeps the traces and the law, and any other breaks the law. -/
theorem History.step_lawful (ht : Traced h) (hl : Lawful h) (op : CodeOp) :
    (¬Repeats h op → Traced (h.step op) ∧ Lawful (h.step op)) ∧
      (Repeats h op → ¬Lawful (h.step op)) := by
  cases op with
  | redeem code userID t =>
    refine ⟨fun hfine => ?_, not_lawful_of_repeats ht⟩
    rcases h.redeem_cases code userID t with hsame | ⟨c, e, s₁, s', hcode, hr, hstep⟩
    · rw [History.step, hsame]
      exact ⟨ht, hl⟩
    · have hnew : userID ∉ receivers h.benefits c.id := by
        intro hreceived
        refine hfine ⟨c, hcode, hreceived, ?_, hr.redeemable, fun htype => ?_⟩
        · have hgone := hr.unused
          rw [← isSome_getUse_iff] at hgone
          simpa using hgone
        · rcases hr.applied with ⟨_, hbalance, -⟩ | ⟨-, -, hfit, -⟩ | ⟨htemp, -, -, -⟩
          · rw [htype] at hbalance
            cases hbalance
          · exact hfit
          · simp [htype] at htemp
      rw [History.step, hstep, hr.grants_iff.mpr (ht.first hr.code hnew)]
      exact ⟨ht.redeem hr hnew, hl.redeem hr hnew⟩
  | deactivate ids =>
    refine ⟨fun _ => ⟨ht.of_codes rfl rfl (List.Sublist.refl _) fun d hd => ?_, ?_⟩, False.elim⟩
    · obtain ⟨d₀, hd₀, rfl | rfl⟩ := mem_deactivateCodes hd
      · exact ⟨d, hd₀, rfl, rfl, rfl⟩
      · exact ⟨d₀, hd₀, rfl, rfl, rfl⟩
    · refine ⟨hl.once, hl.granted, fun d hd => ?_⟩
      obtain ⟨d₀, hd₀, rfl | rfl⟩ := mem_deactivateCodes hd
      · exact hl.counted d hd₀
      · exact hl.counted d₀ hd₀
  | retain now =>
    refine ⟨fun _ => ⟨?_, hl.once, hl.granted, hl.counted⟩, False.elim⟩
    exact ht.of_codes rfl rfl filter_sublist fun d hd => ⟨d, hd, rfl, rfl, rfl⟩

end

theorem Fresh.traced {s : Store} (hf : Fresh s) : Traced ⟨s, []⟩ where
  keyed := hf.keyed
  uses := by simp [hf.uses]
  unbooked c hc htype u := by
    simp only [receivers, filter_nil, map_nil, not_mem_nil, not_false_eq_true, true_iff]
    exact fun e he heq => hf.entries e he heq.1
  user := by simp [receivers]
  valid := by simp [receivers]
  complete := by simp [receivers]

theorem Fresh.lawful {s : Store} (hf : Fresh s) : Lawful ⟨s, []⟩ where
  once := by simp [receivers]
  granted := by simp
  counted c hc := by
    have hmax := c.maxUses_pos
    simp only [hf.counts c hc, receivers, filter_nil, map_nil, dedup_nil, length_nil]
    omega

/-- From a store in which no code has been used, the law holds throughout a history exactly if no
user redeems a code again after the retention worker has deleted the use, while the code can still
be redeemed. -/
theorem redemption_lawful_iff {s : Store} (hf : Fresh s) (ops : List CodeOp) :
    (∀ h ∈ Run.states History.step ⟨s, []⟩ ops, Lawful h) ↔
      Run.Each History.step (fun h op => ¬Repeats h op) ⟨s, []⟩ ops := by
  have hiff (h : History) (op : CodeOp) (ht : Lawful h → Traced h) (hl : Lawful h) :
      Lawful (h.step op) ↔ ¬Repeats h op := by
    obtain ⟨hkeeps, hbreaks⟩ := History.step_lawful (ht hl) hl op
    exact ⟨fun hlaw hrep => hbreaks hrep hlaw, fun hfine => (hkeeps hfine).2⟩
  refine Run.each_iff_states (fun h => Lawful h → Traced h) Lawful ?_ hiff
    (fun _ => hf.traced) hf.lawful
  intro h op ht hl hlaw
  exact ((History.step_lawful (ht hl) hl op).1 ((hiff h op ht hl).mp hlaw)).1

/-- A user, a code that raises the limit of up to ten users, and a code for balance. -/
def promotion : Store :=
  .opening (newUser [] nodup_nil)
    [{ id := 1, code := "TEAM", type := .concurrency, value := 5, maxUses := 10 },
      giftCode 2 10 (by decide)] (by decide) (by decide)

theorem promotion_fresh : Fresh promotion :=
  ⟨by decide, rfl, by simp [promotion, Store.opening], by simp [promotion, Store.opening]⟩

def Clocks.at (now : Int) : Clocks := ⟨now, now, now, now⟩

/-- The user redeems both codes, and again after a retention round a hundred days later; the codes
are deactivated before that if `closed`. -/
def redeemTwice (closed : Bool) : List CodeOp :=
  [.redeem "TEAM" 4 (.at 0), .redeem "GIFT" 4 (.at 0), .retain (100 * day)] ++
    (if closed then [.deactivate [1, 2]] else []) ++
    [.redeem "TEAM" 4 (.at (100 * day)), .redeem "GIFT" 4 (.at (100 * day))]

theorem redemption_lawful_closed :
    Fresh promotion ∧
      ∀ h ∈ Run.states History.step ⟨promotion, []⟩ (redeemTwice true), Lawful h :=
  ⟨promotion_fresh,
    (redemption_lawful_iff promotion_fresh (redeemTwice true)).mpr (by decide +kernel)⟩

/-- The second redemption raises the limit once more; that of the balance code reports success and
credits nothing; and both codes count two users where there is one. -/
theorem redemption_repeated :
    ((redeemTwice false).foldl History.step ⟨promotion, []⟩).benefits =
        [⟨1, 4, true⟩, ⟨2, 4, true⟩, ⟨1, 4, true⟩, ⟨2, 4, false⟩] ∧
      ((redeemTwice false).foldl History.step ⟨promotion, []⟩).store.maxConcurrency 4 = 10 ∧
      ((redeemTwice false).foldl History.step ⟨promotion, []⟩).store.db.balanceOf 4 = 50 ∧
      ((redeemTwice false).foldl History.step ⟨promotion, []⟩).store.codes.map
        RedemptionCode.usedCount = [2, 2] := by
  decide +kernel

end C4Gateway.Wallet
