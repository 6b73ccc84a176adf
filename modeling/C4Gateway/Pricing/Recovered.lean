import C4Gateway.Pricing.Reprice
import Mathlib.Tactic.Linarith

/-! What a recovered row is charged.  The amount of a row is a sum of counters times prices; the
code forms it with saturating arithmetic, rounds it to ledger units and then applies the
multiplier. -/

namespace C4Gateway

/-- The price of a component in millionths of a ledger unit for each count. -/
def perCount (price : Option Int) : Int := price.getD 0 * milliPerMillion

/-- The counters of a row with their prices; a cached part without a price has the price of the
input. -/
def pricedComponents (u : Usage) (rp : ResolvedPrices) : List (Int × Int) :=
  match u.format with
  | .openaiImages =>
    [(u.inputTokens, rp.imgInTokPerM.getD 0), (u.outputTokens, rp.imgOutTokPerM.getD 0),
      (u.callCount, perCount rp.pricePerImage)]
  | .openaiSearch => [(u.callCount, perCount rp.pricePerCall)]
  | _ =>
    [(u.callCount, perCount rp.pricePerImage), (u.inputTokens, rp.inputPerM.getD 0),
      (u.outputTokens, rp.outputPerM.getD 0),
      (u.cacheReadTokens, (rp.cacheReadPerM.or rp.inputPerM).getD 0),
      (u.cacheCreationTokens, (rp.cacheWritePerM.or rp.inputPerM).getD 0)]

/-- The exact amount, in millionths of a ledger unit. -/
def exactAmount (u : Usage) (rp : ResolvedPrices) : Int :=
  ((pricedComponents u rp).map fun c => c.1 * c.2).sum

/-- The amount of the components with a positive counter and a positive price. -/
def positiveAmount (u : Usage) (rp : ResolvedPrices) : Int :=
  ((pricedComponents u rp).map fun c => max c.1 0 * max c.2 0).sum

def halfUnit : Int := milliPerMillion / 2

/-- A saturated amount is exact or more than is rounded away. -/
structure Capped (s x : Int) : Prop where
  nonneg : 0 ≤ s
  le : s ≤ x
  exact : s = x ∨ halfUnit ≤ s

namespace Capped

variable {s t x y : Int}

theorem half_le_iff (h : Capped s x) : halfUnit ≤ s ↔ halfUnit ≤ x := by
  obtain ⟨hnonneg, hle, rfl | hhalf⟩ := h
  · rfl
  · exact iff_of_true hhalf (hhalf.trans hle)

theorem zero : Capped 0 0 := ⟨le_rfl, le_rfl, .inl rfl⟩

theorem add (h : Capped s x) (h' : Capped t y) : Capped (saturatingCostAdd s t) (x + y) := by
  obtain ⟨hs, hsx, hexact⟩ := h
  obtain ⟨ht, hty, hexact'⟩ := h'
  have hmax : halfUnit ≤ maxInt64 := by decide
  have hmax' : 0 ≤ maxInt64 := by decide
  unfold saturatingCostAdd
  constructor <;> split <;> split <;> omega

theorem mul (a b : Int) {limit : Int} (hlimit : halfUnit ≤ limit) :
    Capped (saturatingCostMul (clampTokens a) (max b 0) limit) (max a 0 * max b 0) := by
  have hpos : 0 < limit := lt_of_lt_of_le (by decide) hlimit
  have hprod : 0 ≤ max a 0 * max b 0 := Int.mul_nonneg (le_max_right ..) (le_max_right ..)
  rw [saturatingCostMul_eq _ _ hpos, clampTokens_eq, max_eq_left (le_max_right a 0),
    max_eq_left (le_max_right b 0)]
  constructor <;> omega

end Capped

theorem positiveCostPrice_eq (v : Option Int) : positiveCostPrice v = max (v.getD 0) 0 := by
  cases v with
  | none => rfl
  | some v =>
    simp only [positiveCostPrice, Option.getD_some]
    split <;> omega

theorem cachePrice_eq (cache input : Option Int) :
    (if cache = none then positiveCostPrice input else positiveCostPrice cache) =
      max ((cache.or input).getD 0) 0 := by
  cases cache <;> simp [positiveCostPrice_eq]

/-- Fixed-point parts of an amount. -/
structure CostParts.Of (parts : CostParts) (x : Int) : Prop where
  units : 0 ≤ parts.units
  remainder : 0 ≤ parts.remainder ∧ parts.remainder < milliPerMillion
  capped : Capped (parts.units * milliPerMillion + parts.remainder) x

namespace CostParts.Of

variable {parts parts' : CostParts} {x y : Int}

theorem split {raw : Int} (h : Capped raw x) : (splitCostParts raw).Of x := by
  have hnonneg := h.nonneg
  unfold splitCostParts
  split
  · obtain rfl : raw = 0 := by omega
    exact ⟨le_rfl, by decide, h⟩
  · refine ⟨?_, ?_, ?_⟩ <;> dsimp only
    · exact Int.ediv_nonneg hnonneg (by decide)
    · exact ⟨Int.emod_nonneg _ (by decide), Int.emod_lt_of_pos _ (by decide)⟩
    · rwa [Int.ediv_mul_add_emod]

theorem flat {n : Int} (h : Capped (n * milliPerMillion) x) (hn : 0 ≤ n) :
    CostParts.Of ⟨n, 0⟩ x :=
  ⟨hn, ⟨le_rfl, show (0 : Int) < milliPerMillion by decide⟩, by simpa using h⟩

theorem add (h : parts.Of x) (h' : parts'.Of y) : (addCostParts parts parts').Of (x + y) := by
  obtain ⟨hunits, ⟨hrem, hrem'⟩, hnonneg, hle, hexact⟩ := h
  obtain ⟨hunits', ⟨hrem₁, hrem₁'⟩, hnonneg', hle', hexact'⟩ := h'
  have hsum : saturatingCostAdd parts.units parts'.units = parts.units + parts'.units ∨
      saturatingCostAdd parts.units parts'.units = maxInt64 ∧
        maxInt64 ≤ parts.units + parts'.units := by
    unfold saturatingCostAdd
    repeat' split
    all_goals omega
  unfold addCostParts
  unfold halfUnit milliPerMillion maxInt64 at *
  dsimp only
  split
  · refine ⟨by decide, by decide, ?_⟩
    constructor <;> dsimp only [halfUnit, milliPerMillion] <;> omega
  · split
    · refine ⟨by decide, by decide, ?_⟩
      constructor <;> dsimp only [halfUnit, milliPerMillion] <;> omega
    · refine ⟨?_, ?_, ?_, ?_, ?_⟩ <;> dsimp only [halfUnit, milliPerMillion] <;> omega

theorem rounded_pos_iff (h : parts.Of x) : 0 < parts.rounded ↔ halfUnit ≤ x := by
  rw [← h.capped.half_le_iff]
  obtain ⟨hunits, ⟨hrem, hrem'⟩, -⟩ := h
  unfold CostParts.rounded halfUnit milliPerMillion maxInt64 at *
  dsimp only
  split <;> split <;> omega

variable (rp : ResolvedPrices)

theorem tokens (pt ct cr cc : Int) :
    (costPartsFromResolved rp pt ct cr cc).Of
      (max pt 0 * max (rp.inputPerM.getD 0) 0 + max ct 0 * max (rp.outputPerM.getD 0) 0 +
        max cr 0 * max ((rp.cacheReadPerM.or rp.inputPerM).getD 0) 0 +
        max cc 0 * max ((rp.cacheWritePerM.or rp.inputPerM).getD 0) 0) := by
  have hbudget : halfUnit ≤ segBudget := by decide
  unfold costPartsFromResolved
  dsimp only
  rw [cachePrice_eq, cachePrice_eq, positiveCostPrice_eq, positiveCostPrice_eq]
  refine split (Capped.add (Capped.add (Capped.add ?_ ?_) ?_) ?_)
  all_goals exact Capped.mul _ _ hbudget

theorem max_perCount (price : Option Int) :
    max (perCount price) 0 = max (price.getD 0) 0 * milliPerMillion := by
  unfold perCount milliPerMillion
  omega

/-- A flat charge in ledger units on top of tokens, with a bound of its own. -/
theorem addFlat {flat limit : Int} (h : parts.Of x) (hflat : Capped flat y) (hlimit : 0 < limit) :
    CostParts.Of (if saturatingCostAdd parts.units flat ≥ limit then ⟨limit, 0⟩
      else ⟨saturatingCostAdd parts.units flat, parts.remainder⟩) (x + y * milliPerMillion) := by
  obtain ⟨hunits, ⟨hrem, hrem'⟩, hnonneg, hle, hexact⟩ := h
  obtain ⟨hflat, hley, hexact'⟩ := hflat
  have hsum : saturatingCostAdd parts.units flat = parts.units + flat ∨
      saturatingCostAdd parts.units flat = maxInt64 ∧ maxInt64 ≤ parts.units + flat := by
    unfold saturatingCostAdd
    repeat' split
    all_goals omega
  unfold halfUnit milliPerMillion maxInt64 at *
  split
  · refine ⟨hlimit.le, ?_, ?_, ?_, ?_⟩ <;> dsimp only [halfUnit, milliPerMillion] <;> omega
  · refine ⟨?_, ?_, ?_, ?_, ?_⟩ <;> dsimp only [halfUnit, milliPerMillion] <;> omega

theorem images (inTok outTok count : Int) :
    (imageCostPartsFromResolved rp inTok outTok count).Of
      (max inTok 0 * max (rp.imgInTokPerM.getD 0) 0 +
        max outTok 0 * max (rp.imgOutTokPerM.getD 0) 0 +
        max count 0 * max (perCount rp.pricePerImage) 0) := by
  have hbudget : halfUnit ≤ segBudget := by decide
  have hcap : halfUnit ≤ imageTotalCap := by decide
  have hflat := Capped.mul count (rp.pricePerImage.getD 0) hcap
  have hparts := split (Capped.add (Capped.mul inTok (rp.imgInTokPerM.getD 0) hbudget)
    (Capped.mul outTok (rp.imgOutTokPerM.getD 0) hbudget))
  unfold imageCostPartsFromResolved
  dsimp only
  rw [positiveCostPrice_eq, positiveCostPrice_eq, positiveCostPrice_eq, max_perCount, ← mul_assoc]
  have hcharge : ∀ units : Int, 0 ≤ units →
      (if max (rp.pricePerImage.getD 0) 0 > 0 ∧ clampTokens count > 0 then
        saturatingCostAdd units (saturatingCostMul (clampTokens count)
          (max (rp.pricePerImage.getD 0) 0) imageTotalCap) else units) =
      saturatingCostAdd units (saturatingCostMul (clampTokens count)
        (max (rp.pricePerImage.getD 0) 0) imageTotalCap) := by
    intro units hunits
    split
    · rfl
    next hfree =>
      have hzero : saturatingCostMul (clampTokens count) (max (rp.pricePerImage.getD 0) 0)
          imageTotalCap = 0 := if_pos (by omega)
      rw [saturatingCostAdd]
      split <;> omega
  rw [hcharge _ hparts.units]
  exact addFlat hparts hflat (by decide)

theorem calls (count : Int) :
    CostParts.Of ⟨callCostFromResolved rp count, 0⟩
      (max count 0 * max (perCount rp.pricePerCall) 0) := by
  have hcap : halfUnit ≤ imageTotalCap := by decide
  have hcall : callCostFromResolved rp count =
      saturatingCostMul (clampTokens count) (max (rp.pricePerCall.getD 0) 0) imageTotalCap := by
    unfold callCostFromResolved
    cases rp.pricePerCall with
    | none => simp [saturatingCostMul]
    | some p =>
      dsimp only [Option.getD_some]
      split
      · rw [max_eq_left (by omega)]
      · rw [saturatingCostMul, if_pos (by omega)]
  obtain ⟨hnonneg, hle, hexact⟩ := Capped.mul count (rp.pricePerCall.getD 0) hcap
  rw [hcall, max_perCount, ← mul_assoc]
  refine flat ⟨?_, ?_, ?_⟩ hnonneg <;> unfold halfUnit milliPerMillion at * <;> omega

theorem free : CostParts.Of {} 0 := ⟨le_rfl, by decide, Capped.zero⟩

end CostParts.Of

/-! ### Recovery -/

variable (u : Usage) (rp : ResolvedPrices)

theorem withCacheFallback_or :
    (withCacheFallback u rp).cacheReadPerM.or (withCacheFallback u rp).inputPerM =
        rp.cacheReadPerM.or rp.inputPerM ∧
      (withCacheFallback u rp).cacheWritePerM.or (withCacheFallback u rp).inputPerM =
        rp.cacheWritePerM.or rp.inputPerM := by
  unfold withCacheFallback
  cases hin : rp.inputPerM with
  | none => simp [hin]
  | some v =>
    have hfill (tokens : Int) (cache : Option Int) :
        (if tokens > 0 ∧ cache = none then some v else cache).or (some v) = cache.or (some v) := by
      split
      next h =>
        simp [h.2]
      · rfl
    exact ⟨hfill _ _, hfill _ _⟩

theorem withCacheFallback_input :
    (withCacheFallback u rp).inputPerM = rp.inputPerM ∧
      (withCacheFallback u rp).outputPerM = rp.outputPerM ∧
      (withCacheFallback u rp).pricePerImage = rp.pricePerImage := by
  unfold withCacheFallback
  split <;> exact ⟨rfl, rfl, rfl⟩

/-- The charge for calls, if there are any. -/
theorem callParts_of :
    (if u.callCount > 0 ∧ rp.pricePerImage.isSome then
      addCostParts {} (imageCostPartsFromResolved rp 0 0 u.callCount) else {}).Of
      (max u.callCount 0 * max (perCount rp.pricePerImage) 0) := by
  split
  · have himages := CostParts.Of.images rp 0 0 u.callCount
    simpa using CostParts.Of.free.add himages
  next hnone =>
    have hzero : max u.callCount 0 * max (perCount rp.pricePerImage) 0 = 0 := by
      by_cases hcalls : u.callCount > 0
      · have : rp.pricePerImage = none := by simpa [hcalls] using hnone
        simp [this, perCount]
      · rw [max_eq_right (by omega), zero_mul]
    rw [hzero]
    exact CostParts.Of.free

theorem repricedParts_of (result : RepricedUsage) :
    (repricedParts u rp result).2.Of (positiveAmount u rp) := by
  obtain ⟨hread, hwrite⟩ := withCacheFallback_or u rp
  obtain ⟨hin, hout, himage⟩ := withCacheFallback_input u rp
  have htokens := (callParts_of u (withCacheFallback u rp)).add (CostParts.Of.tokens
    (withCacheFallback u rp) u.inputTokens u.outputTokens u.cacheReadTokens u.cacheCreationTokens)
  rw [hread, hwrite, hin, hout] at htokens
  unfold repricedParts positiveAmount pricedComponents
  cases u.format
  case openaiImages =>
    simpa [add_assoc] using CostParts.Of.images rp u.inputTokens u.outputTokens u.callCount
  case openaiSearch => simpa using CostParts.Of.calls rp u.callCount
  all_goals simpa [add_assoc, himage] using htokens

theorem applyMultiplier_nonneg (cost multiplier : Int) : 0 ≤ applyMultiplier cost multiplier := by
  have hparts : 0 ≤ (multiplierFloorParts cost multiplier 100000).1 := by
    unfold multiplierFloorParts
    split
    · exact le_rfl
    next h =>
      simp only [not_or, not_le] at h
      dsimp only
      have hm : 0 < if multiplier > 100000 then 100000 else multiplier := by
        split <;> omega
      generalize (if multiplier > 100000 then 100000 else multiplier) = m at hm
      split
      · exact h.1.le
      · rw [scaledParts_eq hm]
        exact floorParts_nonneg (Int.mul_nonneg h.1.le hm.le)
  unfold applyMultiplier roundScaled
  split <;> omega

theorem cost_withUpstream (u : UnpricedUsage) (result : RepricedUsage) :
    (withUpstream u result).cost = result.cost := by
  unfold withUpstream
  split <;> rfl

/-- With a positive multiplier a row is charged exactly if its amount rounds to a unit. -/
theorem repricedFields_charged_iff (u : UnpricedUsage) (rp : ResolvedPrices) {multiplier : Int}
    (hm : 0 < recoveryMultiplier u.billingTier multiplier) :
    1 ≤ (repricedFields u rp multiplier).cost ↔ halfUnit ≤ positiveAmount u.toUsage rp := by
  have hparts := (repricedParts_of u.toUsage rp
    { id := u.id, billingTier := recoveryTier u.billingTier, rawCost := 0, cost := 0 })
  rw [← hparts.rounded_pos_iff, repricedFields, cost_withUpstream]
  dsimp only
  generalize (repricedParts u.toUsage rp _).2.rounded = raw
  have hnonneg := applyMultiplier_nonneg raw (recoveryMultiplier u.billingTier multiplier)
  split
  · omega
  · by_cases hraw : 0 < raw
    · omega
    · have hzero : applyMultiplier raw (recoveryMultiplier u.billingTier multiplier) = 0 := by
        simp [applyMultiplier, multiplierFloorParts, not_lt.mp hraw, roundScaled]
      omega

/-- A recovered row with a positive amount is charged, unless the amount is less than half a unit:
it is rounded before the guard looks at it. -/
theorem recovered_charged_iff (u : UnpricedUsage) (resolver : PriceResolver) (multiplier : Int)
    {rp : ResolvedPrices} (hmodel : recoveryModel u ≠ [])
    (hrp : repricePrices u (String.ofList (recoveryModel u)) resolver = some rp)
    (husable : Billing.resolvedPricesUsable u.toUsage rp)
    (hm : 0 < recoveryMultiplier u.billingTier multiplier) :
    ∃ r, repriceUsage u (some resolver) multiplier = some r ∧
      ((0 < exactAmount u.toUsage rp → 1 ≤ r.cost) ↔
        (0 < exactAmount u.toUsage rp → halfUnit ≤ positiveAmount u.toUsage rp)) := by
  refine ⟨repricedFields u rp multiplier, ?_, ?_⟩
  · simp [repriceUsage_eq, hmodel, hrp, husable]
  · rw [repricedFields_charged_iff u rp hm]

/-- A short Chat request for a cheap model. -/
def smallRow (tokens : Int) : UnpricedUsage where
  format := .openaiChat
  inputTokens := tokens
  id := 7
  model := "gpt-4o-mini"
  billingTier := "no_price:default:m10000"

def cheapPrices : ResolvedPrices where
  inputPerM := some 15000
  outputPerM := some 60000

theorem recovered_charged_hundred :
    ∃ r, repriceUsage (smallRow 100) (some fun _ _ _ _ => some cheapPrices) 10000 = some r ∧
      1 ≤ r.cost := by
  obtain ⟨r, hr, hiff⟩ := recovered_charged_iff (smallRow 100) (fun _ _ _ _ => some cheapPrices)
    10000 (by decide) rfl (by decide) (by decide)
  exact ⟨r, hr, hiff.mpr (fun _ => by decide) (by decide)⟩

/-- Ten tokens cost 0.15 units, which recovery settles as free for good. -/
theorem recovered_for_free :
    0 < exactAmount (smallRow 10).toUsage cheapPrices ∧
      (repriceUsage (smallRow 10) (some fun _ _ _ _ => some cheapPrices) 10000).map
        RepricedUsage.cost = some 0 := by
  decide

end C4Gateway
