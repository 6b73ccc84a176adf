import C4Gateway.Lib.Text
import C4Gateway.Pricing.Usable

/-! The delayed pricing of a row that had no price when its request ended. -/

namespace C4Gateway

/-- A logged request whose cost is still to be computed. -/
structure UnpricedUsage extends Usage where
  id : Int
  userID : Int := 0
  groupID : Int := 0
  model : String := ""
  mappedModel : String := ""
  billingTier : String := ""
  createdAt : Int := 0
  upstreamMultiplierBP : Option Int := none

/-- The cost that a logged request is given, with the prices it comes from. -/
structure RepricedUsage where
  id : Int
  billingTier : String
  priceInputMillis : Option Int := none
  priceOutputMillis : Option Int := none
  priceCacheReadMillis : Option Int := none
  priceCacheCreationMillis : Option Int := none
  pricePerCallMillis : Option Int := none
  rawCost : Int
  cost : Int
  upstreamCost : Option Int := none
  grossProfit : Option Int := none
  profitMarginBP : Option Int := none
  deriving DecidableEq, Repr

/-- `ResolvePrices`: the prices of a model for a prompt of a size, a tier and a time. -/
abbrev PriceResolver := String → Int → String → Int → Option ResolvedPrices

/-- The service tier kept in the marker, `auto` if there is none. -/
def recoveryTier (raw : String) : String :=
  let marker := "no_price:".toList
  if marker.isPrefixOf raw.toList then
    let value := Text.cutBefore ":m".toList (Text.trimSpace (raw.toList.drop marker.length))
    let value := if "m".toList.isPrefixOf value then [] else value
    if value.isEmpty then "auto" else String.ofList value
  else "auto"

/-- The multiplier kept in the marker, and the current one if there is none or an invalid one. -/
def recoveryMultiplier (raw : String) (fallback : Int) : Int :=
  match Text.afterLast ":m".toList (Text.trimSpace raw.toList) with
  | none => fallback
  | some value =>
    match Text.decimalInt (Text.trimSpace value) with
    | none => fallback
    | some parsed => if parsed < 0 ∨ parsed > 100000 then fallback else parsed

/-- The size of the prompt with its cached part, which the formats of one provider count apart. -/
def pricingPromptTokens (u : Usage) : Int :=
  match u.format with
  | .openaiChat | .openaiResponses | .openaiResponsesWS =>
    if u.cacheReadTokens > 0 ∧ u.inputTokens ≤ maxInt64 - u.cacheReadTokens then
      u.inputTokens + u.cacheReadTokens
    else u.inputTokens
  | _ => u.inputTokens

/-- `value * 10000 / divisor`, rounded half up in magnitude and kept within `int64`.  The quotient
is a `uint64`, as is what rounding makes of it. -/
def signedMulDivBP (value divisor : Int) : Int :=
  if value = 0 ∨ divisor ≤ 0 then 0
  else
    let product := value.natAbs * 10000
    let d := divisor.toNat
    let quotient : Nat := (product / d + if product % d ≥ (d + 1) / 2 then 1 else 0) % 2 ^ 64
    let magnitude :=
      if product / 2 ^ 64 ≥ d ∨ (quotient : Int) > maxInt64 then maxInt64 else (quotient : Int)
    if value < 0 then -magnitude else magnitude

/-- The prices that apply to a request, and its cost before multipliers. -/
def repricedParts (u : Usage) (rp : ResolvedPrices) (result : RepricedUsage) :
    RepricedUsage × CostParts :=
  match u.format with
  | .openaiImages =>
    ({ result with
        priceInputMillis := rp.imgInTokPerM
        priceOutputMillis := rp.imgOutTokPerM
        pricePerCallMillis := if u.callCount > 0 then rp.pricePerImage else none },
      imageCostPartsFromResolved rp u.inputTokens u.outputTokens u.callCount)
  | .openaiSearch =>
    ({ result with pricePerCallMillis := rp.pricePerCall },
      { units := callCostFromResolved rp u.callCount })
  | _ =>
    let rp := withCacheFallback u rp
    let callParts := if u.callCount > 0 ∧ rp.pricePerImage.isSome then
      addCostParts {} (imageCostPartsFromResolved rp 0 0 u.callCount) else {}
    ({ result with
        priceInputMillis := rp.inputPerM
        priceOutputMillis := rp.outputPerM
        priceCacheReadMillis := if u.cacheReadTokens > 0 then rp.cacheReadPerM else none
        priceCacheCreationMillis := if u.cacheCreationTokens > 0 then rp.cacheWritePerM else none
        pricePerCallMillis := if u.callCount > 0 then rp.pricePerImage else none },
      addCostParts callParts
        (costPartsFromResolved rp u.inputTokens u.outputTokens u.cacheReadTokens
          u.cacheCreationTokens))

/-- The upstream's share of the cost, and the margin on it. -/
def withUpstream (u : UnpricedUsage) (result : RepricedUsage) : RepricedUsage :=
  match u.upstreamMultiplierBP with
  | none => result
  | some bp =>
    let upstream := applyUpstreamMultiplier result.rawCost bp
    let profit := result.cost - upstream
    { result with
      upstreamCost := some upstream
      grossProfit := some profit
      profitMarginBP :=
        if result.cost > 0 then some (signedMulDivBP profit result.cost)
        else result.profitMarginBP }

/-- The resolver's prices for a row; a search without a usable price per call has a default one. -/
def repricePrices (u : UnpricedUsage) (model : String) (resolver : PriceResolver) :
    Option ResolvedPrices :=
  let found := resolver model (pricingPromptTokens u.toUsage) (recoveryTier u.billingTier)
    u.createdAt
  if u.format = .openaiSearch ∧ !(found.any fun rp => nonNegativePrice rp.pricePerCall) then
    some { found.getD {} with pricePerCall := some defaultCodexSearchPricePerCall }
  else found

def recoveryModel (u : UnpricedUsage) : List Char :=
  let mapped := Text.trimSpace u.mappedModel.toList
  if mapped.isEmpty then Text.trimSpace u.model.toList else mapped

def repricedFields (u : UnpricedUsage) (rp : ResolvedPrices) (multiplier : Int) : RepricedUsage :=
  let (result, parts) := repricedParts u.toUsage rp
    { id := u.id, billingTier := recoveryTier u.billingTier, rawCost := 0, cost := 0 }
  let m := recoveryMultiplier u.billingTier multiplier
  let cost := applyMultiplier parts.rounded m
  -- A positive amount never rounds to a row that is free for good.
  let cost := if parts.rounded > 0 ∧ cost = 0 ∧ m > 0 then 1 else cost
  withUpstream u { result with rawCost := parts.rounded, cost }

/-- The new billing fields of a row, `none` if there is still no usable price. -/
def repriceUsage (u : UnpricedUsage) (resolver : Option PriceResolver) (multiplier : Int) :
    Option RepricedUsage :=
  match resolver with
  | none => none
  | some resolver =>
    if (recoveryModel u).isEmpty then none
    else
      match repricePrices u (String.ofList (recoveryModel u)) resolver with
      | none => none
      | some rp =>
        if Billing.resolvedPricesUsable u.toUsage rp then some (repricedFields u rp multiplier)
        else none

theorem repricedFields_id (u : UnpricedUsage) (rp : ResolvedPrices) (multiplier : Int) :
    (repricedFields u rp multiplier).id = u.id := by
  have hparts : ∀ r : RepricedUsage, (repricedParts u.toUsage rp r).1.id = r.id := by
    intro r
    unfold repricedParts
    split <;> rfl
  have hupstream : ∀ r : RepricedUsage, (withUpstream u r).id = r.id := by
    intro r
    unfold withUpstream
    split <;> rfl
  exact (hupstream _).trans (hparts _)

theorem repriceUsage_eq (u : UnpricedUsage) (resolver : PriceResolver) (multiplier : Int) :
    repriceUsage u (some resolver) multiplier =
      if (recoveryModel u).isEmpty then none
      else ((repricePrices u (String.ofList (recoveryModel u)) resolver).filter
        (Billing.resolvedPricesUsable u.toUsage)).map (repricedFields u · multiplier) := by
  simp only [repriceUsage]
  split
  · rfl
  · cases repricePrices u (String.ofList (recoveryModel u)) resolver with
    | none => rfl
    | some rp => by_cases h : Billing.resolvedPricesUsable u.toUsage rp <;> simp [h]

theorem repriceUsage_id {u : UnpricedUsage} {resolver : Option PriceResolver} {multiplier : Int}
    {r : RepricedUsage} (h : repriceUsage u resolver multiplier = some r) : r.id = u.id := by
  cases resolver with
  | none => cases h
  | some resolver =>
    rw [repriceUsage_eq] at h
    split_ifs at h
    obtain ⟨rp, -, rfl⟩ := Option.map_eq_some_iff.mp h
    exact repricedFields_id u rp multiplier

end C4Gateway
