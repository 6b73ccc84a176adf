import C4Gateway.Pricing.Cost

/-! When a set of prices may settle a request.  The live path and the delayed re-pricing of rows
without a price decide it with predicates of their own, one in package `proxy` and one in package
`billing`; this module compares them. -/

namespace C4Gateway

def nonNegativePrice : Option Int → Bool
  | some v => v ≥ 0
  | none => false

def negativePrice : Option Int → Bool
  | some v => v < 0
  | none => false

/-- A missing cache price is filled in with the input price where the component was observed. -/
def withCacheFallback (u : Usage) (rp : ResolvedPrices) : ResolvedPrices :=
  match rp.inputPerM with
  | none => rp
  | some v =>
    { rp with
      cacheReadPerM :=
        if u.cacheReadTokens > 0 ∧ rp.cacheReadPerM = none then some v else rp.cacheReadPerM
      cacheWritePerM :=
        if u.cacheCreationTokens > 0 ∧ rp.cacheWritePerM = none then some v
        else rp.cacheWritePerM }

def tokenPricesComplete (rp : ResolvedPrices) : Bool :=
  nonNegativePrice rp.inputPerM && nonNegativePrice rp.outputPerM

namespace Usage

def hasTokens (u : Usage) : Bool :=
  u.inputTokens > 0 || u.outputTokens > 0 || u.totalTokens > 0

/-- The call of a Responses request, which is charged for itself. -/
def hasCall (u : Usage) : Bool := u.callCount > 0 && u.format.isResponses

end Usage

/-- The checks of an image request that the two paths share.  Once a token rate is configured every
observed token component needs one; without any, a price per image covers the tokens. -/
def imageComponentsPriced (u : Usage) (rp : ResolvedPrices) : Bool :=
  let hasTokenPrices := rp.imgInTokPerM.isSome || rp.imgOutTokPerM.isSome
  (if hasTokenPrices then
    !(u.inputTokens > 0 && !nonNegativePrice rp.imgInTokPerM) &&
      !(u.outputTokens > 0 && !nonNegativePrice rp.imgOutTokPerM)
  else !((u.inputTokens > 0 || u.outputTokens > 0) && !nonNegativePrice rp.pricePerImage)) &&
  !(u.callCount > 0 && !nonNegativePrice rp.pricePerImage && u.inputTokens = 0 &&
    u.outputTokens = 0)

namespace Billing

/-- The check of the billing package. -/
def resolvedPricesUsable (u : Usage) (rp : ResolvedPrices) : Bool :=
  match u.format with
  | .openaiImages => imageComponentsPriced u rp
  | .openaiSearch => u.callCount ≤ 0 || nonNegativePrice rp.pricePerCall
  | _ =>
    if u.hasCall && !nonNegativePrice rp.pricePerImage then false
    else if u.hasTokens then nonNegativePrice rp.inputPerM && nonNegativePrice rp.outputPerM
    else if u.hasCall then nonNegativePrice rp.pricePerImage
    else true

end Billing

namespace Proxy

/-- The check before a request, which knows no usage. -/
def resolvedPricesUsable (format : RequestFormat) (rp : ResolvedPrices) : Bool :=
  if format = .openaiImages then
    nonNegativePrice rp.imgInTokPerM || nonNegativePrice rp.imgOutTokPerM ||
      nonNegativePrice rp.pricePerImage
  else tokenPricesComplete rp || format.isResponses && rp.pricePerImage.isSome

def resolvedPricesUsableForSettlement (format : RequestFormat) (rp : ResolvedPrices)
    (calls : Int) : Bool :=
  if format = .openaiImages then resolvedPricesUsable format rp
  else if calls > 0 && format.isResponses then nonNegativePrice rp.pricePerImage
  else tokenPricesComplete rp || format.isResponses && calls > 0 && rp.pricePerImage.isSome

def imagePricesUsableForUsage (u : Usage) (rp : ResolvedPrices) : Bool :=
  if !imageComponentsPriced u rp then false
  else if u.inputTokens = 0 && u.outputTokens = 0 && u.callCount = 0 then
    resolvedPricesUsable .openaiImages rp
  else true

/-- The check of the proxy, which also reads the prices of cached tokens. -/
def settlementPricesUsable (u : Usage) (rp : ResolvedPrices) : Bool :=
  match u.format with
  | .openaiImages => imagePricesUsableForUsage u rp
  | .openaiSearch => u.callCount ≤ 0 || nonNegativePrice rp.pricePerCall
  | format =>
    if u.hasCall && !nonNegativePrice rp.pricePerImage then false
    else if u.hasTokens && !tokenPricesComplete rp then false
    else if u.cacheReadTokens > 0 && negativePrice rp.cacheReadPerM ||
        u.cacheCreationTokens > 0 && negativePrice rp.cacheWritePerM then false
    else if u.callCount > 0 && u.hasTokens && !tokenPricesComplete rp then false
    else if u.hasCall && rp.pricePerImage.isNone && u.inputTokens = 0 && u.outputTokens = 0 &&
        u.cacheReadTokens = 0 && u.cacheCreationTokens = 0 then false
    else resolvedPricesUsableForSettlement format rp u.callCount

end Proxy

def negativeCachePrice (u : Usage) (rp : ResolvedPrices) : Bool :=
  u.cacheReadTokens > 0 && negativePrice rp.cacheReadPerM ||
    u.cacheCreationTokens > 0 && negativePrice rp.cacheWritePerM

/-- Where the two paths part.  For images: nothing was observed and no image price is usable.  For
token formats: every observed call and token is priced, but an observed cache component has a
negative price, or there is no call and a token price is missing. -/
def pathsPart (u : Usage) (rp : ResolvedPrices) : Bool :=
  match u.format with
  | .openaiImages =>
    u.inputTokens = 0 && u.outputTokens = 0 && u.callCount = 0 &&
      !nonNegativePrice rp.imgInTokPerM && !nonNegativePrice rp.imgOutTokPerM &&
      !nonNegativePrice rp.pricePerImage
  | .openaiSearch => false
  | _ =>
    (!u.hasCall || nonNegativePrice rp.pricePerImage) && (!u.hasTokens || tokenPricesComplete rp) &&
      (negativeCachePrice u rp || !u.hasCall && !tokenPricesComplete rp)

theorem resolvedPricesUsable_withCacheFallback (u : Usage) (rp : ResolvedPrices) :
    Billing.resolvedPricesUsable u (withCacheFallback u rp) =
      Billing.resolvedPricesUsable u rp := by
  unfold withCacheFallback
  split <;> rfl

def Usage.byTokens (u : Usage) : Bool := u.format ≠ .openaiImages && u.format ≠ .openaiSearch

variable {u : Usage} (rp : ResolvedPrices)

theorem Billing.resolvedPricesUsable_tokens (h : u.byTokens) :
    Billing.resolvedPricesUsable u rp =
      ((!u.hasCall || nonNegativePrice rp.pricePerImage) &&
        (!u.hasTokens || tokenPricesComplete rp)) := by
  unfold Billing.resolvedPricesUsable tokenPricesComplete
  split
  · simp_all [Usage.byTokens]
  · simp_all [Usage.byTokens]
  · cases u.hasCall <;> cases u.hasTokens <;> cases nonNegativePrice rp.pricePerImage <;> simp

theorem Proxy.resolvedPricesUsableForSettlement_tokens (h : u.byTokens) :
    Proxy.resolvedPricesUsableForSettlement u.format rp u.callCount =
      if u.hasCall then nonNegativePrice rp.pricePerImage else tokenPricesComplete rp := by
  have himages : u.format ≠ .openaiImages := by
    simp only [Usage.byTokens, Bool.and_eq_true, decide_eq_true_eq] at h
    exact h.1
  unfold Proxy.resolvedPricesUsableForSettlement Usage.hasCall
  rw [if_neg himages]
  split
  · rfl
  next hcall =>
    rw [Bool.and_comm u.format.isResponses] at *
    simp [hcall]

/-- The live path asks for the same, for cache prices that are not negative, and for token prices
even where no token was observed, unless there is a call. -/
theorem Proxy.settlementPricesUsable_tokens (h : u.byTokens) :
    Proxy.settlementPricesUsable u rp =
      ((!u.hasCall || nonNegativePrice rp.pricePerImage) &&
        (!u.hasTokens || tokenPricesComplete rp) &&
        (!negativeCachePrice u rp && (u.hasCall || tokenPricesComplete rp))) := by
  have hsettle := Proxy.resolvedPricesUsableForSettlement_tokens rp h
  -- With a usable price per image, the check for a call without one does nothing.
  have hnone : nonNegativePrice rp.pricePerImage → rp.pricePerImage ≠ none := by
    intro hp heq
    simp [heq, nonNegativePrice] at hp
  unfold Proxy.settlementPricesUsable
  split
  · simp_all [Usage.byTokens]
  · simp_all [Usage.byTokens]
  · rw [hsettle]
    change (if _ then _ else if _ then _ else if negativeCachePrice u rp = true then _ else _) = _
    cases u.hasCall <;> cases u.hasTokens <;> cases tokenPricesComplete rp <;>
      cases negativeCachePrice u rp <;> cases hp : nonNegativePrice rp.pricePerImage <;>
      simp_all

theorem imageComponentsPriced_of_unused
    (h : (u.inputTokens = 0 && u.outputTokens = 0 && u.callCount = 0) = true) :
    imageComponentsPriced u rp = true := by
  simp only [Bool.and_eq_true, decide_eq_true_eq] at h
  simp [imageComponentsPriced, h]

theorem recovery_refines_live_images (hformat : u.format = .openaiImages) :
    (Billing.resolvedPricesUsable u rp → Proxy.settlementPricesUsable u rp) ↔
      pathsPart u rp = false := by
  simp only [Billing.resolvedPricesUsable, Proxy.settlementPricesUsable, hformat, pathsPart,
    Proxy.imagePricesUsableForUsage, Proxy.resolvedPricesUsable]
  cases hunused : (u.inputTokens = 0 && u.outputTokens = 0 && u.callCount = 0 : Bool) with
  | false => cases imageComponentsPriced u rp <;> simp
  | true =>
    rw [imageComponentsPriced_of_unused rp hunused]
    cases nonNegativePrice rp.imgInTokPerM <;> cases nonNegativePrice rp.imgOutTokPerM <;>
      cases nonNegativePrice rp.pricePerImage <;> simp

theorem recovery_refines_live_tokens (h : u.byTokens) :
    (Billing.resolvedPricesUsable u rp → Proxy.settlementPricesUsable u rp) ↔
      pathsPart u rp = false := by
  have hpart : pathsPart u rp = ((!u.hasCall || nonNegativePrice rp.pricePerImage) &&
      (!u.hasTokens || tokenPricesComplete rp) &&
      (negativeCachePrice u rp || !u.hasCall && !tokenPricesComplete rp)) := by
    unfold pathsPart
    split
    · simp_all [Usage.byTokens]
    · simp_all [Usage.byTokens]
    · rfl
  rw [Billing.resolvedPricesUsable_tokens rp h, Proxy.settlementPricesUsable_tokens rp h, hpart]
  cases u.hasCall <;> cases u.hasTokens <;> cases tokenPricesComplete rp <;>
    cases negativeCachePrice u rp <;> cases nonNegativePrice rp.pricePerImage <;> decide

/-- Whatever the usage and the prices, re-pricing settles only what the live path would settle,
except exactly where the two paths part. -/
theorem recovery_refines_live_iff (u : Usage) (rp : ResolvedPrices) :
    (Billing.resolvedPricesUsable u (withCacheFallback u rp) → Proxy.settlementPricesUsable u rp) ↔
      pathsPart u rp = false := by
  rw [resolvedPricesUsable_withCacheFallback]
  cases hformat : u.format with
  | openaiImages => exact recovery_refines_live_images rp hformat
  | openaiSearch =>
    simp [Billing.resolvedPricesUsable, Proxy.settlementPricesUsable, hformat, pathsPart]
  | openaiChat | openaiResponses | openaiResponsesWS | anthropic =>
    exact recovery_refines_live_tokens rp (by simp [Usage.byTokens, hformat])

/-- A million tokens read from the cache, for a model with an output price alone: re-pricing settles
the row at a cost of 0, and the live path does not price it. -/
theorem recovery_settles_cache_free :
    let u : Usage := { format := .anthropic, cacheReadTokens := 1000000 }
    let rp : ResolvedPrices := { outputPerM := some 1500000 }
    Billing.resolvedPricesUsable u (withCacheFallback u rp) = true ∧
      (costPartsFromResolved (withCacheFallback u rp) u.inputTokens u.outputTokens
        u.cacheReadTokens u.cacheCreationTokens).rounded = 0 ∧
      Proxy.settlementPricesUsable u rp = false := by
  decide

end C4Gateway
