import C4Gateway.Domain

/-! Price rows and their conditional variants, and the resolution of a row to the prices of one
request.  Model names are lists of characters. -/

namespace C4Gateway.Pricing

inductive PricingSource where
  | litellm
  | manual
  deriving DecidableEq, Repr

/-- A row of `price_entries`. -/
structure PriceEntry where
  model : List Char
  mode : PriceMode := .token
  inputPerM : Option Int := none
  outputPerM : Option Int := none
  cacheReadPerM : Option Int := none
  cacheWritePerM : Option Int := none
  pricePerCall : Option Int := none
  imgInTokPerM : Option Int := none
  imgOutTokPerM : Option Int := none
  pricePerImage : Option Int := none
  provider : Option String := none
  maxInputTokens : Option Int := none
  maxOutputTokens : Option Int := none
  supportsPromptCaching : Option Bool := none
  raw : String := ""
  source : PricingSource := .litellm
  createdAt : Int := 0
  updatedAt : Int := 0
  deriving DecidableEq, Repr

/-- A row of `price_variants`: an absent condition holds always. -/
structure PriceVariant where
  model : List Char
  seq : Int
  serviceTier : Option String := none
  ctxMin : Option Int := none
  ctxMax : Option Int := none
  timeStart : Option String := none
  timeEnd : Option String := none
  dowMask : Option Int := none
  multBP : Option Int := none
  setInputPerM : Option Int := none
  setOutputPerM : Option Int := none
  setCacheReadPerM : Option Int := none
  setCacheCreationPerM : Option Int := none
  setPricePerCall : Option Int := none
  setImgInTokPerM : Option Int := none
  setImgOutTokPerM : Option Int := none
  setPricePerImage : Option Int := none
  deriving DecidableEq, Repr

/-- The price times the multiplier in basis points, if it is a whole number that fits. -/
def priceMultiplierExact (price multiplier : Int) : Option Int :=
  if price < 0 ∨ multiplier < 0 ∨ multiplier > 100000 then none
  else if multiplier = 0 ∨ price = 0 then some 0
  else
    let base := 10000
    let q := price / base
    let rem := price % base
    if q > maxInt64 / multiplier then none
    else
      let out := q * multiplier
      let remProduct := rem * multiplier
      if remProduct % base ≠ 0 then none
      else
        let remValue := remProduct / base
        if out > maxInt64 - remValue then none else some (out + remValue)

/-- The price components of a row, each with the override of a variant. -/
def overrides (e : PriceEntry) (v : PriceVariant) : List (String × Option Int × Option Int) :=
  [("input_per_m", e.inputPerM, v.setInputPerM), ("output_per_m", e.outputPerM, v.setOutputPerM),
    ("cache_read_per_m", e.cacheReadPerM, v.setCacheReadPerM),
    ("cache_write_per_m", e.cacheWritePerM, v.setCacheCreationPerM),
    ("price_per_call", e.pricePerCall, v.setPricePerCall),
    ("img_in_tok_per_m", e.imgInTokPerM, v.setImgInTokPerM),
    ("img_out_tok_per_m", e.imgOutTokPerM, v.setImgOutTokPerM),
    ("price_per_image", e.pricePerImage, v.setPricePerImage)]

/-- A component that is not overridden and that the multiplier takes off the price grid. -/
def unrepresentable (mult : Int) (field : String × Option Int × Option Int) : Bool :=
  match field.2.1, field.2.2 with
  | some base, none => (priceMultiplierExact base mult).isNone
  | _, _ => false

/-- The error names the first component that the multiplier takes off the grid. -/
def validateVariantPricePrecision (e : PriceEntry) (v : PriceVariant) : Option String :=
  match v.multBP with
  | none => none
  | some mult => ((overrides e v).find? (unrepresentable mult)).map fun field =>
      s!"variant multiplier makes {field.1} unrepresentable at 0.00001 USD precision"

/-- The local time of a request, to the minute; Sunday is day 0. -/
structure LocalTime where
  hour : Int
  minute : Int
  weekday : Nat
  deriving DecidableEq, Repr

section
variable (clock : String → Int × Int)

/-- `clock` is the pair that `Sscanf` reads with the format `%d:%d`. -/
def timeMatches (start stop : Option String) (at_ : LocalTime) : Bool :=
  let parse := fun s => (clock s).1 * 60 + (clock s).2
  let cur := at_.hour * 60 + at_.minute
  match start, stop with
  | none, none => true
  | some s, some e =>
    if parse s = parse e then true
    else if parse s < parse e then cur ≥ parse s && cur < parse e
    else cur ≥ parse s || cur < parse e
  | some s, none => cur ≥ parse s
  | none, some e => cur < parse e

def variantMatches (v : PriceVariant) (tier : String) (promptTokens : Int) (at_ : LocalTime) :
    Bool :=
  v.serviceTier.all (· == tier) && v.ctxMin.all (promptTokens ≥ ·) &&
    v.ctxMax.all (promptTokens < ·) && timeMatches clock v.timeStart v.timeEnd at_ &&
    v.dowMask.all fun mask => mask / 2 ^ at_.weekday % 2 ≠ 0

def basePrices (e : PriceEntry) : ResolvedPrices where
  mode := e.mode
  inputPerM := e.inputPerM
  outputPerM := e.outputPerM
  cacheReadPerM := e.cacheReadPerM
  cacheWritePerM := e.cacheWritePerM
  pricePerCall := e.pricePerCall
  imgInTokPerM := e.imgInTokPerM
  imgOutTokPerM := e.imgOutTokPerM
  pricePerImage := e.pricePerImage
  provider := e.provider

/-- A component under a variant: overridden, or multiplied, or as it is. -/
def applyComponent (multBP : Option Int) (set price : Option Int) : Option (Option Int) :=
  match set, multBP, price with
  | some value, _, _ => some (some value)
  | none, some mult, some p => (priceMultiplierExact p mult).map some
  | none, _, p => some p

def applyVariant (v : PriceVariant) (rp : ResolvedPrices) : Option ResolvedPrices :=
  if v.multBP.any fun mult => mult < 0 ∨ mult > 100000 then none
  else do
    let inputPerM ← applyComponent v.multBP v.setInputPerM rp.inputPerM
    let outputPerM ← applyComponent v.multBP v.setOutputPerM rp.outputPerM
    let cacheReadPerM ← applyComponent v.multBP v.setCacheReadPerM rp.cacheReadPerM
    let cacheWritePerM ← applyComponent v.multBP v.setCacheCreationPerM rp.cacheWritePerM
    let pricePerCall ← applyComponent v.multBP v.setPricePerCall rp.pricePerCall
    let imgInTokPerM ← applyComponent v.multBP v.setImgInTokPerM rp.imgInTokPerM
    let imgOutTokPerM ← applyComponent v.multBP v.setImgOutTokPerM rp.imgOutTokPerM
    let pricePerImage ← applyComponent v.multBP v.setPricePerImage rp.pricePerImage
    some { rp with
      inputPerM, outputPerM, cacheReadPerM, cacheWritePerM, pricePerCall, imgInTokPerM
      imgOutTokPerM, pricePerImage
      variantSeq := some v.seq }

/-- The first variant that matches is applied to the prices of the row. -/
def resolveEntryPrices (entry : Option PriceEntry) (variants : List PriceVariant) (tier : String)
    (promptTokens : Int) (at_ : LocalTime) : Option ResolvedPrices :=
  match entry with
  | none => none
  | some e =>
    match variants.find? fun v => variantMatches clock v tier promptTokens at_ with
    | none => some (basePrices e)
    | some v => applyVariant v (basePrices e)

end
end C4Gateway.Pricing
