import C4Gateway.Pricing.View
import Mathlib.Data.Rat.Floor

/-! The price table of a feed, parsed to price rows with generated variants.  A number of the feed
is its exact value; the rounded product of two such numbers is a parameter, and absent if it is not
finite.  What `encoding/json` does is a parameter too. -/

namespace C4Gateway.Pricing

/-- The four token prices that a row, a service tier or a context tier can have. -/
structure TokenCosts where
  input : Option ℚ := none
  output : Option ℚ := none
  cacheRead : Option ℚ := none
  cacheCreation : Option ℚ := none
  deriving DecidableEq

namespace TokenCosts

def all (p : Option ℚ → Bool) (c : TokenCosts) : Bool :=
  p c.input && p c.output && p c.cacheRead && p c.cacheCreation

def any (p : Option ℚ → Bool) (c : TokenCosts) : Bool :=
  p c.input || p c.output || p c.cacheRead || p c.cacheCreation

def map (f : Option ℚ → Option ℚ) (c : TokenCosts) : TokenCosts :=
  ⟨f c.input, f c.output, f c.cacheRead, f c.cacheCreation⟩

end TokenCosts

/-- The members of an entry that the parser reads, decoded. -/
structure LitellmEntry (Raw : Type) where
  costs : TokenCosts := {}
  priority : TokenCosts := {}
  flex : TokenCosts := {}
  fast : Option ℚ := none
  maxInputTokens : Option ℚ := none
  maxOutputTokens : Option ℚ := none
  provider : Option String := none
  mode : Option (List Char) := none
  supportsPromptCaching : Option Bool := none
  inputCostPerImageToken : Option ℚ := none
  outputCostPerImageToken : Option ℚ := none
  inputCostPerImage : Option ℚ := none
  outputCostPerImage : Option ℚ := none
  inputCostPerPixel : Option ℚ := none
  outputCostPerPixel : Option ℚ := none
  inputCostPerQuery : Option ℚ := none
  tieredPricing : Option Raw := none

/-- A tier with the range of tokens that it is for. -/
structure TieredPrice where
  costs : TokenCosts := {}
  inputCostPerQuery : Option ℚ := none
  range : List ℚ := []
  maxResultsRange : List ℚ := []

/-- What `json.Unmarshal` makes of a value; absent is an error.  The fields of an object come in the
order in which a map is walked. -/
structure Decoders (Raw : Type) where
  entry : Raw → Option (LitellmEntry Raw)
  items : Raw → Option (List Raw)
  tier : Raw → Option TieredPrice
  fields : Raw → Option (List (List Char × Raw))
  number : Raw → Option ℚ
  isNull : Raw → Bool
  text : Raw → String

section
variable (mul : ℚ → ℚ → Option ℚ)

/-- `math.Round`: halves go away from zero. -/
def round (q : ℚ) : Int := if 0 ≤ q then ⌊q + 1 / 2⌋ else ⌈q - 1 / 2⌉

def validCost (v : Option ℚ) : Bool := v.any (0 ≤ ·)

def validOptionalCost (v : Option ℚ) : Bool := v.all (0 ≤ ·)

def scaledPositiveInt64 (value scale : ℚ) : Option Int :=
  if value < 0 ∨ scale ≤ 0 then none
  else if value = 0 then some 0
  else do
    let rounded := round (← mul value scale)
    if rounded ≤ 0 ∨ rounded ≥ 2 ^ 63 then none else some rounded

def toMilliCentsPerMillion (perTokenUSD : ℚ) : Option Int :=
  scaledPositiveInt64 mul perTokenUSD (10 ^ 11)

def toMilliCentsPerImage (perImageUSD : ℚ) : Option Int :=
  scaledPositiveInt64 mul perImageUSD (10 ^ 5)

def toMilliCentsPerCall (perQueryUSD : ℚ) : Option Int :=
  scaledPositiveInt64 mul perQueryUSD (10 ^ 5)

/-- Also `cacheCost`, which has the same body. -/
def pricePerMillion (v : Option ℚ) : Option Int :=
  if validCost v then v.bind (toMilliCentsPerMillion mul) else none

def windowTokens (v : Option ℚ) : Option Int :=
  v.bind fun q =>
    if q ≤ 0 ∨ q ≥ 2 ^ 63 then none
    else if round q ≤ 0 ∨ round q ≥ 2 ^ 63 then none else some (round q)

/-- A base price that cannot be represented rejects the row; absent is the rejection. -/
def normalizeBaseTokenCost (v : Option ℚ) : Option (Option ℚ) :=
  match v with
  | none => some none
  | some q =>
    if q < 0 then none
    else if q = 0 then some v
    else do
      let scaled ← mul q (10 ^ 11)
      if scaled ≥ 2 ^ 63 ∨ round scaled ≤ 0 then none else some v

def normalizeOptionalTokenCost (v : Option ℚ) : Option ℚ :=
  v.filter fun q => 0 ≤ q && (toMilliCentsPerMillion mul q).isSome

/-- The tolerance is the binary64 number next to `1e-6`. -/
def tokenBound (v : ℚ) : Option Int :=
  if v < 0 ∨ v ≥ 2 ^ 63 then none
  else if |v - round v| > 4722366482869645 / 4722366482869645213696 ∨ round v ≥ 2 ^ 63 then none
  else some (round v)

/-- The bounds of a context tier; an upper bound of 0 is none. -/
def tierBounds (tier : TieredPrice) : Option (Int × Int) :=
  match tier.range with
  | [] => some (0, 0)
  | [lower] => (tokenBound lower).map (·, 0)
  | [lower, upper] => do
    let lower ← tokenBound lower
    let upper ← tokenBound upper
    if upper ≤ lower then none else some (lower, upper)
  | _ => none

/-- The multiplier in basis points. -/
def providerFastMultiplierBP (value : ℚ) : Option Int :=
  if value ≤ 0 ∨ value > 10 then none
  else do
    let rounded := round (← mul value (10 ^ 4))
    if rounded ≤ 0 ∨ rounded > 100000 then none else some rounded

end

section
variable {Raw : Type} (mul : ℚ → ℚ → Option ℚ) (S : Strings) (D : Decoders Raw)

def parseTieredPricing (raw : Option Raw) : List TieredPrice :=
  match raw with
  | none => []
  | some raw =>
    ((D.items raw).getD []).filterMap fun item => if D.isNull item then none else D.tier item

def normalizedMode (mode : Option (List Char)) : List Char :=
  mode.elim [] fun m => S.toLower (S.trimSpace m)

def isFunctionPriceMode (mode : Option (List Char)) : Bool :=
  normalizedMode S mode ∈ ["search".toList, "rerank".toList, "vector_store".toList]

def isImagePriceMode (mode : Option (List Char)) : Bool :=
  normalizedMode S mode ∈ ["image_generation".toList, "image_edit".toList]

def tokenPriceModes : List (List Char) :=
  ["chat".toList, "responses".toList, "completion".toList, "text_completion".toList,
    "realtime".toList, "audio_speech".toList, "audio_transcription".toList, "embedding".toList,
    "moderation".toList, "rerank".toList, "ocr".toList]

def isTokenPriceMode (mode : Option (List Char)) (input output : Option ℚ) : Bool :=
  (validCost input || validCost output) &&
    (mode.isNone || normalizedMode S mode ∈ tokenPriceModes)

def validTokenTiers (tiers : List TieredPrice) : Bool :=
  tiers.all fun tier =>
    !tier.costs.any Option.isSome || (tier.costs.all validOptionalCost && (tierBounds tier).isSome)

/-- Only a tier from 0 on can be the base price, so the first such tier is the lowest. -/
def firstTokenTier (tiers : List TieredPrice) : Option TieredPrice :=
  tiers.find? fun tier =>
    (tierBounds tier).any (fun b => b.1 = 0) &&
      ((pricePerMillion mul tier.costs.input).isSome ||
        (pricePerMillion mul tier.costs.output).isSome)

/-- The base prices of a row: its own, and where it has none those of the first tier. -/
def baseCosts (costs : TokenCosts) (tiers : List TieredPrice) : TokenCosts :=
  match firstTokenTier mul tiers with
  | none => costs
  | some base =>
    { input := costs.input.or
        (if (pricePerMillion mul base.costs.input).isSome then base.costs.input else none)
      output := costs.output.or
        (if (pricePerMillion mul base.costs.output).isSome then base.costs.output else none)
      cacheRead := costs.cacheRead.or base.costs.cacheRead
      cacheCreation := costs.cacheCreation.or base.costs.cacheCreation }

/-- A variant that sets the token prices; it is left out if it sets none. -/
def tokenVariant (v : PriceVariant) (costs : TokenCosts) : List PriceVariant :=
  [{ v with
    setInputPerM := pricePerMillion mul costs.input
    setOutputPerM := pricePerMillion mul costs.output
    setCacheReadPerM := pricePerMillion mul costs.cacheRead
    setCacheCreationPerM := pricePerMillion mul costs.cacheCreation }].filter PriceVariant.hasEffect

def serviceVariant (model : List Char) (tier : String) (costs : TokenCosts) : List PriceVariant :=
  if costs.any Option.isSome && costs.any validCost then
    tokenVariant mul { model := model, seq := 0, serviceTier := some tier } costs
  else []

/-- Where a context tier stands in the order: whether its lower bound is valid, and the bound. -/
def tierOrder (tier : TieredPrice) : Bool × Int :=
  match tier.range with
  | [] => (true, 0)
  | lower :: _ => ((tokenBound lower).isSome, (tokenBound lower).getD 0)

def tierLess (a b : TieredPrice) : Bool :=
  if (tierOrder a).1 ≠ (tierOrder b).1 then (tierOrder a).1 else (tierOrder a).2 < (tierOrder b).2

/-- Tiers that start at no tokens are dropped: the entry itself is for them. -/
def tieredVariants (model : List Char) (tiers : List TieredPrice) : List PriceVariant :=
  (tiers.insertionSort fun a b => !tierLess b a).flatMap fun tier =>
    if !tier.costs.all validOptionalCost || !tier.costs.any Option.isSome then []
    else
      match tierBounds tier with
      | none => []
      | some (lower, upper) =>
        if lower = 0 then []
        else tokenVariant mul
          { model := model, seq := 0, ctxMin := some lower
            ctxMax := if upper > lower then some upper else none } tier.costs

end

/-- A context threshold in tokens, and the service tier or nothing. -/
structure AboveKey where
  threshold : Int
  tier : String
  deriving DecidableEq

/-- The prices above one threshold. -/
structure AbovePrice where
  input : Option Int := none
  output : Option Int := none
  cacheRead : Option Int := none
  cacheWrite : Option Int := none

inductive AboveComponent where
  | input
  | output
  | cacheRead
  | cacheWrite

def AbovePrice.set (a : AbovePrice) (component : AboveComponent) (price : Int) : AbovePrice :=
  match component with
  | .input => { a with input := some price }
  | .output => { a with output := some price }
  | .cacheRead => { a with cacheRead := some price }
  | .cacheWrite => { a with cacheWrite := some price }

def abovePrefixes : List (List Char × AboveComponent) :=
  [("input_cost_per_token_above_".toList, .input),
    ("output_cost_per_token_above_".toList, .output),
    ("cache_read_input_token_cost_above_".toList, .cacheRead),
    ("cache_creation_input_token_cost_above_".toList, .cacheWrite)]

/-- No prefix begins another, so the order in which they are tried does not matter. -/
def aboveComponent (key : List Char) : Option (AboveComponent × List Char) :=
  abovePrefixes.findSome? fun p =>
    if p.1.isPrefixOf key then some (p.2, key.drop p.1.length) else none

/-- The text before a suffix that it ends in. -/
def cutSuffix (suffix s : List Char) : Option (List Char) :=
  if suffix.isSuffixOf s then some (s.take (s.length - suffix.length)) else none

def aboveTier (rest : List Char) : List Char × String :=
  match cutSuffix "_priority".toList rest, cutSuffix "_flex".toList rest with
  | some before, _ => (before, "priority")
  | none, some before => (before, "flex")
  | none, none => (rest, "")

/-- The key, component and price that a field of the entry stands for. -/
def abovePrice {Raw : Type} (mul : ℚ → ℚ → Option ℚ) (D : Decoders Raw)
    (field : List Char × Raw) : Option (AboveKey × AboveComponent × Int) := do
  let (component, rest) ← aboveComponent field.1
  let (rest, tier) := aboveTier rest
  let n ← Text.parseInt64 (← cutSuffix "k_tokens".toList rest)
  if n ≤ 0 ∨ n > maxInt64 / 1000 then none
  else
    let f ← D.number field.2
    if f < 0 then none
    else some (⟨n * 1000, tier⟩, component, ← toMilliCentsPerMillion mul f)

def insertAbove (out : List (AboveKey × AbovePrice)) (k : AboveKey) (component : AboveComponent)
    (price : Int) : List (AboveKey × AbovePrice) :=
  if out.any (·.1 = k) then out.map fun p => if p.1 = k then (k, p.2.set component price) else p
  else out ++ [(k, ({} : AbovePrice).set component price)]

def extractAboveVariants {Raw : Type} (mul : ℚ → ℚ → Option ℚ) (D : Decoders Raw) (raw : Raw) :
    List (AboveKey × AbovePrice) :=
  (((D.fields raw).getD []).filterMap (abovePrice mul D)).foldl
    (fun out f => insertAbove out f.1 f.2.1 f.2.2) []

def aboveLess (a b : AboveKey) : Bool :=
  if a.threshold ≠ b.threshold then a.threshold > b.threshold
  else if (a.tier ≠ "") ≠ (b.tier ≠ "") then a.tier ≠ ""
  else a.tier < b.tier

def aboveVariants {Raw : Type} (mul : ℚ → ℚ → Option ℚ) (D : Decoders Raw) (model : List Char)
    (raw : Raw) : List PriceVariant :=
  (((extractAboveVariants mul D raw).insertionSort fun a b => !aboveLess b.1 a.1).map fun p =>
    { model := model, seq := 0, ctxMin := some p.1.threshold
      serviceTier := if p.1.tier ≠ "" then some p.1.tier else none
      setInputPerM := p.2.input, setOutputPerM := p.2.output
      setCacheReadPerM := p.2.cacheRead, setCacheCreationPerM := p.2.cacheWrite }).filter
    PriceVariant.hasEffect

def fastVariant (mul : ℚ → ℚ → Option ℚ) (model : List Char) (fast : Option ℚ) :
    List PriceVariant :=
  ((fast.bind (providerFastMultiplierBP mul)).map fun m =>
    { model := model, seq := 0, serviceTier := some "fast", multBP := some m }).toList

/-- The variants numbered from 1 on, in their order. -/
def withSeqs (vars : List PriceVariant) : List PriceVariant :=
  vars.mapIdx fun i v => { v with seq := i + 1 }

section
variable (S : Strings)

def variantHasService (v : PriceVariant) : Bool :=
  v.serviceTier.any fun tier => S.trimSpace tier.toList ≠ []

def variantHasContext (v : PriceVariant) : Bool := v.ctxMin.isSome || v.ctxMax.isSome

def variantSpecificityRank (v : PriceVariant) : Nat :=
  match variantHasService S v, variantHasContext v with
  | true, true => 0
  | true, false => 1
  | false, true => 2
  | false, false => 3

def variantContextMin (v : PriceVariant) : Int := v.ctxMin.getD 0

def variantContextMax (v : PriceVariant) : Int := v.ctxMax.getD maxInt64

/-- The more specific variant comes first, then the one with the higher threshold. -/
def variantLess (a b : PriceVariant) : Bool :=
  let context := variantHasContext a && variantHasContext b
  let service := variantHasService S a && variantHasService S b
  if variantSpecificityRank S a ≠ variantSpecificityRank S b then
    variantSpecificityRank S a < variantSpecificityRank S b
  else if context ∧ variantContextMin a ≠ variantContextMin b then
    variantContextMin a > variantContextMin b
  else if context ∧ variantContextMax a ≠ variantContextMax b then
    variantContextMax a < variantContextMax b
  else if service ∧ a.serviceTier ≠ b.serviceTier then
    a.serviceTier.getD "" < b.serviceTier.getD ""
  else a.seq < b.seq

def orderGeneratedVariants (vars : List PriceVariant) : List PriceVariant :=
  withSeqs (if vars.length < 2 then vars else vars.insertionSort fun a b => !variantLess S b a)

end

section
variable {Raw : Type} (mul : ℚ → ℚ → Option ℚ) (S : Strings) (D : Decoders Raw)

/-- A base price of the row; a price off the grid rejects the row. -/
def basePrice (v : Option ℚ) : Option (Option Int) :=
  if validCost v then (v.bind (toMilliCentsPerMillion mul)).map some else some none

/-- The tiers of an entry, without the prices that cannot be represented. -/
def tokenTiers (e : LitellmEntry Raw) : List TieredPrice :=
  (parseTieredPricing D e.tieredPricing).map fun tier =>
    { tier with costs := tier.costs.map (normalizeOptionalTokenCost mul) }

/-- The checks of a token entry, and its base prices. -/
def tokenCosts (e : LitellmEntry Raw) : Option TokenCosts :=
  let tiers := parseTieredPricing D e.tieredPricing
  if isFunctionPriceMode S e.mode &&
      (e.inputCostPerQuery.isSome || tiers.any fun tier => tier.inputCostPerQuery.isSome) then none
  else if !(e.costs.all validOptionalCost && e.priority.all validOptionalCost &&
      e.flex.all validOptionalCost) then none
  else if !validTokenTiers tiers then none
  else do
    let input ← normalizeBaseTokenCost mul e.costs.input
    let output ← normalizeBaseTokenCost mul e.costs.output
    let costs := baseCosts mul
      { input, output
        cacheRead := normalizeOptionalTokenCost mul e.costs.cacheRead
        cacheCreation := normalizeOptionalTokenCost mul e.costs.cacheCreation }
      (tokenTiers mul D e)
    if !isTokenPriceMode S e.mode costs.input costs.output then none
    else if !(validOptionalCost costs.input && validOptionalCost costs.output) then none
    else if !(validCost costs.input || validCost costs.output) then none
    else some costs

def tokenEntry (model : List Char) (raw : Raw) (e : LitellmEntry Raw) : Option PriceEntry := do
  let costs ← tokenCosts mul S D e
  let inputPerM ← basePrice mul costs.input
  let outputPerM ← basePrice mul costs.output
  some
    { model, inputPerM, outputPerM
      cacheReadPerM := pricePerMillion mul costs.cacheRead
      cacheWritePerM := pricePerMillion mul costs.cacheCreation
      maxInputTokens := windowTokens e.maxInputTokens
      maxOutputTokens := windowTokens e.maxOutputTokens
      provider := e.provider
      supportsPromptCaching := e.supportsPromptCaching
      raw := D.text raw }

def generatedVariants (model : List Char) (raw : Raw) (e : LitellmEntry Raw) : List PriceVariant :=
  let optional := normalizeOptionalTokenCost mul
  orderGeneratedVariants S (withSeqs
    (serviceVariant mul model "priority" (e.priority.map optional) ++
      serviceVariant mul model "flex" (e.flex.map optional) ++
      tieredVariants mul model (tokenTiers mul D e) ++ aboveVariants mul D model raw ++
      fastVariant mul model e.fast))

def parsePriceEntry (model : List Char) (raw : Raw) : Option (PriceEntry × List PriceVariant) := do
  let e ← D.entry raw
  let pe ← tokenEntry mul S D model raw e
  some (pe, generatedVariants mul S D model raw e)

def modelFloor (model : List Char) : Option Int :=
  if S.trimSpace model ∈ ["gpt-5.6".toList, "gpt-5.6-sol".toList] then some 3000000 else none

/-- A price raised to the floor; a missing base price becomes the floor. -/
def raisedTo (floor : Int) (price : Option Int) : Option Int :=
  some (price.elim floor (max floor))

def raisedEntry (pe : PriceEntry) : PriceEntry :=
  match modelFloor S pe.model with
  | none => pe
  | some floor => { pe with outputPerM := raisedTo floor pe.outputPerM }

def raisedVariant (model : List Char) (v : PriceVariant) : PriceVariant :=
  match modelFloor S model with
  | none => v
  | some floor => { v with setOutputPerM := v.setOutputPerM.map (max floor) }

def applyConservativeModelFloor (pe : PriceEntry) (vars : List PriceVariant) :
    PriceEntry × List PriceVariant :=
  (raisedEntry S pe, vars.map (raisedVariant S pe.model))

def imageArea (model : List Char) : Option ℚ :=
  (model.splitOn '/').findSome? fun part => do
    let part := S.toLower part
    let width := Text.cutBefore "-x-".toList part
    if width = part then none
    else
      let w ← Text.wholeNat width
      let h ← Text.wholeNat (part.drop (width.length + 3))
      if w = 0 ∨ h = 0 ∨ w ≥ 2 ^ 32 ∨ h ≥ 2 ^ 32 then none else mul w h

/-- The first positive price wins, then the price zero. -/
def preferPositive (prices : List Int) : Option Int :=
  (prices.find? (0 < ·)).or prices.head?

def imagePricePerImage (model : List Char) (e : LitellmEntry Raw) : Option Int :=
  let convert := fun price => if price < 0 then none else toMilliCentsPerImage mul price
  let flat := [e.outputCostPerImage, e.inputCostPerImage].reduceOption.filterMap convert
  let pixels := match imageArea mul S model with
    | none => []
    | some area => [e.outputCostPerPixel, e.inputCostPerPixel].reduceOption.filterMap fun q =>
        if q < 0 then none else (mul q area).bind convert
  preferPositive (flat ++ pixels)

/-- The entry of a model that makes images; it needs a price that can be scaled. -/
def parseImagePriceEntry (model : List Char) (raw : Raw) : Option PriceEntry := do
  let e ← D.entry raw
  let prices := [e.costs.input, e.costs.output, e.inputCostPerImageToken,
    e.outputCostPerImageToken, e.inputCostPerImage, e.outputCostPerImage, e.inputCostPerPixel,
    e.outputCostPerPixel]
  if !((e.costs.cacheRead :: e.costs.cacheCreation :: prices).all validOptionalCost) then none
  else if !isImagePriceMode S e.mode then none
  else if !prices.any validCost then none
  else
    let pe : PriceEntry :=
      { model, mode := .image
        inputPerM := pricePerMillion mul e.costs.input
        outputPerM := pricePerMillion mul e.costs.output
        cacheReadPerM := pricePerMillion mul e.costs.cacheRead
        cacheWritePerM := pricePerMillion mul e.costs.cacheCreation
        imgInTokPerM := pricePerMillion mul e.inputCostPerImageToken
        imgOutTokPerM := pricePerMillion mul e.outputCostPerImageToken
        pricePerImage := imagePricePerImage mul S model e
        maxInputTokens := windowTokens e.maxInputTokens
        maxOutputTokens := windowTokens e.maxOutputTokens
        provider := e.provider
        supportsPromptCaching := e.supportsPromptCaching
        raw := D.text raw }
    if [pe.inputPerM, pe.outputPerM, pe.imgInTokPerM, pe.imgOutTokPerM, pe.pricePerImage].all
        Option.isNone then none
    else some pe

def validFunctionRange (r : List ℚ) : Bool :=
  r.length ≤ 2 && (r.all fun v => 0 ≤ v && round v = v && v < 2 ^ 63) &&
    (r.length ≠ 2 || r.getD 0 0 ≤ r.getD 1 0)

def functionTierLess (a b : TieredPrice) : Bool :=
  let ri := a.maxResultsRange
  let rj := b.maxResultsRange
  if validFunctionRange ri ≠ validFunctionRange rj then validFunctionRange ri
  else if ri.getD 0 0 ≠ rj.getD 0 0 then ri.getD 0 0 < rj.getD 0 0
  else if (ri.length = 2) ≠ (rj.length = 2) then ri.length = 2
  else ri.length < rj.length

def orderedFunctionTiers (tiers : List TieredPrice) : List TieredPrice :=
  tiers.insertionSort fun a b => !functionTierLess b a

/-- The price per call: the entry's own, or that of the lowest tier that can be represented. -/
def queryPrice (e : LitellmEntry Raw) : Option ℚ :=
  if validCost e.inputCostPerQuery then e.inputCostPerQuery
  else (orderedFunctionTiers (parseTieredPricing D e.tieredPricing)).findSome? fun tier =>
    if validFunctionRange tier.maxResultsRange && validCost tier.inputCostPerQuery &&
        (tier.inputCostPerQuery.bind (toMilliCentsPerCall mul)).isSome then tier.inputCostPerQuery
    else none

def parseFunctionPriceEntry (model : List Char) (raw : Raw) : Option PriceEntry := do
  let e ← D.entry raw
  if !validOptionalCost e.inputCostPerQuery then none
  else if !isFunctionPriceMode S e.mode then none
  else
    let price ← queryPrice mul D e
    if price < 0 then none
    else (toMilliCentsPerCall mul price).map fun v =>
      { model, mode := .call, pricePerCall := some v, provider := e.provider, raw := D.text raw }

/-- What a price document gives. -/
structure FetchResult where
  priceEntries : List PriceEntry
  variants : List PriceVariant
  models : List (List Char)
  skipped : Nat
  deriving DecidableEq, Repr

inductive ParseError where
  | duplicateModel (model : List Char)
  deriving DecidableEq, Repr

/-- The trimmed models of the document; `normalized` are those before, and blank ones are counted.
-/
def normalizeDocument : List (List Char × Raw) → List (List Char × Raw) → Nat →
    Except ParseError (List (List Char × Raw) × Nat)
  | [], normalized, skipped => .ok (normalized, skipped)
  | (sourceModel, entry) :: rest, normalized, skipped =>
    let model := S.trimSpace sourceModel
    if model = [] then normalizeDocument rest normalized (skipped + 1)
    else if model ∈ normalized.map Prod.fst then .error (.duplicateModel model)
    else normalizeDocument rest (normalized ++ [(model, entry)]) skipped

/-- The row of a model with its variants: an image row, else a call row, else a token row. -/
def parseModel (model : List Char) (entry : Raw) : Option (PriceEntry × List PriceVariant) :=
  match parseImagePriceEntry mul S D model entry with
  | some pe => some (pe, [])
  | none =>
    match parseFunctionPriceEntry mul S D model entry with
    | some pe => some (pe, [])
    | none => (parsePriceEntry mul S D model entry).map fun p =>
        applyConservativeModelFloor S p.1 p.2

/-- The document as a map from models to entries. -/
def parse (raw : List (List Char × Raw)) : Except ParseError FetchResult := do
  let (normalized, skipped) ← normalizeDocument S raw [] 0
  let ordered := normalized.insertionSort fun a b => a.1 ≤ b.1
  let parsed := ordered.filterMap fun p => parseModel mul S D p.1 p.2
  .ok
    { priceEntries := parsed.map Prod.fst
      variants := parsed.flatMap Prod.snd
      models := ordered.map Prod.fst
      skipped := skipped + (ordered.length - parsed.length) }

end
end C4Gateway.Pricing
