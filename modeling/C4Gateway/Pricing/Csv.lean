import C4Gateway.Pricing.Fetch
import Mathlib.Data.List.Infix

/-! Price tables in CSV.  Several rows can be about one model; their prices are merged by maximum.
The records are those of `encoding/csv`, and what `strconv.ParseFloat` makes of a field is a
parameter, absent if it is an error or not finite. -/

namespace C4Gateway.Pricing

abbrev CsvRow := List (List Char)

/-- The column that a name of the header stands for. -/
abbrev CsvColumns := List Char → Option Nat

section
variable (mul : ℚ → ℚ → Option ℚ) (parseFloat : List Char → Option ℚ) (S : Strings)

/-- Of two columns with one name, the later one counts. -/
def csvColumns (header : CsvRow) : CsvColumns :=
  header.zipIdx.foldl (fun cols h =>
    let name := if h.1.head? = some '\uFEFF' then h.1.tail else h.1
    let name := S.toLower (S.trimSpace name)
    if name = [] then cols else Function.update cols name (some h.2)) fun _ => none

def firstCSVColumn (cols : CsvColumns) (names : List String) : Option Nat :=
  names.findSome? fun name => cols name.toList

def csvValue (cols : CsvColumns) (row : CsvRow) (names : List String) : List Char :=
  ((firstCSVColumn cols names).bind (row[·]?)).elim [] S.trimSpace

/-- The number of a field, which can be missing; absent is a field that rejects the row. -/
def parseCSVFloat (value : List Char) : Option (Option ℚ) :=
  let value := S.trimSpace value
  if value = [] || S.equalFold value "null".toList || value = ['-'] then some none
  else if validCost (parseFloat value) then some (parseFloat value) else none

def csvUSDPerMillion (value : ℚ) : Option Int := scaledPositiveInt64 mul value (10 ^ 5)

def csvStringPtr (value : List Char) : Option String :=
  if value = [] then none else some (String.ofList value)

/-- A price that can be missing; one that cannot be represented rejects the row. -/
def csvPrice (convert : ℚ → Option Int) : Option ℚ → Option (Option Int)
  | none => some none
  | some v => (convert v).map some

def csvProvider (cols : CsvColumns) (row : CsvRow) : List Char :=
  csvValue S cols row ["provider_id", "provider", "litellm_provider"]

/-- The entry of a row; absent is a row that is skipped. -/
def parseCSVPriceRow (cols : CsvColumns) (row : CsvRow) (model : List Char) :
    Option PriceEntry := do
  let number := fun names => parseCSVFloat parseFloat S (csvValue S cols row names)
  let provider := csvStringPtr (csvProvider S cols row)
  let mode := some (csvValue S cols row ["mode"])
  if isFunctionPriceMode S mode then
    let price ← number ["input_usd_per_query", "input_cost_per_query"]
    let v ← price.bind (toMilliCentsPerCall mul)
    some { model, mode := .call, pricePerCall := some v, provider }
  else
    let input ← number ["input_usd_per_1m"]
    let output ← number ["output_usd_per_1m"]
    let cacheRead ← number ["cache_read_usd_per_1m"]
    let cacheWrite ← number ["cache_write_usd_per_1m"]
    let imageInput ← number ["input_image_usd_per_1m", "input_cost_per_image_token"]
    let imageOutput ← number ["output_image_usd_per_1m", "output_cost_per_image_token"]
    let perImage ← number ["price_per_image", "input_usd_per_image", "output_usd_per_image"]
    if isImagePriceMode S mode || ([input, output, cacheRead, cacheWrite].all Option.isNone &&
        [imageInput, imageOutput, perImage].any Option.isSome) then
      let imgInTokPerM ← csvPrice (csvUSDPerMillion mul) imageInput
      let imgOutTokPerM ← csvPrice (csvUSDPerMillion mul) imageOutput
      let pricePerImage ← csvPrice (toMilliCentsPerImage mul) perImage
      if [imgInTokPerM, imgOutTokPerM, pricePerImage].all Option.isNone then none
      else some { model, mode := .image, imgInTokPerM, imgOutTokPerM, pricePerImage, provider }
    else
      let inputPerM ← csvPrice (csvUSDPerMillion mul) input
      let outputPerM ← csvPrice (csvUSDPerMillion mul) output
      let cacheReadPerM ← csvPrice (csvUSDPerMillion mul) cacheRead
      let cacheWritePerM ← csvPrice (csvUSDPerMillion mul) cacheWrite
      if [inputPerM, outputPerM, cacheReadPerM, cacheWritePerM].all Option.isNone then none
      else
        let context :=
          csvValue S cols row ["context_window_tokens", "context_tokens", "max_input_tokens"]
        some { model, inputPerM, outputPerM, cacheReadPerM, cacheWritePerM, provider
               maxInputTokens := (Text.parseInt64 context).filter (0 < ·) }

def maxInt64Ptr : Option Int → Option Int → Option Int
  | none, right => right
  | left, none => left
  | some l, some r => some (max l r)

/-- Every entry has a mode, so the merged one has that of the first row. -/
def mergeCSVEntriesConservative (left right : PriceEntry) : PriceEntry :=
  { left with
    inputPerM := maxInt64Ptr left.inputPerM right.inputPerM
    outputPerM := maxInt64Ptr left.outputPerM right.outputPerM
    cacheReadPerM := maxInt64Ptr left.cacheReadPerM right.cacheReadPerM
    cacheWritePerM := maxInt64Ptr left.cacheWritePerM right.cacheWritePerM
    pricePerCall := maxInt64Ptr left.pricePerCall right.pricePerCall
    imgInTokPerM := maxInt64Ptr left.imgInTokPerM right.imgInTokPerM
    imgOutTokPerM := maxInt64Ptr left.imgOutTokPerM right.imgOutTokPerM
    pricePerImage := maxInt64Ptr left.pricePerImage right.pricePerImage
    maxInputTokens := maxInt64Ptr left.maxInputTokens right.maxInputTokens }

/-- The prices are the same, whatever the provider. -/
def csvEntriesEquivalent (left right : PriceEntry) : Bool :=
  left.mode = right.mode && left.inputPerM = right.inputPerM &&
    left.outputPerM = right.outputPerM && left.cacheReadPerM = right.cacheReadPerM &&
    left.cacheWritePerM = right.cacheWritePerM && left.pricePerCall = right.pricePerCall &&
    left.imgInTokPerM = right.imgInTokPerM && left.imgOutTokPerM = right.imgOutTokPerM &&
    left.pricePerImage = right.pricePerImage

/-- How much the row's provider is trusted for the model. -/
def csvProviderScore (model provider : List Char) : Nat :=
  let p := S.toLower (S.trimSpace provider)
  let lower := S.toLower model
  -- what follows the last slash, if anything does
  let m := ((Text.afterLast ['/'] lower).filter (· ≠ [])).getD lower
  let official := fun (name owner : String) => decide (name.toList <+: m ∧ owner.toList <:+: p)
  if official "claude" "anthropic" || official "gpt-" "openai" || official "gemini" "google" ||
      decide (("kimi".toList <:+: m ∨ "moonshot".toList <:+: m) ∧ "moonshot".toList <:+: p) ||
      official "glm" "zhipu" || official "glm" "z.ai" then 100
  else if p ∈ ["anthropic".toList, "openai".toList, "google".toList] then 80
  else if p ≠ [] then 20 else 0

/-- Whether the row's provider takes the place of the one before. -/
def csvPreferred (model provider old : List Char) : Bool :=
  csvProviderScore S model provider > csvProviderScore S model old ||
    (csvProviderScore S model provider = csvProviderScore S model old &&
      S.toLower provider < S.toLower old)

/-- What the loop over the rows has collected. -/
structure CsvTable where
  models : List (List Char) := []
  skipped : Nat := 0
  byModel : List Char → Option PriceEntry := fun _ => none
  providerByModel : List Char → List Char := fun _ => []

namespace CsvTable

def set (t : CsvTable) (model : List Char) (entry : PriceEntry) : CsvTable :=
  { t with byModel := Function.update t.byModel model (some entry) }

def setFrom (t : CsvTable) (model provider : List Char) (entry : PriceEntry) : CsvTable :=
  { t.set model entry with
    providerByModel := Function.update t.providerByModel model provider }

/-- An accepted row is taken into the table. -/
def addEntry (t : CsvTable) (model provider : List Char) (entry : PriceEntry) : CsvTable :=
  match t.byModel model with
  | none => t.setFrom model provider entry
  | some previous =>
    if csvEntriesEquivalent previous entry then
      if previous.provider = none ∧ provider ≠ [] then
        t.setFrom model provider { previous with provider := csvStringPtr provider }
      else t
    else
      let merged := mergeCSVEntriesConservative previous entry
      if csvPreferred S model provider (t.providerByModel model) then
        t.setFrom model provider { merged with provider := csvStringPtr provider }
      else t.set model merged

def skip (t : CsvTable) : CsvTable := { t with skipped := t.skipped + 1 }

/-- One row; a model is listed even if its row is skipped. -/
def addRow (cols : CsvColumns) (modelCol : Nat) (t : CsvTable) (row : CsvRow) : CsvTable :=
  match (row[modelCol]?).map S.trimSpace with
  | none | some [] => t.skip
  | some model =>
    let t := { t with models := if model ∈ t.models then t.models else t.models ++ [model] }
    match parseCSVPriceRow mul parseFloat S cols row model with
    | none => t.skip
    | some entry => t.addEntry S model (csvProvider S cols row) entry

end CsvTable

/-- Why a document is refused as a whole. -/
inductive CsvError where
  | headerEmpty
  | modelColumnRequired

/-- The entries come in the order of their models, which are all among those of the table. -/
def parseCSV (header : CsvRow) (rows : List CsvRow) : Except CsvError FetchResult :=
  let cols := csvColumns S header
  match header, firstCSVColumn cols ["model_id", "model_key", "model", "model_name"] with
  | [], _ => .error .headerEmpty
  | _, none => .error .modelColumnRequired
  | _, some modelCol =>
    let t := rows.foldl (CsvTable.addRow mul parseFloat S cols modelCol) {}
    let models := t.models.insertionSort (· ≤ ·)
    .ok { priceEntries := models.filterMap t.byModel, variants := [], models, skipped := t.skipped }

end

end C4Gateway.Pricing
